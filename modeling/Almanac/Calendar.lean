import Almanac.Easter
import Almanac.Store
import Almanac.Template.Scan

/-!
A calendar is a store together with the text that joins two holidays of one day. It gives each date
the values that a template can ask for, and fills templates with them.
-/

namespace Almanac

/-- The values of the topics on one date; the empty text where there is nothing to say. -/
structure DayValues where
  longDate : String
  names : String
  holiday : String
  worldDay : String
deriving DecidableEq, Repr

def DayValues.get (values : DayValues) : Topic → String
  | .longDate => values.longDate
  | .names => values.names
  | .holiday => values.holiday
  | .worldDay => values.worldDay

structure Calendar where
  store : Store
  /-- Stands between the moving and the fixed holiday of one day. -/
  separator : String := ", "

namespace Calendar

/-- The moving holiday of a date, found by its key among those of its year. -/
def movingHoliday? (date : Date) : Option String :=
  ((Easter.holidaysByKey date.year).lookup (.ofDate date)).map EasterHoliday.name

/-- The holidays of a date, the moving one first. -/
def holidayText (c : Calendar) (date : Date) : String :=
  let fixed := (c.store.lookup (.ofDate date)).bind Facts.presentHoliday
  c.separator.intercalate ((movingHoliday? date).toList ++ fixed.toList)

def valuesOn (c : Calendar) (date : Date) : DayValues where
  longDate := date.longText
  names := ((c.store.lookup (.ofDate date)).bind Facts.presentNames).getD ""
  holiday := c.holidayText date
  worldDay := ((c.store.lookup (.ofDate date)).bind Facts.presentWorldDay).getD ""

end Calendar

/-! ### Filling a template

The text is kept in pieces, and each marker in turn is looked for by its exact text in those pieces
that are still pending. So equal markers share one replacement, and a value that was put in is never
searched. -/

/-- A piece of the output: template text not yet searched through, or a value. -/
inductive Piece
  | pending (text : List Char)
  | done (text : List Char)
deriving DecidableEq, Repr

namespace Piece
variable {p q : Piece} {ps qs : List Piece} {marker value : List Char}

def chars : Piece → List Char
  | pending text => text
  | done text => text

/-- Puts `value` in the place of `marker` within one piece. -/
def substitute (marker value : List Char) : Piece → List Piece
  | done text => [done text]
  | pending text =>
    match Text.parts marker text with
    | [] => []
    | first :: others => pending first :: others.flatMap fun part => [done value, pending part]

def substituteAll (marker value : List Char) (ps : List Piece) : List Piece :=
  ps.flatMap (substitute marker value)

@[simp] theorem substitute_done (text : List Char) :
    substitute marker value (done text) = [done text] := rfl

@[simp] theorem substituteAll_nil : substituteAll marker value [] = [] := rfl

end Piece

namespace Calendar

/-- The text for a marker; a marker with an unknown key has none. -/
def replacement (values : DayValues) (m : Marker) : String :=
  match m.topic? with
  | some topic => m.expand (values.get topic)
  | none => ""

def fill (values : DayValues) (t : Template) : List Piece :=
  t.markers.foldl
    (fun ps m => Piece.substituteAll m.source.toList (replacement values m).toList ps)
    [.pending t.source.toList]

def renderTemplate (c : Calendar) (date : Date) (t : Template) : String :=
  String.ofList ((fill (c.valuesOn date) t).flatMap Piece.chars)

def render (c : Calendar) (date : Date) (template : String) : String :=
  c.renderTemplate date (.scan template)

end Calendar

end Almanac
