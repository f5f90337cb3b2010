import Almanac.Date

/-!
What the program can be asked to do.
-/

namespace Almanac.Command

/-- What decides whether words are set off by colour where the line leaves it open: a terminal, and
two variables of the environment. -/
class Screen where
  /-- Output goes to a terminal that shows colour. -/
  terminal : Bool
  forceColour : Option String
  noColour : Option String

namespace Screen

/-- Output that goes to a file, with neither variable set. -/
instance : Screen := ⟨false, none, none⟩

/-- A number that is zero, as it is read without a sign or behind a plus. -/
def isZero (word : String) : Bool :=
  let digits := match word.toList with
    | '+' :: digits => digits
    | digits => digits
  digits ≠ [] ∧ digits.all (· = '0')

def forces (s : Screen) : Bool := s.forceColour.any fun word => word ≠ "false" ∧ ¬ isZero word

def forbids (s : Screen) : Bool := s.noColour.any fun word => word ≠ "0"

end Screen

/-- When words are set off by colour. -/
inductive Colour
  | auto | always | never
deriving DecidableEq, Repr

namespace Colour

def all : List Colour := [auto, always, never]

def word : Colour → String
  | auto => "auto"
  | always => "always"
  | never => "never"

def ofWord? (word : String) : Option Colour := all.find? (·.word = word)

/-- Whether to use colour. -/
def inUse (screen : Screen) : Colour → Bool
  | auto => screen.forces || (screen.terminal && !screen.forbids)
  | always => true
  | never => false

theorem ofWord?_word (c : Colour) : ofWord? c.word = some c := by cases c <;> decide

end Colour

/-- The commands by name. -/
inductive Verb
  | render | easter | check | save
deriving DecidableEq, Repr

namespace Verb

def all : List Verb := [render, easter, check, save]

def word : Verb → String
  | render => "render"
  | easter => "easter"
  | check => "check"
  | save => "export"

def ofWord? (word : String) : Option Verb := all.find? (·.word = word)

theorem ofWord?_word (v : Verb) : ofWord? v.word = some v := by cases v <;> decide

end Verb

/-- A command with all that was settled for it. Data are a path, or none for the bundled ones. -/
inductive Request
  /-- Fills a template for a date. -/
  | render (template : String) (date : Date) (data : Option String) (json : Bool)
  /-- Lists the moving holidays of a year. -/
  | easter (year : Int) (json : Bool)
  /-- Counts what data files hold. -/
  | check (paths : List String) (strict json : Bool)
  /-- Writes a data file. -/
  | save (path : String) (data : Option String)
deriving DecidableEq, Repr

/-- What is told of a request when much is to be told. -/
def Request.notes : Request → List String
  | render _ _ none _ | save _ none => ["using bundled calendar"]
  | _ => []

structure Settings where
  colour : Colour
  verbose : Bool
deriving DecidableEq, Repr

inductive Invocation
  | help | version
  | run (settings : Settings) (request : Request)
deriving DecidableEq, Repr

def Invocation.notes : Invocation → List String
  | run settings request => if settings.verbose then request.notes else []
  | help | version => []

end Almanac.Command
