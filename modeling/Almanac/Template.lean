import Almanac.Text

/-!
Templates: literal text with markers in braces. The body of a marker is a key and, after the first
colon, a sub-format in which `[value]` stands for the value of the key.
-/

namespace Almanac

/-- What a marker can ask for. -/
inductive Topic
  | longDate | names | holiday | worldDay
deriving DecidableEq, Repr

namespace Topic

def all : List Topic := [longDate, names, holiday, worldDay]

def word : Topic → String
  | longDate => "longdate"
  | names => "nameday"
  | holiday => "holiday"
  | worldDay => "worldday"

def ofWord? (word : String) : Option Topic := all.find? (·.word = word)

theorem ofWord?_word (t : Topic) : ofWord? t.word = some t := by
  cases t <;> decide

end Topic

/-- A marker, given by the text between its braces. Its source, key and sub-format are all made from
that text, so there is no marker in which they do not fit together. -/
structure Marker where
  body : String
deriving DecidableEq, Repr

namespace Marker

/-- The marker as it stands in a template. -/
def source (m : Marker) : String := String.ofList ('{' :: m.body.toList ++ ['}'])

/-- The body up to its first colon. -/
def key (m : Marker) : String := String.ofList (m.body.toList.takeWhile (· ≠ ':'))

/-- The body after its first colon; nothing there is no sub-format. -/
def subformat (m : Marker) : Option String :=
  match (m.body.toList.dropWhile (· ≠ ':')).tail with
  | [] => none
  | rest => some (String.ofList rest)

def topic? (m : Marker) : Option Topic := Topic.ofWord? m.key

def placeholder : List Char := "[value]".toList

/-- The text for a value. A blank value gives no text, whatever the sub-format. -/
def expand (m : Marker) (value : String) : String :=
  if isBlank value.toList then ""
  else match m.subformat with
    | none => value
    | some format => String.ofList (Text.replace placeholder value.toList format.toList)

end Marker

inductive Segment
  | literal (text : String)
  | marker (m : Marker)
deriving DecidableEq, Repr

def Segment.source : Segment → String
  | literal text => text
  | marker m => m.source

structure Template where
  segments : List Segment
deriving DecidableEq, Repr

namespace Template

/-- A template without markers. -/
def literal (text : String) : Template := ⟨if text = "" then [] else [.literal text]⟩

/-- The markers in order, repeated ones included. -/
def markers (t : Template) : List Marker :=
  t.segments.filterMap fun
    | .literal _ => none
    | .marker m => some m

/-- The text that the template was read from. -/
def source (t : Template) : String :=
  String.ofList (t.segments.flatMap fun segment => segment.source.toList)

end Template
end Almanac
