import Almanac.Template.Scan

/-!
Reading a template by attempts that can fail after they have read on. A choice makes each of its
attempts from the same place. A repetition goes back to where the attempt began that ends it, and it
gets stuck where an attempt takes nothing.
-/

namespace Almanac.Template

/-- How an attempt at a text ends, and what it leaves of the text. -/
inductive Attempt (α : Type)
  | taken (value : α) (rest : List Char)
  | failed (rest : List Char)
deriving DecidableEq, Repr

namespace Attempt
variable {α β : Type}

/-- What was taken, whatever a failure leaves. -/
def found? : Attempt α → Option (α × List Char)
  | taken value rest => some (value, rest)
  | failed _ => none

/-- Goes on where an attempt left off. A failure is left as it is. -/
def andThen : Attempt α → (α → List Char → Attempt β) → Attempt β
  | taken value rest, next => next value rest
  | failed rest, _ => failed rest

def character (c : Char) : List Char → Attempt Unit
  | d :: cs => if d = c then taken () cs else failed (d :: cs)
  | [] => failed []

/-- The text up to the first `stop` or to the end, if it has `least` characters. -/
def upTo (least : Nat) (stop : Char) (cs : List Char) : Attempt (List Char) :=
  let run := cs.takeWhile (· ≠ stop)
  if least ≤ run.length then taken run (cs.dropWhile (· ≠ stop)) else failed cs

/-- The first of some attempts that takes something. -/
def choice : List (List Char → Attempt α) → List Char → Attempt α
  | [], cs => failed cs
  | attempt :: others, cs =>
    match attempt cs with
    | taken value rest => taken value rest
    | failed _ => choice others cs

/-- How a repetition ends. -/
inductive Repeated (α : Type)
  | values (values : List α) (left : List Char)
  | stuck (left : List Char)

/-- A repetition of one attempt, from a text to its end. -/
inductive Repeats (attempt : List Char → Attempt α) : List Char → Repeated α → Prop
  | stop {cs left : List Char} (h : attempt cs = failed left) :
    Repeats attempt cs (.values [] cs)
  | stuck {cs rest : List Char} {value : α} (h : attempt cs = taken value rest)
    (hnone : rest.length = cs.length) : Repeats attempt cs (.stuck rest)
  | more {cs rest left : List Char} {value : α} {values : List α}
    (h : attempt cs = taken value rest) (hsome : rest.length ≠ cs.length)
    (hrest : Repeats attempt rest (.values values left)) :
    Repeats attempt cs (.values (value :: values) left)
  | moreStuck {cs rest left : List Char} {value : α} (h : attempt cs = taken value rest)
    (hsome : rest.length ≠ cs.length) (hrest : Repeats attempt rest (.stuck left)) :
    Repeats attempt cs (.stuck left)

/-- A marker: what stands between two braces, without a closing one. -/
def marker (cs : List Char) : Attempt Segment :=
  (character '{' cs).andThen fun _ cs =>
    (upTo 0 '}' cs).andThen fun body cs =>
      (character '}' cs).andThen fun _ rest => taken (.marker ⟨String.ofList body⟩) rest

/-- A run of text up to the next opening brace. -/
def run (cs : List Char) : Attempt Segment :=
  (upTo 1 '{' cs).andThen fun text rest => taken (.literal (String.ofList text)) rest

/-- An opening brace by itself. -/
def brace (cs : List Char) : Attempt Segment :=
  (character '{' cs).andThen fun _ rest => taken (.literal (String.singleton '{')) rest

/-- The attempts at a segment in their order. -/
def alternatives : List (List Char → Attempt Segment) := [marker, run, brace]

def segment : List Char → Attempt Segment := choice alternatives

end Attempt
end Almanac.Template
