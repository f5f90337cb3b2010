import Almanac.Json.Fault

/-!
The steps of a reader. A step takes the unread text and gives what is left of it, or fails; inside a
list or an object a step also says whether another item follows.
-/

namespace Almanac.Json

def isSpace (c : Char) : Bool := c = ' ' ∨ c = '\n' ∨ c = '\t' ∨ c = '\r'

def skipSpace (cs : List Char) : List Char := cs.dropWhile isSpace

/-- Takes the characters of a word. -/
def expectWord : List Char → List Char → Except Failure (List Char)
  | [], cs => .ok cs
  | _ :: _, [] => .error (.before .endInValue [])
  | w :: ws, c :: cs => if c = w then expectWord ws cs else .error (.within .expectedWord (c :: cs))

def expectColon (cs : List Char) : Except Failure (List Char) :=
  match skipSpace cs with
  | ':' :: rest => .ok rest
  | [] => .error (.within .endInObject [])
  | rest => .error (.within .expectedColon rest)

/-- Goes to the next element of a list, or to its end bracket when there is none. -/
def nextElement (first : Bool) (cs : List Char) : Except Failure (Bool × List Char) :=
  match skipSpace cs with
  | [] => .error (.within .endInList [])
  | ']' :: rest => .ok (false, ']' :: rest)
  | ',' :: rest =>
    if first then .ok (true, ',' :: rest)
    else match skipSpace rest with
      | [] => .error (.within .endInValue [])
      | ']' :: rest => .error (.within .trailingComma (']' :: rest))
      | rest => .ok (true, rest)
  | rest => if first then .ok (true, rest) else .error (.within .expectedListEnd rest)

/-- Goes past the opening quote of the next name in an object, or to its end brace when there is
none. -/
def nextName (first : Bool) (cs : List Char) : Except Failure (Bool × List Char) :=
  match skipSpace cs with
  | [] => .error (.within .endInObject [])
  | '}' :: rest => .ok (false, '}' :: rest)
  | ',' :: rest =>
    if first then .error (.within .nameNotText (',' :: rest))
    else match skipSpace rest with
      | [] => .error (.within .endInValue [])
      | '"' :: rest => .ok (true, rest)
      | '}' :: rest => .error (.within .trailingComma ('}' :: rest))
      | rest => .error (.within .nameNotText rest)
  | '"' :: rest =>
    if first then .ok (true, rest) else .error (.within .expectedObjectEnd ('"' :: rest))
  | rest =>
    if first then .error (.within .nameNotText rest) else .error (.within .expectedObjectEnd rest)

/-- Takes the end bracket of a list. -/
def closeList (cs : List Char) : Except Failure (List Char) :=
  match skipSpace cs with
  | [] => .error (.within .endInList [])
  | ']' :: rest => .ok rest
  | ',' :: rest =>
    match skipSpace rest with
    | ']' :: rest => .error (.within .trailingComma (']' :: rest))
    | rest => .error (.within .trailingCharacters rest)
  | rest => .error (.within .trailingCharacters rest)

/-- Takes the end brace of an object. -/
def closeObject (cs : List Char) : Except Failure (List Char) :=
  match skipSpace cs with
  | [] => .error (.within .endInObject [])
  | '}' :: rest => .ok rest
  | ',' :: rest => .error (.within .trailingComma (',' :: rest))
  | rest => .error (.within .trailingCharacters rest)

/-- Succeeds where nothing but space is left. -/
def expectEnd (cs : List Char) : Except Failure Unit :=
  match skipSpace cs with
  | [] => .ok ()
  | rest => .error (.within .trailingCharacters rest)

theorem skipSpace_append {spaces : List Char} (h : spaces.all isSpace) (cs : List Char) :
    skipSpace (spaces ++ cs) = skipSpace cs := by
  induction spaces with
  | nil => rfl
  | cons c spaces ih => simp_all [skipSpace]

theorem skipSpace_cons {spaces : List Char} {c : Char} (h : spaces.all isSpace)
    (hc : isSpace c = false) (cs : List Char) : skipSpace (spaces ++ c :: cs) = c :: cs := by
  rw [skipSpace_append h, skipSpace, List.dropWhile_cons_of_neg (by simp [hc])]

end Almanac.Json
