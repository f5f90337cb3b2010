import Almanac.Proofs.RoundTrip
import Mathlib.Data.List.TakeWhile

/-! One fault makes a data file unreadable, whatever records were read before it. -/

namespace Almanac

namespace Json
variable {α σ : Type} {cs rest bound : List Char} {first : Bool} {f : Failure}
  {element : List Char → Except Failure (α × List Char)} {write : α → List Char}
  {member : σ → List Char → List Char → Except Stop (σ × List Char)} {state : σ}

/-- The items of a list, laid out, with one more item to come. -/
def itemsThen (indent : Nat) (items : List (List Char)) (next : List Char) : List Char :=
  match items with
  | [] => newline indent ++ next
  | item :: items => newline indent ++ (item ++ ',' :: itemsThen indent items next)

/-- What stands between an item and the one before it. -/
def separator (first : Bool) : List Char := if first then [] else [',']

theorem nextElement_item (indent : Nat) (h : Begins .list cs) :
    nextElement first (separator first ++ (newline indent ++ (cs ++ rest))) =
      .ok (true, cs ++ rest) := by
  cases first with
  | true => exact nextElement_first (lineSpaces indent) h
  | false => exact nextElement_comma .none (lineSpaces indent) h

theorem length_lt_itemsThen (indent : Nat) (items : List (List Char)) (next : List Char) :
    items.length < (itemsThen indent items next).length := by
  induction items with
  | nil => simp [itemsThen, newline]
  | cons item items ih =>
    simp only [itemsThen, List.length_append, List.length_cons]
    omega

theorem readElements_itemsThen {xs done : List α} {next : List Char} (first : Bool) (indent : Nat)
    (hnext : Begins .list next) (hfail : element next = .error f)
    (hbound : xs.length < bound.length) (hstart : ∀ x, Begins .list (write x))
    (hread : ∀ x rest, element (write x ++ rest) = .ok (x, rest)) :
    readElements element bound first done
      (separator first ++ itemsThen indent (xs.map write) next) = .error f := by
  induction xs generalizing bound done first with
  | nil =>
    obtain ⟨b, bound, rfl⟩ := List.exists_cons_of_length_pos hbound
    have hitem := @nextElement_item next [] first indent hnext
    rw [List.append_nil] at hitem
    simp only [List.map_nil, itemsThen, readElements, hitem, hfail, bind, Except.bind]
  | cons x xs ih =>
    obtain ⟨b, bound, rfl⟩ := List.exists_cons_of_length_pos (Nat.zero_lt_of_lt hbound)
    rw [List.map_cons, itemsThen]
    exact (readElements_step (nextElement_item indent (hstart x)) (hread x _)).trans
      (ih false (by simpa using hbound))

theorem readMembers_fail {name rest' : List Char} {stop : Stop} (hbound : bound ≠ [])
    (hname : nextName first cs = .ok (true, rest)) (htext : readText rest = .ok (name, rest'))
    (hmember : member state name rest' = .error stop) :
    readMembers member bound first state cs = .error stop := by
  obtain ⟨b, bound, rfl⟩ := List.exists_cons_of_ne_nil hbound
  simp [readMembers, hname, htext, hmember, bind, Except.bind]

end Json

namespace DataFile
open Json
variable {c : Char} {cs rest : List Char} {f : Failure}

/-- A data file up to its records, and one more record to come. -/
def fileThen (records : List Facts) (next : List Char) : List Char :=
  '{' :: (newline 2 ++ writeMember datesName
    ('[' :: itemsThen 4 (records.map fun facts => layOutObject 4 (members facts)) next))

/-- A record that cannot be read makes the file unreadable, in the place where the record is. -/
theorem decode_fileThen (records : List Facts) (hc : isSpace c = false) (hend : c ≠ ']')
    (hfail : readFacts (c :: cs) = .error f) :
    decode (fileThen records (c :: cs)) = .error (f.error (fileThen records (c :: cs))) := by
  let list := itemsThen 4 (records.map fun facts => layOutObject 4 (members facts)) (c :: cs)
  have hstart (facts : Facts) : Begins .list (layOutObject 4 (members facts)) :=
    begins_record (isRecord_layOutObject 4 facts)
  let m : MemberText := .written datesName ('[' :: list)
  have hlist : readList readFacts (m.afterColon.chars ++ (m.value ++ [])) = .error f := by
    have hbound := length_lt_itemsThen 4
      (records.map fun facts => layOutObject 4 (members facts)) (c :: cs)
    rw [List.length_map] at hbound
    have helements : readElements readFacts list true [] list = .error f :=
      readElements_itemsThen true 4 ⟨c, cs, rfl, hc, hend⟩ hfail hbound hstart readFacts_layOut
    change readList readFacts (m.afterColon.chars ++ '[' :: (list ++ [])) = .error f
    rw [List.append_nil, readList, skipSpace_cons m.afterColon.isSpace (by decide)]
    simp only [helements, bind, Except.bind]
  have hmember : readFileMember none datesName.toList (m.afterName []) = .error (.failed f) := by
    simp only [readFileMember, if_true, Option.isSome_none, Bool.false_eq_true, if_false,
      expectColon_afterName, hlist, bind, Except.bind]
    rfl
  have hfile : fileThen records (c :: cs) =
      '{' :: ((lineSpaces 2).chars ++ '"' :: (m.name ++ '"' :: m.afterName [])) := by
    rw [← m.chars_append, chars_written, List.append_nil]
    rfl
  have hread : readFile (fileThen records (c :: cs)) = .error f := by
    have hbrace := @readRecord_brace (List Facts) "CalendarFile" fileFromList fileFromObject .none
      ((lineSpaces 2).chars ++ '"' :: (m.name ++ '"' :: m.afterName []))
    rw [hfile]
    refine hbrace.trans ?_
    rw [fileFromObject, readMembers_fail (by simp) (nextName_first (lineSpaces 2))
      (readText_spells (names_written _ _) _) hmember]
    rfl
  rw [decode, readWhole, hread]

/-- Nor may anything but space stand behind the file. -/
theorem decode_encode_then (records : List Facts) (hrest : ¬ rest.all isSpace) :
    decode (encode records ++ rest) =
      .error ((Failure.within .trailingCharacters (skipSpace rest)).error
        (encode records ++ rest)) := by
  have hskip : skipSpace rest ≠ [] := by
    intro hnil
    exact hrest (List.all_eq_true.2 (List.dropWhile_eq_nil_iff.1 hnil))
  obtain ⟨c, cs, hcs⟩ := List.exists_cons_of_ne_nil hskip
  have hend : expectEnd rest = .error (.within .trailingCharacters (skipSpace rest)) := by
    rw [expectEnd, hcs]
  simp only [decode, readWhole, readFile_encode, hend]

end DataFile
end Almanac
