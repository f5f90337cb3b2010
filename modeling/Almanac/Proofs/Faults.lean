import Almanac.DataFile.Decode
import Almanac.Proofs.Layouts

/-! The faults that a data file can have. Nearly all readers fail for the form of a text alone; only
a few faults cite a name, a value or a key. -/

namespace Almanac

namespace Json
variable {α : Type} {expected : Expected} {cs : List Char}

/-- A fault that cites nothing. -/
def Fault.IsFormal : Fault → Prop
  | invalidType _ _ | missingField _ | repeatedField _ | emptyRecord _ _ | invalidKey _ => False
  | _ => True

@[simp] theorem isFormal_of_form :
    Fault.endInValue.IsFormal ∧ Fault.endInList.IsFormal ∧ Fault.endInObject.IsFormal ∧
    Fault.endInText.IsFormal ∧ Fault.expectedColon.IsFormal ∧ Fault.expectedListEnd.IsFormal ∧
    Fault.expectedObjectEnd.IsFormal ∧ Fault.expectedValue.IsFormal ∧
    Fault.expectedWord.IsFormal ∧ Fault.invalidEscape.IsFormal ∧ Fault.invalidNumber.IsFormal ∧
    Fault.numberTooLarge.IsFormal ∧ Fault.controlCharacter.IsFormal ∧ Fault.nameNotText.IsFormal ∧
    Fault.loneSurrogate.IsFormal ∧ Fault.missingSurrogate.IsFormal ∧ Fault.trailingComma.IsFormal ∧
    Fault.trailingCharacters.IsFormal := by
  simp [Fault.IsFormal]

/-- Reading that fails for the form of a text alone. -/
abbrev Formal (result : Except Failure α) : Prop := FailsOnly (fun f => f.fault.IsFormal) result

@[simp] theorem fault_before (fault : Fault) (rest : List Char) :
    (Failure.before fault rest).fault = fault := rfl

@[simp] theorem fault_within (fault : Fault) (rest : List Char) :
    (Failure.within fault rest).fault = fault := rfl

/-! ### Signs -/

@[simp] theorem formal_expectWord (ws cs : List Char) : Formal (expectWord ws cs) := by
  fun_induction expectWord ws cs <;> simp [*]

@[simp] theorem formal_expectColon (cs : List Char) : Formal (expectColon cs) := by
  fun_cases expectColon cs <;> simp

@[simp] theorem formal_nextElement (first : Bool) (cs : List Char) :
    Formal (nextElement first cs) := by
  fun_cases nextElement first cs <;> simp

@[simp] theorem formal_nextName (first : Bool) (cs : List Char) : Formal (nextName first cs) := by
  fun_cases nextName first cs <;> simp

@[simp] theorem formal_closeList (cs : List Char) : Formal (closeList cs) := by
  fun_cases closeList cs <;> simp

@[simp] theorem formal_closeObject (cs : List Char) : Formal (closeObject cs) := by
  fun_cases closeObject cs <;> simp

@[simp] theorem formal_expectEnd (cs : List Char) : Formal (expectEnd cs) := by
  fun_cases expectEnd cs <;> simp

/-! ### Strings -/

@[simp] theorem formal_readUnit (cs : List Char) : Formal (readUnit cs) := by
  unfold readUnit
  split <;> try split
  all_goals simp

@[simp] theorem formal_readLowSurrogate (high : Nat) (cs : List Char) :
    Formal (readLowSurrogate high cs) := by
  fun_cases readLowSurrogate high cs
  case case3 =>
    simp only [failsOnly_bind, formal_readUnit, true_and]
    intro unit _
    split <;> simp
  all_goals simp

@[simp] theorem formal_readEscape (cs : List Char) : Formal (readEscape cs) := by
  fun_cases readEscape cs
  case case2 =>
    simp only [failsOnly_bind, formal_readUnit, true_and]
    intro unit _
    repeat' split
    all_goals simp
  all_goals simp

@[simp] theorem formal_readTextFrom (bound done cs : List Char) :
    Formal (readTextFrom bound done cs) := by
  fun_induction readTextFrom bound done cs <;> simp [*]

@[simp] theorem formal_readText (cs : List Char) : Formal (readText cs) :=
  formal_readTextFrom cs [] cs

@[simp] theorem formal_skipEscape (cs : List Char) : Formal (skipEscape cs) := by
  fun_cases skipEscape cs <;> simp

@[simp] theorem formal_skipTextFrom (bound cs : List Char) : Formal (skipTextFrom bound cs) := by
  fun_induction skipTextFrom bound cs <;> simp [*]

@[simp] theorem formal_skipText (cs : List Char) : Formal (skipText cs) := formal_skipTextFrom cs cs

/-! ### Numbers -/

@[simp] theorem formal_finishFloat (negative : Bool) (s : Scaled) (cs : List Char) :
    Formal (finishFloat negative s cs) := by
  fun_cases finishFloat negative s cs <;> simp

@[simp] theorem formal_readExponent (negative : Bool) (s : Scaled) (cs : List Char) :
    Formal (readExponent negative s cs) := by
  unfold readExponent
  repeat' split
  all_goals simp

@[simp] theorem formal_readFloatTail (negative : Bool) (s : Scaled) (cs : List Char) :
    Formal (readFloatTail negative s cs) := by
  fun_cases readFloatTail negative s cs <;> simp

@[simp] theorem formal_readFraction (negative : Bool) (s : Scaled) (cs : List Char) :
    Formal (readFraction negative s cs) := by
  fun_cases readFraction negative s cs <;> try split
  all_goals simp

@[simp] theorem formal_readNumberTail (negative : Bool) (s : Scaled) (cs : List Char) :
    Formal (readNumberTail negative s cs) := by
  fun_cases readNumberTail negative s cs <;> simp

@[simp] theorem formal_readNumber (negative : Bool) (cs : List Char) :
    Formal (readNumber negative cs) := by
  fun_cases readNumber negative cs <;> simp

@[simp] theorem formal_skipExponent (cs : List Char) : Formal (skipExponent cs) := by
  fun_cases skipExponent cs <;> simp

@[simp] theorem formal_skipFraction (cs : List Char) : Formal (skipFraction cs) := by
  fun_cases skipFraction cs <;> simp

@[simp] theorem formal_skipNumber (cs : List Char) : Formal (skipNumber cs) := by
  fun_cases skipNumber cs <;> simp

/-! ### Values -/

@[simp] theorem formal_skipHead (cs : List Char) : Formal (skipHead cs) := by
  fun_cases skipHead cs <;> simp

@[simp] theorem isFormal_unclosed (b : Bracket) :
    b.unclosed.IsFormal ∧ b.unseparated.IsFormal := by
  cases b <;> simp [Bracket.unclosed, Bracket.unseparated]

@[simp] theorem formal_resume (brackets : List Bracket) (cs : List Char) :
    Formal (resume brackets cs) := by
  fun_induction resume brackets cs <;> simp [*]

@[simp] theorem formal_enter (b : Bracket) (outer : List Bracket) (cs : List Char) :
    Formal (enter b outer cs) := by
  fun_cases enter b outer cs <;> simp

@[simp] theorem formal_skipName (b : Bracket) (cs : List Char) : Formal (skipName b cs) := by
  fun_cases skipName b cs <;> simp

@[simp] theorem formal_skipWithin (bound : List Char) (brackets : List Bracket) (cs : List Char) :
    Formal (skipWithin bound brackets cs) := by
  induction bound generalizing brackets cs with
  | nil => simp [skipWithin]
  | cons c bound ih =>
    have hnext (next : List Bracket × List Char) : Formal (skipNext bound next) := by
      obtain ⟨_ | ⟨b, brackets⟩, rest⟩ := next <;> simp [skipNext, ih]
    cases hhead : skipHead cs with
    | error f =>
      have hf := formal_skipHead cs f hhead
      simp [skipWithin, hhead, hf, bind, Except.bind]
    | ok head =>
      obtain ⟨_ | b, rest⟩ := head
      · simp [skipWithin_none hhead, skipOn, hnext]
      · simp [skipWithin_some hhead, hnext]

@[simp] theorem formal_skipValue (cs : List Char) : Formal (skipValue cs) :=
  formal_skipWithin cs [] cs

@[simp] theorem formal_readFound (cs : List Char) : Formal (readFound cs) := by
  fun_cases readFound cs <;> simp

def Stop.fault : Stop → Fault
  | failed f => f.fault
  | refused fault _ => fault

/-- A value that is not of the expected kind is cited, or cannot be read at all. -/
theorem fault_mismatch (expected : Expected) (cs : List Char) :
    (∃ found, (mismatch expected cs).fault = .invalidType found expected) ∨
      (mismatch expected cs).fault.IsFormal := by
  unfold mismatch
  split
  next found rest _ => exact .inl ⟨found, rfl⟩
  next f hf => exact .inr (formal_readFound cs f hf)

end Json

namespace DataFile
open Json
variable {α σ : Type} {cs : List Char}

/-- The kinds of values that a data file is made of. -/
def kinds : List Expected := [.text, .list, .record "CalendarFile", .record "DateFacts"]

/-- The faults that a data file can have. Their names are those of the format, whatever names stand
in the file. A value is cited where one of another kind is expected, a key where it is none. -/
inductive IsFault : Fault → Prop
  | formal {fault : Fault} (h : fault.IsFormal) : IsFault fault
  | otherKind (found : Found) {expected : Expected} (h : expected ∈ kinds) :
    IsFault (.invalidType found expected)
  | missingField {name : String} (h : name = datesName ∨ name = Field.key.name) :
    IsFault (.missingField name)
  | repeatedField {name : String} (h : name = datesName ∨ ∃ field : Field, name = field.name) :
    IsFault (.repeatedField name)
  | emptyRecord {name : String} (h : .record name ∈ kinds) (fields : Nat) :
    IsFault (.emptyRecord name fields)
  | invalidKey {input : String} {reason : DayKeyError} (h : DayKey.read input = .error reason) :
    IsFault (.invalidKey reason)

/-- Reading that fails for a fault of data files. -/
abbrev Known (result : Except Failure α) : Prop := FailsOnly (fun f => IsFault f.fault) result

/-- Reading within a record that stops for a fault of data files. -/
abbrev StopsKnown (result : Except Stop α) : Prop :=
  FailsOnly (fun stop => IsFault stop.fault) result

theorem known_of_formal {result : Except Failure α} (h : Formal result) : Known result :=
  h.mono fun _ hf => .formal hf

@[simp] theorem stopsKnown_reading {result : Except Failure α} :
    StopsKnown (reading result) ↔ Known result := by
  cases result <;> simp [reading, Except.mapError, Stop.fault]

theorem isFault_mismatch {expected : Expected} (h : expected ∈ kinds) (cs : List Char) :
    IsFault (mismatch expected cs).fault := by
  obtain ⟨found, hfault⟩ | hformal := fault_mismatch expected cs
  · rw [hfault]
    exact .otherKind found h
  · exact .formal hformal

/-! ### Records -/

theorem known_closeRecord {close : List Char → Except Failure (List Char)}
    {result : Except Stop (α × List Char)} (hclose : ∀ cs, Formal (close cs))
    (h : StopsKnown result) : Known (closeRecord close result) := by
  fun_cases closeRecord close result
  case case1 => simpa using known_of_formal (hclose _)
  all_goals simpa [Stop.fault] using h

theorem known_readRecord {name : String}
    {fromList fromObject : List Char → Except Stop (α × List Char)} (hname : .record name ∈ kinds)
    (hlist : ∀ cs, StopsKnown (fromList cs)) (hobject : ∀ cs, StopsKnown (fromObject cs))
    (cs : List Char) : Known (readRecord name fromList fromObject cs) := by
  unfold readRecord
  split
  next => exact known_of_formal (by simp)
  next => exact known_closeRecord formal_closeList (hlist _)
  next => exact known_closeRecord formal_closeObject (hobject _)
  next => simpa using isFault_mismatch hname _

theorem stopsKnown_readMembers {member : σ → List Char → List Char → Except Stop (σ × List Char)}
    (h : ∀ state name cs, StopsKnown (member state name cs)) (bound : List Char) (first : Bool)
    (state : σ) (cs : List Char) : StopsKnown (readMembers member bound first state cs) := by
  induction bound generalizing first state cs with
  | nil => simpa [readMembers, Stop.fault] using IsFault.formal (by simp)
  | cons b bound ih =>
    rw [readMembers]
    split
    next f hf => simpa [Stop.fault] using IsFault.formal (formal_nextName first cs f hf)
    next => simp
    next rest _ =>
      simp only [failsOnly_bind, stopsKnown_reading]
      refine ⟨known_of_formal (formal_readText rest), ?_⟩
      rintro ⟨name, rest⟩ -
      refine ⟨h state name rest, ?_⟩
      rintro ⟨state, rest⟩ -
      exact ih false state rest

theorem known_readElements {element : List Char → Except Failure (α × List Char)}
    (h : ∀ cs, Known (element cs)) (bound : List Char) (first : Bool) (done : List α)
    (cs : List Char) : Known (readElements element bound first done cs) := by
  induction bound generalizing first done cs with
  | nil => exact known_of_formal (by simp [readElements])
  | cons b bound ih =>
    rw [readElements]
    split
    next f hf => simpa using IsFault.formal (formal_nextElement first cs f hf)
    next => simp
    next rest _ =>
      refine failsOnly_bind.2 ⟨h rest, ?_⟩
      rintro ⟨x, rest⟩ -
      exact ih false (x :: done) rest

theorem known_readList {element : List Char → Except Failure (α × List Char)}
    (h : ∀ cs, Known (element cs)) (cs : List Char) : Known (readList element cs) := by
  unfold readList
  split
  next => exact known_of_formal (by simp)
  next rest _ =>
    refine failsOnly_bind.2 ⟨known_readElements h rest true [] rest, ?_⟩
    rintro ⟨xs, rest⟩ -
    exact known_of_formal (by simp)
  next => simpa using isFault_mismatch (by simp [kinds]) _

/-! ### Fields -/

theorem known_readExpectedText (cs : List Char) : Known (readExpectedText cs) := by
  unfold readExpectedText
  split
  next => exact known_of_formal (by simp)
  next rest _ => exact known_of_formal (formal_readText rest)
  next => simpa using isFault_mismatch (by simp [kinds]) _

theorem known_readOptionalText (cs : List Char) : Known (readOptionalText cs) := by
  unfold readOptionalText
  split
  next => exact known_of_formal (by simp)
  next => simpa using known_readExpectedText _

/-- A key is refused only where a string stands that is none. -/
theorem stopsKnown_readKey (cs : List Char) : StopsKnown (readKey cs) := by
  unfold readKey
  split
  next f hf => simpa [Stop.fault] using known_readExpectedText cs f hf
  next text rest _ =>
    split
    next => simp
    next reason hreason => simpa [Stop.fault] using IsFault.invalidKey hreason

theorem stopsKnown_readField (d : Draft) (field : Field) (cs : List Char) :
    StopsKnown (readField d field cs) := by
  cases field with
  | key => simp [readField, stopsKnown_readKey]
  | names | holiday | worldDay => simp [readField, known_readOptionalText]

theorem formal_skipMember (cs : List Char) : Formal (skipMember cs) := by
  simp [skipMember]

theorem stopsKnown_readFactsMember (d : Draft) (name cs : List Char) :
    StopsKnown (readFactsMember d name cs) := by
  unfold readFactsMember
  split
  next => simpa using known_of_formal (formal_skipMember cs)
  next field _ =>
    split
    next => simpa [Stop.fault] using IsFault.repeatedField (.inr ⟨field, rfl⟩)
    next =>
      split
      next f hf => simpa [Stop.fault] using IsFault.formal (formal_expectColon cs f hf)
      next rest _ => exact stopsKnown_readField d field rest

theorem stopsKnown_factsFromObject (cs : List Char) : StopsKnown (factsFromObject cs) := by
  unfold factsFromObject
  refine failsOnly_bind.2 ⟨stopsKnown_readMembers stopsKnown_readFactsMember cs true .empty cs, ?_⟩
  rintro ⟨d, rest⟩ -
  dsimp only
  split
  next => simpa [Stop.fault] using IsFault.missingField (.inr rfl)
  next => simp

theorem known_readNextField (cs : List Char) : Known (readNextField cs) := by
  unfold readNextField
  refine failsOnly_bind.2 ⟨known_of_formal (formal_nextElement false cs), ?_⟩
  rintro ⟨_ | _, rest⟩ -
  · simp
  · exact known_readOptionalText rest

theorem stopsKnown_factsFromList (cs : List Char) : StopsKnown (factsFromList cs) := by
  unfold factsFromList
  split
  next f hf => simpa [Stop.fault] using IsFault.formal (formal_nextElement true cs f hf)
  next => simpa [Stop.fault] using IsFault.emptyRecord (by simp [kinds]) 4
  next rest _ => simp [stopsKnown_readKey, known_readNextField]

theorem known_readFacts (cs : List Char) : Known (readFacts cs) :=
  known_readRecord (by simp [kinds]) stopsKnown_factsFromList stopsKnown_factsFromObject cs

/-! ### Files -/

theorem stopsKnown_readFileMember (found : Option (List Facts)) (name cs : List Char) :
    StopsKnown (readFileMember found name cs) := by
  unfold readFileMember
  split
  next =>
    split
    next => simpa [Stop.fault] using IsFault.repeatedField (.inl rfl)
    next => simp [known_of_formal (formal_expectColon cs), known_readList known_readFacts]
  next => simpa using known_of_formal (formal_skipMember cs)

theorem stopsKnown_fileFromObject (cs : List Char) : StopsKnown (fileFromObject cs) := by
  unfold fileFromObject
  refine failsOnly_bind.2 ⟨stopsKnown_readMembers stopsKnown_readFileMember cs true none cs, ?_⟩
  rintro ⟨found, rest⟩ -
  dsimp only
  split
  next => simpa [Stop.fault] using IsFault.missingField (.inl rfl)
  next => simp

theorem stopsKnown_fileFromList (cs : List Char) : StopsKnown (fileFromList cs) := by
  unfold fileFromList
  split
  next f hf => simpa [Stop.fault] using IsFault.formal (formal_nextElement true cs f hf)
  next => simpa [Stop.fault] using IsFault.emptyRecord (by simp [kinds]) 1
  next rest _ => simpa using known_readList known_readFacts rest

theorem known_readFile (cs : List Char) : Known (readFile cs) :=
  known_readRecord (by simp [kinds]) stopsKnown_fileFromList stopsKnown_fileFromObject cs

/-- Whatever stands in a data file, its fault is one of these. -/
theorem isFault_of_decode {text : List Char} {error : Error} (h : decode text = .error error) :
    IsFault error.fault := by
  rw [decode, readWhole] at h
  split at h
  next f hf =>
    cases h
    exact known_readFile text f hf
  next rest _ =>
    split at h
    next => cases h
    next f hf =>
      cases h
      exact .formal (formal_expectEnd rest f hf)

end DataFile
end Almanac
