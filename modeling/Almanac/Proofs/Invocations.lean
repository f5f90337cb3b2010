import Almanac.Command.Line
import Almanac.Proofs.Numerals
import Almanac.Proofs.Results

/-! What a line that asks for something settles, and lines that ask for a check of given files or
for the holidays of a year. -/

namespace Almanac.Command

variable {env : Environment} {words paths : List String} {settings : Settings} {request : Request}
  {verb : Verb} {own program : Given} {strict json : Bool} {year : Int}

/-- Who asks for help asks for nothing else. -/
theorem readHelp_ne_run : readHelp words ≠ .ok (.run settings request) := by
  intro h
  unfold readHelp at h
  split at h
  · cases h
  · split at h <;> cases h
  · cases h

theorem settled_of_readRest (h : verb.readRest env program words = .ok (.run settings request)) :
    ∃ own, verb.settle env own = .ok request := by
  obtain ⟨collected, -, h⟩ := ok_of_bind h
  cases collected with
  | question name => cases h
  | given own =>
    obtain ⟨request', hsettle, heq⟩ := ok_of_map h
    cases heq
    exact ⟨own, hsettle⟩

/-- A line that asks for something names the command that settles it. -/
theorem settled_of_readLine (h : readLine env words = .ok (.run settings request)) :
    ∃ verb own, Verb.settle env own verb = .ok request := by
  obtain ⟨collected, -, h⟩ := ok_of_bind h
  cases collected with
  | question name => cases name <;> cases h
  | given program =>
    change readCommand env program _ = _ at h
    unfold readCommand at h
    split at h
    · cases h
    · split at h
      next verb _ => exact ⟨verb, settled_of_readRest h⟩
      next =>
        split at h
        · exact (readHelp_ne_run h).elim
        · cases h

theorem paths_ne_nil_of_settle (h : verb.settle env own = .ok (.check paths strict json)) :
    paths ≠ [] := by
  cases verb with
  | render =>
    obtain ⟨data, -, h⟩ := ok_of_bind h
    cases h
  | easter => cases h
  | check =>
    simp only [Verb.settle] at h
    split at h
    · cases h
    next hne =>
      cases h
      exact hne
  | save =>
    simp only [Verb.settle] at h
    split at h
    · cases h
    · obtain ⟨data, -, heq⟩ := ok_of_map h
      cases heq

/-- A check that a line asks for is one of some files. -/
theorem paths_ne_nil_of_readLine (h : readLine env words = .ok (.run settings
    (.check paths strict json))) : paths ≠ [] := by
  obtain ⟨verb, own, hsettle⟩ := settled_of_readLine h
  exact paths_ne_nil_of_settle hsettle

/-- What follows the name of the command on a line that asks for a check. The paths follow two
hyphens, so they may begin with one. -/
def checkWords (paths : List String) (strict json : Bool) : List String :=
  (if strict then ["--strict"] else []) ++ (if json then ["--json"] else []) ++ "--" :: paths

theorem collect_operands {given : Given} (h : ∀ path ∈ paths, path ≠ "") :
    collect Verb.check.takes given (paths.map .operand) =
      .ok (.given { given with operands := given.operands ++ paths }) := by
  induction paths generalizing given with
  | nil => simp [collect]
  | cons path paths ih =>
    have hpath : Verb.check.takes given.operands path = .ok () := by
      change fitOperand (isPath path) path = .ok ()
      simp [fitOperand, isPath, h path List.mem_cons_self]
    rw [List.map_cons, collect, hpath]
    simp only [ih fun other hmem => h other (List.mem_cons_of_mem _ hmem), List.append_assoc,
      List.singleton_append]

/-- The switches that stand before the paths. -/
def checkSwitches (strict json : Bool) : List OptionName :=
  (if strict then [.strict] else []) ++ (if json then [.json] else [])

theorem collect_checkWords (strict json : Bool) (h : ∀ path ∈ paths, path ≠ "") :
    collect Verb.check.takes .nothing
        (readWords Verb.check.options false none (checkWords paths strict json)).1 =
      .ok (.given ⟨checkSwitches strict json, [], paths⟩) := by
  have hoperands (switches : List OptionName) :
      collect Verb.check.takes ⟨switches, [], []⟩ (paths.map .operand) =
        .ok (.given ⟨switches, [], paths⟩) := by
    rw [collect_operands h, List.nil_append]
  cases strict <;> cases json <;> exact hoperands _

/-- Every list of paths can be checked, in either manner and either form. -/
theorem readLine_checkWords (env : Environment) (strict json : Bool) (hne : paths ≠ [])
    (h : ∀ path ∈ paths, path ≠ "") :
    readLine env ("check" :: checkWords paths strict json) =
      .ok (.run ⟨.auto, false⟩ (.check paths strict json)) := by
  have hverb : Verb.ofWord? "check" = some .check := by decide
  have hrest : Verb.readRest env .nothing (checkWords paths strict json) .check =
      .ok (.run ⟨.auto, false⟩ (.check paths strict json)) := by
    have hcollect := collect_checkWords strict json h
    simp only [Verb.readRest, hcollect, bind, Except.bind, Verb.settle, if_neg hne, Except.map]
    cases strict <;> cases json <;> rfl
  change readCommand env .nothing ("check" :: checkWords paths strict json) = _
  rw [readCommand, hverb]
  exact hrest

theorem readYear?_intText (h : -2147483648 ≤ year) (h' : year ≤ 2147483647) :
    readYear? (toString year) = some year := by
  have hbounds : (if -2147483648 ≤ year ∧ year ≤ 2147483647 then some year else none) =
      some year := if_pos ⟨h, h'⟩
  unfold readYear?
  obtain ⟨d, ds, htext, hdigit, hsign, hread⟩ | ⟨ds, htext, hsign, hread⟩ :=
    Decimal.intText_cases year
  · rw [htext]
    split
    next heq =>
      obtain ⟨rfl, -⟩ := List.cons.inj heq
      cases hdigit
    next heq =>
      obtain ⟨rfl, -⟩ := List.cons.inj heq
      cases hdigit
    next =>
      rw [hread]
      simpa [Int.toNat_of_nonneg hsign] using hbounds
  · have hvalue : -((-year).toNat : Int) = year := by omega
    have hnegated : (if -2147483648 ≤ -((-year).toNat : Int) ∧ -((-year).toNat : Int) ≤ 2147483647
        then some (-((-year).toNat : Int)) else none) = some year := by rw [hvalue, hbounds]
    rw [htext]
    simp only [hread]
    exact hnegated

/-- What asks for the holidays of a year. The year follows two hyphens, as it may begin with one. -/
def easterWords (colour : Colour) (year : Int) : List String :=
  ["easter", "--color", colour.word, "--", toString year]

theorem readLine_easterWords (env : Environment) (colour : Colour) (h : -2147483648 ≤ year)
    (h' : year ≤ 2147483647) :
    readLine env (easterWords colour year) = .ok (.run ⟨colour, false⟩ (.easter year false)) := by
  have hverb : Verb.ofWord? "easter" = some .easter := by decide
  have hyear := readYear?_intText h h'
  have htakes : Verb.easter.takes [] (toString year) = .ok () := by
    change fitOperand (readYear? (toString year)).isSome (toString year) = .ok ()
    rw [fitOperand, hyear]
    rfl
  have hoperand (values : List (OptionName × String)) :
      collect Verb.easter.takes ⟨[], values, []⟩ [.operand (toString year)] =
        .ok (.given ⟨[], values, [toString year]⟩) := by
    rw [collect, htakes]
    rfl
  have hcollect : collect Verb.easter.takes .nothing (readWords Verb.easter.options false none
      ["--color", colour.word, "--", toString year]).1 =
        .ok (.given ⟨[], [(.colour, colour.word)], [toString year]⟩) := by
    cases colour <;> exact hoperand _
  change readCommand env .nothing (easterWords colour year) = _
  rw [easterWords, readCommand, hverb]
  simp only [Verb.readRest, hcollect, bind, Except.bind, Verb.settle, List.head?_cons,
    Option.bind, hyear, Except.map]
  cases colour <;> rfl

end Almanac.Command
