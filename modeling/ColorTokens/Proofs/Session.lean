import ColorTokens.Session
import ColorTokens.Proofs.Token.Reserved

/-! Sessions of any length. A sheet never forgets an identifier that it declares, and a run mints
none of those; so an identifier is minted once, provided that the sheet's reader recognises it. -/

set_option autoImplicit false

namespace ColorTokens

open ColorTokens.Source

namespace Session

/-- What happens in a session whose sheet is left to the tokenizer. -/
inductive Event where
  | write (path text : String)
  | append (path text : String)
  | remove (path : String)
  | apply
  deriving DecidableEq, Repr

def advance (tokenizer : Tokenizer) (session : Session) :
    Event → Except RunError (Option Outcome × Session)
  | .write path text => .ok (none, session.write path text)
  | .append path text => .ok (none, session.append path text)
  | .remove path => .ok (none, session.remove path)
  | .apply => do
    let (outcome, next) ← session.apply tokenizer
    return (some outcome, next)

def play (tokenizer : Tokenizer) : Session → List Event → Except RunError (List Outcome × Session)
  | session, [] => .ok ([], session)
  | session, event :: events => do
    let (outcome, next) ← session.advance tokenizer event
    let (outcomes, last) ← next.play tokenizer events
    return (outcome.toList ++ outcomes, last)

/-- Outcomes of runs, each over the sheet that the one before left. -/
inductive Successive (tokenizer : Tokenizer) : String → List Outcome → Prop where
  | none {sheet : String} : Successive tokenizer sheet []
  | next {sheet : String} {files : List SourceFile} {outcome : Outcome} {outcomes : List Outcome} :
      tokenizer.run files sheet = .ok outcome →
      Successive tokenizer (outcome.updatedSheet sheet) outcomes →
      Successive tokenizer sheet (outcome :: outcomes)

section Playing

variable {tokenizer : Tokenizer}

theorem nodup_paths (session : Session) : (session.sourceFiles.map (·.path)).Nodup := by
  have paths : session.sourceFiles.map (·.path) = session.files.toList.map Prod.fst := by
    rw [sourceFiles, List.map_map]
    rfl
  rw [paths]
  exact Keyed.nodup_keys_toList session.files

/-- No event fails. An edit leaves the sheet alone, a run leaves its own update. -/
theorem exists_advance (writable : tokenizer.naming.isWritable) (session : Session)
    (event : Event) :
    ∃ outcome next, session.advance tokenizer event = .ok (outcome, next) ∧
      (outcome = none ∧ next.sheet = session.sheet ∨
        ∃ made, outcome = some made ∧ tokenizer.run session.sourceFiles session.sheet = .ok made ∧
          next.sheet = made.updatedSheet session.sheet) := by
  cases event with
  | write path text => exact ⟨none, _, rfl, .inl ⟨rfl, rfl⟩⟩
  | append path text => exact ⟨none, _, rfl, .inl ⟨rfl, rfl⟩⟩
  | remove path => exact ⟨none, _, rfl, .inl ⟨rfl, rfl⟩⟩
  | apply =>
    obtain ⟨made, ran⟩ := Tokenizer.exists_run session.nodup_paths writable session.sheet
    refine ⟨some made, session.accept made, ?_, .inr ⟨made, rfl, ran, rfl⟩⟩
    rw [advance, Session.apply, preview, ran]
    rfl

theorem exists_play (writable : tokenizer.naming.isWritable) (session : Session)
    (events : List Event) :
    ∃ outcomes last, session.play tokenizer events = .ok (outcomes, last) ∧
      Successive tokenizer session.sheet outcomes := by
  induction events generalizing session with
  | nil => exact ⟨[], session, rfl, .none⟩
  | cons event events ih =>
    obtain ⟨outcome, next, moved, effect⟩ := exists_advance writable session event
    obtain ⟨outcomes, last, played, successive⟩ := ih next
    refine ⟨outcome.toList ++ outcomes, last, ?_, ?_⟩
    · rw [play, moved]
      simp only [bind, Except.bind, played]
      rfl
    · rcases effect with ⟨rfl, same⟩ | ⟨made, rfl, ran, updated⟩
      · rwa [same] at successive
      · rw [updated] at successive
        exact .next ran successive

end Playing

section Minting

variable {tokenizer : Tokenizer} {files : List SourceFile} {sheet identifier : String}
  {outcome : Outcome} {outcomes : List Outcome}

theorem not_minted_of_declaredIn (successive : Successive tokenizer sheet outcomes)
    (declared : DeclaredIn sheet.toList identifier.toList) :
    ∀ outcome ∈ outcomes, identifier ∉ outcome.assignment.generated := by
  induction successive with
  | none => simp
  | @next sheet files first outcomes ran _ ih =>
    intro outcome member minted
    rcases List.mem_cons.mp member with rfl | member
    · exact undeclared_of_run ran (Std.TreeMap.getElem?_eq_some_getElem minted) declared
    -- The identifier is still declared in the sheet that the first run leaves.
    · exact ih (MintedTokens.declaredIn_insertInto declared) outcome member minted

theorem pairwise_of_properties (tokens : ∀ n, IsCustomProperty (tokenizer.naming.identifier n).toList)
    (successive : Successive tokenizer sheet outcomes) :
    outcomes.Pairwise fun earlier later => ∀ identifier ∈ earlier.assignment.generated,
      identifier ∉ later.assignment.generated := by
  induction successive with
  | none => exact .nil
  | @next sheet files first outcomes ran others ih =>
    -- What the first run mints is declared in the sheet that all later runs start from.
    refine List.Pairwise.cons (fun later member identifier minted => ?_) ih
    have shapes : ∀ entry ∈ first.assignment.generated.toList, IsCustomProperty entry.1.toList := by
      intro entry listed
      obtain ⟨n, named⟩ :=
        (Tokenizer.minted_of_run ran (Std.TreeMap.mem_toList_iff_getElem?_eq_some.mp listed)).2
      rw [named]
      exact tokens n
    have entry := Std.TreeMap.mem_toList_iff_getElem?_eq_some.mpr
      (Std.TreeMap.getElem?_eq_some_getElem minted)
    have declared : DeclaredIn (first.updatedSheet sheet).toList identifier.toList :=
      MintedTokens.declaredIn_insertInto_minted shapes entry
    exact not_minted_of_declaredIn others declared later member

theorem isCustomProperty_of_reserved
    (reserved : identifier ∈ (TokenSheet.ofText sheet).reserved) :
    IsCustomProperty identifier.toList := by
  rcases MintedTokens.mem_reserved_iff.mp reserved with declared | ⟨color, indexed⟩
  · obtain ⟨_, _, _, _, _, shape, _⟩ := declared
    exact shape.token
  · exact isCustomProperty_of_index indexed

/-- Where number zero is no custom property no sheet reserves it, so each run that mints mints it. -/
theorem identifier_zero_of_minted (successive : Successive tokenizer sheet outcomes)
    (odd : ¬ IsCustomProperty (tokenizer.naming.identifier 0).toList) :
    ∀ outcome ∈ outcomes, ∀ identifier ∈ outcome.assignment.generated,
      tokenizer.naming.identifier 0 ∈ outcome.assignment.generated := by
  induction successive with
  | none => simp
  | @next sheet files first outcomes ran _ ih =>
    intro outcome member identifier minted
    rcases List.mem_cons.mp member with rfl | member
    · rw [Tokenizer.assignment_of_run ran] at minted ⊢
      apply Assignment.identifier_zero_mem _ minted
      exact fun reserved => odd (isCustomProperty_of_reserved reserved)
    · exact ih outcome member identifier minted

end Minting

/-- Minting over a whole session. No identifier is minted twice exactly when the stem is made of
the characters that a declared property is read with, or no two runs mint at all. -/
theorem play_mints_once_iff (tokenizer : Tokenizer) (accepted : tokenizer.naming.flaw? = none)
    (writable : tokenizer.naming.width ≤ Naming.maxWidth) (session : Session)
    (events : List Event) :
    ∃ outcomes last, session.play tokenizer events = .ok (outcomes, last) ∧
      ((outcomes.Pairwise fun earlier later => ∀ identifier ∈ earlier.assignment.generated,
          identifier ∉ later.assignment.generated) ↔
        (∀ c ∈ tokenizer.naming.stem.toList, isPropertyChar c = true) ∨
          outcomes.Pairwise fun earlier later =>
            earlier.assignment.generated.isEmpty ∨ later.assignment.generated.isEmpty) := by
  have padded : tokenizer.naming.isWritable = true := by simpa [Naming.isWritable] using writable
  obtain ⟨outcomes, last, played, successive⟩ := exists_play padded session events
  refine ⟨outcomes, last, played, ?_⟩
  have named (n : Nat) := Naming.isCustomProperty_identifier_iff accepted n
  constructor
  · intro apart
    by_cases properties : ∀ c ∈ tokenizer.naming.stem.toList, isPropertyChar c = true
    · exact .inl properties
    · right
      have zero := identifier_zero_of_minted successive (mt (named 0).mp properties)
      refine apart.imp_of_mem fun {earlier later} member member' disjoint => ?_
      rw [Std.TreeMap.isEmpty_iff_forall_not_mem, Std.TreeMap.isEmpty_iff_forall_not_mem]
      -- Two runs that mint would both mint number zero.
      by_contra both
      simp only [not_or, not_forall, not_not] at both
      obtain ⟨⟨first, minted⟩, ⟨second, minted'⟩⟩ := both
      exact disjoint _ (zero earlier member first minted) (zero later member' second minted')
  · rintro (properties | single)
    · exact pairwise_of_properties (fun n => (named n).mpr properties) successive
    · refine single.imp fun {earlier later} empty identifier minted again => ?_
      rcases empty with none | none
      · exact Std.TreeMap.isEmpty_iff_forall_not_mem.mp none identifier minted
      · exact Std.TreeMap.isEmpty_iff_forall_not_mem.mp none identifier again

/-- The standard stem, with a file that grows and one that goes between the runs. -/
theorem play_mints_once_standard :
    ∃ outcomes last, play Tokenizer.standard ⟨∅, ":root \x7b\n\x7d\n"⟩
        [.write "a.css" "a \x7b color: #111; \x7d", .apply, .append "a.css" "b \x7b color: #222; \x7d",
          .apply, .remove "a.css", .apply] = .ok (outcomes, last) ∧
      outcomes.Pairwise fun earlier later => ∀ identifier ∈ earlier.assignment.generated,
        identifier ∉ later.assignment.generated := by
  obtain ⟨outcomes, last, played, once⟩ :=
    play_mints_once_iff Tokenizer.standard rfl (by decide) ⟨∅, ":root \x7b\n\x7d\n"⟩
      [.write "a.css" "a \x7b color: #111; \x7d", .apply, .append "a.css" "b \x7b color: #222; \x7d",
        .apply, .remove "a.css", .apply]
  exact ⟨outcomes, last, played, once.mpr (.inl (List.all_eq_true.mp (by decide)))⟩

/-- An accepted stem with an underscore: the second run mints what the first one declared. -/
theorem play_mints_again_underscore :
    Naming.flaw? ⟨"--c_raw-", 3, "--c-"⟩ = none ∧
      ((play ⟨ScanRules.standard, ⟨"--c_raw-", 3, "--c-"⟩⟩ ⟨∅, ":root \x7b\n\x7d\n"⟩
        [.write "a.css" "a \x7b color: #111; \x7d", .apply,
          .write "b.css" "b \x7b color: #222; \x7d", .apply]).toOption.map fun played =>
        played.1.map fun outcome => outcome.assignment.generated.toList) =
      some [[("--c_raw-000", "#111111")], [("--c_raw-000", "#222222")]] := by
  decide +kernel

end Session

end ColorTokens
