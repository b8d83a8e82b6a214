import ColorTokens.Proofs.Reuse

/-! Nothing is lost in an insertion. Whatever a sheet looks like and whatever the colours are, every
inserted identifier is read back beside those that were declared before, so inserting again adds
nothing; and what a run has minted is all written, since a run mints no declared identifier. -/

set_option autoImplicit false

namespace ColorTokens

open ColorTokens.Text

namespace MintedTokens

def surroundings (sheet : List Char) : List Char × List Char :=
  match rootBlock? sheet with
  | some block => (openedHead block, block.tail)
  | none => (appendedHead sheet ++ rootOpening.toList, rootClosing.toList)

section Insertion

variable {minted : MintedTokens} {sheet : String}

theorem isEmpty_pending
    (all : ∀ identifier ∈ minted, identifier ∈ declaredIdentifiers sheet.toList) :
    (minted.pending sheet.toList).isEmpty = true := by
  rw [← Std.TreeMap.isEmpty_toList, List.isEmpty_iff, List.eq_nil_iff_forall_not_mem]
  intro entry waits
  obtain ⟨listed, missing⟩ := mem_pending_iff.mp waits
  exact missing (all entry.1 (Keyed.mem_of_entry listed))

theorem insertInto_of_declared
    (all : ∀ identifier ∈ minted, identifier ∈ declaredIdentifiers sheet.toList) :
    minted.insertInto sheet = sheet :=
  if_pos (isEmpty_pending all)

theorem toList_insertInto_of_pending (more : (minted.pending sheet.toList).isEmpty = false) :
    (minted.insertInto sheet).toList = (surroundings sheet.toList).1 ++
      linesOf (minted.pending sheet.toList).toList ++ (surroundings sheet.toList).2 := by
  rw [toList_insertInto, if_neg (by simp [more]), surroundings]
  cases rootBlock? sheet.toList with
  | some block => rfl
  | none => rfl

theorem mem_declaredIdentifiers_insertInto
    (tokens : ∀ identifier ∈ minted, IsCustomProperty identifier.toList) {identifier : String}
    (known : identifier ∈ declaredIdentifiers sheet.toList ∨ identifier ∈ minted) :
    identifier ∈ declaredIdentifiers (minted.insertInto sheet).toList := by
  rw [mem_declaredIdentifiers_iff]
  rcases known with declared | listed
  · exact declaredIn_insertInto (mem_declaredIdentifiers_iff.mp declared)
  · obtain ⟨color, entry⟩ := Keyed.exists_entry listed
    apply declaredIn_insertInto_minted _ entry
    intro other listed
    exact tokens other.1 (Keyed.mem_of_entry listed)

theorem count_pending
    (undeclared : ∀ entry ∈ minted.toList, entry.1 ∉ declaredIdentifiers sheet.toList) :
    ∀ entry ∈ minted.toList, (minted.pending sheet.toList).toList.count entry = 1 := by
  intro entry listed
  rw [toList_pending undeclared]
  exact List.count_eq_one_of_mem (Keyed.nodup_keys_toList minted).of_map listed

end Insertion

end MintedTokens

open MintedTokens

/-- An insertion keeps every declared identifier, declares every identifier that it is given and is
done with them: inserting the same tokens again changes nothing. What a run has minted is written
token by token between two parts of the sheet, each token once. -/
theorem insertInto_loses_nothing (minted : MintedTokens) (sheet : String)
    (tokens : ∀ identifier ∈ minted, IsCustomProperty identifier.toList) :
    (∀ identifier : String,
      identifier ∈ declaredIdentifiers sheet.toList ∨ identifier ∈ minted →
        identifier ∈ declaredIdentifiers (minted.insertInto sheet).toList) ∧
    minted.insertInto (minted.insertInto sheet) = minted.insertInto sheet ∧
    ∀ (tokenizer : Tokenizer) (files : List SourceFile) (outcome : Outcome),
      tokenizer.run files sheet = .ok outcome →
        (∀ entry ∈ outcome.assignment.generated.toList,
          (pending outcome.assignment.generated sheet.toList).toList.count entry = 1) ∧
        (outcome.assignment.generated.isEmpty = false →
          (outcome.updatedSheet sheet).toList = (surroundings sheet.toList).1 ++
            linesOf outcome.assignment.generated.toList ++ (surroundings sheet.toList).2) := by
  refine ⟨fun identifier => mem_declaredIdentifiers_insertInto tokens, ?_, ?_⟩
  · apply insertInto_of_declared
    intro identifier listed
    exact mem_declaredIdentifiers_insertInto tokens (.inr listed)
  · intro tokenizer files outcome ran
    -- A run mints no declared identifier, so all that it has minted is pending.
    have undeclared := Tokenizer.undeclared_of_minted ran
    refine ⟨count_pending undeclared, fun more => ?_⟩
    have waiting : (pending outcome.assignment.generated sheet.toList).isEmpty = false := by
      rw [← Std.TreeMap.isEmpty_toList, toList_pending undeclared, Std.TreeMap.isEmpty_toList, more]
    rw [Outcome.updatedSheet, toList_insertInto_of_pending waiting, toList_pending undeclared]

/-- A sheet that breaks off in an identifier, tokens of which one has that name and one a colour that
looks like a declaration, and a run over the same sheet. -/
theorem insertInto_loses_nothing_broken_off :
    "--cut" ∈ declaredIdentifiers (insertInto
      (Std.TreeMap.ofList [("--b", "\x7d --d: 1"), ("--cut", "#fff")]) "--ink: 0; --cut").toList ∧
    insertInto (Std.TreeMap.ofList [("--b", "\x7d --d: 1"), ("--cut", "#fff")]) (insertInto
      (Std.TreeMap.ofList [("--b", "\x7d --d: 1"), ("--cut", "#fff")]) "--ink: 0; --cut") =
      insertInto (Std.TreeMap.ofList [("--b", "\x7d --d: 1"), ("--cut", "#fff")])
        "--ink: 0; --cut" ∧
    ∃ outcome, Tokenizer.standard.run [⟨"a.css", "a\x7bcolor:#fff;\x7d", .styleModule⟩]
      "--ink: 0; --cut" = .ok outcome ∧
      (outcome.updatedSheet "--ink: 0; --cut").toList =
        "--ink: 0; --cut\n\n:root \x7b\n  --c-raw-000: #ffffff;\n\x7d\n".toList := by
  have tokens : ∀ identifier ∈ Std.TreeMap.ofList [("--b", "\x7d --d: 1"), ("--cut", "#fff")],
      IsCustomProperty identifier.toList := by
    intro identifier listed
    have short : ∀ c ∈ "--b".toList, Source.isPropertyChar c = true :=
      List.all_eq_true.mp (by decide)
    have long : ∀ c ∈ "--cut".toList, Source.isPropertyChar c = true :=
      List.all_eq_true.mp (by decide)
    simp only [Std.TreeMap.mem_ofList, List.map_cons, List.map_nil, List.contains_cons,
      List.contains_nil, Bool.or_false, Bool.or_eq_true, beq_iff_eq] at listed
    rcases listed with rfl | rfl
    · exact ⟨by decide, by decide, short⟩
    · exact ⟨by decide, by decide, long⟩
  obtain ⟨declared, twice, runs⟩ := insertInto_loses_nothing _ "--ink: 0; --cut" tokens
  obtain ⟨outcome, ran⟩ : ∃ outcome, Tokenizer.standard.run
      [⟨"a.css", "a\x7bcolor:#fff;\x7d", .styleModule⟩] "--ink: 0; --cut" = .ok outcome :=
    Tokenizer.exists_run (by simp) (by decide) "--ink: 0; --cut"
  have listed : (Tokenizer.standard.run [⟨"a.css", "a\x7bcolor:#fff;\x7d", .styleModule⟩]
      "--ink: 0; --cut").toOption.map (·.assignment.generated.toList) =
      some [("--c-raw-000", "#ffffff")] := by
    decide +kernel
  rw [ran] at listed
  have entries : outcome.assignment.generated.toList = [("--c-raw-000", "#ffffff")] :=
    Option.some.inj listed
  refine ⟨declared _ (.inr (by simp)), twice, outcome, ran, ?_⟩
  rw [(runs _ _ outcome ran).2 (by rw [← Std.TreeMap.isEmpty_toList, entries]; rfl), entries]
  decide +kernel

end ColorTokens
