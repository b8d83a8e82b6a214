import ColorTokens.Token.Insertion
import ColorTokens.Proofs.Token.Numbering
import ColorTokens.Proofs.Token.Sheet
import Mathlib.Data.Set.Function

/-! The palette of minted tokens. A key is an identifier, or what is left of it behind the palette
stem. All identifiers of a naming have the same characters but for digits, so a shortened one is
never another one in full, and no token is lost to another with its key. -/

set_option autoImplicit false

namespace ColorTokens

namespace Naming

variable {naming : Naming} {n m : Nat}

theorem head?_identifier (accepted : naming.flaw? = none) (n : Nat) :
    (naming.identifier n).toList.head? = some '-' := by
  obtain ⟨rest, stem⟩ := dashes_of_accepted accepted
  rw [toList_identifier, ← stem]
  rfl

/-- The number of an identifier adds only digits to its stem. -/
theorem countP_identifier (naming : Naming) (n : Nat) :
    (naming.identifier n).toList.countP (!·.isDigit) = naming.stem.toList.countP (!·.isDigit) := by
  have digits : (padded naming.width n).countP (!·.isDigit) = 0 := by
    refine List.countP_eq_zero.mpr fun c member => ?_
    simp [isDigit_of_mem_padded member]
  rw [toList_identifier, List.countP_append, digits, Nat.add_zero]

/-- No identifier ends with another one. -/
theorem eq_nil_of_identifier_eq_append {front : List Char} (accepted : naming.flaw? = none)
    (whole : (naming.identifier n).toList = front ++ (naming.identifier m).toList) :
    front = [] := by
  -- What stands in front could only be digits, yet it would begin with the dash of the first one.
  have counts := congrArg (List.countP (!·.isDigit)) whole
  rw [List.countP_append, countP_identifier, countP_identifier] at counts
  have digits : front.countP (!·.isDigit) = 0 := by omega
  cases front with
  | nil => rfl
  | cons c front =>
    have dash : c = '-' := by
      have first := head?_identifier accepted n
      rw [whole] at first
      simpa using first
    have digit := List.countP_eq_zero.mp digits c List.mem_cons_self
    rw [dash] at digit
    exact absurd rfl digit

section Keys

variable {identifier : String}

theorem toList_eq_of_shortened (shortened : naming.paletteStem.toList <+: identifier.toList) :
    identifier.toList = naming.paletteStem.toList ++ (naming.paletteKey identifier).toList := by
  have key : naming.paletteKey identifier =
      String.ofList (identifier.toList.drop naming.paletteStem.toList.length) :=
    if_pos (List.isPrefixOf_iff_prefix.mpr shortened)
  obtain ⟨back, whole⟩ := shortened
  rw [key, String.toList_ofList, ← whole, List.drop_left]

theorem paletteKey_full (full : ¬ naming.paletteStem.toList <+: identifier.toList) :
    naming.paletteKey identifier = identifier :=
  if_neg (mt List.isPrefixOf_iff_prefix.mp full)

end Keys

/-- The key of a shortened identifier is that of no identifier in full. -/
theorem shortened_of_paletteKey_eq (accepted : naming.flaw? = none)
    (shortened : naming.paletteStem.toList <+: (naming.identifier n).toList)
    (same : naming.paletteKey (naming.identifier n) = naming.paletteKey (naming.identifier m)) :
    naming.paletteStem.toList <+: (naming.identifier m).toList := by
  by_contra full
  have whole := toList_eq_of_shortened shortened
  rw [same, paletteKey_full full] at whole
  rw [eq_nil_of_identifier_eq_append accepted whole] at full
  exact full List.nil_prefix

theorem injOn_paletteKey (accepted : naming.flaw? = none) :
    Set.InjOn naming.paletteKey (Set.range naming.identifier) := by
  rintro _ ⟨n, rfl⟩ _ ⟨m, rfl⟩ same
  by_cases shortened : naming.paletteStem.toList <+: (naming.identifier n).toList
  · have shortened' := shortened_of_paletteKey_eq accepted shortened same
    apply String.toList_injective
    rw [toList_eq_of_shortened shortened, toList_eq_of_shortened shortened', same]
  · have full : ¬ naming.paletteStem.toList <+: (naming.identifier m).toList :=
      fun shortened' => shortened (shortened_of_paletteKey_eq accepted shortened' same.symm)
    rwa [paletteKey_full shortened, paletteKey_full full] at same

end Naming

theorem Assignment.mem_range_identifier {colors : List String} {index : ColorIndex}
    {reserved : Std.TreeSet String} {naming : Naming} {identifier : String}
    (minted : identifier ∈ (assign colors index reserved naming).generated) :
    identifier ∈ Set.range naming.identifier := by
  obtain ⟨color, entry⟩ := Keyed.exists_entry minted
  rw [Std.TreeMap.mem_toList_iff_getElem?_eq_some] at entry
  obtain ⟨-, -, -, -, n, rfl⟩ :=
    (covers_assign colors index reserved naming).declared identifier color entry
  exact ⟨n, rfl⟩

namespace MintedTokens

theorem paletteEntries_perm {minted : MintedTokens} {naming : Naming}
    (distinct : Set.InjOn naming.paletteKey {identifier | identifier ∈ minted}) :
    (minted.paletteEntries naming).toList.Perm (minted.keys.map fun identifier =>
      (naming.paletteKey identifier, Naming.reference identifier)) := by
  have keys : (minted.keys.map naming.paletteKey).Nodup := by
    refine Std.TreeMap.nodup_keys.map_on fun identifier member identifier' member' same => ?_
    exact distinct (Std.TreeMap.mem_keys.mp member) (Std.TreeMap.mem_keys.mp member') same
  have start : (∅ : Std.TreeMap String String).toList.Perm [] := .refl []
  exact Keyed.foldl_insert_perm naming.paletteKey Naming.reference minted.keys start keys

/-- The palette keeps every token that is minted: no two have one key, so there is one entry for
each, which leads from its key to the reference to it. -/
theorem paletteEntries_of_assign? (colors : List String) (index : ColorIndex)
    (reserved : Std.TreeSet String) (naming : Naming) (accepted : naming.flaw? = none)
    (writable : naming.width ≤ Naming.maxWidth) :
    ∃ assignment, Assignment.assign? colors index reserved naming = some assignment ∧
      Set.InjOn naming.paletteKey {identifier | identifier ∈ assignment.generated} ∧
      (paletteEntries assignment.generated naming).size = assignment.generated.size ∧
      ∀ key reference : String,
        (paletteEntries assignment.generated naming)[key]? = some reference ↔
          ∃ identifier ∈ assignment.generated,
            key = naming.paletteKey identifier ∧ reference = "var(" ++ identifier ++ ")" := by
  have writable' : naming.isWritable = true := by simpa [Naming.isWritable] using writable
  have distinct : Set.InjOn naming.paletteKey
      {identifier | identifier ∈ (Assignment.assign colors index reserved naming).generated} :=
    (Naming.injOn_paletteKey accepted).mono fun _ => Assignment.mem_range_identifier
  have listed := paletteEntries_perm distinct
  refine ⟨_, Assignment.assign?_eq_of_perm (.refl colors) writable', distinct, ?_, ?_⟩
  · rw [Keyed.size_of_perm listed, List.length_map, Std.TreeMap.length_keys]
  · intro key reference
    rw [Keyed.getElem?_iff_of_perm listed]
    simp only [List.mem_map, Std.TreeMap.mem_keys, Prod.mk.injEq, eq_comm, Naming.reference]

/-- The palette stem reaches into the digits: one of two identifiers does not start with it and is
kept in full, of the other one nothing is left. -/
theorem paletteEntries_of_assign?_overlapping :
    Naming.flaw? ⟨"--c-", 1, "--c-1"⟩ = none ∧ 1 ≤ Naming.maxWidth ∧
    ∃ assignment,
      Assignment.assign? ["#222222", "#111111"] ∅ ∅ ⟨"--c-", 1, "--c-1"⟩ = some assignment ∧
      (paletteEntries assignment.generated ⟨"--c-", 1, "--c-1"⟩).size = 2 ∧
      (paletteEntries assignment.generated ⟨"--c-", 1, "--c-1"⟩)["--c-0"]? = some "var(--c-0)" ∧
      (paletteEntries assignment.generated ⟨"--c-", 1, "--c-1"⟩)[""]? = some "var(--c-1)" := by
  have accepted : Naming.flaw? ⟨"--c-", 1, "--c-1"⟩ = none := by decide
  have writable : 1 ≤ Naming.maxWidth := by decide
  obtain ⟨assignment, assigned, -, size, entries⟩ :=
    paletteEntries_of_assign? ["#222222", "#111111"] ∅ ∅ ⟨"--c-", 1, "--c-1"⟩ accepted writable
  have counted : (Assignment.frequencies ["#222222", "#111111"]).toList =
      [("#111111", 1), ("#222222", 1)] := by decide +kernel
  have ranked : Assignment.ranked ["#222222", "#111111"] =
      [("#111111", 1), ("#222222", 1)] := by
    rw [Assignment.ranked, counted]
    exact List.mergeSort_of_pairwise (by decide +kernel)
  have minted : (Assignment.assign? ["#222222", "#111111"] ∅ ∅ ⟨"--c-", 1, "--c-1"⟩).map
      (·.generated.keys) = some ["--c-0", "--c-1"] := by
    rw [Assignment.assign?, Assignment.assign, ranked]
    decide +kernel
  rw [assigned] at minted
  have keys : assignment.generated.keys = ["--c-0", "--c-1"] := Option.some.inj minted
  refine ⟨accepted, writable, assignment, assigned, ?_, ?_, ?_⟩
  · rw [size, ← Std.TreeMap.length_keys, keys]
    rfl
  · exact (entries _ _).mpr ⟨"--c-0", by simp [← Std.TreeMap.mem_keys, keys], by decide, by decide⟩
  · exact (entries _ _).mpr ⟨"--c-1", by simp [← Std.TreeMap.mem_keys, keys], by decide, by decide⟩

end MintedTokens

end ColorTokens
