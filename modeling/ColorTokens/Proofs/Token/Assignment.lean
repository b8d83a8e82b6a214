import ColorTokens.Token.Assignment
import ColorTokens.Proofs.Token.Verification
import Mathlib.Data.List.Nodup

/-! What assigning guarantees. A free number is always found, since identifiers of different
numbers differ; so every colour gets a token, the one it is indexed under or a new one, and what
was minted passes its own check. -/

set_option autoImplicit false

namespace ColorTokens

namespace Naming

theorem ofDigitChars_padded (width n : Nat) : Nat.ofDigitChars 10 (padded width n) 0 = n := by
  rw [padded, Nat.ofDigitChars_append, Nat.ofDigitChars_replicate_zero, Nat.mul_zero,
    Nat.ofDigitChars_ten_toDigits]

theorem identifier_injective (naming : Naming) : Function.Injective naming.identifier := by
  intro n m same
  have digits := String.ofList_injective (String.append_right_inj naming.stem |>.mp same)
  have values := congrArg (Nat.ofDigitChars 10 · 0) digits
  simpa only [ofDigitChars_padded] using values

end Naming

namespace Assignment

variable {index : ColorIndex} {reserved : Std.TreeSet String} {naming : Naming}

section Numbers

variable (naming) (taken : String → Bool)

theorem firstFree_free {fuel n : Nat}
    (free : ∃ m, n ≤ m ∧ m < n + fuel ∧ taken (naming.identifier m) = false) :
    taken (naming.identifier (firstFree naming taken fuel n)) = false := by
  induction fuel generalizing n with
  | zero =>
    obtain ⟨m, low, high, _⟩ := free
    omega
  | succ fuel ih =>
    obtain ⟨m, low, high, open'⟩ := free
    rw [firstFree]
    by_cases first : taken (naming.identifier n) = true
    · rw [if_pos first]
      have later : n ≠ m := by
        rintro rfl
        rw [first] at open'
        cases open'
      exact ih ⟨m, by omega, by omega, open'⟩
    · rw [if_neg first]
      exact Bool.eq_false_iff.mpr first

/-- Among one more numbers than there are taken identifiers, one is free. -/
theorem exists_free {identifiers : List String} (n : Nat)
    (within : ∀ identifier, taken identifier = true → identifier ∈ identifiers) :
    ∃ m, n ≤ m ∧ m < n + (identifiers.length + 1) ∧ taken (naming.identifier m) = false := by
  by_contra none
  have all : ∀ m ∈ List.range' n (identifiers.length + 1), taken (naming.identifier m) = true := by
    intro m member
    rw [List.mem_range'_1] at member
    by_contra free
    exact none ⟨m, member.1, member.2, Bool.eq_false_iff.mpr free⟩
  have distinct : ((List.range' n (identifiers.length + 1)).map naming.identifier).Nodup :=
    (List.nodup_range' ..).map naming.identifier_injective
  have contained : (List.range' n (identifiers.length + 1)).map naming.identifier ⊆ identifiers := by
    intro identifier member
    obtain ⟨m, listed, rfl⟩ := List.mem_map.mp member
    exact within _ (all m listed)
  have short := distinct.length_le_of_subset contained
  simp only [List.length_map, List.length_range'] at short
  omega

theorem identifier_nextNumber_free (reserved : Std.TreeSet String)
    (generated : Std.TreeMap String String) (n : Nat) :
    naming.identifier (nextNumber naming reserved generated n) ∉ reserved ∧
      naming.identifier (nextNumber naming reserved generated n) ∉ generated := by
  let taken := fun identifier => reserved.contains identifier || generated.contains identifier
  have within : ∀ identifier, taken identifier = true →
      identifier ∈ reserved.toList ++ generated.keys := by
    intro identifier used
    simpa [taken, Std.TreeSet.mem_toList, Std.TreeMap.mem_keys] using used
  have free := exists_free naming taken n within
  rw [List.length_append, Std.TreeSet.length_toList, Std.TreeMap.length_keys] at free
  have found : taken (naming.identifier (nextNumber naming reserved generated n)) = false :=
    firstFree_free naming taken free
  rwa [Bool.or_eq_false_iff, ← Bool.not_eq_true, ← Bool.not_eq_true,
    Std.TreeSet.contains_iff_mem, Std.TreeMap.contains_iff_mem] at found

end Numbers

section Giving

/-- What is known of an assignment once the colours of a list have their tokens. -/
structure Covers (index : ColorIndex) (reserved : Std.TreeSet String) (naming : Naming)
    (given : List String) (assignment : Assignment) : Prop where
  reused : ∀ color ∈ given, ∀ identifier, index[color]? = some identifier →
    assignment.tokens[color]? = some identifier
  minted : ∀ color ∈ given, index[color]? = none →
    ∃ identifier : String, assignment.tokens[color]? = some identifier ∧
      assignment.generated[identifier]? = some color
  declared : ∀ identifier color, assignment.generated[identifier]? = some color →
    color ∈ given ∧ index[color]? = none ∧ assignment.tokens[color]? = some identifier ∧
      identifier ∉ reserved ∧ ∃ n, identifier = naming.identifier n
  origin_iff : ∀ color, assignment.origins[color]? = some .generated ↔
    color ∈ given ∧ index[color]? = none
  known : ∀ color identifier, assignment.tokens[color]? = some identifier → color ∈ given

theorem covers_empty : Covers index reserved naming [] empty := by
  refine ⟨?_, ?_, ?_, ?_, ?_⟩ <;> simp [empty]

variable {given : List String} {assignment : Assignment}

theorem covers_reuse (covers : Covers index reserved naming given assignment) (next count : Nat)
    {color identifier : String} (new : color ∉ given) (found : index[color]? = some identifier) :
    Covers index reserved naming (given ++ [color])
      (give index reserved naming (assignment, next) (color, count)).1 := by
  have differ : ∀ other ∈ given, color ≠ other := fun other member same => new (same ▸ member)
  simp only [give, Std.TreeMap.get?_eq_getElem?, found]
  refine ⟨?_, ?_, ?_, ?_, ?_⟩
  · intro other member identifier' indexed
    rw [Keyed.getElem?_insert]
    rcases List.mem_append.mp member with member | member
    · rw [if_neg (differ other member)]
      exact covers.reused other member identifier' indexed
    · cases List.mem_singleton.mp member
      rw [if_pos rfl, ← found, indexed]
  · intro other member fresh
    rcases List.mem_append.mp member with member | member
    · simp only [Keyed.getElem?_insert, if_neg (differ other member)]
      exact covers.minted other member fresh
    · cases List.mem_singleton.mp member
      rw [found] at fresh
      cases fresh
  · intro identifier' other made
    obtain ⟨member, fresh, token, free⟩ := covers.declared identifier' other made
    rw [Keyed.getElem?_insert, if_neg (differ other member)]
    exact ⟨List.mem_append_left _ member, fresh, token, free⟩
  · intro other
    rw [Keyed.getElem?_insert]
    by_cases same : color = other
    · subst same
      simp [found]
    · rw [if_neg same, covers.origin_iff]
      simp [Ne.symm same]
  · intro other identifier' token
    rw [Keyed.getElem?_insert] at token
    split at token
    · next same => simp [same]
    · exact List.mem_append_left _ (covers.known other identifier' token)

theorem covers_mint (covers : Covers index reserved naming given assignment) (next count : Nat)
    {color : String} (new : color ∉ given) (found : index[color]? = none) :
    Covers index reserved naming (given ++ [color])
      (give index reserved naming (assignment, next) (color, count)).1 := by
  have differ : ∀ other ∈ given, color ≠ other := fun other member same => new (same ▸ member)
  have free := identifier_nextNumber_free naming reserved assignment.generated next
  simp only [give, Std.TreeMap.get?_eq_getElem?, found]
  generalize nextNumber naming reserved assignment.generated next = number at free ⊢
  -- The identifier is new, so nothing that was minted before is overwritten.
  have absent : assignment.generated[naming.identifier number]? = none := by
    rw [← Option.not_isSome_iff_eq_none, ← Std.TreeMap.mem_iff_isSome_getElem?]
    exact free.2
  refine ⟨?_, ?_, ?_, ?_, ?_⟩
  · intro other member identifier' indexed
    rw [Keyed.getElem?_insert]
    rcases List.mem_append.mp member with member | member
    · rw [if_neg (differ other member)]
      exact covers.reused other member identifier' indexed
    · cases List.mem_singleton.mp member
      rw [found] at indexed
      cases indexed
  · intro other member fresh
    rcases List.mem_append.mp member with member | member
    · obtain ⟨identifier', token, made⟩ := covers.minted other member fresh
      refine ⟨identifier', ?_, ?_⟩
      · rw [Keyed.getElem?_insert, if_neg (differ other member), token]
      · rw [Keyed.getElem?_insert, if_neg, made]
        rintro rfl
        rw [absent] at made
        cases made
    · cases List.mem_singleton.mp member
      exact ⟨naming.identifier number, by simp,
        by simp⟩
  · intro identifier' other made
    rw [Keyed.getElem?_insert] at made
    split at made
    · next same =>
      cases made
      subst same
      exact ⟨by simp, found, by simp, free.1, number, rfl⟩
    · obtain ⟨member, fresh, token, free⟩ := covers.declared identifier' other made
      rw [Keyed.getElem?_insert, if_neg (differ other member)]
      exact ⟨List.mem_append_left _ member, fresh, token, free⟩
  · intro other
    rw [Keyed.getElem?_insert]
    by_cases same : color = other
    · subst same
      simp [found]
    · rw [if_neg same, covers.origin_iff]
      simp [Ne.symm same]
  · intro other identifier' token
    rw [Keyed.getElem?_insert] at token
    split at token
    · next same => simp [same]
    · exact List.mem_append_left _ (covers.known other identifier' token)

theorem Covers.exists_token (covers : Covers index reserved naming given assignment)
    {color : String} (member : color ∈ given) :
    ∃ identifier, assignment.tokens[color]? = some identifier := by
  cases found : index[color]? with
  | some identifier => exact ⟨identifier, covers.reused color member identifier found⟩
  | none =>
    obtain ⟨identifier, token, _⟩ := covers.minted color member found
    exact ⟨identifier, token⟩

theorem covers_foldl_give (entries : List (String × Nat)) (next : Nat)
    (covers : Covers index reserved naming given assignment)
    (distinct : (given ++ entries.map Prod.fst).Nodup) :
    Covers index reserved naming (given ++ entries.map Prod.fst)
      (entries.foldl (give index reserved naming) (assignment, next)).1 := by
  induction entries generalizing given assignment next with
  | nil => simpa using covers
  | cons entry rest ih =>
    obtain ⟨color, count⟩ := entry
    rw [List.map_cons, ← List.singleton_append, ← List.append_assoc] at distinct ⊢
    have new : color ∉ given := fun member =>
      List.disjoint_of_nodup_append distinct.of_append_left member (List.mem_singleton_self color)
    have step : Covers index reserved naming (given ++ [color])
        (give index reserved naming (assignment, next) (color, count)).1 := by
      cases found : index[color]? with
      | some identifier => exact covers_reuse covers next count new found
      | none => exact covers_mint covers next count new found
    exact ih _ step distinct

end Giving

section Ranking

theorem mem_foldl_count (colors : List String) (counts : Std.TreeMap String Nat) (color : String) :
    color ∈ colors.foldl (fun counts color => counts.insert color (counts.getD color 0 + 1)) counts ↔
      color ∈ counts ∨ color ∈ colors := by
  induction colors generalizing counts with
  | nil => simp
  | cons first rest ih =>
    rw [List.foldl_cons, ih, Std.TreeMap.mem_insert, Std.compare_eq_iff_eq, List.mem_cons]
    grind

theorem ranked_perm (colors : List String) :
    ((ranked colors).map Prod.fst).Perm (frequencies colors).keys := by
  rw [← Std.TreeMap.map_fst_toList_eq_keys]
  exact (List.mergeSort_perm _ _).map _

theorem nodup_ranked (colors : List String) : ((ranked colors).map Prod.fst).Nodup :=
  (ranked_perm colors).nodup_iff.mpr Std.TreeMap.nodup_keys

theorem mem_ranked {colors : List String} {color : String} :
    color ∈ (ranked colors).map Prod.fst ↔ color ∈ colors := by
  rw [(ranked_perm colors).mem_iff, Std.TreeMap.mem_keys, frequencies, mem_foldl_count]
  simp

theorem covers_assign (colors : List String) (index : ColorIndex) (reserved : Std.TreeSet String)
    (naming : Naming) :
    Covers index reserved naming ((ranked colors).map Prod.fst)
      (assign colors index reserved naming) := by
  have start : Covers index reserved naming [] empty := covers_empty
  have covers := covers_foldl_give (ranked colors) 0 start
  rw [List.nil_append] at covers
  exact covers (nodup_ranked colors)

theorem exists_token {colors : List String} {color : String} (member : color ∈ colors)
    (index : ColorIndex) (reserved : Std.TreeSet String) (naming : Naming) :
    ∃ identifier, (assign colors index reserved naming).tokens[color]? = some identifier := by
  exact (covers_assign colors index reserved naming).exists_token (mem_ranked.mpr member)

theorem token_source {colors : List String} {color identifier : String}
    (member : color ∈ colors)
    (token : (assign colors index reserved naming).tokens[color]? = some identifier) :
    index[color]? = some identifier ∨ ∃ n, identifier = naming.identifier n := by
  have covers := covers_assign colors index reserved naming
  have given := mem_ranked.mpr member
  cases found : index[color]? with
  | some known =>
    rw [covers.reused color given known found] at token
    exact .inl token
  | none =>
    obtain ⟨minted, given', made⟩ := covers.minted color given found
    rw [given'] at token
    cases token
    exact .inr (covers.declared _ color made).2.2.2.2

theorem assign_nil (index : ColorIndex) (reserved : Std.TreeSet String) (naming : Naming) :
    assign [] index reserved naming = empty := by
  have none : ranked [] = [] := List.mergeSort_nil
  rw [assign, none, List.foldl_nil]

end Ranking

section Reuse

variable {index' : ColorIndex} {reserved' : Std.TreeSet String} {given : List String}
  {assignment assignment' : Assignment}

/-- An assignment over an index that gives each colour the token it was given before mints nothing
and gives every colour that token again. -/
theorem Covers.reuses (covers : Covers index reserved naming given assignment)
    (covers' : Covers index' reserved' naming given assignment')
    (reads : ∀ color ∈ given, index'[color]? = assignment.tokens[color]?) :
    assignment'.generated.isEmpty ∧
      ∀ color : String, assignment'.tokens[color]? = assignment.tokens[color]? := by
  constructor
  · rw [Std.TreeMap.isEmpty_iff_forall_not_mem]
    intro identifier minted
    obtain ⟨member, absent, -⟩ :=
      covers'.declared identifier _ (Std.TreeMap.getElem?_eq_some_getElem minted)
    obtain ⟨known, token⟩ := covers.exists_token member
    rw [reads _ member, token] at absent
    cases absent
  · intro color
    by_cases member : color ∈ given
    · obtain ⟨identifier, token⟩ := covers.exists_token member
      rw [token]
      exact covers'.reused color member identifier ((reads color member).trans token)
    · have unknown : assignment.tokens[color]? = none :=
        Option.eq_none_iff_forall_ne_some.mpr fun identifier token =>
          member (covers.known color identifier token)
      have unknown' : assignment'.tokens[color]? = none :=
        Option.eq_none_iff_forall_ne_some.mpr fun identifier token =>
          member (covers'.known color identifier token)
      rw [unknown, unknown']

theorem Covers.exists_indexed (covers : Covers index reserved naming given assignment)
    (none : assignment.generated.isEmpty) {color : String} (member : color ∈ given) :
    ∃ identifier, index[color]? = some identifier := by
  cases found : index[color]? with
  | some identifier => exact ⟨identifier, rfl⟩
  | none =>
    obtain ⟨identifier, -, minted⟩ := covers.minted color member found
    rw [Std.TreeMap.isEmpty_iff_forall_not_mem] at none
    exact absurd (Std.TreeMap.mem_iff_isSome_getElem?.mpr (by simp [minted])) (none identifier)

theorem Covers.nodup_values (covers : Covers index reserved naming given assignment) :
    assignment.generated.values.Nodup := by
  rw [Keyed.values_eq]
  apply List.Nodup.map_on
  · intro first listed second listed' same
    rw [Std.TreeMap.mem_toList_iff_getElem?_eq_some] at listed listed'
    obtain ⟨-, -, token, -⟩ := covers.declared _ _ listed
    obtain ⟨-, -, token', -⟩ := covers.declared _ _ listed'
    rw [same, token'] at token
    exact Prod.ext (Option.some.inj token).symm same
  · exact (Keyed.nodup_keys_toList assignment.generated).of_map Prod.fst

end Reuse

section FirstNumber

/-- Minting has not begun, or it began with number zero. -/
def Begun (naming : Naming) (state : Assignment × Nat) : Prop :=
  state.1.generated = ∅ ∧ state.2 = 0 ∨ naming.identifier 0 ∈ state.1.generated

theorem nextNumber_zero (free : naming.identifier 0 ∉ reserved) :
    nextNumber naming reserved ∅ 0 = 0 := by
  have open' : (reserved.contains (naming.identifier 0) ||
      (∅ : Std.TreeMap String String).contains (naming.identifier 0)) = false := by
    rw [← Std.TreeSet.contains_iff_mem, Bool.not_eq_true] at free
    simpa using free
  rw [nextNumber, firstFree, if_neg (by rw [open']; exact Bool.false_ne_true)]

theorem begun_give (free : naming.identifier 0 ∉ reserved) {state : Assignment × Nat}
    (begun : Begun naming state) (entry : String × Nat) :
    Begun naming (give index reserved naming state entry) := by
  obtain ⟨assignment, next⟩ := state
  obtain ⟨color, count⟩ := entry
  unfold Begun at begun ⊢
  cases found : index[color]? with
  | some identifier => simpa only [give, Std.TreeMap.get?_eq_getElem?, found] using begun
  | none =>
    right
    simp only [give, Std.TreeMap.get?_eq_getElem?, found, Std.TreeMap.mem_insert,
      Std.compare_eq_iff_eq]
    rcases begun with ⟨none, zero⟩ | member
    · simp only at none zero
      rw [none, zero, nextNumber_zero free]
      exact .inl rfl
    · exact .inr member

theorem begun_foldl_give (free : naming.identifier 0 ∉ reserved) (entries : List (String × Nat))
    {state : Assignment × Nat} (begun : Begun naming state) :
    Begun naming (entries.foldl (give index reserved naming) state) := by
  induction entries generalizing state with
  | nil => exact begun
  | cons entry rest ih => exact ih (begun_give free begun entry)

/-- Where number zero is free, an assignment that mints at all mints it. -/
theorem identifier_zero_mem (free : naming.identifier 0 ∉ reserved) {colors : List String}
    {identifier : String} (minted : identifier ∈ (assign colors index reserved naming).generated) :
    naming.identifier 0 ∈ (assign colors index reserved naming).generated := by
  have begun : Begun naming ((ranked colors).foldl (give index reserved naming) (empty, 0)) :=
    begun_foldl_give free (ranked colors) (.inl ⟨rfl, rfl⟩)
  rcases begun with ⟨none, -⟩ | member
  · rw [assign, none] at minted
    exact absurd minted Std.TreeMap.not_mem_emptyc
  · exact member

end FirstNumber

section Verification

theorem verify_eq_ok {assignment : Assignment} {given : List String}
    (covers : Covers index reserved naming given assignment) :
    assignment.verify reserved = .ok () := by
  rw [verify_eq_ok_iff]
  refine ⟨fun color origin => ?_, fun identifier => ⟨fun declared => ?_, ?_⟩⟩
  · obtain ⟨member, fresh⟩ := (covers.origin_iff color).mp origin
    obtain ⟨identifier, token, made⟩ := covers.minted color member fresh
    exact ⟨identifier, token, (covers.declared identifier color made).2.2.2.1, made⟩
  · obtain ⟨color, made⟩ := Option.isSome_iff_exists.mp
      (Std.TreeMap.mem_iff_isSome_getElem?.mp declared)
    obtain ⟨member, fresh, token, -⟩ := covers.declared identifier color made
    exact ⟨color, (covers.origin_iff color).mpr ⟨member, fresh⟩, token⟩
  · rintro ⟨color, origin, token⟩
    obtain ⟨member, fresh⟩ := (covers.origin_iff color).mp origin
    obtain ⟨identifier', token', made⟩ := covers.minted color member fresh
    rw [token] at token'
    cases token'
    rw [Std.TreeMap.mem_iff_isSome_getElem?, made]
    rfl

end Verification

end Assignment

end ColorTokens
