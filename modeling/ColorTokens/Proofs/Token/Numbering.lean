import ColorTokens.Proofs.Token.Assignment
import Mathlib.Algebra.BigOperators.Group.List.Lemmas
import Mathlib.Data.Nat.Nth

/-! What assigning computes. Colours are ranked by how often they come, then by text. Those that are
indexed keep their identifiers; the others take the open numbers, which are those whose identifiers
are not reserved, one after the other and without a gap. -/

set_option autoImplicit false

namespace ColorTokens.Assignment

variable {index : ColorIndex} {reserved : Std.TreeSet String} {naming : Naming}

section Ranking

variable {colors colors' : List String}

theorem getD_foldl_count (colors : List String) (counts : Std.TreeMap String Nat) (color : String) :
    (colors.foldl (fun counts color => counts.insert color (counts.getD color 0 + 1)) counts).getD
      color 0 = counts.getD color 0 + colors.count color := by
  induction colors generalizing counts with
  | nil => simp
  | cons first rest ih =>
    rw [List.foldl_cons, ih, Std.TreeMap.getD_insert]
    simp only [Std.compare_eq_iff_eq]
    by_cases same : first = color
    · subst same
      rw [if_pos rfl, List.count_cons_self]
      omega
    · rw [if_neg same, List.count_cons_of_ne same]

theorem getElem?_frequencies (colors : List String) (color : String) :
    (frequencies colors)[color]? = if color ∈ colors then some (colors.count color) else none := by
  have counted := getD_foldl_count colors ∅ color
  have present := mem_foldl_count colors ∅ color
  rw [← frequencies] at counted present
  rw [Std.TreeMap.getD_emptyc, Nat.zero_add, Std.TreeMap.getD_eq_getD_getElem?] at counted
  rw [Std.TreeMap.mem_iff_isSome_getElem?] at present
  cases found : (frequencies colors)[color]? with
  | none => simpa [found] using present
  | some count =>
    have member : color ∈ colors := by simpa [found] using present
    rw [found, Option.getD_some] at counted
    rw [if_pos member, counted]

theorem mem_ranked_iff {color : String} {count : Nat} :
    (color, count) ∈ ranked colors ↔ color ∈ colors ∧ colors.count color = count := by
  rw [ranked, (List.mergeSort_perm _ _).mem_iff, Std.TreeMap.mem_toList_iff_getElem?_eq_some,
    getElem?_frequencies, Option.ite_none_right_eq_some, Option.some.injEq]

theorem ranked_eq_of_perm (perm : colors.Perm colors') : ranked colors = ranked colors' := by
  have same : (frequencies colors).toList = (frequencies colors').toList := by
    rw [← Std.TreeMap.equiv_iff_toList_eq]
    apply Std.TreeMap.Equiv.of_forall_constGet?_eq
    intro color
    simp only [getElem?_frequencies, perm.mem_iff, perm.count_eq]
  rw [ranked, ranked, same]

theorem ranksBefore_iff {a b : String × Nat} :
    ranksBefore a b = true ↔ b.2 < a.2 ∨ a.2 = b.2 ∧ (compare a.1 b.1).isLE = true := by
  simp [ranksBefore]

theorem ranksBefore_trans {a b c : String × Nat} (first : ranksBefore a b = true)
    (second : ranksBefore b c = true) : ranksBefore a c = true := by
  rw [ranksBefore_iff] at first second ⊢
  rcases first with fewer | ⟨same, before⟩ <;> rcases second with fewer' | ⟨same', before'⟩
  · exact .inl (by omega)
  · exact .inl (by omega)
  · exact .inl (by omega)
  · exact .inr ⟨same.trans same', Std.TransCmp.isLE_trans before before'⟩

theorem ranksBefore_total (a b : String × Nat) : (ranksBefore a b || ranksBefore b a) = true := by
  rw [Bool.or_eq_true, ranksBefore_iff, ranksBefore_iff]
  rcases Nat.lt_trichotomy a.2 b.2 with fewer | same | more
  · exact .inr (.inl fewer)
  · cases order : compare a.1 b.1 with
    | lt => exact .inl (.inr ⟨same, rfl⟩)
    | eq => exact .inl (.inr ⟨same, rfl⟩)
    | gt =>
      have after : compare b.1 a.1 = .lt := Std.OrientedCmp.gt_iff_lt.mp order
      exact .inr (.inr ⟨same.symm, by rw [after]; rfl⟩)
  · exact .inl (.inl more)

/-- Whether a colour of a list comes before another one: it is more frequent, or as frequent and its
text is the lesser one. -/
def Precedes (colors : List String) (a b : String) : Prop :=
  colors.count b < colors.count a ∨
    colors.count a = colors.count b ∧ compare a b = .lt

theorem ranked_sorted (colors : List String) :
    ((ranked colors).map Prod.fst).Pairwise (Precedes colors) := by
  have sorted : (ranked colors).Pairwise fun a b => ranksBefore a b = true := by
    apply List.pairwise_mergeSort
    · exact fun _ _ _ => ranksBefore_trans
    · exact ranksBefore_total
  have apart := List.pairwise_map.mp (nodup_ranked colors)
  rw [List.pairwise_map]
  refine (sorted.and apart).imp_of_mem fun {a b} member member' ordered => ?_
  obtain ⟨before, differ⟩ := ordered
  have count := (mem_ranked_iff.mp member).2
  have count' := (mem_ranked_iff.mp member').2
  rw [ranksBefore_iff, Ordering.isLE_iff_eq_lt_or_eq_eq, Std.compare_eq_iff_eq] at before
  rw [Precedes, count, count']
  rcases before with more | ⟨same, lesser | equal⟩
  · exact .inl more
  · exact .inr ⟨same, lesser⟩
  · exact absurd equal differ

end Ranking

section Numbers

def IsOpen (reserved : Std.TreeSet String) (naming : Naming) (n : Nat) : Prop :=
  naming.identifier n ∉ reserved

instance (reserved : Std.TreeSet String) (naming : Naming) :
    DecidablePred (IsOpen reserved naming) :=
  fun _ => inferInstanceAs (Decidable (_ ∉ reserved))

noncomputable def openNumber (reserved : Std.TreeSet String) (naming : Naming) : Nat → Nat :=
  Nat.nth (IsOpen reserved naming)

theorem infinite_isOpen (reserved : Std.TreeSet String) (naming : Naming) :
    (Set.ofPred (IsOpen reserved naming)).Infinite := by
  apply Set.infinite_of_forall_exists_gt
  intro n
  have within : ∀ identifier, reserved.contains identifier = true →
      identifier ∈ reserved.toList := by
    intro identifier used
    simpa [Std.TreeSet.mem_toList] using used
  obtain ⟨m, later, -, free⟩ := exists_free naming reserved.contains (n + 1) within
  refine ⟨m, ?_, later⟩
  rw [← Bool.not_eq_true, Std.TreeSet.contains_iff_mem] at free
  exact free

theorem firstFree_first (naming : Naming) (taken : String → Bool) (fuel n : Nat) :
    n ≤ firstFree naming taken fuel n ∧
      ∀ m, n ≤ m → m < firstFree naming taken fuel n → taken (naming.identifier m) = true := by
  induction fuel generalizing n with
  | zero => exact ⟨Nat.le_refl n, fun m low high => absurd high (Nat.not_lt.mpr low)⟩
  | succ fuel ih =>
    rw [firstFree]
    split
    · next first =>
      obtain ⟨reached, passed⟩ := ih (n + 1)
      refine ⟨by omega, fun m low high => ?_⟩
      rcases Nat.eq_or_lt_of_le low with rfl | later
      · exact first
      · exact passed m later high
    · exact ⟨Nat.le_refl n, fun m low high => absurd high (Nat.not_lt.mpr low)⟩

/-- The next number is open, and no number between is. -/
theorem nextNumber_eq {generated : Std.TreeMap String String} {next : Nat}
    (behind : ∀ m, next ≤ m → naming.identifier m ∉ generated) :
    nextNumber naming reserved generated next =
      openNumber reserved naming (Nat.count (IsOpen reserved naming) next) := by
  have found : IsOpen reserved naming (nextNumber naming reserved generated next) :=
    (identifier_nextNumber_free naming reserved generated next).1
  obtain ⟨reached, passed⟩ := firstFree_first naming
    (fun identifier => reserved.contains identifier || generated.contains identifier)
    (reserved.size + generated.size + 1) next
  rw [← nextNumber] at reached passed
  have closed : ∀ m, next ≤ m → m < nextNumber naming reserved generated next →
      ¬ IsOpen reserved naming m := by
    intro m low high free
    have taken := passed m low high
    rw [Bool.or_eq_true, Std.TreeSet.contains_iff_mem, Std.TreeMap.contains_iff_mem] at taken
    exact taken.elim free (behind m low)
  have counted : Nat.count (IsOpen reserved naming) (nextNumber naming reserved generated next) =
      Nat.count (IsOpen reserved naming) next := by
    refine Nat.le_antisymm (Nat.le_of_not_lt fun more => ?_) (Nat.count_monotone _ reached)
    obtain ⟨m, ⟨low, high⟩, free⟩ := Nat.exists_of_count_lt_count more
    exact closed m low high free
  rw [openNumber, ← counted, Nat.nth_count found]

end Numbers

section Giving

def fresh (index : ColorIndex) (colors : List String) : List String :=
  colors.filter fun color => index[color]?.isNone

def originOf (index : ColorIndex) (color : String) : Origin :=
  if index[color]?.isNone then .generated else .existing

noncomputable def numbered (reserved : Std.TreeSet String) (naming : Naming)
    (colors : List String) : List (String × String) :=
  colors.mapIdx fun i color => (naming.identifier (openNumber reserved naming i), color)

/-- What an assignment and its counter hold once the entries of a list have been given their
tokens. -/
structure Records (index : ColorIndex) (reserved : Std.TreeSet String) (naming : Naming)
    (entries : List (String × Nat)) (state : Assignment × Nat) : Prop where
  order_eq : state.1.order = entries.map Prod.fst
  frequency : state.1.frequency.toList.Perm entries
  origins : state.1.origins.toList.Perm
    (entries.map fun entry => (entry.1, originOf index entry.1))
  generated : state.1.generated.toList.Perm
    (numbered reserved naming (fresh index (entries.map Prod.fst)))
  counter : Nat.count (IsOpen reserved naming) state.2 =
    (fresh index (entries.map Prod.fst)).length

theorem records_empty : Records index reserved naming [] (empty, 0) := by
  exact ⟨rfl, .refl [], .refl [], .refl [], Nat.count_zero _⟩

variable {entries : List (String × Nat)} {state : Assignment × Nat}

theorem Records.behind (records : Records index reserved naming entries state) (m : Nat)
    (low : state.2 ≤ m) : naming.identifier m ∉ state.1.generated := by
  intro minted
  rw [Keyed.mem_iff_of_perm records.generated] at minted
  obtain ⟨⟨identifier, color⟩, listed, same⟩ := List.mem_map.mp minted
  obtain ⟨i, bound, given⟩ := List.mem_mapIdx.mp listed
  cases given
  have number := naming.identifier_injective same
  rw [← records.counter] at bound
  have earlier : openNumber reserved naming i < state.2 := Nat.nth_lt_of_lt_count bound
  omega

theorem fresh_concat (colors : List String) (color : String) :
    fresh index (colors ++ [color]) =
      fresh index colors ++ if index[color]?.isNone then [color] else [] := by
  rw [fresh, List.filter_append, List.filter_singleton, Bool.cond_eq_ite, fresh]

theorem numbered_concat (colors : List String) (color : String) :
    numbered reserved naming (colors ++ [color]) = numbered reserved naming colors ++
      [(naming.identifier (openNumber reserved naming colors.length), color)] :=
  List.mapIdx_concat

theorem records_reuse (records : Records index reserved naming entries state) {color : String}
    (count : Nat) (new : color ∉ entries.map Prod.fst) {identifier : String}
    (found : index[color]? = some identifier) :
    Records index reserved naming (entries ++ [(color, count)])
      (give index reserved naming state (color, count)) := by
  have known : ¬ index[color]?.isNone = true := by simp [found]
  have same : fresh index ((entries ++ [(color, count)]).map Prod.fst) =
      fresh index (entries.map Prod.fst) := by
    rw [List.map_append, List.map_singleton, fresh_concat, if_neg known, List.append_nil]
  simp only [give, Std.TreeMap.get?_eq_getElem?, found]
  refine ⟨?_, Keyed.insert_perm records.frequency new count, ?_, ?_, ?_⟩
  · rw [List.map_append, ← records.order_eq]
    rfl
  · have listed := Keyed.insert_perm records.origins (by simpa using new) Origin.existing
    rw [List.map_append, List.map_singleton, originOf, if_neg known]
    exact listed
  · rw [same]
    exact records.generated
  · rw [same]
    exact records.counter

theorem records_mint (records : Records index reserved naming entries state) {color : String}
    (count : Nat) (new : color ∉ entries.map Prod.fst) (found : index[color]? = none) :
    Records index reserved naming (entries ++ [(color, count)])
      (give index reserved naming state (color, count)) := by
  have unknown : index[color]?.isNone = true := by simp [found]
  have longer : fresh index ((entries ++ [(color, count)]).map Prod.fst) =
      fresh index (entries.map Prod.fst) ++ [color] := by
    rw [List.map_append, List.map_singleton, fresh_concat, if_pos unknown]
  have number : nextNumber naming reserved state.1.generated state.2 =
      openNumber reserved naming (Nat.count (IsOpen reserved naming) state.2) :=
    nextNumber_eq records.behind
  have free := (identifier_nextNumber_free naming reserved state.1.generated state.2).2
  rw [number, records.counter] at free
  simp only [give, Std.TreeMap.get?_eq_getElem?, found, number, records.counter]
  refine ⟨?_, Keyed.insert_perm records.frequency new count, ?_, ?_, ?_⟩
  · rw [List.map_append, ← records.order_eq]
    rfl
  · have listed := Keyed.insert_perm records.origins (by simpa using new) Origin.generated
    rw [List.map_append, List.map_singleton, originOf, if_pos unknown]
    exact listed
  · rw [longer, numbered_concat]
    exact Keyed.insert_perm records.generated (mt (Keyed.mem_iff_of_perm records.generated).mpr free)
      color
  · -- The counter stands right behind the number that was given.
    rw [longer, List.length_append, List.length_singleton, openNumber,
      Nat.count_nth_succ_of_infinite (infinite_isOpen reserved naming)]

theorem records_foldl_give (more : List (String × Nat))
    (records : Records index reserved naming entries state)
    (distinct : ((entries ++ more).map Prod.fst).Nodup) :
    Records index reserved naming (entries ++ more)
      (more.foldl (give index reserved naming) state) := by
  induction more generalizing entries state with
  | nil => simpa using records
  | cons entry rest ih =>
    obtain ⟨color, count⟩ := entry
    rw [← List.singleton_append, ← List.append_assoc] at distinct ⊢
    have new : color ∉ entries.map Prod.fst := by
      intro member
      rw [List.map_append, List.map_append, List.map_singleton] at distinct
      exact List.disjoint_of_nodup_append distinct.of_append_left member
        (List.mem_singleton_self color)
    have step : Records index reserved naming (entries ++ [(color, count)])
        (give index reserved naming state (color, count)) := by
      cases found : index[color]? with
      | some identifier => exact records_reuse records count new found
      | none => exact records_mint records count new found
    exact ih step distinct

theorem records_assign (colors : List String) (index : ColorIndex) (reserved : Std.TreeSet String)
    (naming : Naming) :
    Records index reserved naming (ranked colors)
      ((ranked colors).foldl (give index reserved naming) (empty, 0)) := by
  have start : Records index reserved naming [] (empty, 0) := records_empty
  simpa using records_foldl_give (ranked colors) start (by simpa using nodup_ranked colors)

end Giving

section Specification

variable {entries : List (String × Nat)} {state : Assignment × Nat}

theorem mem_numbered_iff {colors : List String} {identifier color : String} :
    (identifier, color) ∈ numbered reserved naming colors ↔
      ∃ i, colors[i]? = some color ∧ identifier = naming.identifier (openNumber reserved naming i) := by
  rw [numbered, List.mem_mapIdx]
  constructor
  · rintro ⟨i, bound, same⟩
    cases same
    exact ⟨i, List.getElem?_eq_getElem bound, rfl⟩
  · rintro ⟨i, listed, rfl⟩
    obtain ⟨bound, rfl⟩ := List.getElem?_eq_some_iff.mp listed
    exact ⟨i, bound, rfl⟩

theorem Records.generated_add_reused (records : Records index reserved naming entries state) :
    state.1.generatedCount + state.1.reusedCount = state.1.uniqueCount := by
  have minted : state.1.generatedCount =
      entries.countP fun entry => index[entry.1]?.isNone := by
    rw [generatedCount, Keyed.size_of_perm records.generated, numbered, List.length_mapIdx, fresh,
      ← List.countP_eq_length_filter, List.countP_map]
    rfl
  have reused : state.1.reusedCount =
      entries.countP fun entry => decide ¬ index[entry.1]?.isNone = true := by
    rw [reusedCount, (Keyed.values_perm records.origins).count_eq, List.map_map, List.count,
      List.countP_map]
    refine List.countP_congr fun entry _ => ?_
    cases found : index[entry.1]? <;> simp only [Function.comp, originOf, found] <;> simp
  rw [minted, reused, uniqueCount, records.order_eq, List.length_map]
  exact (List.length_eq_countP_add_countP _).symm

/-- What the assignment for a list of colours is, `numbers` being the numbers that can be given. -/
structure Assigns (index : ColorIndex) (naming : Naming) (numbers : Nat → Nat)
    (colors : List String) (assignment : Assignment) : Prop where
  nodup_order : assignment.order.Nodup
  mem_order_iff : ∀ color, color ∈ assignment.order ↔ color ∈ colors
  order_sorted : assignment.order.Pairwise (Precedes colors)
  frequency_eq : ∀ color : String,
    assignment.frequency[color]? = if color ∈ colors then some (colors.count color) else none
  frequency_sum : assignment.frequency.values.sum = colors.length
  reused : ∀ color ∈ colors, ∀ identifier, index[color]? = some identifier →
    assignment.tokens[color]? = some identifier ∧ assignment.origins[color]? = some .existing
  minted : ∀ (i : Nat) (color : String), (fresh index assignment.order)[i]? = some color →
    assignment.tokens[color]? = some (naming.identifier (numbers i)) ∧
      assignment.origins[color]? = some .generated
  generated_iff : ∀ identifier color : String, assignment.generated[identifier]? = some color ↔
    ∃ i, (fresh index assignment.order)[i]? = some color ∧ identifier = naming.identifier (numbers i)
  unassigned : ∀ color : String, color ∉ colors →
    assignment.tokens[color]? = none ∧ assignment.origins[color]? = none

/-- The counts of distinct items add up to the length of the list they are counted in. -/
theorem sum_map_count {order colors : List String} (distinct : order.Nodup)
    (mem_iff : ∀ color, color ∈ order ↔ color ∈ colors) :
    (order.map colors.count).sum = colors.length := by
  have perm : order.Perm colors.dedup := by
    refine (List.perm_ext_iff_of_nodup distinct (List.nodup_dedup colors)).mpr fun color => ?_
    rw [mem_iff, List.mem_dedup]
  rw [(perm.map _).sum_eq]
  exact List.sum_map_count_dedup_eq_length colors

theorem frequency_sum_assign (colors : List String) (index : ColorIndex)
    (reserved : Std.TreeSet String) (naming : Naming) :
    (assign colors index reserved naming).frequency.values.sum = colors.length := by
  have records := records_assign colors index reserved naming
  have values := Keyed.values_perm records.frequency
  have counts : (ranked colors).map Prod.snd = ((ranked colors).map Prod.fst).map colors.count := by
    rw [List.map_map]
    exact List.map_congr_left fun entry member => (mem_ranked_iff.mp member).2.symm
  calc (assign colors index reserved naming).frequency.values.sum
      = ((ranked colors).map Prod.snd).sum := values.sum_eq
    _ = (((ranked colors).map Prod.fst).map colors.count).sum := by rw [counts]
    _ = colors.length := sum_map_count (nodup_ranked colors) fun _ => mem_ranked

theorem assigns_assign (colors : List String) (index : ColorIndex) (reserved : Std.TreeSet String)
    (naming : Naming) :
    Assigns index naming (openNumber reserved naming) colors
      (assign colors index reserved naming) := by
  have covers := covers_assign colors index reserved naming
  have records := records_assign colors index reserved naming
  have order : (assign colors index reserved naming).order = (ranked colors).map Prod.fst :=
    records.order_eq
  -- The counter's record lists what is stored, the cover tells how the parts belong together.
  have origins : ∀ (color : String) (origin : Origin),
      (assign colors index reserved naming).origins[color]? = some origin ↔
        color ∈ colors ∧ originOf index color = origin := by
    intro color origin
    rw [assign, Keyed.getElem?_iff_of_perm records.origins, ← mem_ranked]
    simp only [List.mem_map, Prod.mk.injEq]
    grind
  have generated : ∀ identifier color : String,
      (assign colors index reserved naming).generated[identifier]? = some color ↔
        ∃ i, (fresh index (assign colors index reserved naming).order)[i]? = some color ∧
          identifier = naming.identifier (openNumber reserved naming i) := by
    intro identifier color
    rw [order, assign, Keyed.getElem?_iff_of_perm records.generated, mem_numbered_iff]
  refine ⟨?_, ?_, ?_, ?_, frequency_sum_assign colors index reserved naming, ?_, ?_, ?_, ?_⟩
  · rw [order]
    exact nodup_ranked colors
  · intro color
    rw [order, mem_ranked]
  · rw [order]
    exact ranked_sorted colors
  · intro color
    ext count
    rw [assign, Keyed.getElem?_iff_of_perm records.frequency, mem_ranked_iff,
      Option.ite_none_right_eq_some, Option.some.injEq]
  · intro color member identifier found
    refine ⟨covers.reused color (mem_ranked.mpr member) identifier found, ?_⟩
    exact (origins color _).mpr ⟨member, by simp [originOf, found]⟩
  · intro i color listed
    have made := (generated (naming.identifier (openNumber reserved naming i)) color).mpr
      ⟨i, listed, rfl⟩
    obtain ⟨given, unknown, token, -⟩ := covers.declared _ color made
    exact ⟨token, (covers.origin_iff color).mpr ⟨given, unknown⟩⟩
  · exact generated
  · intro color absent
    refine ⟨?_, ?_⟩ <;> rw [Option.eq_none_iff_forall_ne_some]
    · exact fun identifier token => absent (mem_ranked.mp (covers.known color identifier token))
    · exact fun origin known => absent ((origins color origin).mp known).1

theorem strictMono_openNumber (reserved : Std.TreeSet String) (naming : Naming) :
    StrictMono (openNumber reserved naming) :=
  Nat.nth_strictMono (infinite_isOpen reserved naming)

theorem exists_openNumber_iff {n : Nat} :
    (∃ i, openNumber reserved naming i = n) ↔ naming.identifier n ∉ reserved := by
  constructor
  · rintro ⟨i, rfl⟩
    exact Nat.nth_mem_of_infinite (infinite_isOpen reserved naming) i
  · intro free
    exact ⟨Nat.count (IsOpen reserved naming) n, Nat.nth_count free⟩

theorem assign?_eq_of_perm {colors colors' : List String} (perm : colors'.Perm colors)
    (writable : naming.isWritable = true) :
    assign? colors' index reserved naming = some (assign colors index reserved naming) := by
  rw [assign?, if_pos (by rw [writable]; rfl), assign, assign, ranked_eq_of_perm perm]

end Specification

end ColorTokens.Assignment
