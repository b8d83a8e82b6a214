import Std.Data.TreeMap
import Std.Data.TreeSet
import Mathlib.Data.List.Nodup

/-! Maps keyed by texts, read through equality of keys in place of their order. -/

set_option autoImplicit false

namespace ColorTokens.Keyed

variable {α : Type}

theorem getElem?_insert (entries : Std.TreeMap String α) (key key' : String) (value : α) :
    (entries.insert key value)[key']? = if key = key' then some value else entries[key']? := by
  rw [Std.TreeMap.getElem?_insert]
  simp only [Std.compare_eq_iff_eq]

theorem getElem?_insertIfNew (entries : Std.TreeMap String α) (key key' : String) (value : α) :
    (entries.insertIfNew key value)[key']? =
      if key = key' then entries[key']?.or (some value) else entries[key']? := by
  rw [Std.TreeMap.getElem?_insertIfNew]
  simp only [Std.compare_eq_iff_eq]
  by_cases same : key = key'
  · subst same
    cases found : entries[key]? with
    | none => simp [Std.TreeMap.mem_iff_isSome_getElem?, found]
    | some old => simp [Std.TreeMap.mem_iff_isSome_getElem?, found]
  · simp [same]

theorem values_eq (entries : Std.TreeMap String α) :
    entries.values = entries.toList.map Prod.snd := by
  change entries.inner.inner.values =
    (Std.DTreeMap.Internal.Impl.Const.toList entries.inner.inner).map Prod.snd
  rw [Std.DTreeMap.Internal.Impl.values_eq_map_snd,
    Std.DTreeMap.Internal.Impl.Const.toList_eq_toListModel_map, List.map_map]
  rfl

theorem mem_values_iff {entries : Std.TreeMap String α} {value : α} :
    value ∈ entries.values ↔ ∃ key : String, entries[key]? = some value := by
  simp only [values_eq, List.mem_map, Prod.exists, Std.TreeMap.mem_toList_iff_getElem?_eq_some,
    exists_eq_right]

theorem mem_of_entry {entries : Std.TreeMap String α} {entry : String × α}
    (listed : entry ∈ entries.toList) : entry.1 ∈ entries := by
  rw [← Std.TreeMap.mem_keys, ← Std.TreeMap.map_fst_toList_eq_keys]
  exact List.mem_map_of_mem listed

theorem exists_entry {entries : Std.TreeMap String α} {key : String} (present : key ∈ entries) :
    ∃ value, (key, value) ∈ entries.toList := by
  refine ⟨entries[key], ?_⟩
  rw [Std.TreeMap.mem_toList_iff_getElem?_eq_some]
  exact Std.TreeMap.getElem?_eq_some_getElem present

theorem nodup_keys_toList (entries : Std.TreeMap String α) :
    (entries.toList.map Prod.fst).Nodup := by
  rw [Std.TreeMap.map_fst_toList_eq_keys]
  exact Std.TreeMap.nodup_keys

section Sorted

theorem not_lt_self (key : String) : ¬ compare key key = .lt := by
  simp

theorem not_lt_of_lt {key key' : String} (lesser : compare key key' = .lt) :
    ¬ compare key' key = .lt := by
  intro greater
  rw [← Std.OrientedCmp.gt_iff_lt, lesser] at greater
  cases greater

variable {β : Type} {keyOf : β → String} {items front back : List β} {item other : β}

theorem mem_front_of_lt (sorted : items.Pairwise fun a b => compare (keyOf a) (keyOf b) = .lt)
    (parted : items = front ++ item :: back) (member : other ∈ items)
    (lesser : compare (keyOf other) (keyOf item) = .lt) : other ∈ front := by
  rw [parted, List.pairwise_append, List.pairwise_cons] at sorted
  rw [parted] at member
  rcases List.mem_append.mp member with inside | inside
  · exact inside
  · rcases List.mem_cons.mp inside with rfl | later
    · exact absurd lesser (not_lt_self _)
    · exact absurd lesser (not_lt_of_lt (sorted.2.1.1 other later))

theorem mem_front_iff {entries : Std.TreeMap String α} {front back : List (String × α)}
    {key key' : String} {value value' : α} (parted : entries.toList = front ++ (key, value) :: back) :
    (key', value') ∈ front ↔ entries[key']? = some value' ∧ compare key' key = .lt := by
  have sorted : entries.toList.Pairwise fun a b => compare a.1 b.1 = .lt :=
    Std.TreeMap.ordered_keys_toList
  rw [← Std.TreeMap.mem_toList_iff_getElem?_eq_some]
  constructor
  · intro member
    rw [parted] at sorted ⊢
    refine ⟨List.mem_append_left _ member, ?_⟩
    exact (List.pairwise_append.mp sorted).2.2 _ member _ List.mem_cons_self
  · rintro ⟨member, lesser⟩
    exact mem_front_of_lt sorted parted member lesser

end Sorted

/-- Entries are listed by key, so there is one order for them. -/
theorem toList_eq_of_perm {entries entries' : Std.TreeMap String α}
    (perm : entries.toList.Perm entries'.toList) : entries.toList = entries'.toList :=
  Std.TreeMap.equiv_iff_toList_eq.mp (.of_toList_perm perm)

theorem toList_insert_perm {entries : Std.TreeMap String α} {key : String} {value : α}
    (new : key ∉ entries) :
    (entries.insert key value).toList.Perm ((key, value) :: entries.toList) := by
  have kept : entries.toList.filter (fun entry => decide ¬(key == entry.1) = true) =
      entries.toList := by
    refine List.filter_eq_self.mpr fun entry member => ?_
    have differ : key ≠ entry.1 := fun same => new (same ▸ mem_of_entry member)
    simpa using differ
  have inserted := Std.TreeMap.toList_insert_perm (t := entries) (k := key) (v := value)
  rwa [kept] at inserted

section Listed

variable {entries : Std.TreeMap String α} {pairs : List (String × α)} {key : String} {value : α}

theorem getElem?_iff_of_perm (listed : entries.toList.Perm pairs) :
    entries[key]? = some value ↔ (key, value) ∈ pairs := by
  rw [← Std.TreeMap.mem_toList_iff_getElem?_eq_some, listed.mem_iff]

theorem mem_iff_of_perm (listed : entries.toList.Perm pairs) :
    key ∈ entries ↔ key ∈ pairs.map Prod.fst := by
  rw [← Std.TreeMap.mem_keys, ← Std.TreeMap.map_fst_toList_eq_keys, (listed.map Prod.fst).mem_iff]

theorem size_of_perm (listed : entries.toList.Perm pairs) : entries.size = pairs.length := by
  rw [← Std.TreeMap.length_toList, listed.length_eq]

theorem values_perm (listed : entries.toList.Perm pairs) :
    entries.values.Perm (pairs.map Prod.snd) := by
  rw [values_eq]
  exact listed.map Prod.snd

theorem insert_perm (listed : entries.toList.Perm pairs) (new : key ∉ pairs.map Prod.fst)
    (value : α) : (entries.insert key value).toList.Perm (pairs ++ [(key, value)]) :=
  (toList_insert_perm (mt (mem_iff_of_perm listed).mp new)).trans
    ((listed.cons (key, value)).trans (List.perm_append_singleton (key, value) pairs).symm)

theorem foldl_insert_perm {ι : Type} (keyOf : ι → String) (valueOf : ι → α) (items : List ι)
    (listed : entries.toList.Perm pairs)
    (distinct : (pairs.map Prod.fst ++ items.map keyOf).Nodup) :
    (items.foldl (fun entries item => entries.insert (keyOf item) (valueOf item))
      entries).toList.Perm (pairs ++ items.map fun item => (keyOf item, valueOf item)) := by
  induction items generalizing entries pairs with
  | nil => simpa using listed
  | cons item items ih =>
    have new : keyOf item ∉ pairs.map Prod.fst := fun old =>
      (List.nodup_append.mp distinct).2.2 _ old _ List.mem_cons_self rfl
    have further := ih (insert_perm listed new (valueOf item)) (by simpa using distinct)
    simpa using further

end Listed

section OfList

variable {pairs : List (String × α)}

theorem pairwise_of_nodup (distinct : (pairs.map Prod.fst).Nodup) :
    pairs.Pairwise fun a b => ¬ compare a.1 b.1 = .eq := by
  refine (List.pairwise_map.mp distinct).imp fun differ same => differ ?_
  exact Std.compare_eq_iff_eq.mp same

theorem getElem?_ofList_iff (distinct : (pairs.map Prod.fst).Nodup) {key : String} {value : α} :
    (Std.TreeMap.ofList pairs)[key]? = some value ↔ (key, value) ∈ pairs := by
  have apart := pairwise_of_nodup distinct
  constructor
  · intro found
    have present : key ∈ pairs.map Prod.fst := by
      by_contra absent
      rw [Std.TreeMap.getElem?_ofList_of_contains_eq_false (by simpa using absent)] at found
      cases found
    obtain ⟨⟨key', value'⟩, member, rfl⟩ := List.mem_map.mp present
    rw [Std.TreeMap.getElem?_ofList_of_mem Std.ReflCmp.compare_self apart member] at found
    cases found
    exact member
  · intro member
    exact Std.TreeMap.getElem?_ofList_of_mem Std.ReflCmp.compare_self apart member

theorem size_ofList (distinct : (pairs.map Prod.fst).Nodup) :
    (Std.TreeMap.ofList pairs).size = pairs.length :=
  Std.TreeMap.size_ofList (pairwise_of_nodup distinct)

theorem lookup_eq_some_iff_mem (distinct : (pairs.map Prod.fst).Nodup) {key : String} {value : α} :
    pairs.lookup key = some value ↔ (key, value) ∈ pairs := by
  induction pairs with
  | nil => simp
  | cons pair rest ih =>
    obtain ⟨first, held⟩ := pair
    rw [List.map_cons, List.nodup_cons] at distinct
    rw [List.lookup_cons, List.mem_cons]
    by_cases same : key = first
    · subst same
      have absent : (key, value) ∉ rest := fun member =>
        distinct.1 (List.mem_map.mpr ⟨_, member, rfl⟩)
      simp [absent, eq_comm]
    · have other : (key == first) = false := by simpa using same
      rw [other, ih distinct.2]
      simp [same]

end OfList

end ColorTokens.Keyed
