import ColorTokens.Proofs.Occurrence.Hits
import ColorTokens.Proofs.Text.Bytes

/-! What a scan keeps. Settling sorts the hits and keeps those that start behind the last one kept,
so the kept ones are apart, each is the first found with its span, and each dropped one shares a
byte with a kept one that starts no later. A style module loses none. -/

set_option autoImplicit false

namespace ColorTokens

open ColorTokens.Text
open ColorTokens.Source

structure Settles (hits kept : List Hit) : Prop where
  apart : kept.Pairwise fun first second =>
    compare first.span second.span = .lt ∧ first.span.stop ≤ second.span.start
  earliest : ∀ hit ∈ kept, hits.find? (·.span = hit.span) = some hit
  covered : ∀ hit ∈ hits, hit.span ∉ kept.map (·.span) →
    ∃ other ∈ kept, other.span.intersects hit.span ∧ other.span.start ≤ hit.span.start

section KeepApart

/-- Hits that come in span order behind what was kept last, none of them empty. -/
structure Upcoming (kept : Option Span) (hits : List Hit) : Prop where
  sorted : hits.Pairwise fun first second => first.span.le second.span
  nonempty : ∀ hit ∈ hits, hit.span.start < hit.span.stop
  behind : ∀ span ∈ kept, ∀ hit ∈ hits, span.start ≤ hit.span.start

variable {kept : Option Span} {hit : Hit} {rest : List Hit}

theorem Upcoming.skip (upcoming : Upcoming kept (hit :: rest)) : Upcoming kept rest where
  sorted := upcoming.sorted.of_cons
  nonempty := fun other member => upcoming.nonempty other (List.mem_cons_of_mem _ member)
  behind := fun span last other member =>
    upcoming.behind span last other (List.mem_cons_of_mem _ member)

theorem Upcoming.keep (upcoming : Upcoming kept (hit :: rest)) :
    Upcoming (some hit.span) rest where
  sorted := upcoming.sorted.of_cons
  nonempty := fun other member => upcoming.nonempty other (List.mem_cons_of_mem _ member)
  behind := by
    rintro span ⟨⟩ other member
    have ordered := Span.le_iff.mp ((List.pairwise_cons.mp upcoming.sorted).1 other member)
    omega

theorem stop_le_of_mem_keepApart {hits : List Hit} (upcoming : Upcoming kept hits) :
    ∀ span ∈ kept, ∀ other ∈ keepApart kept hits, span.stop ≤ other.span.start := by
  induction hits generalizing kept with
  | nil => intro span _ other member; cases member
  | cons hit rest ih =>
    intro span last other member
    simp only [keepApart] at member
    split at member
    · exact ih upcoming.skip span last other member
    · next clear =>
      have behind := upcoming.behind span last hit (List.mem_cons_self ..)
      have filled := upcoming.nonempty hit (List.mem_cons_self ..)
      have stop : span.stop ≤ hit.span.start := by
        have disjoint : ¬ span.intersects hit.span := by
          cases last
          simpa using clear
        rw [Span.intersects_iff] at disjoint
        omega
      rcases List.mem_cons.mp member with rfl | member
      · exact stop
      · have later := ih upcoming.keep hit.span rfl other member
        omega

theorem keepApart_apart {hits : List Hit} (upcoming : Upcoming kept hits) :
    (keepApart kept hits).Pairwise fun first second =>
      compare first.span second.span = .lt ∧ first.span.stop ≤ second.span.start := by
  induction hits generalizing kept with
  | nil => exact .nil
  | cons hit rest ih =>
    simp only [keepApart]
    split
    · exact ih upcoming.skip
    · refine List.pairwise_cons.mpr ⟨fun other member => ?_, ih upcoming.keep⟩
      have stop := stop_le_of_mem_keepApart upcoming.keep hit.span rfl other member
      have filled := upcoming.nonempty hit (List.mem_cons_self ..)
      exact ⟨Span.compare_eq_lt_iff.mpr (by omega), stop⟩

theorem find?_of_mem_keepApart {hits : List Hit} (upcoming : Upcoming kept hits) :
    ∀ other ∈ keepApart kept hits, hits.find? (·.span = other.span) = some other := by
  induction hits generalizing kept with
  | nil => intro other member; cases member
  | cons hit rest ih =>
    intro other member
    simp only [keepApart] at member
    split at member
    · next shared =>
      obtain ⟨span, rfl, shared⟩ := (Option.any_eq_true ..).mp shared
      have stop := stop_le_of_mem_keepApart upcoming.skip span rfl other member
      have earlier := (Span.intersects_iff.mp shared).2
      have differ : hit.span ≠ other.span := by rintro same; rw [same] at earlier; omega
      simpa [differ] using ih upcoming.skip other member
    · rcases List.mem_cons.mp member with rfl | member
      · simp
      · have stop := stop_le_of_mem_keepApart upcoming.keep hit.span rfl other member
        have filled := upcoming.nonempty hit (List.mem_cons_self ..)
        have differ : hit.span ≠ other.span := by rintro same; rw [same] at filled stop; omega
        simpa [differ] using ih upcoming.keep other member

/-- A hit is kept, or what was kept last before it shares a byte with it. -/
theorem mem_keepApart_or_covered {hits : List Hit} (upcoming : Upcoming kept hits) :
    ∀ hit ∈ hits, hit ∈ keepApart kept hits ∨
      ∃ span, (span ∈ kept ∨ span ∈ (keepApart kept hits).map (·.span)) ∧
        span.intersects hit.span ∧ span.start ≤ hit.span.start := by
  induction hits generalizing kept with
  | nil => intro hit member; cases member
  | cons first rest ih =>
    intro hit member
    simp only [keepApart]
    split
    · next shared =>
      rcases List.mem_cons.mp member with rfl | member
      · obtain ⟨span, rfl, shared⟩ := (Option.any_eq_true ..).mp shared
        exact .inr ⟨span, .inl rfl, shared, upcoming.behind span rfl hit (List.mem_cons_self ..)⟩
      · exact ih upcoming.skip hit member
    · rcases List.mem_cons.mp member with rfl | member
      · exact .inl (List.mem_cons_self ..)
      · rcases ih upcoming.keep hit member with kept' | ⟨span, source, shared⟩
        · exact .inl (List.mem_cons_of_mem _ kept')
        · refine .inr ⟨span, .inr ?_, shared⟩
          rcases source with same | listed
          · cases same
            exact List.mem_map_of_mem (List.mem_cons_self ..)
          · exact List.mem_cons_of_mem _ listed

theorem keepApart_of_apart {hits : List Hit}
    (apart : hits.Pairwise fun first second => first.span.stop ≤ second.span.start)
    (behind : ∀ span ∈ kept, ∀ hit ∈ hits, span.stop ≤ hit.span.start) :
    keepApart kept hits = hits := by
  induction hits generalizing kept with
  | nil => rfl
  | cons hit rest ih =>
    obtain ⟨later, apart⟩ := List.pairwise_cons.mp apart
    have clear : ¬ kept.any (·.intersects hit.span) := by
      rw [Option.any_eq_true]
      rintro ⟨span, last, shared⟩
      have stop := behind span last hit (List.mem_cons_self ..)
      have earlier := (Span.intersects_iff.mp shared).2
      omega
    rw [keepApart, if_neg clear, ih apart]
    rintro span same
    cases same
    exact later

end KeepApart

section Settle

variable {hits : List Hit}

theorem Hit.le_trans (a b c : Hit) (first : a.span.le b.span) (second : b.span.le c.span) :
    a.span.le c.span :=
  Span.le_trans first second

theorem Hit.le_total (a b : Hit) : a.span.le b.span || b.span.le a.span :=
  Span.le_total a.span b.span

theorem pairwise_mergeSort_span (hits : List Hit) :
    (hits.mergeSort fun a b => a.span.le b.span).Pairwise fun a b => a.span.le b.span :=
  List.pairwise_mergeSort Hit.le_trans Hit.le_total hits

/-- The sort is stable: hits of one span stay in the order they were found in. -/
theorem filter_mergeSort_span (span : Span) (hits : List Hit) :
    (hits.mergeSort fun a b => a.span.le b.span).filter (·.span = span) =
      hits.filter (·.span = span) := by
  have alike : (hits.filter (·.span = span)).Pairwise fun a b => a.span.le b.span := by
    refine List.pairwise_of_forall_mem_list fun a member b member' => ?_
    have same := (List.mem_filter.mp member).2
    have same' := (List.mem_filter.mp member').2
    simp only [decide_eq_true_eq] at same same'
    exact Span.le_iff.mpr (by rw [same, same']; omega)
  have kept := List.sublist_mergeSort Hit.le_trans Hit.le_total alike List.filter_sublist
  have within := kept.filter (·.span = span)
  rw [List.filter_filter] at within
  simp only [Bool.and_self] at within
  exact (within.eq_of_length (((List.mergeSort_perm hits _).filter _).length_eq.symm)).symm

theorem find?_mergeSort_span (span : Span) (hits : List Hit) :
    (hits.mergeSort fun a b => a.span.le b.span).find? (·.span = span) =
      hits.find? (·.span = span) := by
  rw [← List.head?_filter, filter_mergeSort_span, List.head?_filter]

theorem settle_settles (nonempty : ∀ hit ∈ hits, hit.span.start < hit.span.stop) :
    Settles hits (settle hits) := by
  have upcoming : Upcoming none (hits.mergeSort fun a b => a.span.le b.span) :=
    ⟨pairwise_mergeSort_span hits, fun hit member => nonempty hit (List.mem_mergeSort.mp member),
      fun _ last => nomatch last⟩
  refine ⟨keepApart_apart upcoming, fun hit member => ?_, fun hit member lost => ?_⟩
  · rw [← find?_mergeSort_span]
    exact find?_of_mem_keepApart upcoming hit member
  · rcases mem_keepApart_or_covered upcoming hit (List.mem_mergeSort.mpr member) with
      kept | ⟨span, source, shared⟩
    · exact absurd (List.mem_map_of_mem kept) lost
    · obtain ⟨other, listed, rfl⟩ := List.mem_map.mp (source.resolve_left (by simp))
      exact ⟨other, listed, shared⟩

theorem settle_of_apart (nonempty : ∀ hit ∈ hits, hit.span.start < hit.span.stop)
    (apart : hits.Pairwise fun first second => first.span.stop ≤ second.span.start) :
    settle hits = hits := by
  have sorted : hits.Pairwise fun a b => a.span.le b.span := by
    refine apart.imp_of_mem fun {first second} member _ ordered => Span.le_iff.mpr ?_
    have filled := nonempty first member
    omega
  rw [settle, List.mergeSort_of_pairwise sorted, keepApart_of_apart apart]
  exact fun _ last => nomatch last

end Settle

section Scan

variable {rules : ScanRules} {file : String} {kind : Kind} {text : String}

theorem nonempty_of_mem_rawHits {text : List Char} :
    ∀ hit ∈ rawHits rules kind text, hit.span.start < hit.span.stop :=
  fun _ member => (foundIn_of_mem_rawHits member).nonempty

@[simp] theorem map_toHit_scan (rules : ScanRules) (file : String) (kind : Kind) (text : String) :
    (scan rules file kind text).map (·.toHit) = settle (rawHits rules kind text.toList) := by
  rw [scan, List.map_map]
  exact List.map_id _

theorem toHit_mem_rawHits {occurrence : Occurrence}
    (member : occurrence ∈ scan rules file kind text) :
    occurrence.toHit ∈ rawHits rules kind text.toList := by
  have kept : occurrence.toHit ∈ settle (rawHits rules kind text.toList) := by
    rw [← map_toHit_scan rules file]
    exact List.mem_map_of_mem member
  have first := (settle_settles nonempty_of_mem_rawHits).earliest _ kept
  exact List.mem_of_find?_eq_some first

theorem settle_rawHits_styleModule (rules : ScanRules) (text : List Char) :
    settle (rawHits rules .styleModule text) = rawHits rules .styleModule text :=
  settle_of_apart nonempty_of_mem_rawHits (rawHits_styleModule_apart rules text)

theorem scan_styleModule_eq_nil_iff :
    scan rules file .styleModule text = [] ↔ rawHits rules .styleModule text.toList = [] := by
  rw [← settle_rawHits_styleModule, ← map_toHit_scan rules file, List.map_eq_nil_iff]

/-- Every occurrence is where it says it is, the occurrences answer for all the hits, and in a
style module they are all the hits. -/
theorem scan_settles_rawHits (rules : ScanRules) (file : String) (kind : Kind) (text : String) :
    (∀ occurrence ∈ scan rules file kind text,
      occurrence.file = file ∧ occurrence.toHit.FoundIn text.toList) ∧
    Settles (rawHits rules kind text.toList) ((scan rules file kind text).map (·.toHit)) ∧
    (kind = .styleModule →
      (scan rules file kind text).map (·.span) =
        (rawHits rules kind text.toList).map (·.span)) := by
  refine ⟨fun occurrence member => ⟨?_, foundIn_of_mem_rawHits (toHit_mem_rawHits member)⟩, ?_, ?_⟩
  · obtain ⟨hit, _, rfl⟩ := List.mem_map.mp member
    rfl
  · rw [map_toHit_scan]
    exact settle_settles nonempty_of_mem_rawHits
  · rintro rfl
    rw [← settle_rawHits_styleModule, ← map_toHit_scan rules file, List.map_map]
    rfl

end Scan

end ColorTokens
