import ColorTokens.Tokenization
import ColorTokens.Proofs.Occurrence.Scan
import ColorTokens.Proofs.Splice
import ColorTokens.Proofs.Token.Assignment
import Mathlib.Data.List.Forall2

/-! What a run does to its files. The occurrences of a file are apart, so every one of them is
replaced; a literal never begins as a reference does, so a file with an occurrence changes. -/

set_option autoImplicit false

namespace ColorTokens

open ColorTokens.Text
open ColorTokens.Source

section Traversal

variable {ε α β : Type}

theorem bind_eq_ok_iff {first : Except ε α} {next : α → Except ε β} {result : β} :
    first >>= next = .ok result ↔ ∃ value, first = .ok value ∧ next value = .ok result := by
  cases first <;> simp [bind, Except.bind]

theorem mapM_eq_ok_iff {f : α → Except ε β} {items : List α} {results : List β} :
    items.mapM f = .ok results ↔ List.Forall₂ (fun item result => f item = .ok result) items results := by
  induction items generalizing results with
  | nil => cases results <;> simp [pure, Except.pure]
  | cons item rest ih =>
    rw [List.mapM_cons, bind_eq_ok_iff]
    simp only [bind_eq_ok_iff, ih, pure, Except.pure, Except.ok.injEq]
    constructor
    · rintro ⟨result, first, others, related, rfl⟩
      exact .cons first related
    · rintro (_ | ⟨first, related⟩)
      exact ⟨_, first, _, related, rfl⟩

theorem exists_forall₂ {r : α → β → Prop} {items : List α}
    (each : ∀ item ∈ items, ∃ result, r item result) : ∃ results, List.Forall₂ r items results := by
  induction items with
  | nil => exact ⟨[], .nil⟩
  | cons item rest ih =>
    obtain ⟨result, first⟩ := each item (List.mem_cons_self ..)
    obtain ⟨results, others⟩ := ih fun other member => each other (List.mem_cons_of_mem _ member)
    exact ⟨result :: results, .cons first others⟩

end Traversal

section Substitution

variable {tokens : Std.TreeMap String String} {text : String} {hits : List Hit}

def Refers (tokens : Std.TreeMap String String) (hit : Hit) (replacement : Replacement) : Prop :=
  replacement.span = hit.span ∧
    ∃ identifier, tokens[hit.color]? = some identifier ∧
      replacement.text = Naming.reference identifier

/-- A text before and after each hit gives way to a reference to its token, all else kept. -/
def Substitutes (tokens : Std.TreeMap String String) (hits : List Hit)
    (before after : List Char) : Prop :=
  ∃ replacements, List.Forall₂ (Refers tokens) hits replacements ∧
    Replaces 0 replacements before after

theorem replacementFor_eq_ok_iff {hit : Hit} {replacement : Replacement} :
    replacementFor tokens hit = .ok replacement ↔ Refers tokens hit replacement := by
  obtain ⟨span, written⟩ := replacement
  unfold replacementFor Refers
  rw [Std.TreeMap.get?_eq_getElem?]
  cases tokens[hit.color]? with
  | none => simp
  | some identifier => simp [eq_comm]

def referenceTo (tokens : Std.TreeMap String String) (hit : Hit) : Replacement :=
  ⟨hit.span, Naming.reference (tokens[hit.color]?.getD "")⟩

theorem eq_referenceTo_of_refers {replacements : List Replacement}
    (refers : List.Forall₂ (Refers tokens) hits replacements) :
    replacements = hits.map (referenceTo tokens) ∧
      ∀ hit ∈ hits, ∃ identifier, tokens[hit.color]? = some identifier := by
  induction refers with
  | nil => exact ⟨rfl, by simp⟩
  | @cons hit replacement _ _ first _ ih =>
    obtain ⟨span, identifier, token, written⟩ := first
    refine ⟨?_, List.forall_mem_cons.mpr ⟨⟨identifier, token⟩, ih.2⟩⟩
    rw [List.map_cons, ← ih.1, referenceTo, token, Option.getD_some, ← span, ← written]

/-- Hits that stand in a text, keep apart and begin as literals do. -/
structure Placed (text : List Char) (hits : List Hit) : Prop where
  found : ∀ hit ∈ hits, hit.FoundIn text
  apart : hits.Pairwise fun first second => first.span.stop ≤ second.span.start
  starts : ∀ hit ∈ hits, ∃ c rest, hit.raw.toList = c :: rest ∧ c ∈ Color.literalStarts

theorem placed_settle (rules : ScanRules) (kind : Kind) (text : List Char) :
    Placed text (settle (rawHits rules kind text)) := by
  have settled : Settles (rawHits rules kind text) (settle (rawHits rules kind text)) :=
    settle_settles nonempty_of_mem_rawHits
  have source : ∀ hit ∈ settle (rawHits rules kind text), hit ∈ rawHits rules kind text :=
    fun hit member => List.mem_of_find?_eq_some (settled.earliest hit member)
  refine ⟨fun hit member => foundIn_of_mem_rawHits (source hit member),
    settled.apart.imp fun ordered => ordered.2, fun hit member => ?_⟩
  obtain ⟨segment, _, listed⟩ := List.mem_flatMap.mp (source hit member)
  exact Segment.head_of_mem_hits listed

theorem map_span_of_refers {replacements : List Replacement}
    (refers : List.Forall₂ (Refers tokens) hits replacements) :
    replacements.map (·.span) = hits.map (·.span) := by
  induction refers with
  | nil => rfl
  | cons first _ ih => rw [List.map_cons, List.map_cons, first.1, ih]

theorem Placed.exists_replaces (placed : Placed text.toList hits) {replacements : List Replacement}
    (refers : List.Forall₂ (Refers tokens) hits replacements) :
    ∃ after, Replaces 0 replacements text.toList after := by
  have spans := map_span_of_refers refers
  refine ColorTokens.exists_replaces (fun replacement member => ?_) ?_
  · have listed : replacement.span ∈ hits.map (·.span) := spans ▸ List.mem_map_of_mem member
    obtain ⟨hit, member, same⟩ := List.mem_map.mp listed
    have found := placed.found hit member
    refine ⟨hit.span.start, hit.raw.toList, found.stands, ?_⟩
    rw [← same, Nat.zero_add, ← found.stop_eq]
  · rw [← List.pairwise_map (f := Replacement.span) (R := fun a b => a.stop ≤ b.start), spans]
    exact List.pairwise_map.mpr placed.apart

theorem substitute_eq_ok_iff (placed : Placed text.toList hits) {after : String} :
    substitute text hits tokens = .ok after ↔ Substitutes tokens hits text.toList after.toList := by
  unfold substitute
  rw [bind_eq_ok_iff]
  simp only [mapM_eq_ok_iff, replacementFor_eq_ok_iff, pure, Except.pure, Except.ok.injEq]
  constructor
  · rintro ⟨replacements, refers, rfl⟩
    obtain ⟨after, replaces⟩ := placed.exists_replaces refers
    refine ⟨replacements, refers, ?_⟩
    rwa [replaces.splice_eq, String.toList_ofList]
  · rintro ⟨replacements, refers, replaces⟩
    refine ⟨replacements, refers, ?_⟩
    rw [replaces.splice_eq, String.ofList_toList]

theorem exists_substitute (placed : Placed text.toList hits)
    (covered : ∀ hit ∈ hits, ∃ identifier, tokens[hit.color]? = some identifier) :
    ∃ after, substitute text hits tokens = .ok after := by
  have each : ∀ hit ∈ hits, ∃ replacement, Refers tokens hit replacement := by
    intro hit member
    obtain ⟨identifier, token⟩ := covered hit member
    exact ⟨⟨hit.span, _⟩, rfl, identifier, token, rfl⟩
  obtain ⟨replacements, refers⟩ := exists_forall₂ each
  obtain ⟨after, replaces⟩ := placed.exists_replaces refers
  refine ⟨String.ofList after, (substitute_eq_ok_iff placed).mpr ⟨replacements, refers, ?_⟩⟩
  rwa [String.toList_ofList]

/-- A text changes exactly when it has a hit. -/
theorem Substitutes.eq_iff {before after : List Char} (placed : Placed before hits)
    (substitutes : Substitutes tokens hits before after) : after = before ↔ hits = [] := by
  obtain ⟨replacements, refers, replaces⟩ := substitutes
  constructor
  · intro same
    cases refers with
    | nil => rfl
    | @cons hit replacement _ _ first _ =>
      obtain ⟨span, identifier, _, written⟩ := first
      obtain ⟨c, more, head, literal⟩ := placed.starts hit (List.mem_cons_self ..)
      obtain ⟨before', after', whole, length⟩ := (placed.found hit (List.mem_cons_self ..)).stands
      cases replaces with
      | @next _ _ _ gap old rest after starts stops others =>
        -- The hit and its replacement begin behind the same gap, and with different characters.
        rw [Nat.zero_add, span] at starts
        obtain ⟨_, literalSide⟩ := append_inj_of_byteLength whole (by omega)
        have referenceSide := List.append_cancel_left same
        rw [literalSide, head, written, Naming.reference, String.toList_append,
          String.toList_append] at referenceSide
        have letter : 'v' = c := (List.cons.inj referenceSide).1
        subst letter
        exact absurd literal (by decide)
  · rintro rfl
    cases refers
    cases replaces
    rfl

end Substitution

structure ScannedFile.Sound (file : ScannedFile) : Prop where
  placed : Placed file.text.toList (file.occurrences.map (·.toHit))
  own : ∀ occurrence ∈ file.occurrences, occurrence.file = file.path

namespace Outcome

def occurrencesIn (outcome : Outcome) (path : String) : List Occurrence :=
  outcome.occurrences.filter (·.file = path)

def rewritten (outcome : Outcome) (file : SourceFile) : SourceFile :=
  match outcome.changed[file.path]? with
  | some change => { file with text := change.after }
  | none => file

@[simp] theorem rewritten_path (outcome : Outcome) (file : SourceFile) :
    (outcome.rewritten file).path = file.path := by
  unfold rewritten
  split <;> rfl

@[simp] theorem rewritten_kind (outcome : Outcome) (file : SourceFile) :
    (outcome.rewritten file).kind = file.kind := by
  unfold rewritten
  split <;> rfl

section CountRuns

theorem countRuns_replicate_append {path : String} {paths : List String} (count : Nat)
    (differ : path ∉ paths) :
    countRuns (List.replicate (count + 1) path ++ paths) = 1 + countRuns paths := by
  induction count with
  | zero =>
    cases paths with
    | nil => rfl
    | cons next paths =>
      have different : path ≠ next := fun same => differ (same ▸ List.mem_cons_self ..)
      simp [countRuns, different]
  | succ count ih =>
    rw [List.replicate_succ, List.replicate_succ, List.cons_append, List.cons_append, countRuns]
    rw [← List.cons_append, ← List.replicate_succ, ih]
    simp

/-- Occurrences grouped by file are counted once a file. -/
theorem countRuns_flatMap {files : List ScannedFile} (distinct : (files.map (·.path)).Nodup)
    (sound : ∀ file ∈ files, file.Sound) :
    countRuns ((files.flatMap (·.occurrences)).map (·.file)) =
      files.countP (!·.occurrences.isEmpty) := by
  induction files with
  | nil => rfl
  | cons file rest ih =>
    obtain ⟨new, others⟩ := List.nodup_cons.mp distinct
    have counted := ih others fun other member => sound other (List.mem_cons_of_mem _ member)
    have alike : file.occurrences.map (·.file) =
        List.replicate file.occurrences.length file.path := by
      refine List.eq_replicate_iff.mpr ⟨List.length_map .., fun path member => ?_⟩
      obtain ⟨occurrence, listed, rfl⟩ := List.mem_map.mp member
      exact (sound file (List.mem_cons_self ..)).own occurrence listed
    have absent : file.path ∉ (rest.flatMap (·.occurrences)).map (·.file) := by
      intro member
      obtain ⟨occurrence, listed, same⟩ := List.mem_map.mp member
      obtain ⟨other, member, listed⟩ := List.mem_flatMap.mp listed
      rw [(sound other (List.mem_cons_of_mem _ member)).own occurrence listed] at same
      exact new (List.mem_map.mpr ⟨other, member, same⟩)
    rw [List.flatMap_cons, List.map_append, alike, List.countP_cons]
    cases empty : file.occurrences with
    | nil => simpa using counted
    | cons first more =>
      rw [List.length_cons, countRuns_replicate_append _ absent, counted]
      simp [Nat.add_comm]

end CountRuns

end Outcome

namespace Tokenizer

def standard : Tokenizer where
  rules := ScanRules.standard
  naming := Naming.standard

section Arrange

def arrangeOne (arranged : Std.TreeMap String ScannedFile) (file : ScannedFile) :
    Except RunError (Std.TreeMap String ScannedFile) :=
  if arranged.contains file.path then .error (.duplicatePath file.path)
  else .ok (arranged.insert file.path file)

theorem arrange_eq_foldlM (scanned : List ScannedFile) :
    arrange scanned = scanned.foldlM arrangeOne ∅ := rfl

theorem foldlM_arrangeOne_perm {scanned : List ScannedFile}
    {start arranged : Std.TreeMap String ScannedFile}
    (done : scanned.foldlM arrangeOne start = .ok arranged) :
    arranged.toList.Perm (start.toList ++ scanned.map fun file => (file.path, file)) := by
  induction scanned generalizing start with
  | nil =>
    cases done
    simp
  | cons file rest ih =>
    rw [List.foldlM_cons, bind_eq_ok_iff] at done
    obtain ⟨next, step, done⟩ := done
    unfold arrangeOne at step
    split at step
    · cases step
    · next new =>
      cases step
      rw [Std.TreeMap.contains_iff_mem] at new
      refine (ih done).trans ?_
      rw [List.map_cons]
      exact ((Keyed.toList_insert_perm new).append_right _).trans List.perm_middle.symm

theorem exists_foldlM_arrangeOne {scanned : List ScannedFile}
    (start : Std.TreeMap String ScannedFile) (new : ∀ file ∈ scanned, file.path ∉ start)
    (distinct : (scanned.map (·.path)).Nodup) :
    ∃ arranged, scanned.foldlM arrangeOne start = .ok arranged := by
  induction scanned generalizing start with
  | nil => exact ⟨start, rfl⟩
  | cons file rest ih =>
    obtain ⟨differ, others⟩ := List.nodup_cons.mp distinct
    have absent : ¬ start.contains file.path = true := by
      rw [Std.TreeMap.contains_iff_mem]
      exact new file (List.mem_cons_self ..)
    have step : arrangeOne start file = .ok (start.insert file.path file) := if_neg absent
    rw [List.foldlM_cons, step]
    refine ih _ (fun other member => ?_) others
    rw [Std.TreeMap.mem_insert, Std.compare_eq_iff_eq, not_or]
    refine ⟨fun same => differ ?_, new other (List.mem_cons_of_mem _ member)⟩
    exact List.mem_map.mpr ⟨other, member, same.symm⟩

variable {scanned : List ScannedFile} {arranged : Std.TreeMap String ScannedFile}

theorem arrange_perm (done : arrange scanned = .ok arranged) :
    arranged.toList.Perm (scanned.map fun file => (file.path, file)) := by
  rw [arrange_eq_foldlM] at done
  exact foldlM_arrangeOne_perm done

theorem arrange_values_perm (done : arrange scanned = .ok arranged) :
    arranged.values.Perm scanned := by
  have perm := (arrange_perm done).map Prod.snd
  rwa [← Keyed.values_eq, List.map_map, Function.comp_def, List.map_id'] at perm

theorem nodup_paths_of_arrange (done : arrange scanned = .ok arranged) :
    (scanned.map (·.path)).Nodup := by
  have perm := (arrange_perm done).map Prod.fst
  rw [List.map_map] at perm
  exact perm.nodup_iff.mp (Keyed.nodup_keys_toList arranged)

theorem exists_arrange (distinct : (scanned.map (·.path)).Nodup) :
    ∃ arranged, arrange scanned = .ok arranged :=
  exists_foldlM_arrangeOne ∅ (by simp) distinct

end Arrange

section Finish

variable {tokenizer : Tokenizer} {scanned : List ScannedFile} {sheet : TokenSheet}
  {outcome : Outcome}

theorem finish_eq_ok_iff :
    tokenizer.finish scanned sheet = .ok outcome ↔
      ∃ arranged assignment changes, arrange scanned = .ok arranged ∧
        Assignment.assign? ((arranged.values.flatMap (·.occurrences)).map (·.color)) sheet.index
          sheet.reserved tokenizer.naming = some assignment ∧
        assignment.verify sheet.reserved = .ok () ∧
        List.Forall₂ (fun file change => change? assignment.tokens file = .ok change)
          arranged.values changes ∧
        outcome =
          { filesScanned := arranged.values.length
            occurrences := arranged.values.flatMap (·.occurrences)
            assignment
            changed := Std.TreeMap.ofList (changes.filterMap id) } := by
  unfold finish
  rw [bind_eq_ok_iff]
  constructor
  · rintro ⟨arranged, done, rest⟩
    simp only at rest
    split at rest
    · next assignment assigned =>
      rw [bind_eq_ok_iff] at rest
      obtain ⟨_, verified, rest⟩ := rest
      rw [bind_eq_ok_iff] at rest
      obtain ⟨changes, made, rest⟩ := rest
      cases rest
      refine ⟨arranged, assignment, changes, done, assigned, ?_, mapM_eq_ok_iff.mp made, rfl⟩
      cases checked : assignment.verify sheet.reserved with
      | ok value => rfl
      | error error => rw [checked] at verified; cases verified
    · cases rest
  · rintro ⟨arranged, assignment, changes, done, assigned, verified, made, rfl⟩
    refine ⟨arranged, done, ?_⟩
    simp only [assigned, verified, mapM_eq_ok_iff.mpr made, bind, Except.bind, Except.mapError,
      pure, Except.pure]

end Finish

section Changes

variable {tokens : Std.TreeMap String String} {files : List ScannedFile}

theorem map_path_scanFile (tokenizer : Tokenizer) (files : List SourceFile) :
    (files.map tokenizer.scanFile).map (·.path) = files.map (·.path) := by
  simp [scanFile]

theorem sound_scanFile (tokenizer : Tokenizer) (file : SourceFile) :
    (tokenizer.scanFile file).Sound := by
  refine ⟨?_, fun occurrence member => ?_⟩
  · simp only [scanFile, map_toHit_scan]
    exact placed_settle ..
  · obtain ⟨hit, _, rfl⟩ := List.mem_map.mp member
    rfl

theorem change?_eq_ok {file : ScannedFile} (sound : file.Sound)
    {change : Option (String × ChangedFile)} (made : change? tokens file = .ok change) :
    ∃ after : String,
      Substitutes tokens (file.occurrences.map (·.toHit)) file.text.toList after.toList ∧
      change = if file.occurrences.isEmpty then none else some (file.path, ⟨file.text, after⟩) := by
  unfold change? at made
  rw [bind_eq_ok_iff] at made
  obtain ⟨after, substituted, made⟩ := made
  cases made
  have substitutes := (substitute_eq_ok_iff sound.placed).mp substituted
  have same := substitutes.eq_iff sound.placed
  rw [String.toList_inj, List.map_eq_nil_iff] at same
  refine ⟨after, substitutes, ?_⟩
  simp only [beq_iff_eq, same, List.isEmpty_iff]

theorem exists_change? {file : ScannedFile} (sound : file.Sound)
    (covered : ∀ occurrence ∈ file.occurrences,
      ∃ identifier, tokens[occurrence.color]? = some identifier) :
    ∃ change, change? tokens file = .ok change := by
  have tokened : ∀ hit ∈ file.occurrences.map (·.toHit),
      ∃ identifier, tokens[hit.color]? = some identifier := by
    intro hit member
    obtain ⟨occurrence, listed, rfl⟩ := List.mem_map.mp member
    exact covered occurrence listed
  obtain ⟨after, substituted⟩ := exists_substitute sound.placed tokened
  unfold change?
  rw [substituted]
  exact ⟨_, rfl⟩

theorem map_fst_changes {changes : List (Option (String × ChangedFile))}
    (sound : ∀ file ∈ files, file.Sound)
    (made : List.Forall₂ (fun file change => change? tokens file = .ok change) files changes) :
    (changes.filterMap id).map Prod.fst =
      (files.filter (!·.occurrences.isEmpty)).map (·.path) := by
  induction made with
  | nil => rfl
  | @cons file change files changes first _ ih =>
    have others := ih fun other member => sound other (List.mem_cons_of_mem _ member)
    obtain ⟨after, _, rfl⟩ := change?_eq_ok (sound file (List.mem_cons_self ..)) first
    by_cases empty : file.occurrences.isEmpty = true
    · simpa [empty] using others
    · simpa [empty] using others

theorem nodup_changes {changes : List (Option (String × ChangedFile))}
    (sound : ∀ file ∈ files, file.Sound)
    (made : List.Forall₂ (fun file change => change? tokens file = .ok change) files changes)
    (distinct : (files.map (·.path)).Nodup) : ((changes.filterMap id).map Prod.fst).Nodup := by
  rw [map_fst_changes sound made]
  exact distinct.sublist (List.filter_sublist.map _)

theorem mem_changes {changes : List (Option (String × ChangedFile))}
    (sound : ∀ file ∈ files, file.Sound)
    (made : List.Forall₂ (fun file change => change? tokens file = .ok change) files changes)
    {file : ScannedFile} (member : file ∈ files) :
    ∃ after : String,
      Substitutes tokens (file.occurrences.map (·.toHit)) file.text.toList after.toList ∧
      (file.occurrences ≠ [] → (file.path, ⟨file.text, after⟩) ∈ changes.filterMap id) := by
  induction made with
  | nil => cases member
  | @cons first change files changes step _ ih =>
    rcases List.mem_cons.mp member with rfl | member
    · obtain ⟨after, substitutes, rfl⟩ := change?_eq_ok (sound file (List.mem_cons_self ..)) step
      refine ⟨after, substitutes, fun nonempty => ?_⟩
      simp [nonempty]
    · obtain ⟨after, substitutes, listed⟩ :=
        ih (fun other member => sound other (List.mem_cons_of_mem _ member)) member
      refine ⟨after, substitutes, fun nonempty => ?_⟩
      cases change with
      | none => exact listed nonempty
      | some entry => exact List.mem_cons_of_mem _ (listed nonempty)

theorem filter_occurrences_of_ne {file : ScannedFile} (sound : file.Sound) {path : String}
    (differ : file.path ≠ path) : file.occurrences.filter (·.file = path) = [] := by
  refine List.filter_eq_nil_iff.mpr fun occurrence member => ?_
  simpa [sound.own occurrence member] using differ

/-- Paths differ, so the occurrences with a file's path are those of that file. -/
theorem filter_flatMap_occurrences (sound : ∀ file ∈ files, file.Sound)
    (distinct : (files.map (·.path)).Nodup) {file : ScannedFile} (member : file ∈ files) :
    (files.flatMap (·.occurrences)).filter (·.file = file.path) = file.occurrences := by
  induction files with
  | nil => cases member
  | cons first rest ih =>
    obtain ⟨new, others⟩ := List.nodup_cons.mp distinct
    have soundRest : ∀ other ∈ rest, other.Sound :=
      fun other member => sound other (List.mem_cons_of_mem _ member)
    have soundFirst := sound first (List.mem_cons_self ..)
    rw [List.flatMap_cons, List.filter_append]
    rcases List.mem_cons.mp member with rfl | member
    · have own : file.occurrences.filter (·.file = file.path) = file.occurrences :=
        List.filter_eq_self.mpr fun occurrence listed => by simp [soundFirst.own occurrence listed]
      have foreign : (rest.flatMap (·.occurrences)).filter (·.file = file.path) = [] := by
        rw [List.filter_flatMap]
        refine List.flatMap_eq_nil_iff.mpr fun other member => ?_
        refine filter_occurrences_of_ne (soundRest other member) fun same => new ?_
        exact List.mem_map.mpr ⟨other, member, same⟩
      rw [own, foreign, List.append_nil]
    · have differ : first.path ≠ file.path := fun same =>
        new (List.mem_map.mpr ⟨file, member, same.symm⟩)
      rw [filter_occurrences_of_ne soundFirst differ, List.nil_append]
      exact ih soundRest others member

end Changes

section Run

variable {tokenizer : Tokenizer} {files : List SourceFile} {sheet : String} {outcome : Outcome}

theorem exists_of_run (ran : tokenizer.run files sheet = .ok outcome) :
    ∃ scanned changes, scanned.Perm (files.map tokenizer.scanFile) ∧
      (scanned.map (·.path)).Nodup ∧ (∀ file ∈ scanned, file.Sound) ∧
      List.Forall₂ (fun file change => change? outcome.assignment.tokens file = .ok change)
        scanned changes ∧
      outcome.occurrences = scanned.flatMap (·.occurrences) ∧
      outcome.changed = Std.TreeMap.ofList (changes.filterMap id) := by
  obtain ⟨arranged, assignment, changes, done, _, _, made, rfl⟩ := finish_eq_ok_iff.mp ran
  have perm := arrange_values_perm done
  refine ⟨arranged.values, changes, perm, ?_, fun file member => ?_, made, rfl, rfl⟩
  · exact (perm.map _).nodup_iff.mpr (nodup_paths_of_arrange done)
  · obtain ⟨source, _, rfl⟩ := List.mem_map.mp (perm.mem_iff.mp member)
    exact sound_scanFile tokenizer source

theorem assignment_of_run (ran : tokenizer.run files sheet = .ok outcome) :
    outcome.assignment = Assignment.assign (outcome.occurrences.map (·.color))
      (TokenSheet.ofText sheet).index (TokenSheet.ofText sheet).reserved tokenizer.naming := by
  obtain ⟨arranged, assignment, changes, _, assigned, _, _, rfl⟩ := finish_eq_ok_iff.mp ran
  unfold Assignment.assign? at assigned
  split at assigned
  · exact (Option.some.inj assigned).symm
  · cases assigned

theorem covers_of_run (ran : tokenizer.run files sheet = .ok outcome) :
    Assignment.Covers (TokenSheet.ofText sheet).index (TokenSheet.ofText sheet).reserved
      tokenizer.naming ((Assignment.ranked (outcome.occurrences.map (·.color))).map Prod.fst)
      outcome.assignment := by
  rw [assignment_of_run ran]
  exact Assignment.covers_assign ..

theorem minted_of_run (ran : tokenizer.run files sheet = .ok outcome) {identifier color : String}
    (minted : outcome.assignment.generated[identifier]? = some color) :
    identifier ∉ (TokenSheet.ofText sheet).reserved ∧
      ∃ n, identifier = tokenizer.naming.identifier n :=
  ((covers_of_run ran).declared identifier color minted).2.2.2

/-- Distinct paths and a naming that can be written are all a run needs. -/
theorem exists_run (distinct : (files.map (·.path)).Nodup)
    (writable : tokenizer.naming.isWritable) (sheet : String) :
    ∃ outcome, tokenizer.run files sheet = .ok outcome := by
  rw [← map_path_scanFile tokenizer] at distinct
  obtain ⟨arranged, done⟩ := exists_arrange distinct
  let sheet := TokenSheet.ofText sheet
  let colors := (arranged.values.flatMap (·.occurrences)).map (·.color)
  let assignment := Assignment.assign colors sheet.index sheet.reserved tokenizer.naming
  have changed : ∀ file ∈ arranged.values,
      ∃ change, change? assignment.tokens file = .ok change := by
    intro file member
    obtain ⟨source, _, rfl⟩ := List.mem_map.mp ((arrange_values_perm done).mem_iff.mp member)
    refine exists_change? (sound_scanFile tokenizer source) fun occurrence listed => ?_
    have color := List.mem_map_of_mem (f := fun occurrence : Occurrence => occurrence.color)
      (List.mem_flatMap.mpr ⟨_, member, listed⟩)
    exact Assignment.exists_token color ..
  obtain ⟨changes, made⟩ := exists_forall₂ changed
  exact ⟨_, finish_eq_ok_iff.mpr ⟨arranged, assignment, changes, done, by
    simp [Assignment.assign?, writable, assignment, colors, sheet],
    Assignment.verify_eq_ok (Assignment.covers_assign ..), made, rfl⟩⟩

theorem occurrencesIn_eq (ran : tokenizer.run files sheet = .ok outcome) {file : SourceFile}
    (member : file ∈ files) :
    outcome.occurrencesIn file.path = (tokenizer.scanFile file).occurrences := by
  obtain ⟨scanned, _, perm, distinct, sound, _, occurrences, _⟩ := exists_of_run ran
  rw [Outcome.occurrencesIn, occurrences]
  exact filter_flatMap_occurrences sound distinct (perm.mem_iff.mpr (List.mem_map_of_mem member))

theorem mem_changed_iff (ran : tokenizer.run files sheet = .ok outcome) {path : String} :
    path ∈ outcome.changed ↔
      ∃ file ∈ files, file.path = path ∧ outcome.occurrencesIn path ≠ [] := by
  obtain ⟨scanned, changes, perm, _, sound, made, _, changed⟩ := exists_of_run ran
  rw [changed, Std.TreeMap.mem_ofList, List.contains_iff_mem, map_fst_changes sound made]
  constructor
  · intro member
    obtain ⟨file, kept, rfl⟩ := List.mem_map.mp member
    obtain ⟨listed, nonempty⟩ := List.mem_filter.mp kept
    obtain ⟨source, input, rfl⟩ := List.mem_map.mp (perm.mem_iff.mp listed)
    have occurrences := occurrencesIn_eq ran input
    refine ⟨source, input, rfl, fun empty => ?_⟩
    rw [← occurrences] at nonempty
    simp only [scanFile] at empty
    simp [empty] at nonempty
  · rintro ⟨source, member, rfl, nonempty⟩
    rw [occurrencesIn_eq ran member] at nonempty
    refine List.mem_map.mpr ⟨tokenizer.scanFile source, List.mem_filter.mpr ⟨?_, ?_⟩, rfl⟩
    · exact perm.mem_iff.mpr (List.mem_map_of_mem member)
    · simpa using nonempty

theorem substitutes_rewritten (ran : tokenizer.run files sheet = .ok outcome) {file : SourceFile}
    (member : file ∈ files) :
    Substitutes outcome.assignment.tokens ((outcome.occurrencesIn file.path).map (·.toHit))
      file.text.toList (outcome.rewritten file).text.toList := by
  have changed_iff : file.path ∈ outcome.changed ↔ _ := mem_changed_iff ran
  have occurrences := occurrencesIn_eq ran member
  obtain ⟨scanned, changes, perm, distinct, sound, made, _, changed⟩ := exists_of_run ran
  have listed : tokenizer.scanFile file ∈ scanned := perm.mem_iff.mpr (List.mem_map_of_mem member)
  obtain ⟨after, substitutes, entry⟩ := mem_changes sound made listed
  have keys := nodup_changes sound made distinct
  rw [occurrences]
  unfold Outcome.rewritten
  by_cases empty : (tokenizer.scanFile file).occurrences = []
  · have unchanged : outcome.changed[file.path]? = none := by
      rw [← Option.not_isSome_iff_eq_none, ← Std.TreeMap.mem_iff_isSome_getElem?, changed_iff]
      rintro ⟨_, _, _, nonempty⟩
      exact nonempty (occurrences.trans empty)
    have same := (substitutes.eq_iff (sound _ listed).placed).mpr (by simp [empty])
    rw [unchanged]
    rwa [same] at substitutes
  · have found : outcome.changed[file.path]? = some ⟨file.text, after⟩ := by
      rw [changed, Keyed.getElem?_ofList_iff keys]
      exact entry empty
    rw [found]
    exact substitutes

theorem countP_occurrences (ran : tokenizer.run files sheet = .ok outcome)
    {scanned : List ScannedFile} (perm : scanned.Perm (files.map tokenizer.scanFile)) :
    scanned.countP (!·.occurrences.isEmpty) =
      files.countP fun file => outcome.occurrencesIn file.path ≠ [] := by
  rw [perm.countP_eq, List.countP_map]
  refine List.countP_congr fun file member => ?_
  simp [occurrencesIn_eq ran member]

theorem filesWithMatches_eq (ran : tokenizer.run files sheet = .ok outcome) :
    outcome.filesWithMatches =
      files.countP fun file => outcome.occurrencesIn file.path ≠ [] := by
  obtain ⟨scanned, _, perm, distinct, sound, _, occurrences, _⟩ := exists_of_run ran
  rw [Outcome.filesWithMatches, occurrences, Outcome.countRuns_flatMap distinct sound,
    countP_occurrences ran perm]

theorem size_changed (ran : tokenizer.run files sheet = .ok outcome) :
    outcome.changed.size = files.countP fun file => outcome.occurrencesIn file.path ≠ [] := by
  obtain ⟨scanned, changes, perm, distinct, sound, made, _, changed⟩ := exists_of_run ran
  rw [changed, Keyed.size_ofList (nodup_changes sound made distinct),
    ← List.length_map (f := Prod.fst), map_fst_changes sound made, List.length_map,
    ← List.countP_eq_length_filter, countP_occurrences ran perm]

/-- A run is explained by its occurrences: each of them is replaced by a reference to its colour's
token and nothing else changes, so the changed files are those that have an occurrence. -/
theorem run_explained_by_occurrences (ran : tokenizer.run files sheet = .ok outcome) :
    (∀ file ∈ files,
      outcome.occurrencesIn file.path = (tokenizer.scanFile file).occurrences ∧
      Substitutes outcome.assignment.tokens ((outcome.occurrencesIn file.path).map (·.toHit))
        file.text.toList (outcome.rewritten file).text.toList) ∧
    (∀ path, path ∈ outcome.changed ↔
      ∃ file ∈ files, file.path = path ∧ outcome.occurrencesIn path ≠ []) ∧
    outcome.filesWithMatches =
      (files.countP fun file => outcome.occurrencesIn file.path ≠ []) ∧
    outcome.changed.size = files.countP fun file => outcome.occurrencesIn file.path ≠ [] :=
  ⟨fun _ member => ⟨occurrencesIn_eq ran member, substitutes_rewritten ran member⟩,
    fun _ => mem_changed_iff ran, filesWithMatches_eq ran, size_changed ran⟩

/-- Three style modules out of order: one literal, none, and two of different colours. -/
def threeModules : List SourceFile :=
  [⟨"c.module.css", "c\x7bcolor:#fff;\x7d", .styleModule⟩,
    ⟨"b.module.css", "b\x7bcolor:red;\x7d", .styleModule⟩,
    ⟨"a.module.css", "a\x7bcolor:#fff;fill:#123456;\x7d", .styleModule⟩]

theorem run_explained_by_occurrences_three_files :
    ∃ outcome, standard.run threeModules "" = .ok outcome ∧
      threeModules.map (fun file => (outcome.occurrencesIn file.path).map (·.color)) =
        [["#ffffff"], [], ["#ffffff", "#123456"]] ∧
      outcome.filesWithMatches = 2 ∧ outcome.changed.size = 2 ∧
      "b.module.css" ∉ outcome.changed := by
  obtain ⟨outcome, ran⟩ : ∃ outcome, standard.run threeModules "" = .ok outcome :=
    exists_run (by decide) (by decide) ""
  obtain ⟨files, changed, filesWithMatches, size⟩ := run_explained_by_occurrences ran
  -- In a style module the hits lie apart already, so settling them changes nothing.
  have colors : ∀ file ∈ threeModules, (outcome.occurrencesIn file.path).map (·.color) =
      (rawHits standard.rules .styleModule file.text.toList).map (·.color) := by
    intro file member
    have kind : file.kind = .styleModule := by
      revert file
      decide
    rw [(files _ member).1, ← settle_rawHits_styleModule, ← map_toHit_scan standard.rules file.path,
      List.map_map, scanFile, kind]
    rfl
  have found : threeModules.map (fun file => (outcome.occurrencesIn file.path).map (·.color)) =
      [["#ffffff"], [], ["#ffffff", "#123456"]] := by
    rw [List.map_congr_left colors]
    decide +kernel
  have count : threeModules.countP (fun file => outcome.occurrencesIn file.path ≠ []) = 2 := calc
    _ = (threeModules.map fun file =>
          (outcome.occurrencesIn file.path).map (·.color)).countP (· ≠ []) := by
        rw [List.countP_map]
        exact List.countP_congr fun file _ => by simp
    _ = 2 := by
        rw [found]
        rfl
  refine ⟨outcome, ran, found, filesWithMatches.trans count, size.trans count, ?_⟩
  rw [changed]
  rintro ⟨file, -, -, nonempty⟩
  simp only [threeModules, List.map_cons, List.cons.injEq, List.map_eq_nil_iff] at found
  exact nonempty found.2.1

end Run

end Tokenizer

end ColorTokens
