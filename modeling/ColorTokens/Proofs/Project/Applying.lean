import ColorTokens.Proofs.Project.Writing

/-! What a run that rewrites sources leaves in the tree. A source is shown by its path below the
root and written back from there, so it is found again if nothing of the path is lost on the way;
the sheet comes behind the sources, and the palette last. -/

set_option autoImplicit false

namespace ColorTokens

/-- All that is relied on in a search: each path that it comes upon is its start with names joined
to it. -/
def Finder.SearchesBelow (finder : Finder) (tree : Tree) (start : String) : Prop :=
  ∀ path ∈ finder.search tree start,
    ∃ names : Location, names.isNamed = true ∧ path = names.foldl Path.join start

namespace Discovery

variable {tree : Tree} {paths : ProjectPaths} {settings : Settings} {root : String}
  {finder : Finder} {target other : Target}

theorem isNamed_of_mem_reachedBelow {start names : Location}
    (member : names ∈ reachedBelow tree start) : names.isNamed = true := by
  obtain ⟨⟨location, entry⟩, listed, kept⟩ := List.mem_filterMap.mp member
  rw [Option.ite_none_right_eq_some, Option.some.injEq] at kept
  have stored : location ∈ tree.entries := by
    rw [Std.TreeMap.mem_iff_isSome_getElem?,
      Std.TreeMap.mem_toList_iff_getElem?_eq_some.mp listed]
    rfl
  have proper := List.all_eq_true.mp (tree.named location stored)
  rw [← kept.2]
  exact List.all_eq_true.mpr fun name held => proper name (List.mem_of_mem_drop held)

/-- The program's own search is such a one. -/
theorem standard_searchesBelow (tree : Tree) (start : String) :
    standard.SearchesBelow tree start := by
  intro path member
  change path ∈ reached tree start at member
  unfold reached at member
  split at member
  · split at member
    · rcases List.mem_cons.mp member with rfl | later
      · exact ⟨[], rfl, rfl⟩
      · obtain ⟨names, found, rfl⟩ := List.mem_map.mp later
        exact ⟨names, isNamed_of_mem_reachedBelow found, rfl⟩
    · cases member
  · rw [List.mem_singleton] at member
    exact ⟨[], rfl, member⟩
  · cases member

theorem of_mem_targets (member : target ∈ targets tree paths settings finder) :
    target.path ∈ finder.search tree paths.sourceRoot ∧
      target.relative = paths.relative target.path := by
  have allowed := List.mem_mergeSort.mp member
  obtain ⟨path, found, rfl⟩ := List.mem_map.mp (List.mem_filter.mp allowed).1
  exact ⟨(List.mem_filter.mp found).1, rfl⟩

section Project

variable (below : finder.SearchesBelow tree (ProjectPaths.resolve root settings).sourceRoot)

include below

/-- The path that a target is shown by leads back to it, unless a backslash in it was turned. -/
theorem destination_relative
    (member : target ∈ targets tree (ProjectPaths.resolve root settings) settings finder)
    (plain : '\\' ∉ ((Path.below? root target.path).getD target.path).toList) :
    tree.destination (Path.join root target.relative) = tree.destination target.path := by
  obtain ⟨found, shown⟩ := of_mem_targets member
  obtain ⟨names, -, path⟩ := below _ found
  have anchored : Path.Anchored root target.path := by
    rw [path]
    exact ((Path.anchored_self root).join settings.sourceRoot).foldl_join names
  have kept : target.relative = (Path.below? root target.path).getD target.path :=
    shown.trans (Path.forwardSlashes_eq plain)
  rw [kept]
  exact Path.destination_shown tree.workingDirectory anchored

/-- No two targets are one file. -/
theorem eq_of_destination
    (member : target ∈ targets tree (ProjectPaths.resolve root settings) settings finder)
    (member' : other ∈ targets tree (ProjectPaths.resolve root settings) settings finder)
    (same : tree.destination other.path = tree.destination target.path) : other = target := by
  obtain ⟨found, shown⟩ := of_mem_targets member
  obtain ⟨found', shown'⟩ := of_mem_targets member'
  obtain ⟨names, proper, path⟩ := below _ found
  obtain ⟨names', proper', path'⟩ := below _ found'
  -- Names that are joined to the source root stay as they are, so the place tells them.
  rw [path, path', Tree.destination, Tree.destination,
    Path.destination_foldl_join _ (List.all_eq_true.mp proper),
    Path.destination_foldl_join _ (List.all_eq_true.mp proper'),
    List.append_cancel_left_eq] at same
  cases target
  cases other
  simp_all

end Project

end Discovery

namespace Project

section Applying

variable {batchSize : Nat} {tree after : Tree} {root : String} {settings : Settings}
  {finder : Finder} {sheet : String} {outcome : Outcome} {target : Target}

theorem mem_readSources_iff {targets : List Target} {file : SourceFile} :
    file ∈ readSources tree targets ↔ ∃ target ∈ targets, ∃ text,
      tree.text? target.path = some text ∧ file = SourceFile.ofPath target.relative text := by
  simp only [readSources, List.mem_filterMap, Option.map_eq_some_iff]
  constructor
  · rintro ⟨target, member, text, read, rfl⟩
    exact ⟨target, member, text, read, rfl⟩
  · rintro ⟨target, member, text, read, rfl⟩
    exact ⟨target, member, text, read, rfl⟩

theorem mem_changed_of_stored {path : String} {change : ChangedFile}
    (stored : outcome.changed[path]? = some change) : path ∈ outcome.changed := by
  rw [Std.TreeMap.mem_iff_isSome_getElem?, stored]
  rfl

/-- The targets that are rewritten are shown without a backslash, so that none is turned. -/
def Plain (tree : Tree) (root : String) (settings : Settings) (finder : Finder)
    (outcome : Outcome) : Prop :=
  ∀ target ∈ targetsIn tree root settings finder, target.relative ∈ outcome.changed →
    '\\' ∉ ((Path.below? root target.path).getD target.path).toList

/-- What leads to a place on the way of a run that rewrites sources, from the last write on. -/
theorem finalText?_planned (tree : Tree) (root : String) (settings : Settings) (sheet : String)
    (outcome : Outcome) (place : Location) :
    let paths := ProjectPaths.resolve root settings
    finalText? tree place (planned root settings .apply sheet outcome).writes =
      (finalText? tree place (paletteWrites paths settings.naming (outcome.updatedSheet sheet))).or
        ((finalText? tree place (sheetWrites paths sheet (outcome.updatedSheet sheet))).or
          ((finalText? tree place (changeWrites paths outcome)).or
            (finalText? tree place
              (reportWrites paths .apply
                (ColorMap.ofOutcome Mode.apply.name settings outcome) outcome ++
                previewWrites paths outcome)))) := by
  change finalText? tree place (_ ++ (_ ++ _ ++ _)) = _
  rw [finalText?_append, finalText?_append, finalText?_append, Option.or_assoc, Option.or_assoc]
  rfl

theorem finalText?_artifacts {place : Location} {map : ColorMap}
    (apart : Apart tree (artifactPaths (ProjectPaths.resolve root settings) .apply) place) :
    finalText? tree place (reportWrites (ProjectPaths.resolve root settings) .apply map outcome ++
      previewWrites (ProjectPaths.resolve root settings) outcome) = none :=
  finalText?_eq_none_iff.mpr apart

theorem finalText?_palette {place : Location} {updated : String}
    (apart : Apart tree (ProjectPaths.resolve root settings).paletteFile.toList place) :
    finalText? tree place
      (paletteWrites (ProjectPaths.resolve root settings) settings.naming updated) = none := by
  rw [finalText?_eq_none_iff, paletteWrites, List.map_map]
  exact (List.map_id _).symm ▸ apart

theorem finalText?_sheet_self {paths : ProjectPaths} {updated : String} :
    (finalText? tree (tree.destination paths.tokenFile) (sheetWrites paths sheet updated)).getD
      sheet = updated := by
  unfold sheetWrites
  split
  · next same => exact (beq_iff_eq.mp same).symm
  · simp [finalText?]

theorem finalText?_sheet_apart {paths : ProjectPaths} {place : Location} {updated : String}
    (apart : tree.destination paths.tokenFile ≠ place) :
    finalText? tree place (sheetWrites paths sheet updated) = none := by
  unfold sheetWrites
  split
  · rfl
  · simp [finalText?, apart]

/-- Nothing else that a run writes comes to lie over the sheet. -/
structure SheetFree (tree : Tree) (root : String) (settings : Settings) (finder : Finder)
    (sheet : String) (outcome : Outcome) : Prop where
  palette : Apart tree (ProjectPaths.resolve root settings).paletteFile.toList
    (tree.destination (ProjectPaths.resolve root settings).tokenFile)
  /-- The sheet itself is written behind the artifacts and the sources, if it is written. -/
  artifacts : outcome.updatedSheet sheet = sheet →
    Apart tree (artifactPaths (ProjectPaths.resolve root settings) .apply)
      (tree.destination (ProjectPaths.resolve root settings).tokenFile)
  sources : outcome.updatedSheet sheet = sheet → ∀ target ∈ targetsIn tree root settings finder,
    target.relative ∈ outcome.changed →
      tree.destination target.path ≠
        tree.destination (ProjectPaths.resolve root settings).tokenFile

structure TargetFree (tree : Tree) (root : String) (settings : Settings) (outcome : Outcome)
    (target : Target) : Prop where
  sheet : tree.destination (ProjectPaths.resolve root settings).tokenFile ≠
    tree.destination target.path
  palette : Apart tree (ProjectPaths.resolve root settings).paletteFile.toList
    (tree.destination target.path)
  /-- A target that is rewritten is written behind the artifacts. -/
  artifacts : target.relative ∉ outcome.changed →
    Apart tree (artifactPaths (ProjectPaths.resolve root settings) .apply)
      (tree.destination target.path)

section Rewriting

variable (below : finder.SearchesBelow tree (ProjectPaths.resolve root settings).sourceRoot)
  (plain : Plain tree root settings finder outcome)
  (ran : (tokenizerOf settings).run (readSources tree (targetsIn tree root settings finder))
    sheet = .ok outcome)

include below plain ran

theorem exists_of_mem_changeWrites {write : Write}
    (member : write ∈ changeWrites (ProjectPaths.resolve root settings) outcome) :
    ∃ target ∈ targetsIn tree root settings finder,
      tree.destination write.path = tree.destination target.path ∧
      ∃ change, outcome.changed[target.relative]? = some change ∧ write.text = change.after := by
  obtain ⟨⟨relative, change⟩, listed, rfl⟩ := List.mem_map.mp member
  have stored := Std.TreeMap.mem_toList_iff_getElem?_eq_some.mp listed
  have changed : relative ∈ outcome.changed := mem_changed_of_stored stored
  obtain ⟨file, scanned, rfl, -⟩ := (Tokenizer.mem_changed_iff ran).mp changed
  obtain ⟨target, found, text, -, rfl⟩ := mem_readSources_iff.mp scanned
  refine ⟨target, found, ?_, change, stored, rfl⟩
  exact Discovery.destination_relative below found (plain target found changed)

/-- The changes leave at a target its rewritten text, if it is rewritten at all. -/
theorem finalText?_changeWrites (member : target ∈ targetsIn tree root settings finder) :
    finalText? tree (tree.destination target.path)
        (changeWrites (ProjectPaths.resolve root settings) outcome) =
      outcome.changed[target.relative]?.map (·.after) := by
  cases final : finalText? tree (tree.destination target.path)
      (changeWrites (ProjectPaths.resolve root settings) outcome) with
  | some text =>
    obtain ⟨write, listed, leads, rfl⟩ := exists_of_finalText? final
    obtain ⟨other, found, place, change, stored, same⟩ :=
      exists_of_mem_changeWrites below plain ran listed
    -- Of the targets that are written only this one leads here.
    have own : other = target :=
      Discovery.eq_of_destination below member found (place.symm.trans leads)
    subst own
    rw [stored, same]
    rfl
  | none =>
    cases stored : outcome.changed[target.relative]? with
    | none => rfl
    | some change =>
      have listed : (target.relative, change) ∈ outcome.changed.toList :=
        Std.TreeMap.mem_toList_iff_getElem?_eq_some.mpr stored
      have changed : target.relative ∈ outcome.changed := mem_changed_of_stored stored
      have apart := finalText?_eq_none_iff.mp final (Path.join root target.relative)
        (List.mem_map.mpr ⟨_, List.mem_map_of_mem listed, rfl⟩)
      exact absurd (Discovery.destination_relative below member
        (plain target member changed)) apart

theorem text?_sheet_of_perform (ready : Ready tree root settings sheet)
    (done : perform tree (planned root settings .apply sheet outcome).writes = (after, .ok ()))
    (free : SheetFree tree root settings finder sheet outcome) :
    after.text? (ProjectPaths.resolve root settings).tokenFile =
      some (outcome.updatedSheet sheet) := by
  rw [text?_of_perform done ready.read, finalText?_planned, finalText?_palette free.palette,
    Option.none_or]
  -- A sheet that does not change is not written, so nothing hides what was written before.
  by_cases same : outcome.updatedSheet sheet = sheet
  · have unchanged : finalText? tree
        (tree.destination (ProjectPaths.resolve root settings).tokenFile)
        (changeWrites (ProjectPaths.resolve root settings) outcome) = none := by
      rw [finalText?_eq_none_iff]
      intro path listed leads
      obtain ⟨write, member, rfl⟩ := List.mem_map.mp listed
      obtain ⟨target, found, place, change, stored, -⟩ :=
        exists_of_mem_changeWrites below plain ran member
      have changed : target.relative ∈ outcome.changed := mem_changed_of_stored stored
      exact free.sources same target found changed (place.symm.trans leads)
    rw [unchanged, finalText?_artifacts (free.artifacts same), Option.or_none, Option.or_none,
      finalText?_sheet_self]
  · have written : finalText? tree
        (tree.destination (ProjectPaths.resolve root settings).tokenFile)
        (sheetWrites (ProjectPaths.resolve root settings) sheet (outcome.updatedSheet sheet)) =
          some (outcome.updatedSheet sheet) := by
      simp [sheetWrites, same, finalText?]
    rw [written, Option.some_or, Option.getD_some]

theorem text?_target_of_perform
    (done : perform tree (planned root settings .apply sheet outcome).writes = (after, .ok ()))
    (member : target ∈ targetsIn tree root settings finder)
    (free : TargetFree tree root settings outcome target) {text : String}
    (read : tree.text? target.path = some text) :
    after.text? target.path =
      some (outcome.rewritten (SourceFile.ofPath target.relative text)).text := by
  rw [text?_of_perform done read, finalText?_planned, finalText?_palette free.palette,
    Option.none_or, finalText?_sheet_apart free.sheet, Option.none_or,
    finalText?_changeWrites below plain ran member]
  unfold Outcome.rewritten
  cases stored : outcome.changed[target.relative]? with
  | some change => simp [SourceFile.ofPath, stored]
  | none =>
    have unchanged : target.relative ∉ outcome.changed := by
      rw [Std.TreeMap.mem_iff_isSome_getElem?, stored]
      simp
    rw [finalText?_artifacts (free.artifacts unchanged)]
    simp [SourceFile.ofPath, stored]

/-- The places that a run may write to are those of the artifacts, the palette, the sheet and the
targets. -/
theorem entry?_of_perform_apart
    (done : perform tree (planned root settings .apply sheet outcome).writes = (after, .ok ()))
    {location : Location} {content : Content}
    (there : tree.entry? location = some (.file content))
    (apart : Apart tree ((ProjectPaths.resolve root settings).tokenFile ::
      (artifactPaths (ProjectPaths.resolve root settings) .apply ++
        (ProjectPaths.resolve root settings).paletteFile.toList ++
        (targetsIn tree root settings finder).map (·.path))) location) :
    after.entry? location = some (.file content) := by
  have keeps := perform_keeps tree (planned root settings .apply sheet outcome).writes
  rw [done] at keeps
  refine keeps.file location (fun member => ?_) content there
  obtain ⟨write, listed, leads⟩ := List.mem_map.mp member
  change write ∈ (_ ++ _) ++ (_ ++ _ ++ _) at listed
  simp only [List.mem_append] at listed
  -- Whatever kind of write leads here, its path is one of those that do not.
  rcases listed with artifact | (change | sheet) | palette
  · refine apart write.path ?_ leads
    have path := List.mem_map_of_mem (f := Write.path) (List.mem_append.mpr artifact)
    rw [List.mem_cons, List.mem_append, List.mem_append]
    exact .inr (.inl (.inl path))
  · obtain ⟨target, found, place, -⟩ := exists_of_mem_changeWrites below plain ran change
    refine apart target.path ?_ (place.symm.trans leads)
    rw [List.mem_cons, List.mem_append]
    exact .inr (.inr (List.mem_map_of_mem found))
  · unfold sheetWrites at sheet
    split at sheet
    · cases sheet
    · rw [List.mem_singleton] at sheet
      subst sheet
      exact apart _ List.mem_cons_self leads
  · obtain ⟨path, named, rfl⟩ := List.mem_map.mp palette
    refine apart path ?_ leads
    rw [List.mem_cons, List.mem_append, List.mem_append]
    exact .inr (.inl (.inr named))

end Rewriting

def paintedTree : Tree :=
  (Tree.empty.add ["s", "t.css"] (.file (.text ":root \x7b\x7d"))).add
    ["s", "A.tsx"] (.file (.text "<a fill=\"#fff\"/>"))

/-- Settings whose sheet is itself among the sources. -/
def scannedSettings : Settings :=
  { smallSettings with tokenFile := "s/t.module.css" }

def scannedTree : Tree :=
  Tree.empty.add ["s", "t.module.css"] (.file (.text ":root \x7b --ink: #000; \x7d"))

def turnedTree : Tree :=
  (Tree.empty.add ["s", "t.css"] (.file (.text ":root \x7b\x7d"))).add
    ["s", "a\\b.tsx"] (.file (.text "<a fill=\"#fff\"/>"))

end Applying

end Project

end ColorTokens
