import ColorTokens.Proofs.Project.Reading
import ColorTokens.Proofs.Project.Tree

/-! What a run leaves in the tree. Files are written one after the other, so a file ends with the
text of the last write that leads to it. Reports, previews and the palette go to places of the
user's choice: where one of them is the place of the sheet or of a source, it is written there. -/

set_option autoImplicit false

namespace ColorTokens.Project

section Performing

variable {tree after : Tree} {place : Location} {writes : List Write}

/-- The text that writes leave at a place, that of the last one that leads there. -/
def finalText? (tree : Tree) (place : Location) : List Write → Option String
  | [] => none
  | write :: rest =>
    (finalText? tree place rest).or
      (if tree.destination write.path = place then some write.text else none)

def Apart (tree : Tree) (paths : List String) (place : Location) : Prop :=
  ∀ path ∈ paths, tree.destination path ≠ place

instance (tree : Tree) (paths : List String) (place : Location) :
    Decidable (Apart tree paths place) :=
  inferInstanceAs (Decidable (∀ path ∈ paths, tree.destination path ≠ place))

theorem finalText?_append (front back : List Write) :
    finalText? tree place (front ++ back) =
      (finalText? tree place back).or (finalText? tree place front) := by
  induction front with
  | nil => exact (Option.or_none).symm
  | cons write front ih => rw [List.cons_append, finalText?, finalText?, ih, Option.or_assoc]

theorem finalText?_eq_none_iff :
    finalText? tree place writes = none ↔ Apart tree (writes.map (·.path)) place := by
  induction writes with
  | nil => simp [finalText?, Apart]
  | cons write rest ih =>
    rw [finalText?, Option.or_eq_none_iff, ih]
    simp [Apart, and_comm]

theorem exists_of_finalText? {text : String} (final : finalText? tree place writes = some text) :
    ∃ write ∈ writes, tree.destination write.path = place ∧ write.text = text := by
  induction writes with
  | nil => cases final
  | cons write rest ih =>
    rw [finalText?, Option.or_eq_some_iff] at final
    rcases final with later | ⟨-, own⟩
    · obtain ⟨other, member, leads, same⟩ := ih later
      exact ⟨other, List.mem_cons_of_mem _ member, leads, same⟩
    · rw [Option.ite_none_right_eq_some, Option.some.injEq] at own
      exact ⟨write, List.mem_cons_self, own⟩

theorem finalText?_congr {tree' : Tree} (same : tree'.workingDirectory = tree.workingDirectory) :
    finalText? tree' place writes = finalText? tree place writes := by
  induction writes with
  | nil => rfl
  | cons write rest ih => rw [finalText?, finalText?, ih, Tree.destination, same, Tree.destination]

/-- Whatever becomes of them, writes change nothing but the places that they lead to. -/
theorem perform_keeps (tree : Tree) (writes : List Write) :
    Tree.Keeps (writes.map fun write => tree.destination write.path) tree
      (perform tree writes).1 := by
  induction writes generalizing tree with
  | nil => exact .refl _ tree
  | cons write rest ih =>
    have first := tree.writeText_keeps write.path write.text
    rw [perform]
    cases step : tree.writeText write.path write.text with
    | mk written result =>
      rw [step] at first
      cases result with
      | ok _ =>
        have others := ih written
        simp only [first.destination_eq] at others
        exact first.trans others
      | error error => exact first.trans (.refl _ written)

/-- Where writes lead they leave the text of the last of them. -/
theorem entry?_of_perform (done : perform tree writes = (after, .ok ())) {text : String}
    (final : finalText? tree place writes = some text) :
    after.entry? place = some (.file (.text text)) := by
  induction writes generalizing tree with
  | nil => cases final
  | cons write rest ih =>
    have first := tree.writeText_keeps write.path write.text
    rw [perform] at done
    cases step : tree.writeText write.path write.text with
    | mk written result =>
      rw [step] at first done
      cases result with
      | error error => cases done
      | ok _ =>
        simp only at done
        rw [finalText?, ← finalText?_congr first.workingDirectory, Option.or_eq_some_iff] at final
        rcases final with later | ⟨none, own⟩
        · exact ih done later
        · -- No later write leads here, so the text that was just written stays.
          rw [Option.ite_none_right_eq_some, Option.some.injEq] at own
          obtain ⟨rfl, rfl⟩ := own
          have others := perform_keeps written rest
          rw [done] at others
          refine others.file _ ?_ _ (Tree.entry?_of_writeText step)
          intro member
          obtain ⟨later, listed, leads⟩ := List.mem_map.mp member
          exact finalText?_eq_none_iff.mp none _ (List.mem_map_of_mem listed) leads

theorem content?_of_perform {path : String} {content : Content}
    (done : perform tree writes = (after, .ok ())) (read : tree.content? path = some content) :
    after.content? path =
      some (((finalText? tree (tree.destination path) writes).map Content.text).getD content) := by
  have keeps := perform_keeps tree writes
  rw [done] at keeps
  cases final : finalText? tree (tree.destination path) writes with
  | none =>
    refine keeps.content? read fun member => ?_
    obtain ⟨write, listed, leads⟩ := List.mem_map.mp member
    exact finalText?_eq_none_iff.mp final _ (List.mem_map_of_mem listed) leads
  | some text =>
    obtain ⟨located, named, -⟩ := Tree.content?_eq_some_iff.mp read
    rw [Tree.content?_eq_some_iff, keeps.destination_eq]
    exact ⟨keeps.locate? located, named, entry?_of_perform done final⟩

theorem text?_of_perform {path text : String} (done : perform tree writes = (after, .ok ()))
    (read : tree.text? path = some text) :
    after.text? path = some ((finalText? tree (tree.destination path) writes).getD text) := by
  obtain ⟨content, found, readable⟩ := Option.bind_eq_some_iff.mp read
  rw [Tree.text?, content?_of_perform done found]
  cases finalText? tree (tree.destination path) writes with
  | none => exact readable
  | some text => rfl

end Performing

section Previews

variable {batchSize : Nat} {tree after : Tree} {root : String} {settings : Settings} {mode : Mode}
  {finder : Finder}

/-- The paths of the reports and, in the modes that make them, of the previews. -/
def artifactPaths (paths : ProjectPaths) (mode : Mode) : List String :=
  [paths.reportJson, paths.reportMarkdown] ++
    if mode.writesPreview then [paths.reportPatch, paths.generatedFile] else []

theorem map_path_previews (paths : ProjectPaths) (mode : Mode) (map : ColorMap)
    (outcome : Outcome) :
    (reportWrites paths mode map outcome ++
        if mode.writesPreview then previewWrites paths outcome else []).map (·.path) =
      artifactPaths paths mode := by
  cases mode <;> rfl

theorem map_path_planned {sheet : String} {outcome : Outcome}
    (preview : mode.writesSources = false) :
    (planned root settings mode sheet outcome).writes.map (·.path) =
      artifactPaths (ProjectPaths.resolve root settings) mode := by
  rw [← map_path_previews _ mode (ColorMap.ofOutcome mode.name settings outcome) outcome]
  simp [planned, writes, preview]

/-- Runs that rewrite no sources touch only the artifacts. Whether it succeeds or not, such a run
leaves every file as it was that no artifact leads to, the sheet and the sources among them. If it
succeeds, a file stays as it was exactly when the last artifact that leads to it, if any does, has
the same text. -/
theorem preview_writes_artifacts_only (finder : Finder) (batchSize : Nat) (tree : Tree)
    (root : String) (settings : Settings) (mode : Mode) (valid : settings.flaw? = none)
    (preview : mode.writesSources = false) :
    (∀ path content, tree.content? path = some content →
      Apart tree (artifactPaths (ProjectPaths.resolve root settings) mode)
        (tree.destination path) →
      (execute batchSize tree root settings mode finder).1.content? path = some content) ∧
    (∀ after execution, execute batchSize tree root settings mode finder = (after, .ok execution) →
      ∃ made, plan batchSize tree root settings mode finder = .ok made ∧
        made.writes.map (·.path) =
          artifactPaths (ProjectPaths.resolve root settings) mode ∧
        ∀ path content, tree.content? path = some content →
          (after.content? path = some content ↔
            ∀ text, finalText? tree (tree.destination path) made.writes = some text →
              content = .text text)) := by
  have planning {made : Plan} (done : plan batchSize tree root settings mode finder = .ok made) :
      made.writes.map (·.path) = artifactPaths (ProjectPaths.resolve root settings) mode := by
    obtain ⟨sheet, outcome, -, -, -, rfl⟩ := exists_of_plan valid done
    exact map_path_planned preview
  -- Without a plan nothing is written; with one, what it lists are the artifacts.
  refine ⟨fun path content read apart => ?_, fun after execution done => ?_⟩
  · cases made : plan batchSize tree root settings mode finder with
    | error error =>
      rw [execute_of_plan_error made]
      exact read
    | ok made' =>
      rw [execute_of_plan made]
      refine (perform_keeps tree made'.writes).content? read fun member => ?_
      obtain ⟨write, listed, leads⟩ := List.mem_map.mp member
      refine apart write.path ?_ leads
      rw [← planning made]
      exact List.mem_map_of_mem listed
  · obtain ⟨made, planned, -, performed⟩ := exists_of_execute done
    refine ⟨made, planned, planning planned, fun path content read => ?_⟩
    rw [content?_of_perform performed read]
    cases finalText? tree (tree.destination path) made.writes with
    | none => simp
    | some text => simp [eq_comm]

/-- With the standard settings the sheet and a source outlive a dry run. -/
theorem preview_writes_artifacts_only_standard :
    Settings.standard.flaw? = none ∧ Mode.dryRun.writesSources = false ∧
    (execute 2 brokenTree "." Settings.standard .dryRun).1.content?
        "./ui/src/styles/variables.css" = some (.text "") ∧
    (execute 2 brokenTree "." Settings.standard .dryRun).1.content? "./ui/src/B.tsx" =
      some (.binary [255]) := by
  have valid : Settings.standard.flaw? = none := by decide +kernel
  obtain ⟨kept, -⟩ :=
    preview_writes_artifacts_only Discovery.standard 2 brokenTree "." Settings.standard .dryRun
      valid rfl
  refine ⟨valid, rfl, kept _ _ ?_ ?_, kept _ _ ?_ ?_⟩ <;> decide +kernel

def smallSettings : Settings :=
  { Settings.standard with
    sourceRoot := "s", tokenFile := "s/t.css", reportDir := "r", generatedFile := "g" }

/-- Settings that put the sheet of minted tokens where the sheet itself is. -/
def overlaidSettings : Settings :=
  { smallSettings with generatedFile := smallSettings.tokenFile }

def sheetTree : Tree :=
  Tree.empty.add ["s", "t.css"] (.file (.text ":root \x7b --ink: #000; \x7d"))

/-- A dry run overwrites the sheet that its settings name as the place of a preview. -/
theorem dryRun_overwrites_sheet :
    overlaidSettings.flaw? = none ∧
    sheetTree.text? (ProjectPaths.resolve "." overlaidSettings).tokenFile =
      some ":root \x7b --ink: #000; \x7d" ∧
    (execute 1 sheetTree "." overlaidSettings .dryRun).1.text?
        (ProjectPaths.resolve "." overlaidSettings).tokenFile =
      some (MintedTokens.sheet ∅) := by
  decide +kernel

end Previews

end ColorTokens.Project
