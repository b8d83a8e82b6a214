import ColorTokens.Project.Execution
import ColorTokens.Proofs.Tokenization

/-! What a run reads. The batches only group the targets, so a scan is one pass over all of them;
where it may not pass over a target it stops at the first that cannot be read. Nothing is written
before all of this is done. -/

set_option autoImplicit false

namespace ColorTokens

namespace Discovery

theorem targetLe_trans (a b c : Target) (first : targetLe a b) (second : targetLe b c) :
    targetLe a c :=
  Std.TransOrd.isLE_trans first second

theorem targetLe_total (a b : Target) : targetLe a b || targetLe b a := by
  unfold targetLe
  rw [Std.OrientedOrd.eq_swap (a := b.relative)]
  cases compare a.relative b.relative <;> rfl

theorem targets_sorted (tree : Tree) (paths : ProjectPaths) (settings : Settings)
    (finder : Finder) : (targets tree paths settings finder).Pairwise fun a b => targetLe a b :=
  List.pairwise_mergeSort targetLe_trans targetLe_total _

end Discovery

namespace Project

def readSources (tree : Tree) (targets : List Target) : List SourceFile :=
  targets.filterMap fun target =>
    (tree.text? target.path).map (SourceFile.ofPath target.relative)

def targetsIn (tree : Tree) (root : String) (settings : Settings) (finder : Finder) :
    List Target :=
  Discovery.targets tree (ProjectPaths.resolve root settings) settings finder

def tokenizerOf (settings : Settings) : Tokenizer :=
  ⟨settings.rules, settings.naming⟩

def AllReadable (tree : Tree) (targets : List Target) : Prop :=
  ∀ target ∈ targets, (tree.text? target.path).isSome

/-- A target that cannot be read and that comes, by its path, before all others like it. -/
structure FirstUnreadable (tree : Tree) (targets : List Target) (target : Target) : Prop where
  listed : target ∈ targets
  unreadable : tree.text? target.path = none
  first : ∀ other ∈ targets, tree.text? other.path = none → Discovery.targetLe target other

section Batches

variable {α : Type}

theorem append_flatten_fill (size room : Nat) (items : List α) :
    (fill size room items).1 ++ (fill size room items).2.flatten = items := by
  induction items generalizing room with
  | nil => rfl
  | cons item rest ih =>
    cases room with
    | zero => simpa [fill] using ih (size - 1)
    | succ room => simpa [fill] using ih room

theorem flatten_batches (size : Nat) (items : List α) : (batches size items).flatten = items := by
  have none : (fill size 0 items).1 = [] := by cases items <;> rfl
  have whole := append_flatten_fill size 0 items
  rwa [none, List.nil_append] at whole

end Batches

section Scanning

variable {strict : Bool} {tree : Tree} {tokenizer : Tokenizer} {targets : List Target}

theorem readSources_of_some {target : Target} {text : String} (rest : List Target)
    (read : tree.text? target.path = some text) :
    readSources tree (target :: rest) =
      SourceFile.ofPath target.relative text :: readSources tree rest := by
  simp [readSources, read]

theorem readSources_of_none {target : Target} (rest : List Target)
    (unread : tree.text? target.path = none) :
    readSources tree (target :: rest) = readSources tree rest := by
  simp [readSources, unread]

theorem collect_append (front back : List (Except ProjectError ScannedFile)) :
    collect strict (front ++ back) =
      collect strict front >>= fun files => (collect strict back).map (files ++ ·) := by
  induction front with
  | nil =>
    rw [List.nil_append]
    cases collect strict back <;> rfl
  | cons result front ih =>
    cases result with
    | ok file =>
      rw [List.cons_append, collect, collect, ih]
      cases collect strict front with
      | error error => rfl
      | ok files => cases collect strict back <;> rfl
    | error error =>
      rw [List.cons_append, collect, collect, ih]
      cases strict <;> rfl

theorem mapM_collect (strict : Bool) (tree : Tree) (tokenizer : Tokenizer)
    (parts : List (List Target)) :
    (parts.mapM fun batch => collect strict (batch.map (scanTarget tree tokenizer))).map
        List.flatten =
      collect strict (parts.flatten.map (scanTarget tree tokenizer)) := by
  induction parts with
  | nil => rfl
  | cons batch parts ih =>
    rw [List.flatten_cons, List.map_append, collect_append, ← ih, List.mapM_cons]
    cases collect strict (batch.map (scanTarget tree tokenizer)) with
    | error error => rfl
    | ok files =>
      cases parts.mapM fun batch => collect strict (batch.map (scanTarget tree tokenizer)) <;> rfl

/-- Batches make no difference: a scan is one pass over all targets. -/
theorem scanTargets_eq_collect (batchSize : Nat) (tree : Tree) (tokenizer : Tokenizer)
    (strict : Bool) (targets : List Target) :
    scanTargets batchSize tree tokenizer strict targets =
      collect strict (targets.map (scanTarget tree tokenizer)) := by
  have joined := mapM_collect strict tree tokenizer (batches batchSize targets)
  rw [flatten_batches] at joined
  rw [← joined, scanTargets]
  cases (batches batchSize targets).mapM fun batch =>
    collect strict (batch.map (scanTarget tree tokenizer)) <;> rfl

theorem collect_readable (readable : AllReadable tree targets) :
    collect strict (targets.map (scanTarget tree tokenizer)) =
      .ok ((readSources tree targets).map tokenizer.scanFile) := by
  induction targets with
  | nil => rfl
  | cons target rest ih =>
    have others := ih fun other member => readable other (List.mem_cons_of_mem _ member)
    obtain ⟨text, read⟩ := Option.isSome_iff_exists.mp (readable target List.mem_cons_self)
    have scanned : scanTarget tree tokenizer target =
        .ok (tokenizer.scanFile (SourceFile.ofPath target.relative text)) := by
      rw [scanTarget, read]
    rw [List.map_cons, scanned, collect, others, readSources_of_some rest read]
    rfl

theorem collect_lenient (tree : Tree) (tokenizer : Tokenizer) (targets : List Target) :
    collect false (targets.map (scanTarget tree tokenizer)) =
      .ok ((readSources tree targets).map tokenizer.scanFile) := by
  induction targets with
  | nil => rfl
  | cons target rest ih =>
    rw [List.map_cons, scanTarget]
    cases read : tree.text? target.path with
    | none =>
      rw [readSources_of_none rest read]
      exact ih
    | some text =>
      rw [readSources_of_some rest read, collect, ih]
      rfl

theorem collect_strict_unreadable {front back : List Target} {target : Target}
    (readable : AllReadable tree front)
    (unreadable : tree.text? target.path = none) :
    collect true ((front ++ target :: back).map (scanTarget tree tokenizer)) =
      .error (.unreadable target.relative) := by
  have failed : scanTarget tree tokenizer target = .error (.unreadable target.relative) := by
    rw [scanTarget, unreadable]
  rw [List.map_append, collect_append, collect_readable readable, List.map_cons, failed, collect]
  rfl

theorem exists_split_unreadable (missing : ¬ AllReadable tree targets) :
    ∃ front target back, targets = front ++ target :: back ∧
      AllReadable tree front ∧ tree.text? target.path = none := by
  induction targets with
  | nil => exact absurd (List.forall_mem_nil _) missing
  | cons target rest ih =>
    cases read : tree.text? target.path with
    | none => exact ⟨[], target, rest, rfl, List.forall_mem_nil _, read⟩
    | some text =>
      have later : ¬ AllReadable tree rest := by
        intro readable
        exact missing (List.forall_mem_cons.mpr ⟨by simp [read], readable⟩)
      obtain ⟨front, first, back, rfl, readable, unreadable⟩ := ih later
      refine ⟨target :: front, first, back, rfl, ?_, unreadable⟩
      exact List.forall_mem_cons.mpr ⟨by simp [read], readable⟩

theorem firstUnreadable_of_split {front back : List Target} {target : Target}
    (sorted : (front ++ target :: back).Pairwise fun a b => Discovery.targetLe a b)
    (readable : AllReadable tree front)
    (unreadable : tree.text? target.path = none) :
    FirstUnreadable tree (front ++ target :: back) target := by
  refine ⟨by simp, unreadable, fun other member missing => ?_⟩
  have behind := (List.pairwise_append.mp sorted).2.1
  rcases List.mem_append.mp member with member | member
  · have read := readable other member
    rw [missing] at read
    cases read
  · rcases List.mem_cons.mp member with rfl | member
    · simpa using Discovery.targetLe_total other other
    · exact (List.pairwise_cons.mp behind).1 other member

theorem relative_unique {first second : Target} (one : FirstUnreadable tree targets first)
    (other : FirstUnreadable tree targets second) : first.relative = second.relative := by
  have below := one.first second other.listed other.unreadable
  have above := other.first first one.listed one.unreadable
  unfold Discovery.targetLe at below above
  rw [Std.OrientedOrd.eq_swap, Ordering.isLE_swap] at above
  apply Std.compare_eq_iff_eq.mp
  cases order : compare first.relative second.relative with
  | lt => simp [order] at above
  | eq => rfl
  | gt => simp [order] at below

theorem scanTargets_lenient (batchSize : Nat) (tree : Tree) (tokenizer : Tokenizer)
    (targets : List Target) :
    scanTargets batchSize tree tokenizer false targets =
      .ok ((readSources tree targets).map tokenizer.scanFile) := by
  rw [scanTargets_eq_collect, collect_lenient]

theorem scanTargets_readable (batchSize : Nat)
    (readable : AllReadable tree targets) :
    scanTargets batchSize tree tokenizer strict targets =
      .ok ((readSources tree targets).map tokenizer.scanFile) := by
  rw [scanTargets_eq_collect, collect_readable readable]

theorem exists_scanTargets_error (batchSize : Nat) (tokenizer : Tokenizer)
    (sorted : targets.Pairwise fun a b => Discovery.targetLe a b)
    (missing : ¬ AllReadable tree targets) :
    ∃ target, FirstUnreadable tree targets target ∧
      scanTargets batchSize tree tokenizer true targets = .error (.unreadable target.relative) := by
  obtain ⟨front, target, back, rfl, readable, unreadable⟩ := exists_split_unreadable missing
  refine ⟨target, firstUnreadable_of_split sorted readable unreadable, ?_⟩
  rw [scanTargets_eq_collect, collect_strict_unreadable readable unreadable]

theorem scanTargets_strict_eq_ok_iff {batchSize : Nat} {files : List ScannedFile}
    (sorted : targets.Pairwise fun a b => Discovery.targetLe a b) :
    scanTargets batchSize tree tokenizer true targets = .ok files ↔
      AllReadable tree targets ∧
        files = (readSources tree targets).map tokenizer.scanFile := by
  by_cases readable : AllReadable tree targets
  · rw [scanTargets_readable batchSize readable, Except.ok.injEq, eq_comm]
    exact (and_iff_right readable).symm
  · obtain ⟨target, _, failed⟩ := exists_scanTargets_error batchSize tokenizer sorted readable
    rw [failed]
    exact ⟨fun done => (nomatch done), fun done => absurd done.1 readable⟩

theorem scanTargets_strict_eq_error_iff {batchSize : Nat} {error : ProjectError}
    (sorted : targets.Pairwise fun a b => Discovery.targetLe a b) :
    scanTargets batchSize tree tokenizer true targets = .error error ↔
      ∃ target, FirstUnreadable tree targets target ∧ error = .unreadable target.relative := by
  by_cases readable : AllReadable tree targets
  · rw [scanTargets_readable batchSize readable]
    refine ⟨fun done => (nomatch done), ?_⟩
    rintro ⟨target, first, -⟩
    have read := readable target first.listed
    rw [first.unreadable] at read
    cases read
  · obtain ⟨target, first, failed⟩ := exists_scanTargets_error batchSize tokenizer sorted readable
    rw [failed, Except.error.injEq]
    constructor
    · rintro rfl
      exact ⟨target, first, rfl⟩
    · rintro ⟨other, first', rfl⟩
      rw [relative_unique first first']

end Scanning

section Planning

variable {batchSize : Nat} {tree : Tree} {root : String} {settings : Settings} {mode : Mode}
  {finder : Finder} {sheet : String}

theorem make_of_valid (valid : settings.flaw? = none) :
    Tokenizer.make settings.rules settings.naming = .ok (tokenizerOf settings) := by
  unfold Settings.flaw? at valid
  by_cases suffixes : settings.suffixes.all Text.isBlankText = true
  · rw [if_pos suffixes] at valid
    cases valid
  · rw [if_neg suffixes] at valid
    simp only [Option.orElse_eq_orElse, Option.orElse_eq_or, Option.or_eq_none_iff,
      Option.map_eq_none_iff] at valid
    simp [Tokenizer.make, tokenizerOf, valid]

def planned (root : String) (settings : Settings) (mode : Mode) (sheet : String)
    (outcome : Outcome) : Plan :=
  let paths := ProjectPaths.resolve root settings
  let map := ColorMap.ofOutcome mode.name settings outcome
  let writes := writes paths settings.naming mode map outcome sheet
  let artifacts := writes.filterMap fun write =>
    write.label.map fun label => (label, paths.relative write.path)
  ⟨⟨mode, outcome, map, artifacts, if mode.writesSources then outcome.changed.size else 0⟩, writes⟩

/-- The places that a run needs: a directory to search and a sheet that can be read. -/
structure Ready (tree : Tree) (root : String) (settings : Settings) (sheet : String) : Prop where
  directory : tree.isDirectory (ProjectPaths.resolve root settings).sourceRoot = true
  read : tree.text? (ProjectPaths.resolve root settings).tokenFile = some sheet

theorem Ready.isFile (ready : Ready tree root settings sheet) :
    tree.isFile (ProjectPaths.resolve root settings).tokenFile = true := by
  obtain ⟨content, found, _⟩ := Option.bind_eq_some_iff.mp ready.read
  rw [Tree.isFile, found]
  rfl

/-- Once its places are there, a plan is a scan, an outcome and what follows from it. -/
theorem plan_eq (valid : settings.flaw? = none) (ready : Ready tree root settings sheet) :
    plan batchSize tree root settings mode finder = do
      let scanned ← scanTargets batchSize tree (tokenizerOf settings) mode.writesSources
        (targetsIn tree root settings finder)
      let outcome ← ((tokenizerOf settings).finish scanned (TokenSheet.ofText sheet)).mapError .badRun
      return planned root settings mode sheet outcome := by
  simp only [plan, ready.directory, ready.isFile, ready.read, make_of_valid valid]
  rfl

theorem exists_ready_of_plan {made : Plan}
    (done : plan batchSize tree root settings mode finder = .ok made) :
    ∃ sheet, Ready tree root settings sheet := by
  by_cases directory : tree.isDirectory (ProjectPaths.resolve root settings).sourceRoot = true
  · cases read : tree.text? (ProjectPaths.resolve root settings).tokenFile with
    | none =>
      by_cases file : tree.isFile (ProjectPaths.resolve root settings).tokenFile = true
      · simp only [plan, directory, file, read] at done
        cases done
      · simp only [plan, directory, file] at done
        cases done
    | some sheet => exact ⟨sheet, directory, read⟩
  · simp only [plan, directory] at done
    cases done

/-- A plan whose targets were all read, or that may pass over some, has the outcome of a run over
the sources that can be read. -/
theorem plan_of_readable (valid : settings.flaw? = none) (ready : Ready tree root settings sheet)
    (readable : mode = .apply → AllReadable tree (targetsIn tree root settings finder)) :
    plan batchSize tree root settings mode finder =
      (((tokenizerOf settings).run (readSources tree (targetsIn tree root settings finder))
        sheet).mapError .badRun).map (planned root settings mode sheet) := by
  have scanned : scanTargets batchSize tree (tokenizerOf settings) mode.writesSources
      (targetsIn tree root settings finder) =
      .ok ((readSources tree (targetsIn tree root settings finder)).map
        (tokenizerOf settings).scanFile) := by
    cases mode with
    | report => exact scanTargets_lenient ..
    | dryRun => exact scanTargets_lenient ..
    | apply => exact scanTargets_readable batchSize (readable rfl)
  rw [plan_eq valid ready, scanned, Tokenizer.run]
  simp only [bind, Except.bind]
  cases (tokenizerOf settings).finish _ (TokenSheet.ofText sheet) <;> rfl

theorem plan_of_unreadable (batchSize : Nat) (valid : settings.flaw? = none)
    (ready : Ready tree root settings sheet) {target : Target}
    (first : FirstUnreadable tree (targetsIn tree root settings finder) target) :
    plan batchSize tree root settings .apply finder = .error (.unreadable target.relative) := by
  have failed : scanTargets batchSize tree (tokenizerOf settings) true
      (targetsIn tree root settings finder) = .error (.unreadable target.relative) :=
    (scanTargets_strict_eq_error_iff (Discovery.targets_sorted ..)).mpr ⟨target, first, rfl⟩
  rw [plan_eq valid ready]
  simp only [Mode.writesSources, BEq.rfl]
  rw [failed]
  rfl

theorem exists_of_plan {made : Plan} (valid : settings.flaw? = none)
    (done : plan batchSize tree root settings mode finder = .ok made) :
    ∃ sheet outcome, Ready tree root settings sheet ∧
      (mode = .apply → AllReadable tree (targetsIn tree root settings finder)) ∧
      (tokenizerOf settings).run (readSources tree (targetsIn tree root settings finder)) sheet =
        .ok outcome ∧
      made = planned root settings mode sheet outcome := by
  obtain ⟨sheet, ready⟩ := exists_ready_of_plan done
  have readable : mode = .apply → AllReadable tree (targetsIn tree root settings finder) := by
    rintro rfl
    by_contra missing
    obtain ⟨target, first, -⟩ := exists_scanTargets_error batchSize (tokenizerOf settings)
      (Discovery.targets_sorted ..) missing
    rw [plan_of_unreadable batchSize valid ready first] at done
    cases done
  rw [plan_of_readable valid ready readable] at done
  cases ran : (tokenizerOf settings).run (readSources tree (targetsIn tree root settings finder))
      sheet with
  | error error =>
    rw [ran] at done
    cases done
  | ok outcome =>
    rw [ran] at done
    cases done
    exact ⟨sheet, outcome, ready, readable, ran, rfl⟩

end Planning

section Execution

variable {batchSize : Nat} {tree after : Tree} {root : String} {settings : Settings} {mode : Mode}
  {finder : Finder}

theorem execute_of_plan_error {error : ProjectError}
    (failed : plan batchSize tree root settings mode finder = .error error) :
    execute batchSize tree root settings mode finder = (tree, .error error) := by
  unfold execute
  rw [failed]

theorem execute_of_plan {made : Plan}
    (done : plan batchSize tree root settings mode finder = .ok made) :
    execute batchSize tree root settings mode finder =
      ((perform tree made.writes).1,
        ((perform tree made.writes).2.mapError .badWrite).map fun _ => made.execution) := by
  unfold execute
  rw [done]

theorem exists_of_execute {execution : Execution}
    (done : execute batchSize tree root settings mode finder = (after, .ok execution)) :
    ∃ made, plan batchSize tree root settings mode finder = .ok made ∧ made.execution = execution ∧
      perform tree made.writes = (after, .ok ()) := by
  cases planning : plan batchSize tree root settings mode finder with
  | error error =>
    rw [execute_of_plan_error planning] at done
    cases done
  | ok made =>
    rw [execute_of_plan planning, Prod.mk.injEq] at done
    obtain ⟨written, result⟩ := done
    refine ⟨made, rfl, ?_⟩
    cases performed : (perform tree made.writes).2 with
    | error failure =>
      rw [performed] at result
      cases result
    | ok _ =>
      rw [performed] at result
      cases result
      exact ⟨rfl, Prod.ext written performed⟩

/-- Only a write that fails leaves something behind. -/
theorem eq_of_execute_error {error : ProjectError}
    (failed : execute batchSize tree root settings mode finder = (after, .error error))
    (unwritten : ∀ failure, error ≠ .badWrite failure) : after = tree := by
  cases planning : plan batchSize tree root settings mode finder with
  | error error =>
    rw [execute_of_plan_error planning] at failed
    cases failed
    rfl
  | ok made =>
    rw [execute_of_plan planning, Prod.mk.injEq] at failed
    cases performed : (perform tree made.writes).2 with
    | error failure =>
      rw [performed] at failed
      cases failed.2
      exact absurd rfl (unwritten failure)
    | ok _ =>
      rw [performed] at failed
      cases failed.2

def brokenTree : Tree :=
  ((Tree.empty.add ["ui", "src", "styles", "variables.css"] (.file (.text ""))).add
    ["ui", "src", "A.tsx"] (.file (.text "<a fill=\"#fff\"/>"))).add
    ["ui", "src", "B.tsx"] (.file (.binary [255]))

theorem targetsIn_brokenTree : targetsIn brokenTree "." Settings.standard Discovery.standard =
    [⟨"./ui/src/A.tsx", "ui/src/A.tsx"⟩, ⟨"./ui/src/B.tsx", "ui/src/B.tsx"⟩] := by
  have found : (((Discovery.standard.search brokenTree "./ui/src").filter brokenTree.isFile).map
      fun path =>
        (⟨path, (ProjectPaths.resolve "." Settings.standard).relative path⟩ : Target)).filter
      (fun target => Path.isAllowed Settings.standard.suffixes Settings.standard.exclude
        target.relative Discovery.standard.isMatch) =
      [⟨"./ui/src/A.tsx", "ui/src/A.tsx"⟩, ⟨"./ui/src/B.tsx", "ui/src/B.tsx"⟩] := by
    decide +kernel
  have sourceRoot : (ProjectPaths.resolve "." Settings.standard).sourceRoot = "./ui/src" := rfl
  rw [targetsIn, Discovery.targets, sourceRoot, found]
  exact List.mergeSort_of_pairwise (by decide +kernel)

end Execution

end Project

end ColorTokens
