import ColorTokens.Patch
import ColorTokens.Project.Discovery
import ColorTokens.Report.Markdown
import ColorTokens.Toml.Document

/-! Running over a project tree. Everything is read and computed before anything is written, so a
run that fails early leaves the tree as it was. -/

set_option autoImplicit false

namespace ColorTokens

inductive Mode where
  /-- The reports. -/
  | report
  /-- Also a patch and the sheet of minted tokens. -/
  | dryRun
  /-- Also the sources, the sheet and the palette. -/
  | apply
  deriving DecidableEq, Repr

namespace Mode

def name : Mode → String
  | .report => "report"
  | .dryRun => "dry-run"
  | .apply => "apply"

def ofName? (name : String) : Option Mode :=
  [report, dryRun, apply].find? fun mode => mode.name == name

def writesPreview (mode : Mode) : Bool :=
  mode != .report

def writesSources (mode : Mode) : Bool :=
  mode == .apply

end Mode

inductive ProjectError where
  | unreadableSettings (path : String)
  | malformedSettings (path : String)
  | badSettings (flaw : Settings.Flaw)
  | missingSourceRoot (path : String)
  | missingTokenFile (path : String)
  | unreadable (path : String)
  | badRun (error : RunError)
  | badWrite (error : Tree.WriteError)
  deriving DecidableEq, Repr

def ProjectError.message : ProjectError → String
  | .unreadableSettings path => "Failed to read config " ++ path
  | .malformedSettings path => "Failed to parse config " ++ path
  | .badSettings flaw => flaw.message
  | .missingSourceRoot path => "missing source root at " ++ path
  | .missingTokenFile path => "missing token file at " ++ path
  | .unreadable path => "Failed to read " ++ path
  | .badRun error => error.message
  | .badWrite (.uncreatable directory) => "Failed to create " ++ directory
  | .badWrite (.unwritable path) => "Failed to write " ++ path

namespace Settings

def fileName : String :=
  "tint.toml"

def read (tree : Tree) (path : String) : Except ProjectError Settings := do
  let some document := tree.text? path | throw (.unreadableSettings path)
  let some settings := (Toml.parse? document).bind ofData? | throw (.malformedSettings path)
  if let some flaw := settings.flaw? then throw (.badSettings flaw)
  return settings

/-- Settings from a file that is named, else from the project's settings file if there is one,
else the standard ones. -/
def load (tree : Tree) (root : String) (named : Option String) : Except ProjectError Settings :=
  match named with
  | some path => read tree (Path.join root path)
  | none =>
    let path := Path.join root fileName
    if tree.isFile path then read tree path else .ok standard

end Settings

structure Execution where
  mode : Mode
  outcome : Outcome
  colorMap : ColorMap
  /-- The label and the path of every file written besides the sources. -/
  artifacts : List (String × String)
  sourceWrites : Nat

namespace Execution

def summaryHead (execution : Execution) : String :=
  let map := execution.colorMap
  "[" ++ execution.mode.name ++ "] scanned=" ++ toString map.filesScanned ++
    " matches=" ++ toString map.matchCount ++ " unique=" ++ toString map.uniqueColors ++
    " reused=" ++ toString map.reusedTokens ++ " new=" ++ toString map.newTokens

def summaryTail (execution : Execution) : List String :=
  match execution.mode with
  | .report => []
  | .dryRun => ["source_writes=0 (preview mode)"]
  | .apply => ["source_writes=" ++ toString execution.sourceWrites]

def summary (execution : Execution) : List String :=
  execution.summaryHead ::
    execution.artifacts.map (fun artifact => artifact.1 ++ "=" ++ artifact.2) ++
    execution.summaryTail

end Execution

/-- A file to write. One with a label is listed in the summary. -/
structure Write where
  label : Option String
  path : String
  text : String
  deriving DecidableEq, Repr

namespace Project

/-- The items that fit into the room that is left, and the batches of those behind them. -/
def fill {α : Type} (size : Nat) : (room : Nat) → List α → List α × List (List α)
  | _, [] => ([], [])
  | room + 1, item :: rest =>
    let (batch, more) := fill size room rest
    (item :: batch, more)
  | 0, item :: rest =>
    let (batch, more) := fill size (size - 1) rest
    ([], (item :: batch) :: more)

/-- Parts of a list with `size` items each; the last one may have fewer. -/
def batches {α : Type} (size : Nat) (items : List α) : List (List α) :=
  (fill size 0 items).2

def scanTarget (tree : Tree) (tokenizer : Tokenizer) (target : Target) :
    Except ProjectError ScannedFile :=
  match tree.text? target.path with
  | some text => .ok (tokenizer.scanFile (SourceFile.ofPath target.relative text))
  | none => .error (.unreadable target.relative)

/-- Keeps what was scanned. With `strict` the first target that could not be read is an error,
otherwise such targets are passed over. -/
def collect (strict : Bool) :
    List (Except ProjectError ScannedFile) → Except ProjectError (List ScannedFile)
  | [] => .ok []
  | .ok file :: rest => (collect strict rest).map (file :: ·)
  | .error error :: rest => if strict then .error error else collect strict rest

def scanTargets (batchSize : Nat) (tree : Tree) (tokenizer : Tokenizer) (strict : Bool)
    (targets : List Target) : Except ProjectError (List ScannedFile) := do
  let scanned ← (batches batchSize targets).mapM fun batch =>
    collect strict (batch.map (scanTarget tree tokenizer))
  return scanned.flatten

/-- All tokens of a sheet's root block that are named like minted ones. -/
def mintedIn (naming : Naming) (sheet : String) : MintedTokens :=
  Std.TreeMap.ofList ((rootTokens sheet.toList).filterMap fun declaration =>
    if naming.stem.toList.isPrefixOf declaration.identifier.toList then
      some (declaration.identifier, declaration.value)
    else
      none)

def reportWrites (paths : ProjectPaths) (mode : Mode) (map : ColorMap) (outcome : Outcome) :
    List Write :=
  [⟨some "report_json", paths.reportJson, map.render⟩,
    ⟨some "report_md", paths.reportMarkdown, Markdown.render mode.name outcome⟩]

def previewWrites (paths : ProjectPaths) (outcome : Outcome) : List Write :=
  [⟨some "patch_preview", paths.reportPatch, Patch.render outcome.changed⟩,
    ⟨some "generated_tokens", paths.generatedFile,
      MintedTokens.sheet outcome.assignment.generated⟩]

def changeWrites (paths : ProjectPaths) (outcome : Outcome) : List Write :=
  outcome.changed.toList.map fun (relative, change) =>
    ⟨none, Path.join paths.root relative, change.after⟩

def sheetWrites (paths : ProjectPaths) (before after : String) : List Write :=
  if after == before then [] else [⟨some "token_file", paths.tokenFile, after⟩]

def paletteWrites (paths : ProjectPaths) (naming : Naming) (sheet : String) : List Write :=
  paths.paletteFile.toList.map fun path =>
    ⟨some "palette", path, (mintedIn naming sheet).palette naming⟩

def writes (paths : ProjectPaths) (naming : Naming) (mode : Mode) (map : ColorMap)
    (outcome : Outcome) (sheet : String) : List Write :=
  -- The palette is made of the updated sheet, so tokens of earlier runs stay in it.
  let updated := outcome.updatedSheet sheet
  reportWrites paths mode map outcome ++
    (if mode.writesPreview then previewWrites paths outcome else []) ++
    (if mode.writesSources then
      changeWrites paths outcome ++ sheetWrites paths sheet updated ++
        paletteWrites paths naming updated
    else [])

/-- What a run answers if all it has to write can be written. -/
structure Plan where
  execution : Execution
  writes : List Write

def plan (batchSize : Nat) (tree : Tree) (root : String) (settings : Settings) (mode : Mode)
    (finder : Finder := Discovery.standard) : Except ProjectError Plan := do
  let paths := ProjectPaths.resolve root settings
  unless tree.isDirectory paths.sourceRoot do throw (.missingSourceRoot paths.sourceRoot)
  unless tree.isFile paths.tokenFile do throw (.missingTokenFile paths.tokenFile)
  let some sheet := tree.text? paths.tokenFile | throw (.unreadable paths.tokenFile)
  let tokenizer ← (Tokenizer.make settings.rules settings.naming).mapError .badRun
  let targets := Discovery.targets tree paths settings finder
  -- Only a run that rewrites sources has to have read all of them.
  let scanned ← scanTargets batchSize tree tokenizer mode.writesSources targets
  let outcome ← (tokenizer.finish scanned (TokenSheet.ofText sheet)).mapError .badRun
  let map := ColorMap.ofOutcome mode.name settings outcome
  let writes := writes paths settings.naming mode map outcome sheet
  let artifacts := writes.filterMap fun write =>
    write.label.map fun label => (label, paths.relative write.path)
  -- The sources that are rewritten have no label and are only counted.
  let sourceWrites := if mode.writesSources then outcome.changed.size else 0
  return ⟨⟨mode, outcome, map, artifacts, sourceWrites⟩, writes⟩

/-- Writes files in order, up to the first that cannot be written. -/
def perform : Tree → List Write → Tree × Except Tree.WriteError Unit
  | tree, [] => (tree, .ok ())
  | tree, write :: rest =>
    match tree.writeText write.path write.text with
    | (written, .ok _) => perform written rest
    | (written, .error error) => (written, .error error)

/-- Runs over the project at `root`. What was written before a failure stays. -/
def execute (batchSize : Nat) (tree : Tree) (root : String) (settings : Settings) (mode : Mode)
    (finder : Finder := Discovery.standard) : Tree × Except ProjectError Execution :=
  match plan batchSize tree root settings mode finder with
  | .ok plan =>
    let (written, result) := perform tree plan.writes
    (written, (result.mapError .badWrite).map fun _ => plan.execution)
  | .error error => (tree, .error error)

end Project

end ColorTokens
