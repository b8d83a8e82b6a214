import ColorTokens.Path
import ColorTokens.ScanRules
import ColorTokens.Settings.Data
import ColorTokens.Token.Naming

/-! Settings of a project. Every path in them is relative to the project root. -/

set_option autoImplicit false

namespace ColorTokens

open ColorTokens.Text

structure Settings where
  /-- The directory searched for source files. -/
  sourceRoot : String
  /-- The sheet whose root block is indexed and extended. -/
  tokenFile : String
  /-- File name endings that select a file. -/
  suffixes : List String
  /-- Paths and patterns that are never scanned. -/
  exclude : List String
  reportDir : String
  /-- The sheet of the minted tokens alone. -/
  generatedFile : String
  paletteFile : Option String
  rules : ScanRules
  naming : Naming
  deriving DecidableEq, Repr

namespace Settings

def standard : Settings where
  sourceRoot := "ui/src"
  tokenFile := "ui/src/styles/variables.css"
  suffixes := [".module.css", ".tsx"]
  exclude := ["ui/src/styles/globals.css", "ui/src/styles/animations.css"]
  reportDir := ".codex/reports"
  generatedFile := "ui/src/styles/variables.generated.css"
  paletteFile := none
  rules := ScanRules.standard
  naming := Naming.standard

inductive Flaw where
  | noSuffix
  | blankPath (key : String)
  | badRules (flaw : ScanRules.Flaw)
  | badNaming (flaw : Naming.Flaw)
  deriving DecidableEq, Repr

def Flaw.message : Flaw → String
  | .noSuffix => "suffixes must name at least one file ending"
  | .blankPath key => key ++ " must not be empty"
  | .badRules flaw => flaw.message
  | .badNaming flaw => flaw.message

def requiredPaths (settings : Settings) : List (String × String) :=
  [("source_root", settings.sourceRoot), ("token_file", settings.tokenFile),
    ("report_dir", settings.reportDir), ("generated_token_file", settings.generatedFile)]

def flaw? (settings : Settings) : Option Flaw :=
  if settings.suffixes.all isBlankText then some .noSuffix
  else
    (settings.requiredPaths.find? (isBlankText ·.2)).map (fun entry => .blankPath entry.1) <|>
      settings.rules.flaw?.map .badRules <|>
      settings.naming.flaw?.map .badNaming

end Settings

/-- Rules given by a table; fields that are missing keep their default and unknown ones are
passed over. -/
def ScanRules.ofData? (data : Data) : Option ScanRules := do
  let entries ← data.entries?
  let rules := ScanRules.standard
  return {
    markupAttributes :=
      ← readField entries "markup_attributes" rules.markupAttributes Data.texts?
    styleProperties := ← readField entries "style_properties" rules.styleProperties Data.texts?
    dictionaryKeywords :=
      ← readField entries "dictionary_keywords" rules.dictionaryKeywords Data.texts?
    referenceMarker :=
      ← readField entries "token_reference_marker" rules.referenceMarker Data.text? }

def Naming.ofData? (data : Data) : Option Naming := do
  let entries ← data.entries?
  let naming := Naming.standard
  return {
    stem := ← readField entries "prefix" naming.stem Data.text?
    width := ← readField entries "width" naming.width Data.count?
    paletteStem := ← readField entries "palette_strip_prefix" naming.paletteStem Data.text? }

namespace Settings

def keys : List String :=
  ["source_root", "token_file", "suffixes", "exclude", "report_dir", "generated_token_file",
    "palette_file", "scanner", "naming"]

def optionalText? : Data → Option (Option String)
  | .null => some none
  | data => data.text?.map some

/-- Settings given by a table. Unlike in the tables inside, an unknown key is refused. -/
def ofData? (data : Data) : Option Settings := do
  let entries ← data.entries?
  guard (entries.all fun entry => keys.contains entry.1)
  let settings := Settings.standard
  return {
    sourceRoot := ← readField entries "source_root" settings.sourceRoot Data.text?
    tokenFile := ← readField entries "token_file" settings.tokenFile Data.text?
    suffixes := ← readField entries "suffixes" settings.suffixes Data.texts?
    exclude := ← readField entries "exclude" settings.exclude Data.texts?
    reportDir := ← readField entries "report_dir" settings.reportDir Data.text?
    generatedFile := ← readField entries "generated_token_file" settings.generatedFile Data.text?
    paletteFile := ← readField entries "palette_file" settings.paletteFile optionalText?
    rules := ← readField entries "scanner" settings.rules ScanRules.ofData?
    naming := ← readField entries "naming" settings.naming Naming.ofData? }

end Settings

structure ProjectPaths where
  root : String
  sourceRoot : String
  tokenFile : String
  reportJson : String
  reportMarkdown : String
  reportPatch : String
  generatedFile : String
  paletteFile : Option String
  deriving DecidableEq, Repr

namespace ProjectPaths

def resolve (root : String) (settings : Settings) : ProjectPaths :=
  let reportDir := Path.join root settings.reportDir
  { root
    sourceRoot := Path.join root settings.sourceRoot
    tokenFile := Path.join root settings.tokenFile
    reportJson := Path.join reportDir "color-map.json"
    reportMarkdown := Path.join reportDir "color-report.md"
    reportPatch := Path.join reportDir "color-tokenization.patch"
    generatedFile := Path.join root settings.generatedFile
    paletteFile := settings.paletteFile.map (Path.join root) }

/-- A path as reports show it: below the root if it lies there, with forward slashes. -/
def relative (paths : ProjectPaths) (path : String) : String :=
  Path.forwardSlashes ((Path.below? paths.root path).getD path)

end ProjectPaths

end ColorTokens
