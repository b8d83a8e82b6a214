import ColorTokens.Project.Execution

/-! The command line: its options, and what a call answers. -/

set_option autoImplicit false

namespace ColorTokens.CommandLine

structure Options where
  mode : Mode
  /-- The project root. -/
  root : String
  /-- A settings file other than the project's own. -/
  config : Option String
  /-- Answer with the colour map instead of the summary. -/
  json : Bool
  deriving DecidableEq, Repr

inductive Invocation where
  | run (options : Options)
  | version
  | help
  | refused
  deriving DecidableEq, Repr

/-- The options given so far; none may be given twice. -/
structure Given where
  mode : Option Mode
  root : Option String
  config : Option String
  json : Bool
  verbose : Bool
  quiet : Bool
  deriving DecidableEq, Repr

namespace Given

def nothing : Given :=
  ⟨none, none, none, false, false, false⟩

def toOptions (given : Given) : Options where
  mode := given.mode.getD .report
  root := given.root.getD "."
  config := given.config
  json := given.json

inductive Setting where
  | mode
  | root
  | config
  deriving DecidableEq, Repr

/-- Takes the value of an option. A path may not be empty. -/
def take? (given : Given) (setting : Setting) (value : String) : Option Given :=
  match setting with
  | .mode => do
    guard given.mode.isNone
    return { given with mode := some (← Mode.ofName? value) }
  | .root => do
    guard (given.root.isNone && !value.isEmpty)
    return { given with root := some value }
  | .config => do
    guard (given.config.isNone && !value.isEmpty)
    return { given with config := some value }

end Given

inductive Argument where
  | setting (setting : Given.Setting)
  /-- An option with its value behind an equals sign. -/
  | assigned (setting : Given.Setting) (value : String)
  | json
  | quiet
  /-- Letters behind one dash, or a word that is written like one of them. -/
  | letters (letters : List Char)
  /-- No option may follow. -/
  | separator
  | unknown
  deriving DecidableEq, Repr

def settingOf? : List Char → Option Given.Setting
  | ['m', 'o', 'd', 'e'] => some .mode
  | ['r', 'o', 'o', 't'] => some .root
  | ['c', 'o', 'n', 'f', 'i', 'g'] => some .config
  | _ => none

def longArgument (text : List Char) : Argument :=
  let name := text.takeWhile (· != '=')
  match text.dropWhile (· != '=') with
  | _ :: value =>
    match settingOf? name with
    | some setting => .assigned setting (String.ofList value)
    | none => .unknown
  | [] =>
    match settingOf? name with
    | some setting => .setting setting
    | none =>
      if name.isEmpty then .separator
      else if name == "json".toList then .json
      else if name == "quiet".toList then .quiet
      else if name == "verbose".toList then .letters ['v']
      else if name == "version".toList then .letters ['V']
      else if name == "help".toList then .letters ['h']
      else .unknown

def Argument.ofText (text : String) : Argument :=
  match text.toList with
  | '-' :: '-' :: rest => longArgument rest
  | '-' :: c :: rest => .letters (c :: rest)
  | _ => .unknown

def isValue (text : String) : Bool :=
  match text.toList with
  | '-' :: _ :: _ => false
  | _ => true

/-- Letters one after the other; the answer is what they end the call with, or the options. -/
def takeLetters (given : Given) : List Char → Invocation ⊕ Given
  | [] => .inr given
  | 'v' :: rest =>
    if given.verbose then .inl .refused else takeLetters { given with verbose := true } rest
  | 'V' :: _ => .inl .version
  | 'h' :: _ => .inl .help
  | _ => .inl .refused

/-- Takes arguments from left to right; the first that is refused, or asks for the version or for
help, ends the call. -/
def parseFrom (given : Given) : List String → Invocation
  | [] => .run given.toOptions
  | argument :: rest =>
    match Argument.ofText argument with
    | .setting setting =>
      match rest with
      | value :: more =>
        if isValue value then
          match given.take? setting value with
          | some next => parseFrom next more
          | none => .refused
        else .refused
      | [] => .refused
    | .assigned setting value =>
      match given.take? setting value with
      | some next => parseFrom next rest
      | none => .refused
    | .json => if given.json then .refused else parseFrom { given with json := true } rest
    | .quiet => if given.quiet then .refused else parseFrom { given with quiet := true } rest
    | .letters letters =>
      match takeLetters given letters with
      | .inl invocation => invocation
      | .inr next => parseFrom next rest
    | .separator => if rest.isEmpty then .run given.toOptions else .refused
    | .unknown => .refused

def parse (arguments : List String) : Invocation :=
  parseFrom Given.nothing arguments

def versionText : String :=
  "tint 0.1.0\n"

def helpText : String :=
  "Replace hardcoded colors with design tokens\n\n" ++
    "Usage: tint [OPTIONS]\n\n" ++
    "Options:\n" ++
    "      --mode <MODE>      What the run may write: report, dry-run or apply\n" ++
    "      --root <ROOT>      Project root; every configured path is relative to it\n" ++
    "      --config <CONFIG>  Config file (defaults to <root>/tint.toml when present)\n" ++
    "      --json             Print the color map as JSON instead of the summary\n" ++
    "  -v, --verbose          Enable verbose logging\n" ++
    "      --quiet            Quiet mode: log only warnings/errors\n" ++
    "  -h, --help             Print help\n" ++
    "  -V, --version          Print version\n"

structure Response where
  code : Nat
  output : String
  /-- The message of a run that failed. -/
  errorLine : Option String
  tree : Tree

def printed (json : Bool) (execution : Execution) : String :=
  if json then execution.colorMap.toJson.pretty ++ "\n"
  else "\n".intercalate execution.summary ++ "\n"

/-- The code of a run that failed. Identifiers that cannot be written break it off. -/
def failureCode : ProjectError → Nat
  | .badRun (.unwritableWidth _) => 101
  | _ => 1

def failed (tree : Tree) (error : ProjectError) : Response :=
  let code := failureCode error
  ⟨code, "", if code == 1 then some error.message else none, tree⟩

def batchSize : Nat :=
  8

def runOptions (tree : Tree) (options : Options) : Response :=
  match Settings.load tree options.root options.config with
  | .error error => failed tree error
  | .ok settings =>
    match Project.execute batchSize tree options.root settings options.mode with
    | (written, .ok execution) => ⟨0, printed options.json execution, none, written⟩
    | (written, .error error) => failed written error

def respond (tree : Tree) : Invocation → Response
  | .run options => runOptions tree options
  | .version => ⟨0, versionText, none, tree⟩
  | .help => ⟨0, helpText, none, tree⟩
  | .refused => ⟨2, "", none, tree⟩

def call (tree : Tree) (arguments : List String) : Response :=
  respond tree (parse arguments)

end ColorTokens.CommandLine
