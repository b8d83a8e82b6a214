import ColorTokens.Occurrence.Scan
import ColorTokens.Splice
import ColorTokens.Token.Assignment
import ColorTokens.Token.Insertion

/-! Tokenizing a set of files: every file is scanned, one assignment is made for the colours of
all of them, and each literal is replaced by a reference to its token. -/

set_option autoImplicit false

namespace ColorTokens

open ColorTokens.Source

structure SourceFile where
  path : String
  text : String
  kind : Kind
  deriving DecidableEq, Repr

def SourceFile.ofPath (path text : String) : SourceFile :=
  ⟨path, text, Kind.ofPath path⟩

structure ScannedFile where
  path : String
  text : String
  occurrences : List Occurrence
  deriving DecidableEq, Repr

structure ChangedFile where
  before : String
  after : String
  deriving DecidableEq, Repr

structure Outcome where
  filesScanned : Nat
  /-- By path, then by span. -/
  occurrences : List Occurrence
  assignment : Assignment
  /-- The files whose text changes, by path. -/
  changed : Std.TreeMap String ChangedFile

inductive RunError where
  | badNaming (flaw : Naming.Flaw)
  | badRules (flaw : ScanRules.Flaw)
  | badAssignment (error : AssignmentError)
  | missingToken (color : String)
  | duplicatePath (path : String)
  /-- Identifiers would be padded to more digits than can be written. -/
  | unwritableWidth (width : Nat)
  deriving DecidableEq, Repr

def RunError.message : RunError → String
  | .badNaming flaw => "Token error: " ++ flaw.message
  | .badRules flaw => "Scanner error: Invalid configuration: " ++ flaw.message
  | .badAssignment error => "Token error: " ++ error.message
  | .missingToken color => "No token assigned to color " ++ color
  | .duplicatePath path => "Duplicate input path " ++ path
  | .unwritableWidth width => "Identifiers of width " ++ toString width ++ " cannot be written"

def replacementFor (tokens : Std.TreeMap String String) (hit : Hit) :
    Except RunError Replacement :=
  match tokens.get? hit.color with
  | some identifier => .ok ⟨hit.span, Naming.reference identifier⟩
  | none => .error (.missingToken hit.color)

def substitute (text : String) (hits : List Hit) (tokens : Std.TreeMap String String) :
    Except RunError String := do
  return splice text (← hits.mapM (replacementFor tokens))

namespace Outcome

/-- The length of a list when runs of equal neighbours count once. -/
def countRuns : List String → Nat
  | [] => 0
  | [_] => 1
  | a :: b :: rest => (if a == b then 0 else 1) + countRuns (b :: rest)

def filesWithMatches (outcome : Outcome) : Nat :=
  countRuns (outcome.occurrences.map (·.file))

def updatedSheet (outcome : Outcome) (sheet : String) : String :=
  MintedTokens.insertInto outcome.assignment.generated sheet

end Outcome

/-- Rules and naming that are free of flaws. -/
structure Tokenizer where
  rules : ScanRules
  naming : Naming

namespace Tokenizer

/-- The naming is checked before the rules. -/
def make (rules : ScanRules) (naming : Naming) : Except RunError Tokenizer :=
  match naming.flaw?, rules.flaw? with
  | some flaw, _ => .error (.badNaming flaw)
  | none, some flaw => .error (.badRules flaw)
  | none, none => .ok ⟨rules, naming⟩

def scanFile (tokenizer : Tokenizer) (file : SourceFile) : ScannedFile :=
  ⟨file.path, file.text, scan tokenizer.rules file.path file.kind file.text⟩

/-- The files by path. The first file whose path came before is refused. -/
def arrange (files : List ScannedFile) : Except RunError (Std.TreeMap String ScannedFile) :=
  files.foldlM (fun arranged file =>
    if arranged.contains file.path then .error (.duplicatePath file.path)
    else .ok (arranged.insert file.path file)) ∅

def change? (tokens : Std.TreeMap String String) (file : ScannedFile) :
    Except RunError (Option (String × ChangedFile)) := do
  let after ← substitute file.text (file.occurrences.map (·.toHit)) tokens
  return if after == file.text then none else some (file.path, ⟨file.text, after⟩)

/-- Assigns tokens across all files and replaces the literals of each. -/
def finish (tokenizer : Tokenizer) (scanned : List ScannedFile) (sheet : TokenSheet) :
    Except RunError Outcome := do
  let files := (← arrange scanned).values
  let occurrences := files.flatMap (·.occurrences)
  let some assignment :=
      Assignment.assign? (occurrences.map (·.color)) sheet.index sheet.reserved tokenizer.naming
    | throw (.unwritableWidth tokenizer.naming.width)
  (assignment.verify sheet.reserved).mapError .badAssignment
  let changes ← files.mapM (change? assignment.tokens)
  return {
    filesScanned := files.length
    occurrences
    assignment
    changed := Std.TreeMap.ofList (changes.filterMap id) }

def run (tokenizer : Tokenizer) (files : List SourceFile) (sheet : String) :
    Except RunError Outcome :=
  tokenizer.finish (files.map tokenizer.scanFile) (TokenSheet.ofText sheet)

end Tokenizer

end ColorTokens
