import ColorTokens.Diff.Hunk
import ColorTokens.Tokenization

/-! Patches: one unified diff for each changed file, in path order. -/

set_option autoImplicit false

namespace ColorTokens.Patch

def noChanges : String :=
  "# No source-file changes detected.\n"

/-- The diff of one file; empty if its lines stay the same. -/
def fileChunk (path : String) (change : ChangedFile) : String :=
  match Diff.between change.before change.after with
  | [] => ""
  | hunks => "--- " ++ path ++ "\n+++ " ++ path ++ "\n" ++ String.join hunks

def endsWithNewline (text : String) : Bool :=
  text.toList.getLast? == some '\n'

def append (patch chunk : String) : String :=
  if chunk.isEmpty then patch
  else
    let joined := (if patch.isEmpty then "" else patch ++ "\n") ++ chunk
    if endsWithNewline joined then joined else joined ++ "\n"

def render (changed : Std.TreeMap String ChangedFile) : String :=
  let patch := changed.foldl (fun patch path change => append patch (fileChunk path change)) ""
  if patch.isEmpty then noChanges else patch

end ColorTokens.Patch
