import ColorTokens.Tokenization

/-! Sessions: a set of files and a sheet that are edited and tokenized again and again. -/

set_option autoImplicit false

namespace ColorTokens

structure Session where
  /-- Texts by path. -/
  files : Std.TreeMap String String
  sheet : String

namespace Session

def empty : Session :=
  ⟨∅, ""⟩

def write (session : Session) (path text : String) : Session :=
  { session with files := session.files.insert path text }

/-- Appends to a file, which is made if there is none. -/
def append (session : Session) (path text : String) : Session :=
  session.write path (session.files.getD path "" ++ text)

def remove (session : Session) (path : String) : Session :=
  { session with files := session.files.erase path }

def setSheet (session : Session) (sheet : String) : Session :=
  { session with sheet }

def sourceFiles (session : Session) : List SourceFile :=
  session.files.toList.map fun entry => SourceFile.ofPath entry.1 entry.2

def preview (tokenizer : Tokenizer) (session : Session) : Except RunError Outcome :=
  tokenizer.run session.sourceFiles session.sheet

def accept (session : Session) (outcome : Outcome) : Session where
  files := outcome.changed.foldl (fun files path change => files.insert path change.after)
    session.files
  sheet := outcome.updatedSheet session.sheet

def apply (tokenizer : Tokenizer) (session : Session) : Except RunError (Outcome × Session) := do
  let outcome ← session.preview tokenizer
  return (outcome, session.accept outcome)

end Session

end ColorTokens
