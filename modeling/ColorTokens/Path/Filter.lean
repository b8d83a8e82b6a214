import ColorTokens.Path
import ColorTokens.Path.Wildcard
import ColorTokens.Text.Blank

/-! Which paths are scanned: those with a listed ending that no exclusion covers. An exclusion is a
path, which covers itself and all below it, or a wildcard pattern. -/

set_option autoImplicit false

namespace ColorTokens.Path

open ColorTokens.Text

def dropHere : List Char → List Char
  | '.' :: '/' :: rest => dropHere rest
  | text => text

def isSlash (c : Char) : Bool :=
  c == '/'

def normalizeChars (text : List Char) : List Char :=
  let slashed := (trim text).map fun c => if c == '\\' then '/' else c
  let bare := dropWhileEnd isSlash ((dropHere slashed).dropWhile isSlash)
  if bare == ['.'] then [] else bare

def normalizeExclusion (entry : String) : String :=
  String.ofList (normalizeChars entry.toList)

def isPattern (entry : List Char) : Bool :=
  entry.contains '*' || entry.contains '?'

def isBelow (base path : List Char) : Bool :=
  path == base || (base.isPrefixOf path && (path.drop base.length).head? == some '/')

/-- Whether a wildcard pattern matches a whole path. -/
abbrev Matcher := List Char → List Char → Bool

/-- Whether one exclusion covers a path. An empty one covers none. -/
def covers (entry : String) (path : List Char) (isMatch : Matcher := Wildcard.isMatch) : Bool :=
  let normalized := normalizeChars entry.toList
  if normalized.isEmpty then false
  else if isPattern normalized then isMatch normalized path
  else isBelow normalized path

def isExcluded (exclude : List String) (path : String)
    (isMatch : Matcher := Wildcard.isMatch) : Bool :=
  exclude.any fun entry => covers entry path.toList isMatch

/-- Whether a path ends in one of the endings that are not blank. -/
def hasSuffix (suffixes : List String) (path : String) : Bool :=
  suffixes.any fun suffix =>
    let wanted := trim suffix.toList
    !wanted.isEmpty && wanted.isSuffixOf path.toList

def isAllowed (suffixes exclude : List String) (path : String)
    (isMatch : Matcher := Wildcard.isMatch) : Bool :=
  let slashed := forwardSlashes path
  hasSuffix suffixes slashed && !isExcluded exclude slashed isMatch

end ColorTokens.Path
