import ColorTokens.Ignore.Pattern
import ColorTokens.Project.Tree
import ColorTokens.Text.Blank

/-! Ignore files. Each line is a rule about paths below the file's directory; of the rules that
match a path the last one decides. -/

set_option autoImplicit false

namespace ColorTokens.Ignore

open ColorTokens.Text

structure Rule where
  tokens : List Token
  /-- The rule keeps what an earlier one ignores. -/
  keeps : Bool
  directoriesOnly : Bool

inductive Verdict where
  | ignored
  | kept
  deriving DecidableEq, Repr

namespace Rule

/-- A line without its trailing blanks, unless a backslash keeps the last one. -/
def trimLine (line : List Char) : List Char :=
  if ['\\', ' '].isSuffixOf line then line else trimEnd line

/-- Takes off the sign in front: whether the rule keeps, whether it is bound to its directory, and
the pattern. A backslash makes a sign part of the pattern. -/
def splitSign : List Char → Bool × Bool × List Char
  | '\\' :: '!' :: rest => (false, false, '!' :: rest)
  | '\\' :: '#' :: rest => (false, false, '#' :: rest)
  | '!' :: '/' :: rest => (true, true, rest)
  | '!' :: rest => (true, false, rest)
  | '/' :: rest => (false, true, rest)
  | rest => (false, false, rest)

def splitSlash (pattern : List Char) : Bool × List Char :=
  match pattern.reverse with
  | '/' :: '\\' :: rest => (true, rest.reverse)
  | '/' :: rest => (true, rest.reverse)
  | _ => (false, pattern)

def spansDirectories (pattern : List Char) : Bool :=
  "**/".toList.isPrefixOf pattern || pattern == "**".toList

/-- The pattern for the whole path: one that names no directory matches at any depth, and one
that ends in two stars only what is inside. -/
def fullPattern (bound : Bool) (pattern : List Char) : List Char :=
  let placed :=
    if bound || pattern.contains '/' || spansDirectories pattern then pattern
    else "**/".toList ++ pattern
  if "/**".toList.isSuffixOf placed then placed ++ "/*".toList else placed

/-- The rule of a line. Comments, blank lines and malformed patterns give none. -/
def ofLine? (line : List Char) : Option Rule := do
  guard (line.head? != some '#')
  let trimmed := trimLine line
  guard !trimmed.isEmpty
  let (keeps, bound, signed) := splitSign trimmed
  let (directoriesOnly, pattern) := splitSlash signed
  let tokens ← tokens? (fullPattern bound pattern)
  return ⟨tokens, keeps, directoriesOnly⟩

def verdict (rule : Rule) : Verdict :=
  if rule.keeps then .kept else .ignored

def applies (rule : Rule) (path : List UInt8) (isDirectory : Bool) : Bool :=
  (isDirectory || !rule.directoriesOnly) && isMatch rule.tokens path

end Rule

def splitLines : List Char → List (List Char)
  | [] => [[]]
  | c :: rest =>
    match splitLines rest with
    | line :: more => if c == '\n' then [] :: line :: more else (c :: line) :: more
    | [] => [[c]]

def splitByteLines : List UInt8 → List (List UInt8)
  | [] => [[]]
  | byte :: rest =>
    match splitByteLines rest with
    | line :: more => if byte == 10 then [] :: line :: more else (byte :: line) :: more
    | [] => [[byte]]

/-- The lines as far as they can be decoded. -/
def decodeLines : List (List UInt8) → List (List Char)
  | [] => []
  | line :: rest =>
    match String.fromUTF8? line.toByteArray with
    | some text => text.toList :: decodeLines rest
    | none => []

def linesOf : Content → List (List Char)
  | .text value => splitLines value.toList
  | .binary bytes => decodeLines (splitByteLines bytes)

def dropMark (line : List Char) : List Char :=
  line.dropWhile (· == '\uFEFF')

/-- The rules of a file, the last one first. A byte order mark in front is passed over. -/
def rulesOf (content : Content) : List Rule :=
  let lines := match linesOf content with
    | first :: rest => dropMark first :: rest
    | [] => []
  (lines.filterMap Rule.ofLine?).reverse

abbrev RuleMap := Std.TreeMap Location (List Rule)

/-- The rules of all files that some names lead to from a directory. -/
def RuleMap.ofTree (tree : Tree) (names : List String) : RuleMap :=
  tree.files.foldl (fun rules file =>
    if names.isSuffixOf file.1 then
      rules.insert (file.1.take (file.1.length - names.length)) (rulesOf file.2)
    else rules) ∅

def directoriesAbove (location : Location) : List Location :=
  (List.range location.length).reverse.map fun count => location.take count

def relativeBytes (names : List String) : List UInt8 :=
  textBytes ("/".intercalate names)

/-- What the rules say of a location. A nearer file is asked first. -/
def RuleMap.verdict? (rules : RuleMap) (location : Location) (isDirectory : Bool) :
    Option Verdict :=
  (directoriesAbove location).findSome? fun directory =>
    let path := relativeBytes (location.drop directory.length)
    -- Rules are kept with the last one first, so the first that applies decides.
    ((rules.getD directory []).find? fun rule => rule.applies path isDirectory).map Rule.verdict

/-- The kinds of ignore files, those that are asked first in front. -/
structure Policy where
  /-- Files that only searches heed. -/
  search : RuleMap
  /-- Files that the version control tracks. -/
  tracked : RuleMap
  /-- Files that the version control keeps to itself. -/
  untracked : RuleMap

namespace Policy

def searchNames : List String :=
  [".ignore"]

def trackedNames : List String :=
  [".gitignore"]

def untrackedNames : List String :=
  [".git", "info", "exclude"]

def ofTree (tree : Tree) : Policy :=
  ⟨RuleMap.ofTree tree searchNames, RuleMap.ofTree tree trackedNames,
    RuleMap.ofTree tree untrackedNames⟩

def verdict? (policy : Policy) (location : Location) (isDirectory : Bool) : Option Verdict :=
  policy.search.verdict? location isDirectory <|> policy.tracked.verdict? location isDirectory <|>
    policy.untracked.verdict? location isDirectory

def isHidden (location : Location) : Bool :=
  location.getLast?.any fun name => name.toList.head? == some '.'

/-- Whether a search passes over an entry. A hidden entry is seen only if a rule keeps it. -/
def skips (policy : Policy) (location : Location) (isDirectory : Bool) : Bool :=
  match policy.verdict? location isDirectory with
  | some .ignored => true
  | some .kept => false
  | none => isHidden location

end Policy

end ColorTokens.Ignore
