import ColorTokens.Ignore.Rules
import ColorTokens.Path.Filter
import ColorTokens.Settings

/-! Finding the files to scan below a source root. -/

set_option autoImplicit false

namespace ColorTokens

structure Target where
  path : String
  /-- The path below the project root, with forward slashes. -/
  relative : String
  deriving DecidableEq, Repr

/-- What is taken from elsewhere to find files: a search of a tree, and a reading of wildcards. -/
structure Finder where
  /-- The paths that a search from a path comes upon, as they come. -/
  search : Tree → String → List String
  isMatch : Path.Matcher

namespace Discovery

/-- Whether a search from a directory comes to the entry that `names` lead to: neither it nor one
on the way is passed over. -/
def isReached (policy : Ignore.Policy) (start : Location) (names : List String)
    (isDirectory : Bool) : Bool :=
  (List.range names.length).all fun count =>
    -- Whatever stands on the way to an entry is a directory.
    !policy.skips (start ++ names.take (count + 1)) (isDirectory || count + 1 < names.length)

def reachedBelow (tree : Tree) (start : Location) : List (List String) :=
  let policy := Ignore.Policy.ofTree tree
  tree.entries.toList.filterMap fun (location, entry) =>
    let names := location.drop start.length
    if start.isPrefixOf location && !names.isEmpty &&
        isReached policy start names (entry == .directory) then
      some names
    else none

/-- The start of a search comes first, whatever it is. -/
def reached (tree : Tree) (path : String) : List String :=
  match tree.lookup? path with
  | some .directory =>
    match tree.locate? path with
    | some start => path :: (reachedBelow tree start).map fun names => names.foldl Path.join path
    | none => []
  | some (.file _) => [path]
  | none => []

/-- The search of the program, which heeds ignore files, and its wildcards. -/
def standard : Finder where
  search := reached
  isMatch := Path.Wildcard.isMatch

def targetLe (a b : Target) : Bool :=
  (compare a.relative b.relative).isLE

/-- The files to scan, ordered by their path below the project root. -/
def targets (tree : Tree) (paths : ProjectPaths) (settings : Settings)
    (finder : Finder := standard) : List Target :=
  let files := (finder.search tree paths.sourceRoot).filter tree.isFile
  let found := files.map fun path => ⟨path, paths.relative path⟩
  let allowed := found.filter fun target : Target =>
    Path.isAllowed settings.suffixes settings.exclude target.relative finder.isMatch
  allowed.mergeSort targetLe

end Discovery

end ColorTokens
