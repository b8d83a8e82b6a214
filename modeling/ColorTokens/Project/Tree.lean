import Std.Data.TreeMap
import ColorTokens.Path

/-! Directory trees held in memory, and what reading, making directories and writing do to them.
Entries are kept by their location, the names that lead to them from the top. -/

set_option autoImplicit false

namespace ColorTokens

/-- What a file holds: a text, or bytes that encode none. -/
inductive Content where
  | text (value : String)
  | binary (bytes : List UInt8)
  deriving DecidableEq

namespace Content

def ofBytes (bytes : List UInt8) : Content :=
  match String.fromUTF8? bytes.toByteArray with
  | some value => .text value
  | none => .binary bytes

def text? : Content → Option String
  | .text value => some value
  | .binary _ => none

end Content

inductive Entry where
  | file (content : Content)
  | directory
  deriving DecidableEq

/-- Names from the top of a tree. -/
abbrev Location := List String

/-- Whether a location can be written as a path, each of its names a component by itself. -/
def Location.isNamed (location : Location) : Bool :=
  location.all Path.isName

structure Tree where
  /-- The top itself is a directory that is not listed. -/
  entries : Std.TreeMap Location Entry
  /-- Where relative paths start. -/
  workingDirectory : Location
  named : ∀ location ∈ entries, location.isNamed = true
  startNamed : workingDirectory.isNamed = true

namespace Tree

def empty : Tree where
  entries := ∅
  workingDirectory := []
  named := fun _ member => absurd member Std.TreeMap.not_mem_emptyc
  startNamed := rfl

def entry? (tree : Tree) (location : Location) : Option Entry :=
  if location.isEmpty then some .directory else tree.entries.get? location

def isDirectoryAt (tree : Tree) (location : Location) : Bool :=
  tree.entry? location == some .directory

/-- Sets what is at a location. Nothing can be where no path leads. -/
def put (tree : Tree) (location : Location) (entry : Entry) : Tree :=
  if proper : location.isNamed = true then
    { tree with
      entries := tree.entries.insert location entry
      named := fun other member => (Std.TreeMap.mem_insert.mp member).elim
        (fun same => Std.LawfulEqCmp.eq_of_compare same ▸ proper) (tree.named other) }
  else tree

def erase (tree : Tree) (location : Location) : Tree :=
  { tree with
    entries := tree.entries.erase location
    named := fun other member => tree.named other (Std.TreeMap.mem_of_mem_erase member) }

/-- Makes a location the one where relative paths start. -/
def enter (tree : Tree) (location : Location) : Tree :=
  if proper : location.isNamed = true then
    { tree with workingDirectory := location, startNamed := proper }
  else tree

/-- Follows components from a location. Only a directory can be left for another place. -/
def follow (tree : Tree) : Location → List Path.Component → Option Location
  | here, [] => some here
  | _, .root :: rest => follow tree [] rest
  | here, .current :: rest => follow tree here rest
  | here, .parent :: rest =>
    if tree.isDirectoryAt here then follow tree here.dropLast rest else none
  | here, .name name :: rest =>
    if tree.isDirectoryAt here then follow tree (here ++ [name]) rest else none

/-- Where a path leads, whether or not something is there. -/
def locate? (tree : Tree) (path : String) : Option Location :=
  if path.isEmpty || path.toList.contains '\x00' then none
  else tree.follow tree.workingDirectory (Path.components path)

/-- Whether a path is written so that only a directory can be meant. -/
def namesDirectory (path : String) : Bool :=
  match (Path.pieces path.toList).getLast? with
  | some piece => piece.isEmpty || piece == ['.']
  | none => false

def lookup? (tree : Tree) (path : String) : Option Entry := do
  let entry ← tree.entry? (← tree.locate? path)
  guard (entry == .directory || !namesDirectory path)
  return entry

def isDirectory (tree : Tree) (path : String) : Bool :=
  tree.lookup? path == some .directory

def content? (tree : Tree) (path : String) : Option Content :=
  match tree.lookup? path with
  | some (.file content) => some content
  | _ => none

def isFile (tree : Tree) (path : String) : Bool :=
  (tree.content? path).isSome

/-- The text of a file; there is none if its bytes encode no text. -/
def text? (tree : Tree) (path : String) : Option String :=
  (tree.content? path).bind Content.text?

/-- Makes the directories that are missing on the way from a location. Those made before a file
stands in the way stay, and the answer says whether there was none. -/
def makeFrom (tree : Tree) : Location → List Path.Component → Tree × Bool
  | _, [] => (tree, true)
  | _, .root :: rest => makeFrom tree [] rest
  | here, .current :: rest => makeFrom tree here rest
  | here, .parent :: rest => makeFrom tree here.dropLast rest
  | here, .name name :: rest =>
    match tree.entry? (here ++ [name]) with
    | some .directory => makeFrom tree (here ++ [name]) rest
    | some (.file _) => (tree, false)
    | none => makeFrom (tree.put (here ++ [name]) .directory) (here ++ [name]) rest

def makeDirectories (tree : Tree) (path : String) : Tree × Bool :=
  if path.toList.contains '\x00' then (tree, false)
  else tree.makeFrom tree.workingDirectory (Path.components path)

inductive WriteError where
  /-- A directory could not be made. -/
  | uncreatable (directory : String)
  | unwritable (path : String)
  deriving DecidableEq, Repr

def putText (tree : Tree) (path text : String) : Tree × Except WriteError Unit :=
  match tree.locate? path with
  | some location =>
    let taken := tree.isDirectoryAt location || !tree.isDirectoryAt location.dropLast
    -- A file cannot take the place of a directory, nor stand in anything else.
    if taken || namesDirectory path then
      (tree, .error (.unwritable path))
    else
      (tree.put location (.file (.text text)), .ok ())
  | none => (tree, .error (.unwritable path))

def writeText (tree : Tree) (path text : String) : Tree × Except WriteError Unit :=
  match Path.parent? path with
  | some directory =>
    match tree.makeDirectories directory with
    | (made, true) => made.putText path text
    | (made, false) => (made, .error (.uncreatable directory))
  | none => tree.putText path text

def add (tree : Tree) (location : Location) (entry : Entry) : Tree :=
  let above := (List.range location.length).tail.map fun count => location.take count
  (above.foldl (fun tree directory => tree.put directory .directory) tree).put location entry

def files (tree : Tree) : List (Location × Content) :=
  tree.entries.toList.filterMap fun
    | (location, .file content) => some (location, content)
    | (_, .directory) => none

/-- The files that were not there before or held something else. -/
def writtenSince (before after : Tree) : List (Location × Content) :=
  after.files.filter fun file => before.entry? file.1 != some (.file file.2)

end Tree

end ColorTokens
