import ColorTokens.CommandLine

/-! The program: reads the parts of the file system that a call can look at into a tree, answers
the call on it, and writes the changes back. -/

set_option autoImplicit false

namespace ColorTokens.Program

def absolutePath (location : Location) : String :=
  "/" ++ "/".intercalate location

/-- The content of a file; one that cannot be read holds no text. -/
def readContent (location : Location) : IO Content := do
  try
    return Content.ofBytes (← IO.FS.readBinFile (absolutePath location)).toList
  catch _ =>
    return .binary []

def readEntry? (location : Location) : IO (Option Entry) := do
  let path := (← IO.currentDir) / absolutePath location
  if ← path.isDir then return some .directory
  if ← path.pathExists then return some (.file (← readContent location))
  return none

def loadEntry (tree : Tree) (location : Location) : IO Tree := do
  match ← readEntry? location with
  | some entry => return tree.put location entry
  | none => return tree

def loadDirectory (tree : Tree) (location : Location) : IO Tree := do
  let mut tree ← loadEntry tree location
  if tree.isDirectoryAt location then
    for names in [Ignore.Policy.searchNames, Ignore.Policy.trackedNames,
        Ignore.Policy.untrackedNames] do
      tree ← loadEntry tree (location ++ names)
  return tree

/-- Adds everything below a directory. Links and special files are left out. -/
partial def loadBelow (tree : Tree) (location : Location) : IO Tree := do
  let directory := (← IO.currentDir) / absolutePath location
  let mut tree := tree
  for child in ← directory.readDir do
    let below := location ++ [child.fileName]
    match (← child.path.symlinkMetadata).type with
    | .dir => tree ← loadBelow (tree.put below .directory) below
    | .file => tree := tree.put below (.file (← readContent below))
    | _ => pure ()
  return tree

def loadAlong : Tree → Location → List Path.Component → IO (Tree × Location)
  | tree, here, [] => return (tree, here)
  | tree, _, .root :: rest => loadAlong tree [] rest
  | tree, here, .current :: rest => loadAlong tree here rest
  | tree, here, .parent :: rest => loadAlong tree here.dropLast rest
  | tree, here, .name name :: rest => do
    loadAlong (← loadDirectory tree (here ++ [name])) (here ++ [name]) rest

def loadPath (tree : Tree) (path : String) : IO Tree := do
  return (← loadAlong tree tree.workingDirectory (Path.components path)).1

def loadAll (tree : Tree) (path : String) : IO Tree := do
  let (tree, location) ← loadAlong tree tree.workingDirectory (Path.components path)
  if tree.isDirectoryAt location then loadBelow tree location else return tree

def loadStart : IO Tree := do
  let path := (← IO.currentDir).toString
  let (tree, location) ← loadAlong Tree.empty [] (Path.components path)
  return tree.enter location

/-- All that a run looks at: the settings file, the sources, the sheet, and whatever stands where
files are to be written. -/
def loadProject (options : CommandLine.Options) : IO Tree := do
  let file := options.config.getD Settings.fileName
  let tree ← loadPath (← loadStart) (Path.join options.root file)
  match Settings.load tree options.root options.config with
  | .error _ => return tree
  | .ok settings =>
    let paths := ProjectPaths.resolve options.root settings
    let tree ← loadAll tree paths.sourceRoot
    [paths.tokenFile, paths.reportJson, paths.reportMarkdown, paths.reportPatch,
      paths.generatedFile].append paths.paletteFile.toList |>.foldlM loadPath tree

def save (before after : Tree) : IO Unit := do
  for (location, entry) in after.entries.toList do
    if before.entry? location != some entry then
      match entry with
      | .directory => IO.FS.createDirAll (absolutePath location)
      | .file (.text text) => IO.FS.writeFile (absolutePath location) text
      | .file (.binary bytes) => IO.FS.writeBinFile (absolutePath location) bytes.toByteArray

def run (arguments : List String) : IO UInt32 := do
  let invocation := CommandLine.parse arguments
  let tree ← match invocation with
    | .run options => loadProject options
    | _ => pure Tree.empty
  let response := CommandLine.respond tree invocation
  save tree response.tree
  IO.print response.output
  if let some message := response.errorLine then IO.eprintln ("Error: " ++ message)
  return response.code.toUInt32

end ColorTokens.Program

def main (arguments : List String) : IO UInt32 :=
  ColorTokens.Program.run arguments
