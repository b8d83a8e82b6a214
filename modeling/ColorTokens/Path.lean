/-! Paths as texts. The slash separates components, and a path that begins with one is absolute.
Empty components and single dots do not count, but for a dot that begins a relative path. -/

set_option autoImplicit false

namespace ColorTokens.Path

inductive Component where
  | root
  | current
  | parent
  | name (text : String)
  deriving DecidableEq, Repr

def isAbsolute (path : String) : Bool :=
  path.toList.head? == some '/'

def pieces : List Char → List (List Char)
  | [] => [[]]
  | c :: rest =>
    if c == '/' then
      [] :: pieces rest
    else
      match pieces rest with
      | piece :: more => (c :: piece) :: more
      | [] => [[c]]

def Component.ofPiece? (piece : List Char) : Option Component :=
  if piece.isEmpty || piece == ['.'] then none
  else if piece == ['.', '.'] then some .parent
  else some (.name (String.ofList piece))

/-- The component that only the beginning of a path can have. -/
def Component.leading? : List Char → Option Component
  | '/' :: _ => some .root
  | ['.'] => some .current
  | '.' :: '/' :: _ => some .current
  | _ => none

def components (path : String) : List Component :=
  (Component.leading? path.toList).toList ++ (pieces path.toList).filterMap Component.ofPiece?

/-- Whether a text is a component by itself. -/
def isName (text : String) : Bool :=
  components text == [.name text]

/-- Appends a path to a base. An absolute path replaces the base. -/
def join (base path : String) : String :=
  -- An empty base would make the path absolute.
  if isAbsolute path || base.isEmpty then path
  else if base.toList.getLast? == some '/' then base ++ path
  else base ++ "/" ++ path

def trimLeading : List Char → List Char
  | '/' :: rest => trimLeading rest
  | ['.'] => []
  | '.' :: '/' :: rest => trimLeading rest
  | text => text

def trimTrailingReversed : List Char → List Char
  | '/' :: rest => trimTrailingReversed rest
  | '.' :: '/' :: rest => trimTrailingReversed rest
  | text => text

/-- Drops the slashes and single dots that a text ends with; the root stays. -/
def trimTrailing (text : List Char) : List Char :=
  let trimmed := (trimTrailingReversed text.reverse).reverse
  if text.head? == some '/' && trimmed.isEmpty then ['/'] else trimmed

def dropComponent (component : Component) (text : List Char) : List Char :=
  match component with
  -- A slash or a dot at the beginning; all other components end at the next slash.
  | .root | .current => text.drop 1
  | .parent | .name _ => (trimLeading text).dropWhile (· != '/')

/-- What stands behind the first components of a text. Without any of them the text keeps its
beginning. -/
def dropComponents (front : List Component) (text : List Char) : List Char :=
  if front.isEmpty then text
  else trimLeading (front.foldl (fun text component => dropComponent component text) text)

/-- The part of a path below a base that its components begin with, as written. -/
def below? (base path : String) : Option String :=
  let front := components base
  if front.isPrefixOf (components path) then
    some (String.ofList (trimTrailing (dropComponents front path.toList)))
  else
    none

/-- The path without its last component. The root and the empty path have none. -/
def parent? (path : String) : Option String :=
  match (components path).getLast? with
  | none | some .root => none
  | some _ =>
    let upToLast := ((trimTrailing path.toList).reverse.dropWhile (· != '/')).reverse
    some (String.ofList (trimTrailing upToLast))

def fileName? (path : String) : Option String :=
  match (components path).getLast? with
  | some (.name text) => some text
  | _ => none

/-- The text behind the last dot of the file name, unless the name begins with that dot. -/
def extension? (path : String) : Option String := do
  let reversed := (← fileName? path).toList.reverse
  guard (reversed.contains '.')
  let stem := (reversed.dropWhile (· != '.')).drop 1
  guard !stem.isEmpty
  return String.ofList (reversed.takeWhile (· != '.')).reverse

def forwardSlashes (path : String) : String :=
  String.ofList (path.toList.map fun c => if c == '\\' then '/' else c)

end ColorTokens.Path
