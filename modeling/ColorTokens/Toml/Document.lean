import ColorTokens.Toml.Scalar

/-! TOML documents. Headers and entries are read one after the other and then laid out as nested
tables; a table or a key may be given only once. -/

set_option autoImplicit false

namespace ColorTokens.Toml

/-- A table under construction, or what an entry gave. -/
inductive Node where
  | leaf (data : Data)
  /-- A table that only longer headers or dotted keys named is implied. -/
  | table (implied dotted : Bool) (entries : List (String × Node))
  /-- Tables of one array, the last one first. -/
  | series (tables : List (List (String × Node)))

abbrev Entries := List (String × Node)

def Entries.put (entries : Entries) (key : String) (node : Node) : Entries :=
  match entries with
  | [] => [(key, node)]
  | (name, old) :: rest =>
    if name == key then (key, node) :: rest else (name, old) :: Entries.put rest key node

/-- Runs a change on the entries below a header path, making the tables that are missing. -/
def Entries.below (entries : Entries) (path : List String)
    (change : Entries → Option Entries) : Option Entries :=
  match path with
  | [] => change entries
  | key :: more =>
    match entries.lookup key with
    | none => do return entries.put key (.table true false (← Entries.below [] more change))
    | some (.table implied dotted inner) => do
      return entries.put key (.table implied dotted (← Entries.below inner more change))
    -- A path that leads through an array goes on in the table added last.
    | some (.series (last :: earlier)) => do
      return entries.put key (.series ((← Entries.below last more change) :: earlier))
    | some (.series []) | some (.leaf _) => none

/-- A table header. Only a table that other headers implied may be opened later. -/
def Entries.openTable (key : String) (entries : Entries) : Option Entries :=
  match entries.lookup key with
  | none => some (entries.put key (.table false false []))
  | some (.table true false inner) => some (entries.put key (.table false false inner))
  | some _ => none

def Entries.extendSeries (key : String) (entries : Entries) : Option Entries :=
  match entries.lookup key with
  | none => some (entries.put key (.series [[]]))
  | some (.series tables) => some (entries.put key (.series ([] :: tables)))
  | some _ => none

/-- An entry under a dotted key. The tables on the way may only stem from dotted keys. -/
def Entries.assign (path : List String) (data : Data) (entries : Entries) : Option Entries :=
  match path with
  | [] => none
  | [key] =>
    if (entries.lookup key).isSome then none else some (entries.put key (.leaf data))
  | key :: more =>
    match entries.lookup key with
    | none => do return entries.put key (.table true true (← Entries.assign more data []))
    | some (.table true dotted inner) => do
      -- A table that headers imply may be passed through but not added to.
      guard (dotted || 1 < more.length)
      return entries.put key (.table true dotted (← Entries.assign more data inner))
    | some _ => none

mutual

def Node.toData : Node → Data
  | .leaf data => data
  | .table _ _ entries => .table (entriesData entries)
  | .series tables => .list (seriesData tables).reverse

def entriesData : List (String × Node) → List (String × Data)
  | [] => []
  | (key, node) :: rest => (key, node.toData) :: entriesData rest

def seriesData : List (List (String × Node)) → List Data
  | [] => []
  | entries :: rest => .table (entriesData entries) :: seriesData rest

end

def isBareKeyChar (c : Char) : Bool :=
  c.isAlphanum || c == '-' || c == '_'

def simpleKey : Reader String := do
  let fuel := (← get).length
  match ← peek with
  | some '"' => expect '"'; return String.ofList (← lineString '"' fuel)
  | some '\'' => expect '\''; return String.ofList (← lineString '\'' fuel)
  | _ =>
    let name ← takeWhile isBareKeyChar
    guard !name.isEmpty
    return String.ofList name

def dottedKey : Nat → Reader (List String)
  | 0 => failure
  | fuel + 1 => do
    let key ← simpleKey
    skipSpace
    if ← accept ['.'] then
      skipSpace
      return key :: (← dottedKey fuel)
    else
      return [key]

def skipComment : Reader Unit := do
  if ← accept ['#'] then
    let _ ← takeWhile isPlain

def skipLines : Nat → Reader Unit
  | 0 => failure
  | fuel + 1 => do
    skipSpace
    skipComment
    if ← acceptNewline then skipLines fuel

mutual

def value : Nat → Reader Data
  | 0 => failure
  | fuel + 1 => do
    match ← peek with
    | some '"' => return .text (← string '"')
    | some '\'' => return .text (← string '\'')
    | some '[' => expect '['; return .list (← items fuel)
    | some '\x7b' =>
      expect '\x7b'
      skipSpace
      if ← accept ['\x7d'] then return .table []
      return .table (entriesData (← inlineEntries fuel []))
    | _ => bareScalar

def items : Nat → Reader (List Data)
  | 0 => failure
  | fuel + 1 => do
    skipLines (fuel + 1)
    if ← accept [']'] then return []
    let item ← value fuel
    skipLines (fuel + 1)
    if ← accept [','] then return item :: (← items fuel)
    expect ']'
    return [item]

/-- The rest of an inline table, which has at least one more entry. -/
def inlineEntries : Nat → Entries → Reader Entries
  | 0, _ => failure
  | fuel + 1, entries => do
    skipSpace
    let path ← dottedKey (fuel + 1)
    expect '='
    skipSpace
    let data ← value fuel
    let some extended := entries.assign path data | failure
    skipSpace
    if ← accept [','] then inlineEntries fuel extended
    else
      expect '\x7d'
      return extended

end

inductive Statement where
  | header (path : List String)
  | seriesHeader (path : List String)
  | entry (path : List String) (data : Data)

def statement : Reader Statement := do
  let fuel := (← get).length + 1
  if ← accept ['[', '['] then
    skipSpace
    let path ← dottedKey fuel
    expect ']'
    expect ']'
    return .seriesHeader path
  else if ← accept ['['] then
    skipSpace
    let path ← dottedKey fuel
    expect ']'
    return .header path
  else
    let path ← dottedKey fuel
    expect '='
    skipSpace
    return .entry path (← value fuel)

def statements : Nat → Reader (List Statement)
  | 0 => failure
  | fuel + 1 => do
    skipLines (fuel + 1)
    if (← get).isEmpty then return []
    let found ← statement
    skipSpace
    skipComment
    let ended ← acceptNewline
    -- Nothing else may stand on the line of a statement.
    guard (ended || (← get).isEmpty)
    return found :: (← statements fuel)

/-- Adds a statement to the document; entries go below the last header. -/
def Statement.place (state : List String × Entries) : Statement → Option (List String × Entries)
  | .header path => do
    let key ← path.getLast?
    return (path, ← state.2.below path.dropLast (Entries.openTable key))
  | .seriesHeader path => do
    let key ← path.getLast?
    return (path, ← state.2.below path.dropLast (Entries.extendSeries key))
  | .entry path data => do
    return (state.1, ← state.2.below state.1 (Entries.assign path data))

/-- The table that a document writes. A byte order mark in front is allowed. -/
def parse? (document : String) : Option Data := do
  let text :=
    match document.toList with
    | '\uFEFF' :: rest => rest
    | text => text
  let (found, _) ← (statements (text.length + 1)).run text
  let (_, entries) ← found.foldlM Statement.place ([], [])
  return .table (entriesData entries)

end ColorTokens.Toml
