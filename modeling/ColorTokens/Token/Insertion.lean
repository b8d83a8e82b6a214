import ColorTokens.Json
import ColorTokens.Token.Naming
import ColorTokens.Token.Sheet

/-! Writing minted tokens: into the sheet's root block, as a sheet of their own, and as a palette
module of references. -/

set_option autoImplicit false

namespace ColorTokens

open ColorTokens.Text

/-- Colours by minted identifier. -/
abbrev MintedTokens := Std.TreeMap String String

namespace MintedTokens

def line (identifier color : String) : String :=
  "  " ++ identifier ++ ": " ++ color ++ ";\n"

def lines (minted : MintedTokens) : String :=
  String.join (minted.toList.map fun entry => line entry.1 entry.2)

def rootOpening : String :=
  ":root \x7b\n"

def rootClosing : String :=
  "\x7d\n"

def notice : String :=
  "/**\n * @generated by tint\n * Merge these tokens into the token file when ready.\n */\n"

def sheet (minted : MintedTokens) : String :=
  notice ++ "\n" ++ rootOpening ++ minted.lines ++ rootClosing

def pending (minted : MintedTokens) (sheet : List Char) : MintedTokens :=
  let declared := declaredIdentifiers sheet
  minted.filter fun identifier _ => !declared.contains identifier

def isSpaceOrTab (c : Char) : Bool :=
  c == ' ' || c == '\t'

def withNewline (text : List Char) : List Char :=
  if text.getLast? == some '\n' then text else text ++ ['\n']

/-- A block up to its closing brace, ready for one more declaration: the last one is ended by a
semicolon and the brace's indentation is gone. -/
def openedHead (block : RootBlock) : List Char :=
  let body := trimEnd block.head
  let unterminated :=
    block.opening + 1 < byteLength body && body.getLast?.any fun c => c != ';' && c != '{'
  let terminated :=
    -- Blanks behind the last declaration stay behind its semicolon.
    if unterminated then body ++ ';' :: dropWhileEnd isSpaceOrTab (block.head.drop body.length)
    else dropWhileEnd isSpaceOrTab block.head
  withNewline terminated

/-- What goes before a root block appended to a sheet: a blank line, unless the sheet is empty. -/
def appendedHead (sheet : List Char) : List Char :=
  if sheet.isEmpty then [] else withNewline sheet ++ ['\n']

/-- The sheet with the tokens it lacks declared at the end of its root block, or in a new root
block when it has none. -/
def insertInto (minted : MintedTokens) (sheet : String) : String :=
  let missing := minted.pending sheet.toList
  if missing.isEmpty then sheet
  else
    match rootBlock? sheet.toList with
    | some block =>
      String.ofList (openedHead block) ++ missing.lines ++ String.ofList block.tail
    | none =>
      String.ofList (appendedHead sheet.toList) ++ rootOpening ++ missing.lines ++ rootClosing

/-- References by palette key. Of two identifiers with one key the later one is kept. -/
def paletteEntries (minted : MintedTokens) (naming : Naming) : Std.TreeMap String String :=
  minted.keys.foldl (fun entries identifier =>
    entries.insert (naming.paletteKey identifier) (Naming.reference identifier)) ∅

def palette (minted : MintedTokens) (naming : Naming) : String :=
  let entries := (minted.paletteEntries naming).toList.map fun entry => (entry.1, Json.text entry.2)
  "// @generated by tint\nmodule.exports = " ++ (Json.object entries).pretty ++ ";\n"

end MintedTokens

end ColorTokens
