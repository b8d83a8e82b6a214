/-! Byte offsets into the UTF-8 form of a text. A cut succeeds only between two characters; a
window keeps the characters that lie whole between two offsets. -/

set_option autoImplicit false

namespace ColorTokens.Text

def byteLength : List Char → Nat
  | [] => 0
  | c :: rest => c.utf8Size + byteLength rest

/-- Cuts a text at a byte offset. There is no cut past the end or inside a character. -/
def cut? : Nat → List Char → Option (List Char × List Char)
  | 0, text => some ([], text)
  | _ + 1, [] => none
  | offset + 1, c :: rest =>
    if c.utf8Size ≤ offset + 1 then
      (cut? (offset + 1 - c.utf8Size) rest).map fun parts => (c :: parts.1, parts.2)
    else
      none

def slice? (text : List Char) (start stop : Nat) : Option (List Char) := do
  guard (start ≤ stop)
  let (_, fromStart) ← cut? start text
  let (inner, _) ← cut? (stop - start) fromStart
  return inner

/-- Skips the characters that begin before byte `start`; `offset` is where the text begins.
Answers where the remaining text begins. -/
def skipTo (start : Nat) : Nat → List Char → Nat × List Char
  | offset, [] => (offset, [])
  | offset, c :: rest =>
    if offset < start then skipTo start (offset + c.utf8Size) rest else (offset, c :: rest)

/-- The longest head of at most `budget` bytes. -/
def takeBytes : Nat → List Char → List Char
  | _, [] => []
  | budget, c :: rest =>
    if c.utf8Size ≤ budget then c :: takeBytes (budget - c.utf8Size) rest else []

/-- The characters that lie whole between two byte offsets, and the offset of the first. -/
def window (text : List Char) (start stop : Nat) : Nat × List Char :=
  let (offset, rest) := skipTo start 0 text
  (offset, takeBytes (stop - offset) rest)

end ColorTokens.Text
