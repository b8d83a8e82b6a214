/-! Line and column of a byte offset, both counted from one. Columns count characters; an offset
inside a character has the column of its byte distance from the line's start. -/

set_option autoImplicit false

namespace ColorTokens.Text

structure Position where
  line : Nat
  column : Nat
  deriving DecidableEq, Repr, Inhabited

namespace Position

/-- Walks `offset` more bytes from a point on `line` that has `chars` characters, `bytes` bytes,
before it on that line. The end of the text stops the walk. -/
def walk (line chars bytes : Nat) : Nat → List Char → Position
  | 0, _ => ⟨line, chars + 1⟩
  | _ + 1, [] => ⟨line, chars + 1⟩
  | offset + 1, c :: rest =>
    if c = '\n' then
      walk (line + 1) 0 0 offset rest
    else if c.utf8Size ≤ offset + 1 then
      walk line (chars + 1) (bytes + c.utf8Size) (offset + 1 - c.utf8Size) rest
    else
      ⟨line, bytes + (offset + 1) + 1⟩

def ofOffset (text : List Char) (offset : Nat) : Position :=
  walk 1 0 0 offset text

end Position

end ColorTokens.Text
