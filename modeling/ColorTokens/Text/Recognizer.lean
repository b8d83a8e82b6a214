/-! Successive recognition. A recognizer is tried at every position from left to right; after a
success the search goes on behind the characters it took, so its findings never overlap. -/

set_option autoImplicit false

namespace ColorTokens.Text

variable {α : Type}

/-- Reads the character before a position and the text from there on. A success says how many
characters are taken, at least one, and what was read. -/
abbrev Recognizer (α : Type) := Option Char → List Char → Option (Nat × α)

namespace Recognizer

/-- Findings with the byte offset of each, in a text that begins at byte `offset` behind the
character `before`; the next `skip` characters were taken by an earlier finding. -/
def findFrom (recognize : Recognizer α) :
    (offset : Nat) → (before : Option Char) → (skip : Nat) → List Char → List (Nat × α)
  | _, _, _, [] => []
  | offset, _, skip + 1, c :: rest =>
    findFrom recognize (offset + c.utf8Size) (some c) skip rest
  | offset, before, 0, c :: rest =>
    match recognize before (c :: rest) with
    | some (taken, value) =>
      (offset, value) :: findFrom recognize (offset + c.utf8Size) (some c) (taken - 1) rest
    | none => findFrom recognize (offset + c.utf8Size) (some c) 0 rest

def findAll (recognize : Recognizer α) (text : List Char) : List (Nat × α) :=
  findFrom recognize 0 none 0 text

def first? (recognize : Recognizer α) (text : List Char) : Option (Nat × α) :=
  (findAll recognize text).head?

end Recognizer

def holds (part : List Char) : List Char → Bool
  | [] => part.isEmpty
  | c :: rest => part.isPrefixOf (c :: rest) || holds part rest

end ColorTokens.Text
