import ColorTokens.Text.Bytes

/-! Brace blocks. Braces count only where the text is read as code: not inside quoted texts, which
a backslash escapes, nor inside line and block comments. -/

set_option autoImplicit false

namespace ColorTokens.Source

open ColorTokens.Text

inductive Mode where
  | code
  | lineComment
  | blockComment
  | quoted (quote : Char)
  deriving DecidableEq, Repr

def isQuote (c : Char) : Bool :=
  c == '\'' || c == '"' || c == '\x60'

/-- The offset of the closing brace that brings `depth` back to zero, reading on from byte
`offset`. A closing brace at depth zero closes nothing. -/
def closingFrom : (depth offset : Nat) → Mode → List Char → Option Nat
  | _, _, _, [] => none
  | depth, offset, .lineComment, c :: rest =>
    closingFrom depth (offset + c.utf8Size) (if c = '\n' then .code else .lineComment) rest
  | depth, offset, .blockComment, '*' :: '/' :: rest =>
    closingFrom depth (offset + 2) .code rest
  | depth, offset, .blockComment, c :: rest =>
    closingFrom depth (offset + c.utf8Size) .blockComment rest
  | depth, offset, .quoted quote, '\\' :: c :: rest =>
    closingFrom depth (offset + 1 + c.utf8Size) (.quoted quote) rest
  | depth, offset, .quoted quote, c :: rest =>
    closingFrom depth (offset + c.utf8Size) (if c = quote then .code else .quoted quote) rest
  | depth, offset, .code, '/' :: '/' :: rest =>
    closingFrom depth (offset + 2) .lineComment rest
  | depth, offset, .code, '/' :: '*' :: rest =>
    closingFrom depth (offset + 2) .blockComment rest
  | depth, offset, .code, c :: rest =>
    if isQuote c then closingFrom depth (offset + c.utf8Size) (.quoted c) rest
    else if c = '{' then closingFrom (depth + 1) (offset + 1) .code rest
    else if c = '}' then
      match depth with
      | 0 => none
      | 1 => some offset
      | outer + 1 => closingFrom outer (offset + 1) .code rest
    else closingFrom depth (offset + c.utf8Size) .code rest

def closingBrace? (text : List Char) (opening : Nat) : Option Nat :=
  match cut? opening text with
  | some (_, '{' :: rest) => closingFrom 1 (opening + 1) .code rest
  | _ => none

end ColorTokens.Source
