import ColorTokens.Source.Block
import ColorTokens.Text.Span

/-! Contents of quoted texts. Single- and double-quoted texts are reported; backtick texts are read
past, since they may hold expressions, and so are comments. -/

set_option autoImplicit false

namespace ColorTokens.Source

open ColorTokens.Text

/-- Spans between the quotes, reading on from byte `offset`; in a quoted text its content began at
`opened`. A text that is never closed has no span. -/
def quotedFrom : (opened offset : Nat) → Mode → List Char → List Span
  | _, _, _, [] => []
  | opened, offset, .lineComment, c :: rest =>
    quotedFrom opened (offset + c.utf8Size) (if c = '\n' then .code else .lineComment) rest
  | opened, offset, .blockComment, '*' :: '/' :: rest =>
    quotedFrom opened (offset + 2) .code rest
  | opened, offset, .blockComment, c :: rest =>
    quotedFrom opened (offset + c.utf8Size) .blockComment rest
  | opened, offset, .quoted quote, '\\' :: c :: rest =>
    quotedFrom opened (offset + 1 + c.utf8Size) (.quoted quote) rest
  | opened, offset, .quoted quote, c :: rest =>
    if c = quote then
      let later := quotedFrom opened (offset + c.utf8Size) .code rest
      if quote = '\x60' then later else ⟨opened, offset⟩ :: later
    else
      quotedFrom opened (offset + c.utf8Size) (.quoted quote) rest
  | opened, offset, .code, '/' :: '/' :: rest =>
    quotedFrom opened (offset + 2) .lineComment rest
  | opened, offset, .code, '/' :: '*' :: rest =>
    quotedFrom opened (offset + 2) .blockComment rest
  | opened, offset, .code, c :: rest =>
    if isQuote c then
      quotedFrom (offset + c.utf8Size) (offset + c.utf8Size) (.quoted c) rest
    else
      quotedFrom opened (offset + c.utf8Size) .code rest

def quotedSpans (text : List Char) (start stop : Nat) : List Span :=
  let (offset, inner) := window text start stop
  quotedFrom offset offset .code inner

end ColorTokens.Source
