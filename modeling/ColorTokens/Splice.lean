import ColorTokens.Text.Bytes
import ColorTokens.Text.Span

/-! Splicing replacements into a text. Replacements are taken in span order; one that is reversed,
out of bounds, inside a character, or that begins before the last one taken ends, is passed over. -/

set_option autoImplicit false

namespace ColorTokens

open ColorTokens.Text

structure Replacement where
  span : Span
  text : String
  deriving DecidableEq, Repr

def spliceFrom : Nat → List Char → List Replacement → List Char
  | _, rest, [] => rest
  | cursor, rest, replacement :: more =>
    let span := replacement.span
    if span.start < cursor || span.stop < span.start then
      spliceFrom cursor rest more
    else
      match cut? (span.start - cursor) rest with
      | none => spliceFrom cursor rest more
      | some (before, here) =>
        match cut? span.length here with
        | none => spliceFrom cursor rest more
        | some (_, after) => before ++ replacement.text.toList ++ spliceFrom span.stop after more

/-- Replacements with equal spans are taken in the order given. -/
def splice (text : String) (replacements : List Replacement) : String :=
  let ordered := replacements.mergeSort fun a b => a.span.le b.span
  String.ofList (spliceFrom 0 text.toList ordered)

end ColorTokens
