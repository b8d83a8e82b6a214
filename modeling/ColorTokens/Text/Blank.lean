import ColorTokens.Text.RangeTable

/-! White space, as the Unicode property White_Space has it: the zero width space U+200B and the
byte order mark U+FEFF are not blank, the next line control U+0085 is. -/

set_option autoImplicit false

namespace ColorTokens.Text

def blankRanges : RangeTable :=
  [(0x9, 0xD), (0x20, 0x20), (0x85, 0x85), (0xA0, 0xA0), (0x1680, 0x1680), (0x2000, 0x200A),
   (0x2028, 0x2029), (0x202F, 0x202F), (0x205F, 0x205F), (0x3000, 0x3000)]

def isBlank (c : Char) : Bool :=
  blankRanges.contains c

def trimStart (text : List Char) : List Char :=
  text.dropWhile isBlank

def dropWhileEnd (p : Char → Bool) (text : List Char) : List Char :=
  (text.reverse.dropWhile p).reverse

def trimEnd (text : List Char) : List Char :=
  dropWhileEnd isBlank text

def trim (text : List Char) : List Char :=
  trimEnd (trimStart text)

def isBlankText (text : String) : Bool :=
  text.toList.all isBlank

end ColorTokens.Text
