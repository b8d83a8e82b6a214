import ColorTokens.Settings.Data

/-! Scalars of TOML: strings in their four notations, booleans, integers, fractions, and dates and
times. A text that is not well formed has no reading. -/

set_option autoImplicit false

namespace ColorTokens.Toml

abbrev Reader := StateT (List Char) Option

def peek : Reader (Option Char) := do
  return (← get).head?

def next : Reader Char := do
  match ← get with
  | c :: rest => set rest; return c
  | [] => failure

def expect (c : Char) : Reader Unit := do
  guard ((← next) == c)

def accept (wanted : List Char) : Reader Bool := do
  let text ← get
  if wanted.isPrefixOf text then
    set (text.drop wanted.length)
    return true
  else
    return false

def takeWhile (p : Char → Bool) : Reader (List Char) := do
  let text ← get
  set (text.dropWhile p)
  return text.takeWhile p

def isSpace (c : Char) : Bool :=
  c == ' ' || c == '\t'

def skipSpace : Reader Unit := do
  let _ ← takeWhile isSpace

/-- A line feed, alone or behind a carriage return. -/
def acceptNewline : Reader Bool := do
  if ← accept ['\n'] then return true else accept ['\r', '\n']

/-- Characters that stand for themselves in a string or a comment. -/
def isPlain (c : Char) : Bool :=
  c == '\t' || (32 ≤ c.toNat && c.toNat != 127)

def hexValue? (c : Char) : Option Nat :=
  if c.isDigit then some (c.toNat - 48)
  else if 'a' ≤ c && c ≤ 'f' then some (c.toNat - 87)
  else if 'A' ≤ c && c ≤ 'F' then some (c.toNat - 55)
  else none

/-- The number that digits write in a base; a digit too large for the base is refused. -/
def number? (base : Nat) (digits : List Char) : Option Nat :=
  digits.foldlM (fun value c => do
    let digit ← hexValue? c
    guard (digit < base)
    return value * base + digit) 0

def codePoint (length : Nat) : Reader Char := do
  let digits := (← get).take length
  guard (digits.length == length)
  set ((← get).drop length)
  let some code := number? 16 digits | failure
  guard (code < 0xD800 || (0xDFFF < code && code < 0x110000))
  return Char.ofNat code

def escape : Reader Char := do
  match ← next with
  | 'b' => return '\x08'
  | 't' => return '\t'
  | 'n' => return '\n'
  | 'f' => return '\x0c'
  | 'r' => return '\r'
  | '"' => return '"'
  | '\\' => return '\\'
  | 'u' => codePoint 4
  | 'U' => codePoint 8
  | _ => failure

/-- The rest of a string on one line that `quote` ends; only double quotes allow escapes. -/
def lineString (quote : Char) : Nat → Reader (List Char)
  | 0 => failure
  | fuel + 1 => do
    let c ← next
    if c == quote then return []
    else if c == '\\' && quote == '"' then
      let escaped ← escape
      return escaped :: (← lineString quote fuel)
    else
      guard (isPlain c)
      return c :: (← lineString quote fuel)

def isSpaceOrNewline (c : Char) : Bool :=
  isSpace c || c == '\n' || c == '\r'

/-- Up to two quotes may stand before the three that end a string over several lines. -/
def closingQuotes (quote : Char) : Reader (Option (List Char)) := do
  let run := (← get).takeWhile (· == quote)
  if run.length < 3 then return none
  let taken := min run.length 5
  set ((← get).drop taken)
  return some (List.replicate (taken - 3) quote)

/-- The rest of a string over several lines. A backslash at the end of a line takes the blanks and
line ends behind it away. -/
def blockString (quote : Char) : Nat → Reader (List Char)
  | 0 => failure
  | fuel + 1 => do
    if let some quotes ← closingQuotes quote then return quotes
    if ← acceptNewline then return '\n' :: (← blockString quote fuel)
    let c ← next
    if c == '\\' && quote == '"' then
      let behind := (← get).dropWhile isSpace
      if behind.head? == some '\n' || behind.take 2 == ['\r', '\n'] then
        let _ ← takeWhile isSpaceOrNewline
        blockString quote fuel
      else
        let escaped ← escape
        return escaped :: (← blockString quote fuel)
    else
      guard (isPlain c)
      return c :: (← blockString quote fuel)

def string (quote : Char) : Reader String := do
  let fuel := (← get).length
  if ← accept [quote, quote, quote] then
    let _ ← acceptNewline
    return String.ofList (← blockString quote fuel)
  else
    expect quote
    return String.ofList (← lineString quote fuel)

/-- Digits in groups that single underscores part. -/
def grouped? (isDigit : Char → Bool) (text : List Char) : Option (List Char) :=
  let ends := text.head?.any isDigit && text.getLast?.any isDigit
  let parted := (text.zip (text.drop 1)).all fun pair => !(pair.1 == '_' && pair.2 == '_')
  if ends && parted && text.all (fun c => isDigit c || c == '_') then
    some (text.filter (· != '_'))
  else
    none

def isHex (c : Char) : Bool :=
  (hexValue? c).isSome

def unsigned (text : List Char) : List Char :=
  match text with
  | '+' :: rest | '-' :: rest => rest
  | _ => text

/-- Decimal digits without a sign; no zero stands in front of another digit. -/
def decimal? (text : List Char) : Option Nat := do
  let digits ← grouped? Char.isDigit text
  guard (digits.head? != some '0' || digits.length == 1)
  number? 10 digits

def magnitude? : List Char → Option Nat
  | '0' :: 'x' :: rest => (grouped? isHex rest).bind (number? 16)
  | '0' :: 'o' :: rest => (grouped? Char.isDigit rest).bind (number? 8)
  | '0' :: 'b' :: rest => (grouped? Char.isDigit rest).bind (number? 2)
  | _ => none

def integer? (text : List Char) : Option Int := do
  let value : Int ← match magnitude? text with
    | some value => pure (value : Int)
    | none =>
      let value ← decimal? (unsigned text)
      pure (if text.head? == some '-' then -(value : Int) else value)
  guard (-9223372036854775808 ≤ value ∧ value ≤ 9223372036854775807)
  return value

def isExponent (text : List Char) : Bool :=
  match text with
  | c :: rest => (c == 'e' || c == 'E') && (grouped? Char.isDigit (unsigned rest)).isSome
  | [] => false

/-- A number with a fraction or an exponent, or one of the words for infinity and no number. -/
def isFraction (text : List Char) : Bool :=
  let body := unsigned text
  let isDigitOrGap := fun c : Char => c.isDigit || c == '_'
  let whole := body.takeWhile isDigitOrGap
  let behind := body.dropWhile isDigitOrGap
  body == "inf".toList || body == "nan".toList ||
    ((decimal? whole).isSome &&
      match behind with
      | '.' :: rest =>
        (grouped? Char.isDigit (rest.takeWhile isDigitOrGap)).isSome &&
          (rest.dropWhile isDigitOrGap == [] || isExponent (rest.dropWhile isDigitOrGap))
      | _ => isExponent behind)

def pair? (a b : Char) : Option Nat :=
  number? 10 [a, b]

def daysIn (year month : Nat) : Nat :=
  if month == 2 then
    if year % 4 == 0 && (year % 100 != 0 || year % 400 == 0) then 29 else 28
  else if month == 4 || month == 6 || month == 9 || month == 11 then 30
  else 31

def afterDate? : List Char → Option (List Char)
  | a :: b :: c :: d :: '-' :: e :: f :: '-' :: g :: h :: rest => do
    let year ← number? 10 [a, b, c, d]
    let month ← pair? e f
    let day ← pair? g h
    guard (1 ≤ month ∧ month ≤ 12 ∧ 1 ≤ day ∧ day ≤ daysIn year month)
    return rest
  | _ => none

def afterTime? : List Char → Option (List Char)
  | a :: b :: ':' :: c :: d :: ':' :: e :: f :: rest => do
    guard ((← pair? a b) < 24 ∧ (← pair? c d) < 60 ∧ (← pair? e f) ≤ 60)
    match rest with
    | '.' :: parts =>
      guard (parts.head?.any Char.isDigit)
      return parts.dropWhile Char.isDigit
    | _ => return rest
  | _ => none

def isOffset : List Char → Bool
  | [] => true
  | ['Z'] | ['z'] => true
  | [sign, a, b, ':', c, d] =>
    (sign == '+' || sign == '-') && (pair? a b).any (· < 24) && (pair? c d).any (· < 60)
  | _ => false

def isMoment (text : List Char) : Bool :=
  match afterDate? text with
  | some [] => true
  | some (mark :: rest) =>
    (mark == 'T' || mark == 't' || mark == ' ') && (afterTime? rest).any isOffset
  | none => afterTime? text == some []

def bareScalar? (text : List Char) : Option Data :=
  if text == "true".toList then some (.boolean true)
  else if text == "false".toList then some (.boolean false)
  else if let some value := integer? text then some (.integer value)
  else if isFraction text then some .fraction
  else if isMoment text then some .moment
  else none

def isBareChar (c : Char) : Bool :=
  c.isAlphanum || c == '+' || c == '-' || c == '_' || c == '.' || c == ':'

/-- A scalar that is no string. A space may part a date from the time behind it. -/
def bareScalar : Reader Data := do
  let text ← takeWhile isBareChar
  let more ← get
  let full ←
    match afterDate? text, more with
    | some [], ' ' :: digit :: _ =>
      if digit.isDigit then
        set (more.drop 1)
        let time ← takeWhile isBareChar
        pure (text ++ ' ' :: time)
      else pure text
    | _, _ => pure text
  let some data := bareScalar? full | failure
  return data

end ColorTokens.Toml
