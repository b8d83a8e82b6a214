/-! Wildcard patterns that exclude paths. A question mark stands for any character and a star for
any text, slashes included; two stars stand for any number of whole components; brackets hold a
class of characters. A malformed pattern has no reading. -/

set_option autoImplicit false

namespace ColorTokens.Path.Wildcard

structure Range where
  first : Char
  last : Char
  deriving DecidableEq, Repr

def Range.contains (range : Range) (c : Char) : Bool :=
  range.first ≤ c && c ≤ range.last

inductive Token where
  | literal (c : Char)
  | anyChar
  | anyText
  | anyComponents
  | within (ranges : List Range)
  | except (ranges : List Range)
  deriving DecidableEq, Repr

/-- Three characters with a dash in the middle are a range; other characters are themselves. -/
def ranges : List Char → List Range
  | first :: '-' :: last :: rest => ⟨first, last⟩ :: ranges rest
  | c :: rest => ⟨c, c⟩ :: ranges rest
  | [] => []

/-- The members of a class, read behind its opening, and what follows the class. The first member
may be a closing bracket. -/
def classBody? : List Char → Option (List Char × List Char)
  | [] => none
  | first :: rest =>
    match rest.dropWhile (· != ']') with
    | _ :: after => some (first :: rest.takeWhile (· != ']'), after)
    | [] => none

def plainToken? : List Char → Option (Token × List Char)
  | '?' :: rest => some (.anyChar, rest)
  | '[' :: '!' :: rest => (classBody? rest).map fun body => (.except (ranges body.1), body.2)
  | '[' :: rest => (classBody? rest).map fun body => (.within (ranges body.1), body.2)
  | c :: rest => some (.literal c, rest)
  | [] => none

/-- Whether `count` stars that `rest` follows are well formed, and what follows the token. Two
stars have to be a whole component and take the slash behind them along. -/
def starToken? (before : Option Char) (count : Nat) (rest : List Char) :
    Option (Token × List Char) :=
  if count == 1 then some (.anyText, rest)
  else if count == 2 && before.all (· == '/') then
    match rest with
    | [] => some (.anyComponents, [])
    | '/' :: more => some (.anyComponents, more)
    | _ => none
  else none

/-- Tokens of a pattern behind the character `before`. Every token takes at least one character,
so `fuel` need be no more than the length of the pattern. -/
def tokensFrom : (fuel : Nat) → (before : Option Char) → List Char → Option (List Token)
  | _, _, [] => some []
  | 0, _, _ :: _ => none
  | fuel + 1, before, c :: text => do
    let (token, rest) ←
      if c == '*' then
        -- Stars count together: three in a row are malformed.
        starToken? before (text.takeWhile (· == '*')).length.succ (text.dropWhile (· == '*'))
      else
        plainToken? (c :: text)
    let taken := (c :: text).take ((c :: text).length - rest.length)
    return token :: (← tokensFrom fuel taken.getLast? rest)

def tokens? (pattern : List Char) : Option (List Token) :=
  tokensFrom pattern.length none pattern

inductive Verdict where
  | hit
  /-- A longer stretch for an earlier wildcard may still do. -/
  | miss
  /-- The text is too short, so no other stretch can do. -/
  | hopeless
  deriving DecidableEq, Repr

def Token.fits (token : Token) (c : Char) : Bool :=
  match token with
  | .literal wanted => c == wanted
  | .within ranges => ranges.any (·.contains c)
  | .except ranges => !ranges.any (·.contains c)
  | .anyChar | .anyText | .anyComponents => true

/-- Tries the rest of a pattern behind longer and longer stretches of a text; with `whole` only
behind a slash. -/
def stretch (next : List Char → Verdict) (whole : Bool) : List Char → Verdict
  | [] => next []
  | c :: rest =>
    if whole && c != '/' then stretch next whole rest
    else
      match next rest with
      | .miss => stretch next whole rest
      | verdict => verdict

def stretchFrom (next : List Char → Verdict) (whole : Bool) (text : List Char) : Verdict :=
  match next text with
  | .miss => stretch next whole text
  | verdict => verdict

def attempt : List Token → List Char → Verdict
  | [], text => if text.isEmpty then .hit else .miss
  | .anyText :: rest, text => stretchFrom (attempt rest) false text
  | .anyComponents :: rest, text => stretchFrom (attempt rest) true text
  | _ :: _, [] => .hopeless
  | token :: rest, c :: text => if token.fits c then attempt rest text else .miss

/-- Whether a pattern matches a whole path. A malformed one matches none. -/
def isMatch (pattern path : List Char) : Bool :=
  (tokens? pattern).any fun tokens => attempt tokens path == .hit

end ColorTokens.Path.Wildcard
