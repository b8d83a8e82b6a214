/-! Patterns of ignore files. They are matched against the UTF-8 bytes of a whole path, so that a
question mark stands for one byte. Wildcards stop at slashes, two stars between slashes stand for
any number of components, brackets hold a class and braces hold alternatives. -/

set_option autoImplicit false

namespace ColorTokens.Ignore

inductive Token where
  /-- One character, by its bytes. -/
  | literal (bytes : List UInt8)
  | anyByte
  | anyRun
  /-- Two stars at the start: any number of components. -/
  | leading
  /-- Two stars at the end: all that is below. -/
  | trailing
  /-- Two stars between slashes. -/
  | between
  /-- One byte inside the ranges, or outside of them if negated. -/
  | oneOf (negated : Bool) (ranges : List (UInt8 × UInt8))
  | choice (branches : List (List Token))

def slash : UInt8 :=
  47

def charBytes (c : Char) : List UInt8 :=
  String.utf8EncodeChar c

def textBytes (text : String) : List UInt8 :=
  text.toList.flatMap charBytes

def single (byte : UInt8) : UInt8 × UInt8 :=
  (byte, byte)

/-- A range between two characters, taken byte by byte: only the last byte of the first and the
first byte of the last are its ends. -/
def byteRanges (first last : Char) : List (UInt8 × UInt8) :=
  if first == last then (charBytes first).map single
  else
    match (charBytes first).getLast?, charBytes last with
    | some low, high :: rest =>
      (charBytes first).dropLast.map single ++ (low, high) :: rest.map single
    | _, _ => []

/-- What has been read of a class: its ranges, the last one first, and whether a dash waits for
the end of a range. -/
structure ClassState where
  ranges : List (Char × Char)
  inRange : Bool

namespace ClassState

def add (state : ClassState) (c : Char) : Option ClassState :=
  match state.inRange, state.ranges with
  | true, (first, _) :: rest => if first ≤ c then some ⟨(first, c) :: rest, false⟩ else none
  | _, ranges => some ⟨(c, c) :: ranges, false⟩

/-- Adds a dash, which opens a range unless it stands first or ends one. -/
def addDash (state : ClassState) : Option ClassState :=
  if state.ranges.isEmpty || state.inRange then state.add '-'
  else some { state with inRange := true }

/-- The ranges of a class that is complete; a dash at its end is itself. -/
def close (state : ClassState) : List (Char × Char) :=
  (if state.inRange then ('-', '-') :: state.ranges else state.ranges).reverse

end ClassState

inductive ClassRead where
  | closed (ranges : List (Char × Char)) (rest : List Char)
  | unclosed
  | malformed

/-- Reads a class up to its closing bracket; one that stands first is a member. -/
def readClass (state : ClassState) : List Char → ClassRead
  | [] => .unclosed
  | c :: rest =>
    if c == ']' && !state.ranges.isEmpty then .closed state.close rest
    else
      match (if c == '-' then state.addDash else state.add c) with
      | some next => readClass next rest
      | none => .malformed

/-- Alternatives under way: the branches that are complete and the tokens of the last one, both
with the latest first. -/
structure Frame where
  branches : List (List Token)
  tokens : List Token

namespace Frame

def empty : Frame :=
  ⟨[], []⟩

def push (frame : Frame) (token : Token) : Frame :=
  { frame with tokens := token :: frame.tokens }

def nextBranch (frame : Frame) : Frame :=
  ⟨frame.tokens.reverse :: frame.branches, []⟩

def toChoice (frame : Frame) : Token :=
  .choice frame.nextBranch.branches.reverse

def pushRuns (frame : Frame) : Frame :=
  (frame.push .anyRun).push .anyRun

/-- Two stars behind a slash, which they replace; several in a row count as one. -/
def pushComponents (frame : Frame) (last : Bool) : Frame :=
  match frame.tokens with
  | .leading :: _ | .trailing :: _ => frame
  | tokens => { frame with tokens := (if last then .trailing else .between) :: tokens.drop 1 }

end Frame

/-- Two stars behind the character `before`, with the text behind them; answers what remains. -/
def readStars (nested : Bool) (before : Option Char) (frame : Frame) (rest : List Char) :
    Frame × List Char :=
  if frame.tokens.isEmpty then
    match rest with
    -- In front of all else the stars may stand for no directory at all.
    | [] => (frame.push .leading, [])
    | '/' :: more => (frame.push .leading, more)
    | _ => (frame.pushRuns, rest)
  else if before != some '/' && (!nested || (before != some ',' && before != some '{')) then
    -- Behind anything but a slash, or the start of a branch, they are no whole component.
    (frame.pushRuns, rest)
  else
    match rest with
    | [] => (frame.pushComponents true, [])
    | '/' :: more => (frame.pushComponents false, more)
    | c :: _ =>
      if nested && (c == ',' || c == '}') then (frame.pushComponents true, rest)
      else (frame.pushRuns, rest)

/-- Reads a pattern; `outer` are the frames around the current one and `before` is the character
before the text. Every step takes a character, so `fuel` need be no more than the length. -/
def readTokens : (fuel : Nat) → (outer : List Frame) → Frame → (before : Option Char) →
    List Char → Option (List Token)
  | _, outer, frame, _, [] => if outer.isEmpty then some frame.tokens.reverse else none
  | 0, _, _, _, _ :: _ => none
  | fuel + 1, outer, frame, before, c :: rest =>
    let literal := fun (c : Char) (rest : List Char) =>
      readTokens fuel outer (frame.push (.literal (charBytes c))) (some c) rest
    match c with
    | '?' => readTokens fuel outer (frame.push .anyByte) (some c) rest
    | '*' =>
      match rest with
      | '*' :: more =>
        let (next, remaining) := readStars (!outer.isEmpty) before frame more
        let taken := more.take (more.length - remaining.length)
        readTokens fuel outer next (some (taken.getLastD '*')) remaining
      | _ => readTokens fuel outer (frame.push .anyRun) (some c) rest
    | '[' =>
      let negated := rest.head? == some '!' || rest.head? == some '^'
      match readClass ⟨[], false⟩ (if negated then rest.drop 1 else rest) with
      | .closed ranges more =>
        let bytes := ranges.flatMap fun range => byteRanges range.1 range.2
        readTokens fuel outer (frame.push (.oneOf negated bytes)) (some ']') more
      -- A bracket that is never closed stands for itself.
      | .unclosed => literal c rest
      | .malformed => none
    | '{' => readTokens fuel (frame :: outer) .empty (some c) rest
    | '}' =>
      match outer with
      | [] => none
      | parent :: others =>
        readTokens fuel others (parent.push frame.toChoice) (some c) rest
    | ',' =>
      -- Outside of braces a comma parts nothing.
      if outer.isEmpty then literal c rest
      else readTokens fuel outer frame.nextBranch (some c) rest
    | '\\' =>
      match rest with
      | [] => none
      | escaped :: more => literal escaped more
    | c => literal c rest

def tokens? (pattern : List Char) : Option (List Token) :=
  readTokens pattern.length [] .empty none pattern

def afterRun (accept : List UInt8 → Bool) : List UInt8 → Bool
  | [] => accept []
  | byte :: rest => accept (byte :: rest) || (byte != slash && afterRun accept rest)

def afterSlash (accept : List UInt8 → Bool) : List UInt8 → Bool
  | [] => false
  | byte :: rest => (byte == slash && accept rest) || afterSlash accept rest

def afterAny (accept : List UInt8 → Bool) : List UInt8 → Bool
  | [] => accept []
  | byte :: rest => accept (byte :: rest) || afterAny accept rest

def inRanges (ranges : List (UInt8 × UInt8)) (byte : UInt8) : Bool :=
  ranges.any fun range => range.1 ≤ byte && byte ≤ range.2

mutual

/-- Whether a token takes some head of a text such that what remains is accepted. -/
def Token.matchThen (accept : List UInt8 → Bool) : Token → List UInt8 → Bool
  | .literal bytes, text => bytes.isPrefixOf text && accept (text.drop bytes.length)
  | .anyByte, byte :: rest => byte != slash && accept rest
  | .anyByte, [] => false
  | .anyRun, text => afterRun accept text
  | .leading, text => accept text || afterSlash accept text
  | .trailing, byte :: rest => byte == slash && afterAny accept rest
  | .trailing, [] => false
  | .between, byte :: rest => byte == slash && (accept rest || afterSlash accept rest)
  | .between, [] => false
  | .oneOf negated ranges, byte :: rest => inRanges ranges byte != negated && accept rest
  | .oneOf _ _, [] => false
  | .choice branches, text =>
    if branches.all List.isEmpty then accept text else matchSome accept branches text

def matchAll (accept : List UInt8 → Bool) : List Token → List UInt8 → Bool
  | [], text => accept text
  | token :: rest, text => token.matchThen (matchAll accept rest) text

/-- Empty branches do not count. -/
def matchSome (accept : List UInt8 → Bool) : List (List Token) → List UInt8 → Bool
  | [], _ => false
  | [] :: rest, text => matchSome accept rest text
  | (token :: more) :: rest, text =>
    token.matchThen (matchAll accept more) text || matchSome accept rest text

end

/-- Whether a pattern matches a whole path. Two stars alone match all. -/
def isMatch (tokens : List Token) (path : List UInt8) : Bool :=
  match tokens with
  | [.leading] => true
  | _ => matchAll List.isEmpty tokens path

end ColorTokens.Ignore
