/-! JSON values and their indented text: two spaces a level, fields in the order given, and an
empty array or object on one line. -/

set_option autoImplicit false

namespace ColorTokens

inductive Json where
  | text (value : String)
  | number (value : Nat)
  | array (items : List Json)
  | object (fields : List (String × Json))

namespace Json

def hexDigit (n : Nat) : Char :=
  (Nat.toDigits 16 n).headD '0'

/-- Quotes, backslashes and control characters are escaped; all else stands as it is. -/
def escapeChar (c : Char) : List Char :=
  match c with
  | '"' => ['\\', '"']
  | '\\' => ['\\', '\\']
  | '\x08' => ['\\', 'b']
  | '\t' => ['\\', 't']
  | '\n' => ['\\', 'n']
  | '\x0c' => ['\\', 'f']
  | '\r' => ['\\', 'r']
  | c =>
    if c.toNat < 32 then ['\\', 'u', '0', '0', hexDigit (c.toNat / 16), hexDigit (c.toNat % 16)]
    else [c]

def quote (text : String) : String :=
  String.ofList ('"' :: text.toList.flatMap escapeChar ++ ['"'])

def indent (level : Nat) : String :=
  "".pushn ' ' (2 * level)

mutual

def render (level : Nat) : Json → String
  | .text value => quote value
  | .number value => toString value
  | .array [] => "[]"
  | .array (item :: rest) =>
    "[\n" ++ indent (level + 1) ++ render (level + 1) item ++ renderItems (level + 1) rest ++
      "\n" ++ indent level ++ "]"
  | .object [] => "\x7b\x7d"
  | .object ((key, value) :: rest) =>
    "\x7b\n" ++ indent (level + 1) ++ quote key ++ ": " ++ render (level + 1) value ++
      renderFields (level + 1) rest ++ "\n" ++ indent level ++ "\x7d"

def renderItems (level : Nat) : List Json → String
  | [] => ""
  | item :: rest => ",\n" ++ indent level ++ render level item ++ renderItems level rest

def renderFields (level : Nat) : List (String × Json) → String
  | [] => ""
  | (key, value) :: rest =>
    ",\n" ++ indent level ++ quote key ++ ": " ++ render level value ++ renderFields level rest

end

def pretty (json : Json) : String :=
  render 0 json

end Json

end ColorTokens
