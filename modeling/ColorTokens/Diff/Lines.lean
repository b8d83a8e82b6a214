/-! Lines of a text, each with the line end that closes it. -/

set_option autoImplicit false

namespace ColorTokens.Diff

def consLine (c : Char) : List (List Char) → List (List Char)
  | [] => [[c]]
  | line :: rest => (c :: line) :: rest

/-- A line ends behind a line feed, a carriage return, or both in a row. -/
def lines : List Char → List (List Char)
  | [] => []
  | '\n' :: rest => ['\n'] :: lines rest
  | '\r' :: '\n' :: rest => ['\r', '\n'] :: lines rest
  | '\r' :: rest => ['\r'] :: lines rest
  | c :: rest => consLine c (lines rest)

def linesOf (text : String) : Array String :=
  ((lines text.toList).map String.ofList).toArray

def isClosed (line : String) : Bool :=
  line.toList.getLast?.any fun c => c == '\n' || c == '\r'

end ColorTokens.Diff
