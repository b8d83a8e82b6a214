import ColorTokens.Text.Quoted

/-! How minted tokens are named and referred to. -/

set_option autoImplicit false

namespace ColorTokens

structure Naming where
  /-- What every minted identifier begins with; a number follows. -/
  stem : String
  /-- The number is padded with zeros to this many digits. -/
  width : Nat
  /-- What is taken off an identifier to get its palette key. -/
  paletteStem : String
  deriving DecidableEq, Repr

namespace Naming

def standard : Naming where
  stem := "--c-raw-"
  width := 3
  paletteStem := "--c-"

inductive Flaw where
  | stemWithoutDashes (stem : String)
  | stemOfDashes
  | zeroWidth
  deriving DecidableEq, Repr

def Flaw.reason : Flaw → String
  | .stemWithoutDashes stem => "prefix " ++ Text.quoted stem ++ " must start with `--`"
  | .stemOfDashes => "prefix must name something after `--`"
  | .zeroWidth => "width must be > 0"

def Flaw.message (flaw : Flaw) : String :=
  "Invalid token naming: " ++ flaw.reason

def flaw? (naming : Naming) : Option Flaw :=
  if !"--".toList.isPrefixOf naming.stem.toList then some (.stemWithoutDashes naming.stem)
  else if naming.stem == "--" then some .stemOfDashes
  else if naming.width == 0 then some .zeroWidth
  else none

def maxWidth : Nat :=
  65535

def isWritable (naming : Naming) : Bool :=
  naming.width ≤ maxWidth

def padded (width n : Nat) : List Char :=
  let digits := Nat.toDigits 10 n
  List.replicate (width - digits.length) '0' ++ digits

def identifier (naming : Naming) (n : Nat) : String :=
  naming.stem ++ String.ofList (padded naming.width n)

def identifier? (naming : Naming) (n : Nat) : Option String :=
  if naming.isWritable then some (naming.identifier n) else none

def reference (identifier : String) : String :=
  "var(" ++ identifier ++ ")"

/-- The identifier without the palette stem, if it begins with it. -/
def paletteKey (naming : Naming) (identifier : String) : String :=
  let stem := naming.paletteStem.toList
  if stem.isPrefixOf identifier.toList then
    String.ofList (identifier.toList.drop stem.length)
  else
    identifier

end Naming

end ColorTokens
