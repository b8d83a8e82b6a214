import Std.Data.TreeMap
import Std.Data.TreeSet
import ColorTokens.Token.Naming
import ColorTokens.Token.Sheet

/-! Assigning a token to every colour. Colours come by falling frequency, then by text; an indexed
colour keeps its identifier and every other one is given the next free number. -/

set_option autoImplicit false

namespace ColorTokens

inductive Origin where
  | existing
  | generated
  deriving DecidableEq, Repr

def Origin.name : Origin → String
  | .existing => "existing"
  | .generated => "generated"

structure Assignment where
  /-- The distinct colours, in the order tokens are given. -/
  order : List String
  frequency : Std.TreeMap String Nat
  /-- Identifiers by colour. -/
  tokens : Std.TreeMap String String
  /-- Origins by colour. -/
  origins : Std.TreeMap String Origin
  /-- Colours by minted identifier. -/
  generated : Std.TreeMap String String

inductive AssignmentError where
  /-- A minted identifier is reserved, or minted twice. -/
  | collision (identifier : String)
  /-- A colour that counts as minted has no declaration. -/
  | undeclared (color : String)
  deriving DecidableEq, Repr

def AssignmentError.message : AssignmentError → String
  | .collision identifier => "Token identifier collision: " ++ identifier
  | .undeclared color => "Generated color " ++ color ++ " has no minted identifier"

namespace Assignment

def empty : Assignment :=
  ⟨[], ∅, ∅, ∅, ∅⟩

def uniqueCount (assignment : Assignment) : Nat :=
  assignment.order.length

def reusedCount (assignment : Assignment) : Nat :=
  assignment.origins.values.count .existing

def generatedCount (assignment : Assignment) : Nat :=
  assignment.generated.size

def frequencies (colors : List String) : Std.TreeMap String Nat :=
  colors.foldl (fun counts color => counts.insert color (counts.getD color 0 + 1)) ∅

/-- More frequent colours come first, and of equally frequent ones the lesser text. -/
def ranksBefore (a b : String × Nat) : Bool :=
  b.2 < a.2 || (a.2 == b.2 && (compare a.1 b.1).isLE)

def ranked (colors : List String) : List (String × Nat) :=
  (frequencies colors).toList.mergeSort ranksBefore

/-- The first number from `n` on whose identifier is not taken, among the next `fuel`. -/
def firstFree (naming : Naming) (taken : String → Bool) : (fuel n : Nat) → Nat
  | 0, n => n
  | fuel + 1, n => if taken (naming.identifier n) then firstFree naming taken fuel (n + 1) else n

/-- Identifiers of different numbers differ, so one more try than there are taken identifiers is
enough. -/
def nextNumber (naming : Naming) (reserved : Std.TreeSet String)
    (generated : Std.TreeMap String String) (n : Nat) : Nat :=
  firstFree naming (fun identifier => reserved.contains identifier || generated.contains identifier)
    (reserved.size + generated.size + 1) n

/-- Gives one colour its token; `next` is the first number not tried yet. -/
def give (index : ColorIndex) (reserved : Std.TreeSet String) (naming : Naming)
    (state : Assignment × Nat) (entry : String × Nat) : Assignment × Nat :=
  let (assignment, next) := state
  let (color, count) := entry
  let counted := { assignment with
    order := assignment.order ++ [color]
    frequency := assignment.frequency.insert color count }
  match index.get? color with
  | some identifier =>
    ({ counted with
        tokens := counted.tokens.insert color identifier
        origins := counted.origins.insert color .existing }, next)
  | none =>
    let number := nextNumber naming reserved counted.generated next
    let identifier := naming.identifier number
    ({ counted with
        tokens := counted.tokens.insert color identifier
        origins := counted.origins.insert color .generated
        generated := counted.generated.insert identifier color }, number + 1)

/-- The assignment for a list of colours, one entry an occurrence. -/
def assign (colors : List String) (index : ColorIndex) (reserved : Std.TreeSet String)
    (naming : Naming) : Assignment :=
  ((ranked colors).foldl (give index reserved naming) (empty, 0)).1

/-- No assignment where a colour has to be minted and its identifier cannot be written. -/
def assign? (colors : List String) (index : ColorIndex) (reserved : Std.TreeSet String)
    (naming : Naming) : Option Assignment :=
  if naming.isWritable || colors.all index.contains then
    some (assign colors index reserved naming)
  else
    none

/-- Checks minted colours in order, given the identifiers of those before, and answers all
identifiers. -/
def checkMinted (assignment : Assignment) (reserved : Std.TreeSet String) :
    List String → List (String × Origin) → Except AssignmentError (List String)
  | minted, [] => .ok minted
  | minted, (_, .existing) :: rest => checkMinted assignment reserved minted rest
  | minted, (color, .generated) :: rest =>
    match assignment.tokens.get? color with
    | none => .error (.undeclared color)
    | some identifier =>
      if reserved.contains identifier || minted.contains identifier then
        .error (.collision identifier)
      else if assignment.generated.get? identifier != some color then
        .error (.undeclared color)
      else
        checkMinted assignment reserved (identifier :: minted) rest

/-- Checks that minted identifiers are free and distinct, and that what is to be declared is what
was minted. -/
def verify (assignment : Assignment) (reserved : Std.TreeSet String) :
    Except AssignmentError Unit := do
  let minted ← checkMinted assignment reserved [] assignment.origins.toList
  if minted.length != assignment.generated.size then
    if let some stray := assignment.generated.keys.find? (!minted.contains ·) then
      throw (.collision stray)

end Assignment

end ColorTokens
