import Std.Data.TreeMap

/-! Edit scripts between two sequences of lines, found by the linear-space form of the greedy
shortest-edit search: the two halves of a box are solved around a point that searches from both
corners meet in. -/

set_option autoImplicit false

namespace ColorTokens.Diff

inductive Change where
  | keep
  | delete
  | insert
  deriving DecidableEq, Repr

/-- What happens to a run of lines. A deletion covers no new lines, an insertion no old ones. -/
structure Step where
  change : Change
  oldStart : Nat
  oldLength : Nat
  newStart : Nat
  newLength : Nat
  deriving DecidableEq, Repr

namespace Step

def keep (oldStart newStart length : Nat) : Step :=
  ⟨.keep, oldStart, length, newStart, length⟩

def delete (oldStart length newStart : Nat) : Step :=
  ⟨.delete, oldStart, length, newStart, 0⟩

def insert (oldStart newStart length : Nat) : Step :=
  ⟨.insert, oldStart, 0, newStart, length⟩

def oldStop (step : Step) : Nat :=
  step.oldStart + step.oldLength

def newStop (step : Step) : Nat :=
  step.newStart + step.newLength

end Step

/-- Lines `oldStart` to `oldStop` of one text beside `newStart` to `newStop` of another. -/
structure Box where
  oldStart : Nat
  oldStop : Nat
  newStart : Nat
  newStop : Nat
  deriving DecidableEq, Repr

namespace Box

def oldLength (box : Box) : Nat :=
  box.oldStop - box.oldStart

def newLength (box : Box) : Nat :=
  box.newStop - box.newStart

def matchForward (old new : Array String) : (limit i j : Nat) → Nat
  | 0, _, _ => 0
  | limit + 1, i, j =>
    if old[i]? == new[j]? then matchForward old new limit (i + 1) (j + 1) + 1 else 0

def matchBackward (old new : Array String) : (limit i j : Nat) → Nat
  | 0, _, _ => 0
  | limit + 1, i, j =>
    if old[i - 1]? == new[j - 1]? then matchBackward old new limit (i - 1) (j - 1) + 1 else 0

def commonStart (old new : Array String) (box : Box) : Nat :=
  matchForward old new (min box.oldLength box.newLength) box.oldStart box.newStart

def commonEnd (old new : Array String) (box : Box) : Nat :=
  matchBackward old new (min box.oldLength box.newLength) box.oldStop box.newStop

end Box

/-- How far a search has come on each diagonal. -/
abbrev Reach := Std.TreeMap Int Nat

namespace Reach

def along (reach : Reach) (diagonal : Int) : Nat :=
  reach.getD diagonal 0

/-- Where the next step enters a diagonal: from the neighbour that is further along. -/
def entry (reach : Reach) (depth : Nat) (diagonal : Int) : Nat :=
  if diagonal == -(depth : Int) ||
      (diagonal != depth && reach.along (diagonal - 1) < reach.along (diagonal + 1)) then
    reach.along (diagonal + 1)
  else
    reach.along (diagonal - 1) + 1

end Reach

def diagonals (depth : Nat) : List Int :=
  (List.range (depth + 1)).map fun i : Nat => (depth : Int) - 2 * i

structure Search where
  forward : Reach
  backward : Reach
  met : Option (Nat × Nat)

namespace Search

variable (old new : Array String) (box : Box)

def start : Search :=
  ⟨(∅ : Reach).insert 1 0, (∅ : Reach).insert 1 0, none⟩

def skew : Int :=
  (box.oldLength : Int) - box.newLength

def isOdd : Bool :=
  skew box % 2 != 0

def advance (depth : Nat) (search : Search) (diagonal : Int) : Search :=
  if search.met.isSome then search
  else
    let x := search.forward.entry depth diagonal
    let y : Int := x - diagonal
    -- A diagonal may be entered outside the box, where there is nothing to compare.
    let inside : Bool := x < box.oldLength && 0 ≤ y && y < box.newLength
    let slide :=
      if inside then
        Box.commonStart old new
          { box with oldStart := box.oldStart + x, newStart := box.newStart + y.toNat }
      else 0
    let forward := search.forward.insert diagonal (x + slide)
    -- The other search numbers the diagonals from the opposite corner.
    let across := diagonal - skew box
    let meets : Bool := isOdd box && across.natAbs + 1 ≤ depth &&
      box.oldLength ≤ x + slide + search.backward.along (-across)
    { search with
      forward
      met := if meets then some (box.oldStart + x, (box.newStart + y).toNat) else none }

def retreat (depth : Nat) (search : Search) (diagonal : Int) : Search :=
  if search.met.isSome then search
  else
    let x := search.backward.entry depth diagonal
    let y : Int := x - diagonal
    let inside : Bool := x < box.oldLength && 0 ≤ y && y < box.newLength
    let slide :=
      if inside then
        Box.commonEnd old new
          { box with oldStop := box.oldStop - x, newStop := box.newStop - y.toNat }
      else 0
    let backward := search.backward.insert diagonal (x + slide)
    let across := diagonal - skew box
    let meets : Bool := !isOdd box && across.natAbs ≤ depth &&
      box.oldLength ≤ x + slide + search.forward.along (-across)
    { search with
      backward
      met :=
        if meets then
          some (box.oldStop - (x + slide), ((box.newStop : Int) - (y + slide)).toNat)
        else none }

/-- One more step on every diagonal, forward and then backward. -/
def deepen (search : Search) (depth : Nat) : Search :=
  if search.met.isSome then search
  else
    (diagonals depth).foldl (retreat old new box depth)
      ((diagonals depth).foldl (advance old new box depth) search)

end Search

/-- A point on a shortest path through a box. -/
def middle? (old new : Array String) (box : Box) : Option (Nat × Nat) :=
  let depths := List.range ((box.oldLength + box.newLength + 1) / 2 + 1)
  (depths.foldl (Search.deepen old new box) Search.start).met

def keepIfAny (oldStart newStart length : Nat) : List Step :=
  if length == 0 then [] else [Step.keep oldStart newStart length]

/-- The steps through a box. Both boxes around a middle point are smaller, so `fuel` need be no
more than the lines of the box. -/
def conquer (old new : Array String) : (fuel : Nat) → Box → List Step
  | 0, _ => []
  | fuel + 1, box =>
    let atStart := box.commonStart old new
    let inner :=
      { box with oldStart := box.oldStart + atStart, newStart := box.newStart + atStart }
    let atEnd := inner.commonEnd old new
    let core := { inner with oldStop := inner.oldStop - atEnd, newStop := inner.newStop - atEnd }
    let steps :=
      if core.oldLength == 0 && core.newLength == 0 then []
      else if core.newLength == 0 then
        [Step.delete core.oldStart core.oldLength core.newStart]
      else if core.oldLength == 0 then
        [Step.insert core.oldStart core.newStart core.newLength]
      else
        -- A box without lines on one side is one step; any other is parted in two.
        match middle? old new core with
        | some (x, y) =>
          conquer old new fuel { core with oldStop := x, newStop := y } ++
            conquer old new fuel { core with oldStart := x, newStart := y }
        | none =>
          [Step.delete core.oldStart core.oldLength core.newStart,
            Step.insert core.oldStart core.newStart core.newLength]
    keepIfAny box.oldStart box.newStart atStart ++ steps ++
      keepIfAny core.oldStop core.newStop atEnd

def script (old new : Array String) : List Step :=
  conquer old new (old.size + new.size + 1) ⟨0, old.size, 0, new.size⟩

end ColorTokens.Diff
