import ColorTokens.Diff.Compaction
import ColorTokens.Diff.Lines

/-! Hunks of a unified diff: changes with up to three kept lines around them. -/

set_option autoImplicit false

namespace ColorTokens.Diff

/-- Old lines and the new lines in their place; those of a kept block are the same. -/
structure Block where
  kept : Bool
  oldStart : Nat
  oldLength : Nat
  newStart : Nat
  newLength : Nat
  deriving DecidableEq, Repr

namespace Block

def oldStop (block : Block) : Nat :=
  block.oldStart + block.oldLength

def newStop (block : Block) : Nat :=
  block.newStart + block.newLength

end Block

/-- Neighbouring steps as one step each: a kept run, and the deletions and insertions between two
kept runs. -/
structure Gathered where
  deletion : Option Step
  insertion : Option Step
  keep : Option Step

namespace Gathered

def nothing : Gathered :=
  ⟨none, none, none⟩

def changeBlocks (gathered : Gathered) : List Block :=
  match gathered.deletion, gathered.insertion with
  | some deletion, some insertion =>
    [⟨false, deletion.oldStart, deletion.oldLength, insertion.newStart, insertion.newLength⟩]
  | some step, none | none, some step =>
    [⟨false, step.oldStart, step.oldLength, step.newStart, step.newLength⟩]
  | none, none => []

def keptBlocks (gathered : Gathered) : List Block :=
  gathered.keep.toList.map fun step =>
    ⟨true, step.oldStart, step.oldLength, step.newStart, step.newLength⟩

def join (step : Step) : Option Step → Option Step
  | some earlier =>
    some { earlier with
      oldLength := earlier.oldLength + step.oldLength
      newLength := earlier.newLength + step.newLength }
  | none => some step

end Gathered

def gather (gathered : Gathered) : List Step → List Block
  | [] => gathered.changeBlocks ++ gathered.keptBlocks
  | step :: rest =>
    match step.change with
    | .keep =>
      gathered.changeBlocks ++
        gather { Gathered.nothing with keep := Gathered.join step gathered.keep } rest
    | .delete =>
      gathered.keptBlocks ++
        gather { gathered with
          keep := none, deletion := Gathered.join step gathered.deletion } rest
    | .insert =>
      gathered.keptBlocks ++
        gather { gathered with
          keep := none, insertion := Gathered.join step gathered.insertion } rest

def blocks (steps : List Step) : List Block :=
  gather Gathered.nothing steps

def radius : Nat :=
  3

namespace Block

def lastLines (block : Block) : Block :=
  if block.kept then
    let extra := block.oldLength - radius
    { block with
      oldStart := block.oldStart + extra
      newStart := block.newStart + extra
      oldLength := block.oldLength - extra
      newLength := block.newLength - extra }
  else
    block

def firstLines (block : Block) : Block :=
  if block.kept then
    { block with
      oldLength := min block.oldLength radius
      newLength := min block.newLength radius }
  else
    block

def isLong (block : Block) : Bool :=
  block.kept && 2 * radius < block.oldLength

end Block

abbrev Hunk := List Block

def modifyLast (f : Block → Block) : List Block → List Block
  | [] => []
  | [block] => [f block]
  | block :: rest => block :: modifyLast f rest

/-- Cuts the blocks in two wherever more lines are kept than the hunks around would show. -/
def splitHunks (pending : Hunk) : List Block → List Hunk
  | [] => [pending]
  | block :: rest =>
    if block.isLong then (pending ++ [block.firstLines]) :: splitHunks [block.lastLines] rest
    else splitHunks (pending ++ [block]) rest

/-- A last hunk of at most one kept block shows no change. -/
def dropIdle : List Hunk → List Hunk
  | [] => []
  | [hunk] =>
    match hunk with
    | [] => []
    | [block] => if block.kept then [] else [hunk]
    | _ => [hunk]
  | hunk :: rest => hunk :: dropIdle rest

def hunks (all : List Block) : List Hunk :=
  match all with
  | [] => []
  | first :: rest =>
    dropIdle (splitHunks [] (modifyLast Block.firstLines (first.lastLines :: rest)))

/-- A range of lines as a hunk's heading gives it, counted from one. -/
def rangeText (start stop : Nat) : String :=
  let length := stop - start
  if length == 1 then toString (start + 1)
  else if length == 0 then toString start ++ ",0"
  else toString (start + 1) ++ "," ++ toString length

def missingLineEnd : String :=
  "\n\\ No newline at end of file\n"

def markedLine (mark line : String) : String :=
  mark ++ line ++ if isClosed line then "" else missingLineEnd

def markedLines (mark : String) (source : Array String) (start stop : Nat) : String :=
  String.join ((source.extract start stop).toList.map (markedLine mark))

def Block.render (old new : Array String) (block : Block) : String :=
  if block.kept then
    markedLines " " old block.oldStart block.oldStop
  else
    markedLines "-" old block.oldStart block.oldStop ++
      markedLines "+" new block.newStart block.newStop

def Hunk.heading (hunk : Hunk) : String :=
  match hunk.head?, hunk.getLast? with
  | some first, some last =>
    "@@ -" ++ rangeText first.oldStart last.oldStop ++ " +" ++
      rangeText first.newStart last.newStop ++ " @@\n"
  | _, _ => ""

def Hunk.render (old new : Array String) (hunk : Hunk) : String :=
  Hunk.heading hunk ++ String.join (hunk.map (Block.render old new))

def between (before after : String) : List String :=
  let old := linesOf before
  let new := linesOf after
  (hunks (blocks (compact old new (script old new)))).map (Hunk.render old new)

end ColorTokens.Diff
