import ColorTokens.Diff.Script

/-! Compacting edit scripts. A run of insertions can be slid along kept lines that repeat its own;
sliding each change as far up and then as far down as it goes joins changes that only such lines
part. -/

set_option autoImplicit false

namespace ColorTokens.Diff

structure Focus where
  /-- The steps before, the nearest first. -/
  before : List Step
  step : Step
  after : List Step

namespace Focus

/-- What a slide can use up: the steps on one side and the lines they keep. -/
def weight : List Step → Nat
  | [] => 0
  | step :: rest => step.oldLength + 1 + weight rest

def absorb (step other : Step) : Step :=
  match step.change with
  | .insert => { step with newLength := step.newLength + other.newLength }
  | _ => { step with oldLength := step.oldLength + other.oldLength }

def dropEnd (run : Step) (count : Nat) : Step :=
  { run with oldLength := run.oldLength - count, newLength := run.newLength - count }

def dropStart (run : Step) (count : Nat) : Step :=
  { dropEnd run count with oldStart := run.oldStart + count, newStart := run.newStart + count }

def pushAfter (run : Step) : List Step → List Step
  | next :: rest =>
    if next.change == .keep then
      { next with
        oldStart := next.oldStart - run.oldLength
        newStart := next.newStart - run.oldLength
        oldLength := next.oldLength + run.oldLength
        newLength := next.newLength + run.oldLength } :: rest
    else run :: next :: rest
  | [] => [run]

def pushBefore (run : Step) : List Step → List Step
  | next :: rest =>
    if next.change == .keep then
      { next with
        oldLength := next.oldLength + run.oldLength
        newLength := next.newLength + run.oldLength } :: rest
    else run :: next :: rest
  | [] => [run]

def nonempty (run : Step) (rest : List Step) : List Step :=
  if run.oldLength == 0 then rest else run :: rest

variable (old new : Array String)

/-- The lines at the end of a kept run that the change behind it ends with too. -/
def sharedEnd (run step : Step) : Nat :=
  Box.commonEnd old new ⟨run.oldStart, run.oldStop, step.newStart, step.newStop⟩

def sharedStart (run step : Step) : Nat :=
  Box.commonStart old new ⟨run.oldStart, run.oldStop, step.newStart, step.newStop⟩

/-- Slides the change up, past changes of the other kind, and joins those of its own. -/
def slideUp : (fuel : Nat) → Focus → Focus
  | 0, focus => focus
  | fuel + 1, focus =>
    match focus.before with
    | [] => focus
    | run :: before =>
      let step := focus.step
      if run.change == .keep then
        let count := sharedEnd old new run step
        if count == 0 then
          -- An empty run is in nobody's way.
          if run.oldLength == 0 then slideUp fuel { focus with before } else focus
        else
          -- The lines that both end with move from before the change to behind it.
          slideUp fuel {
            before := nonempty (dropEnd run count) before
            step :=
              { step with oldStart := step.oldStart - count, newStart := step.newStart - count }
            after :=
              pushAfter (Step.keep (run.oldStop - count) (step.newStop - count) count)
                focus.after }
      else if run.change == step.change then
        slideUp fuel { focus with before, step := absorb run step }
      else
        -- A deletion and an insertion side by side may stand in either order.
        slideUp fuel { focus with before, after := run :: focus.after }

def slideDown : (fuel : Nat) → Focus → Focus
  | 0, focus => focus
  | fuel + 1, focus =>
    match focus.after with
    | [] => focus
    | run :: after =>
      let step := focus.step
      if run.change == .keep then
        let count := sharedStart old new run step
        if count == 0 then
          if run.oldLength == 0 then slideDown fuel { focus with after } else focus
        else
          slideDown fuel {
            before := pushBefore (Step.keep run.oldStart step.newStart count) focus.before
            step :=
              { step with oldStart := step.oldStart + count, newStart := step.newStart + count }
            after := nonempty (dropStart run count) after }
      else if run.change == step.change then
        slideDown fuel { focus with after, step := absorb step run }
      else
        slideDown fuel { focus with before := run :: focus.before, after }

/-- Slides the change up and then down. Every move takes a step or a kept line from the side it
goes to, which bounds the moves. -/
def settle (focus : Focus) : Focus :=
  let raised := slideUp old new (weight focus.before) focus
  slideDown old new (weight raised.after) raised

end Focus

/-- Settles every change of one kind. A settled change ends no higher than it was, so the lines
left to pass become fewer with every step. -/
def compactKind (old new : Array String) (change : Change) :
    (fuel : Nat) → (before after : List Step) → List Step
  | 0, before, after => before.reverse ++ after
  | _ + 1, before, [] => before.reverse
  | fuel + 1, before, step :: after =>
    if step.change == change then
      let focus := Focus.settle old new ⟨before, step, after⟩
      compactKind old new change fuel (focus.step :: focus.before) focus.after
    else
      compactKind old new change fuel (step :: before) after

def compact (old new : Array String) (steps : List Step) : List Step :=
  let settleAll := fun (change : Change) (steps : List Step) =>
    compactKind old new change (old.size + new.size + steps.length + 1) [] steps
  settleAll .insert (settleAll .delete steps)

end ColorTokens.Diff
