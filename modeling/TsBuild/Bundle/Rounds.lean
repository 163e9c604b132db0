import TsBuild.Bundle.Container

/-!
# Tasks in turns

Several tasks that one thread runs take turns. A task goes on until it has acted on the world, as one
that waits for other work does, until it has to wait for the world, or to its end. This is one order
of steps among many.
-/

namespace TsBuild.Bundle

namespace Task

variable {W α : Type}

/-- The steps of a task up to the first that acts on the world, that one included. -/
def turn : Task W α → Build W → Build W × Task W α
  | done result, build => (build, done result)
  | report entry next, build => next.turn { build with log := build.log ++ [entry] }
  | observe next, build => (next build.log).turn build
  | act ready effect next, build =>
    if ready build.world then ({ build with world := effect build.world }, next build.world)
    else (build, act ready effect next)

def round : List (Task W α) → Build W → Build W × List (Task W α)
  | [], build => (build, [])
  | task :: rest, build =>
    let (build, task) := task.turn build
    let (build, rest) := round rest build
    (build, task :: rest)

def result? : Task W α → Option α
  | done result => some result
  | _ => none

/-- Gives tasks turns until all have come to their end, but at most `rounds` turns each. -/
def runTogether : (rounds : Nat) → List (Task W α) → Build W → Option (Build W × List α)
  | 0, tasks, build => (tasks.mapM result?).map (build, ·)
  | rounds + 1, tasks, build =>
    match tasks.mapM result? with
    | some results => some (build, results)
    | none =>
      let (build, tasks) := round tasks build
      runTogether rounds tasks build

end Task

end TsBuild.Bundle
