import TsBuild.Diagnostic.Report

/-!
# Tasks

A build runs tasks that share a log and a world. A task is what it does next, step by step: it
reports to the log, looks at the log, or waits until the world allows it to act on it. Between two
steps other tasks may run, so what one step saw may be out of date at the next. Entries are only
ever added to the log. `Task.step?` takes a single step, and `Task.run` runs a task by itself.
-/

namespace TsBuild

def LogEntry.text (entry : LogEntry) : String :=
  match entry.loc with
  | some loc => loc.text ++ ": " ++ entry.message
  | none => entry.message

namespace Bundle

abbrev Log := List LogEntry

namespace Log

def errors (log : Log) : Log := log.filter fun entry => entry.level = .error
def warnings (log : Log) : Log := log.filter fun entry => entry.level = .warning

end Log

structure Build (W : Type) where
  log : Log := []
  world : W

inductive Task (W α : Type)
  | done (result : α)
  | report (entry : LogEntry) (next : Task W α)
  | observe (next : Log → Task W α)
  /-- Waits for a world that is ready, changes it, and goes on with what it was. -/
  | act (ready : W → Bool) (effect : W → W) (next : W → Task W α)

namespace Task

variable {W α β : Type}

def bind (task : Task W α) (f : α → Task W β) : Task W β :=
  match task with
  | done result => f result
  | report entry next => .report entry (next.bind f)
  | observe next => .observe fun log => (next log).bind f
  | act ready effect next => .act ready effect fun w => (next w).bind f

instance : Monad (Task W) where
  pure := done
  bind := bind

/-- The build after a task has run by itself, with its result; none if it waits. -/
def run : Task W α → Build W → Option (Build W × α)
  | done result, build => some (build, result)
  | report entry next, build => next.run { build with log := build.log ++ [entry] }
  | observe next, build => (next build.log).run build
  | act ready effect next, build =>
    if ready build.world then (next build.world).run { build with world := effect build.world }
    else none

/-- The next step of a task: what it reports, the world after it and what is left to do. There is none
when the task has come to its end or waits. -/
def step? (task : Task W α) (log : Log) (world : W) : Option (List LogEntry × W × Task W α) :=
  match task with
  | done _ => none
  | report entry next => some ([entry], world, next)
  | observe next => some ([], world, next log)
  | act ready effect next => if ready world then some ([], effect world, next world) else none

-- ---------------------------------------------------------------------------
-- Single steps
-- ---------------------------------------------------------------------------

def log : Task W Log := .observe .done

def errors : Task W Log := .observe fun log => .done log.errors

def reportAll : List LogEntry → Task W Unit
  | [] => .done ()
  | entry :: rest => .report entry (reportAll rest)

def read (f : W → α) : Task W α := .act (fun _ => true) id fun w => .done (f w)

def modify (f : W → W) : Task W Unit := .act (fun _ => true) f fun _ => .done ()

end Task

-- ---------------------------------------------------------------------------
-- Values computed once
-- ---------------------------------------------------------------------------

inductive Cell (α : Type)
  | empty
  | busy
  | full (value : α)
  deriving Repr

namespace Cell

variable {α : Type}

def isBusy : Cell α → Bool
  | busy => true
  | _ => false

def claimed : Cell α → Cell α
  | empty => busy
  | cell => cell

def value? : Cell α → Option α
  | full value => some value
  | _ => none

end Cell

structure Slot (W α : Type) where
  get : W → Cell α
  set : Cell α → W → W

/-- The value of a cell, computed by the first task that asks for it; later ones wait for it. -/
def Slot.once {W α : Type} (slot : Slot W α) (compute : Task W α) : Task W α :=
  .act (fun w => !(slot.get w).isBusy) (fun w => slot.set (slot.get w).claimed w) fun w =>
    match slot.get w with
    | .full value => .done value
    | _ => do
      let value ← compute
      Task.modify (slot.set (.full value))
      return value

end Bundle

end TsBuild
