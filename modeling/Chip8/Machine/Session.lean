import Chip8.Machine.Script

/-!
# Sessions

Cycles follow one another, each with the machine and the shell that the one before left
behind. A machine with a script can be given single cycles or be left to run, and the
script can be fed more polls whenever the machine stands still: a session is any sequence
of these operations on a program at its start. The trace of a session keeps all of its
cycles, whether they were made one at a time or in a run.
-/

namespace Chip8

/-- Whether a step was made: the shell was there and the step was not refused. -/
def Turn.stepped {σ : Type} (turn : Turn σ (Option Cycle)) : Bool :=
  match turn.result with
  | .ok (some _) => true
  | _ => false

namespace Machine

/-- The machine and its shell after a number of cycles. -/
def reached {σ : Type} [Shell σ] (machine : Machine) (shell : σ) : Nat → Machine × σ
  | 0 => (machine, shell)
  | n + 1 =>
    let (machine, shell) := machine.reached shell n
    let turn := machine.cycle shell
    (turn.machine, turn.shell)

/-- What the next cycle after a number of others does. -/
def turnAt {σ : Type} [Shell σ] (machine : Machine) (shell : σ) (n : Nat) :
    Turn σ (Option Cycle) :=
  (machine.reached shell n).1.cycle (machine.reached shell n).2

/-- The cycles of a run, the earliest first. -/
def turns (machine : Machine) (script : Script) : List (Turn Script (Option Cycle)) :=
  match _h : machine.cycle script with
  | ⟨.ok (some cycle), machine', script'⟩ =>
    ⟨.ok (some cycle), machine', script'⟩ :: turns machine' script'
  | turn => [turn]
termination_by script.polls.length
decreasing_by
  have hless := length_polls_lt_of_cycle (congrArg Turn.result _h)
  rwa [_h] at hless

end Machine

/-- What can be done with a machine and its script. -/
inductive Operation where
  /-- Add polls behind the ones to come. -/
  | feed (polls : List Poll)
  /-- Make one cycle. -/
  | cycle
  /-- Run until the shell is gone or a step is refused. -/
  | run
  deriving DecidableEq, Repr

/-- A machine and its script. -/
structure Session where
  /-- The machine. -/
  machine : Machine
  /-- The script. -/
  script : Script

namespace Session

/-- A program at its start with a script that has no polls yet. -/
def start (rom : Rom) (random : Random) (muted : Bool) : Session :=
  ⟨Machine.ofCpu (Cpu.ofSource rom random), Script.start muted⟩

/-- The session after an operation. -/
def after (session : Session) : Operation → Session
  | .feed polls => { session with script := session.script.feed polls }
  | .cycle =>
    let turn := session.machine.cycle session.script
    ⟨turn.machine, turn.shell⟩
  | .run =>
    let turn := session.machine.run session.script
    ⟨turn.machine, turn.shell⟩

/-- The session after a sequence of operations. -/
def perform (session : Session) (operations : List Operation) : Session :=
  operations.foldl after session

/-- The cycles that an operation makes, the earliest first. -/
def turns (session : Session) : Operation → List (Turn Script (Option Cycle))
  | .feed _ => []
  | .cycle => [session.machine.cycle session.script]
  | .run => session.machine.turns session.script

/-- The cycles that a sequence of operations makes, the earliest first. -/
def trace (session : Session) : List Operation → List (Turn Script (Option Cycle))
  | [] => []
  | operation :: operations =>
    session.turns operation ++ (session.after operation).trace operations

end Session

end Chip8
