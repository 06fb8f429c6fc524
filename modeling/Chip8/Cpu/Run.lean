import Chip8.Cpu.Step

/-!
# Runs of the processor

In a run the processor makes one step after another. Screen and keypad are lent to it
anew for every step, so they may be any; a step that is refused or waits for a key is
a step of the run like any other. The history of a run keeps what was executed: the
instruction of every step that made progress, with the state it was executed in.
-/

namespace Chip8

/-- What the processor is lent for one step. -/
structure Loan where
  /-- The screen. -/
  screen : Screen
  /-- The keypad. -/
  keypad : Keypad
  deriving DecidableEq, Repr

/-- An executed instruction. -/
structure Executed where
  /-- The processor just before. -/
  before : Cpu
  /-- The instruction. -/
  instruction : Instruction

/-- A step that made progress. -/
structure Advance extends Executed where
  /-- Whether the sound timer ran out. -/
  tone : Bool
  /-- The processor just after. -/
  after : Cpu

/-- The tone and the processor after a step, provided that it made progress. -/
def Outcome.progress? (outcome : Outcome Cycle) : Option (Bool × Cpu) :=
  match outcome.result with
  | .ok (.progressed tone) => some (tone, outcome.cpu)
  | _ => none

namespace Cpu

/-- What becomes of a step. -/
def outcome (cpu : Cpu) (loan : Loan) : Outcome Cycle := cpu.step loan.screen loan.keypad

/-- The processor after a step. -/
def after (cpu : Cpu) (loan : Loan) : Cpu := (cpu.outcome loan).cpu

/-- The processor after a run. -/
def run (cpu : Cpu) (loans : List Loan) : Cpu := loans.foldl after cpu

/-- What becomes of each step of a run. -/
def outcomes (cpu : Cpu) : List Loan → List (Outcome Cycle)
  | [] => []
  | loan :: loans => cpu.outcome loan :: (cpu.after loan).outcomes loans

/-- What a step executes, provided that it makes progress. -/
def executed? (cpu : Cpu) (loan : Loan) : Option Executed :=
  match (cpu.outcome loan).result, cpu.peek with
  | .ok (.progressed _), .ok (some instruction) => some ⟨cpu, instruction⟩
  | _, _ => none

/-- What a run executes, the earliest instruction first. -/
def history (cpu : Cpu) : List Loan → List Executed
  | [] => []
  | loan :: loans => (cpu.executed? loan).toList ++ (cpu.after loan).history loans

/-- What a step does, provided that it makes progress. -/
def advance? (cpu : Cpu) (loan : Loan) : Option Advance :=
  match (cpu.outcome loan).result, cpu.peek with
  | .ok (.progressed tone), .ok (some instruction) =>
    some ⟨⟨cpu, instruction⟩, tone, cpu.after loan⟩
  | _, _ => none

/-- The steps of a run that make progress, the earliest first. -/
def advances (cpu : Cpu) : List Loan → List Advance
  | [] => []
  | loan :: loans => (cpu.advance? loan).toList ++ (cpu.after loan).advances loans

@[simp] theorem run_nil (cpu : Cpu) : cpu.run [] = cpu := rfl

@[simp] theorem run_cons (cpu : Cpu) (loan : Loan) (loans : List Loan) :
    cpu.run (loan :: loans) = (cpu.after loan).run loans := rfl

/-- Whatever stands in a history was executed by a step from the state it is noted with. -/
theorem executed_of_mem_history {cpu : Cpu} {loans : List Loan} {entry : Executed}
    (h : entry ∈ cpu.history loans) : ∃ loan, entry.before.executed? loan = some entry := by
  induction loans generalizing cpu with
  | nil => cases h
  | cons loan loans ih =>
    rcases List.mem_append.mp h with hstep | hrest
    · have hentry : cpu.executed? loan = some entry := Option.mem_toList.mp hstep
      have hbefore : entry.before = cpu := by
        unfold executed? at hentry
        split at hentry
        · cases hentry
          rfl
        · cases hentry
      exact ⟨loan, hbefore ▸ hentry⟩
    · exact ih hrest

end Cpu

end Chip8
