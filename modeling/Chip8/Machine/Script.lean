import Chip8.Machine.Basic

/-!
# Scripted shells

A script is a shell whose polls are fixed in advance and which notes what it is
asked to do. When its polls are used up it is gone. It can also be muted, and then
does not notice beeps. A machine that runs with a script comes to an end, because
every cycle with a shell that is there uses up a poll.
-/

namespace Chip8

/-- What a scripted shell was asked to do. -/
inductive Request where
  /-- It was polled and was there. -/
  | polled
  /-- It was polled and was gone. -/
  | gone
  /-- It showed the screen. -/
  | drew
  /-- It beeped. -/
  | beeped
  deriving DecidableEq, Repr

/-- A shell that follows a script. -/
structure Script where
  /-- The screen. -/
  screen : Screen
  /-- The polls to come, the next one first. -/
  polls : List Poll
  /-- What the shell was asked to do, the earliest request first. -/
  log : List Request
  /-- The screen when it was last shown. -/
  shown : Option Screen
  /-- Whether beeps go unnoticed. -/
  muted : Bool
  deriving DecidableEq, Repr

namespace Script

/-- A script without polls, with a blank screen. -/
def start (muted : Bool) : Script := ⟨Screen.blank, [], [], none, muted⟩

/-- Add polls behind the ones to come. -/
def feed (script : Script) (polls : List Poll) : Script :=
  { script with polls := script.polls ++ polls }

/-- Note a request. -/
def note (script : Script) (request : Request) : Script :=
  { script with log := script.log ++ [request] }

/-- Take the next poll; without one the shell is gone. -/
def poll (script : Script) : Poll × Script :=
  match script.polls with
  | [] => (⟨[], false⟩, script.note .gone)
  | poll :: polls =>
    (poll, { script with polls }.note (if poll.alive then .polled else .gone))

/-- Show the screen. -/
def draw (script : Script) : Script :=
  { script with shown := some script.screen }.note .drew

/-- Beep, unless muted. -/
def beep (script : Script) : Script :=
  if script.muted then script else script.note .beeped

instance : Shell Script where
  poll := poll
  screen := Script.screen
  withScreen script screen := { script with screen }
  draw := draw
  beep := beep

@[simp] theorem polls_note (script : Script) (request : Request) :
    (script.note request).polls = script.polls := rfl

@[simp] theorem polls_draw (script : Script) : script.draw.polls = script.polls := rfl

@[simp] theorem polls_beep (script : Script) : script.beep.polls = script.polls := by
  unfold beep
  split <;> rfl

end Script

namespace Machine

/-- Showing the screen uses up no poll. -/
theorem polls_present (script : Script) : (present script).polls = script.polls := by
  unfold present
  split <;> rfl

/-- Beeping uses up no poll. -/
theorem polls_sound (cycle : Cycle) (script : Script) :
    (sound cycle script).polls = script.polls := by
  unfold sound
  split
  · exact script.polls_beep
  · rfl

/-- A cycle takes the first of the polls to come, if there is one. -/
theorem polls_cycle (machine : Machine) (script : Script) :
    (machine.cycle script).shell.polls = script.polls.tail := by
  have hpoll : (Shell.poll script).2.polls = script.polls.tail := by
    change (Script.poll script).2.polls = _
    unfold Script.poll
    split <;> simp_all
  rw [← hpoll]
  unfold cycle
  dsimp only
  split
  · split
    · rfl
    · rw [polls_present, polls_sound]
      rfl
  · rfl

/-- While the shell is there, there was a poll to take. -/
theorem polls_ne_nil_of_cycle {machine : Machine} {script : Script} {cycle : Cycle}
    (h : (machine.cycle script).result = .ok (some cycle)) : script.polls ≠ [] := by
  intro hnil
  have hpoll : Shell.poll script = (⟨[], false⟩, script.note .gone) := by
    change Script.poll script = _
    simp [Script.poll, hnil]
  simp [Machine.cycle, hpoll] at h

/-- A cycle in which a step is made uses up a poll. -/
theorem length_polls_lt_of_cycle {machine : Machine} {script : Script} {cycle : Cycle}
    (h : (machine.cycle script).result = .ok (some cycle)) :
    (machine.cycle script).shell.polls.length < script.polls.length := by
  have hpos := List.length_pos_iff.mpr (polls_ne_nil_of_cycle h)
  rw [polls_cycle, List.length_tail]
  omega

/-- Cycle until the shell is gone or a step is refused. -/
def run (machine : Machine) (script : Script) : Turn Script Unit :=
  match _h : machine.cycle script with
  | ⟨.ok (some _), machine', script'⟩ => run machine' script'
  | ⟨.ok none, machine', script'⟩ => ⟨.ok (), machine', script'⟩
  | ⟨.error fault, machine', script'⟩ => ⟨.error fault, machine', script'⟩
termination_by script.polls.length
decreasing_by
  have hless := length_polls_lt_of_cycle (congrArg Turn.result _h)
  rwa [_h] at hless

end Machine

end Chip8
