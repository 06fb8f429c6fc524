import Chip8.Proofs.Cpu.Obstacles
import Chip8.Proofs.Machine.Polls

/-!
# Waiting for a key

One instruction can block a step, and it does so while no key is down. A blocked step
leaves everything as it is, so a machine that stands at this instruction meets it again in
every cycle, with the keys as the polls have left them by then, until a poll leaves some
key down. The wait then ends with the lowest of these keys.
-/

namespace Chip8

namespace Cpu

variable {cpu : Cpu} {x : UInt8} (screen : Screen) (keypad : Keypad)

/-- The opcode at the program counter is the one that waits for a key to go into `x`. -/
def AwaitsKey (cpu : Cpu) (x : UInt8) : Prop :=
  cpu.counter.toNat ≤ 0xFFE ∧ cpu.opcode / 0x1000 = 0xF ∧ cpu.opcode % 0x100 = 0x0A ∧
    cpu.opcode / 0x100 % 0x10 = x.toNat

theorem awaitsKey_iff : cpu.AwaitsKey x ↔ cpu.peek = .ok (some (.waitKey x)) := by
  rw [peek_eq_some_iff_standsFor]
  rfl

/-- The state in which the wait for a key ends. -/
def withKey (cpu : Cpu) (x key : UInt8) : Cpu :=
  { cpu with
    counter := cpu.counter + 2
    registers := cpu.registers.set x key
    timers := cpu.timers.tick }

/-- While no key is down nothing changes. -/
theorem AwaitsKey.step_of_none (h : cpu.AwaitsKey x) (hkey : keypad.firstDown? = none) :
    cpu.step screen keypad = ⟨.ok .blocked, cpu, screen⟩ := by
  have hpeek := awaitsKey_iff.mp h
  rw [step_of_accepted screen keypad hpeek rfl]
  simp only [execute, flow, hkey, Option.isNone_none, if_true, complete, Flow.target?]

/-- A key that is down ends the wait. -/
theorem AwaitsKey.step_of_some (h : cpu.AwaitsKey x) {key : UInt8}
    (hkey : keypad.firstDown? = some key) :
    cpu.step screen keypad =
      ⟨.ok (.progressed cpu.timers.expiring), cpu.withKey x key, screen⟩ := by
  have hpeek := awaitsKey_iff.mp h
  rw [step_of_accepted screen keypad hpeek rfl]
  simp only [execute, flow, hkey]
  rfl

/-- Nothing else blocks a step. -/
theorem result_eq_blocked_iff :
    (cpu.step screen keypad).result = .ok .blocked ↔
      (∃ x, cpu.AwaitsKey x) ∧ keypad.firstDown? = none := by
  constructor
  · intro h
    cases hfault : cpu.fault? with
    | some fault =>
      rw [step_of_fault? screen keypad hfault] at h
      cases h
    | none =>
      obtain ⟨instruction, hpeek, haccepted⟩ := exists_accepted hfault
      rw [step_of_accepted screen keypad hpeek haccepted] at h
      have hwait : cpu.flow keypad instruction = .wait := by
        cases htarget : (cpu.flow keypad instruction).target?
            (cpu.execute screen keypad instruction).cpu.counter with
        | none => exact Flow.target?_eq_none_iff.mp htarget
        | some target => simp [complete, htarget] at h
      obtain ⟨⟨x, rfl⟩, hkey⟩ := (flow_eq_wait_iff keypad haccepted).mp hwait
      exact ⟨⟨x, awaitsKey_iff.mpr hpeek⟩, hkey⟩
  · rintro ⟨⟨x, hawaits⟩, hkey⟩
    rw [hawaits.step_of_none screen keypad hkey]

/-- A blocked step leaves everything as it is. -/
theorem step_of_blocked (h : (cpu.step screen keypad).result = .ok .blocked) :
    cpu.step screen keypad = ⟨.ok .blocked, cpu, screen⟩ := by
  obtain ⟨⟨x, hawaits⟩, hkey⟩ := (result_eq_blocked_iff screen keypad).mp h
  exact hawaits.step_of_none screen keypad hkey

end Cpu

namespace Machine

private theorem ok_of_map_some {result : Except Fault Cycle} {cycle : Cycle}
    (h : result.map some = .ok (some cycle)) : result = .ok cycle := by
  cases result with
  | error fault => cases h
  | ok made =>
    cases h
    rfl

open Queued

variable {σ : Type} [Shell σ] [Queued σ]

/-- The keys with which the cycle behind `n` others is made. -/
def keysAt (machine : Machine) (shell : σ) (n : Nat) : Keypad :=
  machine.keypad.behind ((queue shell).take (n + 1))

variable {machine : Machine} {shell : σ} {x : UInt8} {n : Nat}

/-- A cycle that finds the shell there and no key down is spent waiting. -/
theorem turnAt_of_awaitsKey (hawaits : (machine.reached shell n).1.cpu.AwaitsKey x)
    (halive : (pollAt (queue shell) n).alive = true)
    (hkey : (machine.keysAt shell n).firstDown? = none) :
    let here := machine.reached shell n
    let turn := machine.turnAt shell n
    turn.result = .ok (some .blocked) ∧ turn.machine.cpu = here.1.cpu ∧
      (Shell.screen turn.shell).pixels = (Shell.screen here.2).pixels := by
  intro here turn
  have hturn := turnAt_eq_step machine shell halive rfl
  rw [← keysAt, hawaits.step_of_none _ _ hkey] at hturn
  exact hturn

/-- As long as no key is down the machine stands where it was. -/
theorem reached_of_awaitsKey (hawaits : machine.cpu.AwaitsKey x)
    (halive : ∀ poll ∈ queue shell, poll.alive = true) (hn : n ≤ (queue shell).length)
    (hkeys : ∀ i < n, (machine.keysAt shell i).firstDown? = none) :
    (machine.reached shell n).1.cpu = machine.cpu ∧
      (Shell.screen (machine.reached shell n).2).pixels = (Shell.screen shell).pixels := by
  induction n with
  | zero => exact ⟨rfl, rfl⟩
  | succ n ih =>
    obtain ⟨hcpu, hpixels⟩ := ih (Nat.le_of_succ_le hn) fun i hi => hkeys i (Nat.lt_succ_of_lt hi)
    obtain ⟨-, hcpu', hpixels'⟩ := turnAt_of_awaitsKey (hcpu ▸ hawaits)
      (alive_pollAt halive hn) (hkeys n (Nat.lt_succ_self n))
    exact ⟨hcpu'.trans hcpu, hpixels'.trans hpixels⟩

/-- It waits in just these cycles. -/
theorem blocked_before_iff (hawaits : machine.cpu.AwaitsKey x)
    (halive : ∀ poll ∈ queue shell, poll.alive = true) (n : Nat) :
    (∀ i < n, (machine.turnAt shell i).result = .ok (some .blocked)) ↔
      n ≤ (queue shell).length ∧ ∀ i < n, (machine.keysAt shell i).firstDown? = none := by
  constructor
  · intro hblocked
    induction n with
    | zero => exact ⟨Nat.zero_le _, by simp⟩
    | succ n ih =>
      obtain ⟨hn, hkeys⟩ := ih fun i hi => hblocked i (Nat.lt_succ_of_lt hi)
      have hresult := hblocked n (Nat.lt_succ_self n)
      cases hpoll : (pollAt (queue shell) n).alive with
      | false =>
        rw [(turnAt_of_gone machine shell hpoll).1] at hresult
        cases hresult
      | true =>
        refine ⟨lt_length_of_alive hpoll, fun i hi => ?_⟩
        rcases Nat.lt_succ_iff_lt_or_eq.mp hi with hlt | rfl
        · exact hkeys i hlt
        · obtain ⟨hstep, -⟩ := turnAt_eq_step machine shell hpoll rfl
          rw [hstep] at hresult
          exact ((Cpu.result_eq_blocked_iff _ _).mp (ok_of_map_some hresult)).2
  · rintro ⟨hn, hkeys⟩ i hi
    have hbefore := reached_of_awaitsKey hawaits halive (Nat.le_of_lt (Nat.lt_of_lt_of_le hi hn))
      fun j hj => hkeys j (Nat.lt_trans hj hi)
    exact (turnAt_of_awaitsKey (hbefore.1 ▸ hawaits)
      (alive_pollAt halive (Nat.lt_of_lt_of_le hi hn)) (hkeys i hi)).1

/-- The first poll that leaves a key down ends the wait, with the lowest such key. -/
theorem turnAt_of_firstDown? (hawaits : machine.cpu.AwaitsKey x)
    (halive : ∀ poll ∈ queue shell, poll.alive = true) (hn : n < (queue shell).length)
    (hkeys : ∀ i < n, (machine.keysAt shell i).firstDown? = none) {key : UInt8}
    (hkey : (machine.keysAt shell n).firstDown? = some key) :
    let turn := machine.turnAt shell n
    turn.result = .ok (some (.progressed machine.cpu.timers.expiring)) ∧
      turn.machine.cpu = machine.cpu.withKey x key := by
  intro turn
  obtain ⟨hcpu, -⟩ := reached_of_awaitsKey hawaits halive (Nat.le_of_lt hn) hkeys
  obtain ⟨hresult, hcpu', -⟩ := turnAt_eq_step machine shell (alive_pollAt halive hn) rfl
  rw [← keysAt, hcpu, hawaits.step_of_some _ _ hkey] at hresult hcpu'
  exact ⟨hresult, hcpu'⟩

/-- A key that comes up again within one poll ends no wait. -/
example : (Keypad.empty.behind [⟨[.pressed 7, .released 7], true⟩]).firstDown? = none := by
  decide +kernel

end Machine

end Chip8
