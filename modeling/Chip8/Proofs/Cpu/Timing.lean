import Chip8.Proofs.Cpu.Progress

/-!
# Timers over a run

Only steps that make progress count for the timers, so these are numbered and the others
are passed over. From the step that set it a timer loses one in every step, that one
included, until it is set again. The tone sounds in the step that takes the sound timer to
zero, and so each tone goes back to the last step before it that set this timer.
-/

namespace Chip8

/-- One of the two timers. -/
inductive Timer where
  | delay
  | sound
  deriving DecidableEq, Repr

/-- What one of the timers shows. -/
def Timers.value (timers : Timers) : Timer → UInt8
  | .delay => timers.delay
  | .sound => timers.sound

/-- The value that an executed instruction puts into a timer, if it sets this timer. -/
def Executed.sets? (entry : Executed) : Timer → Option UInt8
  | .delay => match entry.instruction with
    | .setDelay x => some (entry.before.registers.get x)
    | _ => none
  | .sound => match entry.instruction with
    | .setSound x => some (entry.before.registers.get x)
    | _ => none

/-- The timers in a step, behind its instruction and before they tick. -/
def Advance.loaded (step : Advance) : Timers := step.before.timersAfter step.instruction

/-- Up to step `j` of a list it is step `k` that set a timer last, to a given value. -/
structure SetLast (steps : List Advance) (timer : Timer) (k j : Nat) (value : UInt8) : Prop where
  /-- Step `k` comes no later than step `j`. -/
  le : k ≤ j
  /-- Step `k` sets the timer. -/
  set : ∃ step, steps[k]? = some step ∧ step.sets? timer = some value
  /-- No later step up to step `j` sets it again. -/
  unset : ∀ i, k < i → i ≤ j → ∀ step, steps[i]? = some step → step.sets? timer = none

theorem Timers.value_tick (timers : Timers) (timer : Timer) :
    (timers.tick.value timer).toNat = (timers.value timer).toNat - 1 := by
  cases timer <;> exact toNat_countDown _

/-- An instruction either sets a timer or leaves it as it is. -/
theorem Advance.value_loaded (step : Advance) (timer : Timer) :
    step.loaded.value timer = (step.sets? timer).getD (step.before.timers.value timer) := by
  obtain ⟨⟨before, instruction⟩, tone, after⟩ := step
  cases timer <;> cases instruction <;> rfl

namespace Cpu

variable {cpu : Cpu} {loans : List Loan} {timer : Timer} {k m j : Nat} {value : UInt8}
  {step first last : Advance}

theorem timers_after_of_getElem? (h : (cpu.advances loans)[k]? = some step) :
    step.after.timers = step.loaded.tick := by
  obtain ⟨loan, hexec, -, hafter⟩ := executes_of_mem_advances (List.mem_of_getElem? h)
  rw [hafter, hexec.timers, Advance.loaded]

/-- The tone sounds in a step in which the sound timer stands at one before it ticks. -/
theorem tone_eq_true_iff (h : (cpu.advances loans)[k]? = some step) :
    step.tone = true ↔ (step.loaded.value .sound).toNat = 1 := by
  obtain ⟨loan, -, htone, -⟩ := executes_of_mem_advances (List.mem_of_getElem? h)
  rw [htone, ← Advance.loaded, Timers.expiring, decide_eq_true_iff, ← UInt8.toNat_inj]
  rfl

/-- A timer that is not set again has lost one in each step since. -/
theorem toNat_loaded_add (hfirst : (cpu.advances loans)[k]? = some first)
    (hunset : ∀ i, k < i → i ≤ k + m → ∀ step, (cpu.advances loans)[i]? = some step →
      step.sets? timer = none)
    (hlast : (cpu.advances loans)[k + m]? = some last) :
    (last.loaded.value timer).toNat = (first.loaded.value timer).toNat - m := by
  induction m generalizing last with
  | zero =>
    rw [Nat.add_zero, hfirst] at hlast
    cases hlast
    rfl
  | succ m ih =>
    obtain ⟨hlt, -⟩ := List.getElem?_eq_some_iff.mp hlast
    have hprevious := List.getElem?_eq_getElem (Nat.lt_of_succ_lt hlt)
    have hvalue := ih (fun i hlow hhigh => hunset i hlow (Nat.le_succ_of_le hhigh)) hprevious
    have hbefore := before_of_getElem?_succ hprevious hlast
    have hkept := last.value_loaded timer
    rw [hunset (k + m + 1) (by omega) (Nat.le_refl _) last hlast, Option.getD_none, hbefore,
      timers_after_of_getElem? hprevious] at hkept
    rw [hkept, Timers.value_tick, hvalue]
    omega

/-- What a timer shows depends on the step that set it last. -/
theorem toNat_loaded_of_setLast (h : SetLast (cpu.advances loans) timer k (k + m) value)
    (hlast : (cpu.advances loans)[k + m]? = some last) :
    (last.loaded.value timer).toNat = value.toNat - m := by
  obtain ⟨first, hfirst, hset⟩ := h.set
  rw [toNat_loaded_add hfirst h.unset hlast, first.value_loaded, hset, Option.getD_some]

theorem toNat_after_of_setLast (h : SetLast (cpu.advances loans) timer k (k + m) value)
    (hlast : (cpu.advances loans)[k + m]? = some last) :
    (last.after.timers.value timer).toNat = value.toNat - 1 - m := by
  rw [timers_after_of_getElem? hlast, Timers.value_tick, toNat_loaded_of_setLast h hlast]
  omega

theorem tone_iff_of_setLast (h : SetLast (cpu.advances loans) .sound k (k + m) value)
    (hlast : (cpu.advances loans)[k + m]? = some last) :
    last.tone = true ↔ value.toNat = m + 1 := by
  rw [tone_eq_true_iff hlast, toNat_loaded_of_setLast h hlast]
  omega

/-- A step that reads the delay timer finds it as the step before left it. -/
theorem toNat_readDelay_of_setLast {x : UInt8}
    (h : SetLast (cpu.advances loans) .delay k (k + m) value)
    (hlast : (cpu.advances loans)[k + m]? = some last) (hread : last.instruction = .readDelay x) :
    (last.after.registers.get x).toNat = value.toNat - m := by
  obtain ⟨loan, hexec, -, hafter⟩ := executes_of_mem_advances (List.mem_of_getElem? hlast)
  have hloaded : last.loaded.value .delay = last.before.timers.delay := by
    rw [Advance.loaded, hread]
    rfl
  rw [← toNat_loaded_of_setLast h hlast, hloaded, hafter, hexec.registers, hread, execute,
    setRegister, Registers.get_set, if_pos rfl]

end Cpu

/-! ## What sets off a tone -/

section SetLast

variable {steps : List Advance} {timer : Timer} {i j k l : Nat} {value other : UInt8}

theorem SetLast.of_le (h : SetLast steps timer k j value) (hk : k ≤ i) (hi : i ≤ j) :
    SetLast steps timer k i value :=
  ⟨hk, h.set, fun l hlow hhigh => h.unset l hlow (Nat.le_trans hhigh hi)⟩

theorem SetLast.le_of_setLast (h : SetLast steps timer k j value)
    (h' : SetLast steps timer l j other) : l ≤ k := by
  refine Nat.le_of_not_lt fun hlt => ?_
  obtain ⟨step, hstep, hset⟩ := h'.set
  rw [h.unset l hlt h'.le step hstep] at hset
  cases hset

/-- Only one step can be the last to set a timer. -/
theorem SetLast.eq_of_setLast (h : SetLast steps timer k j value)
    (h' : SetLast steps timer l j other) : l = k :=
  Nat.le_antisymm (h.le_of_setLast h') (h'.le_of_setLast h)

theorem SetLast.value_eq (h : SetLast steps timer k i value)
    (h' : SetLast steps timer k j other) : other = value := by
  obtain ⟨step, hstep, hset⟩ := h.set
  obtain ⟨step', hstep', hset'⟩ := h'.set
  rw [hstep] at hstep'
  cases hstep'
  exact Option.some.inj (hset'.symm.trans hset)

private theorem unset_or_setLast_self (steps : List Advance) (timer : Timer) (j : Nat) :
    (∀ step, steps[j]? = some step → step.sets? timer = none) ∨
      ∃ value, SetLast steps timer j j value := by
  cases hstep : steps[j]? with
  | none => exact .inl fun _ h => by cases h
  | some step =>
    cases hset : step.sets? timer with
    | none => exact .inl fun _ h => by cases h; exact hset
    | some value =>
      exact .inr ⟨value, Nat.le_refl j, ⟨step, hstep, hset⟩, fun i hlow hhigh => by omega⟩

/-- Up to any step some step set the timer last, unless none has set it. -/
theorem unset_or_setLast (steps : List Advance) (timer : Timer) (j : Nat) :
    (∀ i, i ≤ j → ∀ step, steps[i]? = some step → step.sets? timer = none) ∨
      ∃ k value, SetLast steps timer k j value := by
  induction j with
  | zero =>
    obtain hunset | ⟨value, h⟩ := unset_or_setLast_self steps timer 0
    · left
      intro i hi
      rw [Nat.le_zero.mp hi]
      exact hunset
    · exact .inr ⟨0, value, h⟩
  | succ j ih =>
    obtain hunset | ⟨value, h⟩ := unset_or_setLast_self steps timer (j + 1)
    · have hstep : ∀ i, j < i → i ≤ j + 1 → ∀ step, steps[i]? = some step →
          step.sets? timer = none := by
        intro i hlow hhigh
        rw [Nat.le_antisymm hhigh hlow]
        exact hunset
      obtain hnone | ⟨k, value, h⟩ := ih
      · left
        intro i hi
        by_cases hlow : i ≤ j
        · exact hnone i hlow
        · exact hstep i (Nat.lt_of_not_le hlow) hi
      · right
        refine ⟨k, value, Nat.le_succ_of_le h.le, h.set, ?_⟩
        intro i hk hi
        by_cases hlow : i ≤ j
        · exact h.unset i hk hlow
        · exact hstep i (Nat.lt_of_not_le hlow) hi
    · exact .inr ⟨j + 1, value, h⟩

end SetLast

/-- Step `k` sets off a tone in step `j`: it is the last to set the sound timer, to as many
steps as there are from it up to step `j`. -/
def SetsOff (steps : List Advance) (k j : Nat) : Prop :=
  ∃ value, value ≠ 0 ∧ SetLast steps .sound k j value ∧ k + value.toNat = j + 1

namespace Cpu

variable {cpu : Cpu} {loans : List Loan} {i j k : Nat} {value : UInt8} {step next : Advance}

/-- If the sound timer stands at zero at first, a tone is set off by just one step. -/
theorem exists_setsOff (hsilent : cpu.timers.sound = 0)
    (hstep : (cpu.advances loans)[j]? = some step) (htone : step.tone = true) :
    ∃ k, SetsOff (cpu.advances loans) k j ∧
      ∀ other, SetsOff (cpu.advances loans) other j → other = k := by
  obtain hunset | ⟨k, value, h⟩ := unset_or_setLast (cpu.advances loans) .sound j
  · -- The timer has been at zero all the time.
    obtain ⟨hlt, -⟩ := List.getElem?_eq_some_iff.mp hstep
    have hfirst := List.getElem?_eq_getElem (Nat.zero_lt_of_lt hlt)
    have hloaded := (cpu.advances loans)[0].value_loaded .sound
    rw [hunset 0 (Nat.zero_le j) _ hfirst, Option.getD_none, before_of_getElem?_zero hfirst]
      at hloaded
    rw [← Nat.zero_add j] at hstep hunset
    have hvalue := toNat_loaded_add hfirst (fun i _ hi => hunset i hi) hstep
    have hzero : (cpu.timers.value .sound).toNat = 0 := congrArg UInt8.toNat hsilent
    rw [hloaded, hzero, (tone_eq_true_iff hstep).mp htone] at hvalue
    omega
  · obtain ⟨m, rfl⟩ := Nat.exists_eq_add_of_le h.le
    have hvalue := (tone_iff_of_setLast h hstep).mp htone
    refine ⟨k, ⟨value, ?_, h, by omega⟩, ?_⟩
    · rintro rfl
      cases hvalue
    · rintro other ⟨_, -, hother, -⟩
      exact h.eq_of_setLast hother

/-- No step sets off two tones, so whatever sets off the later one comes behind the earlier. -/
theorem lt_of_setsOff (hstep : (cpu.advances loans)[i]? = some step) (htone : step.tone = true)
    (hij : i < j) (h : SetsOff (cpu.advances loans) k j) : i < k := by
  obtain ⟨value, -, hlast, hend⟩ := h
  refine Nat.lt_of_not_le fun hki => ?_
  have hearly := hlast.of_le hki (Nat.le_of_lt hij)
  obtain ⟨m, rfl⟩ := Nat.exists_eq_add_of_le hki
  have hvalue := (tone_iff_of_setLast hearly hstep).mp htone
  omega

/-- A step that sets the sound timer before it ran out takes the tone away from the step
that had set it before. -/
theorem not_setsOff_of_set (h : SetLast (cpu.advances loans) .sound k i value)
    (hnext : (cpu.advances loans)[i + 1]? = some next) (hset : next.sets? .sound ≠ none)
    (hpending : next.before.timers.sound ≠ 0) (j : Nat) :
    ¬SetsOff (cpu.advances loans) k j := by
  rintro ⟨other, -, hlast, hend⟩
  have hki := h.le
  by_cases hji : j ≤ i
  · -- The tone would have sounded already, and the timer would stand at zero.
    cases h.value_eq hlast
    obtain ⟨m, rfl⟩ := Nat.exists_eq_add_of_le hki
    obtain ⟨hlt, -⟩ := List.getElem?_eq_some_iff.mp hnext
    have hstep := List.getElem?_eq_getElem (Nat.lt_of_succ_lt hlt)
    have hafter := toNat_after_of_setLast h hstep
    rw [← before_of_getElem?_succ hstep hnext] at hafter
    apply hpending
    rw [← UInt8.toNat_inj]
    change (next.before.timers.value .sound).toNat = 0
    omega
  · exact hset (hlast.unset (i + 1) (by omega) (by omega) next hnext)

/-- Over the steps of a run that make progress, refused and blocked ones left out: from the
step that sets it on a timer loses one in each step until it is set again, the tone sounds
in the step in which the sound timer comes to zero, and the delay timer is read as it
stands before it ticks. From the start of a program on every tone is set off by just one
step, which sets the sound timer to more than zero, and no two tones by the same; a step
that sets the timer while it still runs takes the tone away from the one before it. -/
theorem timers_of_run (rom : Rom) (random : Random) (prior loans : List Loan) :
    let start := ofSource rom random
    let cpu := start.run prior
    let steps := cpu.advances loans
    (steps.map Advance.toExecuted = cpu.history loans ∧
      (steps.map fun step => (step.tone, step.after)) =
        (cpu.outcomes loans).filterMap Outcome.progress?) ∧
    (∀ k m value step, SetLast steps .sound k (k + m) value → steps[k + m]? = some step →
      step.after.timers.sound.toNat = value.toNat - 1 - m ∧
      (step.tone = true ↔ value.toNat = m + 1)) ∧
    (∀ k m value step, SetLast steps .delay k (k + m) value → steps[k + m]? = some step →
      step.after.timers.delay.toNat = value.toNat - 1 - m ∧
      ∀ x, step.instruction = .readDelay x →
        (step.after.registers.get x).toNat = value.toNat - m) ∧
    let whole := start.advances loans
    (∀ j step, whole[j]? = some step → step.tone = true →
      ∃ k, SetsOff whole k j ∧ ∀ other, SetsOff whole other j → other = k) ∧
    (∀ i j earlier later, i < j → whole[i]? = some earlier → earlier.tone = true →
      whole[j]? = some later → later.tone = true → ∃ k, i < k ∧ SetsOff whole k j) ∧
    (∀ k i value next, SetLast whole .sound k i value → whole[i + 1]? = some next →
      next.sets? .sound ≠ none → next.before.timers.sound ≠ 0 → ∀ j, ¬SetsOff whole k j) := by
  intro start cpu steps
  refine ⟨⟨(history_eq_map_advances cpu loans).symm, map_advances_eq_filterMap cpu loans⟩,
    ?_, ?_, ?_, ?_, ?_⟩
  · intro k m value step h hstep
    exact ⟨toNat_after_of_setLast h hstep, tone_iff_of_setLast h hstep⟩
  · intro k m value step h hstep
    exact ⟨toNat_after_of_setLast h hstep, fun x => toNat_readDelay_of_setLast h hstep⟩
  · intro j step hstep htone
    exact exists_setsOff rfl hstep htone
  · intro i j earlier later hij hearlier htone hlater htone'
    obtain ⟨k, hk, -⟩ := exists_setsOff rfl hlater htone'
    exact ⟨k, lt_of_setsOff hearlier htone hij hk, hk⟩
  · intro k i value next h hnext hset hpending j
    exact not_setsOff_of_set h hnext hset hpending j

/-- A sound timer that is set to two sounds the tone in the step behind the one that sets
it, and no other step sets it off. -/
theorem tone_sounds_behind_set :
    let rom : Rom := ⟨[0x60, 0x02, 0xF0, 0x18, 0x12, 0x04], by decide⟩
    let loan : Loan := ⟨Screen.blank, Keypad.empty⟩
    let steps := (ofSource rom (Random.ofSeed 0)).advances [loan, loan, loan]
    SetLast steps .sound 1 2 2 ∧
      ∃ step, steps[2]? = some step ∧ step.tone = true ∧ step.after.timers.sound.toNat = 0 ∧
        ∀ k, SetsOff steps k 2 ↔ k = 1 := by
  intro rom loan steps
  obtain ⟨hset, hunset⟩ : steps[1]?.map (·.sets? .sound) = some (some 2) ∧
      steps[2]?.map (·.sets? .sound) = some none := by decide +kernel
  obtain ⟨setter, hsetter, hset⟩ := Option.map_eq_some_iff.mp hset
  obtain ⟨last, hlast, hunset⟩ := Option.map_eq_some_iff.mp hunset
  have hpending : SetLast steps .sound 1 2 2 := by
    refine ⟨by decide, ⟨setter, hsetter, hset⟩, ?_⟩
    intro i hlow hhigh step hstep
    obtain rfl : i = 2 := by omega
    cases hlast.symm.trans hstep
    exact hunset
  obtain ⟨-, hsound, -, hcause, -, -⟩ :=
    timers_of_run rom (Random.ofSeed 0) [] [loan, loan, loan]
  obtain ⟨hzero, htone⟩ := hsound 1 1 2 last hpending hlast
  have hsounds : last.tone = true := htone.mpr rfl
  obtain ⟨k, -, honly⟩ := hcause 2 last hlast hsounds
  have hsets : SetsOff steps 1 2 := ⟨2, by decide, hpending, rfl⟩
  refine ⟨hpending, last, hlast, hsounds, hzero, ?_⟩
  intro other
  constructor
  · intro hother
    exact (honly other hother).trans (honly 1 hsets).symm
  · rintro rfl
    exact hsets

end Cpu

end Chip8
