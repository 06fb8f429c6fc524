import Chip8.Proofs.Cpu.Effect

/-!
# Steps that execute an instruction

A step changes the processor only if it executes an instruction and makes progress:
refused and blocked steps leave all of it alone. So what a run does to the processor is
told by its history, one executed instruction after another.
-/

namespace Chip8.Cpu

variable {cpu : Cpu} {instruction : Instruction} (screen : Screen) (keypad : Keypad)

/-- The instruction to come is the decoded opcode at the program counter. -/
theorem peek_eq_some_iff :
    cpu.peek = .ok (some instruction) ↔
      ∃ opcode, cpu.fetch = .ok opcode ∧ Instruction.decode? opcode = some instruction := by
  unfold peek
  cases cpu.fetch with
  | error fault => simp [Except.map]
  | ok opcode => simp [Except.map]

/-- An opcode is fetched only where both of its bytes lie inside the memory. -/
theorem counter_le_of_peek {decoded : Option Instruction} (h : cpu.peek = .ok decoded) :
    cpu.counter.toNat + Instruction.size ≤ Memory.size := by
  cases hfault : Memory.readFault? cpu.counter Instruction.size with
  | none => exact Memory.readFault?_eq_none_iff.mp hfault
  | some fault =>
    have hfetch : cpu.fetch = .error fault := Memory.word_eq_error_iff.mpr hfault
    rw [peek, hfetch] at h
    cases h

/-- A refused step leaves processor and screen as they are. -/
theorem step_of_refusal? {fault : Fault} (hpeek : cpu.peek = .ok (some instruction))
    (h : cpu.refusal? instruction = some fault) :
    cpu.step screen keypad = ⟨.error fault, cpu, screen⟩ := by
  obtain ⟨opcode, hfetch, hdecode⟩ := peek_eq_some_iff.mp hpeek
  simp only [step, hfetch, hdecode, execute_of_refusal? _ _ h]

/-- A step that is not refused completes the instruction. -/
theorem step_of_accepted (hpeek : cpu.peek = .ok (some instruction))
    (h : cpu.refusal? instruction = none) :
    cpu.step screen keypad =
      ⟨.ok ((cpu.execute screen keypad instruction).cpu.complete (cpu.flow keypad instruction)).1,
        ((cpu.execute screen keypad instruction).cpu.complete (cpu.flow keypad instruction)).2,
        (cpu.execute screen keypad instruction).screen⟩ := by
  obtain ⟨opcode, hfetch, hdecode⟩ := peek_eq_some_iff.mp hpeek
  have hresult := execute_result_of_refusal? screen keypad h
  simp only [step, hfetch, hdecode]
  generalize cpu.execute screen keypad instruction = attempt at hresult ⊢
  obtain ⟨result, after, shown⟩ := attempt
  cases hresult
  rfl

/-- With an instruction to come a step is refused just when the instruction is. -/
theorem result_eq_error_iff_of_peek {fault : Fault} (hpeek : cpu.peek = .ok (some instruction)) :
    (cpu.step screen keypad).result = .error fault ↔ cpu.refusal? instruction = some fault := by
  cases h : cpu.refusal? instruction with
  | some cause =>
    rw [step_of_refusal? screen keypad hpeek h]
    simp
  | none =>
    rw [step_of_accepted screen keypad hpeek h]
    simp

/-- Without an instruction to come a step is refused and leaves everything as it is. -/
theorem step_of_no_instruction (h : ∀ instruction, cpu.peek ≠ .ok (some instruction)) :
    ∃ fault, cpu.step screen keypad = ⟨.error fault, cpu, screen⟩ := by
  unfold step
  cases hfetch : cpu.fetch with
  | error fault => exact ⟨fault, rfl⟩
  | ok opcode =>
    cases hdecode : Instruction.decode? opcode with
    | none => exact ⟨.unknownOpcode opcode cpu.counter, by simp only [hdecode]⟩
    | some instruction => exact absurd (peek_eq_some_iff.mpr ⟨opcode, hfetch, hdecode⟩) (h _)

/-- A step that executes an instruction, and what it does to the processor. -/
structure Executes (cpu : Cpu) (loan : Loan) (instruction : Instruction) : Prop where
  /-- The instruction is the one to come. -/
  peek : cpu.peek = .ok (some instruction)
  /-- It is not refused. -/
  accepted : cpu.refusal? instruction = none
  /-- The program counter goes where the flow of the instruction says. -/
  counter : (cpu.flow loan.keypad instruction).target? cpu.counter = some (cpu.after loan).counter
  /-- The call stack changes as by the instruction. -/
  stack : (cpu.after loan).stack = cpu.stackAfter instruction
  /-- The memory changes as by the instruction. -/
  memory : (cpu.after loan).memory = cpu.memoryAfter instruction
  /-- The index changes as by the instruction. -/
  index : (cpu.after loan).index = cpu.indexAfter instruction

/-- An instruction that is neither refused nor waits is executed. -/
theorem executes_of_flow {loan : Loan} (hpeek : cpu.peek = .ok (some instruction))
    (h : cpu.refusal? instruction = none) (hflow : cpu.flow loan.keypad instruction ≠ .wait) :
    cpu.Executes loan instruction ∧ cpu.executed? loan = some ⟨cpu, instruction⟩ := by
  have hcounter := execute_counter loan.screen loan.keypad cpu instruction
  have hstep := step_of_accepted loan.screen loan.keypad hpeek h
  cases htarget : (cpu.flow loan.keypad instruction).target? cpu.counter with
  | none => exact absurd (Flow.target?_eq_none_iff.mp htarget) hflow
  | some target =>
    simp only [complete, hcounter, htarget] at hstep
    refine ⟨⟨hpeek, h, ?_, ?_, ?_, ?_⟩, ?_⟩
    · simp only [after, outcome, hstep, htarget]
    · simp only [after, outcome, hstep, execute_stack]
    · simp only [after, outcome, hstep, execute_memory _ _ h]
    · simp only [after, outcome, hstep, execute_index _ _ h]
    · simp only [executed?, outcome, hstep, hpeek]

/-- What becomes of a step that executes an instruction. -/
theorem Executes.outcome_eq {loan : Loan} (h : cpu.Executes loan instruction) :
    cpu.outcome loan =
      ⟨.ok (.progressed (cpu.timersAfter instruction).expiring),
        { (cpu.execute loan.screen loan.keypad instruction).cpu with
          counter := (cpu.after loan).counter
          timers := (cpu.timersAfter instruction).tick },
        (cpu.execute loan.screen loan.keypad instruction).screen⟩ := by
  have hstep := step_of_accepted loan.screen loan.keypad h.peek h.accepted
  have hcounter := execute_counter loan.screen loan.keypad cpu instruction
  have htimers := execute_timers loan.screen loan.keypad cpu instruction
  simp only [complete, hcounter, h.counter, htimers] at hstep
  exact hstep

/-- The timers tick once, behind the instruction. -/
theorem Executes.timers {loan : Loan} (h : cpu.Executes loan instruction) :
    (cpu.after loan).timers = (cpu.timersAfter instruction).tick := by
  rw [after, h.outcome_eq]

/-- The registers change as by the instruction. -/
theorem Executes.registers {loan : Loan} (h : cpu.Executes loan instruction) :
    (cpu.after loan).registers =
      (cpu.execute loan.screen loan.keypad instruction).cpu.registers := by
  rw [after, h.outcome_eq]

/-- The source of random numbers changes as by the instruction. -/
theorem Executes.random {loan : Loan} (h : cpu.Executes loan instruction) :
    (cpu.after loan).random = cpu.randomAfter instruction := by
  rw [after, h.outcome_eq]
  exact execute_random loan.screen loan.keypad cpu instruction

/-- An instruction to come that neither is refused nor waits for a key is executed. -/
theorem executed?_of_refusal? {loan : Loan} (hpeek : cpu.peek = .ok (some instruction))
    (h : cpu.refusal? instruction = none) (hwait : ∀ x, instruction ≠ .waitKey x) :
    cpu.executed? loan = some ⟨cpu, instruction⟩ := by
  refine (executes_of_flow hpeek h ?_).2
  rw [ne_eq, flow_eq_wait_iff loan.keypad h]
  rintro ⟨⟨x, hx⟩, -⟩
  exact hwait x hx

/-- A step either executes the instruction to come or leaves the processor as it is. -/
theorem executes_or_after_eq (cpu : Cpu) (loan : Loan) :
    (∃ instruction, cpu.Executes loan instruction ∧
        cpu.executed? loan = some ⟨cpu, instruction⟩) ∨
      (cpu.after loan = cpu ∧ cpu.executed? loan = none) := by
  by_cases hpeek : ∃ instruction, cpu.peek = .ok (some instruction)
  · obtain ⟨instruction, hpeek⟩ := hpeek
    cases hrefusal : cpu.refusal? instruction with
    | some fault =>
      right
      simp only [after, executed?, outcome, step_of_refusal? _ _ hpeek hrefusal, and_self]
    | none =>
      by_cases hflow : cpu.flow loan.keypad instruction = .wait
      · right
        simp only [after, executed?, outcome, step_of_accepted _ _ hpeek hrefusal, hflow,
          execute_of_wait _ _ hrefusal hflow, complete, Flow.target?, and_self]
      · exact .inl ⟨instruction, executes_of_flow hpeek hrefusal hflow⟩
  · obtain ⟨fault, hstep⟩ := step_of_no_instruction loan.screen loan.keypad (not_exists.mp hpeek)
    right
    simp only [after, executed?, outcome, hstep, and_self]

/-- What a step executes is executed from the state it is noted with. -/
theorem executes_of_executed? {loan : Loan} {entry : Executed}
    (h : cpu.executed? loan = some entry) :
    entry.before = cpu ∧ cpu.Executes loan entry.instruction := by
  obtain ⟨instruction, hexec, hentry⟩ | ⟨-, hnone⟩ := cpu.executes_or_after_eq loan
  · rw [hentry] at h
    cases h
    exact ⟨rfl, hexec⟩
  · rw [hnone] at h
    cases h

/-! ## The steps of a run that make progress -/

theorem Executes.advance? {loan : Loan} (h : cpu.Executes loan instruction) :
    cpu.advance? loan =
      some ⟨⟨cpu, instruction⟩, (cpu.timersAfter instruction).expiring, cpu.after loan⟩ := by
  simp only [Cpu.advance?, h.outcome_eq, h.peek]

/-- A step makes progress just when it executes an instruction. -/
theorem executed?_eq_map_advance? (cpu : Cpu) (loan : Loan) :
    cpu.executed? loan = (cpu.advance? loan).map Advance.toExecuted := by
  unfold executed? advance?
  split <;> rfl

/-- A step either makes progress by executing an instruction or leaves the processor as it
is. -/
theorem advance?_or_after_eq (cpu : Cpu) (loan : Loan) :
    (∃ instruction, cpu.Executes loan instruction ∧ cpu.advance? loan =
        some ⟨⟨cpu, instruction⟩, (cpu.timersAfter instruction).expiring, cpu.after loan⟩) ∨
      (cpu.after loan = cpu ∧ cpu.advance? loan = none) := by
  obtain ⟨instruction, hexec, -⟩ | ⟨heq, hnone⟩ := cpu.executes_or_after_eq loan
  · exact .inl ⟨instruction, hexec, hexec.advance?⟩
  · rw [executed?_eq_map_advance?, Option.map_eq_none_iff] at hnone
    exact .inr ⟨heq, hnone⟩

/-- The history tells the instructions of the steps that make progress. -/
theorem history_eq_map_advances (cpu : Cpu) (loans : List Loan) :
    cpu.history loans = (cpu.advances loans).map Advance.toExecuted := by
  induction loans generalizing cpu with
  | nil => rfl
  | cons loan loans ih =>
    rw [history, advances, List.map_append, ih, executed?_eq_map_advance?, Option.toList_map]

/-- A step that is not refused has an instruction to come. -/
theorem exists_peek_of_ok {loan : Loan} {cycle : Cycle}
    (h : (cpu.outcome loan).result = .ok cycle) :
    ∃ instruction, cpu.peek = .ok (some instruction) := by
  by_cases hpeek : ∃ instruction, cpu.peek = .ok (some instruction)
  · exact hpeek
  · obtain ⟨fault, hstep⟩ := step_of_no_instruction loan.screen loan.keypad (not_exists.mp hpeek)
    rw [outcome, hstep] at h
    cases h

/-- Progress is what the result of a step tells. -/
theorem progress?_outcome (cpu : Cpu) (loan : Loan) :
    (cpu.outcome loan).progress? =
      (cpu.advance? loan).map fun step => (step.tone, step.after) := by
  unfold Outcome.progress? advance?
  cases hresult : (cpu.outcome loan).result with
  | error fault => rfl
  | ok cycle =>
    obtain ⟨instruction, hpeek⟩ := exists_peek_of_ok hresult
    cases cycle with
    | blocked => rfl
    | progressed tone => simp only [hpeek, Option.map_some, after]

/-- The steps that make progress are those whose results say so. -/
theorem map_advances_eq_filterMap (cpu : Cpu) (loans : List Loan) :
    ((cpu.advances loans).map fun step => (step.tone, step.after)) =
      (cpu.outcomes loans).filterMap Outcome.progress? := by
  induction loans generalizing cpu with
  | nil => rfl
  | cons loan loans ih =>
    rw [advances, outcomes, List.map_append, ih, List.filterMap_cons, progress?_outcome]
    cases cpu.advance? loan <;> rfl

/-- Whatever stands among the advances of a run was executed in a step. -/
theorem executes_of_mem_advances {loans : List Loan} {step : Advance}
    (h : step ∈ cpu.advances loans) :
    ∃ loan, step.before.Executes loan step.instruction ∧
      step.tone = (step.before.timersAfter step.instruction).expiring ∧
      step.after = step.before.after loan := by
  induction loans generalizing cpu with
  | nil => cases h
  | cons loan loans ih =>
    rcases List.mem_append.mp h with hfirst | hrest
    · obtain ⟨instruction, hexec, hsome⟩ | ⟨-, hnone⟩ := cpu.advance?_or_after_eq loan
      · rw [hsome, Option.toList_some, List.mem_singleton] at hfirst
        subst hfirst
        exact ⟨loan, hexec, rfl, rfl⟩
      · rw [hnone] at hfirst
        cases hfirst
    · exact ih hrest

/-- The first step that makes progress starts where the run does. -/
theorem before_of_getElem?_zero {loans : List Loan} {first : Advance}
    (h : (cpu.advances loans)[0]? = some first) : first.before = cpu := by
  induction loans generalizing cpu with
  | nil => cases h
  | cons loan loans ih =>
    rw [advances] at h
    obtain ⟨instruction, -, hsome⟩ | ⟨heq, hnone⟩ := cpu.advance?_or_after_eq loan
    · rw [hsome] at h
      cases h
      rfl
    · rw [hnone, heq] at h
      exact ih h

/-- Each later one starts where the one before it ended, whatever was refused or blocked
in between. -/
theorem before_of_getElem?_succ {loans : List Loan} {k : Nat} {step next : Advance}
    (hstep : (cpu.advances loans)[k]? = some step)
    (hnext : (cpu.advances loans)[k + 1]? = some next) : next.before = step.after := by
  induction loans generalizing cpu k with
  | nil => cases hstep
  | cons loan loans ih =>
    rw [advances] at hstep hnext
    obtain ⟨instruction, -, hsome⟩ | ⟨-, hnone⟩ := cpu.advance?_or_after_eq loan
    · rw [hsome] at hstep hnext
      cases k with
      | zero =>
        cases hstep
        exact before_of_getElem?_zero hnext
      | succ k => exact ih hstep hnext
    · rw [hnone] at hstep hnext
      exact ih hstep hnext

end Chip8.Cpu
