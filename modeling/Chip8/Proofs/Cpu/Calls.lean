import Chip8.Proofs.Cpu.Bounds

/-!
# Calls and returns

The history of a run tells which calls are pending: every call is noted with the address
it was fetched from, and every return takes the innermost one off. The live part of the
call stack is this list, although the slots above it keep what they held, and so a
return goes on behind the call that it belongs to, however deep the calls went between.
-/

namespace Chip8

/-- The pending calls after one more executed instruction. -/
def Executed.callsAfter (calls : List UInt16) (entry : Executed) : List UInt16 :=
  match entry.instruction with
  | .ret => calls.dropLast
  | .call _ => calls ++ [entry.before.counter]
  | _ => calls

/-- The calls of a history that have not returned, the outermost one first. -/
def pendingCalls (history : List Executed) : List UInt16 := history.foldl Executed.callsAfter []

namespace Cpu

variable {cpu : Cpu} {loan : Loan} {instruction : Instruction}

/-- An executed instruction changes the live part of the stack like the pending calls. -/
theorem Executes.frames (h : cpu.Executes loan instruction) :
    (cpu.after loan).stack.frames =
      Executed.callsAfter cpu.stack.frames ⟨cpu, instruction⟩ := by
  rw [h.stack, frames_stackAfter h.accepted]
  cases instruction <;> rfl

/-- The live part of the stack follows the history of a run. -/
theorem frames_run (cpu : Cpu) (loans : List Loan) :
    (cpu.run loans).stack.frames =
      (cpu.history loans).foldl Executed.callsAfter cpu.stack.frames := by
  induction loans generalizing cpu with
  | nil => rfl
  | cons loan loans ih =>
    rw [run_cons, ih, history, List.foldl_append]
    obtain ⟨instruction, hexec, hentry⟩ | ⟨heq, hnone⟩ := cpu.executes_or_after_eq loan
    · rw [hentry, hexec.frames]
      rfl
    · rw [hnone, heq]
      rfl

/-- Within the bounds the pointer counts the pending calls. -/
theorem Bounded.length_frames (h : cpu.Bounded) : cpu.stack.frames.length = cpu.stack.depth :=
  CallStack.length_frames h.depth_le

/-- A return takes the innermost call off and goes on behind it. -/
theorem Bounded.counter_of_ret (h : cpu.Bounded) (hexec : cpu.Executes loan .ret) :
    ∃ caller, cpu.stack.frames = (cpu.after loan).stack.frames ++ [caller] ∧
      (cpu.after loan).counter.toNat = caller.toNat + 2 := by
  have hcounter := hexec.counter
  have hstack := hexec.stack
  cases hpop : cpu.stack.pop? with
  | none =>
    have haccepted := hexec.accepted
    simp [refusal?, hpop] at haccepted
  | some top =>
    have hcaller := h.caller_le hpop
    simp only [flow, hpop, Flow.target?, Option.some.injEq] at hcounter
    simp only [stackAfter, hpop, Option.map_some, Option.getD_some] at hstack
    refine ⟨top.1, ?_, ?_⟩
    · rw [hstack]
      exact CallStack.frames_of_pop? hpop
    · rw [← hcounter, toNat_behind (by omega) (by decide)]
      rfl

/-- A return is refused just when no call is pending. -/
theorem Bounded.refusal?_ret (h : cpu.Bounded) :
    cpu.refusal? .ret =
      if cpu.stack.depth = 0 then some (.stackUnderflow cpu.counter) else none := by
  simp only [refusal?, Option.isNone_iff_eq_none, CallStack.pop?_eq_none_iff h.depth_le]

/-- A call is refused just when every slot is in use. -/
theorem Bounded.refusal?_call (h : cpu.Bounded) (target : UInt16) :
    cpu.refusal? (.call target) =
      if cpu.stack.depth = CallStack.capacity then some (.stackOverflow cpu.counter)
      else none := by
  have hfull : CallStack.capacity ≤ cpu.stack.depth ↔ cpu.stack.depth = CallStack.capacity :=
    ⟨fun hge => Nat.le_antisymm h.depth_le hge, fun heq => Nat.le_of_eq heq.symm⟩
  simp only [refusal?, Option.isNone_iff_eq_none, CallStack.push?_eq_none_iff, hfull]

/-! ## From a call to its return -/

/-- A step that does not come back to a depth keeps what lies below it on the stack. -/
theorem Bounded.prefix_frames_after (h : cpu.Bounded) {outer : List UInt16} {caller : UInt16}
    (hbase : outer ++ [caller] <+: cpu.stack.frames)
    (hdeep : (cpu.after loan).stack.depth ≠ outer.length) :
    outer ++ [caller] <+: (cpu.after loan).stack.frames := by
  obtain ⟨instruction, hexec, -⟩ | ⟨heq, -⟩ := cpu.executes_or_after_eq loan
  · cases instruction with
    | call target =>
      rw [hexec.frames]
      exact hbase.trans (List.prefix_append _ _)
    | ret =>
      obtain ⟨innermost, hframes, -⟩ := h.counter_of_ret hexec
      rw [hframes, List.prefix_concat_iff] at hbase
      rcases hbase with hwhole | hbelow
      · have houter := (List.append_inj_left' hwhole rfl).symm
        rw [← (h.after loan).length_frames, houter] at hdeep
        exact absurd rfl hdeep
      · exact hbelow
    | _ =>
      rw [hexec.frames]
      exact hbase
  · rw [heq]
    exact hbase

/-- A run that does not come back to a depth keeps what lies below it on the stack. -/
theorem Bounded.prefix_frames_run (h : cpu.Bounded) {outer : List UInt16} {caller : UInt16}
    (hbase : outer ++ [caller] <+: cpu.stack.frames) {loans : List Loan}
    (hdeep : ∀ part, part <+: loans → (cpu.run part).stack.depth ≠ outer.length) :
    outer ++ [caller] <+: (cpu.run loans).stack.frames := by
  induction loans generalizing cpu with
  | nil => exact hbase
  | cons loan loans ih =>
    have hfirst : [loan] <+: loan :: loans := List.prefix_append [loan] loans
    refine ih (h.after loan) (h.prefix_frames_after hbase (hdeep [loan] hfirst)) ?_
    intro part hpart
    exact hdeep (loan :: part) (List.prefix_cons_inj loan |>.mpr hpart)

/-- A step that lowers the depth executes a return. -/
theorem Bounded.ret_of_depth_lt (h : cpu.Bounded)
    (hlt : (cpu.after loan).stack.depth < cpu.stack.depth) :
    cpu.Executes loan .ret ∧ cpu.executed? loan = some ⟨cpu, .ret⟩ := by
  rw [← (h.after loan).length_frames, ← h.length_frames] at hlt
  obtain ⟨instruction, hexec, hentry⟩ | ⟨heq, -⟩ := cpu.executes_or_after_eq loan
  · cases instruction with
    | ret => exact ⟨hexec, hentry⟩
    | call target =>
      rw [hexec.frames] at hlt
      simp only [Executed.callsAfter, List.length_append, List.length_singleton] at hlt
      omega
    | _ =>
      rw [hexec.frames] at hlt
      exact absurd hlt (Nat.lt_irrefl _)
  · rw [heq] at hlt
    exact absurd hlt (Nat.lt_irrefl _)

/-- After a call, the first step that comes back to the depth before it is a return that
goes on behind the call and leaves the pending calls as they were. -/
theorem Bounded.resume_behind_call (h : cpu.Bounded) {target : UInt16} {inner : List Loan}
    {back : Loan} (hcall : cpu.Executes loan (.call target))
    (hdeep : ∀ part, part <+: inner →
      ((cpu.after loan).run part).stack.depth ≠ cpu.stack.depth)
    (hback : (((cpu.after loan).run inner).after back).stack.depth = cpu.stack.depth) :
    ((cpu.after loan).run inner).executed? back = some ⟨(cpu.after loan).run inner, .ret⟩ ∧
      (((cpu.after loan).run inner).after back).counter.toNat = cpu.counter.toNat + 2 ∧
      (((cpu.after loan).run inner).after back).stack.frames = cpu.stack.frames := by
  have hcallee := (h.after loan).run inner
  have hkept : cpu.stack.frames ++ [cpu.counter] <+:
      ((cpu.after loan).run inner).stack.frames := by
    apply (h.after loan).prefix_frames_run
    · rw [hcall.frames]
      exact List.prefix_rfl
    · rw [h.length_frames]
      exact hdeep
  -- The callee is deeper than its caller, so coming back takes a return.
  have hlength := hkept.length_le
  rw [List.length_append, List.length_singleton, hcallee.length_frames, h.length_frames]
    at hlength
  have hlower : (((cpu.after loan).run inner).after back).stack.depth <
      ((cpu.after loan).run inner).stack.depth := by
    rw [hback]
    exact hlength
  obtain ⟨hret, hentry⟩ := hcallee.ret_of_depth_lt hlower
  obtain ⟨caller, hframes, hcounter⟩ := hcallee.counter_of_ret hret
  have hsame : cpu.stack.frames.length =
      (((cpu.after loan).run inner).after back).stack.frames.length := by
    rw [h.length_frames, (hcallee.after back).length_frames, hback]
  -- What lies below the callee's own frame is all that the return leaves.
  rw [hframes] at hkept
  obtain ⟨houter, hcaller⟩ := List.append_inj
    (hkept.eq_of_length (by simp only [List.length_append, hsame, List.length_singleton])) hsame
  refine ⟨hentry, ?_, houter.symm⟩
  rw [hcounter, List.head_eq_of_cons_eq hcaller]

/-- In every state that a run leads to, the call stack holds the calls of the history that
have not returned, at most sixteen. A return goes on behind the innermost of them and is
refused just when there is none; a call is refused just when there are sixteen. So the
first step that comes back to the depth before a call is a return that goes on behind
this very call, with the calls pending that were pending before. -/
theorem pending_calls_of_run (rom : Rom) (random : Random) (loans : List Loan) :
    let cpu := (ofSource rom random).run loans
    let pending := pendingCalls ((ofSource rom random).history loans)
    (cpu.stack.frames = pending ∧ cpu.stack.depth = pending.length ∧ pending.length ≤ 16) ∧
    (∀ loan, cpu.executed? loan = some ⟨cpu, .ret⟩ →
      ∃ outer caller, pending = outer ++ [caller] ∧
        (cpu.after loan).counter.toNat = caller.toNat + 2) ∧
    (∀ loan target, cpu.peek = .ok (some (.call target)) →
      ((cpu.outcome loan).result = .error (.stackOverflow cpu.counter) ↔ pending.length = 16) ∧
      (pending.length ≠ 16 → cpu.executed? loan = some ⟨cpu, .call target⟩)) ∧
    (∀ loan, cpu.peek = .ok (some .ret) →
      ((cpu.outcome loan).result = .error (.stackUnderflow cpu.counter) ↔ pending = []) ∧
      (pending ≠ [] → cpu.executed? loan = some ⟨cpu, .ret⟩)) ∧
    (∀ call target inner back, cpu.executed? call = some ⟨cpu, .call target⟩ →
      (∀ part, part <+: inner →
        ((cpu.after call).run part).stack.depth ≠ cpu.stack.depth) →
      (((cpu.after call).run inner).after back).stack.depth = cpu.stack.depth →
      ((cpu.after call).run inner).executed? back =
          some ⟨(cpu.after call).run inner, .ret⟩ ∧
        (((cpu.after call).run inner).after back).counter.toNat = cpu.counter.toNat + 2 ∧
        (((cpu.after call).run inner).after back).stack.frames = pending) := by
  intro cpu pending
  have hbounded : cpu.Bounded := (bounded_ofSource rom random).run loans
  have hframes : cpu.stack.frames = pending := frames_run (ofSource rom random) loans
  have hdepth : cpu.stack.depth = pending.length := by rw [← hframes, hbounded.length_frames]
  refine ⟨⟨hframes, hdepth, hdepth ▸ hbounded.depth_le⟩, ?_, ?_, ?_, ?_⟩
  · intro loan hret
    obtain ⟨caller, hcaller, hcounter⟩ := hbounded.counter_of_ret (executes_of_executed? hret).2
    exact ⟨_, caller, hframes.symm.trans hcaller, hcounter⟩
  · intro loan target hpeek
    have hrefusal := hbounded.refusal?_call target
    rw [hdepth] at hrefusal
    rw [outcome, result_eq_error_iff_of_peek _ _ hpeek, hrefusal]
    refine ⟨by simp only [Option.ite_none_right_eq_some, and_true]; rfl, ?_⟩
    intro hroom
    refine executed?_of_refusal? hpeek ?_ (by simp)
    exact hrefusal.trans (if_neg hroom)
  · intro loan hpeek
    have hrefusal := hbounded.refusal?_ret
    rw [hdepth] at hrefusal
    rw [outcome, result_eq_error_iff_of_peek _ _ hpeek, hrefusal]
    refine ⟨by simp only [Option.ite_none_right_eq_some, and_true, List.length_eq_zero_iff], ?_⟩
    intro hsome
    refine executed?_of_refusal? hpeek ?_ (by simp)
    exact hrefusal.trans (if_neg fun hzero => hsome (List.length_eq_zero_iff.mp hzero))
  · intro call target inner back hcall hdeep hback
    rw [← hframes]
    exact hbounded.resume_behind_call (executes_of_executed? hcall).2 hdeep hback

end Cpu

end Chip8
