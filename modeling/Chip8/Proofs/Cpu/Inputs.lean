import Chip8.Proofs.Cpu.Picture
import Chip8.Proofs.Screen.Sprite
import Mathlib.Data.List.Forall2

/-!
# What the processor sees of keys and screen

The processor looks at the keypad in three instructions and at the screen in one, and even
there it sees little: one key, or the lowest one that is down, or the pixels under the set
bits of a sprite. Two runs from one state that are shown the same in these places cannot be
told apart by anything the processor does, however much their keys and screens differ.
-/

namespace Chip8

/-- Two outcomes with the same result and the same processor, whatever their screens. -/
structure Outcome.SameCpu {α : Type} (left right : Outcome α) : Prop where
  /-- The results are the same. -/
  result : left.result = right.result
  /-- The processors are the same. -/
  cpu : left.cpu = right.cpu

/-- Whether an instruction looks at the keypad or the screen. -/
def Instruction.looks : Instruction → Bool
  | .skipIfDown _ | .skipUnlessDown _ | .waitKey _ | .draw .. => true
  | _ => false

namespace Cpu

/-- An instruction is shown the same by two loans: the key that it tests, the lowest key
that is down, or the pixels under the set bits of the sprite that it draws, if it can read
the sprite. Most instructions are shown nothing. -/
def ShownSame (cpu : Cpu) (left right : Loan) (instruction : Instruction) : Prop :=
  let v := cpu.registers.get
  match instruction with
  | .skipIfDown x | .skipUnlessDown x => left.keypad.isDown (v x) = right.keypad.isDown (v x)
  | .waitKey _ => left.keypad.firstDown? = right.keypad.firstDown?
  | .draw x y height =>
    ∀ rows, cpu.memory.read cpu.index height.toNat = .ok rows →
      ∀ i j, 0 < Screen.hits (v x).toNat (v y).toNat rows i j →
        left.screen.isLit i j = right.screen.isLit i j
  | _ => True

variable {cpu : Cpu} {left right : Loan} {instruction : Instruction}

/-- Who does not look is shown the same. -/
theorem shownSame_of_not_looks (h : instruction.looks = false) :
    cpu.ShownSame left right instruction := by
  cases instruction with
  | skipIfDown | skipUnlessDown | waitKey | draw => cases h
  | _ => trivial

/-- The program counter moves on in the same way. -/
theorem flow_congr (h : cpu.ShownSame left right instruction) :
    cpu.flow left.keypad instruction = cpu.flow right.keypad instruction := by
  cases instruction with
  | skipIfDown x | skipUnlessDown x =>
    have hkey : left.keypad.isDown (cpu.registers.get x) =
        right.keypad.isDown (cpu.registers.get x) := h
    simp only [flow, hkey]
  | waitKey x =>
    have hkey : left.keypad.firstDown? = right.keypad.firstDown? := h
    simp only [flow, hkey]
  | _ => rfl

/-- The instruction does the same to the processor. -/
theorem execute_congr (h : cpu.ShownSame left right instruction) :
    (cpu.execute left.screen left.keypad instruction).cpu =
      (cpu.execute right.screen right.keypad instruction).cpu := by
  cases instruction with
  | waitKey x =>
    have hkey : left.keypad.firstDown? = right.keypad.firstDown? := h
    simp only [execute, hkey]
    split <;> rfl
  | draw x y height =>
    simp only [execute]
    split
    · next rows hread =>
      have hcollision := Screen.drawSprite_fst_congr (h rows hread)
      simp only [hcollision]
    · rfl
  | ret | call | storeDecimal | store | load =>
    simp only [execute]
    split <;> rfl
  | _ => rfl

/-- A step does the same if its instruction is shown the same. -/
theorem outcome_congr (h : ∀ instruction, cpu.peek = .ok (some instruction) →
    cpu.ShownSame left right instruction) :
    (cpu.outcome left).SameCpu (cpu.outcome right) := by
  cases hfault : cpu.fault? with
  | some fault =>
    rw [outcome, outcome, step_of_fault? _ _ hfault, step_of_fault? _ _ hfault]
    exact ⟨rfl, rfl⟩
  | none =>
    obtain ⟨instruction, hpeek, haccepted⟩ := exists_accepted hfault
    have hsame := h instruction hpeek
    rw [outcome, outcome, step_of_accepted _ _ hpeek haccepted,
      step_of_accepted _ _ hpeek haccepted, flow_congr hsame, execute_congr hsame]
    exact ⟨rfl, rfl⟩

/-- Two runs do the same if in each step the instruction to come is shown the same. -/
theorem outcomes_congr {lent : List (Loan × Loan)}
    (h : ∀ k pair, lent[k]? = some pair → ∀ instruction,
      (cpu.run ((lent.map Prod.fst).take k)).peek = .ok (some instruction) →
      (cpu.run ((lent.map Prod.fst).take k)).ShownSame pair.1 pair.2 instruction) :
    List.Forall₂ Outcome.SameCpu (cpu.outcomes (lent.map Prod.fst))
        (cpu.outcomes (lent.map Prod.snd)) ∧
      cpu.run (lent.map Prod.fst) = cpu.run (lent.map Prod.snd) := by
  induction lent generalizing cpu with
  | nil => exact ⟨.nil, rfl⟩
  | cons pair lent ih =>
    have hfirst := outcome_congr (h 0 pair rfl)
    have hafter : cpu.after pair.2 = cpu.after pair.1 := hfirst.cpu.symm
    -- From its second step on the first run is one that starts behind the first step.
    have hrest := ih fun k next hnext => h (k + 1) next hnext
    simp only [List.map_cons, outcomes, run_cons, hafter]
    exact ⟨.cons hfirst hrest.1, hrest.2⟩

/-- Lend a processor keys and screens in pairs, the first of each pair in one run and the
second in another. If in each step of the first run the instruction to come is shown the
same by both, the two runs have the same results and the same processor after every step.
So it is for every program that meets no instruction which looks at keys or screen. -/
theorem same_run_if_shown_same (cpu : Cpu) (lent : List (Loan × Loan)) :
    let first := lent.map Prod.fst
    let second := lent.map Prod.snd
    let before (k : Nat) := cpu.run (first.take k)
    let same := List.Forall₂ Outcome.SameCpu (cpu.outcomes first) (cpu.outcomes second) ∧
      cpu.run first = cpu.run second
    ((∀ k pair, lent[k]? = some pair → ∀ instruction,
      (before k).peek = .ok (some instruction) →
      (before k).ShownSame pair.1 pair.2 instruction) → same) ∧
    ((∀ k, k < lent.length → ∀ instruction, (before k).peek = .ok (some instruction) →
      instruction.looks = false) → same) := by
  intro first second before same
  refine ⟨outcomes_congr, ?_⟩
  intro hlooks
  apply outcomes_congr
  intro k pair hpair instruction hpeek
  obtain ⟨hlt, -⟩ := List.getElem?_eq_some_iff.mp hpair
  exact shownSame_of_not_looks (hlooks k hlt instruction hpeek)

end Cpu

end Chip8
