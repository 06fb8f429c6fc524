import Chip8.Proofs.Cpu.Footprint
import Chip8.Proofs.Screen.Sprite

/-!
# Drawing a sprite twice

A sprite that is drawn a second time in the same place is gone, whatever was on the screen.
The first collision tells of the pixels that were lit, and the second one of those that were
dark. For a program to see this, the place must not be taken from the flag register, which
the first drawing overwrites.
-/

namespace Chip8

namespace Screen

/-- Some pixel under the set bits of a sprite is lit, or some is dark, as asked for. -/
def ShowsUnder (screen : Screen) (x y : Nat) (rows : List UInt8) (lit : Bool) : Prop :=
  ∃ i j, i < width ∧ j < height ∧ 0 < hits x y rows i j ∧ screen.isLit i j = lit

variable {screen other : Screen} {x y i j : Nat} {rows : List UInt8}

/-- The picture is what is lit. -/
theorem pixels_eq_of_isLit
    (h : ∀ i j, i < width → j < height → screen.isLit i j = other.isLit i j) :
    screen.pixels = other.pixels := by
  apply Vector.ext
  intro c hc
  have hcolumn : column ⟨c, hc⟩ < width := Nat.mod_lt _ (by decide)
  have hrow : row ⟨c, hc⟩ < height := by
    simp only [row, width, height, area] at hc ⊢
    omega
  have hlit := h _ _ hcolumn hrow
  simp only [isLit, cell_column_row] at hlit
  exact hlit

/-- The second drawing takes the first one back. -/
theorem pixels_drawSprite_twice (screen : Screen) (x y : Nat) (rows : List UInt8) :
    ((screen.drawSprite x y rows).2.drawSprite x y rows).2.pixels = screen.pixels := by
  apply pixels_eq_of_isLit
  intro i j hi hj
  rw [isLit_drawSprite hi hj, isLit_drawSprite hi hj, Bool.xor_assoc, Bool.xor_self,
    Bool.xor_false]

/-- A sprite that is no taller than the screen collides just with what is lit under it. -/
theorem drawSprite_fst_iff_showsUnder (h : rows.length ≤ height) :
    (screen.drawSprite x y rows).1 = true ↔ screen.ShowsUnder x y rows true := by
  rw [drawSprite_fst_iff]
  refine exists_congr fun i => exists_congr fun j => ?_
  refine and_congr_right fun _ => and_congr_right fun _ => ?_
  have hone : ¬2 ≤ hits x y rows i j := Nat.not_le.mpr (Nat.lt_succ_of_le (hits_le_one h))
  rw [or_iff_left hone, and_comm]
  rfl

/-- What is lit under it after the drawing was dark before. -/
theorem showsUnder_drawSprite_iff (h : rows.length ≤ height) :
    (screen.drawSprite x y rows).2.ShowsUnder x y rows true ↔
      screen.ShowsUnder x y rows false := by
  refine exists_congr fun i => exists_congr fun j => ?_
  refine and_congr_right fun hi => and_congr_right fun hj => and_congr_right fun hhit => ?_
  have hone : hits x y rows i j = 1 := Nat.le_antisymm (hits_le_one h) hhit
  rw [isLit_drawSprite hi hj, hone]
  simp

end Screen

namespace Cpu

/-- The opcode at the program counter and the one behind it both draw one and the same sprite.
It lies inside the memory, and the flag register gives neither its column nor its row. -/
structure AboutToRedraw (cpu : Cpu) (opcode : UInt16) : Prop where
  /-- The opcode is the one to come. -/
  first : cpu.memory.word cpu.counter = .ok opcode
  /-- It comes again. -/
  again : cpu.memory.word (cpu.counter + 2) = .ok opcode
  /-- It draws. -/
  draws : opcode.toNat / 0x1000 = 0xD
  /-- The column does not come from the flag register. -/
  column_ne : opcode.toNat / 0x100 % 0x10 ≠ 0xF
  /-- The row does not either. -/
  row_ne : opcode.toNat / 0x10 % 0x10 ≠ 0xF
  /-- All rows of the sprite can be read. -/
  sprite_le : cpu.index.toNat + opcode.toNat % 0x10 ≤ 0x1000

variable {cpu : Cpu} {x y height : UInt8} {rows : List UInt8} (screen : Screen)
  (keypad : Keypad)

/-- The state behind a drawing that has collided or not. -/
def behindDrawing (cpu : Cpu) (collision : Bool) : Cpu :=
  { cpu with
    counter := cpu.counter + 2
    registers := cpu.registers.setFlag collision
    timers := cpu.timers.tick }

@[simp] theorem value_behindDrawing_flag (cpu : Cpu) (collision : Bool) :
    (cpu.behindDrawing collision).registers.value 0xF = collision.toNat := by
  rw [behindDrawing, Registers.value_setFlag (by decide), if_pos rfl]

theorem value_behindDrawing (cpu : Cpu) (collision : Bool) {k : Nat} (hk : k < 0xF) :
    (cpu.behindDrawing collision).registers.value k = cpu.registers.value k :=
  Registers.value_setFlag_of_ne (by omega) (Nat.ne_of_lt hk)

/-- A step that draws. -/
theorem step_of_draw (hpeek : cpu.peek = .ok (some (.draw x y height)))
    (hread : cpu.memory.read cpu.index height.toNat = .ok rows) :
    cpu.step screen keypad =
      let drawn := screen.drawSprite (cpu.registers.value x.toNat) (cpu.registers.value y.toNat)
        rows
      ⟨.ok (.progressed cpu.timers.expiring), cpu.behindDrawing drawn.1, drawn.2⟩ := by
  rw [Registers.value_toNat, Registers.value_toNat]
  let drawn := screen.drawSprite (cpu.registers.get x).toNat (cpu.registers.get y).toNat rows
  have hexecute : cpu.execute screen keypad (.draw x y height) =
      ⟨.ok .next, { cpu with registers := cpu.registers.setFlag drawn.1 }, drawn.2⟩ := by
    simp only [execute, hread, drawn]
  exact step_of_next screen keypad hpeek hexecute

/-- A word in memory that stands for an instruction is the one to come. -/
theorem peek_of_word {opcode : UInt16} {instruction : Instruction}
    (hword : cpu.memory.word cpu.counter = .ok opcode)
    (hrow : Opcode.StandsFor opcode.toNat instruction) : cpu.peek = .ok (some instruction) :=
  peek_eq_some_iff.mpr ⟨opcode, hword, Instruction.decode?_of_standsFor hrow⟩

/-- Two steps that draw the same sprite in the same place. -/
theorem AboutToRedraw.steps {opcode : UInt16} (h : cpu.AboutToRedraw opcode) (again : Keypad) :
    ∃ rows, cpu.memory.read cpu.index (opcode.toNat % 0x10) = .ok rows ∧ rows.length < 0x10 ∧
      let x := cpu.registers.value (opcode.toNat / 0x100 % 0x10)
      let y := cpu.registers.value (opcode.toNat / 0x10 % 0x10)
      let drawn := screen.drawSprite x y rows
      let redrawn := drawn.2.drawSprite x y rows
      cpu.step screen keypad =
        ⟨.ok (.progressed cpu.timers.expiring), cpu.behindDrawing drawn.1, drawn.2⟩ ∧
      (cpu.behindDrawing drawn.1).step drawn.2 again =
        ⟨.ok (.progressed cpu.timers.tick.expiring),
          (cpu.behindDrawing drawn.1).behindDrawing redrawn.1, redrawn.2⟩ := by
  obtain ⟨rows, hread, hlength⟩ : ∃ rows, cpu.memory.read cpu.index (opcode.toNat % 0x10) =
      .ok rows ∧ rows.length < 0x10 :=
    ⟨_, Memory.read_of_le cpu.memory h.sprite_le, by rw [List.length_ofFn]; omega⟩
  refine ⟨rows, hread, hlength, ?_⟩
  intro x y drawn redrawn
  have hx : opcode.toNat / 0x100 % 0x10 = (Opcode.x opcode).toNat := Opcode.x_eq_iff.mp rfl
  have hy : opcode.toNat / 0x10 % 0x10 = (Opcode.y opcode).toNat := Opcode.y_eq_iff.mp rfl
  have hheight : opcode.toNat % 0x10 = (UInt8.ofNat (Opcode.digit opcode)).toNat :=
    Opcode.digit_eq_iff.mp rfl
  rw [hheight] at hread
  have hrow : Opcode.StandsFor opcode.toNat
      (.draw (Opcode.x opcode) (Opcode.y opcode) (UInt8.ofNat (Opcode.digit opcode))) :=
    ⟨h.draws, hx, hy, hheight⟩
  have hx' : (cpu.behindDrawing drawn.1).registers.value (opcode.toNat / 0x100 % 0x10) = x :=
    cpu.value_behindDrawing drawn.1 (by have := h.column_ne; omega)
  have hy' : (cpu.behindDrawing drawn.1).registers.value (opcode.toNat / 0x10 % 0x10) = y :=
    cpu.value_behindDrawing drawn.1 (by have := h.row_ne; omega)
  constructor
  · have hstep := step_of_draw screen keypad (peek_of_word h.first hrow) hread
    rw [← hx, ← hy] at hstep
    exact hstep
  · have hpeek : (cpu.behindDrawing drawn.1).peek = _ := peek_of_word h.again hrow
    have hstep := step_of_draw drawn.2 again hpeek hread
    rw [← hx, ← hy, hx', hy'] at hstep
    exact hstep

/-- Whatever the state and the screen, two steps that draw one sprite in one place both
succeed and leave the picture as it was. The flag tells after the first step whether some
pixel under a set bit was lit, and after the second whether some was dark and so was lit by
the first. The other registers, the index and the memory stay as they are. -/
theorem redrawing_restores_picture {cpu : Cpu} {opcode : UInt16} (h : cpu.AboutToRedraw opcode)
    (screen : Screen) (keypad again : Keypad) :
    let first := cpu.step screen keypad
    let second := first.cpu.step first.screen again
    let x := cpu.registers.value (opcode.toNat / 0x100 % 0x10)
    let y := cpu.registers.value (opcode.toNat / 0x10 % 0x10)
    (∃ tone, first.result = .ok (.progressed tone)) ∧
    (∃ tone, second.result = .ok (.progressed tone)) ∧
    second.screen.pixels = screen.pixels ∧
    (∃ rows, cpu.memory.read cpu.index (opcode.toNat % 0x10) = .ok rows ∧
      (first.cpu.registers.value 0xF = 1 ↔ screen.ShowsUnder x y rows true) ∧
      (second.cpu.registers.value 0xF = 1 ↔ screen.ShowsUnder x y rows false) ∧
      (second.cpu.registers.value 0xF = 1 ↔ first.screen.ShowsUnder x y rows true)) ∧
    ∀ after ∈ [first.cpu, second.cpu],
      (∀ k, k < 0xF → after.registers.value k = cpu.registers.value k) ∧
      after.index = cpu.index ∧ after.memory = cpu.memory := by
  intro first second x y
  obtain ⟨rows, hread, hlength, hfirst, hsecond⟩ := h.steps screen keypad again
  have htall : rows.length ≤ Screen.height := Nat.le_of_lt (Nat.lt_trans hlength (by decide))
  have hfirst' : first = _ := hfirst
  have hsecond' : second = _ :=
    (congrArg (fun made => made.cpu.step made.screen again) hfirst').trans hsecond
  have hflag : ∀ collision : Bool, collision.toNat = 1 ↔ collision = true := by decide
  rw [hsecond', hfirst']
  refine ⟨⟨_, rfl⟩, ⟨_, rfl⟩, Screen.pixels_drawSprite_twice screen x y rows,
    ⟨rows, hread, ?_, ?_, ?_⟩, ?_⟩
  · rw [value_behindDrawing_flag, hflag]
    exact Screen.drawSprite_fst_iff_showsUnder htall
  · rw [value_behindDrawing_flag, hflag, Screen.drawSprite_fst_iff_showsUnder htall]
    exact Screen.showsUnder_drawSprite_iff htall
  · rw [value_behindDrawing_flag, hflag]
    exact Screen.drawSprite_fst_iff_showsUnder htall
  · intro after hafter
    rcases List.mem_pair.mp hafter with rfl | rfl
    · exact ⟨fun k hk => value_behindDrawing _ _ hk, rfl, rfl⟩
    · exact ⟨fun k hk => (value_behindDrawing _ _ hk).trans (value_behindDrawing _ _ hk), rfl, rfl⟩

/-- A zero drawn twice in a corner where one pixel is lit. It meets that pixel first, and then
the others that it has lit itself. -/
theorem zero_drawn_twice_is_gone :
    let rom : Rom := ⟨[0xD0, 0x15, 0xD0, 0x15], by decide⟩
    let cpu := ofSource rom (Random.ofSeed 0)
    let screen := Screen.blank.set 0 0 true
    let first := cpu.step screen Keypad.empty
    let second := first.cpu.step first.screen Keypad.empty
    first.cpu.registers.value 0xF = 1 ∧ second.cpu.registers.value 0xF = 1 ∧
      second.screen.pixels = screen.pixels := by
  intro rom cpu screen first second
  have h : cpu.AboutToRedraw 0xD015 := by
    constructor <;> decide +kernel
  obtain ⟨-, -, hpixels, ⟨rows, hread, hfirst, hsecond, -⟩, -⟩ :=
    redrawing_restores_picture h screen Keypad.empty Keypad.empty
  have hrows : cpu.memory.read cpu.index 5 = .ok [0xF0, 0x90, 0x90, 0x90, 0xF0] := by
    decide +kernel
  obtain rfl : [0xF0, 0x90, 0x90, 0x90, 0xF0] = rows := Except.ok.inj (hrows.symm.trans hread)
  refine ⟨hfirst.mpr ⟨0, 0, ?_⟩, hsecond.mpr ⟨1, 0, ?_⟩, hpixels⟩ <;> decide +kernel

end Cpu

end Chip8
