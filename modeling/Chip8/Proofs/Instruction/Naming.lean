import Chip8.Instruction.Mnemonic
import Chip8.Proofs.Cpu.Refusal
import Chip8.Proofs.Text.Numerals

/-!
# Mnemonics as names

The text of a mnemonic can be taken apart again. Names have no blanks and operands no
commas, so the marks between them are found; an operand shows by its first letters of which
kind it is and by its digits which one; and every name with its operands is in one row of the
table of mnemonics only. So a mnemonic names one instruction, whatever the operands, and a
report that gives the mnemonic says which instruction was refused.
-/

namespace Chip8

/-! ## Operands -/

namespace Operand

/-- The operand that a text is the text of, if it is the text of any. Digits alone count
rows, and a marked numeral of more than two digits is an address. -/
def ofText (text : String) : Operand :=
  if text.toList.all Char.isDigit then
    .rows (UInt8.ofNat (Nat.ofDigitChars 10 text.toList 0))
  else
    match text.toList with
    | 'V' :: digits => .register (UInt8.ofNat (Hex.value digits))
    | '0' :: 'x' :: digits =>
      if digits.length ≤ 2 then .byte (UInt8.ofNat (Hex.value digits))
      else .address (UInt16.ofNat (Hex.value digits))
    | ['I'] => .index
    | ['D', 'T'] => .delay
    | ['S', 'T'] => .sound
    | ['K'] => .key
    | ['F'] => .glyph
    | ['B'] => .decimal
    | _ => .memory

theorem toList_text_register (number : UInt8) :
    (register number).text.toList = 'V' :: (Hex.bare number.toNat).toList := by
  simp [text]

theorem toList_text_rows (count : UInt8) :
    (rows count).text.toList = Nat.toDigits 10 count.toNat := by
  simp [text]

private theorem isDigit_of_mem_rows {count : Nat} {c : Char} (h : c ∈ Nat.toDigits 10 count) :
    c.isDigit = true :=
  Nat.isDigit_of_mem_toDigits (by decide) (by decide) h

/-- A text tells its operand. -/
theorem ofText_text (operand : Operand) : ofText operand.text = operand := by
  cases operand with
  | register number =>
    simp [ofText, toList_text_register, Hex.toList_bare, Hex.value_map_toUpper_digits]
  | byte value =>
    have hlength : (Hex.digits 2 value.toNat).length = 2 :=
      Hex.length_digits_of_lt (by decide) value.toNat_lt
    simp [ofText, text, Hex.toList_lower, hlength, Hex.value_digits]
  | address value =>
    have hlength : ¬(Hex.digits 3 value.toNat).length ≤ 2 :=
      Nat.not_le.mpr (Hex.le_length_digits 3 value.toNat)
    simp [ofText, text, Hex.toList_lower, hlength, Hex.value_digits]
  | rows count =>
    have hdigits : (Nat.toDigits 10 count.toNat).all Char.isDigit = true :=
      List.all_eq_true.mpr fun _ => isDigit_of_mem_rows
    simp [ofText, toList_text_rows, hdigits]
  | _ => rfl

/-- Two operands have the same text only if they are the same. -/
theorem text_injective : Function.Injective text :=
  Function.LeftInverse.injective ofText_text

theorem comma_notMem_text (operand : Operand) : ',' ∉ operand.text.toList := by
  intro h
  cases operand with
  | register number =>
    rw [toList_text_register] at h
    rcases List.mem_cons.mp h with hmark | h
    · exact absurd hmark (by decide)
    · exact absurd (Hex.isAlphanum_of_mem_bare h) (by decide)
  | byte value => exact absurd (Hex.isAlphanum_of_mem_lower h) (by decide)
  | address value => exact absurd (Hex.isAlphanum_of_mem_lower h) (by decide)
  | rows count =>
    rw [toList_text_rows] at h
    exact absurd (isDigit_of_mem_rows h) (by decide)
  | _ => exact absurd h (by decide)

end Operand

/-! ## Names and operands -/

namespace Mnemonic

/-- Where a mark is in neither of two beginnings, it is found at the same place. -/
private theorem eq_and_eq_of_append_cons_eq {mark : Char} {xs ys rest rest' : List Char}
    (hxs : mark ∉ xs) (hys : mark ∉ ys) (h : xs ++ mark :: rest = ys ++ mark :: rest') :
    xs = ys ∧ rest = rest' := by
  rcases List.append_eq_append_iff.mp h with ⟨zs, rfl, hrest⟩ | ⟨zs, rfl, hrest⟩
  · cases zs <;> simp_all
  · cases zs <;> simp_all

/-- The letters of operands, with a comma and a blank behind each of them. -/
def letters (operands : List Operand) : List Char :=
  operands.flatMap fun operand => operand.text.toList ++ [',', ' ']

theorem letters_cons (operand : Operand) (operands : List Operand) :
    letters (operand :: operands) = operand.text.toList ++ ',' :: ' ' :: letters operands := by
  simp [letters]

theorem letters_cons_ne_nil (operand : Operand) (operands : List Operand) :
    letters (operand :: operands) ≠ [] := by
  simp [letters]

/-- Two lists of operands have the same letters only if they are the same. -/
theorem letters_injective : Function.Injective letters := by
  intro operands others h
  induction operands generalizing others with
  | nil =>
    cases others with
    | nil => rfl
    | cons other others => exact absurd h.symm (letters_cons_ne_nil other others)
  | cons operand operands ih =>
    cases others with
    | nil => exact absurd h (letters_cons_ne_nil operand operands)
    | cons other others =>
      rw [letters_cons, letters_cons] at h
      -- Both first texts end where the first comma is.
      obtain ⟨htext, hrest⟩ := eq_and_eq_of_append_cons_eq operand.comma_notMem_text
        other.comma_notMem_text h
      rw [Operand.text_injective (String.toList_injective htext),
        ih (List.tail_eq_of_cons_eq hrest)]

/-- Joining leaves out the last comma and blank only. -/
theorem toList_joined_append {operands : List Operand} (h : operands ≠ []) :
    (joined operands).toList ++ [',', ' '] = letters operands := by
  fun_induction joined operands with
  | case1 => exact absurd rfl h
  | case2 operand => simp [letters]
  | case3 operand next rest ih =>
    rw [letters_cons, ← ih (List.cons_ne_nil next rest)]
    simp

theorem eq_of_joined_eq {operands others : List Operand} (hne : operands ≠ [])
    (hother : others ≠ []) (h : joined operands = joined others) : operands = others := by
  apply letters_injective
  rw [← toList_joined_append hne, ← toList_joined_append hother, h]

theorem toList_text_of_ne_nil {mnemonic : Mnemonic} (h : mnemonic.operands ≠ []) :
    mnemonic.text.toList = mnemonic.name.toList ++ ' ' :: (joined mnemonic.operands).toList := by
  simp [text, h]

theorem text_of_eq_nil {mnemonic : Mnemonic} (h : mnemonic.operands = []) :
    mnemonic.text = mnemonic.name := by
  simp [text, h]

/-- Behind a name without blanks, a blank tells that there are operands. -/
theorem blank_mem_text_iff {mnemonic : Mnemonic} (hname : ' ' ∉ mnemonic.name.toList) :
    ' ' ∈ mnemonic.text.toList ↔ mnemonic.operands ≠ [] := by
  by_cases hnil : mnemonic.operands = []
  · simp [text_of_eq_nil hnil, hnil, hname]
  · simp [toList_text_of_ne_nil hnil, hnil]

/-- Where names have no blanks, two mnemonics have the same text only if they are the
same. -/
theorem eq_of_text_eq {mnemonic other : Mnemonic} (hname : ' ' ∉ mnemonic.name.toList)
    (hother : ' ' ∉ other.name.toList) (h : mnemonic.text = other.text) : mnemonic = other := by
  have hboth : mnemonic.operands ≠ [] ↔ other.operands ≠ [] := by
    rw [← blank_mem_text_iff hname, h, blank_mem_text_iff hother]
  obtain ⟨name, operands⟩ := mnemonic
  obtain ⟨name', operands'⟩ := other
  by_cases hnil : operands = []
  · have hnil' : operands' = [] := not_not.mp fun hne => hboth.mpr hne hnil
    rw [text_of_eq_nil hnil, text_of_eq_nil hnil'] at h
    exact congrArg₂ Mnemonic.mk h (hnil.trans hnil'.symm)
  · have hletters := congrArg String.toList h
    rw [toList_text_of_ne_nil hnil, toList_text_of_ne_nil (hboth.mp hnil)] at hletters
    obtain ⟨hnames, hjoined⟩ := eq_and_eq_of_append_cons_eq hname hother hletters
    exact congrArg₂ Mnemonic.mk (String.toList_injective hnames)
      (eq_of_joined_eq hnil (hboth.mp hnil) (String.toList_injective hjoined))

end Mnemonic

/-! ## The table of mnemonics -/

namespace Instruction

/-- The instruction with a given mnemonic, if there is one: the table of mnemonics, read from
the right. -/
def ofMnemonic? : Mnemonic → Option Instruction
  | ⟨"CLS", []⟩ => some .clear
  | ⟨"RET", []⟩ => some .ret
  | ⟨"JP", [.address target]⟩ => some (.jump target)
  | ⟨"CALL", [.address target]⟩ => some (.call target)
  | ⟨"SE", [.register x, .byte byte]⟩ => some (.skipIfByte x byte)
  | ⟨"SNE", [.register x, .byte byte]⟩ => some (.skipUnlessByte x byte)
  | ⟨"SE", [.register x, .register y]⟩ => some (.skipIfSame x y)
  | ⟨"LD", [.register x, .byte byte]⟩ => some (.setByte x byte)
  | ⟨"ADD", [.register x, .byte byte]⟩ => some (.addByte x byte)
  | ⟨"LD", [.register x, .register y]⟩ => some (.copy x y)
  | ⟨"OR", [.register x, .register y]⟩ => some (.or x y)
  | ⟨"AND", [.register x, .register y]⟩ => some (.and x y)
  | ⟨"XOR", [.register x, .register y]⟩ => some (.xor x y)
  | ⟨"ADD", [.register x, .register y]⟩ => some (.add x y)
  | ⟨"SUB", [.register x, .register y]⟩ => some (.sub x y)
  | ⟨"SHR", [.register x]⟩ => some (.shiftRight x)
  | ⟨"SUBN", [.register x, .register y]⟩ => some (.subFrom x y)
  | ⟨"SHL", [.register x]⟩ => some (.shiftLeft x)
  | ⟨"SNE", [.register x, .register y]⟩ => some (.skipUnlessSame x y)
  | ⟨"LD", [.index, .address address]⟩ => some (.setIndex address)
  | ⟨"JP", [.register 0, .address base]⟩ => some (.jumpOffset base)
  | ⟨"RND", [.register x, .byte mask]⟩ => some (.random x mask)
  | ⟨"DRW", [.register x, .register y, .rows height]⟩ => some (.draw x y height)
  | ⟨"SKP", [.register x]⟩ => some (.skipIfDown x)
  | ⟨"SKNP", [.register x]⟩ => some (.skipUnlessDown x)
  | ⟨"LD", [.register x, .delay]⟩ => some (.readDelay x)
  | ⟨"LD", [.register x, .key]⟩ => some (.waitKey x)
  | ⟨"LD", [.delay, .register x]⟩ => some (.setDelay x)
  | ⟨"LD", [.sound, .register x]⟩ => some (.setSound x)
  | ⟨"ADD", [.index, .register x]⟩ => some (.addIndex x)
  | ⟨"LD", [.glyph, .register x]⟩ => some (.setGlyph x)
  | ⟨"LD", [.decimal, .register x]⟩ => some (.storeDecimal x)
  | ⟨"LD", [.memory, .register x]⟩ => some (.store x)
  | ⟨"LD", [.register x, .memory]⟩ => some (.load x)
  | _ => none

/-- A mnemonic tells its instruction. -/
theorem ofMnemonic?_mnemonic (instruction : Instruction) :
    ofMnemonic? instruction.mnemonic = some instruction := by
  cases instruction <;> rfl

theorem mnemonic_injective : Function.Injective mnemonic := by
  intro instruction other h
  have hread := congrArg ofMnemonic? h
  rw [ofMnemonic?_mnemonic, ofMnemonic?_mnemonic] at hread
  exact Option.some.inj hread

theorem blank_notMem_name (instruction : Instruction) :
    ' ' ∉ instruction.mnemonic.name.toList := by
  cases instruction <;> simp only [mnemonic] <;> decide

/-- Two instructions have the same text only if they are the same. -/
theorem text_injective : Function.Injective text := by
  intro instruction other h
  apply mnemonic_injective
  exact Mnemonic.eq_of_text_eq instruction.blank_notMem_name other.blank_notMem_name h

/-- The text of a mnemonic names one instruction with its operands, whatever bytes and words
these are. So the mnemonics of two opcodes that stand for instructions agree just if the
instructions do; and where a step was refused and the instruction in front is reported by its
mnemonic, an instruction of that name is the one whose execution was refused. -/
theorem text_names_one_instruction :
    (∀ instruction other : Instruction, instruction.text = other.text ↔ instruction = other) ∧
    (∀ (opcode opcode' : UInt16) (instruction other : Instruction),
      decode? opcode = some instruction → decode? opcode' = some other →
      (instruction.text = other.text ↔ decode? opcode = decode? opcode')) ∧
    ∀ (cpu : Cpu) (screen : Screen) (keypad : Keypad) (fault : Fault)
      (instruction named : Instruction),
      (cpu.step screen keypad).result = .error fault →
      cpu.peek = .ok (some instruction) → instruction.text = named.text →
      cpu.execute screen keypad named = ⟨.error fault, cpu, screen⟩ := by
  refine ⟨fun _ _ => text_injective.eq_iff, ?_, ?_⟩
  · intro opcode opcode' instruction other hdecode hdecode'
    rw [hdecode, hdecode', Option.some.injEq]
    exact text_injective.eq_iff
  · intro cpu screen keypad fault instruction named hstep hpeek htext
    have hsame : instruction = named := text_injective htext
    have hfault : cpu.fault? = some fault := (Cpu.step_result_eq_error_iff screen keypad).mp hstep
    have hrefusal : cpu.refusal? instruction = some fault :=
      (Cpu.peek_of_fault? hfault).2.2 instruction hpeek
    rw [← hsame]
    exact Cpu.execute_of_refusal? screen keypad hrefusal

/-- The two jumps share a name, and so do loads whose operands look alike. -/
example :
    text (.jump 0x123) = "JP 0x123" ∧ text (.jumpOffset 0x123) = "JP V0, 0x123" ∧
      text (.setGlyph 0xF) = "LD F, VF" ∧ text (.copy 0xF 0xF) = "LD VF, VF" := by
  decide

end Instruction

end Chip8
