import Handheld.Cpu.Instruction

/-! The meaning of opcode bytes, as the two pages of the instruction set. -/

namespace Handheld.Opcode

open Instruction Operand

private abbrev b : Operand := .register .b
private abbrev c : Operand := .register .c
private abbrev d : Operand := .register .d
private abbrev e : Operand := .register .e
private abbrev h : Operand := .register .h
private abbrev l : Operand := .register .l
private abbrev m : Operand := .atHl
private abbrev a : Operand := .register .a

/-- The first page, sixteen rows of sixteen opcodes. An opcode that names no instruction is
`none`.
-/
def page : Vector (Vector (Option Instruction) 16) 16 :=
  #v[
    -- 0x00
    #v[nop, loadWord .bc, storeA .bc, incrementWord .bc,
      increment b, decrement b, loadImmediate b, rotate .rlca,
      storeSp, addHl .bc, loadA .bc, decrementWord .bc,
      increment c, decrement c, loadImmediate c, rotate .rrca],
    -- 0x10
    #v[stop, loadWord .de, storeA .de, incrementWord .de,
      increment d, decrement d, loadImmediate d, rotate .rla,
      jumpRelative none, addHl .de, loadA .de, decrementWord .de,
      increment e, decrement e, loadImmediate e, rotate .rra],
    -- 0x20
    #v[jumpRelative (some .notZero), loadWord .hl, storeA .hlUp, incrementWord .hl,
      increment h, decrement h, loadImmediate h, Instruction.decimalAdjust,
      jumpRelative (some .zero), addHl .hl, loadA .hlUp, decrementWord .hl,
      increment l, decrement l, loadImmediate l, complement],
    -- 0x30
    #v[jumpRelative (some .notCarry), loadWord .sp, storeA .hlDown, incrementWord .sp,
      increment m, decrement m, loadImmediate m, setCarry,
      jumpRelative (some .carry), addHl .sp, loadA .hlDown, decrementWord .sp,
      increment a, decrement a, loadImmediate a, complementCarry],
    -- 0x40
    #v[load b b, load b c, load b d, load b e, load b h, load b l, load b m, load b a,
      load c b, load c c, load c d, load c e, load c h, load c l, load c m, load c a],
    -- 0x50
    #v[load d b, load d c, load d d, load d e, load d h, load d l, load d m, load d a,
      load e b, load e c, load e d, load e e, load e h, load e l, load e m, load e a],
    -- 0x60
    #v[load h b, load h c, load h d, load h e, load h h, load h l, load h m, load h a,
      load l b, load l c, load l d, load l e, load l h, load l l, load l m, load l a],
    -- 0x70
    #v[load m b, load m c, load m d, load m e, load m h, load m l, halt, load m a,
      load a b, load a c, load a d, load a e, load a h, load a l, load a m, load a a],
    -- 0x80
    #v[alu .add b, alu .add c, alu .add d, alu .add e,
      alu .add h, alu .add l, alu .add m, alu .add a,
      alu .adc b, alu .adc c, alu .adc d, alu .adc e,
      alu .adc h, alu .adc l, alu .adc m, alu .adc a],
    -- 0x90
    #v[alu .sub b, alu .sub c, alu .sub d, alu .sub e,
      alu .sub h, alu .sub l, alu .sub m, alu .sub a,
      alu .sbc b, alu .sbc c, alu .sbc d, alu .sbc e,
      alu .sbc h, alu .sbc l, alu .sbc m, alu .sbc a],
    -- 0xA0
    #v[alu .and b, alu .and c, alu .and d, alu .and e,
      alu .and h, alu .and l, alu .and m, alu .and a,
      alu .xor b, alu .xor c, alu .xor d, alu .xor e,
      alu .xor h, alu .xor l, alu .xor m, alu .xor a],
    -- 0xB0
    #v[alu .or b, alu .or c, alu .or d, alu .or e,
      alu .or h, alu .or l, alu .or m, alu .or a,
      alu .cp b, alu .cp c, alu .cp d, alu .cp e,
      alu .cp h, alu .cp l, alu .cp m, alu .cp a],
    -- 0xC0
    #v[ret (some .notZero), pop .bc, jump (some .notZero), jump none,
      call (some .notZero), push .bc, aluImmediate .add, restart 0x00,
      ret (some .zero), ret none, jump (some .zero), extended,
      call (some .zero), call none, aluImmediate .adc, restart 0x08],
    -- 0xD0
    #v[ret (some .notCarry), pop .de, jump (some .notCarry), none,
      call (some .notCarry), push .de, aluImmediate .sub, restart 0x10,
      ret (some .carry), returnInterrupt, jump (some .carry), none,
      call (some .carry), none, aluImmediate .sbc, restart 0x18],
    -- 0xE0
    #v[storeHigh, pop .hl, storeHighC, none,
      none, push .hl, aluImmediate .and, restart 0x20,
      addSp, jumpHl, storeAbsolute, none,
      none, none, aluImmediate .xor, restart 0x28],
    -- 0xF0
    #v[loadHigh, pop .af, loadHighC, disableInterrupts,
      none, push .af, aluImmediate .or, restart 0x30,
      loadHlSp, loadSpHl, loadAbsolute, enableInterrupts,
      none, none, aluImmediate .cp, restart 0x38]]

def decode? (opcode : UInt8) : Option Instruction :=
  page[Fin.ofNat 16 (opcode.toNat / 16)][Fin.ofNat 16 opcode.toNat]

/-- The operands of the extended page, which repeat every eight opcodes. -/
def operands : Vector Operand 8 :=
  #v[b, c, d, e, h, l, m, a]

/-- The shifts of the extended page, eight opcodes each. -/
def shifts : Vector ShiftOp 8 :=
  #v[.rlc, .rrc, .rl, .rr, .sla, .sra, .swap, .srl]

/-- The operation and operand that an opcode of the extended page names. Every opcode names
one.
-/
def decodeExtended (opcode : UInt8) : BitOp × Operand :=
  let row : Fin 8 := Fin.ofNat 8 (opcode.toNat / 8)
  let op : BitOp :=
    if opcode < 0x40 then .shift shifts[row]
    else if opcode < 0x80 then .test row
    else if opcode < 0xC0 then .reset row
    else .set row
  (op, operands[Fin.ofNat 8 opcode.toNat])

end Handheld.Opcode
