import Handheld.Board.Execute

/-! What instructions do to the reserved bits of the processor. The lower half of the flag register
stays clear under every change that an instruction makes, and a planned switch-on of interrupts is
not put off by any, except by the instruction that plans it.
-/

namespace Handheld.Board

-----------------------------------------------------------------------------------------
-- The lower half of the flag register
-----------------------------------------------------------------------------------------

theorem padding_toByte (flags : Flags)
    : flags.toByte &&& 0x0F = 0 := by
  obtain ⟨zero, subtract, half, carry⟩ := flags
  revert zero subtract half carry
  decide

theorem padding_setAf (cpu : Cpu) (value : UInt16)
    : (cpu.setAf value).f &&& 0x0F = 0 := by
  change lowByte value &&& 0xF0 &&& 0x0F = 0
  rw [UInt8.and_assoc]
  exact UInt8.and_zero

-----------------------------------------------------------------------------------------
-- Modest changes
-----------------------------------------------------------------------------------------

/-- A change of the processor that keeps the lower half of the flag register clear and does not put
off a planned switch-on of interrupts.
-/
structure Modest (change : Cpu → Cpu) : Prop where
  padding (cpu : Cpu) : cpu.f &&& 0x0F = 0 → (change cpu).f &&& 0x0F = 0
  delay (cpu : Cpu) : (change cpu).enableDelay ≤ cpu.enableDelay

variable {change : Cpu → Cpu}

/-- A change of other registers is modest. -/
theorem Modest.elsewhere
    (same : ∀ cpu, (change cpu).f = cpu.f ∧ (change cpu).enableDelay = cpu.enableDelay)
    : Modest change where
  padding cpu clear := by
    rw [(same cpu).1]
    exact clear
  delay cpu := UInt8.le_of_eq (same cpu).2

/-- So is one that sets the four flags. -/
theorem Modest.flagging
    (sets
      : ∀ cpu,
        (∃ flags : Flags, (change cpu).f = flags.toByte)
        ∧ (change cpu).enableDelay = cpu.enableDelay)
    : Modest change where
  padding cpu _ := by
    obtain ⟨⟨flags, set⟩, -⟩ := sets cpu
    rw [set]
    exact padding_toByte flags
  delay cpu := UInt8.le_of_eq (sets cpu).2

theorem modest_setFlags (flags : Flags)
    : Modest (·.setFlags flags) :=
  .flagging fun _ => ⟨⟨flags, rfl⟩, rfl⟩

theorem modest_setByte (register : ByteRegister) (value : UInt8)
    : Modest (·.setByte register value) := by
  apply Modest.elsewhere
  intro cpu
  cases register <;> exact ⟨rfl, rfl⟩

theorem modest_setWord (register : WordRegister) (value : Cpu → UInt16)
    : Modest fun cpu => cpu.setWord register (value cpu) := by
  apply Modest.elsewhere
  intro cpu
  cases register <;> exact ⟨rfl, rfl⟩

/-- Accumulator and flags are loaded without the lower half of the flags. -/
theorem modest_setStackWord (register : StackRegister) (value : UInt16)
    : Modest (·.setStackWord register value) := by
  cases register with
  | af => exact ⟨fun cpu _ => padding_setAf cpu value, fun _ => UInt8.le_refl _⟩
  | _ => exact .elsewhere fun _ => ⟨rfl, rfl⟩

theorem modest_movePointer (pointer : Pointer) (address : UInt16)
    : Modest (movePointer pointer address) := by
  cases pointer <;> exact .elsewhere fun _ => ⟨rfl, rfl⟩

theorem modest_loadPointer (pointer : Pointer) (address : UInt16) (value : UInt8)
    : Modest fun cpu => movePointer pointer address { cpu with a := value } := by
  cases pointer <;> exact .elsewhere fun _ => ⟨rfl, rfl⟩

/-- Interrupts are switched off together with what is planned. -/
theorem modest_disable
    : Modest fun cpu => { cpu with interruptsOn := false, enableDelay := 0 } :=
  ⟨fun _ clear => clear, fun _ => UInt8.zero_le⟩

/-- Settling a planned switch-on of interrupts changes nothing else. -/
theorem settleEnable_elsewhere (wasDue : Bool) (cpu : Cpu)
    : ∃ interruptsOn enableDelay,
        settleEnable wasDue cpu = { cpu with interruptsOn, enableDelay } := by
  unfold settleEnable
  split
  · exact ⟨_, _, rfl⟩
  · exact ⟨_, _, rfl⟩

/-- It brings the switch-on nearer. -/
theorem modest_settleEnable (wasDue : Bool)
    : Modest (settleEnable wasDue) where
  padding cpu clear := by
    obtain ⟨_, _, settled⟩ := settleEnable_elsewhere wasDue cpu
    rw [settled]
    exact clear
  delay cpu := by
    unfold settleEnable
    split
    · exact UInt8.le_refl _
    · next planned =>
        have least : 1 ≤ cpu.enableDelay := UInt8.pos_iff_ne_zero.mpr planned
        exact UInt8.sub_le least

-----------------------------------------------------------------------------------------
-- The exception
-----------------------------------------------------------------------------------------

variable {State : Type} [Housing State]

/-- A switch-on of interrupts is planned, which is not modest, and settled for the first time. -/
def planEnable (wasDue : Bool) : Act State Unit := do
  modifyCpu fun cpu => { cpu with enableDelay := 2 }
  modifyCpu (settleEnable wasDue)

/-- The instruction that plans it is settled at once. -/
theorem run_enableInterrupts {α : Type} (wasDue : Bool) (rest : Nat → Act State α)
    : (do
        let cycles ← run .enableInterrupts
        modifyCpu (settleEnable wasDue)
        rest cycles)
      = (do
        planEnable wasDue
        rest 1) := by
  simp only [run, planEnable, bind_assoc, pure_bind]

end Handheld.Board
