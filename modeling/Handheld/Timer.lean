/-! The divider and the programmable counter. Both advance with machine cycles: the divider
freely, the counter once per selected period while it is enabled. A counter that passes 255
reloads from the modulo register and asks for an interrupt.
-/

namespace Handheld

/-- Divider, counter and their control registers. -/
structure Timer where
  /-- Machine cycles since the divider was reset, modulo a full turn of the divider. -/
  divider : Nat
  counter : UInt8
  modulo : UInt8
  control : UInt8
  /-- Machine cycles gathered towards the next step of the counter. -/
  progress : Nat
  deriving DecidableEq, Repr

namespace Timer

/-- Machine cycles per divider step. -/
def dividerStep : Nat :=
  64

/-- Machine cycles after which the visible divider returns to zero. -/
def dividerTurn : Nat :=
  256 * dividerStep

/-- A timer with every register cleared. -/
def initial : Timer :=
  { divider := 0, counter := 0, modulo := 0, control := 0, progress := 0 }

instance : Inhabited Timer :=
  ⟨initial⟩

/-- The registers of the timer. -/
inductive Register where
  | divider
  | counter
  | modulo
  | control
  deriving DecidableEq, Repr

def Register.at? (address : UInt16) : Option Register :=
  if address = 0xFF04 then some .divider
  else if address = 0xFF05 then some .counter
  else if address = 0xFF06 then some .modulo
  else if address = 0xFF07 then some .control
  else none

def dividerByte (timer : Timer) : UInt8 :=
  UInt8.ofNat (timer.divider / dividerStep)

/-- The value a register shows; the unused control bits read as ones. -/
def read (timer : Timer) : Register → UInt8
  | .divider => timer.dividerByte
  | .counter => timer.counter
  | .modulo => timer.modulo
  | .control => timer.control ||| 0xF8

def resetDivider (timer : Timer) : Timer :=
  { timer with divider := 0 }

/-- The timer after a register write. Any write to the divider restarts it, and a write to
the counter drops the progress towards its next step.
-/
def write (timer : Timer) (register : Register) (value : UInt8) : Timer :=
  match register with
  | .divider => timer.resetDivider
  | .counter => { timer with counter := value, progress := 0 }
  | .modulo => { timer with modulo := value }
  | .control => { timer with control := value &&& 0x07 }

/-- Reading by address; addresses outside the timer read as ones. -/
def readAt (timer : Timer) (address : UInt16) : UInt8 :=
  match Register.at? address with
  | some register => timer.read register
  | none => 0xFF

/-- Writing by address; addresses outside the timer ignore the value. -/
def writeAt (timer : Timer) (address : UInt16) (value : UInt8) : Timer :=
  match Register.at? address with
  | some register => timer.write register value
  | none => timer

def enabled (timer : Timer) : Bool :=
  timer.control &&& 0x04 != 0

/-- Machine cycles per counter step for the low two control bits. -/
def period (timer : Timer) : Nat :=
  match (timer.control &&& 0x03).toNat with
  | 0 => 256
  | 1 => 4
  | 2 => 16
  | _ => 64

/-- Every period is positive. -/
theorem period_pos (timer : Timer)
    : 0 < timer.period := by
  unfold period
  split <;> decide

/-- Whole periods counted off the progress, one after another. Each is a step of the counter, and
the step beyond 255 reloads it. The result also says whether any step did, or one before.
-/
def countOff (timer : Timer) (overflowed : Bool) : Timer × Bool :=
  if timer.period ≤ timer.progress then
    let progress := timer.progress - timer.period
    if timer.counter = 0xFF then
      countOff { timer with counter := timer.modulo, progress } true
    else countOff { timer with counter := timer.counter + 1, progress } overflowed
  else (timer, overflowed)
termination_by timer.progress
decreasing_by
  all_goals
    have positive := timer.period_pos
    omega

/-- The timer after some machine cycles, and whether the counter reloaded meanwhile. The cycles are
added to divider and progress in counters of 32 bits, so what is said of any number of cycles is
meant for those that fit there. Before, they hold less than a turn and less than 256 cycles.
-/
def tick (timer : Timer) (cycles : Nat) : Timer × Bool :=
  let timer := { timer with divider := (timer.divider + cycles) % dividerTurn }
  if timer.enabled then
    countOff { timer with progress := timer.progress + cycles } false
  else (timer, false)

end Timer

end Handheld
