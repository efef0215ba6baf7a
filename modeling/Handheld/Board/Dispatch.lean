import Handheld.Board.Execute

/-! Serving interrupts. -/

namespace Handheld.Board

variable {State : Type} [Housing State]

/-- Machine cycles of calling an interrupt handler. -/
def dispatchCycles : Nat :=
  5

/-- The acknowledgement of an interrupt, which takes its request back. -/
def acknowledge (source : Interrupt) : Act State Unit := do
  notice (.interrupt source)
  modifyBus (·.acknowledge source)

/-- The call of an interrupt's handler. The request is acknowledged and further interrupts
are switched off before the return address is pushed.
-/
def serve (source : Interrupt) : Act State Nat := do
  modifyCpu fun cpu => { cpu with interruptsOn := false, enableDelay := 0 }
  acknowledge source
  push (← observe (·.pc))
  modifyCpu fun cpu =>
    { cpu with pc := source.vector, cycles := cpu.cycles + dispatchCycles }
  modifyBus (·.runTimer dispatchCycles)
  pure dispatchCycles

/-- The source to serve first among those that are both requested and enabled. -/
def nextInterrupt? (board : Board) : Option Interrupt :=
  Interrupt.first? (Interrupt.pending board.bus.requests board.bus.enables)

/-- At most one pending interrupt served. Any pending one ends a halt, even while interrupts
are switched off. The result is the machine cycles taken.
-/
def admitInterrupt : Act State Nat := do
  match ← inspect nextInterrupt? with
  | none => pure 0
  | some source =>
      modifyCpu fun cpu => { cpu with halted := false }
      if ← observe (·.interruptsOn) then serve source else pure 0

end Handheld.Board
