import Handheld.Machine
import Handheld.Proofs.Board.Probe

/-! Machines driven from outside. Whoever drives a machine asks for steps and for accesses to
its bus, in any order. A fault answers the call that ran into it, and the next call goes on from
what that one left.
-/

namespace Handheld

namespace Board

/-- Something asked of a board from outside. -/
inductive Call where
  | step
  | read (address : UInt16)
  | write (address : UInt16) (value : UInt8)
  /-- The bytes that a transfer to object memory would copy from a page. -/
  | readPage (page : UInt8)

/-- What a call that succeeds gives. -/
inductive Answer where
  | clocks (count : Nat)
  | byte (value : UInt8)
  | done
  | page (bytes : Memory 0xA0)

variable {State : Type} [Housing State]

def Call.act : Call → Act State Answer
  | .step => do
      let clocks ← Board.step
      pure (.clocks clocks)
  | .read address => do
      let value ← Board.read address
      pure (.byte value)
  | .write address value => do
      Board.write address value
      pure .done
  | .readPage page => do
      let bytes ← onBus (Bus.readPage page)
      pure (.page bytes)

/-- The board after some calls. -/
def after : List Call → Board → Board
  | [], board => board
  | call :: rest, board => after rest (call.act.endsIn board)

/-- The answers to some calls, one for each. -/
def answers : List Call → Board → List (Except Fault Answer)
  | [], _ => []
  | call :: rest, board => call.act.answer board :: answers rest (call.act.endsIn board)

end Board

namespace Machine

def after (machine : Machine) (calls : List Board.Call) : Machine :=
  { machine with board := Board.after calls machine.board }

def answers (machine : Machine) (calls : List Board.Call) : List (Except Fault Board.Answer) :=
  Board.answers calls machine.board

/-- A machine with some bus, about to run what stands at the start of high memory. -/
def inHighMemory (bus : Bus) : Machine :=
  { board := { cpu := { Cpu.afterBoot with pc := 0xFF80 }, bus }
    overrun := 0 }

end Machine

namespace Coupling

open Board

/-- A coupling kept by everything that may be asked of a board. -/
structure KeepsCalls {Left Right : Type} [Housing Left] [Housing Right]
    (coupling : Coupling Left Right) : Prop extends KeepsStep coupling where
  readPage (page : UInt8)
    : coupling.Keeps Eq (onBus (Bus.readPage page)) (onBus (Bus.readPage page))

namespace KeepsCalls

variable {Left Right : Type} [Housing Left] [Housing Right]

/-- A call keeps the coupling, by cases of what is asked. -/
theorem call {coupling : Coupling Left Right} (parts : coupling.KeepsCalls) (call : Call)
    : coupling.Keeps Eq (call.act : Act Left Answer) (call.act : Act Right Answer) := by
  cases call with
  | step =>
      refine parts.step.bind ?_
      rintro clocks _ ⟨rfl, _⟩
      exact .pure rfl
  | read address => exact (parts.read address).andThen fun _ => .pure rfl
  | write address value => exact (parts.write address value).andThen fun _ => .pure rfl
  | readPage page => exact (parts.readPage page).andThen fun _ => .pure rfl

/-- Related boards give equal answers and stay related, as long as the left one gives no excused
fault. Induction on the calls: one that is answered alike leaves related boards to the rest.
-/
theorem answers {coupling : Coupling Board Board} (parts : coupling.KeepsCalls)
    (calls : List Call) {left right : Board} (related : coupling.related left right)
    (unexcused : ∀ fault, .error fault ∈ Board.answers calls left → ¬coupling.excused fault)
    : Board.answers calls right = Board.answers calls left
      ∧ coupling.related (after calls left) (after calls right) := by
  induction calls generalizing left right with
  | nil => exact ⟨rfl, related⟩
  | cons call rest ih =>
      rcases (parts.call call).answer related with ⟨fault, given, excused⟩ | ⟨same, kept⟩
      · refine absurd excused (unexcused fault ?_)
        rw [Board.answers, given]
        exact List.mem_cons_self
      · obtain ⟨answered, ends⟩ :=
          ih kept fun fault given => unexcused fault (List.mem_cons_of_mem _ given)
        refine ⟨?_, ends⟩
        rw [Board.answers, Board.answers, same, answered]

end KeepsCalls

end Coupling

namespace Probed

/-- Observation changes nothing that may be asked of a board. -/
theorem besideBoard_keepsCalls : besideBoard.KeepsCalls where
  toKeepsStep := besideBoard_keepsStep
  readPage _ := besideBoard_onBoard _

/-- What all parts of a step preserve, everything that may be asked of a board does. -/
theorem KeptByStep.keepsCalls {property : Bus → List Board.Event → Prop}
    (kept : KeptByStep property)
    : (watching property).KeepsCalls where
  toKeepsStep := kept.keepsStep
  readPage page := .ofInvariant fun ⟨⟨cpu, bus⟩, events⟩ holds => by
    rw [endsIn_onBus]
    exact kept.noting (bus.noting_readPage page) holds

/-- So the bus of a board keeps it whatever is asked, by induction on the calls. -/
theorem KeptByStep.after {property : Bus → Prop} (kept : KeptByStep fun bus _ => property bus)
    (calls : List Board.Call) {board : Board} (holds : property board.bus)
    : property (Board.after calls board).bus := by
  induction calls generalizing board with
  | nil => exact holds
  | cons call rest ih =>
      apply ih
      rw [endsIn_of_besideBoard (besideBoard_keepsCalls.call call)]
      exact (kept.keepsCalls.call call).invariant holds

end Probed

end Handheld
