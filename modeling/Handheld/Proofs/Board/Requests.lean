import Handheld.Proofs.Board.Works
import Handheld.Proofs.Video.Elapse

/-! Requests for interrupts do not get lost. During a step of the board a request disappears
when a write to the request register leaves it out, or when it is acknowledged; and a step
acknowledges at most one request, the first of those pending, to call its handler.
-/

namespace Handheld

namespace Board

-----------------------------------------------------------------------------------------
-- Every request is accounted for
-----------------------------------------------------------------------------------------

/-- What is noticed during a step of a board. -/
def stepEvents (board : Board) : List Event :=
  Probed.eventsOf step board

/-- A write among some events leaves a source out of the requests. -/
def Overwritten (source : Interrupt) (events : List Event) : Prop :=
  ∃ value, .write 0xFF0F value ∈ events ∧ ¬source.isIn value

/-- A request still stands, or was overwritten or acknowledged. -/
def Accounted (source : Interrupt) (bus : Bus) (events : List Event) : Prop :=
  source.isIn bus.requests ∨ Overwritten source events ∨ .interrupt source ∈ events

/-- A request stays accounted for while requests and events only grow. -/
theorem Accounted.mono {source : Interrupt} {before after : Bus} {events more : List Event}
    (accounted : Accounted source before events)
    (raised : source.isIn before.requests → source.isIn after.requests)
    (grown : events ⊆ more)
    : Accounted source after more := by
  rcases accounted with stands | ⟨value, written, without⟩ | acknowledged
  · exact .inl (raised stands)
  · exact .inr (.inl ⟨value, grown written, without⟩)
  · exact .inr (.inr (grown acknowledged))

/-- Accesses, devices and dispatches keep every request accounted for. -/
theorem accounted_keptByStep (source : Interrupt)
    : Probed.KeptByStep (Accounted source) where
  instruction _ accounted := accounted.mono id (List.subset_append_left _ _)
  noting := by
    rintro _ _ events ⟨noted, rfl⟩ accounted
    exact accounted.mono id (List.Subset.refl _)
  write {bus events} address value accounted := by
    by_cases own : address = 0xFF0F
    · subst own
      by_cases within : source.isIn value
      · refine .inl ?_
        rw [bus.requests_write_requests, Interrupt.isIn_and, within, Interrupt.isIn_low]
        rfl
      · exact .inr (.inl ⟨value, by simp, within⟩)
    · refine accounted.mono ?_ (List.subset_append_left _ _)
      rw [bus.requests_write_of_ne own]
      exact id
  resetDivider accounted := accounted.mono id (List.Subset.refl _)
  runTimer cycles accounted :=
    accounted.mono (fun raised => Interrupt.isIn_raiseIf raised _ _) (List.Subset.refl _)
  acknowledge {bus events} other accounted := by
    by_cases same : source = other
    · exact .inr (.inr (by simp [same]))
    · exact accounted.mono (fun raised => Interrupt.isIn_and_complement_mask raised same)
        (List.subset_append_left _ _)
  runVideo {bus _} clocks accounted :=
    accounted.mono (fun raised => bus.video.isIn_advance clocks raised) (List.Subset.refl _)
  unmapBoot accounted := accounted.mono id (List.Subset.refl _)

-----------------------------------------------------------------------------------------
-- What is acknowledged
-----------------------------------------------------------------------------------------

/-- The source that an event acknowledges. -/
def Event.interrupt? : Event → Option Interrupt
  | .interrupt source => some source
  | _ => none

/-- The sources acknowledged in some events, in order. -/
def interrupts (events : List Event) : List Interrupt :=
  events.filterMap Event.interrupt?

/-- A source is among those acknowledged when its event is noticed. -/
theorem mem_interrupts_iff {source : Interrupt} {events : List Event}
    : source ∈ interrupts events ↔ .interrupt source ∈ events := by
  rw [interrupts, List.mem_filterMap]
  constructor
  · rintro ⟨event, member, named⟩
    cases event <;> cases named
    exact member
  · intro member
    exact ⟨_, member, rfl⟩

/-- One more event adds at most its own source. -/
theorem interrupts_append (events : List Event) (event : Event)
    : interrupts (events ++ [event]) = interrupts events ++ event.interrupt?.toList := by
  rw [interrupts, List.filterMap_append]
  cases event <;> rfl

/-- The parts of instructions acknowledge nothing. -/
theorem interrupts_keptByParts (taken : List Interrupt)
    : Probed.KeptByParts fun _ events => interrupts events = taken where
  instruction _ same := by simpa [interrupts_append, Event.interrupt?] using same
  noting _ same := same
  write _ _ same := by simpa [interrupts_append, Event.interrupt?] using same
  resetDivider same := same
  runTimer _ same := same

/-- An admission acknowledges nothing, or serves the next source while interrupts are on. -/
theorem admitInterrupt_ok {probed after : Probed} {cycles : Nat}
    (admitted : admitInterrupt probed = .ok cycles after)
    : interrupts after.events = interrupts probed.events
      ∨ ∃ source,
          nextInterrupt? probed.board = some source
          ∧ probed.board.cpu.interruptsOn
          ∧ interrupts after.events = interrupts probed.events ++ [source]
          ∧ after.board.cpu.pc = source.vector := by
  rcases admitInterrupt_cases probed with ⟨halted, idle, -⟩ | ⟨source, serves, on, next⟩
  · rw [idle] at admitted
    cases admitted
    exact .inl rfl
  · rw [serves] at admitted
    obtain ⟨-, called, noticed⟩ := calling_of_serve admitted
    refine .inr ⟨source, next, on, ?_, congrArg Cpu.pc called⟩
    rw [noticed, interrupts, List.filterMap_append]
    rfl

-----------------------------------------------------------------------------------------
-- A whole step
-----------------------------------------------------------------------------------------

/-- The end of a step leaves the program counter alone. -/
@[simp]
theorem pc_leaveBoot (board : Board)
    : board.leaveBoot.cpu.pc = board.cpu.pc := by
  unfold leaveBoot
  split <;> rfl

/-- A request that disappears in a step was left out by a write to the request register or was
acknowledged.
-/
theorem lost_in_step {board after : Board} {clocks : Nat}
    (stepped : step board = .ok clocks after) {source : Interrupt}
    (raised : source.isIn board.bus.requests) (gone : ¬source.isIn after.bus.requests)
    : Overwritten source board.stepEvents ∨ .interrupt source ∈ board.stepEvents := by
  obtain ⟨_, observed, -⟩ := Probed.ok_of_besideBoard Probed.besideBoard_keepsStep.step stepped
  have keeps := (accounted_keptByStep source).keepsStep.step
  have accounted := (keeps.ofInvariant_ok observed (.inl raised)).2
  exact accounted.resolve_left gone

/-- A step acknowledges nothing, or calls the handler of the request that was first among
those pending after its instruction, while interrupts were on.
-/
theorem acknowledged_in_step {board after : Board} {clocks : Nat}
    (stepped : step board = .ok clocks after)
    : interrupts board.stepEvents = []
      ∨ ∃ source spent middle,
          interrupts board.stepEvents = [source]
          ∧ execute board = .ok spent middle
          ∧ middle.cpu.interruptsOn
          ∧ nextInterrupt? middle = some source
          ∧ after.cpu.pc = source.vector := by
  obtain ⟨_, observed, -⟩ := Probed.ok_of_besideBoard Probed.besideBoard_keepsStep.step stepped
  obtain ⟨spent, serving, middle, served, executed, admitted, -, events, final⟩ :=
    Probed.step_ok observed
  change board.stepEvents = served.events at events
  have kept := (interrupts_keptByParts []).keepsParts.execute.ofInvariant_ok executed rfl
  obtain ⟨alone, ran, -⟩ := Probed.plain_of_ok Probed.besideBoard_keepsStep.execute executed
  rw [events]
  rcases admitInterrupt_ok admitted with same | ⟨source, next, on, more, called⟩
  · exact .inl (same.trans kept.2)
  · refine .inr ⟨source, alone, middle.board, ?_, ran, on, next, ?_⟩
    · rw [more, kept.2]
      rfl
    · change after = _ at final
      rw [final, pc_leaveBoot]
      exact called

/-- No request is lost. One that disappears in a step was left out by a write to the request
register, or it is the one that the step acknowledges. That is the lowest of the requests
pending and enabled after the instruction, interrupts were on then, and its handler is called.
-/
theorem requests_lost_in_step {board after : Board} {clocks : Nat}
    (stepped : step board = .ok clocks after)
    : (∀ source : Interrupt,
        source.isIn board.bus.requests
        → ¬source.isIn after.bus.requests
        → (∃ value, .write 0xFF0F value ∈ board.stepEvents ∧ ¬source.isIn value)
          ∨ .interrupt source ∈ board.stepEvents)
      ∧ (∀ source : Interrupt,
        .interrupt source ∈ board.stepEvents
        → ∃ spent middle,
            execute board = .ok spent middle
            ∧ middle.cpu.interruptsOn
            ∧ source.IsLowest (middle.bus.requests &&& middle.bus.enables &&& 0x1F)
            ∧ after.cpu.pc = 0x40 + 8 * UInt16.ofNat source.bit)
      ∧ (interrupts board.stepEvents).length ≤ 1 := by
  refine ⟨fun source raised gone => lost_in_step stepped raised gone, ?_, ?_⟩
  · intro source acknowledged
    rw [← mem_interrupts_iff] at acknowledged
    rcases acknowledged_in_step stepped with none | ⟨first, spent, middle, only, facts⟩
    · rw [none] at acknowledged
      cases acknowledged
    · rw [only, List.mem_singleton] at acknowledged
      subst acknowledged
      obtain ⟨executed, on, next, called⟩ := facts
      exact ⟨spent, middle, executed, on, Interrupt.isLowest_of_first? next,
        called.trans source.vector_eq⟩
  · rcases acknowledged_in_step stepped with none | ⟨_, _, _, only, -⟩
    · simp [none]
    · simp [only]

/-- A halted board with two requests pending, and its stack in a window without a cartridge. -/
def waking : Board :=
  { cpu := { Cpu.powerOn with sp := 0x0002, interruptsOn := true, halted := true }
    bus := { Bus.initial .strict with requests := 0x05, enables := 0x05 } }

/-- When it wakes, the first of its requests is the one that is lost. -/
theorem requests_lost_in_step_waking
    : ∃ after,
        step waking = .ok 24 after
        ∧ Interrupt.vblank.isIn waking.bus.requests
        ∧ ¬Interrupt.vblank.isIn after.bus.requests
        ∧ Interrupt.timer.isIn after.bus.requests
        ∧ ∃ spent middle,
            execute waking = .ok spent middle
            ∧ middle.cpu.interruptsOn
            ∧ Interrupt.vblank.IsLowest (middle.bus.requests &&& middle.bus.enables &&& 0x1F)
            ∧ after.cpu.pc = 0x40 + 8 * UInt16.ofNat Interrupt.vblank.bit := by
  have acknowledged : .interrupt .vblank ∈ waking.stepEvents := by decide
  exact ⟨_, rfl, by decide, by decide, by decide,
    (requests_lost_in_step rfl).2.1 .vblank acknowledged⟩

end Board

end Handheld
