import Handheld.Proofs.Bus.Accesses
import Handheld.Proofs.Timer

/-! The divider of the timer. It counts machine cycles; a write to its register starts it anew, as
a stop does, and no other access touches it.
-/

namespace Handheld

/-- The divider stands at one address. -/
theorem Location.ofAddress_eq_divider_iff {address : UInt16}
    : ofAddress address = .timer .divider ↔ address = 0xFF04 := by
  constructor
  · intro located
    rcases ofAddress_cases address with page | ⟨-, absent, -⟩
    · rw [page] at located
      have answers : Timer.Register.at? address = some .divider := by grind [ofRegister]
      grind [Timer.Register.at?]
    · exact absurd located (absent .divider)
  · rintro rfl
    rfl

namespace Bus

/-- The divider counts machine cycles and starts over with every turn. -/
theorem divider_runTimer (bus : Bus) (cycles : Nat)
    : (bus.runTimer cycles).timer.divider
      = (bus.timer.divider + cycles) % Timer.dividerTurn :=
  bus.timer.divider_tick cycles

/-- Writes to other addresses leave the divider alone, those to the other registers of the timer
included.
-/
theorem divider_write_of_ne (bus : Bus) {address : UInt16} (other : address ≠ 0xFF04)
    (value : UInt8)
    : ((write address value).endsIn bus).timer.divider = bus.timer.divider := by
  cases located : Location.ofAddress address with
  | timer register =>
      rw [write, located]
      cases register with
      | divider => exact absurd (Location.ofAddress_eq_divider_iff.mp located) other
      | _ => rfl
  | requests =>
      rw [write, located]
      rfl
  | _ =>
      have notRequests : Location.ofAddress address ≠ .requests := by simp [located]
      have notTimer : ∀ register, Location.ofAddress address ≠ .timer register := by
        simp [located]
      rw [(bus.write_elsewhere notRequests notTimer value).2]

end Bus

namespace Access

/-- Whether an access starts the divider anew. -/
def RestartsDivider : Access → Prop
  | .read _ => False
  | .write address _ => address = 0xFF04
  | .restartDivider => True

/-- After an access the divider is as before or starts anew. -/
theorem divider_perform {access : Access} {before after : Bus}
    (performed : access.perform before = .ok () after)
    : (access.RestartsDivider → after.timer.divider = 0)
      ∧ (¬access.RestartsDivider → after.timer.divider = before.timer.divider) := by
  have ended : access.perform.endsIn before = after := by rw [Act.endsIn, performed]
  subst ended
  cases access with
  | read address =>
      refine ⟨False.elim, fun _ => ?_⟩
      rcases before.read_cases address with ⟨after, -, -, made, noting⟩ | ⟨fault, -, -, made⟩
      · obtain ⟨noted, rfl⟩ := noting
        rw [Act.endsIn, made]
      · rw [Act.endsIn, made]
  | write address value =>
      constructor
      · rintro rfl
        rfl
      · intro other
        exact before.divider_write_of_ne other value
  | restartDivider => exact ⟨fun _ => rfl, fun other => absurd trivial other⟩

/-- Some accesses leave the divider alone, or start it anew if any of them does. Induction on the
accesses; no time passes between them.
-/
theorem divider_performAll {accesses : List Access} {before after : Bus}
    (performed : performAll accesses before = .ok () after)
    : ((∃ access ∈ accesses, access.RestartsDivider) → after.timer.divider = 0)
      ∧ ((∀ access ∈ accesses, ¬access.RestartsDivider)
        → after.timer.divider = before.timer.divider) := by
  induction accesses generalizing before with
  | nil =>
      cases performed
      exact ⟨fun ⟨_, member, _⟩ => absurd member List.not_mem_nil, fun _ => rfl⟩
  | cons first rest ih =>
      obtain ⟨_, middle, performed, remaining⟩ := Act.ok_of_bind performed
      obtain ⟨restarts, keeps⟩ := divider_perform performed
      obtain ⟨restartsLater, keepsLater⟩ := ih remaining
      by_cases later : ∃ access ∈ rest, access.RestartsDivider
      · refine ⟨fun _ => restartsLater later, fun calm => ?_⟩
        obtain ⟨access, member, restarting⟩ := later
        exact absurd restarting (calm access (List.mem_cons_of_mem _ member))
      · have same := keepsLater fun access member restarting => later ⟨access, member, restarting⟩
        rw [same]
        constructor
        · rintro ⟨access, member, restarting⟩
          rcases List.mem_cons.mp member with rfl | member
          · exact restarts restarting
          · exact absurd ⟨access, member, restarting⟩ later
        · intro calm
          exact keeps (calm first List.mem_cons_self)

end Access

end Handheld
