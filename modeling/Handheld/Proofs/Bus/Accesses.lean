import Handheld.Proofs.Bus.Access

/-! Accesses as data. The bus shows a memory to whoever reads it, and a list of accesses
performed in order tells what an instruction does there.
-/

namespace Handheld

/-- Something that an instruction does on the bus. -/
inductive Access where
  | read (address : UInt16)
  | write (address : UInt16) (value : UInt8)
  /-- The divider of the timer starts anew. -/
  | restartDivider
  deriving DecidableEq, Repr

namespace Access

/-- An access as an action of the bus; what a read gives is the bus's to show. -/
def perform : Access → Act Bus Unit
  | .read address => do
      let _ ← Bus.read address
      pure ()
  | .write address value => Bus.write address value
  | .restartDivider => modify Bus.resetDivider

/-- Some accesses, one after another, up to the first that fails. -/
def performAll : List Access → Act Bus Unit
  | [] => pure ()
  | access :: rest => do
      access.perform
      performAll rest

/-- Accesses are performed part after part. -/
theorem performAll_append (first second : List Access)
    : performAll (first ++ second) = (do performAll first; performAll second) := by
  induction first with
  | nil => exact (pure_bind () fun _ => performAll second).symm
  | cons access rest ih =>
      rw [List.cons_append, performAll, performAll, ih, bind_assoc]

end Access

namespace Bus

/-- The memory that a bus shows: every byte that a read would give. An address whose read
fails shows nothing, which counts as zero.
-/
def shown (bus : Bus) (address : UInt16) : UInt8 :=
  (bus.peek address).toOption.getD 0

/-- A byte that is found is shown. -/
theorem shown_of_peek {bus : Bus} {address : UInt16} {value : UInt8}
    (found : bus.peek address = .ok value)
    : bus.shown address = value := by
  rw [shown, found]
  rfl

/-- Notes change nothing that is read. -/
theorem Noting.peek_eq {before after : Bus} (noting : before.Noting after)
    : after.peek = before.peek := by
  obtain ⟨noted, same⟩ := noting
  subst same
  rfl

/-- So they are not shown. -/
theorem Noting.shown_eq {before after : Bus} (noting : before.Noting after)
    : after.shown = before.shown := by
  funext address
  rw [shown, shown, noting.peek_eq]

/-- A read gives what is shown and notes at most its access, or it fails and changes nothing.
-/
theorem read_cases (bus : Bus) (address : UInt16)
    : (∃ after,
        bus.peek address = .ok (bus.shown address)
        ∧ read address bus = .ok (bus.shown address) after
        ∧ (Access.read address).perform bus = .ok () after
        ∧ bus.Noting after)
      ∨ ∃ fault,
          bus.peek address = .error fault
          ∧ read address bus = .error fault bus
          ∧ (Access.read address).perform bus = .error fault bus := by
  have noting := bus.noting_read address
  cases peeked : bus.peek address with
  | ok value =>
      have shown := shown_of_peek peeked
      have given : ∃ after, read address bus = .ok (bus.shown address) after := by
        refine ⟨if isUnmodelled address then bus.note address else bus, ?_⟩
        rw [shown, read, peeked]
      obtain ⟨after, given⟩ := given
      rw [Act.endsIn, given] at noting
      exact .inl ⟨after, congrArg Except.ok shown.symm, given, Act.bind_of_ok given _, noting⟩
  | error fault =>
      have failed : read address bus = .error fault bus := by
        rw [read, peeked]
      exact .inr ⟨fault, rfl, failed, Act.bind_of_error failed _⟩

/-- Where a byte is found a read succeeds and notes at most its access. -/
theorem read_ok {bus : Bus} {address : UInt16} {value : UInt8}
    (found : bus.peek address = .ok value)
    : ∃ after, (Access.read address).perform bus = .ok () after ∧ bus.Noting after := by
  rcases bus.read_cases address with ⟨after, -, -, performed, noting⟩ | ⟨fault, missing, -⟩
  · exact ⟨after, performed, noting⟩
  · rw [found] at missing
    cases missing

/-- Reads one after another succeed likewise, by induction on them. -/
theorem reads_ok {bus : Bus} {addresses : List UInt16}
    (found : ∀ address ∈ addresses, ∃ value, bus.peek address = .ok value)
    : ∃ after,
        Access.performAll (addresses.map .read) bus = .ok () after
        ∧ bus.Noting after := by
  induction addresses generalizing bus with
  | nil => exact ⟨bus, rfl, bus.noted, rfl⟩
  | cons address rest ih =>
      obtain ⟨value, first⟩ := found address List.mem_cons_self
      obtain ⟨middle, performed, noting⟩ := read_ok first
      have others : ∀ other ∈ rest, ∃ value, middle.peek other = .ok value := by
        intro other member
        rw [noting.peek_eq]
        exact found other (List.mem_cons_of_mem _ member)
      obtain ⟨after, remaining, more⟩ := ih others
      refine ⟨after, ?_, noting.trans more⟩
      rw [List.map_cons, Access.performAll, Act.bind_of_ok performed]
      exact remaining

end Bus

end Handheld
