import Handheld.Fault

/-! Two runs side by side. A coupling relates the states of two runs and says after which
faults of the left run nothing more is asked. Actions that keep a coupling compose, so a
fact about two runs follows from the same fact about the parts of which they consist.
-/

namespace Handheld

/-- The state in which an action ends, with or without a fault. -/
def Act.endsIn {State α : Type} (act : Act State α) (before : State) : State :=
  match act before with
  | .ok _ after => after
  | .error _ after => after

/-- What an action gives: its value or its fault. -/
def Act.answer {State α : Type} (act : Act State α) (before : State) : Except Fault α :=
  match act before with
  | .ok value _ => .ok value
  | .error fault _ => .error fault

/-- With the value that it gives, an action has succeeded and ended. -/
theorem Act.ok_of_answer {State α : Type} {act : Act State α} {before : State} {value : α}
    (given : act.answer before = .ok value)
    : act before = .ok value (act.endsIn before) := by
  unfold Act.answer at given
  unfold Act.endsIn
  cases ended : act before with
  | ok found after =>
      rw [ended] at given
      cases given
      rfl
  | error fault after =>
      rw [ended] at given
      cases given

/-- Actions one after another end where the first one fails or the second one ends. -/
theorem Act.endsIn_bind {State α β : Type} (act : Act State α) (next : α → Act State β)
    (before : State)
    : Act.endsIn (act >>= next) before
      = match act before with
        | .ok x middle => (next x).endsIn middle
        | .error _ after => after := by
  change Act.endsIn (EStateM.bind act next) before = _
  unfold Act.endsIn EStateM.bind
  cases act before <;> rfl

/-- After an action that succeeds the next one runs. -/
theorem Act.bind_of_ok {State α β : Type} {act : Act State α} {before middle : State} {x : α}
    (ran : act before = .ok x middle) (next : α → Act State β)
    : (act >>= next) before = next x middle := by
  change EStateM.bind act next before = next x middle
  unfold EStateM.bind
  rw [ran]

/-- After an action that fails nothing runs. -/
theorem Act.bind_of_error {State α β : Type} {act : Act State α} {before middle : State}
    {fault : Fault} (failed : act before = .error fault middle) (next : α → Act State β)
    : (act >>= next) before = .error fault middle := by
  change EStateM.bind act next before = .error fault middle
  unfold EStateM.bind
  rw [failed]

/-- Actions one after another succeed when both do. -/
theorem Act.ok_of_bind {State α β : Type} {act : Act State α} {next : α → Act State β}
    {before after : State} {y : β} (ran : (act >>= next) before = .ok y after)
    : ∃ x middle, act before = .ok x middle ∧ next x middle = .ok y after := by
  change EStateM.bind act next before = .ok y after at ran
  unfold EStateM.bind at ran
  cases first : act before with
  | ok x middle =>
      rw [first] at ran
      exact ⟨x, middle, rfl, ran⟩
  | error fault middle =>
      rw [first] at ran
      cases ran

/-- What two runs that are followed together have in common. -/
structure Coupling (Left Right : Type) where
  related : Left → Right → Prop
  /-- A fault of the left run that ends the comparison. -/
  excused : Fault → Prop

namespace Coupling

variable {Left Right α β γ δ : Type} {coupling : Coupling Left Right}

/-- The outcomes that a coupling admits: related results, or the same fault, in related
states. An excused fault on the left is admitted beside anything.
-/
inductive Admits (coupling : Coupling Left Right) (results : α → β → Prop)
    : EStateM.Result Fault Left α → EStateM.Result Fault Right β → Prop where
  | ok {x y left right} (result : results x y) (related : coupling.related left right)
    : Admits coupling results (.ok x left) (.ok y right)
  | error {fault left right} (related : coupling.related left right)
    : Admits coupling results (.error fault left) (.error fault right)
  | excused {fault left outcome} (excused : coupling.excused fault)
    : Admits coupling results (.error fault left) outcome

/-- Two actions keep a coupling when they lead from related states to admitted outcomes. -/
def Keeps (coupling : Coupling Left Right) (results : α → β → Prop) (left : Act Left α)
    (right : Act Right β)
    : Prop :=
  ∀ l r, coupling.related l r → coupling.Admits results (left l) (right r)

/-- Returning related results keeps every coupling. -/
theorem Keeps.pure {results : α → β → Prop} {x : α} {y : β} (result : results x y)
    : coupling.Keeps results (pure x) (pure y) := by
  intro l r related
  exact .ok result related

/-- Ending in the same fault keeps every coupling. -/
theorem Keeps.throw {results : α → β → Prop} (fault : Fault)
    : coupling.Keeps results (throw fault) (throw fault) := by
  intro l r related
  exact .error related

/-- Actions one after another keep a coupling when both do, by the outcome of the first. -/
theorem Keeps.bind {first : α → β → Prop} {results : γ → δ → Prop} {left : Act Left α}
    {right : Act Right β} {nextLeft : α → Act Left γ} {nextRight : β → Act Right δ}
    (start : coupling.Keeps first left right)
    (next : ∀ x y, first x y → coupling.Keeps results (nextLeft x) (nextRight y))
    : coupling.Keeps results (left >>= nextLeft) (right >>= nextRight) := by
  intro l r related
  have outcome := start l r related
  change coupling.Admits results (EStateM.bind left nextLeft l) (EStateM.bind right nextRight r)
  unfold EStateM.bind
  revert outcome
  generalize left l = leftOutcome
  generalize right r = rightOutcome
  intro outcome
  cases outcome with
  | ok result related => exact next _ _ result _ _ related
  | error related => exact .error related
  | excused excused => exact .excused excused

/-- The same, when the first actions give equal results. -/
theorem Keeps.andThen {results : γ → δ → Prop} {left : Act Left α} {right : Act Right α}
    {nextLeft : α → Act Left γ} {nextRight : α → Act Right δ}
    (start : coupling.Keeps Eq left right)
    (next : ∀ x, coupling.Keeps results (nextLeft x) (nextRight x))
    : coupling.Keeps results (left >>= nextLeft) (right >>= nextRight) := by
  refine start.bind ?_
  rintro x _ rfl
  exact next x

/-- A choice that both runs make alike keeps a coupling when both branches do. -/
theorem Keeps.branch {results : α → β → Prop} {condition : Prop} [Decidable condition]
    {left left' : Act Left α} {right right' : Act Right β}
    (yes : condition → coupling.Keeps results left right)
    (no : ¬condition → coupling.Keeps results left' right')
    : coupling.Keeps results (if condition then left else left')
        (if condition then right else right') := by
  split
  · exact yes ‹_›
  · exact no ‹_›

/-- Actions that keep a coupling give the same answer and end in related states, unless the left
one gives an excused fault.
-/
theorem Keeps.answer {left : Act Left α} {right : Act Right α}
    (keeps : coupling.Keeps Eq left right) {l : Left} {r : Right}
    (related : coupling.related l r)
    : (∃ fault, left.answer l = .error fault ∧ coupling.excused fault)
      ∨ right.answer r = left.answer l ∧ coupling.related (left.endsIn l) (right.endsIn r) := by
  have outcome := keeps l r related
  unfold Act.answer Act.endsIn
  revert outcome
  generalize left l = leftOutcome
  generalize right r = rightOutcome
  intro outcome
  cases outcome with
  | ok same related => exact .inr ⟨congrArg _ same.symm, related⟩
  | error related => exact .inr ⟨rfl, related⟩
  | excused excused => exact .inl ⟨_, rfl, excused⟩

/-- A single run beside itself, with a property of its states. -/
def ofInvariant {State : Type} (invariant : State → Prop) : Coupling State State :=
  { related := fun left right => left = right ∧ invariant left
    excused := fun _ => False }

/-- An action beside itself keeps an invariant's coupling when it ends with the invariant
wherever it begins with it.
-/
theorem Keeps.ofInvariant {State : Type} {invariant : State → Prop} {act : Act State α}
    (ends : ∀ state, invariant state → invariant (act.endsIn state))
    : (Coupling.ofInvariant invariant).Keeps Eq act act := by
  rintro state _ ⟨rfl, holds⟩
  have after := ends state holds
  unfold Act.endsIn at after
  cases reached : act state with
  | ok x final =>
      rw [reached] at after
      exact .ok rfl ⟨rfl, after⟩
  | error fault final =>
      rw [reached] at after
      exact .error ⟨rfl, after⟩

/-- With an invariant's coupling kept, an action ends with the invariant. -/
theorem Keeps.invariant {State : Type} {invariant : State → Prop} {act : Act State α}
    {results : α → α → Prop} (keeps : (Coupling.ofInvariant invariant).Keeps results act act)
    {state : State} (holds : invariant state)
    : invariant (act.endsIn state) := by
  have outcome := keeps state state ⟨rfl, holds⟩
  unfold Act.endsIn
  cases reached : act state with
  | ok x final =>
      rw [reached] at outcome
      cases outcome with
      | ok result related => exact related.2
  | error fault final =>
      rw [reached] at outcome
      cases outcome with
      | error related => exact related.2
      | excused excused => exact excused.elim

/-- When it succeeds, its result is related to itself too. -/
theorem Keeps.ofInvariant_ok {State : Type} {invariant : State → Prop} {act : Act State α}
    {results : α → α → Prop} (keeps : (Coupling.ofInvariant invariant).Keeps results act act)
    {state after : State} {x : α} (ran : act state = .ok x after) (holds : invariant state)
    : results x x ∧ invariant after := by
  have outcome := keeps state state ⟨rfl, holds⟩
  rw [ran] at outcome
  cases outcome with
  | ok result related => exact ⟨result, related.2⟩

end Coupling

end Handheld
