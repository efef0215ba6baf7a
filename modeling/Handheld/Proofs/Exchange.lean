import Mathlib.Logic.Relation
import Handheld.Mailbox

/-! Publisher and receiver at once. A publication takes up to three operations on the mailbox, and
the receiver may act between any two of them. Each operation is atomic; their order is arbitrary.
-/

namespace Handheld

-----------------------------------------------------------------------------------------
-- Operations
-----------------------------------------------------------------------------------------

/-- Where a publisher stands. -/
inductive Publisher (Item : Type) where
  | idle
  /-- The slot was occupied when the item was offered. -/
  | refused (item : Item)
  /-- The slot was cleared for the item. -/
  | retrying (item : Item)
  | gone
  deriving DecidableEq, Repr

namespace Publisher

variable {Item : Type}

/-- The publisher after an item was offered for the first time. -/
def ofRefusal : (refused : Option Item) → Publisher Item
  | none => idle
  | some item => refused item

/-- The item whose publication has begun, if it is not in the mailbox yet. -/
def underway : Publisher Item → Option Item
  | idle | gone => none
  | refused item | retrying item => some item

end Publisher

/-- The item found by a receiver, if any. -/
def Receipt.item? {Item : Type} : Receipt Item → Option Item
  | .item found => some found
  | .empty | .disconnected => none

namespace Mailbox

variable {Item : Type}

/-- Receiving clears the slot. -/
@[simp]
theorem waiting_receive (mailbox : Mailbox Item)
    : mailbox.receive.1.waiting = none := by
  cases waiting : mailbox.waiting <;> simp [receive, waiting]

/-- What is received is what waits. -/
@[simp]
theorem item?_receive (mailbox : Mailbox Item)
    : mailbox.receive.2.item? = mailbox.waiting := by
  cases waiting : mailbox.waiting with
  | none => cases publisher : mailbox.publisherOpen <;> simp [receive, Receipt.item?, *]
  | some found => simp [receive, Receipt.item?, waiting]

/-- A vacant slot takes the item that is offered. -/
theorem offer_of_vacant {mailbox : Mailbox Item} (vacant : mailbox.waiting = none) (item : Item)
    : mailbox.offer item = ({ mailbox with waiting := some item }, none) := by
  simp [offer, vacant]

/-- An item that is offered stands behind the one that waits, be it in the slot or in the hands of
its publisher.
-/
theorem waiting_offer (mailbox : Mailbox Item) (item : Item)
    : (mailbox.offer item).1.waiting.toList
        ++ (Publisher.ofRefusal (mailbox.offer item).2).underway.toList
      = mailbox.waiting.toList ++ [item] := by
  cases waiting : mailbox.waiting <;>
    simp [offer, Publisher.ofRefusal, Publisher.underway, waiting]

end Mailbox

/-- A mailbox in use, with a record of what became of the items. -/
structure Exchange (Item : Type) where
  mailbox : Mailbox Item
  publisher : Publisher Item
  /-- Items whose publication has begun, the newest one last. -/
  published : List Item
  /-- Items that the receiver has taken, the newest one last. -/
  received : List Item
  /-- Items that the publisher has taken out of the slot again. -/
  evicted : List Item
  /-- Items that found the slot occupied twice. -/
  rejected : List Item

namespace Exchange

variable {Item : Type}

def initial : Exchange Item :=
  { mailbox := .initial, publisher := .idle
    published := [], received := [], evicted := [], rejected := [] }

/-- The first operation of a publication. -/
def offer (exchange : Exchange Item) (item : Item) : Exchange Item :=
  { exchange with
    mailbox := (exchange.mailbox.offer item).1
    publisher := .ofRefusal (exchange.mailbox.offer item).2
    published := exchange.published ++ [item] }

/-- The operation by which a publisher clears the slot. -/
def evict (exchange : Exchange Item) (item : Item) : Exchange Item :=
  { exchange with
    mailbox := exchange.mailbox.receive.1
    publisher := .retrying item
    evicted := exchange.evicted ++ exchange.mailbox.receive.2.item?.toList }

/-- The last operation of a publication. An item that is refused again is dropped. -/
def retry (exchange : Exchange Item) (item : Item) : Exchange Item :=
  { exchange with
    mailbox := (exchange.mailbox.offer item).1
    publisher := .idle
    rejected := exchange.rejected ++ (exchange.mailbox.offer item).2.toList }

/-- The next operation of a publication that has begun, if it has not ended. -/
def proceed (exchange : Exchange Item) : Exchange Item :=
  match exchange.publisher with
  | .refused item => exchange.evict item
  | .retrying item => exchange.retry item
  | .idle | .gone => exchange

/-- The operation of the receiver. -/
def receive (exchange : Exchange Item) : Exchange Item :=
  { exchange with
    mailbox := exchange.mailbox.receive.1
    received := exchange.received ++ exchange.mailbox.receive.2.item?.toList }

/-- The end of the publisher. -/
def close (exchange : Exchange Item) : Exchange Item :=
  { exchange with mailbox := exchange.mailbox.close, publisher := .gone }

/-- One operation of either side. -/
inductive Step : Exchange Item → Exchange Item → Prop where
  | offer {exchange : Exchange Item} (item : Item)
    : exchange.publisher = .idle → Step exchange (exchange.offer item)
  | proceed (exchange : Exchange Item) : Step exchange exchange.proceed
  | receive (exchange : Exchange Item) : Step exchange exchange.receive
  | close {exchange : Exchange Item}
    : exchange.publisher = .idle → Step exchange exchange.close

/-- Any operations of the two sides, in any order. -/
abbrev Leads : Exchange Item → Exchange Item → Prop :=
  Relation.ReflTransGen Step

/-- What the next operation of a publication can be. -/
theorem proceed_cases (exchange : Exchange Item)
    : (∃ item,
        exchange.publisher = .refused item ∧ exchange.proceed = exchange.evict item)
      ∨ (∃ item,
        exchange.publisher = .retrying item ∧ exchange.proceed = exchange.retry item)
      ∨ exchange.proceed = exchange := by
  cases publisher : exchange.publisher with
  | refused item => exact .inl ⟨item, rfl, by rw [proceed, publisher]⟩
  | retrying item => exact .inr (.inl ⟨item, rfl, by rw [proceed, publisher]⟩)
  | idle | gone => exact .inr (.inr (by rw [proceed, publisher]))

@[simp]
theorem published_proceed (exchange : Exchange Item)
    : exchange.proceed.published = exchange.published := by
  obtain ⟨_, _, same⟩ | ⟨_, _, same⟩ | same := exchange.proceed_cases <;> rw [same] <;> rfl

@[simp]
theorem received_proceed (exchange : Exchange Item)
    : exchange.proceed.received = exchange.received := by
  obtain ⟨_, _, same⟩ | ⟨_, _, same⟩ | same := exchange.proceed_cases <;> rw [same] <;> rfl

/-- A publication with nothing in between is what a mailbox does when it publishes. -/
theorem publish_eq_proceed (exchange : Exchange Item) (item : Item)
    : ((exchange.offer item).proceed.proceed).mailbox = exchange.mailbox.publish item := by
  obtain ⟨⟨waiting, publisherOpen⟩, _⟩ := exchange
  cases waiting <;> rfl

/-- It has ended after as many operations. -/
theorem publisher_proceed_proceed (exchange : Exchange Item) (item : Item)
    : ((exchange.offer item).proceed.proceed).publisher = .idle := by
  obtain ⟨⟨waiting, publisherOpen⟩, _⟩ := exchange
  cases waiting <;> rfl

-----------------------------------------------------------------------------------------
-- Deliveries
-----------------------------------------------------------------------------------------

/-- Items that may still be received: the one that waits, and behind it the one whose publication
has begun.
-/
def pending (exchange : Exchange Item) : List Item :=
  exchange.mailbox.waiting.toList ++ exchange.publisher.underway.toList

/-- What is received from one point on was pending there or is published later; it arrives in this
order, and so will what is pending at the end.
-/
def Delivers (before after : Exchange Item) : Prop :=
  ∃ delivered added,
    after.received = before.received ++ delivered
    ∧ after.published = before.published ++ added
    ∧ (delivered ++ after.pending).Sublist (before.pending ++ added)

/-- Without anything received or published, what was pending can only be lost. -/
theorem delivers_of_pending {before after : Exchange Item}
    (received : after.received = before.received) (published : after.published = before.published)
    (fewer : after.pending.Sublist before.pending)
    : before.Delivers after := by
  refine ⟨[], [], ?_, ?_, ?_⟩
  · rw [received, List.append_nil]
  · rw [published, List.append_nil]
  · rw [List.append_nil]
    exact fewer

/-- Deliveries compose: what the later ones draw on is what the earlier ones left. -/
theorem Delivers.trans {before middle after : Exchange Item}
    (first : before.Delivers middle) (second : middle.Delivers after)
    : before.Delivers after := by
  obtain ⟨delivered, added, received, published, ordered⟩ := first
  obtain ⟨more, later, receivedMore, publishedLater, orderedLater⟩ := second
  refine ⟨delivered ++ more, added ++ later, ?_, ?_, ?_⟩
  · rw [receivedMore, received, List.append_assoc]
  · rw [publishedLater, published, List.append_assoc]
  · have rest := (orderedLater.append_left delivered).trans
      (List.append_assoc .. ▸ ordered.append_right later)
    simpa only [List.append_assoc] using rest

theorem pending_offer {exchange : Exchange Item} (idle : exchange.publisher = .idle) (item : Item)
    : (exchange.offer item).pending = exchange.pending ++ [item] := by
  rw [pending, offer, Mailbox.waiting_offer, pending, idle]
  simp [Publisher.underway]

theorem delivers_offer {exchange : Exchange Item} (idle : exchange.publisher = .idle) (item : Item)
    : exchange.Delivers (exchange.offer item) :=
  ⟨[], [item], (List.append_nil _).symm, rfl, pending_offer idle item ▸ .refl _⟩

theorem delivers_evict {exchange : Exchange Item} {item : Item}
    (refused : exchange.publisher = .refused item)
    : exchange.Delivers (exchange.evict item) := by
  refine delivers_of_pending rfl rfl ?_
  simp [pending, evict, Publisher.underway, refused]

theorem delivers_retry {exchange : Exchange Item} {item : Item}
    (retrying : exchange.publisher = .retrying item)
    : exchange.Delivers (exchange.retry item) := by
  refine delivers_of_pending rfl rfl ?_
  cases waiting : exchange.mailbox.waiting <;>
    simp [pending, retry, Mailbox.offer, Publisher.underway, retrying, waiting]

theorem delivers_proceed (exchange : Exchange Item)
    : exchange.Delivers exchange.proceed := by
  obtain ⟨item, refused, same⟩ | ⟨item, retrying, same⟩ | same := exchange.proceed_cases
  · exact same ▸ delivers_evict refused
  · exact same ▸ delivers_retry retrying
  · exact same.symm ▸ delivers_of_pending rfl rfl (.refl _)

theorem delivers_receive (exchange : Exchange Item)
    : exchange.Delivers exchange.receive := by
  refine ⟨exchange.mailbox.waiting.toList, [], ?_, (List.append_nil _).symm, ?_⟩
  · simp [receive]
  · simp [pending, receive]

theorem delivers_close {exchange : Exchange Item} (idle : exchange.publisher = .idle)
    : exchange.Delivers exchange.close := by
  refine delivers_of_pending rfl rfl ?_
  simp [pending, close, Mailbox.close, Publisher.underway, idle]

/-- Deliveries of any operations, by induction on them and cases of the last one. -/
theorem delivers_of_leads {before after : Exchange Item} (run : before.Leads after)
    : before.Delivers after := by
  induction run with
  | refl => exact delivers_of_pending rfl rfl (.refl _)
  | tail _ step ih =>
      refine ih.trans ?_
      cases step with
      | offer item idle => exact delivers_offer idle item
      | proceed => exact delivers_proceed _
      | receive => exact delivers_receive _
      | close idle => exact delivers_close idle

-----------------------------------------------------------------------------------------
-- What becomes of an item
-----------------------------------------------------------------------------------------

/-- An exchange in which every item is accounted for. -/
structure Sound (exchange : Exchange Item) : Prop where
  /-- Nobody but the publisher fills the slot that it has cleared. -/
  vacant : ∀ item, exchange.publisher = .retrying item → exchange.mailbox.waiting = none
  accounted
    : (exchange.received ++ exchange.pending ++ exchange.evicted).Perm exchange.published
  /-- The newest item is pending, or it was received and nothing is pending. -/
  newest : (exchange.received ++ exchange.pending).getLast? = exchange.published.getLast?
  noneRejected : exchange.rejected = []

theorem sound_initial
    : (initial : Exchange Item).Sound where
  vacant _ retrying := nomatch retrying
  accounted := .nil
  newest := rfl
  noneRejected := rfl

/-- It stays so as long as items only move on: from the publisher into the slot, or from there to
the receiver.
-/
theorem Sound.moved {before after : Exchange Item} (sound : before.Sound)
    (same : after.received ++ after.pending = before.received ++ before.pending)
    (evicted : after.evicted = before.evicted) (published : after.published = before.published)
    (rejected : after.rejected = before.rejected)
    (vacant : ∀ item, after.publisher = .retrying item → after.mailbox.waiting = none)
    : after.Sound where
  vacant := vacant
  accounted := by
    rw [same, evicted, published]
    exact sound.accounted
  newest := by
    rw [same, published]
    exact sound.newest
  noneRejected := rejected.trans sound.noneRejected

theorem Sound.offer {exchange : Exchange Item} (sound : exchange.Sound)
    (idle : exchange.publisher = .idle) (item : Item)
    : (exchange.offer item).Sound where
  vacant other retrying := by
    cases waiting : exchange.mailbox.waiting <;>
      simp [Exchange.offer, Mailbox.offer, Publisher.ofRefusal, waiting] at retrying
  accounted := by
    have last : ([item] ++ exchange.evicted).Perm (exchange.evicted ++ [item]) :=
      List.perm_append_comm
    have moved := (last.append_left (exchange.received ++ exchange.pending)).trans
      (List.append_assoc .. ▸ sound.accounted.append_right [item])
    rw [pending_offer idle]
    simpa only [Exchange.offer, List.append_assoc] using moved
  newest := by
    rw [pending_offer idle]
    simp [Exchange.offer, ← List.append_assoc]
  noneRejected := sound.noneRejected

theorem Sound.evict {exchange : Exchange Item} (sound : exchange.Sound) {item : Item}
    (refused : exchange.publisher = .refused item)
    : (exchange.evict item).Sound := by
  have before : exchange.pending = exchange.mailbox.waiting.toList ++ [item] := by
    rw [pending, refused]
    rfl
  have after : (exchange.evict item).pending = [item] := by
    simp [pending, Exchange.evict, Publisher.underway]
  constructor
  case vacant => exact fun _ _ => exchange.mailbox.waiting_receive
  case accounted =>
    have moved
        : ([item] ++ exchange.evicted ++ exchange.mailbox.waiting.toList).Perm
          (exchange.mailbox.waiting.toList ++ ([item] ++ exchange.evicted)) :=
      List.perm_append_comm
    have accounted := sound.accounted
    rw [before] at accounted
    rw [after]
    simp only [Exchange.evict, Mailbox.item?_receive, List.append_assoc] at accounted moved ⊢
    exact (moved.append_left exchange.received).trans accounted
  case newest =>
    have newest := sound.newest
    rw [before, ← List.append_assoc, List.getLast?_concat] at newest
    rw [after, List.getLast?_concat]
    exact newest
  case noneRejected => exact sound.noneRejected

theorem Sound.retry {exchange : Exchange Item} (sound : exchange.Sound) {item : Item}
    (retrying : exchange.publisher = .retrying item)
    : (exchange.retry item).Sound := by
  have fits := Mailbox.offer_of_vacant (sound.vacant item retrying) item
  refine sound.moved ?_ rfl rfl ?_ fun _ other => nomatch other
  · simp [pending, Exchange.retry, fits, Publisher.underway, sound.vacant item retrying, retrying]
  · simp [Exchange.retry, fits]

theorem Sound.proceed {exchange : Exchange Item} (sound : exchange.Sound)
    : exchange.proceed.Sound := by
  obtain ⟨item, refused, same⟩ | ⟨item, retrying, same⟩ | same := exchange.proceed_cases
  · exact same ▸ sound.evict refused
  · exact same ▸ sound.retry retrying
  · exact same.symm ▸ sound

theorem Sound.receive {exchange : Exchange Item} (sound : exchange.Sound)
    : exchange.receive.Sound := by
  refine sound.moved ?_ rfl rfl rfl fun _ _ => exchange.mailbox.waiting_receive
  simp [pending, Exchange.receive]

theorem Sound.close {exchange : Exchange Item} (sound : exchange.Sound)
    (idle : exchange.publisher = .idle)
    : exchange.close.Sound := by
  refine sound.moved ?_ rfl rfl rfl fun _ other => nomatch other
  simp [pending, Exchange.close, Mailbox.close, Publisher.underway, idle]

/-- Every exchange that comes about accounts for its items, by induction on the operations and
cases of the last one.
-/
theorem sound_of_leads {exchange : Exchange Item} (run : initial.Leads exchange)
    : exchange.Sound := by
  induction run with
  | refl => exact sound_initial
  | tail _ step ih =>
      cases step with
      | offer item idle => exact ih.offer idle item
      | proceed => exact ih.proceed
      | receive => exact ih.receive
      | close idle => exact ih.close idle

/-- As long as no publication is under way, the newest item waits or was received last. -/
theorem Sound.newest_placed {exchange : Exchange Item} (sound : exchange.Sound)
    (settled : exchange.publisher.underway = none) {item : Item}
    (newest : exchange.published.getLast? = some item)
    : exchange.mailbox.waiting = some item
      ∨ exchange.mailbox.waiting = none ∧ exchange.received.getLast? = some item := by
  have last := sound.newest.trans newest
  cases waiting : exchange.mailbox.waiting with
  | none =>
      simp only [pending, waiting, settled, Option.toList_none, List.append_nil] at last
      exact .inr ⟨rfl, last⟩
  | some found =>
      simp only [pending, waiting, settled, Option.toList_some, Option.toList_none,
        List.append_nil, List.getLast?_concat] at last
      exact .inl last

/-- The newest item is never lost. Whatever the order of the operations of a publisher and a
receiver, what is received are published items in the order of their publication, each at most
once, and what is pending comes behind them; every other item was evicted to make way for the next
one, for an item that is offered again always fits. At most one item waits. Once a publication has
ended, its item waits or was received last. What is received later was pending or is published
later. Items may be equal; as pairs with a number each, they are not.
-/
theorem newest_never_lost {exchange : Exchange Item} (run : initial.Leads exchange)
    : (exchange.received ++ exchange.pending).Sublist exchange.published
      ∧ (exchange.received ++ exchange.pending ++ exchange.evicted).Perm exchange.published
      ∧ (∀ item,
        exchange.publisher = .retrying item → (exchange.mailbox.offer item).2 = none)
      ∧ exchange.rejected = []
      ∧ exchange.mailbox.backlog ≤ 1
      ∧ (∀ item,
        exchange.publisher.underway = none
        → exchange.published.getLast? = some item
        → exchange.mailbox.waiting = some item
          ∨ exchange.mailbox.waiting = none ∧ exchange.received.getLast? = some item)
      ∧ ∀ later,
          exchange.Leads later
          → ∃ delivered added,
              later.received = exchange.received ++ delivered
              ∧ later.published = exchange.published ++ added
              ∧ delivered.Sublist (exchange.pending ++ added) := by
  have sound := sound_of_leads run
  have ordered : (exchange.received ++ exchange.pending).Sublist exchange.published := by
    obtain ⟨delivered, added, received, published, ordered⟩ := delivers_of_leads run
    rw [received, published]
    exact ordered
  refine ⟨ordered, sound.accounted, ?_, sound.noneRejected, ?_, ?_, ?_⟩
  · intro item retrying
    rw [Mailbox.offer_of_vacant (sound.vacant item retrying)]
  · unfold Mailbox.backlog
    cases exchange.mailbox.waiting <;> simp
  · intro item settled newest
    exact sound.newest_placed settled newest
  · intro later follows
    obtain ⟨delivered, added, received, published, ordered⟩ := delivers_of_leads follows
    exact ⟨delivered, added, received, published,
      (List.sublist_append_left _ _).trans ordered⟩

/-- Three publications. The receiver takes the first item before it is evicted; while the second one
is evicted, it finds the slot vacant.
-/
def raced : Exchange Nat :=
  let second := ((initial.offer 1).offer 2).receive.proceed.proceed
  (second.offer 3).proceed.receive.proceed

theorem leads_raced
    : initial.Leads raced := by
  have offered : initial.Leads ((initial.offer 1).offer 2) :=
    .tail (.single (.offer 1 rfl)) (.offer 2 rfl)
  have second := ((offered.tail (.receive _)).tail (.proceed _)).tail (.proceed _)
  exact (((second.tail (.offer 3 rfl)).tail (.proceed _)).tail (.receive _)).tail (.proceed _)

/-- The first item is received and the second one evicted. The third one waits, and whatever
follows, it is the next to be received, unless newer ones take its place.
-/
theorem newest_never_lost_raced
    : raced.published = [1, 2, 3]
      ∧ raced.received = [1]
      ∧ raced.evicted = [2]
      ∧ raced.rejected = []
      ∧ [1, 3].Sublist raced.published
      ∧ (raced.mailbox.waiting = some 3
        ∨ raced.mailbox.waiting = none ∧ raced.received.getLast? = some 3)
      ∧ ∀ later,
          raced.Leads later
          → ∃ delivered added,
              later.received = [1] ++ delivered
              ∧ later.published = [1, 2, 3] ++ added
              ∧ delivered.Sublist ([3] ++ added) := by
  obtain ⟨ordered, -, -, noneRejected, -, newest, followed⟩ := newest_never_lost leads_raced
  exact ⟨rfl, rfl, rfl, noneRejected, ordered, newest 3 rfl rfl, followed⟩

end Exchange

end Handheld
