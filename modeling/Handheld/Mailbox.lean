/-! A mailbox that holds at most one item. A publisher never waits: an item that has not been
picked up yet makes way for the next, so the receiver always finds the newest.

It stands for a bounded channel with room for one item, and what the operations do is how that
channel is assumed to behave: each attempt to put an item or to take one happens at once, a full
channel hands the item back, and one whose publisher is gone still gives what waits in it.
-/

namespace Handheld

/-- A single-slot mailbox between a publisher and a receiver. -/
structure Mailbox (Item : Type) where
  waiting : Option Item
  /-- Whether the publisher still exists. -/
  publisherOpen : Bool
  deriving Repr

/-- What a receiver finds. -/
inductive Receipt (Item : Type) where
  | item (item : Item)
  /-- Nothing waits, but more may come. -/
  | empty
  /-- Nothing waits and the publisher is gone. -/
  | disconnected
  deriving Repr

namespace Mailbox

variable {Item : Type}

def initial : Mailbox Item :=
  { waiting := none, publisherOpen := true }

/-- One attempt to put an item into the slot. An occupied slot stays as it is and hands the
item back.
-/
def offer (mailbox : Mailbox Item) (item : Item) : Mailbox Item × Option Item :=
  match mailbox.waiting with
  | none => ({ mailbox with waiting := some item }, none)
  | some _ => (mailbox, some item)

/-- One attempt to take the waiting item. -/
def receive (mailbox : Mailbox Item) : Mailbox Item × Receipt Item :=
  match mailbox.waiting with
  | some item => ({ mailbox with waiting := none }, .item item)
  | none => (mailbox, if mailbox.publisherOpen then .empty else .disconnected)

/-- Publishing: an item that does not fit evicts the one that waits and is offered again. -/
def publish (mailbox : Mailbox Item) (item : Item) : Mailbox Item :=
  match mailbox.offer item with
  | (mailbox, none) => mailbox
  | (mailbox, some item) => (mailbox.receive.1.offer item).1

/-- The mailbox after its publisher is gone. -/
def close (mailbox : Mailbox Item) : Mailbox Item :=
  { mailbox with publisherOpen := false }

def backlog (mailbox : Mailbox Item) : Nat :=
  mailbox.waiting.elim 0 fun _ => 1

/-- A published item is the one that waits, whatever waited before. -/
@[simp]
theorem waiting_publish (mailbox : Mailbox Item) (item : Item)
    : (mailbox.publish item).waiting = some item := by
  cases hw : mailbox.waiting <;> simp [publish, offer, receive, hw]

end Mailbox

/-- What a viewer does next. -/
inductive ViewerTurn (Item : Type) where
  | view (item : Item)
  /-- Wait for the publisher. -/
  | wait
  | stop
  deriving Repr

/-- One turn of a viewer: it stops once a shutdown is requested or the publisher is gone,
and otherwise takes the waiting item or waits.
-/
def Mailbox.turn {Item : Type} (mailbox : Mailbox Item) (shutdown : Bool)
    : Mailbox Item × ViewerTurn Item :=
  if shutdown then (mailbox, .stop)
  else
    match mailbox.receive with
    | (mailbox, .item item) => (mailbox, .view item)
    | (mailbox, .empty) => (mailbox, .wait)
    | (mailbox, .disconnected) => (mailbox, .stop)

/-- A viewer under way. -/
structure Viewing (Item State : Type) where
  mailbox : Mailbox Item
  /-- Whether a shutdown was requested. -/
  shutdown : Bool
  state : State
  /-- Items viewed so far. -/
  viewed : Nat

namespace Viewing

variable {Item State : Type}

/-- At most some turns, until the viewer stops or can only wait. Viewing an item gives
the viewer's new state and whether it requests a shutdown.
-/
def run (view : State → Item → State × Bool)
    : (turns : Nat) → Viewing Item State → Viewing Item State
  | 0, viewing => viewing
  | turns + 1, viewing =>
      match viewing.mailbox.turn viewing.shutdown with
      | (mailbox, .view item) =>
          let (state, request) := view viewing.state item
          run view turns
            { mailbox, shutdown := viewing.shutdown || request, state
              viewed := viewing.viewed + 1 }
      | (mailbox, _) => { viewing with mailbox }

end Viewing

/-- A viewer run on a mailbox to which nobody publishes meanwhile: one turn for each item
that waits and one to notice the end.
-/
def Mailbox.viewAll {Item State : Type} (mailbox : Mailbox Item) (shutdown : Bool)
    (view : State → Item → State × Bool) (state : State) : Viewing Item State :=
  Viewing.run view (mailbox.backlog + 1) { mailbox, shutdown, state, viewed := 0 }

end Handheld
