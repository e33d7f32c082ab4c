import ChatSync.Event

/-!
# The event bus

Listeners subscribe to kinds of events and get the events of those kinds in
publish order; listeners of one kind are called in the order they
subscribed. Listeners are numbered from 1 as they subscribe.

Publishing never waits for listeners. An event goes to the end of a queue,
and a dispatcher of its own takes the queue from the front, handing each
event to the listeners its kind has when the event is taken. A flush puts a
marker at the end of the queue and waits until the dispatcher has reached
it. What a listener does with an event is its own affair; the bus records
which listener was handed which event.
-/

namespace ChatSync

/-- The listeners of each kind of event. -/
structure Bus where
  /-- The number the next listener gets. -/
  next : Nat := 1
  /-- The listeners of each kind, in subscription order. -/
  table : List (EventKind × List Nat) := []
  deriving Repr

namespace Bus

/-- The listeners of a kind, in subscription order. -/
def listenersOf (b : Bus) (k : EventKind) : List Nat :=
  ((b.table.find? (·.1 == k)).map (·.2)).getD []

/-- Adds a listener to the list of a kind unless it is there already; a kind
the table lacks gets a list of its own. -/
def enlist (id : Nat) (t : List (EventKind × List Nat)) (k : EventKind) : List (EventKind × List Nat) :=
  if t.any (·.1 == k) then
    t.map fun (k', ls) => if k' == k && !ls.contains id then (k', ls ++ [id]) else (k', ls)
  else t ++ [(k, [id])]

/-- Subscribes a new listener to some kinds; returns its number. -/
def subscribe (b : Bus) (kinds : List EventKind) : Bus × Nat :=
  ({ next := b.next + 1, table := kinds.foldl (enlist b.next) b.table }, b.next)

/-- Removes a listener from every kind; returns whether it listened to any. -/
def unsubscribe (b : Bus) (id : Nat) : Bus × Bool :=
  let found := b.table.any (·.2.contains id)
  let table := (b.table.map fun (k, ls) => (k, ls.filter (· != id))).filter (!·.2.isEmpty)
  ({ b with table }, found)

/-- Who hears an event: each listener of its kind, in order. -/
def deliver (b : Bus) (e : Event) : List Nat := b.listenersOf e.kind

end Bus

/-- What waits in the dispatch queue: an event, or the marker of a flush. -/
inductive Envelope where
  | event (e : Event)
  | flush
  deriving DecidableEq, Repr

/-- An event bus: its listeners, the queue its dispatcher takes from, and
which listener was handed which event so far, oldest first. -/
structure EventBus where
  listeners : Bus := {}
  queue : List Envelope := []
  delivered : List (Nat × Event) := []

namespace EventBus

/-- Subscribes a new listener; returns its number. -/
def subscribe (b : EventBus) (kinds : List EventKind) : EventBus × Nat :=
  ({ b with listeners := (b.listeners.subscribe kinds).1 }, (b.listeners.subscribe kinds).2)

/-- Removes a listener; events already queued are not handed to it any more. -/
def unsubscribe (b : EventBus) (id : Nat) : EventBus × Bool :=
  ({ b with listeners := (b.listeners.unsubscribe id).1 }, (b.listeners.unsubscribe id).2)

/-- Queues an event for the dispatcher. -/
def publish (b : EventBus) (e : Event) : EventBus := { b with queue := b.queue ++ [.event e] }

/-- Hands an envelope out: an event to each listener its kind has now; a
flush marker is answered and hands out nothing. -/
def handle (b : EventBus) : Envelope → EventBus
  | .event e => { b with delivered := b.delivered ++ (b.listeners.deliver e).map fun id => (id, e) }
  | .flush => b

/-- The dispatcher takes the oldest envelope of the queue; with none queued
it waits. -/
def dispatch (b : EventBus) : EventBus :=
  match b.queue with
  | [] => b
  | env :: rest => handle { b with queue := rest } env

/-- The dispatcher takes `n` envelopes, one after another. -/
def dispatchTimes : Nat → EventBus → EventBus
  | 0, b => b
  | n + 1, b => dispatchTimes n b.dispatch

/-- Waits until everything published so far is handed out: a marker goes to
the end of the queue, and the dispatcher runs until it has answered it. -/
def flush (b : EventBus) : EventBus :=
  dispatchTimes (b.queue.length + 1) { b with queue := b.queue ++ [.flush] }

end EventBus

/-- A call on an event bus, or a turn of its dispatcher, which runs beside
the caller and may take an envelope between any two calls. -/
inductive BusOp where
  | subscribe (kinds : List EventKind)
  | unsubscribe (id : Nat)
  | publish (e : Event)
  | flush
  | dispatch

/-- What a call on an event bus answers. -/
inductive BusReply where
  | listener (id : Nat)
  | found (b : Bool)
  | done
  deriving DecidableEq, Repr

namespace EventBus

/-- Performs a call, or a turn of the dispatcher. -/
def step (b : EventBus) : BusOp → BusReply × EventBus
  | .subscribe kinds => (.listener (b.subscribe kinds).2, (b.subscribe kinds).1)
  | .unsubscribe id => (.found (b.unsubscribe id).2, (b.unsubscribe id).1)
  | .publish e => (.done, b.publish e)
  | .flush => (.done, b.flush)
  | .dispatch => (.done, b.dispatch)

/-- Performs calls and dispatcher turns in order: the answers and the bus after the last. -/
def run (b : EventBus) : List BusOp → List BusReply × EventBus
  | [] => ([], b)
  | op :: ops => ((b.step op).1 :: ((b.step op).2.run ops).1, ((b.step op).2.run ops).2)

end EventBus

end ChatSync
