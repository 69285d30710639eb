import TaskShell.Queue.Heap

/-!
# Queues

A queue gives its items back in the order they came, in the opposite order, or
the least first. It may have a bound, counts the items whose work is not yet
done, and can be closed.
-/

namespace TaskShell.Queue

inductive Order where
  | first
  | last
  | least
  deriving DecidableEq, Repr

structure WorkQueue where
  order : Order
  /-- The number of items that fit; all do if it is not positive. -/
  bound : Int
  items : Array Value
  /-- How many items were put whose work is not done. -/
  unfinished : Nat
  closed : Bool

def WorkQueue.empty (order : Order) (bound : Int) : WorkQueue :=
  ⟨order, bound, #[], 0, false⟩

inductive Patience where
  /-- Not at all, though a time may have been given. -/
  | none_ (t : Option Float)
  | endless
  /-- At most so many seconds. -/
  | seconds (t : Float)

inductive QueueFault where
  | empty
  | full
  | closed
  | negativeTime
  /-- A time was given where nothing waits. -/
  | uselessTime
  | doneTooOften
  | unordered (kinds : Unordered)
  | stuck
  deriving DecidableEq, Repr

def QueueFault.message : QueueFault → String
  | empty | full | closed | stuck => ""
  | negativeTime => "'timeout' must be a non-negative number"
  | uselessTime => "can't specify timeout for non-blocking acquire"
  | doneTooOften => "task_done() called too many times"
  | unordered kinds => s!"'<' not supported between instances of '{kinds.left}' and '{kinds.right}'"

inductive Call where
  | isEmpty
  | isFull
  | size
  | put (v : Value) (wait : Patience)
  | take (wait : Patience)
  | done
  | join
  /-- No more items may be put; those inside are dropped if `now`. -/
  | close (now : Bool)

namespace WorkQueue

def isFull (q : WorkQueue) : Bool := 0 < q.bound && q.bound ≤ q.items.size

def waitFault (wait : Patience) (late : QueueFault) : QueueFault :=
  match wait with
  | .none_ _ | .seconds _ => late
  | .endless => .stuck

def isNegative : Patience → Bool
  | .seconds t => t < 0
  | _ => false

def insert (q : WorkQueue) (v : Value) : Except QueueFault Unit × WorkQueue :=
  match q.order with
  | .least =>
    match push q.items v with
    | (none, items) =>
      (.ok (), { q with items, unfinished := q.unfinished + 1 })
    | (some f, items) => (.error (.unordered f), { q with items })
  | _ =>
    (.ok (), { q with items := q.items.push v, unfinished := q.unfinished + 1 })

/-- Takes the next item; nothing if there is none. -/
def next (q : WorkQueue) : Option (Except QueueFault Value × WorkQueue) :=
  match q.order with
  | .first =>
    q.items[0]?.map fun v =>
      (.ok v, { q with items := q.items.extract 1 q.items.size })
  | .last => q.items.back?.map fun v => (.ok v, { q with items := q.items.pop })
  | .least =>
    (pop q.items).map fun (r, items) =>
      (r.mapError .unordered, { q with items })

/-- Drops the items inside; each counts as done. -/
def drop (q : WorkQueue) : WorkQueue :=
  { q with items := #[], unfinished := q.unfinished - q.items.size }

def run (q : WorkQueue) : Call → Except QueueFault Value × WorkQueue
  | .isEmpty => (.ok (.bool q.items.isEmpty), q)
  | .isFull => (.ok (.bool q.isFull), q)
  | .size => (.ok (.int q.items.size), q)
  | .put v wait =>
    if q.closed then (.error .closed, q)
    else if 0 < q.bound && isNegative wait then (.error .negativeTime, q)
    else if q.isFull then (.error (waitFault wait .full), q)
    else
      let (r, q) := q.insert v
      (r.map fun _ => .null, q)
  | .take wait =>
    if q.closed && q.items.isEmpty then (.error .closed, q)
    else if isNegative wait then (.error .negativeTime, q)
    else
      match q.next with
      | some answer => answer
      | none => (.error (waitFault wait .empty), q)
  | .done =>
    if q.unfinished == 0 then (.error .doneTooOften, q)
    else (.ok .null, { q with unfinished := q.unfinished - 1 })
  | .join => (if q.unfinished == 0 then .ok .null else .error .stuck, q)
  | .close now =>
    let q := { q with closed := true }
    (.ok .null, if now then q.drop else q)

end WorkQueue

/-- A queue without a bound that counts nothing. -/
abbrev SimpleQueue := List Value

def timeFault? : Patience → Option QueueFault
  | .endless | .none_ none => none
  | .none_ (some t) => some (if t < 0 then .negativeTime else .uselessTime)
  | .seconds t => if t < 0 then some .negativeTime else none

/-- Runs an operation on a simple queue; one that it does not have gives
nothing. -/
def SimpleQueue.run (q : SimpleQueue) :
    Call → Option (Except QueueFault Value × SimpleQueue)
  | .isEmpty => some (.ok (.bool q.isEmpty), q)
  | .size => some (.ok (.int q.length), q)
  | .put v _ => some (.ok .null, q ++ [v])
  | .take wait =>
    some (match timeFault? wait, q with
      | some f, _ => (.error f, q)
      | none, v :: rest => (.ok v, rest)
      | none, [] => (.error (WorkQueue.waitFault wait .empty), q))
  | _ => none

end TaskShell.Queue
