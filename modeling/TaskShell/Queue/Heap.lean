import TaskShell.Value

/-!
# Heaps of values

A heap keeps the least of its values in front. Values of different kinds need
not be comparable, so every step may be refused; a refused step leaves the heap
as far as it has come.
-/

namespace TaskShell.Queue

/-- Two values that have no order, by their kinds. -/
structure Unordered where
  left : String
  right : String
  deriving DecidableEq, Repr

def numberOf? : Value → Option Float
  | .int i => some (Number.ofInt i)
  | .bool b => some (if b then 1 else 0)
  | .float x => some x
  | _ => none

def integerOf? : Value → Option Int
  | .int i => some i
  | .bool b => some (if b then 1 else 0)
  | _ => none

mutual

def equal : Value → Value → Bool
  | .text a, .text b => a == b
  | .null, .null => true
  | .list as, .list bs => equalItems as bs
  | .record as, .record bs => as.length == bs.length && equalFields as bs
  | a, b =>
    match integerOf? a, integerOf? b with
    | some x, some y => x == y
    | _, _ =>
      match numberOf? a, numberOf? b with
      | some x, some y => x == y
      | _, _ => false

def equalItems : List Value → List Value → Bool
  | [], [] => true
  | a :: as, b :: bs => equal a b && equalItems as bs
  | _, _ => false

def equalFields : List (String × Value) → List (String × Value) → Bool
  | [], _ => true
  | (k, v) :: rest, bs =>
    (match bs.lookup k with
      | some b => equal v b
      | none => false) && equalFields rest bs

end

mutual

def less : Value → Value → Except Unordered Bool
  | .text a, .text b => .ok (a < b)
  | .list as, .list bs => lessItems as bs
  | a, b =>
    match integerOf? a, integerOf? b with
    | some x, some y => .ok (x < y)
    | _, _ =>
      match numberOf? a, numberOf? b with
      | some x, some y => .ok (x < y)
      | _, _ => .error ⟨a.kind, b.kind⟩

/-- Whether a list comes before another: by the first items that differ, or else
by length. -/
def lessItems : List Value → List Value → Except Unordered Bool
  | _, [] => .ok false
  | [], _ :: _ => .ok true
  | a :: as, b :: bs => if equal a b then lessItems as bs else less a b

end

/-- A heap on which a step of `siftDown` may have been refused. -/
abbrev Step := Option Unordered × Array Value

/-- Moves a value up while it comes before its parent; `fuel` bounds the
steps. -/
def siftUp (top : Nat) : Nat → Array Value → Nat → Step
  | 0, heap, _ => (none, heap)
  | fuel + 1, heap, pos =>
    if pos ≤ top then (none, heap)
    else
      let parent := (pos - 1) / 2
      match less (heap.getD pos .null) (heap.getD parent .null) with
      | .error f => (some f, heap)
      | .ok false => (none, heap)
      | .ok true => siftUp top fuel (heap.swapIfInBounds pos parent) parent

/-- Moves a value down to a leaf, past the lesser child each time, and then up
to its place. -/
def siftDown : Nat → Array Value → Nat → Step
  | 0, heap, _ => (none, heap)
  | fuel + 1, heap, pos =>
    let left := 2 * pos + 1
    if left < heap.size then
      if left + 1 < heap.size then
        match less (heap.getD left .null) (heap.getD (left + 1) .null) with
        | .error f => (some f, heap)
        | .ok before =>
          let child := if before then left else left + 1
          siftDown fuel (heap.swapIfInBounds pos child) child
      else siftDown fuel (heap.swapIfInBounds pos left) left
    else siftUp 0 (heap.size + 1) heap pos

def push (heap : Array Value) (v : Value) : Step :=
  siftUp 0 (heap.size + 1) (heap.push v) heap.size

def pop (heap : Array Value) : Option (Except Unordered Value × Array Value) :=
  match heap.back? with
  | none => none
  | some last =>
    let rest := heap.pop
    match rest[0]? with
    | none => some (.ok last, rest)
    | some least =>
      match siftDown (rest.size + 1) (rest.setIfInBounds 0 last) 0 with
      | (none, heap) => some (.ok least, heap)
      | (some f, heap) => some (.error f, heap)

end TaskShell.Queue
