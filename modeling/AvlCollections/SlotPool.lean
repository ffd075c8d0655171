/-! # Slot pools

Nodes are stored in numbered slots. A new node takes the slot freed most recently, or else
the next slot never used since the last reset. The storage behind the slots has a capacity
that only grows: a slot past it doubles the capacity, to at least four.
-/

namespace AvlCollections

/-- Which slots are in use and how much storage stands behind them. -/
structure SlotPool where
  /-- Slots handed out since the last reset, live or freed; the next new slot is this one. -/
  count : Nat := 0
  /-- Freed slots, the most recently freed first. -/
  free : List Nat := []
  /-- How many slots the storage holds before it has to grow. -/
  capacity : Nat := 0
  deriving Repr, DecidableEq, Inhabited

namespace SlotPool

/-- An empty pool whose storage holds `capacity` slots. -/
def withCapacity (capacity : Nat) : SlotPool :=
  { capacity }

/-- The slot that the next allocation hands out. -/
def next (p : SlotPool) : Nat :=
  match p.free with
  | s :: _ => s
  | [] => p.count

/-- The capacity after one more slot is stored: doubled, to at least four, when full. -/
def grown (p : SlotPool) : Nat :=
  if p.count < p.capacity then p.capacity else max 4 (2 * p.capacity)

/-- Hands out `p.next`: a freed slot is reused before a new one is used. -/
def alloc (p : SlotPool) : SlotPool :=
  match p.free with
  | _ :: rest => { p with free := rest }
  | [] => { p with count := p.count + 1, capacity := p.grown }

/-- Gives slot `s` back. -/
def release (s : Nat) (p : SlotPool) : SlotPool :=
  { p with free := s :: p.free }

/-- Frees every slot and starts the numbering again; the storage is kept. -/
def reset (p : SlotPool) : SlotPool :=
  { capacity := p.capacity }

/-- A copy of the pool whose storage holds exactly the slots handed out. -/
def copy (p : SlotPool) : SlotPool :=
  { p with capacity := p.count }

/-- The number of slots in use. -/
def live (p : SlotPool) : Nat :=
  p.count - p.free.length

end SlotPool

end AvlCollections
