/-!
Timers in a binary heap: the children of place `i` are at `2 * i + 1` and `2 * i + 2`, and none is due
before its parent. Timers that are due at the same time leave the heap in the order in which these
movements leave them.
-/

namespace FormatServer

/-- Something to do at a time. -/
structure Timer (α : Type) where
  due : Nat
  event : α
  deriving DecidableEq, Repr

/-- Timers, the first of them in front. -/
structure TimerHeap (α : Type) where
  entries : Array (Timer α) := #[]
  deriving Repr

namespace TimerHeap

variable {α : Type}

/-- The timer at one place is due before the one at another. -/
def earlier (h : Array (Timer α)) (i j : Nat) : Bool :=
  match h[i]?, h[j]? with
  | some a, some b => a.due < b.due
  | _, _ => false

/-- Moves the timer at a place up while it is due before its parent. -/
def siftUp (h : Array (Timer α)) (i : Nat) : Array (Timer α) :=
  if i = 0 then h
  else
    let parent := (i - 1) / 2
    if earlier h i parent then siftUp (h.swapIfInBounds i parent) parent else h
termination_by i
decreasing_by omega

/-- The child of a place that comes first, the right one of two that are due together. -/
def firstChild (h : Array (Timer α)) (i : Nat) : Nat :=
  let left := 2 * i + 1
  if left + 1 < h.size && !earlier h left (left + 1) then left + 1 else left

/-- Moves the timer at a place down to a leaf, always in exchange for the child that comes first, and
tells where it ends. -/
def sink (h : Array (Timer α)) (i : Nat) : Array (Timer α) × Nat :=
  if 2 * i + 1 < h.size then
    let child := firstChild h i
    sink (h.swapIfInBounds i child) child
  else (h, i)
termination_by h.size - i
decreasing_by
  simp only [Array.size_swapIfInBounds, firstChild]
  split <;> omega

def push (h : TimerHeap α) (t : Timer α) : TimerHeap α :=
  ⟨siftUp (h.entries.push t) h.entries.size⟩

def first? (h : TimerHeap α) : Option (Timer α) := h.entries[0]?

/-- The heap without its first timer: the last one takes its place, sinks and is moved up again. -/
def pop (h : TimerHeap α) : TimerHeap α :=
  match h.entries.back? with
  | none => h
  | some last =>
    let rest := h.entries.pop
    if rest.isEmpty then ⟨rest⟩
    else
      -- Most timers from the end belong near the leaves.
      let (sunk, place) := sink (rest.setIfInBounds 0 last) 0
      ⟨siftUp sunk place⟩

def size (h : TimerHeap α) : Nat := h.entries.size

end TimerHeap

end FormatServer
