import Crakoon.Basic
import Mathlib.Algebra.BigOperators.Group.List.Basic
import Mathlib.Algebra.Group.Pi.Basic
import Mathlib.Algebra.Ring.Int.Defs
import Mathlib.Tactic.Abel

/-!
# The memory hooks

Every call of a memory hook is logged. Blocks are numbered in the order in which the malloc and
realloc hooks hand them out, so no block is handed out twice (`Heap.once`). The contents of a block
travel with the pointer to it (`Data`): no operation writes to a block that another one points to.
`Heap.net` is the ledger of the log: for each pointer, how often it was handed out minus how often it
was given back.
-/

namespace Crakoon

/-- A pointer the library hands around: null, `ARAKOON_ZERO_LENGTH_DATA_PTR` or a block. -/
inductive Ptr where
  | null
  | zeroLength
  | block (id : Nat)
  deriving DecidableEq, Repr

/-- One call of a memory hook that had an effect. -/
inductive HeapEvent where
  | malloc (id : Nat)
  | free (p : Ptr)
  | realloc (p : Ptr) (id : Nat)
  deriving DecidableEq, Repr

/-- How often the event hands the pointer out. -/
def HeapEvent.obtains (p : Ptr) : HeapEvent → Nat
  | .malloc id => if p = .block id then 1 else 0
  | .free _ => 0
  | .realloc _ id => if p = .block id then 1 else 0

/-- How often the event gives the pointer back. -/
def HeapEvent.releases (p : Ptr) : HeapEvent → Nat
  | .malloc _ => 0
  | .free q => if q = p then 1 else 0
  | .realloc q _ => if q = p then 1 else 0

def obtainedIn (log : List HeapEvent) (p : Ptr) : Nat := (log.map (HeapEvent.obtains p)).sum

def releasedIn (log : List HeapEvent) (p : Ptr) : Nat := (log.map (HeapEvent.releases p)).sum

structure Heap where
  /-- How many times memory was asked for. -/
  calls : Nat
  /-- How many blocks were handed out. -/
  next : Nat
  log : List HeapEvent
  once : ∀ id, obtainedIn log (.block id) = if id < next then 1 else 0

def Heap.empty : Heap := ⟨0, 0, [], fun id => by simp [obtainedIn]⟩

/-- A pointer and the bytes it points at. Where the code keeps a size next to a pointer, it is the
number of bytes. -/
inductive Data where
  | null
  | zeroLength
  | block (id : Nat) (bytes : Bytes)
  deriving DecidableEq, Repr

def Data.ptr : Data → Ptr
  | .null => .null
  | .zeroLength => .zeroLength
  | .block id _ => .block id

/-- The optional byte string that a pointer and a size stand for. -/
def Data.value : Data → Option Bytes
  | .null => none
  | .zeroLength => some []
  | .block _ bytes => some bytes

def Data.size : Data → Nat
  | .null => 0
  | .zeroLength => 0
  | .block _ bytes => bytes.length

theorem once_append {next : Nat} {log : List HeapEvent}
    (h : ∀ id, obtainedIn log (.block id) = if id < next then 1 else 0)
    (e : HeapEvent) (he : ∀ id, e.obtains (.block id) = if id = next then 1 else 0) (id : Nat) :
    obtainedIn (log ++ [e]) (.block id) = if id < next + 1 then 1 else 0 := by
  have hold := h id
  simp only [obtainedIn] at hold
  simp only [obtainedIn, List.map_append, List.map_singleton, List.sum_append, List.sum_singleton, he, hold]
  split_ifs <;> omega

variable (alloc : Nat → Bool)

/-- `arakoon_mem_malloc`; `alloc` says which requests for memory are met. -/
def Heap.malloc (h : Heap) : Option Nat × Heap :=
  if alloc h.calls then
    (some h.next, ⟨h.calls + 1, h.next + 1, h.log ++ [.malloc h.next],
      once_append h.once _ fun id => by simp [HeapEvent.obtains]⟩)
  else
    (none, { h with calls := h.calls + 1 })

/-- `arakoon_mem_realloc`. A pointer that it cannot take is in the log; what the hook does with it is left open. -/
def Heap.realloc (p : Ptr) (h : Heap) : Option Nat × Heap :=
  if alloc h.calls then
    (some h.next, ⟨h.calls + 1, h.next + 1, h.log ++ [.realloc p h.next],
      once_append h.once _ fun id => by simp [HeapEvent.obtains]⟩)
  else
    (none, { h with calls := h.calls + 1 })

/-- `arakoon_mem_free` -/
def Heap.free (p : Ptr) (h : Heap) : Heap where
  calls := h.calls
  next := h.next
  log := h.log ++ [.free p]
  once := fun id => by simpa [obtainedIn, HeapEvent.obtains] using h.once id

/-- How often the pointer was given back. -/
def Heap.released (h : Heap) (p : Ptr) : Nat := releasedIn h.log p

/-- How often the pointer was handed out, less how often it was given back. The null pointer does not
count. -/
def Heap.net (h : Heap) : Ptr → Int := fun p =>
  if p = .null then 0 else (obtainedIn h.log p : Int) - releasedIn h.log p

/-- One of the pointer, unless it is null. -/
def Ptr.one (p : Ptr) : Ptr → Int := fun q => if q = p ∧ p ≠ .null then 1 else 0

/-- What is owed for a value: the block it lives in. -/
def Data.net (d : Data) : Ptr → Int :=
  match d with
  | .null => 0
  | .zeroLength => 0
  | .block id _ => Ptr.one (.block id)

@[simp] theorem Heap.net_free (p : Ptr) (h : Heap) : (h.free p).net = h.net - Ptr.one p := by
  funext q
  by_cases hq : q = .null
  · subst hq
    by_cases hp : p = .null <;> simp [Heap.net, Ptr.one, hp]
    exact fun h => hp h.symm
  · by_cases hqp : q = p
    · subst hqp
      simp [Heap.net, Heap.free, Ptr.one, hq, obtainedIn, releasedIn, HeapEvent.obtains, HeapEvent.releases]
      omega
    · simp [Heap.net, Heap.free, Ptr.one, hq, hqp, Ne.symm hqp, obtainedIn, releasedIn, HeapEvent.obtains,
        HeapEvent.releases]

variable {alloc}

/-- A request that is met hands out the next block. -/
theorem Heap.malloc_eq {h : Heap} (halloc : alloc h.calls = true) :
    ∃ h', h.malloc alloc = (some h.next, h') ∧ h'.net = h.net + Ptr.one (.block h.next) ∧ h'.next = h.next + 1 := by
  refine ⟨(h.malloc alloc).2, by simp [Heap.malloc, halloc], ?_, by simp [Heap.malloc, halloc]⟩
  funext q
  by_cases hq : q = .null
  · subst hq
    simp [Heap.net, Ptr.one]
  · by_cases hqp : q = .block h.next
    · subst hqp
      simp [Heap.net, Heap.malloc, halloc, Ptr.one, obtainedIn, releasedIn, HeapEvent.obtains, HeapEvent.releases]
      omega
    · simp [Heap.net, Heap.malloc, halloc, Ptr.one, hq, hqp, obtainedIn, releasedIn, HeapEvent.obtains,
        HeapEvent.releases]

end Crakoon
