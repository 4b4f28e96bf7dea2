import Crakoon.Session

/-!
# The buffers of the C++ interface

`arakoon::buffer` holds a pointer and a size, and says whether it owns what is there. An owner gives its pointer to the
free hook when it is set to another one, reset or destroyed: once for each time that it was handed one to own
(`bufferLife_frees`).
-/

namespace Crakoon

open Programs

/-- `arakoon::buffer`: `data_` with `size_`, and `owner_`. -/
structure Buffer where
  data : Data
  owner : Bool
  deriving DecidableEq

def Buffer.empty : Buffer := ⟨.null, false⟩

/-- A buffer that shows what somebody else owns. -/
def Buffer.borrow (data : Data) : Buffer := ⟨data, false⟩

section Buffers

variable {M : Type → Type} [Monad M] (free : Ptr → M Unit)

/-- `free` is the hook. -/
def Buffer.reset (b : Buffer) : M Buffer := do
  if b.owner then free b.data.ptr
  pure .empty

def Buffer.set (b : Buffer) (data : Data) (takeOwnership : Bool) : M Buffer := do
  let _ ← b.reset free
  pure ⟨data, takeOwnership⟩

/-- `~buffer` -/
def Buffer.destroy (b : Buffer) : M Unit := do
  let _ ← b.reset free
  pure ()

/-- The calls that change a buffer. -/
inductive BufferCall where
  | set (data : Data) (takeOwnership : Bool)
  | reset

/-- The pointers that a buffer is handed to own. -/
def BufferCall.handed : BufferCall → List Ptr
  | .set data true => [data.ptr]
  | _ => []

/-- The calls one after the other, and the end of the buffer. -/
def bufferLife : List BufferCall → Buffer → M Unit
  | [], b => b.destroy free
  | .set data takeOwnership :: calls, b => do
      let b ← b.set free data takeOwnership
      bufferLife calls b
  | .reset :: calls, b => do
      let b ← b.reset free
      bufferLife calls b

end Buffers

theorem Buffer.reset_borrow (data : Data) (s : Session) :
    ((Buffer.borrow data).reset memFree).run s = some (.empty, s) := rfl

theorem Buffer.set_borrow (data data' : Data) (s : Session) :
    ((Buffer.borrow data).set memFree data' false).run s = some (.borrow data', s) := rfl

section Life

variable {σ : Type} {heap : σ → Heap} {free : Ptr → Program σ Unit}

/-- The hook leaves its call in the log and nothing else. -/
def FreesOne (heap : σ → Heap) (free : Ptr → Program σ Unit) : Prop :=
  ∀ p s, Yields (free p) s fun _ s' => (heap s').log = (heap s).log ++ [.free p]

/-- The pointers that a buffer is to give back when it lets go of what it holds. -/
def Buffer.owned (b : Buffer) : List Ptr := if b.owner then [b.data.ptr] else []

variable (hfree : FreesOne heap free)
include hfree

theorem yields_bufferReset (b : Buffer) (s : σ) :
    Yields (b.reset free) s fun b' s' =>
      b' = .empty ∧ (heap s').log = (heap s).log ++ b.owned.map HeapEvent.free := by
  obtain ⟨data, owner⟩ := b
  cases owner with
  | false => exact Yields.pure ⟨rfl, (List.append_nil _).symm⟩
  | true => exact (hfree data.ptr s).bind fun _ s' hlog => Yields.pure ⟨rfl, hlog⟩

/-- Over its life a buffer frees what it owned at the beginning and what it was handed since, in this order. -/
theorem bufferLife_frees (calls : List BufferCall) (b : Buffer) (s : σ) :
    Yields (bufferLife free calls b) s fun _ s' =>
      (heap s').log = (heap s).log ++ (b.owned ++ calls.flatMap BufferCall.handed).map HeapEvent.free := by
  induction calls generalizing b s with
  | nil =>
      refine (yields_bufferReset hfree b s).bind fun _ s' hreset => Yields.pure ?_
      rw [hreset.2, List.flatMap_nil, List.append_nil]
  | cons call calls ih =>
      cases call with
      | set data takeOwnership =>
          have hset : Yields (b.set free data takeOwnership) s fun b' s' =>
              b' = ⟨data, takeOwnership⟩ ∧ (heap s').log = (heap s).log ++ b.owned.map HeapEvent.free :=
            (yields_bufferReset hfree b s).bind fun _ s' hreset => Yields.pure ⟨rfl, hreset.2⟩
          refine hset.bind fun b' s₁ hdone => ?_
          obtain ⟨rfl, hlog⟩ := hdone
          refine (ih ⟨data, takeOwnership⟩ s₁).mono fun _ s' hrest => ?_
          have howned : Buffer.owned ⟨data, takeOwnership⟩ = (BufferCall.set data takeOwnership).handed := by
            cases takeOwnership <;> rfl
          rw [hrest, hlog, List.append_assoc, howned, ← List.map_append, List.flatMap_cons]
      | reset =>
          refine (yields_bufferReset hfree b s).bind fun b' s₁ hreset => ?_
          obtain ⟨rfl, hlog⟩ := hreset
          refine (ih .empty s₁).mono fun _ s' hrest => ?_
          rw [hrest, hlog, List.append_assoc, ← List.map_append]
          rfl

end Life

/-- How often a pointer is among those that are freed. -/
theorem releasedIn_map_free (ps : List Ptr) (p : Ptr) : releasedIn (ps.map HeapEvent.free) p = ps.count p := by
  induction ps with
  | nil => rfl
  | cons q ps ih =>
      have hcons : releasedIn ((q :: ps).map HeapEvent.free) p =
          (if q = p then 1 else 0) + releasedIn (ps.map HeapEvent.free) p := by
        simp [releasedIn, HeapEvent.releases]
      rw [hcons, ih, List.count_cons, Nat.add_comm]
      by_cases hqp : q = p <;> simp [hqp]

end Crakoon
