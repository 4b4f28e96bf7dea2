import Crakoon.Client
import Crakoon.Decode

/-!
# The balance of a program

Whatever memory is granted and whatever arrives: by how much a program changes the ledger of the memory, as a function
of its value. Reads and writes leave it as it is (`Settled`), and so does a request that is put together, sent and given
back.
-/

namespace Crakoon

open Programs

section Balance

variable {α β : Type}

/-- Whatever outcome the program has, the ledger has gained what its value says. -/
def Owes (m : SessionM α) (n : α → Ptr → Int) : Prop :=
  ∀ s, Ensures m s fun a s' => s'.heap.net = s.heap.net + n a

/-- The ledger is what it was. -/
abbrev Settled (m : SessionM α) : Prop := Owes m fun _ => 0

variable {m m' : SessionM α} {f : α → SessionM β} {n n' : α → Ptr → Int} {k : β → Ptr → Int}

theorem Owes.pure {a : α} (h : n a = 0) : Owes (Pure.pure a) n :=
  fun s => Ensures.pure (by rw [h, add_zero])

/-- What is owed after the first part is taken into account in the second. -/
theorem Owes.bind (hm : Owes m n) (hf : ∀ a, Owes (f a) fun b => k b - n a) : Owes (m >>= f) k := by
  intro s
  refine (hm s).bind fun a s₁ hfirst => (hf a s₁).mono fun b s' hrest => ?_
  rw [hrest, hfirst, add_assoc, add_sub_cancel]

theorem Owes.mono (hm : Owes m n) (h : ∀ a, n a = n' a) : Owes m n' :=
  fun s => (hm s).mono fun a _ hnet => h a ▸ hnet

theorem Owes.ite {c : Prop} [Decidable c] (hm : c → Owes m n) (hm' : ¬c → Owes m' n) :
    Owes (if c then m else m') n := fun s => .ite (fun h => hm h s) fun h => hm' h s

/-- A part that leaves the ledger as it is comes first. -/
theorem Settled.then (hm : Settled m) (hf : ∀ a, Owes (f a) k) : Owes (m >>= f) k :=
  Owes.bind hm fun a => (hf a).mono fun _ => (sub_zero _).symm

end Balance

section Programs

variable (alloc : Nat → Bool)

/-- The block that was granted, if one was. -/
def granted (id : Option Nat) : Ptr → Int := id.elim 0 fun id => Ptr.one (.block id)

theorem owes_memNew : Owes (memNew alloc) granted := by
  intro s id s' hrun
  obtain ⟨rfl, rfl⟩ := Prod.mk.inj (Option.some.inj hrun)
  cases halloc : alloc s.heap.calls with
  | true =>
      obtain ⟨h', hmalloc, hnet, -⟩ := Heap.malloc_eq halloc
      rw [hmalloc]
      exact hnet
  | false =>
      have hsame : (s.heap.malloc alloc).2.net = s.heap.net := by
        funext p
        simp [Heap.net, Heap.malloc, halloc]
      have hnone : (s.heap.malloc alloc).1 = none := by simp [Heap.malloc, halloc]
      rw [hnone]
      exact hsame.trans (add_zero _).symm

theorem owes_memFree (p : Ptr) : Owes (memFree p) fun _ => -Ptr.one p :=
  fun s => (yields_memFree p s).ensures.mono fun _ _ h => h.2.net

theorem settled_clusterNodeWriteBytes (bs : Bytes) : Settled (clusterNodeWriteBytes bs) := by
  intro s rc s' hrun
  simp only [clusterNodeWriteBytes, StateT.run] at hrun
  split at hrun
  · obtain ⟨-, rfl⟩ := Prod.mk.inj (Option.some.inj hrun)
    exact (add_zero _).symm
  · obtain ⟨-, rfl⟩ := Prod.mk.inj (Option.some.inj hrun)
    exact (add_zero _).symm

theorem settled_clusterNodeReadBytes (n : Nat) : Settled (clusterNodeReadBytes n) := by
  intro s rc s' hrun
  simp only [clusterNodeReadBytes, StateT.run] at hrun
  split at hrun
  · obtain ⟨-, rfl⟩ := Prod.mk.inj (Option.some.inj hrun)
    exact (add_zero _).symm
  · obtain ⟨-, rfl⟩ := Prod.mk.inj (Option.some.inj hrun)
    exact (add_zero _).symm

theorem settled_disconnect : Settled clusterNodeDisconnect := by
  intro s _ s' hrun
  obtain ⟨-, rfl⟩ := Prod.mk.inj (Option.some.inj hrun)
  exact (add_zero _).symm

theorem settled_writeBytes (bs : Bytes) : Settled (writeBytes bs) := by
  refine (settled_clusterNodeWriteBytes bs).then fun rc => ?_
  by_cases hrc : rc = 0
  · rw [if_neg (not_ne_iff.mpr hrc)]
    exact .pure rfl
  · rw [if_pos hrc]
    exact settled_disconnect.then fun _ => .pure rfl

theorem settled_readBytes (n : Nat) : Settled (readBytes n) := by
  refine (settled_clusterNodeReadBytes n).then fun out => ?_
  by_cases hrc : out.1 = 0
  · rw [if_neg (not_ne_iff.mpr hrc)]
    exact .pure rfl
  · rw [if_pos hrc]
    exact settled_disconnect.then fun _ => .pure rfl

theorem settled_readUInt32 (r : Nat) : Settled (readUInt32 r) :=
  (settled_readBytes 4).then fun _ => .ite (fun _ => .pure rfl) fun _ => .pure rfl

theorem settled_readRc : Settled readRc :=
  (settled_readUInt32 0).then fun _ => .ite (fun _ => .pure rfl) fun _ => .pure rfl

/-- A string that could not be read owes nothing. -/
def stringNet (out : Data × ArakoonRc) : Ptr → Int := if out.2 = 0 then out.1.net else 0

theorem owes_readString (a : Data) (rc : ArakoonRc) : Owes (readString alloc a rc) stringNet := by
  refine (settled_readUInt32 0).then fun l => .ite (fun hrc => .pure (if_neg hrc)) fun _ => ?_
  refine .ite (fun _ => ?_) fun _ => ?_
  · refine .pure ?_
    unfold stringNet
    split_ifs <;> rfl
  · refine (owes_memNew alloc).bind fun id => ?_
    cases id with
    | none => exact .pure (by simp [stringNet, granted, enomem_ne_zero])
    | some id =>
        refine (settled_readBytes l.1).then fun out => .ite (fun hrc => .pure ?_) fun hrc => ?_
        · rw [stringNet, if_pos hrc]
          exact sub_self _
        · refine ((owes_memFree (.block id)).bind fun _ => .pure ?_)
          rw [stringNet, if_neg hrc]
          simp [granted]

theorem owes_readStringOption (a : Data) (rc : ArakoonRc) : Owes (readStringOption alloc a rc) stringNet := by
  refine (settled_readBytes 1).then fun out => .ite (fun hrc => .pure (if_neg hrc)) fun _ => ?_
  refine .ite (fun _ => ?_) fun _ => ?_
  · refine .pure ?_
    unfold stringNet
    split_ifs <;> rfl
  · exact owes_readString alloc a rc

theorem settled_sendBlock {write : Bytes → SessionM ArakoonRc} (hwrite : ∀ bs, Settled (write bs))
    (block : Option Bytes) : Settled (sendBlock alloc write block) := by
  refine (owes_memNew alloc).bind fun command => ?_
  cases command with
  | none => exact .pure (by simp [granted])
  | some command =>
      have hblock : Settled (assertAllWritten block) := by
        intro s bs s' hrun
        obtain ⟨_, -, hout⟩ := Option.map_eq_some_iff.mp hrun
        obtain ⟨-, rfl⟩ := Prod.mk.inj hout
        exact (add_zero _).symm
      refine hblock.then fun bs => (hwrite bs).then fun rc => (owes_memFree _).bind fun _ => .pure ?_
      simp [granted]

theorem settled_sendCommand (c : Command) : Settled (sendCommand alloc c) :=
  settled_sendBlock alloc settled_writeBytes c.assembled

end Programs

end Crakoon
