import Crakoon.ConnInvariant
import Crakoon.Onward

/-!
# The calls on one cluster

`ClusterCall` lists what a program does with a cluster between creating and freeing it: the operations of
`arakoon.c`, with `arakoon_who_master`, and the search for the master. `clusterStep` is one such call, whatever memory
is granted and whatever happens on the connections.
-/

namespace Crakoon

open Programs

inductive ClusterCall where
  | operation (op : Operation) (result : op.kind.Out)
  | whoMaster (master : Data)
  | connectMaster

section Calls

variable (alloc : Nat → Bool) (dial : Dialer)

/-- What a call does, and the code it returns. -/
def ClusterCall.program : ClusterCall → ClientM ArakoonRc
  | .operation op result => do
      let out ← Operation.run alloc op result
      pure out.1
  | .whoMaster master => do
      let out ← arakoonWhoMaster alloc master
      pure out.1
  | .connectMaster => arakoonClusterConnectMaster alloc dial

/-- A call that returns; one that aborts has no next state. -/
def clusterStep (call : ClusterCall) (w : World) : Except Unit (ArakoonRc × World) :=
  match (call.program alloc dial).run w with
  | none => .error ()
  | some out => .ok out

theorem clusterStep_ok {call : ClusterCall} {w w' : World} {rc : ArakoonRc} {alloc : Nat → Bool} {dial : Dialer}
    (h : clusterStep alloc dial call w = .ok (rc, w')) : (call.program alloc dial).run w = some (rc, w') := by
  unfold clusterStep at h
  split at h
  · cases h
  · rename_i out hrun
    rw [hrun, Except.ok.inj h]

/-- `arakoon_cluster_free`, less the blocks of the names, of the nodes and of the cluster: the memory that is left. -/
def arakoonClusterFree (w : World) : Heap := w.heap.free w.cluster.lastError.ptr

/-- `arakoon_cluster_get_last_error`: the code, the size and the pointer. -/
def arakoonClusterGetLastError (cluster : Cluster) : ArakoonRc × Nat × Data :=
  (ArakoonReturnCode.success, cluster.lastError.size, cluster.lastError)

end Calls

/-- Of the blocks handed out before `b` none is given back, and the last error stays. -/
structure World.Onward (b : Nat) (w w' : World) : Prop where
  heap : w.heap.Onward b w'.heap
  lastError : w'.cluster.lastError = w.cluster.lastError

def World.Past (b : Nat) (w : World) : Prop := b ≤ w.heap.next

instance World.onward_preorder (b : Nat) : IsPreorder World (World.Onward b) where
  refl := fun _ => ⟨.refl b _, rfl⟩
  trans := fun _ _ _ h₁ h₂ => ⟨h₁.heap.trans h₂.heap, h₂.lastError.trans h₁.lastError⟩

/-- The program moves the memory of a client onward, and its value satisfies `P`. -/
abbrev Spares {α : Type} (b : Nat) (m : ClientM α) (P : α → Prop) : Prop := Along (World.Past b) (World.Onward b) m P

section Spares

variable {alloc : Nat → Bool} {dial : Dialer} {b : Nat}

theorem spares_onNode {α : Type} {m : SessionM α} {P : α → Prop} (h : Onwards b m P) (k : NodeId) :
    Spares b (onNode k m) P := by
  intro w hw
  refine (ensures_onNode (h (w.session k) hw)).mono fun a _ ⟨s', ⟨hpast, honward, hP⟩, heq⟩ => ?_
  subst heq
  exact ⟨hpast, ⟨honward.heap, honward.lastError⟩, hP⟩

theorem spares_get : Spares b (get : ClientM World) fun _ => True :=
  fun w hw => Ensures.get ⟨hw, refl_of (World.Onward b) w, trivial⟩

theorem spares_freeString {d : Data} (hd : d.Since b) : Spares b (freeString d) fun _ => True := by
  intro w hw _ w' hrun
  obtain ⟨-, rfl⟩ := Prod.mk.inj (Option.some.inj hrun)
  have hheap := Heap.onward_free hd w.heap
  exact ⟨Nat.le_trans hw hheap.next, ⟨hheap, rfl⟩, trivial⟩

theorem spares_setMaster (k : NodeId) : Spares b (setMaster k) fun _ => True := by
  intro w hw _ w' hrun
  obtain ⟨-, rfl⟩ := Prod.mk.inj (Option.some.inj hrun)
  exact ⟨hw, ⟨.refl b _, rfl⟩, trivial⟩

theorem spares_clusterNodeConnect (k : NodeId) : Spares b (clusterNodeConnect alloc dial k) fun _ => True := by
  intro w hw rc w' hrun
  have hstay : ∀ n, World.Past b { w with dials := n } ∧ w.Onward b { w with dials := n } ∧ True := fun _ =>
    ⟨hw, ⟨.refl b _, rfl⟩, trivial⟩
  simp only [clusterNodeConnect, StateT.run] at hrun
  split at hrun
  · obtain ⟨-, rfl⟩ := Prod.mk.inj (Option.some.inj hrun)
    exact hstay w.dials
  · split at hrun
    · obtain ⟨-, rfl⟩ := Prod.mk.inj (Option.some.inj hrun)
      exact hstay (w.dials + 1)
    · rename_i peer hdial
      have hsend := spares_onNode (onwards_sendBlock alloc b (onwards_writeBytes b) _) k (w.dialed k peer) hw rc w' hrun
      exact ⟨hsend.1, ⟨hsend.2.1.heap, hsend.2.1.lastError⟩, trivial⟩

theorem spares_ask (k : NodeId) {master : Data} (hmaster : master.Since b) :
    Spares b (onNode k (clusterNodeWhoMaster alloc master)) fun out => out.2.Since b :=
  spares_onNode ((onwards_clusterNodeWhoMaster alloc b master).mono fun _ h => h hmaster) k

theorem spares_findNode (ks : List NodeId) {master : Data} (hmaster : master.Since b) :
    Spares b (findNode alloc dial ks master) fun out => out.2.Since b := by
  induction ks generalizing master with
  | nil => exact .pure hmaster
  | cons k ks ih =>
      refine (spares_clusterNodeConnect k).bind fun rc _ => .ite (fun _ => ?_) fun _ => ih hmaster
      exact (spares_ask k hmaster).bind fun out hout => .ite (fun _ => .pure hout) fun _ => ih hout

theorem spares_validateMaster (j : NodeId) {master : Data} (hmaster : master.Since b) :
    Spares b (validateMaster alloc dial j master) fun _ => True := by
  refine (spares_clusterNodeConnect j).bind fun _ _ => .ite (fun _ => .pure trivial) fun _ => ?_
  refine (spares_ask j hmaster).bind fun out hout => .ite (fun _ => .pure trivial) fun _ => ?_
  refine spares_get.bind fun _ _ => .ite (fun _ => ?_) fun _ => ?_
  · exact (spares_freeString hout).bind fun _ _ => .pure trivial
  · exact (spares_setMaster j).bind fun _ _ => (spares_freeString hout).bind fun _ _ => .pure trivial

/-- The search for the master frees the names it was told, and nothing else. -/
theorem spares_connectMaster : Spares b (arakoonClusterConnectMaster alloc dial) fun _ => True := by
  refine spares_get.bind fun w _ => (spares_findNode _ (Data.since_null b)).bind fun out hout => ?_
  obtain ⟨node, master⟩ := out
  cases node with
  | none => exact .pure trivial
  | some k =>
      refine spares_get.bind fun _ _ => .ite (fun _ => ?_) fun _ => (spares_freeString hout).bind fun _ _ => ?_
      · exact (spares_setMaster k).bind fun _ _ => (spares_freeString hout).bind fun _ _ => .pure trivial
      · split
        · exact .pure trivial
        · exact spares_validateMaster _ hout

end Spares

end Crakoon
