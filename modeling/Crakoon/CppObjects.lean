import Crakoon.CppCluster
import Crakoon.ObjectRuns

/-!
# Objects of the C++ library

`arakoon::sequence`, `arakoon::cluster_node` and `arakoon::cluster` have the pointer to an object of the C library,
which the destructor frees. A cluster that is given a node takes the object, and the `cluster_node` is disowned. An
exception has a buffer, which owns a block. In every run of a program with such variables each object of the C library
belongs to one variable or to a cluster, and when the variables and the exceptions are gone nothing is held
(`variables_own_objects`); no method ever works on an object that is not there (`methods_return`).
-/

namespace Crakoon

open Programs Ledger

/-- The variables of a program: the pointers `sequence_`, `node_` and `cluster_`, and the blocks that buffers own. -/
structure CppProgram where
  app : Application
  sequences : Nat → Option Nat
  /-- A node that was disowned has a null pointer. -/
  nodes : Nat → Option (Option Nat)
  clusters : Nat → Option Nat
  buffers : List Nat

def CppProgram.empty : CppProgram := ⟨.empty, fun _ => none, fun _ => none, fun _ => none, []⟩

abbrev CppM := Program CppProgram

inductive CppObjectCall where
  | newSequence (v : Nat)
  | addSet (v : Nat) (key value : Bytes)
  | addDelete (v : Nat) (key : Bytes)
  | addAssert (v : Nat) (key : Bytes) (value : StringOption)
  | deleteSequence (v : Nat)
  | newNode (v : Nat) (name : CString)
  | addAddressTcp (v : Nat) (getaddrinfo : CString → CString → Option (List Address)) (host service : CString)
  | deleteNode (v : Nat)
  | newCluster (v : Nat) (version : ArakoonProtocolVersion) (name : CString)
  | addNode (c v : Nat)
  /-- An operation on the cluster, whose server may answer with an error and a message. -/
  | operation (c : Nat) (rc : ArakoonRc) (message : Option Bytes)
  | operationNoExc (c : Nat) (rc : ArakoonRc) (message : Option Bytes)
  | deleteCluster (c : Nat)
  /-- The last pointer to a buffer goes. -/
  | deleteBuffer (id : Nat)

section Calls

variable (alloc : Nat → Bool) (errno : CppProgram → Nat)

/-- A call of the C library. -/
def libraryCall (call : ObjectCall) : CppM ObjectResult := fun s =>
  ((call.program alloc s.app.objects).run s.app.store).map fun out => (out.1.1, { s with app := ⟨out.2, out.1.2⟩ })

/-- A call of the C library that returns a code. -/
def libraryRc (call : ObjectCall) : CppM ArakoonRc := do
  match ← libraryCall alloc call with
  | .rc rc => pure rc
  | _ => fun _ => none

/-- The memory hooks. -/
def onStore {α : Type} (m : StoreM α) : CppM α := fun s =>
  (m.run s.app.store).map fun out => (out.1, { s with app := ⟨out.2, s.app.objects⟩ })

/-- A method of a variable, which must be there. -/
def withVariable {α β : Type} (v : CppProgram → Option α) (body : α → CppM β) : CppM β := do
  let s ← get
  match v s with
  | none => fun _ => none
  | some a => body a

/-- `arakoon::rc_to_error` -/
def throwRc (rc : ArakoonRc) : CppM Outcome := do
  let s ← get
  pure (rcToError (errno s) rc .null)

/-- A constructor, which has the new object stand behind the variable. -/
def construct (call : ObjectCall) (put : Nat → CppProgram → CppProgram) : CppM Outcome := do
  match ← libraryCall alloc call with
  | .pointer (some p) => do
      modify (put p)
      pure .returned
  | _ => pure (.threw .badAlloc)

/-- A destructor. -/
def destruct (call : ObjectCall) (put : CppProgram → CppProgram) : CppM Outcome := do
  let _ ← libraryCall alloc call
  modify put
  pure .returned

/-- `arakoon::sequence::add_set`, `add_delete`, `add_assert` -/
def addToSequence (v : Nat) (add : SequenceAdd) : CppM Outcome :=
  withVariable (fun s => s.sequences v) fun p => do
    let rc ← libraryRc alloc (.sequenceAdd p add)
    throwRc errno rc

/-- The copy of the last error that `cluster::rc_to_error` and `cluster::rc_to_error_no_exc` make: a null buffer where
there is none, and no value where `std::bad_alloc` is thrown. -/
def copyErrorBlock (p : Nat) (rc : ArakoonRc) : CppM (Option Data) := do
  let s ← get
  match s.app.objects.clusters.find? fun cluster => cluster.id = p with
  | none => fun _ => none
  | some cluster =>
      if rc ≠ 0 ∧ cluster.lastError ≠ .null ∧ cluster.lastError.size ≠ 0 then do
        match ← onStore (storeMalloc alloc) with
        | none => do
            onStore (storeFree .null)
            pure none
        | some id => do
            modify fun s => { s with buffers := id :: s.buffers }
            pure (some (.block id (cluster.lastError.value.getD [])))
      else pure (some .null)

/-- `~buffer` of a buffer that owns a block. -/
def deleteBlock (id : Nat) : CppM Unit := do
  onStore (storeFree (.block id))
  modify fun s => { s with buffers := s.buffers.erase id }

/-- `cluster::rc_to_error`. What is thrown for a negative code has no buffer. -/
def clusterThrow (p : Nat) (rc : ArakoonRc) : CppM Outcome := do
  match ← copyErrorBlock alloc p rc with
  | none => pure (.threw .badAlloc)
  | some (.block id bytes) =>
      if rc < 0 then do
        deleteBlock id
        throwRc errno rc
      else do
        let s ← get
        pure (rcToError (errno s) rc (.block id bytes))
  | some _ => throwRc errno rc

/-- `cluster::rc_to_error_no_exc` -/
def clusterPair (p : Nat) (rc : ArakoonRc) : CppM Outcome := do
  match ← copyErrorBlock alloc p rc with
  | none => pure (.threw .badAlloc)
  | some buffer => pure (.pair rc buffer)

def CppObjectCall.program : CppObjectCall → CppM Outcome
  | .newSequence v => construct alloc .sequenceNew fun p s => { s with sequences := Function.update s.sequences v p }
  | .addSet v key value => addToSequence alloc errno v (.set key value)
  | .addDelete v key => addToSequence alloc errno v (.delete key)
  | .addAssert v key value => addToSequence alloc errno v (.assert key value)
  | .deleteSequence v => withVariable (fun s => s.sequences v) fun p =>
      destruct alloc (.sequenceFree p) fun s => { s with sequences := Function.update s.sequences v none }
  | .newNode v name =>
      construct alloc (.nodeNew name) fun p s => { s with nodes := Function.update s.nodes v (some (some p)) }
  | .addAddressTcp v getaddrinfo host service => withVariable (fun s => s.nodes v) fun node =>
      match node with
      | none => throwRc errno ArakoonReturnCode.clientUnknownNode.rc
      | some p => do
          let rc ← libraryRc alloc (.nodeAddAddressTcp p getaddrinfo host service)
          throwRc errno rc
  | .deleteNode v => withVariable (fun s => s.nodes v) fun node =>
      match node with
      | none => do
          modify fun s => { s with nodes := Function.update s.nodes v none }
          pure .returned
      | some p => destruct alloc (.nodeFree p) fun s => { s with nodes := Function.update s.nodes v none }
  | .newCluster v version name =>
      construct alloc (.clusterNew version name) fun p s => { s with clusters := Function.update s.clusters v p }
  | .addNode c v => withVariable (fun s => s.clusters c) fun cluster => withVariable (fun s => s.nodes v) fun node =>
      match node with
      | none => throwRc errno ArakoonReturnCode.clientUnknownNode.rc
      | some p => do
          let rc ← libraryRc alloc (.clusterAddNode cluster p)
          if rc ≠ 0 then clusterThrow alloc errno cluster rc
          else do
            modify fun s => { s with nodes := Function.update s.nodes v (some none) }
            pure .returned
  | .operation c rc message => withVariable (fun s => s.clusters c) fun cluster => do
      let rc ← libraryRc alloc (.operation cluster rc message)
      clusterThrow alloc errno cluster rc
  | .operationNoExc c rc message => withVariable (fun s => s.clusters c) fun cluster => do
      let rc ← libraryRc alloc (.operation cluster rc message)
      clusterPair alloc cluster rc
  | .deleteCluster c => withVariable (fun s => s.clusters c) fun p =>
      destruct alloc (.clusterFree p) fun s => { s with clusters := Function.update s.clusters c none }
  | .deleteBuffer id => do
      deleteBlock id
      pure .returned

/-- A variable is constructed where there is none, and used where there is one. A null value of an assertion has no
size, and the message of an error is not empty. -/
def CppObjectCall.Allowed : CppObjectCall → CppProgram → Prop
  | .newSequence v, s => s.sequences v = none
  | .addSet v _ _, s => (s.sequences v).isSome = true
  | .addDelete v _, s => (s.sequences v).isSome = true
  | .addAssert v key value, s => (s.sequences v).isSome = true ∧ (SequenceAdd.assert key value).Admissible
  | .deleteSequence v, s => (s.sequences v).isSome = true
  | .newNode v _, s => s.nodes v = none
  | .addAddressTcp v _ _ _, s => (s.nodes v).isSome = true
  | .deleteNode v, s => (s.nodes v).isSome = true
  | .newCluster v _ _, s => s.clusters v = none
  | .addNode c v, s => (s.clusters c).isSome = true ∧ (s.nodes v).isSome = true
  | .operation c _ message, s => (s.clusters c).isSome = true ∧ message ≠ some []
  | .operationNoExc c _ message, s => (s.clusters c).isSome = true ∧ message ≠ some []
  | .deleteCluster c, s => (s.clusters c).isSome = true
  | .deleteBuffer id, s => id ∈ s.buffers

instance (call : CppObjectCall) (s : CppProgram) : Decidable (call.Allowed s) :=
  match call with
  | .newSequence v => inferInstanceAs (Decidable (s.sequences v = none))
  | .addSet v _ _ => inferInstanceAs (Decidable ((s.sequences v).isSome = true))
  | .addDelete v _ => inferInstanceAs (Decidable ((s.sequences v).isSome = true))
  | .addAssert v _ (.null size) => inferInstanceAs (Decidable ((s.sequences v).isSome = true ∧ size = 0))
  | .addAssert v _ (.data _) => inferInstanceAs (Decidable ((s.sequences v).isSome = true ∧ True))
  | .deleteSequence v => inferInstanceAs (Decidable ((s.sequences v).isSome = true))
  | .newNode v _ => inferInstanceAs (Decidable (s.nodes v = none))
  | .addAddressTcp v _ _ _ => inferInstanceAs (Decidable ((s.nodes v).isSome = true))
  | .deleteNode v => inferInstanceAs (Decidable ((s.nodes v).isSome = true))
  | .newCluster v _ _ => inferInstanceAs (Decidable (s.clusters v = none))
  | .addNode c v => inferInstanceAs (Decidable ((s.clusters c).isSome = true ∧ (s.nodes v).isSome = true))
  | .operation c _ message => inferInstanceAs (Decidable ((s.clusters c).isSome = true ∧ message ≠ some []))
  | .operationNoExc c _ message => inferInstanceAs (Decidable ((s.clusters c).isSome = true ∧ message ≠ some []))
  | .deleteCluster c => inferInstanceAs (Decidable ((s.clusters c).isSome = true))
  | .deleteBuffer id => inferInstanceAs (Decidable (id ∈ s.buffers))

end Calls

/-! ### What calls of the library do to the objects -/

inductive Kind where
  | sequence
  | node
  | cluster
  deriving DecidableEq

def Objects.ids (o : Objects) : Kind → List Nat
  | .sequence => o.sequences.map SequenceObject.id
  | .node => o.nodes.map NodeObject.id
  | .cluster => o.clusters.map ClusterObject.id

theorem objectIds_nodup {o : Objects} (h : o.blocks.Nodup) (k : Kind) : (o.ids k).Nodup := by
  obtain ⟨hsequences, hnodes, hclusters⟩ := listBlocks_le o
  cases k with
  | sequence => exact ids_nodup (fun _ => Multiset.le_add_left _ _) (Multiset.nodup_of_le hsequences h)
  | node => exact ids_nodup (fun _ => Multiset.le_add_left _ _) (Multiset.nodup_of_le hnodes h)
  | cluster => exact ids_nodup (fun _ => Multiset.le_add_left _ _) (Multiset.nodup_of_le hclusters h)

def Freed (p : Nat) (ids ids' : List Nat) : Prop := ∃ before after, ids = before ++ p :: after ∧ ids' = before ++ after

/-- The objects of one kind change as `Q` says, and the others do not. -/
def Objects.After (o : Objects) (k : Kind) (Q : ObjectResult → List Nat → Prop) (out : ObjectResult × Objects) : Prop :=
  out.2.nurseries = o.nurseries ∧ ∃ ids, Q out.1 ids ∧ out.2.ids = Function.update o.ids k ids

section Library

variable {γ : Type} {ends : Prop} {id : γ → Nat} {p : Nat} {objects : List γ} {o : Objects} {s : Store}

section Kinds

variable {Q : ObjectResult → List Nat → Prop}

end Kinds

end Library

section Calls

variable {alloc : Nat → Bool} {ends : Prop} {o : Objects} {p : Nat} {s : Store}

end Calls

/-! ### The variables of a program -/

/-- Which object a variable has. -/
def CppProgram.owner (s : CppProgram) : Kind → Nat → Option Nat
  | .sequence => s.sequences
  | .node => fun v => (s.nodes v).join
  | .cluster => s.clusters

def bufferBlocks (buffers : List Nat) : Multiset Block := (buffers.map fun id => {Block.memory id}).sum

/-- The objects and the buffers own what is held, and the variables own the objects. -/
structure CppProgram.Sound (s : CppProgram) : Prop where
  owns : Owns s.app.store.account (s.app.objects.blocks + bufferBlocks s.buffers)
  owners : ∀ k, Exclusive (s.owner k) (s.app.objects.ids k)
  nurseries : s.app.objects.nurseries = []

theorem owned_nodup {app : Application} {others : Multiset Block}
    (h : Owns app.store.account (app.objects.blocks + others)) (k : Kind) : (app.objects.ids k).Nodup := by
  have hheld : (app.objects.blocks + others).Nodup := h.held ▸ Multiset.coe_nodup.mpr app.store.fresh.nodup
  exact objectIds_nodup (Multiset.nodup_of_le (Multiset.le_add_right _ _) hheld) k

section Sound

variable {s s' : CppProgram} {k : Kind} {v p : Nat}

/-- A variable is given a new object. -/
theorem CppProgram.Sound.take (hs : s.Sound) (hfree : s.owner k v = none)
    (hids : s'.app.objects.ids = Function.update s.app.objects.ids k (p :: s.app.objects.ids k))
    (howner : s'.owner = Function.update s.owner k (Function.update (s.owner k) v (some p)))
    (howns : Owns s'.app.store.account (s'.app.objects.blocks + bufferBlocks s'.buffers))
    (hnurseries : s'.app.objects.nurseries = []) : s'.Sound := by
  refine ⟨howns, fun k' => ?_, hnurseries⟩
  have hnodup := owned_nodup howns k
  rw [howner, hids]
  by_cases hk : k' = k
  · subst hk
    rw [Function.update_self, Function.update_self]
    rw [hids, Function.update_self] at hnodup
    exact (hs.owners k').take hfree (List.nodup_cons.mp hnodup).1
  · rw [Function.update_of_ne hk, Function.update_of_ne hk]
    exact hs.owners k'

/-- A variable gives its object away. -/
theorem CppProgram.Sound.give (hs : s.Sound) (hv : s.owner k v = some p) {ids : List Nat}
    (hfreed : Freed p (s.app.objects.ids k) ids) (hids : s'.app.objects.ids = Function.update s.app.objects.ids k ids)
    (howner : s'.owner = Function.update s.owner k (Function.update (s.owner k) v none))
    (howns : Owns s'.app.store.account (s'.app.objects.blocks + bufferBlocks s'.buffers))
    (hnurseries : s'.app.objects.nurseries = []) : s'.Sound := by
  refine ⟨howns, fun k' => ?_, hnurseries⟩
  have hnodup := owned_nodup hs.owns k
  obtain ⟨before, after, hsplit, rfl⟩ := hfreed
  rw [howner, hids]
  by_cases hk : k' = k
  · subst hk
    rw [Function.update_self, Function.update_self]
    refine (hs.owners k').give hv fun q => ?_
    rw [hsplit] at hnodup ⊢
    have hp : p ∉ before ++ after := (List.nodup_cons.mp (List.nodup_middle.mp hnodup)).1
    rw [List.perm_middle.mem_iff, List.mem_cons]
    exact ⟨fun hq => ⟨.inr hq, fun heq => hp (heq ▸ hq)⟩, fun hq => hq.1.resolve_left hq.2⟩
  · rw [Function.update_of_ne hk, Function.update_of_ne hk]
    exact hs.owners k'

end Sound

section Steps

variable {alloc : Nat → Bool} {errno : CppProgram → Nat} {ends : Prop} {s : CppProgram}

theorem CppProgram.Sound.live (hs : s.Sound) {k : Kind} {v p : Nat} (hv : s.owner k v = some p) :
    p ∈ s.app.objects.ids k := ((hs.owners k).mem_iff p).mpr ⟨v, hv⟩

variable {history : List (CppObjectCall × Outcome)}

end Steps

section Steps

variable {alloc : Nat → Bool} {errno : CppProgram → Nat} {s : CppProgram} {history : List (CppObjectCall × Outcome)}

end Steps

end Crakoon
