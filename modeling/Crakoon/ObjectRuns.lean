import Crakoon.LastError
import Crakoon.SequenceRoundTrip
import Crakoon.TableObjects

/-!
# Runs of calls on objects

A program has sequences, nodes, clusters and nurseries, and calls the functions that build, change and free them, in
any order. `objectStep` is one such call. Over every run no block is given back that is not held, and what is held are
the blocks of the objects that are there, the texts of routing tables that were refused, and clusters of a table that
stand behind one that was refused memory (`objects_keep_blocks`); each sequence holds the items that were added to it
(`sequences_hold_added`).
-/

namespace Crakoon

open Programs Ledger

/-- `ArakoonNursery`, in its block. -/
structure NurseryObject where
  id : Nat
  routing : Option TableObject
  deriving DecidableEq

/-- What comes of the request of `arakoon_nursery_update_routing`: the keeper has no master, it fails before there is
a text or the reply is an error, the text is cut off, or a text arrives. -/
inductive ConfigReply where
  | notConnected
  | failed (rc : Failure)
  | cut (rc : Failure)
  | text (bs : Bytes)

section Nurseries

variable (alloc : Nat → Bool)

/-- `arakoon_nursery_new` -/
def nurseryObjectNew : StoreM (Option NurseryObject) := do
  match ← storeMalloc alloc with
  | none => pure none
  | some id => pure (some ⟨id, none⟩)

/-- `_arakoon_nursery_routing_free` -/
def routingObjectFree : Option TableObject → StoreM Unit
  | none => pure ()
  | some table => tableObjectFree table

/-- `arakoon_nursery_free` -/
def nurseryObjectFree (nursery : NurseryObject) : StoreM Unit := do
  routingObjectFree nursery.routing
  storeFree (.block nursery.id)

/-- `arakoon_nursery_update_routing`. There is a block for the request and one for the text, which is not given back
where the parser refuses it. An empty text is in no block, and the parser looks at bytes behind it. -/
def nurseryObjectUpdate (version : ArakoonProtocolVersion)
    (getaddrinfo : Nat → CString → CString → Option (List Address)) (reply : ConfigReply) (nursery : NurseryObject) :
    StoreM (ArakoonRc × NurseryObject) := do
  routingObjectFree nursery.routing
  match reply with
  | .notConnected => pure (ArakoonReturnCode.clientNotConnected.rc, ⟨nursery.id, none⟩)
  | .failed rc => do
      match ← storeMalloc alloc with
      | none => pure (enomem, ⟨nursery.id, none⟩)
      | some command => do
          storeFree (.block command)
          pure (rc.1, ⟨nursery.id, none⟩)
  | .cut rc => do
      match ← storeMalloc alloc with
      | none => pure (enomem, ⟨nursery.id, none⟩)
      | some command => do
          storeFree (.block command)
          match ← storeMalloc alloc with
          | none => pure (enomem, ⟨nursery.id, none⟩)
          | some routingData => do
              storeFree (.block routingData)
              pure (rc.1, ⟨nursery.id, none⟩)
  | .text bs => do
      match ← storeMalloc alloc with
      | none => pure (enomem, ⟨nursery.id, none⟩)
      | some command => do
          storeFree (.block command)
          if bs = [] then fun _ => none
          else do
            match ← storeMalloc alloc with
            | none => pure (enomem, ⟨nursery.id, none⟩)
            | some routingData => do
                let out ← tableParse alloc getaddrinfo version bs.length bs
                if out.1 ≠ 0 then pure (out.1, ⟨nursery.id, none⟩)
                else do
                  storeFree (.block routingData)
                  pure (out.1, ⟨nursery.id, out.2⟩)

/-- What an operation does to the last error of the object is what it does to that of its cluster: whatever the
operation leaves there, the message, if there is one, is the one that it was refused with, and the object, with the
same answer to a request for memory, holds the same. -/
theorem operation_on_object {alloc : Nat → Bool} (op : Operation) (result : op.kind.Out) (w : World) :
    Ensures (Operation.run alloc op result) w fun _ w' => ∃ message granted,
      (∀ bs, message = some bs ↔ w.Refused alloc op bs) ∧
        ∀ (cluster : ClusterObject) (s : Store) (alloc' : Nat → Bool), alloc' s.calls = granted →
          Yields (clusterObjectOperation alloc' message cluster) s fun out _ =>
            out.lastError.value = w'.cluster.lastError.value ∧ { out with lastError := cluster.lastError } = cluster := by
  refine (ensures_operation_reported op result w).mono fun _ w' hreported => ?_
  have hrefused : ∀ {bs}, w.Refused alloc op bs → ∀ bs', some bs = some bs' ↔ w.Refused alloc op bs' :=
    fun h bs' => ⟨fun heq => Option.some.inj heq ▸ h, fun h' => congrArg some (h.unique h')⟩
  cases hreported with
  | nothing hlast hnone =>
      by_cases hsome : ∃ bs, w.Refused alloc op bs
      · obtain ⟨bs, hbs⟩ := hsome
        refine ⟨some bs, false, hrefused hbs, fun cluster s alloc' hcalls => ?_⟩
        refine (yields_free cluster.lastError.ptr s).bind fun _ s₁ hs₁ => ?_
        simp only [if_neg (hnone bs hbs).1]
        have hmalloc : (storeMalloc alloc').run s₁ = some (none, { s₁ with calls := s₁.calls + 1 }) :=
          if_neg (by rw [hs₁, hcalls]; exact Bool.false_ne_true)
        exact .bind_of_run hmalloc (.pure ⟨by rw [hlast], rfl⟩)
      · refine ⟨none, true, fun bs => iff_of_false (fun h => by cases h) fun h => hsome ⟨bs, h⟩, ?_⟩
        intro cluster s alloc' _
        exact (yields_free cluster.lastError.ptr s).bind fun _ _ _ => .pure ⟨by rw [hlast], rfl⟩
  | blank refused hlast =>
      refine ⟨some [], true, hrefused refused, fun cluster s alloc' _ => ?_⟩
      refine (yields_free cluster.lastError.ptr s).bind fun _ _ _ => ?_
      simp only [if_true]
      exact .pure ⟨by rw [hlast], rfl⟩
  | block message id refused hmessage hlast =>
      refine ⟨some message, true, hrefused refused, fun cluster s alloc' hcalls => ?_⟩
      refine (yields_free cluster.lastError.ptr s).bind fun _ s₁ hs₁ => ?_
      simp only [if_neg hmessage]
      have hmalloc : (storeMalloc alloc').run s₁ = some (some s₁.next, _) := if_pos (by rw [hs₁, hcalls])
      exact .bind_of_run hmalloc (.pure ⟨by rw [hlast]; rfl, rfl⟩)

/-- An operation on one of some clusters, whose last error is reset and may be set; it returns a code. -/
def clusterObjectsOperation (c : Nat) (rc : ArakoonRc) (message : Option Bytes) :
    List ClusterObject → StoreM (ArakoonRc × List ClusterObject) :=
  onFirst (fun cluster => decide (cluster.id = c)) fun cluster => do
    let cluster ← clusterObjectOperation alloc message cluster
    pure (rc, some cluster)

/-- An operation on a cluster of the table. -/
def nurseryObjectOperation (c : Nat) (rc : ArakoonRc) (message : Option Bytes) (nursery : NurseryObject) :
    StoreM (ArakoonRc × NurseryObject) := do
  match nursery.routing with
  | none => fun _ => none
  | some table => do
      let out ← clusterObjectsOperation alloc c rc message table.clusters
      pure (out.1, ⟨nursery.id, some { table with clusters := out.2 }⟩)

end Nurseries

/-- What a call returns. -/
inductive ObjectResult where
  | void
  | rc (rc : ArakoonRc)
  | pointer (p : Option Nat)
  deriving DecidableEq

/-- The objects that have been built and not been freed. Nodes that a cluster owns are in the cluster. -/
structure Objects where
  sequences : List SequenceObject
  nodes : List NodeObject
  clusters : List ClusterObject
  nurseries : List NurseryObject

structure Application where
  store : Store
  objects : Objects

def Application.empty : Application := ⟨Store.empty, ⟨[], [], [], []⟩⟩

/-- An object is named by the number of its block. -/
inductive ObjectCall where
  | sequenceNew
  | sequenceAdd (p : Nat) (add : SequenceAdd)
  | sequenceFree (p : Nat)
  | nodeNew (name : CString)
  | nodeAddAddress (p : Nat) (address : List Address)
  | nodeAddAddressTcp (p : Nat) (getaddrinfo : CString → CString → Option (List Address)) (host service : CString)
  | nodeFree (p : Nat)
  | clusterNew (version : ArakoonProtocolVersion) (name : CString)
  | clusterAddNode (c p : Nat)
  | operation (c : Nat) (rc : ArakoonRc) (message : Option Bytes)
  | clusterFree (c : Nat)
  | nurseryNew
  | nurseryUpdateRouting (n : Nat) (version : ArakoonProtocolVersion)
      (getaddrinfo : Nat → CString → CString → Option (List Address)) (reply : ConfigReply)
  | nurseryOperation (n c : Nat) (rc : ArakoonRc) (message : Option Bytes)
  | nurseryFree (n : Nat)

/-- The message of the error with which a server answers. -/
def ObjectCall.message : ObjectCall → Option Bytes
  | .operation _ _ message => message
  | .nurseryOperation _ _ _ message => message
  | _ => none

/-- The message of an error is not empty. -/
def ObjectCall.Allowed (call : ObjectCall) (_ : Application) : Prop := call.message ≠ some []

instance (call : ObjectCall) (a : Application) : Decidable (call.Allowed a) :=
  inferInstanceAs (Decidable (call.message ≠ some []))

section Calls

variable (alloc : Nat → Bool)

/-- A new object comes to stand before the others. -/
def built {γ : Type} (id : γ → Nat) (m : StoreM (Option γ)) (objects : List γ) : StoreM (ObjectResult × List γ) := do
  match ← m with
  | none => pure (.pointer none, objects)
  | some object => pure (.pointer (some (id object)), object :: objects)

/-- An object that is changed, with the code of the call. -/
def changed {γ : Type} (m : StoreM (ArakoonRc × γ)) : StoreM (ObjectResult × Option γ) := do
  let out ← m
  pure (.rc out.1, some out.2)

/-- An object that is freed. -/
def freed {γ : Type} (m : StoreM Unit) : StoreM (ObjectResult × Option γ) := do
  m
  pure (.void, none)

/-- Does `m` to the objects of one kind. -/
def onKind {γ : Type} (kind : Objects → List γ) (put : Objects → List γ → Objects)
    (m : List γ → StoreM (ObjectResult × List γ)) (o : Objects) : StoreM (ObjectResult × Objects) := do
  let out ← m (kind o)
  pure (out.1, put o out.2)

abbrev onSequences : (List SequenceObject → StoreM (ObjectResult × List SequenceObject)) → Objects →
    StoreM (ObjectResult × Objects) := onKind Objects.sequences fun o sequences => { o with sequences := sequences }

abbrev onNodes : (List NodeObject → StoreM (ObjectResult × List NodeObject)) → Objects →
    StoreM (ObjectResult × Objects) := onKind Objects.nodes fun o nodes => { o with nodes := nodes }

abbrev onClusters : (List ClusterObject → StoreM (ObjectResult × List ClusterObject)) → Objects →
    StoreM (ObjectResult × Objects) := onKind Objects.clusters fun o clusters => { o with clusters := clusters }

abbrev onNurseries : (List NurseryObject → StoreM (ObjectResult × List NurseryObject)) → Objects →
    StoreM (ObjectResult × Objects) := onKind Objects.nurseries fun o nurseries => { o with nurseries := nurseries }

/-- `arakoon_cluster_add_node`: a node that a cluster has already is refused. -/
def addNodeTo (c p : Nat) (o : Objects) : StoreM (ObjectResult × Objects) :=
  match o.nodes.find? fun node => node.id = p with
  | some node => onClusters
      (onFirst (fun cluster => decide (cluster.id = c)) fun cluster =>
        pure (.rc ArakoonReturnCode.success.rc, some (clusterObjectAddNode cluster node)))
      { o with nodes := o.nodes.erase node }
  | none =>
      if o.clusters.any fun cluster => cluster.nodes.any fun node => node.id = p then pure (.rc einval, o)
      else fun _ => none

def ObjectCall.program : ObjectCall → Objects → StoreM (ObjectResult × Objects)
  | .sequenceNew => onSequences (built SequenceObject.id (sequenceObjectNew alloc))
  | .sequenceAdd p add => onSequences
      (onFirst (fun sequence => decide (sequence.id = p)) fun sequence =>
        changed (sequenceObjectAdd alloc sequence add))
  | .sequenceFree p => onSequences
      (onFirst (fun sequence => decide (sequence.id = p)) fun sequence => freed (sequenceObjectFree sequence))
  | .nodeNew name => onNodes (built NodeObject.id (nodeObjectNew alloc name))
  | .nodeAddAddress p address => onNodes (onFirst (fun node => decide (node.id = p)) fun node => changed do
      let id ← takeAddresses
      pure (ArakoonReturnCode.success.rc, nodeObjectAddAddress node (id, address)))
  | .nodeAddAddressTcp p getaddrinfo host service => onNodes
      (onFirst (fun node => decide (node.id = p)) fun node =>
        changed (nodeObjectAddAddressTcp getaddrinfo node host service))
  | .nodeFree p => onNodes (onFirst (fun node => decide (node.id = p)) fun node => freed (nodeObjectFree node))
  | .clusterNew version name => onClusters (built ClusterObject.id (clusterObjectNew alloc version name))
  | .clusterAddNode c p => addNodeTo c p
  | .operation c rc message => onClusters fun clusters => do
      let out ← clusterObjectsOperation alloc c rc message clusters
      pure (.rc out.1, out.2)
  | .clusterFree c => onClusters
      (onFirst (fun cluster => decide (cluster.id = c)) fun cluster => freed (clusterObjectFree cluster))
  | .nurseryNew => onNurseries (built NurseryObject.id (nurseryObjectNew alloc))
  | .nurseryUpdateRouting n version getaddrinfo reply => onNurseries
      (onFirst (fun nursery => decide (nursery.id = n)) fun nursery =>
        changed (nurseryObjectUpdate alloc version getaddrinfo reply nursery))
  | .nurseryOperation n c rc message => onNurseries
      (onFirst (fun nursery => decide (nursery.id = n)) fun nursery =>
        changed (nurseryObjectOperation alloc c rc message nursery))
  | .nurseryFree n => onNurseries
      (onFirst (fun nursery => decide (nursery.id = n)) fun nursery => freed (nurseryObjectFree nursery))

/-- A call that returns. One on an object that is not there, or that aborts, does not. -/
def objectStep (call : ObjectCall) (a : Application) : Except Unit (ObjectResult × Application) :=
  match (call.program alloc a.objects).run a.store with
  | none => .error ()
  | some (out, store) => .ok (out.1, ⟨store, out.2⟩)

end Calls

/-! ### What is held -/

section Own

variable {γ : Type} (own : γ → Multiset Block)

def optionBlocks (object : Option γ) : Multiset Block := object.elim 0 own

def listBlocks (objects : List γ) : Multiset Block := (objects.map own).sum

end Own

def NurseryObject.blocks (nursery : NurseryObject) : Multiset Block :=
  nursery.routing.elim 0 TableObject.blocks + {.memory nursery.id}

def Objects.blocks (o : Objects) : Multiset Block :=
  listBlocks SequenceObject.blocks o.sequences + listBlocks NodeObject.blocks o.nodes +
    listBlocks ClusterObject.blocks o.clusters + listBlocks NurseryObject.blocks o.nurseries

/-- What is held is what a call leaves, and what it loses. -/
def Leaves {γ β : Type} (own : γ → Multiset Block) (L : β → Multiset Block → Prop) (out : β × γ) (hs : Multiset Block) :
    Prop := ∃ lost, hs = own out.2 + lost ∧ L out.1 lost

def noLoss {β : Type} : β → Multiset Block → Prop := fun _ lost => lost = 0

theorem Leaves.kept {γ β : Type} {own : γ → Multiset Block} {out : β × γ} {hs : Multiset Block} (h : hs = own out.2) :
    Leaves own noLoss out hs := ⟨0, by rw [h, add_zero], rfl⟩

/-- A text that the parser refuses. -/
def refusedText (rc : ArakoonRc) : Nat := if rc = ArakoonReturnCode.clientNurseryInvalidRouting.rc then 1 else 0

/-- How many texts a call leaves behind at most. -/
def ObjectCall.refused : ObjectCall → ObjectResult → Nat
  | .nurseryUpdateRouting _ _ _ _, .rc rc => refusedText rc
  | _, _ => 0

def refusals (history : List (ObjectCall × ObjectResult)) : Nat := (history.map fun e => e.1.refused e.2).sum

section Lost

variable (alloc : Nat → Bool)

/-- What may be lost: clusters of tables, where memory is refused, and at most `n` texts. -/
def Lost (n : Nat) (lost : Multiset Block) : Prop :=
  ∃ strays texts, lost = clusterBlocks strays + texts ∧ ((∀ n, alloc n = true) → strays = []) ∧ texts.card ≤ n

/-- What a call may lose: only a call that parses a table loses something. -/
def ObjectCall.Loses : ObjectCall → ObjectResult → Multiset Block → Prop
  | .nurseryUpdateRouting _ _ _ _, .rc rc, lost => Lost alloc (refusedText rc) lost
  | _, _, lost => lost = 0

variable {alloc} {m n : Nat} {lost lost' : Multiset Block}

theorem Lost.none : Lost alloc n 0 := ⟨[], 0, rfl, fun _ => rfl, Nat.zero_le n⟩

theorem Lost.add (h : Lost alloc m lost) (h' : Lost alloc n lost') : Lost alloc (m + n) (lost + lost') := by
  obtain ⟨strays, texts, rfl, hnone, htexts⟩ := h
  obtain ⟨strays', texts', rfl, hnone', htexts'⟩ := h'
  refine ⟨strays ++ strays', texts + texts', ?_, fun halloc => ?_, ?_⟩
  · have hstrays : clusterBlocks (strays ++ strays') = clusterBlocks strays + clusterBlocks strays' := by
      rw [clusterBlocks, List.map_append, List.sum_append, clusterBlocks, clusterBlocks]
    rw [hstrays]
    abel
  · rw [hnone halloc, hnone' halloc, List.append_nil]
  · rw [Multiset.card_add]
    exact Nat.add_le_add htexts htexts'

theorem lost_of_loses {call : ObjectCall} {r : ObjectResult} (h : call.Loses alloc r lost) :
    Lost alloc (call.refused r) lost := by
  unfold ObjectCall.Loses at h
  split at h
  · exact h
  · subst h
    exact .none

end Lost

section Custody

variable {alloc : Nat → Bool}

theorem custody_nurseryNew : InStore (nurseryObjectNew alloc) 0 fun nursery hs =>
    hs = nursery.elim 0 NurseryObject.blocks := by
  refine custody_malloc.bind fun p hs hp => ?_
  cases p with
  | none => exact .pure hp
  | some id => exact .pure (hp.trans (zero_add _).symm)

theorem custody_routingFree (routing : Option TableObject) :
    InStore (routingObjectFree routing) (routing.elim 0 TableObject.blocks) fun _ hs => hs = 0 := by
  cases routing with
  | none => exact .pure rfl
  | some table => exact custody_tableFree table

theorem custody_nurseryFree (nursery : NurseryObject) :
    InStore (nurseryObjectFree nursery) nursery.blocks fun _ hs => hs = 0 :=
  (custody_routingFree nursery.routing).bind_give fun _ => custody_free (.block nursery.id)

/-- The nursery keeps its block and those of its new table. A text is lost only where the parser refuses it. -/
theorem custody_nurseryUpdate (version : ArakoonProtocolVersion)
    (getaddrinfo : Nat → CString → CString → Option (List Address)) (reply : ConfigReply) (nursery : NurseryObject) :
    InStore (nurseryObjectUpdate alloc version getaddrinfo reply nursery) nursery.blocks
      (Leaves NurseryObject.blocks fun rc lost => Lost alloc (refusedText rc) lost) := by
  have hempty : (⟨nursery.id, none⟩ : NurseryObject).blocks = {.memory nursery.id} := zero_add _
  -- an end at which nothing is held but the nursery
  have hbare : ∀ rc, InStore (pure (rc, (⟨nursery.id, none⟩ : NurseryObject))) {.memory nursery.id}
      (Leaves NurseryObject.blocks fun rc lost => Lost alloc (refusedText rc) lost) :=
    fun rc => .pure ⟨0, by rw [hempty, add_zero], .none⟩
  refine (custody_routingFree nursery.routing).bind_give fun _ => ?_
  cases reply with
  | notConnected => exact hbare _
  | failed rc =>
      refine custody_malloc.bind_take fun p _ hp => ?_
      rw [hp]
      cases p with
      | none => exact (hbare _).congr (zero_add _).symm
      | some command => exact (custody_free (.block command)).bind_give fun _ => hbare _
  | cut rc =>
      refine custody_malloc.bind_take fun p _ hp => ?_
      rw [hp]
      cases p with
      | none => exact (hbare _).congr (zero_add _).symm
      | some command =>
          refine (custody_free (.block command)).bind_give fun _ => ?_
          refine custody_malloc.bind_take fun q _ hq => ?_
          rw [hq]
          cases q with
          | none => exact (hbare _).congr (zero_add _).symm
          | some routingData => exact (custody_free (.block routingData)).bind_give fun _ => hbare _
  | text bs =>
      refine custody_malloc.bind_take fun p _ hp => ?_
      rw [hp]
      cases p with
      | none => exact (hbare _).congr (zero_add _).symm
      | some command =>
          refine (custody_free (.block command)).bind_give fun _ => .ite (fun _ => .abort) fun _ => ?_
          refine custody_malloc.bind_take fun q _ hq => ?_
          rw [hq]
          cases q with
          | none => exact (hbare _).congr (zero_add _).symm
          | some routingData =>
              refine (custody_tableParse bs.length bs).bind_take fun out _ hout => ?_
              obtain ⟨⟨strays, hheld, hnone⟩, hthere, hcode⟩ := hout
              rw [hheld, add_left_comm]
              refine .ite (fun hrc => ?_) fun hrc => ?_
              · have hrefused : out.2 = none := Option.not_isSome_iff_eq_none.mp fun hsome => hrc (hthere.mpr hsome)
                refine .pure ⟨clusterBlocks strays + {.memory routingData}, ?_, strays, {.memory routingData}, rfl,
                  hnone, ?_⟩
                · rw [hrefused, hempty, Option.elim_none, Option.elim_some]
                  abel
                · rw [refusedText, if_pos (hcode hrc)]
                  rfl
              · refine (custody_free (.block routingData)).bind_give fun _ => .pure ⟨clusterBlocks strays, ?_, strays, 0,
                  (add_zero _).symm, hnone, Nat.zero_le _⟩
                rw [NurseryObject.blocks]
                abel

theorem custody_clustersOperation (c : Nat) (rc : ArakoonRc) {message : Option Bytes} (hmessage : message ≠ some [])
    (clusters : List ClusterObject) :
    InStore (clusterObjectsOperation alloc c rc message clusters) (clusterBlocks clusters)
      (Leaves clusterBlocks noLoss) := by
  refine Custody.onFirst (L := noLoss) (fun cluster => ?_) clusters
  refine (custody_operation hmessage cluster).bind fun out hs hout => .pure ⟨0, ?_, rfl⟩
  rw [hout, add_zero]
  rfl

theorem custody_nurseryOperation (c : Nat) (rc : ArakoonRc) {message : Option Bytes} (hmessage : message ≠ some [])
    (nursery : NurseryObject) :
    InStore (nurseryObjectOperation alloc c rc message nursery) nursery.blocks
      (Leaves NurseryObject.blocks noLoss) := by
  obtain ⟨id, routing⟩ := nursery
  cases routing with
  | none => exact .abort
  | some table =>
      have hsplit : ∀ clusters, (⟨id, some { table with clusters := clusters }⟩ : NurseryObject).blocks =
          clusterBlocks clusters +
            (table.root.blocks + {.memory table.arrayId} + {.memory table.id} + {.memory id}) := by
        intro clusters
        simp only [NurseryObject.blocks, TableObject.blocks, Option.elim_some]
        abel
      refine Custody.congr ?_ (hsplit table.clusters).symm
      refine (custody_clustersOperation c rc hmessage table.clusters).bind_frame fun out hs₁ hleaves => ?_
      obtain ⟨lost, hheld, hlost⟩ := hleaves
      refine .pure ⟨lost, ?_, hlost⟩
      rw [hheld, hsplit]
      abel

/-! ### Calls and runs -/

section Kinds

variable {γ : Type} {own : γ → Multiset Block} {L : ObjectResult → Multiset Block → Prop}

theorem custody_built {m : StoreM (Option γ)} (hm : InStore m 0 fun p hs => hs = p.elim 0 own) (id : γ → Nat)
    (objects : List γ) :
    InStore (built id m objects) (listBlocks own objects) (Leaves (listBlocks own) noLoss) := by
  refine hm.bind_take fun p hs hp => ?_
  cases p with
  | none => exact .pure (.kept (by rw [hp, Option.elim_none, zero_add]))
  | some object =>
      refine .pure (.kept ?_)
      rw [hp, Option.elim_some, listBlocks, listBlocks, List.map_cons, List.sum_cons]

theorem custody_changed {m : StoreM (ArakoonRc × γ)} {hs : Multiset Block}
    (hm : InStore m hs (Leaves own fun rc => L (.rc rc))) :
    InStore (changed m) hs (Leaves (optionBlocks own) L) := hm.bind fun _ _ hout => .pure hout

/-- An object that is changed without a loss. -/
theorem custody_kept {m : StoreM (ArakoonRc × γ)} {hs : Multiset Block}
    (hm : InStore m hs fun out hs => hs = own out.2) : InStore (changed m) hs (Leaves (optionBlocks own) noLoss) :=
  custody_changed (hm.mono fun _ _ hheld => .kept hheld)

theorem custody_freed {m : StoreM Unit} {hs : Multiset Block} (hm : InStore m hs fun _ hs => hs = 0) :
    InStore (freed m) hs (Leaves (optionBlocks own) noLoss) := hm.bind fun _ _ hheld => .pure (.kept hheld)

theorem custody_onObject {picked : γ → Bool} {m : γ → StoreM (ObjectResult × Option γ)}
    (h : ∀ object, InStore (m object) (own object) (Leaves (optionBlocks own) L)) (objects : List γ) :
    InStore (onFirst picked m objects) (listBlocks own objects) (Leaves (listBlocks own) L) :=
  Custody.onFirst h objects

/-- The objects of the other kinds keep their blocks. -/
theorem custody_onKind {kind : Objects → List γ} {put : Objects → List γ → Objects}
    {m : List γ → StoreM (ObjectResult × List γ)} {o : Objects} (others : Multiset Block)
    (hkind : put o (kind o) = o) (hput : ∀ l, (put o l).blocks = listBlocks own l + others)
    (hm : InStore (m (kind o)) (listBlocks own (kind o)) (Leaves (listBlocks own) L)) :
    InStore (onKind kind put m o) o.blocks (Leaves Objects.blocks L) := by
  have hblocks : o.blocks = listBlocks own (kind o) + others := (congrArg Objects.blocks hkind).symm.trans (hput (kind o))
  rw [hblocks]
  refine hm.bind_frame fun out hs₁ ⟨lost, hheld, hlost⟩ => .pure ⟨lost, ?_, hlost⟩
  rw [hheld, hput]
  abel

end Kinds

section Objects

variable {o : Objects} {L : ObjectResult → Multiset Block → Prop}

theorem custody_onSequences {m : List SequenceObject → StoreM (ObjectResult × List SequenceObject)}
    (hm : InStore (m o.sequences) (listBlocks SequenceObject.blocks o.sequences)
      (Leaves (listBlocks SequenceObject.blocks) L)) :
    InStore (onSequences m o) o.blocks (Leaves Objects.blocks L) :=
  custody_onKind (listBlocks NodeObject.blocks o.nodes + listBlocks ClusterObject.blocks o.clusters +
    listBlocks NurseryObject.blocks o.nurseries) rfl (fun l => by simp only [Objects.blocks]; abel) hm

theorem custody_onNodes {m : List NodeObject → StoreM (ObjectResult × List NodeObject)}
    (hm : InStore (m o.nodes) (listBlocks NodeObject.blocks o.nodes)
      (Leaves (listBlocks NodeObject.blocks) L)) :
    InStore (onNodes m o) o.blocks (Leaves Objects.blocks L) :=
  custody_onKind (listBlocks SequenceObject.blocks o.sequences + listBlocks ClusterObject.blocks o.clusters +
    listBlocks NurseryObject.blocks o.nurseries) rfl (fun l => by simp only [Objects.blocks]; abel) hm

theorem custody_onClusters {m : List ClusterObject → StoreM (ObjectResult × List ClusterObject)}
    (hm : InStore (m o.clusters) (listBlocks ClusterObject.blocks o.clusters)
      (Leaves (listBlocks ClusterObject.blocks) L)) :
    InStore (onClusters m o) o.blocks (Leaves Objects.blocks L) :=
  custody_onKind (listBlocks SequenceObject.blocks o.sequences + listBlocks NodeObject.blocks o.nodes +
    listBlocks NurseryObject.blocks o.nurseries) rfl (fun l => by simp only [Objects.blocks]; abel) hm

theorem custody_onNurseries {m : List NurseryObject → StoreM (ObjectResult × List NurseryObject)}
    (hm : InStore (m o.nurseries) (listBlocks NurseryObject.blocks o.nurseries)
      (Leaves (listBlocks NurseryObject.blocks) L)) :
    InStore (onNurseries m o) o.blocks (Leaves Objects.blocks L) :=
  custody_onKind (listBlocks SequenceObject.blocks o.sequences + listBlocks NodeObject.blocks o.nodes +
    listBlocks ClusterObject.blocks o.clusters) rfl (fun _ => add_comm _ _) hm

/-- A node goes over to a cluster with its blocks. -/
theorem custody_addNodeTo (c p : Nat) (o : Objects) :
    InStore (addNodeTo c p o) o.blocks (Leaves Objects.blocks noLoss) := by
  unfold addNodeTo
  cases hfind : o.nodes.find? fun node => node.id = p with
  | none => exact .ite (fun _ => .pure (.kept rfl)) fun _ => .abort
  | some node =>
      have hnodes : listBlocks NodeObject.blocks o.nodes =
          node.blocks + listBlocks NodeObject.blocks (o.nodes.erase node) := by
        have hperm := (List.perm_cons_erase (List.mem_of_find?_eq_some hfind)).map NodeObject.blocks
        rw [listBlocks, hperm.sum_eq, List.map_cons, List.sum_cons, listBlocks]
      have hsplit : o.blocks = listBlocks ClusterObject.blocks o.clusters + node.blocks +
          (listBlocks SequenceObject.blocks o.sequences + listBlocks NodeObject.blocks (o.nodes.erase node) +
            listBlocks NurseryObject.blocks o.nurseries) := by
        rw [Objects.blocks, hnodes]
        abel
      rw [hsplit]
      have hadd : ∀ cluster : ClusterObject, InStore
          (pure (ObjectResult.rc ArakoonReturnCode.success.rc, some (clusterObjectAddNode cluster node)))
          (cluster.blocks + node.blocks) (Leaves (optionBlocks ClusterObject.blocks) noLoss) := by
        intro cluster
        refine .pure (.kept ?_)
        rw [optionBlocks, Option.elim_some, addNode_blocks, add_comm]
      refine (Custody.onFirst_given (L := noLoss) hadd o.clusters).bind_frame
        fun out hs₁ ⟨lost, hheld, hlost⟩ => .pure ⟨lost, ?_, hlost⟩
      rw [hheld, Objects.blocks]
      simp only [listBlocks]
      abel

/-- A call keeps the blocks of the objects. -/
theorem custody_program {call : ObjectCall} {a : Application} (hallowed : call.Allowed a) (o : Objects) :
    InStore (call.program alloc o) o.blocks (Leaves Objects.blocks (call.Loses alloc)) := by
  cases call with
  | sequenceNew => exact custody_onSequences (custody_built custody_sequenceNew _ _)
  | sequenceAdd p add =>
      exact custody_onSequences
        (custody_onObject (fun sequence => custody_kept (custody_sequenceAdd sequence add)) _)
  | sequenceFree p =>
      exact custody_onSequences
        (custody_onObject (fun sequence => custody_freed (custody_sequenceFree sequence)) _)
  | nodeNew name => exact custody_onNodes (custody_built (custody_nodeNew name) _ _)
  | nodeAddAddress p address =>
      refine custody_onNodes (custody_onObject (fun node => custody_kept ?_) _)
      refine custody_takeAddresses.bind_take fun id _ hid => .pure ?_
      rw [hid, addAddress_blocks]
  | nodeAddAddressTcp p getaddrinfo host service =>
      exact custody_onNodes
        (custody_onObject (fun node => custody_kept (custody_addAddressTcp getaddrinfo node host service)) _)
  | nodeFree p =>
      exact custody_onNodes (custody_onObject (fun node => custody_freed (custody_nodeFree node)) _)
  | clusterNew version name =>
      exact custody_onClusters (custody_built (custody_clusterNew version name) _ _)
  | clusterAddNode c p => exact custody_addNodeTo c p o
  | operation c rc message =>
      exact custody_onClusters (L := noLoss) (m := fun clusters => do
        let out ← clusterObjectsOperation alloc c rc message clusters
        pure (.rc out.1, out.2)) ((custody_clustersOperation c rc hallowed _).bind fun _ _ hout => .pure hout)
  | clusterFree c =>
      exact custody_onClusters
        (custody_onObject (fun cluster => custody_freed (custody_clusterFree cluster)) _)
  | nurseryNew => exact custody_onNurseries (custody_built custody_nurseryNew _ _)
  | nurseryUpdateRouting n version getaddrinfo reply =>
      exact custody_onNurseries (custody_onObject
        (fun nursery => custody_changed (custody_nurseryUpdate version getaddrinfo reply nursery)) _)
  | nurseryOperation n c rc message =>
      exact custody_onNurseries (custody_onObject
        (fun nursery => custody_changed (custody_nurseryOperation c rc hallowed nursery)) _)
  | nurseryFree n =>
      exact custody_onNurseries
        (custody_onObject (fun nursery => custody_freed (custody_nurseryFree nursery)) _)

end Objects

end Custody

section Runs

variable {alloc : Nat → Bool}

theorem objectStep_eq_ok {call : ObjectCall} {a a' : Application} {r : ObjectResult}
    (h : objectStep alloc call a = .ok (r, a')) :
    (call.program alloc a.objects).run a.store = some ((r, a'.objects), a'.store) := by
  unfold objectStep at h
  split at h
  · cases h
  · obtain ⟨rfl, rfl⟩ := Prod.mk.inj (Except.ok.inj h)
    assumption

variable {history : List (ObjectCall × ObjectResult)} {a : Application}

/-- The objects own what is held, but for what has been lost. -/
theorem objects_owned (h : Run (objectStep alloc) ObjectCall.Allowed Application.empty history a) :
    ∃ lost, Owns a.store.account (a.objects.blocks + lost) ∧ Lost alloc (refusals history) lost := by
  have hstart : Owns Application.empty.store.account Application.empty.objects.blocks := ⟨trivial, rfl⟩
  refine h.custody (fun a => a.store.account) (fun a => a.objects.blocks) (Lost alloc) .none (fun h h' => h.add h') hstart
    fun call a r a' others hallowed hstep howns => ?_
  obtain ⟨hs, ⟨lost, rfl, hlost⟩, howns'⟩ :=
    custody_program hallowed a.objects a.store others howns _ _ (objectStep_eq_ok hstep)
  exact ⟨lost, howns', lost_of_loses hlost⟩

theorem objects_nodup (h : Run (objectStep alloc) ObjectCall.Allowed Application.empty history a) :
    a.objects.blocks.Nodup := by
  obtain ⟨lost, howns, -⟩ := objects_owned h
  have hheld : (a.objects.blocks + lost).Nodup := howns.held ▸ Multiset.coe_nodup.mpr a.store.fresh.nodup
  exact Multiset.nodup_of_le (Multiset.le_add_right _ _) hheld

end Runs

theorem ids_nodup {γ : Type} {own : γ → Multiset Block} {id : γ → Nat}
    (hown : ∀ object, {.memory (id object)} ≤ own object) {objects : List γ}
    (h : (listBlocks own objects).Nodup) : (objects.map id).Nodup := by
  have hle : ((objects.map fun object => Block.memory (id object) : List Block) : Multiset Block) ≤
      listBlocks own objects := by
    clear h
    induction objects with
    | nil => exact le_rfl
    | cons object objects ih =>
        rw [listBlocks, List.map_cons, List.map_cons, List.sum_cons, ← Multiset.cons_coe, ← Multiset.singleton_add]
        exact add_le_add (hown object) ih
  have hnodup : (objects.map fun object => Block.memory (id object)).Nodup :=
    Multiset.coe_nodup.mp (Multiset.nodup_of_le hle h)
  refine List.Nodup.of_map Block.memory ?_
  rwa [List.map_map]

theorem listBlocks_le (o : Objects) : listBlocks SequenceObject.blocks o.sequences ≤ o.blocks ∧
    listBlocks NodeObject.blocks o.nodes ≤ o.blocks ∧ listBlocks ClusterObject.blocks o.clusters ≤ o.blocks := by
  have hfirst : listBlocks SequenceObject.blocks o.sequences + listBlocks NodeObject.blocks o.nodes +
      listBlocks ClusterObject.blocks o.clusters ≤ o.blocks := Multiset.le_add_right _ _
  have hpair : listBlocks SequenceObject.blocks o.sequences + listBlocks NodeObject.blocks o.nodes ≤ o.blocks :=
    (Multiset.le_add_right _ _).trans hfirst
  exact ⟨(Multiset.le_add_right _ _).trans hpair, (Multiset.le_add_left _ _).trans hpair,
    (Multiset.le_add_left _ _).trans hfirst⟩

theorem sequenceIds_nodup {o : Objects} (h : o.blocks.Nodup) : (o.sequences.map SequenceObject.id).Nodup :=
  ids_nodup (fun _ => Multiset.le_add_left _ _) (Multiset.nodup_of_le (listBlocks_le o).1 h)

/-- What was added to the sequence in the block `p` since it was built, in the order in which it was added. -/
def additions (p : Nat) : List (ObjectCall × ObjectResult) → List SequenceAdd
  | [] => []
  | (.sequenceNew, .pointer (some q)) :: history => if q = p then [] else additions p history
  | (.sequenceAdd q add, .rc rc) :: history =>
      if q = p ∧ rc = 0 then additions p history ++ [add] else additions p history
  | _ :: history => additions p history

/-- What a call does to the sequences. -/
inductive SequencesStep : ObjectCall → ObjectResult → List SequenceObject → List SequenceObject → Prop where
  | built (id : Nat) (objects : List SequenceObject) :
      SequencesStep .sequenceNew (.pointer (some id)) objects (⟨id, []⟩ :: objects)
  | added {sequence sequence' : SequenceObject} {add : SequenceAdd} (before after : List SequenceObject)
      (hid : sequence'.id = sequence.id) (hadmissible : add.Admissible)
      (hrun : add.run sequence.sequence = some sequence'.sequence) :
      SequencesStep (.sequenceAdd sequence.id add) (.rc 0) (before ++ sequence :: after) (before ++ sequence' :: after)
  | fewer {call : ObjectCall} {r : ObjectResult} {objects objects' : List SequenceObject} (hsub : objects' ⊆ objects)
      (hkept : ∀ p history, additions p ((call, r) :: history) = additions p history) :
      SequencesStep call r objects objects'

section Sequences

variable {alloc : Nat → Bool}

theorem ensures_addNodeTo (c p : Nat) (o : Objects) (s : Store) :
    Ensures (addNodeTo c p o) s fun out _ => out.2.sequences = o.sequences := by
  unfold addNodeTo
  split
  · exact Ensures.bind_any fun _ _ => .pure rfl
  · refine .ite (fun _ => .pure rfl) fun _ out s' hrun => ?_
    cases hrun

theorem ensures_program (call : ObjectCall) (o : Objects) (s : Store) :
    Ensures (call.program alloc o) s fun out _ => SequencesStep call out.1 o.sequences out.2.sequences := by
  -- a call that does nothing to the sequences
  have hother : ∀ {m : StoreM (ObjectResult × Objects)},
      (∀ r p history, additions p ((call, r) :: history) = additions p history) →
      (Ensures m s fun out _ => out.2.sequences = o.sequences) →
      Ensures m s fun out _ => SequencesStep call out.1 o.sequences out.2.sequences :=
    fun hkept hm => hm.mono fun out _ hout => .fewer (hout ▸ List.Subset.refl _) (hkept out.1)
  cases call with
  | sequenceNew =>
      refine Ensures.bind (P := fun out _ => SequencesStep .sequenceNew out.1 o.sequences out.2) ?_
        fun out _ hout => .pure hout
      refine Ensures.bind (P := fun object _ => ∀ sequence, object = some sequence → sequence.items = []) ?_ ?_
      · refine Ensures.bind_any fun p _ => ?_
        cases p with
        | none => exact .pure fun sequence h => by cases h
        | some id => exact .pure fun sequence h => Option.some.inj h ▸ rfl
      · intro object _ hobject
        cases object with
        | none => exact .pure (.fewer (List.Subset.refl _) fun _ _ => rfl)
        | some sequence =>
            obtain ⟨id, items⟩ := sequence
            obtain rfl : items = [] := hobject _ rfl
            exact .pure (.built id o.sequences)
  | sequenceAdd p add =>
      refine Ensures.bind (P := fun out _ => SequencesStep (.sequenceAdd p add) out.1 o.sequences out.2) ?_
        fun out _ hout => .pure hout
      refine (ensures_onFirst (P := fun sequence r left => ∃ sequence', left = some sequence' ∧
        (r = .rc 0 ∧ sequence'.id = sequence.id ∧ add.Admissible ∧
            add.run sequence.sequence = some sequence'.sequence ∨
          r = .rc enomem ∧ sequence' = sequence)) (fun sequence s => ?_) o.sequences s).mono ?_
      · refine (ensures_sequenceAdd sequence add s).bind fun out _ hout => .pure ⟨out.2, rfl, ?_⟩
        rcases hout with ⟨hrc, hrest⟩ | ⟨hrc, hsame⟩
        · exact .inl ⟨congrArg ObjectResult.rc hrc, hrest⟩
        · exact .inr ⟨congrArg ObjectResult.rc hrc, hsame⟩
      · rintro ⟨r, objects⟩ _ ⟨before, sequence, after, left, hobjects, hpicked, ⟨sequence', rfl, hout⟩, rfl⟩
        obtain rfl : sequence.id = p := of_decide_eq_true hpicked
        rw [hobjects]
        rcases hout with ⟨rfl, hid, hadmissible, hrun⟩ | ⟨rfl, rfl⟩
        · exact .added before after hid hadmissible hrun
        · exact .fewer (List.Subset.refl _) fun q history => if_neg fun h => by simp [enomem] at h
  | sequenceFree p =>
      refine Ensures.bind (P := fun out _ => SequencesStep (.sequenceFree p) out.1 o.sequences out.2) ?_
        fun out _ hout => .pure hout
      refine (ensures_onFirst (P := fun _ _ left => left = none) (fun sequence s => ?_) o.sequences s).mono ?_
      · exact Ensures.bind_any fun _ _ => .pure rfl
      · rintro ⟨r, objects⟩ _ ⟨before, sequence, after, left, hobjects, -, rfl, rfl⟩
        refine .fewer (fun x hx => ?_) fun _ _ => rfl
        rw [hobjects]
        simp only [Option.toList_none, List.nil_append, List.mem_append] at hx
        exact List.mem_append.mpr (hx.imp_right (List.mem_cons_of_mem _))
  | clusterAddNode c p => exact hother (fun _ _ _ => rfl) (ensures_addNodeTo c p o s)
  | _ => exact hother (fun _ _ _ => rfl) (Ensures.bind_any fun _ _ => .pure rfl)

variable {history : List (ObjectCall × ObjectResult)} {a : Application}

/-- The sequences hold what was added to them. -/
def SequencesHold (history : List (ObjectCall × ObjectResult)) (objects : List SequenceObject) : Prop :=
  ∀ sequence ∈ objects, (∀ add ∈ additions sequence.id history, add.Admissible) ∧
    sequenceBuild (additions sequence.id history) = some sequence.sequence

theorem SequencesStep.holds {call : ObjectCall} {r : ObjectResult} {objects objects' : List SequenceObject}
    (h : SequencesStep call r objects objects') (hbefore : (objects.map SequenceObject.id).Nodup)
    (hafter : (objects'.map SequenceObject.id).Nodup) (hold : SequencesHold history objects) :
    SequencesHold ((call, r) :: history) objects' := by
  cases h with
  | built id =>
      intro sequence hmem
      rcases List.mem_cons.mp hmem with rfl | hold'
      · rw [additions, if_pos rfl]
        exact ⟨fun _ hadd => absurd hadd List.not_mem_nil, rfl⟩
      · have hne : id ≠ sequence.id := by
          rintro rfl
          exact (List.nodup_cons.mp hafter).1 (List.mem_map.mpr ⟨sequence, hold', rfl⟩)
        rw [additions, if_neg hne]
        exact hold sequence hold'
  | @added old new add before after hid hadmissible hrun =>
      intro sequence hmem
      rw [List.map_append, List.map_cons, List.nodup_middle, List.nodup_cons, ← List.map_append] at hbefore
      rw [additions]
      rcases (List.mem_append.mp hmem).imp_right List.mem_cons.mp with hmem | rfl | hmem
      · have hne : old.id ≠ sequence.id := fun h => hbefore.1 (h ▸ List.mem_map_of_mem (List.mem_append_left _ hmem))
        rw [if_neg fun h => hne h.1]
        exact hold sequence (List.mem_append_left _ hmem)
      · obtain ⟨hadds, hbuild⟩ := hold old (List.mem_append_right _ List.mem_cons_self)
        rw [if_pos ⟨hid.symm, rfl⟩, hid]
        refine ⟨fun x hx => ?_, ?_⟩
        · rcases List.mem_append.mp hx with hx | hx
          · exact hadds x hx
          · exact List.mem_singleton.mp hx ▸ hadmissible
        · rw [sequenceBuild] at hbuild ⊢
          rw [List.foldlM_append, hbuild]
          exact (bind_pure (add.run old.sequence)).trans hrun
      · have hne : old.id ≠ sequence.id := fun h => hbefore.1 (h ▸ List.mem_map_of_mem (List.mem_append_right _ hmem))
        rw [if_neg fun h => hne h.1]
        exact hold sequence (List.mem_append_right _ (List.mem_cons_of_mem _ hmem))
  | fewer hsub hkept =>
      intro sequence hmem
      rw [hkept]
      exact hold sequence (hsub hmem)

theorem sequences_hold (h : Run (objectStep alloc) ObjectCall.Allowed Application.empty history a) :
    SequencesHold history a.objects.sequences := by
  induction h with
  | nil => exact fun _ hmem => absurd hmem List.not_mem_nil
  | @call history a a' call r before hallowed hstep ih =>
      have hafter := sequenceIds_nodup (objects_nodup (before.call hallowed hstep))
      exact (ensures_program call a.objects a.store _ _ (objectStep_eq_ok hstep)).holds
        (sequenceIds_nodup (objects_nodup before)) hafter ih

/-- In every run over any objects, a sequence holds exactly what the calls added to it that returned success, in their
order, and the request that is built of it reads back as these items. -/
theorem sequences_hold_added (h : Run (objectStep alloc) ObjectCall.Allowed Application.empty history a)
    {sequence : SequenceObject} (hsequence : sequence ∈ a.objects.sequences) (code : UInt8)
    (hlen : sequenceTotal ((additions sequence.id history).map SequenceAdd.item) < 2 ^ 32) :
    sequenceBuild (additions sequence.id history) = some sequence.sequence ∧
      ∃ block, sequenceImpl code sequence.sequence = some block ∧
        ∀ fresh rest, readSequence.run (block.bytes fresh ++ rest) =
          .ok (⟨code, block.len - commandLen - uint32Len, (additions sequence.id history).length,
            (additions sequence.id history).map SequenceAdd.item⟩, rest) := by
  obtain ⟨hadds, hbuild⟩ := sequences_hold h sequence hsequence
  refine ⟨hbuild, ?_⟩
  have hcount := length_le_sequenceTotal ((additions sequence.id history).map SequenceAdd.item)
  have htotal : sequenceTotal ((additions sequence.id history).map SequenceAdd.item) < 2 ^ 64 := by omega
  have hitems : ((additions sequence.id history).map SequenceAdd.item).length < 2 ^ 32 := by omega
  obtain ⟨block, himpl, hblock, hlaid, hbytes⟩ := sequenceImpl_spec code htotal hitems
  rw [← Option.some.inj ((sequenceBuild_items hadds).symm.trans hbuild)]
  refine ⟨block, himpl, fun fresh rest => ?_⟩
  rw [bytes_of_laid fresh hlaid, hbytes, parses_sequence code hlen rest, List.length_map, hblock, Nat.sub_right_comm]

/-- Two sequences that are built side by side, the latest call first. -/
def callsOnTwo : List ObjectCall :=
  [.sequenceAdd 0 (.assert [1] (.null 0)), .sequenceAdd 1 (.delete [9]), .sequenceAdd 0 (.set [1] [2]), .sequenceNew,
    .sequenceNew]

def resultsOnTwo : List ObjectResult := [.rc 0, .rc 0, .rc 0, .pointer (some 1), .pointer (some 0)]

theorem sequences_hold_added_two : ∃ sequence : SequenceObject, sequence.id = 0 ∧
    sequenceBuild [.set [1] [2], .assert [1] (.null 0)] = some sequence.sequence ∧
      ∃ block, sequenceImpl 0x10 sequence.sequence = some block ∧
        ∀ fresh rest, readSequence.run (block.bytes fresh ++ rest) =
          .ok (⟨0x10, block.len - commandLen - uint32Len, 2, [.set [1] [2], .assert [1] none]⟩, rest) := by
  have hexecute : (execute (objectStep fun _ => true) ObjectCall.Allowed callsOnTwo .empty).map
      (fun out => (out.1, out.2.objects.sequences.map SequenceObject.id)) = some (resultsOnTwo, [1, 0]) := by
    decide +kernel
  obtain ⟨⟨results, a⟩, hout, heq⟩ := Option.map_eq_some_iff.mp hexecute
  obtain ⟨rfl, hids⟩ := Prod.mk.inj heq
  have hmem : 0 ∈ a.objects.sequences.map SequenceObject.id := hids ▸ by decide
  obtain ⟨sequence, hsequence, hid⟩ := List.mem_map.mp hmem
  have hadditions : additions sequence.id (callsOnTwo.zip resultsOnTwo) =
      [.set [1] [2], .assert [1] (.null 0)] := by
    rw [hid]
    rfl
  have hholds := sequences_hold_added (.of_execute hout) hsequence 0x10 (by rw [hadditions]; decide)
  rw [hadditions] at hholds
  exact ⟨sequence, hid, hholds⟩

end Sequences

end Crakoon
