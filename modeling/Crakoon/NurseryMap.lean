import Crakoon.Nursery
import Crakoon.ServedRuns
import Mathlib.Logic.Function.Basic

/-!
# A nursery is one map

A nursery sends each operation on a key to the cluster that its table has for the key. If each of these clusters
keeps a value for each key, the nursery does: over a run of operations on keys, whatever happens on the connections,
a value that is read is the one that the calls before have left there.
-/

namespace Crakoon

open Programs Reading

def Reply.granted {kind : ReplyKind} : Reply kind → Bool
  | .error _ _ => false
  | .payload _ => true

theorem Reply.Told.granted_iff {kind : ReplyKind} {r : Reply kind} {failed : kind.Out} {bs : Bytes}
    {out : ArakoonRc × kind.Out} (h : r.Told failed out) (hword : r.Word bs) : out.1 = 0 ↔ r.granted = true := by
  cases r with
  | error code message =>
      obtain ⟨hne, hcode, -⟩ := hword
      simp only [Told] at h
      rw [h, int32_eq_zero hcode]
      exact iff_of_false hne Bool.false_ne_true
  | payload p => exact iff_of_true h.1 rfl

/-- What `view` shows of the state of the server is a map from keys to values. Requests that are granted read and
write it; a request that is refused leaves it as it is. A dirty read may give any value. -/
structure Server.KeepsMap {σ : Type} (server : Server σ) (view : σ → Bytes → Option Bytes) : Prop where
  get : ∀ s dirty key, view (server.next s (.get dirty key)) = view s
  found : ∀ s key value, (Reply.payload value : Reply .string).Word (server.exec (.get false key) s).1 →
    view s key = some value
  set : ∀ s key value (r : Reply .nothing), r.Word (server.exec (.set key value) s).1 →
    view (server.next s (.set key value)) = if r.granted then Function.update (view s) key (some value) else view s
  delete : ∀ s key (r : Reply .nothing), r.Word (server.exec (.delete key) s).1 →
    view (server.next s (.delete key)) = if r.granted then Function.update (view s) key none else view s

/-- An operation on a key, with what its result variables hold. -/
inductive KeyCall where
  | get (options : Option ClientCallOptions) (key : Bytes) (result : Data)
  | set (key value : Bytes)
  | delete (key : Bytes)

namespace KeyCall

def key : KeyCall → Bytes
  | .get _ key _ => key
  | .set key _ => key
  | .delete key => key

/-- The operation on the cluster of the key. -/
def call : KeyCall → OperationCall
  | .get options key result => ⟨.get options key, result⟩
  | .set key value => ⟨.set key value, ()⟩
  | .delete key => ⟨.delete key, ()⟩

def program (alloc : Nat → Bool) : KeyCall → CallM Returned
  | .get options key result => do
      let out ← arakoonNurseryGet alloc options key result
      pure ⟨.string, out⟩
  | .set key value => do
      let out ← arakoonNurserySet alloc key value
      pure ⟨.nothing, out⟩
  | .delete key => do
      let out ← arakoonNurseryDelete alloc key
      pure ⟨.nothing, out⟩

theorem program_eq (alloc : Nat → Bool) (call : KeyCall) :
    call.program alloc = (nurseryOperation call.key call.call.2 (Operation.run alloc call.call.1 call.call.2) >>=
      fun out => pure ⟨call.call.1.kind, out⟩) := by
  cases call <;> rfl

/-- What a call that succeeds makes of a map. -/
def effect : KeyCall → (Bytes → Option Bytes) → Bytes → Option Bytes
  | .get _ _ _, m => m
  | .set key value, m => Function.update m key (some value)
  | .delete key, m => Function.update m key none

/-- A call changes a map at its key only. -/
theorem effect_other (call : KeyCall) {m : Bytes → Option Bytes} {key : Bytes} (h : key ≠ call.key) :
    call.effect m key = m key := by
  cases call with
  | get options key' result => rfl
  | set key' value => exact Function.update_of_ne h _ _
  | delete key' => exact Function.update_of_ne h _ _

theorem effect_congr (call : KeyCall) {m m' : Bytes → Option Bytes} {key : Bytes} (h : m key = m' key) :
    call.effect m key = call.effect m' key := by
  cases call with
  | get options key' result => exact h
  | set key' value => by_cases hkey : key = key' <;> simp [effect, hkey, h]
  | delete key' => by_cases hkey : key = key' <;> simp [effect, hkey, h]

end KeyCall

/-- A call that returns. -/
def nurseryStep (alloc : Nat → Bool) (call : KeyCall) (c : Client) : Except Fault (Returned × Client) :=
  (call.program alloc).run c

/-- What a map has become by the calls, the latest first. -/
def stored (m : Bytes → Option Bytes) : List (KeyCall × Returned) → Bytes → Option Bytes
  | [] => m
  | (call, b) :: history => if b.2.1 = 0 then call.effect (stored m history) else stored m history

section Call

variable {σ : Type} {server : Server σ} {view : σ → Bytes → Option Bytes} {s s' : σ} {live live' : Bool}

/-- While the connection stays live, a call makes of the map of the server what it makes of a map. -/
theorem ServedOne.keeps (hmap : server.KeepsMap view) {call : KeyCall} {out : ArakoonRc × call.call.1.kind.Out}
    (h : ServedOne server call.call.1 call.call.2 live s out live' s') (hlive : live' = true) :
    live = true ∧ view s' = if out.1 = 0 then call.effect (view s) else view s := by
  cases h with
  | answered r word told =>
      refine ⟨rfl, ?_⟩
      have hgranted := told.granted_iff word
      cases call with
      | get options key result =>
          rw [KeyCall.effect, ite_self]
          exact hmap.get s _ key
      | set key value =>
          have hset := hmap.set s key value r word
          simp only [hgranted]
          exact hset
      | delete key =>
          have hdelete := hmap.delete s key r word
          simp only [hgranted]
          exact hdelete
  | failed hrc => cases hlive
  | refused => cases hlive

/-- A value that is read is the one that is there. -/
theorem ServedOne.found (hmap : server.KeepsMap view) {options : Option ClientCallOptions} {key : Bytes}
    {result : (Operation.get options key).kind.Out} {out : ArakoonRc × (Operation.get options key).kind.Out}
    (hdirty : dirtyOf options = false) (hrc : out.1 = 0)
    (h : ServedOne server (.get options key) result live s out live' s') :
    live = true ∧ ∃ value, Data.value out.2 = some value ∧ view s key = some value := by
  cases h with
  | answered r word told =>
      refine ⟨rfl, ?_⟩
      cases r with
      | error code message => cases (told.granted_iff word).mp hrc
      | payload value =>
          refine ⟨value, told.2, hmap.found s key value ?_⟩
          rw [← hdirty]
          exact word
  | failed hne => exact absurd hrc hne
  | refused => exact absurd hrc (show ArakoonReturnCode.clientNotConnected.rc ≠ 0 by decide)

end Call

theorem find_slot_congr (p : CString → Bool) {clusters clusters' : List Cluster} (n : Nat)
    (h : clusters.map Cluster.name = clusters'.map Cluster.name) :
    ((clusters.zipIdx n).find? fun slot => p slot.1.name).map Prod.snd =
      ((clusters'.zipIdx n).find? fun slot => p slot.1.name).map Prod.snd := by
  induction clusters generalizing clusters' n with
  | nil =>
      obtain rfl := List.map_eq_nil_iff.mp h.symm
      rfl
  | cons cluster clusters ih =>
      cases clusters' with
      | nil => cases h
      | cons cluster' clusters' =>
          obtain ⟨hname, hothers⟩ := List.cons.inj h
          simp only [List.zipIdx_cons, List.find?_cons, hname]
          cases p cluster'.name with
          | true => rfl
          | false => exact ih (n + 1) hothers

/-- The slot that the table has for a key. -/
def NurseryRouting.slotOf (routing : NurseryRouting) (key : Bytes) : Option Nat :=
  (nurseryRoutingLookup routing key).join.map Prod.snd

/-- The slot of a key is settled by the tree and the names of the clusters. -/
theorem slotOf_congr {routing routing' : NurseryRouting} (hroot : routing.root = routing'.root)
    (hnames : routing.clusters.map Cluster.name = routing'.clusters.map Cluster.name) (key : Bytes) :
    routing.slotOf key = routing'.slotOf key := by
  unfold NurseryRouting.slotOf nurseryRoutingLookup
  rw [hroot]
  cases nurseryRoutingNodeLookup key routing'.root with
  | none => rfl
  | some name => exact find_slot_congr (fun n => decide (n = CString.ofBytes name)) 0 hnames

theorem nurseryRoutingLookup_slot {routing : NurseryRouting} {key : Bytes} {slot : Cluster × Nat}
    (h : nurseryRoutingLookup routing key = some (some slot)) :
    routing.slotOf key = some slot.2 ∧ routing.clusters[slot.2]? = some slot.1 := by
  refine ⟨by simp [NurseryRouting.slotOf, h], ?_⟩
  obtain ⟨name, -, hfind⟩ := Option.bind_eq_some_iff.mp h
  have hmem := List.mem_of_find?_eq_some (Option.some.inj hfind)
  exact List.mk_mem_zipIdx_iff_getElem?.mp hmem

/-! ### Runs -/

section Runs

variable {σ : Type} (servers : Nat → Server σ) (views : Nat → σ → Bytes → Option Bytes) (starts : Nat → σ)

/-- Behind each slot of the table is a server with a map, and of each key that is routed there the map has what `m`
has for it, while the connection is live. The table is `table`, but for what becomes of the connections. -/
def Client.Maps (table : NurseryRouting) (m : Bytes → Option Bytes) (c : Client) : Prop :=
  ∃ routing, c.table = some routing ∧ routing.root = table.root ∧
    routing.clusters.map Cluster.name = table.clusters.map Cluster.name ∧
    ∀ i cluster, routing.clusters[i]? = some cluster → ∃ k live s, cluster.Abreast (servers i) (starts i) k live s ∧
      (live = true → ∀ key, table.slotOf key = some i → views i s key = m key)

/-- On the master of the cluster for its key, where it is connected, the peer speaks for the server of the slot. -/
def KeyCall.Speaks (call : KeyCall) (c : Client) : Prop :=
  ∀ routing slot, c.table = some routing → nurseryRoutingLookup routing call.key = some (some slot) →
    World.MasterPromised (Conn.Speaks (servers slot.2) (starts slot.2) call.call.1) { c.keeper with cluster := slot.1 }

/-- The values that are read are those that the calls before have left. -/
def ReadsStored (m : Bytes → Option Bytes) (history : List (KeyCall × Returned)) : Prop :=
  ∀ later options key result data earlier, history = later ++ (.get options key result, ⟨.string, 0, data⟩) :: earlier →
    dirtyOf options = false → ∃ value, Data.value data = some value ∧ stored m earlier key = some value

variable {servers} {views} {starts} {alloc : Nat → Bool} {table : NurseryRouting} {m : Bytes → Option Bytes}

theorem ReadsStored.cons {history : List (KeyCall × Returned)} (h : ReadsStored m history) {call : KeyCall}
    {b : Returned} (hnew : ∀ options key result data, call = .get options key result → b = ⟨.string, 0, data⟩ →
      dirtyOf options = false → ∃ value, Data.value data = some value ∧ stored m history key = some value) :
    ReadsStored m ((call, b) :: history) := by
  intro later options key result data earlier hsplit hdirty
  cases later with
  | nil =>
      obtain ⟨hitem, rfl⟩ := List.cons.inj hsplit
      obtain ⟨hcall, hb⟩ := Prod.mk.inj hitem
      exact hnew options key result data hcall hb hdirty
  | cons item later =>
      exact h later options key result data earlier (List.cons.inj hsplit).2 hdirty

/-- What a call comes to: there is no cluster for its key, or the operation runs on the cluster in the slot. -/
theorem nurseryStep_ok {call : KeyCall} {c c' : Client} {b : Returned} (h : nurseryStep alloc call c = .ok (b, c')) :
    ∃ routing, c.table = some routing ∧
      ((nurseryRoutingLookup routing call.key = some none ∧ c' = c ∧ b.2.1 ≠ 0) ∨
        ∃ slot out w, nurseryRoutingLookup routing call.key = some (some slot) ∧ b = ⟨call.call.1.kind, out⟩ ∧
          (Operation.run alloc call.call.1 call.call.2).run { c.keeper with cluster := slot.1 } = some (out, w) ∧
          c'.table = some { routing with clusters := routing.clusters.set slot.2 w.cluster }) := by
  rw [nurseryStep, KeyCall.program_eq, nurseryOperation] at h
  simp only [run_bind, bind_eq_ok] at h
  obtain ⟨⟨out, c₂⟩, ⟨⟨slot, c₁⟩, hlookup, hslot⟩, hpure⟩ := h
  obtain ⟨rfl, rfl⟩ := Prod.mk.inj (Except.ok.inj hpure)
  obtain ⟨rfl, routing, htable, hfound⟩ := nurseryLookup_ok hlookup
  refine ⟨routing, htable, ?_⟩
  cases slot with
  | none =>
      obtain ⟨rfl, rfl⟩ := Prod.mk.inj (Except.ok.inj hslot)
      exact .inl ⟨hfound, rfl, show ArakoonReturnCode.clientNurseryInvalidConfig.rc ≠ 0 by decide⟩
  | some slot =>
      obtain ⟨w, hrun, -, hafter⟩ := onSlot_ok hslot
      refine .inr ⟨slot, out, w, hfound, rfl, hrun, ?_⟩
      rw [hafter, htable]
      rfl

/-- A cluster that keeps its name leaves the names of the table as they are. -/
theorem map_name_set {clusters : List Cluster} {i : Nat} {cluster cluster' : Cluster}
    (hslot : clusters[i]? = some cluster) (hname : cluster'.name = cluster.name) :
    (clusters.set i cluster').map Cluster.name = clusters.map Cluster.name := by
  apply List.ext_getElem?
  intro j
  simp only [List.getElem?_map, List.getElem?_set]
  split_ifs with hij hlt
  · subst hij
    simp [hslot, hname]
  · subst hij
    rw [List.getElem?_eq_none (Nat.le_of_not_lt hlt)]
  · rfl

/-- One call. -/
theorem maps_step (halloc : ∀ n, alloc n = true) (hmaps : ∀ i, (servers i).KeepsMap (views i)) {call : KeyCall}
    {c c' : Client} {b : Returned} {history : List (KeyCall × Returned)}
    (h : c.Maps servers views starts table (stored m history)) (hspeaks : call.Speaks servers starts c)
    (hstep : nurseryStep alloc call c = .ok (b, c')) :
    c'.Maps servers views starts table (stored m ((call, b) :: history)) ∧
      ∀ options key result data, call = .get options key result → b = ⟨.string, 0, data⟩ →
        dirtyOf options = false → ∃ value, Data.value data = some value ∧ stored m history key = some value := by
  obtain ⟨routing, htable, hroot, hnames, hslots⟩ := h
  obtain ⟨routing', htable', hend⟩ := nurseryStep_ok hstep
  obtain rfl := Option.some.inj (htable.symm.trans htable')
  rcases hend with ⟨-, rfl, hrc⟩ | ⟨⟨cluster, i⟩, out, w, hlookup, rfl, hrun, hafter⟩
  · refine ⟨?_, fun options key result data _ hb => ?_⟩
    · rw [stored, if_neg hrc]
      exact ⟨routing, htable, hroot, hnames, hslots⟩
    · rw [hb] at hrc
      exact absurd rfl hrc
  · obtain ⟨hkey, hcluster⟩ := nurseryRoutingLookup_slot hlookup
    rw [slotOf_congr hroot hnames] at hkey
    obtain ⟨k, live, s, habreast, hview⟩ := hslots i cluster hcluster
    obtain ⟨hname, live', s', hone, habreast'⟩ := ensures_operation_served halloc call.call.1 call.call.2
      (w := { c.keeper with cluster := cluster }) habreast (hspeaks routing (cluster, i) htable hlookup) out w hrun
    refine ⟨⟨_, hafter, hroot, (map_name_set hcluster hname).trans hnames, fun j cluster' hj => ?_⟩, ?_⟩
    · by_cases hij : i = j
      · subst hij
        have hlt : i < routing.clusters.length := (List.getElem?_eq_some_iff.mp hcluster).1
        obtain rfl : w.cluster = cluster' := by simpa [hlt] using hj
        refine ⟨k, live', s', habreast', fun hlive key hrouted => ?_⟩
        obtain ⟨hbefore, hstate⟩ := hone.keeps (hmaps i) hlive
        rw [hstate, stored]
        split_ifs
        · exact call.effect_congr (hview hbefore key hrouted)
        · exact hview hbefore key hrouted
      · rw [List.getElem?_set_ne hij] at hj
        obtain ⟨k', live₁, s₁, habreast₁, hview₁⟩ := hslots j cluster' hj
        refine ⟨k', live₁, s₁, habreast₁, fun hlive key hrouted => ?_⟩
        have hother : key ≠ call.key := by
          rintro rfl
          exact hij (Option.some.inj (hkey.symm.trans hrouted))
        rw [hview₁ hlive key hrouted, stored]
        split_ifs
        · exact (call.effect_other hother).symm
        · rfl
    · rintro options key result data rfl hb hdirty
      obtain rfl : out = ((0 : ArakoonRc), data) := by
        injection hb
      obtain ⟨hlive, value, hvalue, hstate⟩ := hone.found (hmaps i) hdirty rfl
      exact ⟨value, hvalue, (hview hlive key hkey).symm.trans hstate⟩

/-- A nursery over clusters that keep maps keeps one map: in a run of operations on keys, a read that is not dirty and
succeeds gives the value that the calls before it have left for the key. -/
theorem nursery_keeps_map (halloc : ∀ n, alloc n = true) (hmaps : ∀ i, (servers i).KeepsMap (views i))
    {start c : Client} (hstart : start.Maps servers views starts table m)
    {history : List (KeyCall × Returned)}
    (h : Run (nurseryStep alloc) (KeyCall.Speaks servers starts) start history c) :
    ReadsStored m history ∧ c.Maps servers views starts table (stored m history) := by
  refine h.traced (I := fun history c => ReadsStored m history ∧ c.Maps servers views starts table (stored m history))
    ⟨fun later _ _ _ _ _ hsplit => ?_, hstart⟩ ?_
  · cases later <;> cases hsplit
  · intro history call c b c' hbefore hspeaks hstep
    obtain ⟨hreads, hmapped⟩ := hbefore
    obtain ⟨hafter, hfound⟩ := maps_step halloc hmaps hmapped hspeaks hstep
    exact ⟨hreads.cons hfound, hafter⟩

end Runs

theorem Reply.Word.unique {kind : ReplyKind} {r r' : Reply kind} {bs : Bytes} (h : r.Word bs) (h' : r'.Word bs) :
    r = r' :=
  (Parses.eq_of_isPrefix ((reads_reply kind).parses h) ((reads_reply kind).parses h') List.prefix_rfl).1

theorem keepsMap_mapServer : mapServer.KeepsMap id where
  get := by
    intro m dirty key
    have hstate : (mapExec (.get dirty key) m).2 = m := by
      cases hkey : m key <;> simp [mapExec, hkey]
    exact hstate
  found := by
    intro m key value hword
    have hanswer : (Reply.payload value : Reply .string).Word (mapExec (.get false key) m).1 := hword
    have hrefused : (mapExec (.get false key) m).1 ≠ errorReply := by
      intro heq
      rw [heq] at hanswer
      cases hanswer.unique (errorReply_word .string)
    cases hkey : m key with
    | none => exact absurd (by simp [mapExec, hkey]) hrefused
    | some there =>
        by_cases hshort : Short there
        · have hgiven : (mapExec (.get false key) m).1 = le32 0 ++ writeString there := by simp [mapExec, hkey, hshort]
          rw [hgiven] at hanswer
          have hthere : (Reply.payload there : Reply .string).Word (le32 0 ++ writeString there) :=
            ⟨_, ⟨hshort, rfl⟩, rfl⟩
          obtain rfl := Reply.payload.inj (hanswer.unique hthere)
          exact hkey
        · exact absurd (by simp [mapExec, hkey, hshort]) hrefused
  set := by
    intro m key value r hword
    obtain rfl : r = .payload () := hword.unique ⟨[], rfl, rfl⟩
    rfl
  delete := by
    intro m key r hword
    obtain rfl : r = .payload () := hword.unique ⟨[], rfl, rfl⟩
    rfl

/-- A client of two clusters, one for the keys below `m` and one for the others. -/
def Client.split (peer peer' : Peer) : Client where
  keeper := World.single sampleName
  nursery := some ⟨0, some ⟨.internal [109] (.leaf [97]) (.leaf [98]),
    [(World.connected (.ofBytes [97]) peer).cluster, (World.connected (.ofBytes [98]) peer').cluster]⟩⟩

theorem maps_split (peer peer' : Peer) {table : NurseryRouting} (h : (Client.split peer peer').table = some table) :
    (Client.split peer peer').Maps (fun _ => mapServer) (fun _ => id) (fun _ _ => none) table fun _ => none := by
  refine ⟨table, h, rfl, rfl, fun i cluster hi => ⟨0, true, fun _ => none, ?_, fun _ _ _ => rfl⟩⟩
  obtain rfl := Option.some.inj h
  rcases i with _ | _ | i
  · obtain rfl := Option.some.inj hi
    exact abreast_connected _ _
  · obtain rfl := Option.some.inj hi
    exact abreast_connected _ _
  · cases hi

/-- A value for each cluster, and one of them read. -/
theorem nursery_keeps_map_split :
    ∃ c data, Run (nurseryStep fun _ => true) (KeyCall.Speaks (fun _ => mapServer) fun _ _ => none)
        (Client.split (.scripted [le32 0, le32 0 ++ writeString [1]]) (.scripted [le32 0]))
        [(.get none [97] .null, ⟨.string, 0, data⟩), (.set [122] [2], ⟨.nothing, 0, ()⟩),
          (.set [97] [1], ⟨.nothing, 0, ()⟩)] c ∧ Data.value data = some [1] ∧
      ReadsStored (fun _ => none) [(.get none [97] .null, ⟨.string, 0, data⟩), (.set [122] [2], ⟨.nothing, 0, ()⟩),
          (.set [97] [1], ⟨.nothing, 0, ()⟩)] := by
  have hrun : ∃ c data, Run (nurseryStep fun _ => true) (KeyCall.Speaks (fun _ => mapServer) fun _ _ => none)
        (Client.split (.scripted [le32 0, le32 0 ++ writeString [1]]) (.scripted [le32 0]))
        [(.get none [97] .null, ⟨.string, 0, data⟩), (.set [122] [2], ⟨.nothing, 0, ()⟩),
          (.set [97] [1], ⟨.nothing, 0, ()⟩)] c ∧ Data.value data = some [1] := by
    have hset : (Operation.set [97] [1]).Admissible := ⟨by decide, by decide⟩
    have hset' : (Operation.set [122] [2]).Admissible := ⟨by decide, by decide⟩
    have hget : (Operation.get none [97]).Admissible := show Short [97] by decide
    have hnothing : mapServer.Received (fun _ => none) [] fun _ => none := Server.received_nil
    obtain ⟨frame, hframe, hparses⟩ := Operation.parses_frame hset
    refine ⟨_, _, .call (.call (.call .nil ?_ rfl) ?_ rfl) ?_ rfl, rfl⟩
    · intro routing slot htable hlookup k hk conn hconn
      obtain rfl := Option.some.inj htable
      obtain rfl := Option.some.inj (Option.some.inj hlookup)
      obtain rfl := Option.some.inj hk
      obtain rfl := Option.some.inj hconn
      exact .of_received hset rfl hnothing List.prefix_rfl fun _ => rfl
    · intro routing slot htable hlookup k hk conn hconn
      obtain rfl := Option.some.inj htable
      obtain rfl := Option.some.inj (Option.some.inj hlookup)
      obtain rfl := Option.some.inj hk
      obtain rfl := Option.some.inj hconn
      exact .of_received hset' rfl hnothing List.prefix_rfl fun _ => rfl
    · intro routing slot htable hlookup k hk conn hconn
      obtain rfl := Option.some.inj htable
      obtain rfl := Option.some.inj (Option.some.inj hlookup)
      obtain rfl := Option.some.inj hk
      obtain rfl := Option.some.inj hconn
      have hreceived := hnothing.append hparses
      obtain rfl := Option.some.inj hframe
      exact .of_received hget rfl hreceived List.prefix_rfl fun _ => rfl
  obtain ⟨c, data, hrun, hdata⟩ := hrun
  have hreads := (nursery_keeps_map (fun _ => rfl) (fun _ => keepsMap_mapServer) (maps_split _ _ rfl) hrun).1
  exact ⟨c, data, hrun, hdata, hreads⟩

end Crakoon
