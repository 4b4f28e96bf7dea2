import Crakoon.MasterSearch

/-!
# The way of a search

Which nodes a search for the master asks, and on which connections, said of the state in which it begins and of what the
nodes do: no state of the call itself comes in. A node that has a connection is asked on it as it is, another one on a
new connection, after the prologue; the search goes on as long as no name is read. `asks_iff` says that this is the way
that `arakoon_cluster_connect_master` goes.
-/

namespace Crakoon

open Programs Reading

instance (c : Conn) (n : Nat) : Decidable (c.Grants n) :=
  inferInstanceAs (Decidable (c.peer.reads c.reads = none ∧ n ≤ c.stream.length))

/-- What is left of a connection on which a node has been asked for the master and no name was read: none where
something failed; behind the code of an error the message is still there. -/
def Conn.asked (c : Conn) : Option Conn :=
  let sent := c.accept whoMasterFrame
  if c.peer.writes c.writes = .complete ∧ sent.Grants 4 then
    let coded := sent.take 4
    if ofLe32 (sent.stream.take 4) ≠ 0 then some coded
    else if coded.Grants 1 ∧ coded.stream.take 1 = [0] then some (coded.take 1)
    else none
  else none

/-- Connecting to a node, in a cluster as in `w`: the number of dials so far and the connection of the node, before and
after. -/
inductive Connecting (dial : Dialer) (w : World) (k : NodeId) : Nat → Option Conn → Nat → Option Conn → Prop where
  | connected (n : Nat) (c : Conn) : Connecting dial w k n (some c) n (some c)
  | refused {n : Nat} {failure : Failure} (hdial : dial n (w.cluster.node k).address = .error failure) :
      Connecting dial w k n none (n + 1) none
  | opened {n : Nat} {peer : Peer} {prologue : Bytes} (hdial : dial n (w.cluster.node k).address = .ok peer)
      (hprologue : (prologueCommand w.cluster.name).assembled = some prologue) :
      Connecting dial w k n none (n + 1)
        (if peer.writes 0 = .complete then some ((Conn.fresh peer).accept prologue) else none)

theorem Connecting.unique {dial : Dialer} {w : World} {k : NodeId} {n n₁ n₂ : Nat} {o o₁ o₂ : Option Conn}
    (h₁ : Connecting dial w k n o n₁ o₁) (h₂ : Connecting dial w k n o n₂ o₂) : n₁ = n₂ ∧ o₁ = o₂ := by
  cases h₁ with
  | connected =>
      cases h₂ with
      | connected => exact ⟨rfl, rfl⟩
  | refused hdial =>
      cases h₂ with
      | refused => exact ⟨rfl, rfl⟩
      | opened hdial' => cases hdial.symm.trans hdial'
  | opened hdial hprologue =>
      cases h₂ with
      | refused hdial' => cases hdial.symm.trans hdial'
      | opened hdial' hprologue' =>
          obtain rfl := Except.ok.inj (hdial.symm.trans hdial')
          obtain rfl := Option.some.inj (hprologue.symm.trans hprologue')
          exact ⟨rfl, rfl⟩

/-- The number of dials so far, and the connections of the nodes. -/
structure Links where
  dials : Nat
  conn : NodeId → Option Conn

def World.links (w : World) : Links := ⟨w.dials, fun k => (w.cluster.node k).conn⟩

/-- The nodes are asked one after the other, and on none of their connections a name is read. -/
inductive Passes (dial : Dialer) (w : World) : List NodeId → Links → Links → Prop where
  | nil (l : Links) : Passes dial w [] l l
  | cons {j : NodeId} {ks : List NodeId} {l l' : Links} {n : Nat} {o : Option Conn}
      (hconnect : Connecting dial w j l.dials (l.conn j) n o) (hsilent : ∀ c, o = some c → ∀ word, ¬c.Gives word)
      (hrest : Passes dial w ks ⟨n, Function.update l.conn j (o.bind Conn.asked)⟩ l') : Passes dial w (j :: ks) l l'

/-- The search that begins in `w` asks the node `k` on the connection `c`: the nodes before it give no name, or one of
them gives the name of `k`, which is not its own. -/
inductive World.Asks (dial : Dialer) (w : World) (k : NodeId) (c : Conn) : Prop where
  | find {pre post : List NodeId} {l : Links} {n : Nat} (hnodes : w.cluster.nodes = pre ++ k :: post)
      (hpasses : Passes dial w pre w.links l) (hconnect : Connecting dial w k l.dials (l.conn k) n (some c)) :
      World.Asks dial w k c
  | validate {pre post : List NodeId} {i : NodeId} {l : Links} {n n' : Nat} {c₁ : Conn} {word : Bytes}
      (hnodes : w.cluster.nodes = pre ++ i :: post) (hpasses : Passes dial w pre w.links l)
      (hconnect₁ : Connecting dial w i l.dials (l.conn i) n (some c₁)) (hgives : c₁.Gives word)
      (hother : (w.cluster.node i).name ≠ CString.ofBytes word)
      (hfound : w.cluster.nodes.find? (fun j => (w.cluster.node j).name = CString.ofBytes word) = some k)
      (hconnect : Connecting dial w k n (l.conn k) n' (some c)) : World.Asks dial w k c

/-- From one state to the other only the node `k` has changed, and of this only its connection. -/
structure World.Only (k : NodeId) (w w' : World) : Prop where
  layout : w.Layout w'
  others : ∀ i, i ≠ k → (w'.cluster.node i).conn = (w.cluster.node i).conn

theorem World.Only.refl (k : NodeId) (w : World) : w.Only k w := ⟨refl_of World.Layout w, fun _ _ => rfl⟩

theorem World.Only.trans {k : NodeId} {w w₁ w₂ : World} (h₁ : w.Only k w₁) (h₂ : w₁.Only k w₂) : w.Only k w₂ :=
  ⟨trans_of World.Layout h₁.layout h₂.layout, fun i hi => (h₂.others i hi).trans (h₁.others i hi)⟩

theorem World.only_update (w : World) (k : NodeId) (s : Session) : w.Only k (w.update k s) :=
  ⟨w.layout_update k s, fun _ hi => World.update_conn_other hi w s⟩

theorem World.only_dialed (w : World) (k : NodeId) (peer : Peer) : w.Only k (w.dialed k peer) where
  layout := w.layout_dialed k peer
  others := by
    intro i hi
    simp [World.dialed, Cluster.setNode, hi]

/-- Where only the node `k` has changed, so have the links. -/
theorem World.Only.links {k : NodeId} {w w' : World} (h : w.Only k w') :
    w'.links = ⟨w'.dials, Function.update w.links.conn k (w'.cluster.node k).conn⟩ := by
  refine congrArg (Links.mk w'.dials) (funext fun i => ?_)
  by_cases hi : i = k
  · rw [hi, Function.update_self]
  · rw [Function.update_of_ne hi]
    exact h.others i hi

section Steps

variable {alloc : Nat → Bool} (halloc : ∀ n, alloc n = true) {dial : Dialer}

include halloc

/-- A string that cannot be read closes the connection. -/
theorem ensures_readString_closed {s : Session} {c : Conn} (hc : s.conn = some c) :
    Ensures (readString alloc .null 0) s fun out s' => out.2 ≠ 0 → s'.conn = none := by
  refine (ensures_readUInt32 hc 0).bind fun out s₁ h => ?_
  obtain ⟨l, rc⟩ := out
  rcases h with ⟨hgrants, hout, rfl⟩ | ⟨hrefused, hrc, rfl⟩
  · obtain ⟨rfl, rfl⟩ := Prod.mk.inj hout
    refine .ite (fun h => absurd rfl h) fun _ => .ite (fun _ => .pure fun h => absurd rfl h) fun _ => ?_
    refine (ensures_memNew _).bind fun id s₂ ⟨hconn₂, hlast₂, hid⟩ => ?_
    rcases hid with ⟨hrefused, -⟩ | ⟨rfl, -⟩
    · rw [halloc] at hrefused
      cases hrefused
    · refine (ensures_readBytes hconn₂ _).bind fun out s₃ h => ?_
      obtain ⟨rc, bs⟩ := out
      rcases h with ⟨-, hout, rfl⟩ | ⟨-, hrc, rfl⟩
      · obtain ⟨rfl, rfl⟩ := Prod.mk.inj hout
        exact .pure fun h => absurd rfl h
      · dsimp only at hrc ⊢
        rw [if_neg hrc]
        intro out s' hrun
        obtain ⟨rfl, rfl⟩ := Prod.mk.inj (Option.some.inj hrun)
        exact fun _ => rfl
  · dsimp only at hrc ⊢
    rw [if_pos hrc]
    exact .pure fun _ => rfl

/-- Where no name is decoded, there was none, or the connection is closed. -/
theorem ensures_decodeMaster_conn {s : Session} {c : Conn} (hc : s.conn = some c) :
    Ensures (decodeMaster alloc) s fun out s' => ¬(out.1 = 0 ∧ out.2 ≠ .null) →
      s'.conn = if c.Grants 1 ∧ c.stream.take 1 = [0] then some (c.take 1) else none := by
  have hread : Ensures (readStringOption alloc .null 0) s fun out s' =>
      (out.2 ≠ 0 ∨ out.1 = .null) →
        s'.conn = if c.Grants 1 ∧ c.stream.take 1 = [0] then some (c.take 1) else none := by
    refine (ensures_readBytes hc 1).bind fun out s₁ h => ?_
    obtain ⟨rc, v⟩ := out
    rcases h with ⟨hgrants, hout, rfl⟩ | ⟨hrefused, hrc, rfl⟩
    · obtain ⟨rfl, rfl⟩ := Prod.mk.inj hout
      refine .ite (fun hne => absurd rfl hne) fun _ => .ite (fun hzero => ?_) fun hgiven => ?_
      · exact .pure fun _ => (if_pos ⟨hgrants, hzero⟩).symm
      · have hclosed : (if c.Grants 1 ∧ c.stream.take 1 = [0] then some (c.take 1) else none) = none :=
          if_neg fun h => hgiven h.2
        rw [hclosed]
        have hc₁ : ({ s with conn := some (c.take 1) } : Session).conn = some (c.take 1) := rfl
        refine ((ensures_readString_closed halloc hc₁).outcome.mono fun out s' ⟨hrun, hclosed⟩ hfailed => ?_)
        rcases hfailed with hrc | hnull
        · exact hclosed hrc
        · cases ensures_readNewString hc₁ out s' hrun with
          | told message _ _ holds =>
              have hvalue := holds.value
              rw [hnull] at hvalue
              cases hvalue
          | failed hrc _ _ => exact hclosed hrc
    · dsimp only at hrc ⊢
      rw [if_pos hrc]
      exact .pure fun _ => (if_neg fun h => hrefused h.1).symm
  refine hread.bind fun out s₁ h => ?_
  obtain ⟨d, rc⟩ := out
  refine .ite (fun hrc => .pure fun _ => h (.inl hrc)) fun hrc => .ite (fun hnull => .pure fun _ => h (.inr hnull)) ?_
  intro hd
  cases hvalue : d.value with
  | none => cases d <;> first | exact absurd rfl hd | cases hvalue
  | some word =>
      refine (yields_utilsMakeString halloc hvalue s₁).ensures.bind fun _ s₂ ⟨_, _, id, heq⟩ => ?_
      subst heq
      refine .pure fun hunnamed => absurd ⟨not_ne_iff.mp hrc, ?_⟩ hunnamed
      exact Data.noConfusion

/-- A node is asked on the connection `c`: it gives a name there, or what is left of the connection is known. -/
theorem ensures_asked_conn (master : Data) {s : Session} {c : Conn} (hc : s.conn = some c) :
    Ensures (clusterNodeWhoMaster alloc master) s fun out s' =>
      ¬(out.1 = 0 ∧ out.2 ≠ .null) → s'.conn = c.asked := by
  have hframe : whoMasterCommand.assembled = some whoMasterFrame := by rfl
  refine (ensures_sendCommand hframe (halloc _) hc).bind fun rc s₁ h => ?_
  rcases h with ⟨hwritten, hrc, hconn₁⟩ | ⟨hstopped, hrc, hconn₁⟩
  · rw [if_neg (not_ne_iff.mpr hrc)]
    refine (ensures_readRc hconn₁).bind fun rc s₂ h => ?_
    rcases h with ⟨hgranted, hword, hs₂⟩ | ⟨hrefused, hrc, hs₂⟩
    · have hzero := int32_eq_zero (ofLe32_lt ((c.accept whoMasterFrame).stream.take 4))
      rw [← hword] at hzero
      have hconn₂ : s₂.conn = some ((c.accept whoMasterFrame).take 4) := congrArg Session.conn hs₂
      have hleft : c.asked = if ofLe32 ((c.accept whoMasterFrame).stream.take 4) ≠ 0 then
          some ((c.accept whoMasterFrame).take 4) else _ := if_pos ⟨hwritten, hgranted⟩
      refine .ite (fun hrc => .pure fun _ => ?_) fun hrc => ?_
      · rw [hconn₂, hleft, if_pos fun h => hrc (hzero.mpr h)]
      · rw [hleft, if_neg (not_ne_iff.mpr (hzero.mp (not_ne_iff.mp hrc)))]
        exact ensures_decodeMaster_conn halloc hconn₂
    · rw [if_pos hrc]
      refine .pure fun _ => ?_
      have hleft : c.asked = none := if_neg fun h => hrefused h.2
      rw [hleft, hs₂]
  · rw [if_pos hrc]
    refine .pure fun _ => ?_
    have hleft : c.asked = none := if_neg fun h => hstopped h.1
    rw [hleft, hconn₁]

/-- One node is asked. -/
theorem yields_ask {k : NodeId} (master : Data) {w : World} {c : Conn} (hconn : (w.cluster.node k).conn = some c) :
    Yields (onNode k (clusterNodeWhoMaster alloc master)) w fun out w' => w.Only k w' ∧ w'.dials = w.dials ∧
      ((∃ word, c.Gives word ∧ (out.1 = 0 ∧ out.2 ≠ .null) ∧ out.2.cString = CString.ofBytes word) ∨
        (∀ word, ¬c.Gives word) ∧ ¬(out.1 = 0 ∧ out.2 ≠ .null) ∧ (w'.cluster.node k).conn = c.asked) := by
  obtain ⟨out, s', hrun, -⟩ := yields_clusterNodeWhoMaster halloc master (s := w.session k) hconn
  have hnamed := ensures_asked halloc master (s := w.session k) hconn out s' hrun
  have hleft := ensures_asked_conn halloc master (s := w.session k) hconn out s' hrun
  refine ⟨out, w.update k s', ?_, w.only_update k s', rfl, hnamed.imp ?_ ?_⟩
  · change Option.map _ ((clusterNodeWhoMaster alloc master).run (w.session k)) = _
    rw [hrun]
    rfl
  · rintro ⟨word, hgives, hrc, hvalue⟩
    refine ⟨word, hgives, ⟨hrc, fun hnull => ?_⟩, Data.cString_of_value hvalue⟩
    rw [hnull] at hvalue
    cases hvalue
  · rintro ⟨hnone, hunnamed⟩
    exact ⟨hnone, hunnamed, by rw [World.update_conn_self, hleft hunnamed]⟩

/-- One node is connected to, in a cluster as in `w₀`. -/
theorem ensures_connecting {k : NodeId} {w₀ w : World} (hlayout : w₀.Layout w) :
    Ensures (clusterNodeConnect alloc dial k) w fun rc w' => w.Only k w' ∧
      Connecting dial w₀ k w.dials (w.cluster.node k).conn w'.dials (w'.cluster.node k).conn ∧
      (rc = 0 ↔ (w'.cluster.node k).conn.isSome) := by
  intro rc w' hrun
  simp only [clusterNodeConnect, StateT.run] at hrun
  cases hconn : (w.cluster.node k).conn with
  | some c =>
      rw [hconn] at hrun
      obtain ⟨rfl, rfl⟩ := Prod.mk.inj (Option.some.inj hrun)
      rw [hconn]
      exact ⟨.refl k w, .connected _ c, iff_of_true rfl rfl⟩
  | none =>
      rw [hconn] at hrun
      cases hdial : dial w.dials (w.cluster.node k).address with
      | error failure =>
          rw [hdial] at hrun
          obtain ⟨rfl, rfl⟩ := Prod.mk.inj (Option.some.inj hrun)
          rw [hlayout.address] at hdial
          refine ⟨⟨⟨rfl, rfl, fun _ => rfl, fun _ => rfl, rfl⟩, fun _ _ => rfl⟩, ?_, ?_⟩
          · rw [hconn]
            exact .refused hdial
          · rw [hconn]
            exact iff_of_false failure.2 Bool.false_ne_true
      | ok peer =>
          rw [hdial] at hrun
          rw [hlayout.address] at hdial
          have hfresh : ((w.dialed k peer).session k).conn = some (.fresh peer) := by
            simp [World.dialed, World.session, Cluster.setNode]
          cases hprologue : (prologueCommand w.cluster.name).assembled with
          | none =>
              rw [sendCommand, hprologue] at hrun
              obtain ⟨out, hbody, -⟩ := Option.map_eq_some_iff.mp hrun
              rw [sendBlock_aborts halloc] at hbody
              cases hbody
          | some prologue =>
              obtain ⟨s', hsent, rfl⟩ := ensures_onNode (ensures_sendCommand hprologue (halloc _) hfresh) rc w' hrun
              have honly := (w.only_dialed k peer).trans ((w.dialed k peer).only_update k s')
              rw [hlayout.name] at hprologue
              have hopened := Connecting.opened hdial hprologue
              refine ⟨honly, ?_, ?_⟩
              · rw [World.update_conn_self]
                rcases hsent with ⟨hwritten, -, hconn'⟩ | ⟨hstopped, -, hconn'⟩
                · have hcomplete : peer.writes 0 = .complete := hwritten
                  rw [hconn']
                  rwa [if_pos hcomplete] at hopened
                · have hincomplete : peer.writes 0 ≠ .complete := hstopped
                  rw [hconn']
                  rwa [if_neg hincomplete] at hopened
              · rw [World.update_conn_self]
                rcases hsent with ⟨-, hrc, hconn'⟩ | ⟨-, hrc, hconn'⟩
                · exact iff_of_true hrc (by rw [hconn', Option.isSome_some])
                · exact iff_of_false hrc (by rw [hconn']; exact Bool.false_ne_true)

/-- A connection that there is to be there is. -/
theorem yields_connecting {k : NodeId} {w₀ w : World} (hlayout : w₀.Layout w) {n : Nat} {o : Option Conn}
    (h : Connecting dial w₀ k w.dials (w.cluster.node k).conn n o) :
    Yields (clusterNodeConnect alloc dial k) w fun rc w' => w.Only k w' ∧ w'.dials = n ∧
      (w'.cluster.node k).conn = o ∧ (rc = 0 ↔ o.isSome) := by
  have hreturns : ∃ rc w', (clusterNodeConnect alloc dial k).run w = some (rc, w') := by
    simp only [clusterNodeConnect, StateT.run]
    cases hconn : (w.cluster.node k).conn with
    | some c => exact ⟨_, _, rfl⟩
    | none =>
        rw [hconn] at h
        cases h with
        | refused hdial =>
            rw [← hlayout.address] at hdial
            rw [hdial]
            exact ⟨_, _, rfl⟩
        | @opened peer prologue hdial hprologue =>
            rw [← hlayout.address] at hdial
            rw [← hlayout.name] at hprologue
            have hfresh : ((w.dialed k peer).session k).conn = some (.fresh peer) := by
              simp [World.dialed, World.session, Cluster.setNode]
            have hsend : Yields (sendCommand alloc (prologueCommand w.cluster.name)) ((w.dialed k peer).session k)
                (Dispatch ((w.dialed k peer).session k) (.fresh peer) prologue 1 false) := by
              rw [sendCommand, hprologue]
              exact yields_sendBlock halloc (fun _ => yields_writeBytes prologue) hfresh
            obtain ⟨rc, s', hrun, -⟩ := hsend
            rw [hdial]
            refine ⟨rc, (w.dialed k peer).update k s', ?_⟩
            change (Option.map _ ((sendCommand alloc (prologueCommand w.cluster.name)).run _)) = _
            rw [hrun]
            rfl
  obtain ⟨rc, w', hrun⟩ := hreturns
  obtain ⟨honly, hconnecting, hrc⟩ := ensures_connecting halloc hlayout rc w' hrun
  obtain ⟨hdials, hconn⟩ := hconnecting.unique h
  exact ⟨rc, w', hrun, honly, hdials, hconn, by rw [hrc, hconn]⟩

/-! ### The walk over the nodes -/

/-- The nodes that the walk leaves behind are those that have been asked in vain. -/
theorem FindAsks.path {k : NodeId} {w₀ w w' : World} {ks : List NodeId} {master : Data} (hlayout : w₀.Layout w)
    (h : FindAsks alloc dial k w' ks master w) : ∃ pre post l, ks = pre ++ k :: post ∧ Passes dial w₀ pre w.links l ∧
      Connecting dial w₀ k l.dials (l.conn k) w'.dials (w'.cluster.node k).conn := by
  induction h with
  | @ask ks master w hconnect =>
      obtain ⟨-, hconnecting, -⟩ := ensures_connecting halloc hlayout _ _ hconnect
      exact ⟨[], ks, w.links, rfl, .nil _, hconnecting⟩
  | @unconnected j ks master w w₁ rc hconnect hrc rest ih =>
      obtain ⟨honly, hconnecting, hopen⟩ := ensures_connecting halloc hlayout _ _ hconnect
      obtain ⟨pre, post, l, rfl, hpasses, hlast⟩ := ih (trans_of World.Layout hlayout honly.layout)
      have hnone : (w₁.cluster.node j).conn = none := Option.not_isSome_iff_eq_none.mp (hopen.not.mp hrc)
      rw [hnone] at hconnecting
      rw [honly.links, hnone] at hpasses
      exact ⟨j :: pre, post, l, rfl, .cons hconnecting (fun _ h => by cases h) hpasses, hlast⟩
  | @unnamed j ks master w w₁ w₂ out hconnect hask hnone rest ih =>
      obtain ⟨honly₁, hconnecting, hopen⟩ := ensures_connecting halloc hlayout _ _ hconnect
      obtain ⟨c, hconn⟩ := Option.isSome_iff_exists.mp (hopen.mp rfl)
      obtain ⟨honly₂, hdials, hheard⟩ := (yields_ask halloc master hconn).ensures _ _ hask
      obtain ⟨hsilent, -, hleft⟩ := hheard.resolve_left fun ⟨_, _, hnamed, _⟩ => hnone hnamed
      have honly := honly₁.trans honly₂
      obtain ⟨pre, post, l, rfl, hpasses, hlast⟩ := ih (trans_of World.Layout hlayout honly.layout)
      rw [hconn] at hconnecting
      rw [honly.links, hdials, hleft] at hpasses
      refine ⟨j :: pre, post, l, rfl, .cons hconnecting (fun c' hc' => ?_) hpasses, hlast⟩
      obtain rfl := Option.some.inj hc'
      exact hsilent

/-- The node with which the walk ends gives a name behind those that have been asked in vain. -/
theorem ensures_findNode_path (ks : List NodeId) (master : Data) {w₀ w : World} (hlayout : w₀.Layout w) :
    Ensures (findNode alloc dial ks master) w fun out w' => ∀ i, out.1 = some i → ∃ pre post l c word,
      ks = pre ++ i :: post ∧ Passes dial w₀ pre w.links l ∧
      Connecting dial w₀ i l.dials (l.conn i) w'.dials (some c) ∧ c.Gives word ∧
      out.2.cString = CString.ofBytes word ∧ w₀.Layout w' ∧ ∀ j, j ≠ i → (w'.cluster.node j).conn = l.conn j := by
  induction ks generalizing master w with
  | nil => exact Ensures.pure fun i hi => by cases hi
  | cons j ks ih =>
      refine (ensures_connecting halloc hlayout).bind fun rc w₁ ⟨honly₁, hconnecting, hopen⟩ => ?_
      refine .ite (fun hrc => ?_) fun hrc => ?_
      · obtain ⟨c, hconn⟩ := Option.isSome_iff_exists.mp (hopen.mp hrc)
        refine (yields_ask halloc master hconn).ensures.bind fun out w₂ ⟨honly₂, hdials, hheard⟩ => ?_
        have honly := honly₁.trans honly₂
        have hlayout₂ := trans_of World.Layout hlayout honly.layout
        rw [hconn] at hconnecting
        refine .ite (fun hnamed => .pure fun i hi => ?_) fun hunnamed => ?_
        · obtain rfl := Option.some.inj hi
          obtain ⟨word, hgives, -, hword⟩ := hheard.resolve_right fun h => h.2.1 hnamed
          refine ⟨[], ks, w.links, c, word, rfl, .nil _, ?_, hgives, hword, hlayout₂, fun i hi => honly.others i hi⟩
          rw [hdials]
          exact hconnecting
        · obtain ⟨hsilent, -, hleft⟩ := hheard.resolve_left fun ⟨_, _, hnamed, _⟩ => hunnamed hnamed
          refine (ih out.2 hlayout₂).mono fun out' w' hrest i hi => ?_
          obtain ⟨pre, post, l, c', word, rfl, hpasses, hend⟩ := hrest i hi
          rw [honly.links, hdials, hleft] at hpasses
          refine ⟨j :: pre, post, l, c', word, rfl, .cons hconnecting (fun c' hc' => ?_) hpasses, hend⟩
          obtain rfl := Option.some.inj hc'
          exact hsilent
      · refine (ih master (trans_of World.Layout hlayout honly₁.layout)).mono fun out' w' hrest i hi => ?_
        obtain ⟨pre, post, l, c', word, rfl, hpasses, hend⟩ := hrest i hi
        have hnone : (w₁.cluster.node j).conn = none := Option.not_isSome_iff_eq_none.mp (hopen.not.mp hrc)
        rw [hnone] at hconnecting
        rw [honly₁.links, hnone] at hpasses
        exact ⟨j :: pre, post, l, c', word, rfl, .cons hconnecting (fun _ h => by cases h) hpasses, hend⟩

/-- Nodes that are to be asked in vain are, and the walk goes on behind them. -/
theorem Passes.walk {w₀ w : World} {pre : List NodeId} {l₀ l : Links} (h : Passes dial w₀ pre l₀ l) (master : Data)
    (hlayout : w₀.Layout w) (hlinks : w.links = l₀) : ∃ w' master', w₀.Layout w' ∧ w'.links = l ∧
      (∀ ks, (findNode alloc dial (pre ++ ks) master).run w = (findNode alloc dial ks master').run w') ∧
      ∀ k w₂ ks, FindAsks alloc dial k w₂ ks master' w' → FindAsks alloc dial k w₂ (pre ++ ks) master w := by
  induction h generalizing w master with
  | nil l => exact ⟨w, master, hlayout, hlinks, fun _ => rfl, fun _ _ _ h => h⟩
  | @cons j ks l l' n o hconnect hsilent hrest ih =>
      subst hlinks
      obtain ⟨rc, w₁, hrun, honly₁, hdials, hconn, hopen⟩ := yields_connecting halloc hlayout hconnect
      have hlayout₁ := trans_of World.Layout hlayout honly₁.layout
      cases o with
      | none =>
          have hrc : rc ≠ 0 := fun hrc => absurd (hopen.mp hrc) Bool.false_ne_true
          have hlinks₁ : w₁.links = ⟨n, Function.update w.links.conn j none⟩ := by
            rw [honly₁.links, hdials, hconn]
          obtain ⟨w', master', hlayout', hlinks', hwalk, hasks⟩ := ih master hlayout₁ hlinks₁
          refine ⟨w', master', hlayout', hlinks', fun ks => ?_, fun k w₂ ks h =>
            .unconnected hrun hrc (hasks k w₂ ks h)⟩
          rw [← hwalk ks, List.cons_append, findNode]
          simp only [StateT.run_bind, hrun, Option.bind_eq_bind, Option.bind_some, if_neg hrc]
      | some c =>
          obtain rfl : rc = 0 := hopen.mpr rfl
          obtain ⟨out, w₂, hask, honly₂, hdials₂, hheard⟩ := yields_ask halloc master hconn
          obtain ⟨-, hunnamed, hleft⟩ := hheard.resolve_left fun ⟨word, hgives, _⟩ => hsilent c rfl word hgives
          have honly := honly₁.trans honly₂
          have hlinks₂ : w₂.links = ⟨n, Function.update w.links.conn j c.asked⟩ := by
            rw [honly.links, hdials₂, hdials, hleft]
          obtain ⟨w', master', hlayout', hlinks', hwalk, hasks⟩ :=
            ih out.2 (trans_of World.Layout hlayout honly.layout) hlinks₂
          refine ⟨w', master', hlayout', hlinks', fun ks => ?_, fun k w₃ ks h =>
            .unnamed hrun hask hunnamed (hasks k w₃ ks h)⟩
          rw [← hwalk ks, List.cons_append, findNode]
          obtain ⟨rc, d⟩ := out
          simp only [StateT.run_bind, hrun, hask, Option.bind_eq_bind, Option.bind_some, if_pos, if_neg hunnamed]

/-- A node that gives a name ends the walk. -/
theorem yields_findNode_gives {w₀ w : World} {i : NodeId} {n : Nat} {c : Conn} {word : Bytes} (post : List NodeId)
    (master : Data) (hlayout : w₀.Layout w) (hconnect : Connecting dial w₀ i w.dials (w.cluster.node i).conn n (some c))
    (hgives : c.Gives word) :
    Yields (findNode alloc dial (i :: post) master) w fun out w' => out.1 = some i ∧
      out.2.cString = CString.ofBytes word ∧ w₀.Layout w' ∧ w'.dials = n ∧
      ∀ j, j ≠ i → (w'.cluster.node j).conn = (w.cluster.node j).conn := by
  refine (yields_connecting halloc hlayout hconnect).bind fun rc w₁ ⟨honly₁, hdials₁, hconn, hopen⟩ => ?_
  have hrc : rc = 0 := hopen.mpr rfl
  rw [if_pos hrc]
  refine (yields_ask halloc master hconn).bind fun out w₂ ⟨honly₂, hdials₂, hheard⟩ => ?_
  obtain ⟨word', hgives', hnamed, hword⟩ := hheard.resolve_right fun h => h.1 word hgives
  obtain rfl := hgives'.offers.tells.unique hgives.offers.tells
  have honly := honly₁.trans honly₂
  obtain ⟨rc, d⟩ := out
  dsimp only at hnamed hword ⊢
  rw [if_pos hnamed]
  exact Yields.pure ⟨rfl, hword, trans_of World.Layout hlayout honly.layout, hdials₂.trans hdials₁, honly.others⟩

/-- The way that a search goes is the one that the state and the nodes set out. -/
theorem asks_iff {k : NodeId} {c : Conn} {w : World} :
    (∃ w₁, SearchAsks alloc dial k w₁ w ∧ (w₁.cluster.node k).conn = some c) ↔ w.Asks dial k c := by
  constructor
  · rintro ⟨w₁, hasks, hconn⟩
    cases hasks with
    | find h =>
        obtain ⟨pre, post, l, hnodes, hpasses, hconnect⟩ := h.path halloc (refl_of World.Layout w)
        rw [hconn] at hconnect
        exact .find hnodes hpasses hconnect
    | @validate i master w₂ hfind hother hfound hconnect =>
        obtain ⟨pre, post, l, c₁, word, hnodes, hpasses, hconnect₁, hgives, hword, hlayout, hothers⟩ :=
          ensures_findNode_path halloc _ _ (refl_of World.Layout w) _ _ hfind i rfl
        dsimp only at hword
        simp only [hlayout.nodeName, hword] at hother
        simp only [hlayout.nodes, hlayout.nodeName, hword] at hfound
        have hki : k ≠ i := by
          rintro rfl
          exact hother (by simpa using List.find?_some hfound)
        have hlayout' : w.Layout { w₂ with heap := w₂.heap.free master.ptr } :=
          ⟨hlayout.name, hlayout.nodes, hlayout.nodeName, hlayout.address, hlayout.master⟩
        obtain ⟨-, hconnecting, -⟩ := ensures_connecting halloc hlayout' _ _ hconnect
        rw [hconn, hothers k hki] at hconnecting
        exact .validate hnodes hpasses hconnect₁ hgives hother hfound hconnecting
  · intro h
    cases h with
    | @find pre post l n hnodes hpasses hconnect =>
        obtain ⟨w₁, master, hlayout, hlinks, -, hasks⟩ := hpasses.walk halloc .null (refl_of World.Layout w) rfl
        subst hlinks
        obtain ⟨rc, w₂, hrun, -, -, hconn, hopen⟩ := yields_connecting halloc hlayout hconnect
        obtain rfl : rc = 0 := hopen.mpr rfl
        refine ⟨w₂, .find ?_, hconn⟩
        rw [hnodes]
        exact hasks k w₂ (k :: post) (.ask hrun)
    | @validate pre post i l n n' c₁ word hnodes hpasses hconnect₁ hgives hother hfound hconnect =>
        obtain ⟨w₁, master, hlayout, hlinks, hwalk, -⟩ := hpasses.walk halloc .null (refl_of World.Layout w) rfl
        subst hlinks
        obtain ⟨⟨node, d⟩, w₂, hrun, hnode, hword, hlayout₂, hdials, hothers⟩ :=
          yields_findNode_gives halloc post master hlayout hconnect₁ hgives
        obtain rfl : node = some i := hnode
        dsimp only at hword
        have hki : k ≠ i := by
          rintro rfl
          exact hother (by simpa using List.find?_some hfound)
        have hlayout₃ : w.Layout { w₂ with heap := w₂.heap.free d.ptr } :=
          ⟨hlayout₂.name, hlayout₂.nodes, hlayout₂.nodeName, hlayout₂.address, hlayout₂.master⟩
        have hconnect₃ : Connecting dial w k ({ w₂ with heap := w₂.heap.free d.ptr } : World).dials
            (({ w₂ with heap := w₂.heap.free d.ptr } : World).cluster.node k).conn n' (some c) := by
          change Connecting dial w k w₂.dials (w₂.cluster.node k).conn n' (some c)
          rw [hdials, hothers k hki]
          exact hconnect
        obtain ⟨rc, w₃, hconnected, -, -, hconn, hopen⟩ := yields_connecting halloc hlayout₃ hconnect₃
        obtain rfl : rc = 0 := hopen.mpr rfl
        refine ⟨w₃, @SearchAsks.validate alloc dial k w₃ w i d w₂ ?_ ?_ ?_ hconnected, hconn⟩
        · rw [hnodes, hwalk (i :: post), hrun]
        · rw [hlayout₂.nodeName, hword]
          exact hother
        · simp only [hlayout₂.nodes, hlayout₂.nodeName, hword]
          exact hfound

/-! ### That the call returns -/

omit halloc in
/-- A node can be connected to in some way, where the prologue can be sent. -/
theorem exists_connecting (dial : Dialer) {w₀ : World} {prologue : Bytes}
    (hprologue : (prologueCommand w₀.cluster.name).assembled = some prologue) (k : NodeId) (n : Nat) (o : Option Conn) :
    ∃ n' o', Connecting dial w₀ k n o n' o' := by
  cases o with
  | some c => exact ⟨_, _, .connected n c⟩
  | none =>
      cases hdial : dial n (w₀.cluster.node k).address with
      | error failure => exact ⟨_, _, .refused hdial⟩
      | ok peer => exact ⟨_, _, .opened hdial hprologue⟩

variable {w₀ : World} {prologue : Bytes} (hprologue : (prologueCommand w₀.cluster.name).assembled = some prologue)
include hprologue

theorem yields_clusterNodeConnect (k : NodeId) {w : World} (hlayout : w₀.Layout w) :
    Yields (clusterNodeConnect alloc dial k) w fun rc w' => w₀.Layout w' ∧
      (rc = 0 → ∃ c, (w'.cluster.node k).conn = some c) := by
  obtain ⟨n, o, hconnect⟩ := exists_connecting dial hprologue k w.dials (w.cluster.node k).conn
  refine (yields_connecting halloc hlayout hconnect).mono fun rc w' ⟨honly, _, hconn, hopen⟩ => ?_
  refine ⟨trans_of World.Layout hlayout honly.layout, fun hrc => ?_⟩
  rw [hconn]
  exact Option.isSome_iff_exists.mp (hopen.mp hrc)

theorem yields_findNode (ks : List NodeId) (master : Data) {w : World} (hlayout : w₀.Layout w) :
    Yields (findNode alloc dial ks master) w fun _ w' => w₀.Layout w' := by
  induction ks generalizing master w with
  | nil => exact Yields.pure hlayout
  | cons k ks ih =>
      refine (yields_clusterNodeConnect halloc hprologue k hlayout).bind fun rc w₁ ⟨hlayout₁, hopen⟩ => ?_
      by_cases hrc : rc = 0
      · obtain ⟨c, hconn⟩ := hopen hrc
        rw [if_pos hrc]
        refine (yields_ask halloc master hconn).bind fun out w₂ ⟨honly, _⟩ => ?_
        have hlayout₂ := trans_of World.Layout hlayout₁ honly.layout
        obtain ⟨rc, d⟩ := out
        dsimp only
        split_ifs with hnamed
        · exact Yields.pure hlayout₂
        · exact ih d hlayout₂
      · rw [if_neg hrc]
        exact ih master hlayout₁

theorem yields_validateMaster (j : NodeId) (master : Data) {w : World} (hlayout : w₀.Layout w) :
    Yields (validateMaster alloc dial j master) w fun _ _ => True := by
  refine (yields_clusterNodeConnect halloc hprologue j hlayout).bind fun rc w₁ ⟨hlayout₁, hopen⟩ => ?_
  split_ifs with hrc
  · exact Yields.pure trivial
  · obtain ⟨c, hconn⟩ := hopen (not_ne_iff.mp hrc)
    refine (yields_ask halloc master hconn).bind fun out w₂ _ => ?_
    obtain ⟨rc, d⟩ := out
    dsimp only
    split_ifs with hrc
    · exact Yields.pure trivial
    · apply Yields.bind_get
      split_ifs with hother
      · exact ⟨_, _, rfl, trivial⟩
      · exact ⟨_, _, rfl, trivial⟩

omit hprologue in
/-- The search returns wherever the prologue can be sent. -/
theorem yields_connectMaster {w : World} (hprologue : (prologueCommand w.cluster.name).assembled = some prologue) :
    Yields (arakoonClusterConnectMaster alloc dial) w fun _ _ => True := by
  apply Yields.bind_get
  refine (yields_findNode halloc hprologue _ _ (refl_of World.Layout w)).bind fun ⟨node, master⟩ w₁ hlayout => ?_
  cases node with
  | none => exact Yields.pure trivial
  | some k =>
      apply Yields.bind_get
      split_ifs with hself
      · exact ⟨_, _, rfl, trivial⟩
      · refine Yields.bind (P := fun _ w' => w.Layout w') ⟨(), _, rfl, ?_⟩ fun _ w₂ hlayout₂ => ?_
        · exact ⟨hlayout.name, hlayout.nodes, hlayout.nodeName, hlayout.address, hlayout.master⟩
        · split
          · exact Yields.pure trivial
          · exact yields_validateMaster halloc hprologue _ _ hlayout₂

end Steps

section Ends

variable {alloc : Nat → Bool} (halloc : ∀ n, alloc n = true) {dial : Dialer}
include halloc

theorem World.heard_iff {w : World} {k : NodeId} : w.Heard alloc dial k ↔
    ∃ c word, w.Asks dial k c ∧ c.Gives word ∧ CString.ofBytes word = (w.cluster.node k).name := by
  constructor
  · rintro ⟨w₁, c, word, hasks, hconn, hheard⟩
    exact ⟨c, word, (asks_iff halloc).mp ⟨w₁, hasks, hconn⟩, hheard⟩
  · rintro ⟨c, word, hasks, hheard⟩
    obtain ⟨w₁, hasks, hconn⟩ := (asks_iff halloc).mpr hasks
    exact ⟨w₁, c, word, hasks, hconn, hheard⟩

end Ends

end Crakoon
