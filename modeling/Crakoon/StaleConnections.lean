import Crakoon.SearchPaths
import Mathlib.Data.List.Nodup

/-!
# Searching with the connections of earlier calls

Every node accepts a new connection and answers on it with the name of the same node. A search may yet fail: it uses a
connection that is open without checking it, closes it where it fails, and goes on to the next node.
`master_search_succeeds` says for which connections the master is found all the same. Where nothing is left unread on
those that live, this is a matter of the order of the dead ones (`World.reachable_iff`).
-/

namespace Crakoon

open Programs Reading

/-- The connection works, and the node behind it answers that `name` is the master. -/
structure Conn.Live (name : CString) (c : Conn) : Prop where
  written : c.peer.writes c.writes = .complete
  prompt : c.Prompt
  said : ∃ word, Says c.answer word ∧ CString.ofBytes word = name

/-- The next write on the connection fails, or the read that follows it. -/
def Conn.Stale (c : Conn) : Prop := c.peer.writes c.writes ≠ .complete ∨ ¬(c.accept whoMasterFrame).Grants 4

/-- The node can be connected to at any time, takes the prologue, and then answers that `name` is the master. -/
def Dialer.Accepts (dial : Dialer) (cluster name : CString) (address : List Address) : Prop :=
  ∀ n, ∃ peer prologue, dial n address = .ok peer ∧ (prologueCommand cluster).assembled = some prologue ∧
    peer.writes 0 = .complete ∧ ((Conn.fresh peer).accept prologue).Live name

/-- The name that is read on the connection if the node is asked is `name`. -/
def Conn.Names (c : Conn) (name : CString) : Prop := ∃ word, c.Gives word ∧ CString.ofBytes word = name

/-- Where nothing has been left unread, the name that is read is the one that the node answers with. -/
theorem Conn.Live.names {name : CString} {c : Conn} (h : c.Live name) (hread : c.inbox = []) : c.Names name := by
  have halloc : ∀ n : Nat, (fun _ => true) n = true := fun _ => rfl
  let s : Session := ⟨Heap.empty, some c, .null⟩
  obtain ⟨word, ⟨rest, hsaid⟩, hword⟩ := h.said
  obtain ⟨out, s', hrun, hexchange⟩ := yields_clusterNodeWhoMaster halloc .null (s := s) rfl
  have hasked := ensures_asked halloc .null (s := s) rfl out s' hrun
  cases hexchange with
  | unsent _ _ hstopped => exact absurd h.written hstopped
  | cut _ _ hstuck =>
      refine absurd ⟨h.prompt, some (some word), rest, ?_⟩ hstuck
      rw [hread, List.nil_append]
      exact hsaid
  | read r rest' c' hread' _ _ _ _ _ delivered =>
      rw [hread, List.nil_append] at hread'
      obtain ⟨rfl, -⟩ := Prod.mk.inj (Except.ok.inj (hsaid.symm.trans hread'))
      obtain ⟨hrc, hvalue, -⟩ := delivered
      rcases hasked with ⟨word', hgives, -, hvalue'⟩ | ⟨-, hunnamed⟩
      · have hsame : terminated word' = terminated word := Option.some.inj (hvalue'.symm.trans hvalue)
        refine ⟨word', hgives, ?_⟩
        rw [← CString.ofBytes_terminated, hsame, CString.ofBytes_terminated, hword]
      · refine absurd ⟨hrc, fun hnull => ?_⟩ hunnamed
        rw [hnull] at hvalue
        cases hvalue

/-- On a dead connection no name is read, and nothing is left of it. -/
theorem Conn.Stale.silent {c : Conn} (h : c.Stale) (word : Bytes) : ¬c.Gives word := fun hgives =>
  h.elim (fun hstopped => hstopped hgives.written) fun hrefused => hrefused hgives.granted

theorem Conn.Stale.asked {c : Conn} (h : c.Stale) : c.asked = none :=
  if_neg fun ⟨hwritten, hgranted⟩ => h.elim (fun hstopped => hstopped hwritten) fun hrefused => hrefused hgranted

theorem Dialer.Accepts.names {dial : Dialer} {cluster name : CString} {address : List Address}
    (h : dial.Accepts cluster name address) (n : Nat) : ∃ peer prologue, dial n address = .ok peer ∧
      (prologueCommand cluster).assembled = some prologue ∧ peer.writes 0 = .complete ∧
      ((Conn.fresh peer).accept prologue).Names name := by
  obtain ⟨peer, prologue, hdial, hprologue, hwritten, hlive⟩ := h n
  exact ⟨peer, prologue, hdial, hprologue, hwritten, hlive.names rfl⟩

section Accepts

variable {dial : Dialer} {w : World} {name : CString} {k : NodeId}
  (haccepts : dial.Accepts w.cluster.name name (w.cluster.node k).address)
include haccepts

/-- A node that accepts connections gives the name unless it has a connection on which it does not. -/
theorem connecting_names_iff {n : Nat} {o : Option Conn} :
    (∃ n' c, Connecting dial w k n o n' (some c) ∧ c.Names name) ↔ ∀ c, o = some c → c.Names name := by
  cases o with
  | some c =>
      constructor
      · rintro ⟨n', c', hconnect, hnames⟩ c'' hc''
        obtain rfl := Option.some.inj hc''
        cases hconnect with
        | connected => exact hnames
      · exact fun h => ⟨n, c, .connected n c, h c rfl⟩
  | none =>
      refine iff_of_true ?_ fun _ h => by cases h
      obtain ⟨peer, prologue, hdial, hprologue, hwritten, hnames⟩ := haccepts.names n
      have hopened := Connecting.opened hdial hprologue
      rw [if_pos hwritten] at hopened
      exact ⟨_, _, hopened, hnames⟩

/-- It is passed by only on a connection that there has been before. -/
theorem connecting_silent_iff {n n' : Nat} {o o' : Option Conn} :
    (Connecting dial w k n o n' o' ∧ ∀ c, o' = some c → ∀ word, ¬c.Gives word) ↔
      n' = n ∧ o' = o ∧ ∃ c, o = some c ∧ ∀ word, ¬c.Gives word := by
  constructor
  · rintro ⟨hconnect, hsilent⟩
    cases hconnect with
    | connected c => exact ⟨rfl, rfl, c, rfl, hsilent c rfl⟩
    | refused hrefused =>
        obtain ⟨peer, prologue, hdial, -⟩ := haccepts n
        cases hrefused.symm.trans hdial
    | opened hdial' hprologue' =>
        obtain ⟨peer, prologue, hdial, hprologue, hwritten, word, hgives, -⟩ := haccepts.names n
        obtain rfl := Except.ok.inj (hdial.symm.trans hdial')
        obtain rfl := Option.some.inj (hprologue.symm.trans hprologue')
        exact absurd hgives (hsilent _ (if_pos hwritten) word)
  · rintro ⟨rfl, rfl, c, rfl, hsilent⟩
    refine ⟨.connected _ c, fun c' hc' => ?_⟩
    obtain rfl := Option.some.inj hc'
    exact hsilent

end Accepts

/-- Nodes that accept connections are passed by exactly if all of them have one on which no name is read. -/
theorem passes_iff {dial : Dialer} {w : World} {name : CString} {ks : List NodeId} (hnodup : ks.Nodup)
    (haccepts : ∀ k ∈ ks, dial.Accepts w.cluster.name name (w.cluster.node k).address) {l l' : Links} :
    Passes dial w ks l l' ↔ (∀ k ∈ ks, ∃ c, l.conn k = some c ∧ ∀ word, ¬c.Gives word) ∧
      l' = ⟨l.dials, fun k => if k ∈ ks then (l.conn k).bind Conn.asked else l.conn k⟩ := by
  induction ks generalizing l with
  | nil =>
      constructor
      · rintro ⟨⟩
        exact ⟨fun _ h => absurd h List.not_mem_nil, by simp⟩
      · rintro ⟨-, rfl⟩
        simp only [List.not_mem_nil, if_false]
        exact .nil l
  | cons j ks ih =>
      obtain ⟨hj, hnodup⟩ := List.nodup_cons.mp hnodup
      have hsilent := fun n' o' =>
        @connecting_silent_iff dial w name j (haccepts j List.mem_cons_self) l.dials n' (l.conn j) o'
      have hrest := fun l => @ih hnodup (fun k hk => haccepts k (List.mem_cons_of_mem _ hk)) l
      have hother : ∀ k ∈ ks, k ≠ j := fun k hk heq => hj (heq ▸ hk)
      -- The links behind the visit to `j`, as the nodes behind it see them.
      have hconn : ∀ k, (if k ∈ ks then ((Function.update l.conn j ((l.conn j).bind Conn.asked)) k).bind Conn.asked
          else Function.update l.conn j ((l.conn j).bind Conn.asked) k) =
            if k ∈ j :: ks then (l.conn k).bind Conn.asked else l.conn k := by
        intro k
        by_cases hk : k = j
        · rw [hk, if_neg hj, Function.update_self, if_pos List.mem_cons_self]
        · rw [Function.update_of_ne hk]
          simp only [List.mem_cons, hk, false_or]
      constructor
      · rintro (_ | ⟨hconnect, hnone, hpasses⟩)
        obtain ⟨rfl, rfl, hpassed⟩ := (hsilent _ _).mp ⟨hconnect, hnone⟩
        obtain ⟨hall, rfl⟩ := (hrest _).mp hpasses
        refine ⟨fun k hk => ?_, ?_⟩
        · rcases List.mem_cons.mp hk with rfl | hk
          · exact hpassed
          · have hkept := hall k hk
            simp only [Function.update_of_ne (hother k hk)] at hkept
            exact hkept
        · simp only [hconn]
      · rintro ⟨hall, rfl⟩
        obtain ⟨hconnect, hnone⟩ := (hsilent _ _).mpr ⟨rfl, rfl, hall j List.mem_cons_self⟩
        refine .cons hconnect hnone ((hrest _).mpr ⟨fun k hk => ?_, ?_⟩)
        · simp only [Function.update_of_ne (hother k hk)]
          exact hall k (List.mem_cons_of_mem _ hk)
        · simp only [hconn]

section Search

variable (dial : Dialer) (w : World) (j : NodeId)

/-- The nodes have names of their own, all of them accept connections, and all answer there that the master is `j`. -/
structure World.Agreed : Prop where
  distinct : (w.cluster.nodes.map fun k => (w.cluster.node k).name).Nodup
  mem : j ∈ w.cluster.nodes
  accepts : ∀ k ∈ w.cluster.nodes,
    dial.Accepts w.cluster.name (w.cluster.node j).name (w.cluster.node k).address

/-- There is a connection to the node, and no name is read on it. -/
def World.Passed (k : NodeId) : Prop := ∃ c, (w.cluster.node k).conn = some c ∧ ∀ word, ¬c.Gives word

/-- Some node has no connection, or one on which the name of `j` is read, and the nodes before it have connections on
which no name is read. If `j` is behind it, the same goes for the connection of `j`; if it is before it, for what is
left of the connection of `j` when it has been asked. -/
def World.Reachable : Prop :=
  ∃ pre k post, w.cluster.nodes = pre ++ k :: post ∧ (∀ i ∈ pre, w.Passed i) ∧
    (∀ c, (w.cluster.node k).conn = some c → c.Names (w.cluster.node j).name) ∧
    (j ∈ post → ∀ c, (w.cluster.node j).conn = some c → c.Names (w.cluster.node j).name) ∧
    (j ∈ pre → ∀ c, (w.cluster.node j).conn.bind Conn.asked = some c → c.Names (w.cluster.node j).name)

end Search

section Agreed

variable {dial : Dialer} {w : World} {j : NodeId} (h : w.Agreed dial j)
include h

theorem World.Agreed.eq {k : NodeId} (hk : k ∈ w.cluster.nodes)
    (hname : (w.cluster.node k).name = (w.cluster.node j).name) : k = j :=
  List.inj_on_of_nodup_map h.distinct hk h.mem hname

/-- The node that is looked up by the name of `j` is `j`. -/
theorem World.Agreed.find :
    w.cluster.nodes.find? (fun i => (w.cluster.node i).name = (w.cluster.node j).name) = some j := by
  cases hfind : w.cluster.nodes.find? (fun i => (w.cluster.node i).name = (w.cluster.node j).name) with
  | none =>
      have hnone := List.find?_eq_none.mp hfind j h.mem
      simp at hnone
  | some i =>
      have hi : (w.cluster.node i).name = (w.cluster.node j).name := by simpa using List.find?_some hfind
      rw [h.eq (List.mem_of_find?_eq_some hfind) hi]

/-- Up to some node the search passes all nodes by, exactly if all of them have connections on which no name is read. -/
theorem World.Agreed.passes_iff {pre post : List NodeId} {k : NodeId} (hnodes : w.cluster.nodes = pre ++ k :: post)
    {l : Links} : Passes dial w pre w.links l ↔ (∀ i ∈ pre, w.Passed i) ∧
      l = ⟨w.dials, fun i => if i ∈ pre then (w.cluster.node i).conn.bind Conn.asked else (w.cluster.node i).conn⟩ := by
  have hnodup : w.cluster.nodes.Nodup := List.Nodup.of_map _ h.distinct
  rw [hnodes] at hnodup
  refine Crakoon.passes_iff (List.nodup_append.mp hnodup).1 fun i hi => h.accepts i ?_
  rw [hnodes]
  exact List.mem_append_left _ hi

/-- The search comes to `j` and reads its name there exactly if `j` is within reach. -/
theorem World.Agreed.reachable_iff_asks :
    (∃ c word, w.Asks dial j c ∧ c.Gives word ∧ CString.ofBytes word = (w.cluster.node j).name) ↔ w.Reachable j := by
  have hnodup : w.cluster.nodes.Nodup := List.Nodup.of_map _ h.distinct
  have hapart : ∀ {pre k post}, w.cluster.nodes = pre ++ k :: post → k ∉ pre ∧ k ∉ post ∧ ∀ i ∈ pre, i ∉ post := by
    intro pre k post hnodes
    rw [hnodes] at hnodup
    obtain ⟨-, htail, hdisjoint⟩ := List.nodup_append.mp hnodup
    refine ⟨fun hk => hdisjoint k hk k List.mem_cons_self rfl, (List.nodup_cons.mp htail).1, fun i hi hpost => ?_⟩
    exact hdisjoint i hi i (List.mem_cons_of_mem _ hpost) rfl
  have hmem : ∀ {pre k post}, w.cluster.nodes = pre ++ k :: post → k ∈ w.cluster.nodes := fun hnodes => by
    rw [hnodes]
    exact List.mem_append_right _ List.mem_cons_self
  constructor
  · rintro ⟨c, word, hasks, hgives, hname⟩
    cases hasks with
    | @find pre post l n hnodes hpasses hconnect =>
        obtain ⟨hpassed, rfl⟩ := (h.passes_iff hnodes).mp hpasses
        obtain ⟨hpre, hpost, -⟩ := hapart hnodes
        simp only [if_neg hpre] at hconnect
        have hnames := (connecting_names_iff (h.accepts j h.mem)).mp ⟨n, c, hconnect, word, hgives, hname⟩
        exact ⟨pre, j, post, hnodes, hpassed, hnames, fun _ => hnames, fun hj => absurd hj hpre⟩
    | @validate pre post i l n n' c₁ word₁ hnodes hpasses hconnect₁ hgives₁ hother hfound hconnect =>
        obtain ⟨hpassed, rfl⟩ := (h.passes_iff hnodes).mp hpasses
        obtain ⟨hpre, -, hdisjoint⟩ := hapart hnodes
        have hword₁ : CString.ofBytes word₁ = (w.cluster.node j).name := by
          have hname₁ : (w.cluster.node j).name = CString.ofBytes word₁ := by simpa using List.find?_some hfound
          exact hname₁.symm
        simp only [if_neg hpre] at hconnect₁
        have hnames₁ := (connecting_names_iff (h.accepts i (hmem hnodes))).mp ⟨n, c₁, hconnect₁, word₁, hgives₁, hword₁⟩
        have hnames := (connecting_names_iff (h.accepts j h.mem)).mp ⟨n', c, hconnect, word, hgives, hname⟩
        refine ⟨pre, i, post, hnodes, hpassed, hnames₁, fun hj => ?_, fun hj => ?_⟩
        · have hjpre : j ∉ pre := fun hpre => hdisjoint j hpre hj
          simpa only [if_neg hjpre] using hnames
        · simpa only [if_pos hj] using hnames
  · rintro ⟨pre, k, post, hnodes, hpassed, hnames, hpost, hpre⟩
    obtain ⟨hkpre, -, hdisjoint⟩ := hapart hnodes
    have hpasses := (h.passes_iff hnodes).mpr ⟨hpassed, rfl⟩
    obtain ⟨n, c, hconnect, word, hgives, hword⟩ :=
      (connecting_names_iff (n := w.dials) (h.accepts k (hmem hnodes))).mpr hnames
    have hconnect' : Connecting dial w k w.dials
        (if k ∈ pre then (w.cluster.node k).conn.bind Conn.asked else (w.cluster.node k).conn) n (some c) := by
      rw [if_neg hkpre]
      exact hconnect
    by_cases hk : k = j
    · subst hk
      exact ⟨c, word, .find hnodes hpasses hconnect', hgives, hword⟩
    · have hother : (w.cluster.node k).name ≠ CString.ofBytes word := by
        rw [hword]
        exact fun hname => hk (h.eq (hmem hnodes) hname)
      have hfound := h.find
      rw [← hword] at hfound
      have hlast : ∀ c, (if j ∈ pre then (w.cluster.node j).conn.bind Conn.asked else (w.cluster.node j).conn) = some c →
          c.Names (w.cluster.node j).name := by
        by_cases hj : j ∈ pre
        · simpa only [if_pos hj] using hpre hj
        · have hmem := h.mem
          rw [hnodes, List.mem_append, List.mem_cons] at hmem
          simpa only [if_neg hj] using hpost ((hmem.resolve_left hj).resolve_left (Ne.symm hk))
      obtain ⟨n', c', hconnect₂, word', hgives', hname'⟩ :=
        (connecting_names_iff (n := n) (h.accepts j h.mem)).mpr hlast
      exact ⟨c', word', .validate hnodes hpasses hconnect' hgives hother hfound hconnect₂, hgives', hname'⟩

end Agreed

/-- The search returns, and it has installed the master if and only if this is within reach. -/
theorem master_search_succeeds {alloc : Nat → Bool} (halloc : ∀ n, alloc n = true) {dial : Dialer} {w : World}
    {j : NodeId} (h : w.Agreed dial j) :
    ∃ rc w', (arakoonClusterConnectMaster alloc dial).run w = some (rc, w') ∧
      (rc = 0 ∧ w'.cluster.master = some j ↔ w.Reachable j) := by
  obtain ⟨-, prologue, -, hprologue, -⟩ := h.accepts j h.mem 0
  obtain ⟨rc, w', hrun, -⟩ := @yields_connectMaster alloc halloc dial _ _ hprologue
  refine ⟨rc, w', hrun, ?_⟩
  rw [← h.reachable_iff_asks, ← World.heard_iff halloc]
  rcases ensures_connectMaster_heard halloc w rc w' hrun with ⟨k, rfl, hinstalled, honly⟩ | ⟨hrc, -, hnone⟩
  · constructor
    · rintro ⟨-, hmaster⟩
      obtain rfl := Option.some.inj (hinstalled.master.symm.trans hmaster)
      exact hinstalled.heard
    · intro hheard
      rw [honly j hheard]
      exact ⟨rfl, hinstalled.master⟩
  · exact iff_of_false (fun hdone => hrc hdone.1) (hnone j)

/-- There is a connection to the node, and it is dead. -/
def World.Stale (w : World) (k : NodeId) : Prop := ∃ c, (w.cluster.node k).conn = some c ∧ c.Stale

/-- Where every connection is dead, or is live and has nothing left unread, the master is within reach if some node has
no dead connection and, if that of the master is dead, the master comes before the first such node. -/
theorem World.reachable_iff {w : World} {j : NodeId}
    (hconns : ∀ k ∈ w.cluster.nodes, ∀ c, (w.cluster.node k).conn = some c →
      c.Stale ∨ c.Live (w.cluster.node j).name ∧ c.inbox = []) (hj : j ∈ w.cluster.nodes) :
    w.Reachable j ↔ ∃ pre k post, w.cluster.nodes = pre ++ k :: post ∧ (∀ i ∈ pre, w.Stale i) ∧ ¬w.Stale k ∧
      (j ∈ post → ¬w.Stale j) := by
  have hstale : ∀ k ∈ w.cluster.nodes, (w.Stale k ↔ w.Passed k) ∧
      (¬w.Stale k ↔ ∀ c, (w.cluster.node k).conn = some c → c.Names (w.cluster.node j).name) := by
    intro k hk
    cases hconn : (w.cluster.node k).conn with
    | none =>
        refine ⟨iff_of_false (fun ⟨c, hc, _⟩ => ?_) (fun ⟨c, hc, _⟩ => ?_), iff_of_true (fun ⟨c, hc, _⟩ => ?_)
          fun _ h => by cases h⟩
        all_goals
          rw [hconn] at hc
          cases hc
    | some c =>
        rcases hconns k hk c hconn with hdead | ⟨hlive, hread⟩
        · refine ⟨iff_of_true ⟨c, hconn, hdead⟩ ⟨c, hconn, hdead.silent⟩, iff_of_false (fun h => h ⟨c, hconn, hdead⟩) ?_⟩
          intro h
          obtain ⟨word, hgives, -⟩ := h c rfl
          exact hdead.silent word hgives
        · obtain ⟨word, hgives, hname⟩ := hlive.names hread
          have hopen : ∀ c', (w.cluster.node k).conn = some c' → c'.Gives word := by
            intro c' hc'
            rw [← Option.some.inj (hconn.symm.trans hc')]
            exact hgives
          refine ⟨iff_of_false (fun ⟨c', hc', hdead⟩ => hdead.silent word (hopen c' hc'))
            (fun ⟨c', hc', hsilent⟩ => hsilent word (hopen c' hc')), iff_of_true
            (fun ⟨c', hc', hdead⟩ => hdead.silent word (hopen c' hc')) fun c' hc' => ?_⟩
          obtain rfl := Option.some.inj hc'
          exact ⟨word, hgives, hname⟩
  refine exists_congr fun pre => exists_congr fun k => exists_congr fun post => and_congr_right fun hnodes => ?_
  have hpre : ∀ i ∈ pre, i ∈ w.cluster.nodes := fun i hi => by
    rw [hnodes]
    exact List.mem_append_left _ hi
  have hk : k ∈ w.cluster.nodes := by
    rw [hnodes]
    exact List.mem_append_right _ List.mem_cons_self
  rw [← (hstale k hk).2, ← (hstale j hj).2]
  constructor
  · rintro ⟨hpassed, hfirst, hpost, -⟩
    exact ⟨fun i hi => (hstale i (hpre i hi)).1.mpr (hpassed i hi), hfirst, hpost⟩
  · rintro ⟨hdead, hfirst, hpost⟩
    refine ⟨fun i hi => (hstale i (hpre i hi)).1.mp (hdead i hi), hfirst, hpost, fun hjpre c hc => ?_⟩
    obtain ⟨c₀, hconn, hstale₀⟩ := hdead j hjpre
    rw [hconn, Option.bind_some, hstale₀.asked] at hc
    cases hc

/-- A peer that takes every request and has closed its side. -/
def Peer.gone : Peer := .answering []

theorem stale_gone : (Conn.fresh Peer.gone).Stale := .inr fun hgrants => absurd hgrants.2 (by decide)

theorem accepts_sample (address : List Address) :
    (reaching (.answering masterReply)).Accepts sampleName sampleName address := fun _ =>
  ⟨_, _, rfl, rfl, rfl, rfl, fun _ => rfl, [99], ⟨[], rfl⟩, rfl⟩

/-- The only node accepts connections and is the master, and the search fails. -/
theorem connectMaster_stale :
    let dial := reaching (.answering masterReply)
    let w := World.connected sampleName .gone
    w.Agreed dial 0 ∧ w.Stale 0 ∧ ∃ rc w', (arakoonClusterConnectMaster (fun _ => true) dial).run w = some (rc, w') ∧
      rc ≠ 0 := by
  intro dial w
  refine ⟨⟨List.nodup_singleton _, List.mem_singleton.mpr rfl, fun k hk => ?_⟩, ⟨_, rfl, stale_gone⟩, _, _, rfl,
    by decide⟩
  obtain rfl := List.mem_singleton.mp hk
  exact accepts_sample _

/-- A node with a dead connection stands before the master. -/
def World.partlyStale : World where
  heap := Heap.empty
  dials := 0
  cluster := arakoonClusterAddNode
    (arakoonClusterAddNode (arakoonClusterNew .version1 sampleName) (arakoonClusterNodeNew sampleName))
    { arakoonClusterNodeNew ⟨[98], by simp⟩ with conn := some (Conn.fresh .gone) }

theorem World.partlyStale_conn {k : NodeId} {c : Conn} (h : (World.partlyStale.cluster.node k).conn = some c) :
    c = Conn.fresh .gone := by
  unfold World.partlyStale arakoonClusterAddNode Cluster.setNode at h
  dsimp only at h
  split_ifs at h
  · exact (Option.some.inj h).symm
  · cases h
  · cases h

/-- The master is found behind it. -/
theorem master_search_succeeds_partlyStale :
    ∃ w', (arakoonClusterConnectMaster (fun _ => true) (reaching (.answering masterReply))).run World.partlyStale =
      some (0, w') ∧ w'.cluster.master = some 0 := by
  have hagreed : World.partlyStale.Agreed (reaching (.answering masterReply)) 0 :=
    ⟨by decide, by decide, fun k _ => accepts_sample _⟩
  have hconns : ∀ k ∈ World.partlyStale.cluster.nodes, ∀ c, (World.partlyStale.cluster.node k).conn = some c →
      c.Stale ∨ c.Live (World.partlyStale.cluster.node 0).name ∧ c.inbox = [] := by
    intro k _ c hc
    obtain rfl := World.partlyStale_conn hc
    exact .inl stale_gone
  have hreachable : World.partlyStale.Reachable 0 := by
    refine (World.reachable_iff hconns (by decide)).mpr ⟨[1], 0, [], rfl, fun i hi => ?_, fun hstale => ?_,
      fun h => absurd h List.not_mem_nil⟩
    · obtain rfl := List.mem_singleton.mp hi
      exact ⟨_, rfl, stale_gone⟩
    · obtain ⟨c, hc, -⟩ := hstale
      cases hc
  obtain ⟨rc, w', hrun, hiff⟩ := master_search_succeeds (fun _ => rfl) hagreed
  obtain ⟨rfl, hmaster⟩ := hiff.mpr hreachable
  exact ⟨w', hrun, hmaster⟩

end Crakoon
