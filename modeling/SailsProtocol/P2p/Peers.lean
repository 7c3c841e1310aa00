import Mathlib.Logic.Function.Basic
import SailsProtocol.Async.Steps

/-!
# Peer tables and live connections

A node keeps two tables of the peers that have identified themselves (`pear.service.ts`) :
`peers` by peer id and `userPeerMap` by user. A HANDSHAKE is verified against the directory
of peer ids and then registered, and the close handler of a connection removes what the
tables hold under its peer id, whichever connection that is. The relay
(`websocket-relay.service.ts`) keeps one socket for each participant, and the close handler
of a socket removes the participant's.

* `PearNode.follows_iff` : in which runs the tables follow the live connections;
* `Relay.follows_iff` : in which runs a participant with an open socket can be reached.

Both conditions are about overlapping connections of one peer, user or participant.
-/

namespace Sails.P2p

open Async.Steps

/-! ## The node -/

namespace PearNode

/-- A peer as the node keeps it. -/
structure PearPeer where
  userId : String
  peerId : String
  connection : ℕ
  deriving DecidableEq, Repr

/-- A connection. `claims` are the users of HANDSHAKEs that are looked up, `answered` those
of lookups that agreed and `verified` those that were registered. -/
structure Connection where
  remotePeerId : String
  isOpen : Bool
  claims : List String
  answered : List String
  verified : List String
  deriving DecidableEq, Repr

/-- The node, its connections and the directory of users and peer ids, newest first. -/
structure State where
  directory : List (String × String)
  connections : List Connection
  peers : String → Option PearPeer
  userPeerMap : String → Option String

/-- A node before any event. -/
def start : State := ⟨[], [], fun _ => none, fun _ => none⟩

/-- What happens at the nodes. -/
inductive Event where
  /-- A user starts a node, which draws a new peer id. -/
  | announce (userId peerId : String)
  | connection (remotePeerId : String)
  /-- A HANDSHAKE arrives. -/
  | handshake (c : ℕ) (userId : String)
  /-- The directory is read. -/
  | lookup (c : ℕ) (userId : String)
  /-- The handler goes on after the lookup. -/
  | register (c : ℕ) (userId : String)
  | close (c : ℕ)
  deriving DecidableEq, Repr

/-- The peer id that a user announced. -/
def State.peerIdOf (s : State) (userId : String) : Option String :=
  (s.directory.find? fun e => e.1 = userId).map Prod.snd

/-- The state with connection `c` changed. -/
def State.setConnection (s : State) (c : ℕ) (conn : Connection) : State :=
  { s with connections := s.connections.set c conn }

/-- What an event does. -/
def step (s : State) : Event → State
  | .announce userId peerId =>
    if peerId ∈ s.directory.map Prod.snd then s
    else { s with directory := (userId, peerId) :: s.directory }
  | .connection remotePeerId =>
    { s with connections := s.connections ++ [⟨remotePeerId, true, [], [], []⟩] }
  | .handshake c userId =>
    match s.connections[c]? with
    | none => s
    | some conn =>
      if conn.isOpen then s.setConnection c { conn with claims := userId :: conn.claims } else s
  | .lookup c userId =>
    match s.connections[c]? with
    | none => s
    | some conn =>
      if userId ∈ conn.claims then
        if s.peerIdOf userId = some conn.remotePeerId then
          s.setConnection c { conn with
            claims := conn.claims.erase userId, answered := userId :: conn.answered }
        else s.setConnection c { conn with claims := conn.claims.erase userId }
      else s
  | .register c userId =>
    match s.connections[c]? with
    | none => s
    | some conn =>
      if userId ∈ conn.answered then
        { s.setConnection c { conn with
            answered := conn.answered.erase userId, verified := userId :: conn.verified } with
          peers := Function.update s.peers conn.remotePeerId
            (some ⟨userId, conn.remotePeerId, c⟩)
          userPeerMap := Function.update s.userPeerMap userId (some conn.remotePeerId) }
      else s
  | .close c =>
    match s.connections[c]? with
    | none => s
    | some conn =>
      if conn.isOpen then
        let s' := s.setConnection c { conn with isOpen := false }
        match s.peers conn.remotePeerId with
        | none => s'
        | some peer =>
          { s' with
            peers := Function.update s.peers conn.remotePeerId none
            userPeerMap := Function.update s.userPeerMap peer.userId none }
      else s

/-- The connection a message to a user is written to. -/
def sendToPeer (s : State) (userId : String) : Option ℕ :=
  match s.userPeerMap userId with
  | none => none
  | some peerId => (s.peers peerId).map PearPeer.connection

/-- Whether a channel to a user hands on a message from a peer id. -/
def onEvent (s : State) (remoteUserId peerId : String) : Bool :=
  s.userPeerMap remoteUserId = some peerId

/-- An open connection on which a HANDSHAKE for the user was verified. -/
def Live (s : State) (c : ℕ) (userId : String) : Prop :=
  ∃ conn, s.connections[c]? = some conn ∧ conn.isOpen = true ∧ userId ∈ conn.verified

/-- Every user with a live connection has an entry that leads to one, and no other user has
an entry. -/
def Follows (s : State) : Prop :=
  ∀ userId,
    (∀ c, Live s c userId → ∃ peerId peer, s.userPeerMap userId = some peerId ∧
      s.peers peerId = some peer ∧ Live s peer.connection userId) ∧
    ((∀ c, ¬ Live s c userId) → s.userPeerMap userId = none)

/-- A connection is registered while it is open, and when one closes no other live
connection has its peer id or a user of its own. -/
def Orderly (s : State) : Event → Prop
  | .register c userId => ∀ conn, s.connections[c]? = some conn → userId ∈ conn.answered →
      conn.isOpen = true
  | .close c => ∀ conn, s.connections[c]? = some conn → conn.isOpen = true →
      ∀ c' conn' userId, c' ≠ c → s.connections[c']? = some conn' → conn'.isOpen = true →
        userId ∈ conn'.verified →
        conn'.remotePeerId ≠ conn.remotePeerId ∧ userId ∉ conn.verified
  | _ => True

/-- What the tables say about the connections : a peer id is one user's, an entry of `peers`
is a live connection, a live connection has entries in both tables, and an entry of
`userPeerMap` leads to one of `peers`. -/
structure Consistent (s : State) : Prop where
  owner : ∀ u u' p, (u, p) ∈ s.directory → (u', p) ∈ s.directory → u = u'
  looked : ∀ (c : ℕ) (conn : Connection) u, s.connections[c]? = some conn →
    u ∈ conn.answered ∨ u ∈ conn.verified → (u, conn.remotePeerId) ∈ s.directory
  entry : ∀ p (peer : PearPeer), s.peers p = some peer →
    ∃ conn : Connection, s.connections[peer.connection]? = some conn ∧
    conn.isOpen = true ∧ peer.userId ∈ conn.verified ∧ conn.remotePeerId = p
  listed : ∀ (c : ℕ) (conn : Connection) u, s.connections[c]? = some conn →
    conn.isOpen = true → u ∈ conn.verified →
    (∃ peer, s.peers conn.remotePeerId = some peer) ∧ ∃ p, s.userPeerMap u = some p
  mapped : ∀ u p, s.userPeerMap u = some p → ∃ peer, s.peers p = some peer ∧ peer.userId = u

theorem Consistent.start : Consistent start where
  owner := nofun
  looked _ _ _ h := by simp [PearNode.start] at h
  entry := nofun
  listed _ _ _ h := by simp [PearNode.start] at h
  mapped := nofun

variable {s : State}

/-- The entry under the peer id of a live connection is its user's. -/
theorem Consistent.entry_user (h : Consistent s) {c : ℕ} {conn : Connection} {u : String}
    {peer : PearPeer} (hc : s.connections[c]? = some conn) (hu : u ∈ conn.verified)
    (hpeer : s.peers conn.remotePeerId = some peer) : peer.userId = u := by
  obtain ⟨conn', hc', -, hu', hid⟩ := h.entry _ _ hpeer
  have hdir := h.looked _ _ _ hc' (.inr hu')
  rw [hid] at hdir
  exact h.owner _ _ _ hdir (h.looked _ _ _ hc (.inr hu))

/-- The table of a consistent node follows its connections. -/
theorem Consistent.follows (h : Consistent s) : Follows s := by
  intro u
  constructor
  · rintro c ⟨conn, hc, hopen, hu⟩
    obtain ⟨-, p, hp⟩ := h.listed _ _ _ hc hopen hu
    obtain ⟨peer, hpeer, rfl⟩ := h.mapped _ _ hp
    obtain ⟨conn', hc', hopen', hu', -⟩ := h.entry _ _ hpeer
    exact ⟨p, peer, hp, hpeer, conn', hc', hopen', hu'⟩
  · intro hnone
    rcases hp : s.userPeerMap u with _ | p
    · rfl
    · obtain ⟨peer, hpeer, rfl⟩ := h.mapped _ _ hp
      obtain ⟨conn, hc, hopen, hu, -⟩ := h.entry _ _ hpeer
      exact absurd ⟨conn, hc, hopen, hu⟩ (hnone peer.connection)

/-! ### One step -/

theorem getElem?_setConnection {c c' : ℕ} {conn conn' : Connection}
    (h : (s.setConnection c conn).connections[c']? = some conn') :
    c' = c ∧ conn' = conn ∨ c' ≠ c ∧ s.connections[c']? = some conn' := by
  rw [State.setConnection, List.getElem?_set] at h
  split_ifs at h with hc hlt
  · exact .inl ⟨hc.symm, (Option.some.inj h).symm⟩
  · exact .inr ⟨fun heq => hc heq.symm, h⟩

theorem setConnection_of_ne {c c' : ℕ} {conn : Connection} (h : c' ≠ c) :
    (s.setConnection c conn).connections[c']? = s.connections[c']? := by
  rw [State.setConnection, List.getElem?_set_ne h.symm]

theorem setConnection_self {c : ℕ} {conn conn' : Connection} (h : s.connections[c]? = some conn) :
    (s.setConnection c conn').connections[c]? = some conn' := by
  rw [State.setConnection, List.getElem?_set_self (List.getElem?_eq_some_iff.mp h).1]

/-- A change of what is claimed and looked up on a connection. -/
theorem Consistent.setConnection (h : Consistent s) {c : ℕ} {conn conn' : Connection}
    (hc : s.connections[c]? = some conn) (hid : conn'.remotePeerId = conn.remotePeerId)
    (hopen : conn'.isOpen = conn.isOpen) (hverified : conn'.verified = conn.verified)
    (hanswered : ∀ u ∈ conn'.answered, (u, conn.remotePeerId) ∈ s.directory) :
    Consistent (s.setConnection c conn') where
  owner := h.owner
  looked c' x u hx hu := by
    rcases getElem?_setConnection hx with ⟨rfl, rfl⟩ | ⟨-, hx⟩
    · rw [hid]
      rcases hu with hu | hu
      · exact hanswered u hu
      · exact h.looked _ _ _ hc (.inr (hverified ▸ hu))
    · exact h.looked _ _ _ hx hu
  entry p peer hpeer := by
    obtain ⟨x, hx, hxopen, hxu, hxid⟩ := h.entry p peer hpeer
    by_cases hcc : peer.connection = c
    · rw [hcc] at hx ⊢
      obtain rfl : conn = x := Option.some.inj (hc.symm.trans hx)
      exact ⟨conn', setConnection_self hc, hopen.trans hxopen, hverified ▸ hxu, hid.trans hxid⟩
    · exact ⟨x, (setConnection_of_ne hcc).trans hx, hxopen, hxu, hxid⟩
  listed c' x u hx hxopen hu := by
    rcases getElem?_setConnection hx with ⟨rfl, rfl⟩ | ⟨-, hx⟩
    · rw [hid]
      exact h.listed _ _ _ hc (hopen ▸ hxopen) (hverified ▸ hu)
    · exact h.listed _ _ _ hx hxopen hu
  mapped := h.mapped

theorem peerIdOf_mem {u p : String} (h : s.peerIdOf u = some p) : (u, p) ∈ s.directory := by
  obtain ⟨⟨u', p'⟩, hfind, rfl⟩ := Option.map_eq_some_iff.mp h
  have hu : u' = u := by simpa using List.find?_some hfind
  exact hu ▸ List.mem_of_find?_eq_some hfind

/-- An announcement keeps the node consistent. -/
theorem Consistent.announce (h : Consistent s) (u p : String) :
    Consistent (step s (.announce u p)) := by
  rw [step]
  split_ifs with hp
  · exact h
  refine ⟨fun v v' q hv hv' => ?_, fun c conn v hc hv => ?_, h.entry, h.listed, h.mapped⟩
  · have hnot : ∀ w, (w, p) ∉ s.directory := fun w hw => hp (List.mem_map_of_mem hw)
    rcases List.mem_cons.mp hv with hv | hv <;> rcases List.mem_cons.mp hv' with hv' | hv'
    · exact (Prod.mk.inj hv).1.trans (Prod.mk.inj hv').1.symm
    · exact absurd ((Prod.mk.inj hv).2 ▸ hv') (hnot v')
    · exact absurd ((Prod.mk.inj hv').2 ▸ hv) (hnot v)
    · exact h.owner v v' q hv hv'
  · exact List.mem_cons_of_mem _ (h.looked c conn v hc hv)

/-- A connection keeps the node consistent. -/
theorem Consistent.connection (h : Consistent s) (p : String) :
    Consistent (step s (.connection p)) := by
  have hold : ∀ {c : ℕ} {conn : Connection} {u : String},
      (s.connections ++ [⟨p, true, [], [], []⟩])[c]? = some conn →
      u ∈ conn.answered ∨ u ∈ conn.verified → s.connections[c]? = some conn := by
    intro c conn u hc hu
    rw [List.getElem?_append] at hc
    split_ifs at hc with hlt
    · exact hc
    · rw [List.getElem?_singleton] at hc
      split_ifs at hc with hzero
      obtain rfl := Option.some.inj hc
      rcases hu with hu | hu <;> cases hu
  refine ⟨h.owner, fun c conn u hc hu => h.looked _ _ _ (hold hc hu) hu, fun q peer hpeer => ?_,
    fun c conn u hc hopen hu => h.listed _ _ _ (hold hc (.inr hu)) hopen hu, h.mapped⟩
  obtain ⟨conn, hconn, hrest⟩ := h.entry q peer hpeer
  refine ⟨conn, ?_, hrest⟩
  rw [step, List.getElem?_append_left (List.getElem?_eq_some_iff.mp hconn).1]
  exact hconn

/-- A handshake keeps the node consistent. -/
theorem Consistent.handshake (h : Consistent s) (c : ℕ) (u : String) :
    Consistent (step s (.handshake c u)) := by
  rw [step]
  rcases hc : s.connections[c]? with _ | conn
  · exact h
  dsimp only
  split_ifs
  · exact h.setConnection hc rfl rfl rfl fun v hv => h.looked _ _ _ hc (.inl hv)
  · exact h

/-- A look at the directory keeps the node consistent. -/
theorem Consistent.lookup (h : Consistent s) (c : ℕ) (u : String) :
    Consistent (step s (.lookup c u)) := by
  rw [step]
  rcases hc : s.connections[c]? with _ | conn
  · exact h
  dsimp only
  split_ifs with hclaim hid
  · refine h.setConnection hc rfl rfl rfl fun v hv => ?_
    rcases List.mem_cons.mp hv with rfl | hv
    · exact peerIdOf_mem hid
    · exact h.looked _ _ _ hc (.inl hv)
  · exact h.setConnection hc rfl rfl rfl fun v hv => h.looked _ _ _ hc (.inl hv)
  · exact h

/-- A registration in order keeps the node consistent. -/
theorem Consistent.register (h : Consistent s) {c : ℕ} {u : String}
    (horderly : Orderly s (.register c u)) : Consistent (step s (.register c u)) := by
  rw [step]
  rcases hc : s.connections[c]? with _ | conn
  · exact h
  dsimp only
  split_ifs with hanswered
  swap
  · exact h
  have hopen := horderly conn hc hanswered
  have hdir := h.looked _ _ _ hc (.inl hanswered)
  have hold : ∀ w, w ∈ conn.answered.erase u ∨ w ∈ u :: conn.verified →
      (w, conn.remotePeerId) ∈ s.directory := by
    rintro w (hw | hw)
    · exact h.looked _ _ _ hc (.inl (List.mem_of_mem_erase hw))
    · rcases List.mem_cons.mp hw with rfl | hw
      · exact hdir
      · exact h.looked _ _ _ hc (.inr hw)
  refine ⟨h.owner, fun c' x v hx hv => ?_, fun p peer hpeer => ?_, fun c' x v hx hxopen hv => ?_,
    fun v p hp => ?_⟩
  · rcases getElem?_setConnection hx with ⟨rfl, rfl⟩ | ⟨-, hx⟩
    · exact hold v hv
    · exact h.looked _ _ _ hx hv
  · dsimp only at hpeer
    by_cases hp : p = conn.remotePeerId
    · rw [hp, Function.update_self] at hpeer
      obtain rfl := Option.some.inj hpeer
      exact ⟨_, setConnection_self hc, hopen, List.mem_cons_self, hp.symm⟩
    · rw [Function.update_of_ne hp] at hpeer
      obtain ⟨x, hx, hxopen, hxu, hxid⟩ := h.entry p peer hpeer
      have hne : peer.connection ≠ c := by
        rintro heq
        rw [heq, hc] at hx
        obtain rfl := Option.some.inj hx
        exact hp hxid.symm
      exact ⟨x, (setConnection_of_ne hne).trans hx, hxopen, hxu, hxid⟩
  · dsimp only
    have hpeers : ∀ q, (∃ peer, s.peers q = some peer) → ∃ peer,
        Function.update s.peers conn.remotePeerId (some ⟨u, conn.remotePeerId, c⟩) q
          = some peer := by
      intro q hq
      by_cases heq : q = conn.remotePeerId
      · exact ⟨_, by rw [heq, Function.update_self]⟩
      · rw [Function.update_of_ne heq]
        exact hq
    have hmap : ∀ w, (∃ q, s.userPeerMap w = some q) → ∃ q,
        Function.update s.userPeerMap u (some conn.remotePeerId) w = some q := by
      intro w hw
      by_cases heq : w = u
      · exact ⟨_, by rw [heq, Function.update_self]⟩
      · rw [Function.update_of_ne heq]
        exact hw
    rcases getElem?_setConnection hx with ⟨rfl, rfl⟩ | ⟨-, hx⟩
    · refine ⟨⟨_, Function.update_self _ _ _⟩, ?_⟩
      rcases List.mem_cons.mp hv with rfl | hv
      · exact ⟨_, Function.update_self _ _ _⟩
      · exact hmap v (h.listed _ _ _ hc hopen hv).2
    · obtain ⟨hpeer, hentry⟩ := h.listed _ _ _ hx hxopen hv
      exact ⟨hpeers _ hpeer, hmap v hentry⟩
  · dsimp only at hp ⊢
    by_cases hv : v = u
    · rw [hv, Function.update_self] at hp
      obtain rfl := Option.some.inj hp
      exact ⟨_, Function.update_self _ _ _, hv.symm⟩
    · rw [Function.update_of_ne hv] at hp
      obtain ⟨peer, hpeer, rfl⟩ := h.mapped v p hp
      -- another user's entry is not under this peer id
      have hne : p ≠ conn.remotePeerId := by
        rintro rfl
        obtain ⟨x, hx, -, hxu, hxid⟩ := h.entry _ _ hpeer
        have := h.looked _ _ _ hx (.inr hxu)
        rw [hxid] at this
        exact hv (h.owner _ _ _ this hdir)
      exact ⟨peer, (Function.update_of_ne hne _ _).trans hpeer, rfl⟩

/-- A close in order keeps the node consistent. -/
theorem Consistent.close (h : Consistent s) {c : ℕ} (horderly : Orderly s (.close c)) :
    Consistent (step s (.close c)) := by
  rw [step]
  rcases hc : s.connections[c]? with _ | conn
  · exact h
  dsimp only
  split_ifs with hopen
  swap
  · exact h
  have hothers := horderly conn hc hopen
  -- an entry under another peer id is another connection's
  have hkept : ∀ p peer, s.peers p = some peer → p ≠ conn.remotePeerId →
      ∃ x, (s.setConnection c { conn with isOpen := false }).connections[peer.connection]?
        = some x ∧ x.isOpen = true ∧ peer.userId ∈ x.verified ∧ x.remotePeerId = p := by
    intro p peer hpeer hp
    obtain ⟨x, hx, hrest⟩ := h.entry p peer hpeer
    have hne : peer.connection ≠ c := by
      intro heq
      rw [heq, hc] at hx
      obtain rfl := Option.some.inj hx
      exact hp hrest.2.2.symm
    exact ⟨x, (setConnection_of_ne hne).trans hx, hrest⟩
  have hlooked : ∀ (c' : ℕ) (x : Connection) (v : String),
      (s.setConnection c { conn with isOpen := false }).connections[c']? = some x →
      v ∈ x.answered ∨ v ∈ x.verified → (v, x.remotePeerId) ∈ s.directory := by
    intro c' x v hx hv
    rcases getElem?_setConnection hx with ⟨rfl, rfl⟩ | ⟨-, hx⟩
    · have hlook := h.looked c' conn v hc hv
      exact hlook
    · exact h.looked _ _ _ hx hv
  rcases hentry : s.peers conn.remotePeerId with _ | peer₀
  · dsimp only
    refine ⟨h.owner, hlooked, fun p peer hpeer => hkept p peer hpeer ?_,
      fun c' x v hx hxopen hv => ?_, h.mapped⟩
    · rintro rfl
      have hpeer' : s.peers conn.remotePeerId = some peer := hpeer
      rw [hentry] at hpeer'
      cases hpeer'
    · rcases getElem?_setConnection hx with ⟨rfl, rfl⟩ | ⟨-, hx⟩
      · cases hxopen
      · exact h.listed _ _ _ hx hxopen hv
  · obtain ⟨x₀, hx₀, hx₀open, hu₀, hid₀⟩ := h.entry _ _ hentry
    have hself : peer₀.connection = c := by
      by_contra hne
      exact (hothers _ _ _ hne hx₀ hx₀open hu₀).1 hid₀
    rw [hself, hc] at hx₀
    obtain rfl := Option.some.inj hx₀
    dsimp only
    refine ⟨h.owner, hlooked, fun p peer hpeer => ?_, fun c' x v hx hxopen hv => ?_,
      fun v p hp => ?_⟩
    · dsimp only at hpeer
      by_cases hp : p = conn.remotePeerId
      · rw [hp, Function.update_self] at hpeer
        cases hpeer
      · rw [Function.update_of_ne hp] at hpeer
        exact hkept p peer hpeer hp
    · rcases getElem?_setConnection hx with ⟨rfl, rfl⟩ | ⟨hne, hx⟩
      · cases hxopen
      · obtain ⟨hid, huser⟩ := hothers _ _ _ hne hx hxopen hv
        dsimp only
        rw [Function.update_of_ne hid, Function.update_of_ne (by rintro rfl; exact huser hu₀)]
        exact h.listed _ _ _ hx hxopen hv
    · dsimp only at hp ⊢
      by_cases hv : v = peer₀.userId
      · rw [hv, Function.update_self] at hp
        cases hp
      · rw [Function.update_of_ne hv] at hp
        obtain ⟨peer, hpeer, rfl⟩ := h.mapped v p hp
        have hne : p ≠ conn.remotePeerId := by
          rintro rfl
          rw [hentry] at hpeer
          exact hv (congrArg PearPeer.userId (Option.some.inj hpeer)).symm
        exact ⟨peer, (Function.update_of_ne hne _ _).trans hpeer, rfl⟩

/-- An event in order keeps the node consistent. -/
theorem Consistent.step (h : Consistent s) (e : Event) (horderly : Orderly s e) :
    Consistent (step s e) := by
  cases e with
  | announce u p => exact h.announce u p
  | connection p => exact h.connection p
  | handshake c u => exact h.handshake c u
  | lookup c u => exact h.lookup c u
  | register c u => exact h.register horderly
  | close c => exact h.close horderly

/-! ### What a disorderly step does -/

/-- A connection that is registered after it closed leaves an entry that leads nowhere. -/
theorem open_of_follows {c : ℕ} {u : String} {conn : Connection}
    (hc : s.connections[c]? = some conn) (hanswered : u ∈ conn.answered)
    (hafter : Follows (PearNode.step s (.register c u))) : conn.isOpen = true := by
  rw [PearNode.step, hc] at hafter
  dsimp only at hafter
  rw [if_pos hanswered] at hafter
  obtain ⟨hlive, hnone⟩ := hafter u
  dsimp only at hlive hnone
  rw [Function.update_self] at hlive hnone
  by_contra hclosed
  refine absurd (hnone fun c' hc' => ?_) (by simp)
  obtain ⟨p, peer, hp, hpeer, x, hx, hopen, -⟩ := hlive c' hc'
  obtain rfl := Option.some.inj hp
  rw [Function.update_self] at hpeer
  obtain rfl := Option.some.inj hpeer
  have hself : x = _ := Option.some.inj (hx.symm.trans (setConnection_self hc))
  rw [hself] at hopen
  exact hclosed hopen

/-- Closing a connection takes the entry of its peer id's user. -/
theorem not_follows_of_close {c c' : ℕ} {conn conn' : Connection} {peer : PearPeer} {u : String}
    (hc : s.connections[c]? = some conn) (hopen : conn.isOpen = true)
    (hpeer : s.peers conn.remotePeerId = some peer) (huser : peer.userId = u) (hne : c' ≠ c)
    (hc' : s.connections[c']? = some conn') (hopen' : conn'.isOpen = true)
    (hu : u ∈ conn'.verified) : ¬ Follows (PearNode.step s (.close c)) := by
  intro hafter
  rw [PearNode.step, hc] at hafter
  dsimp only at hafter
  rw [if_pos hopen, hpeer] at hafter
  obtain ⟨p, -, hp, -⟩ := (hafter u).1 c' ⟨conn', (setConnection_of_ne hne).trans hc', hopen', hu⟩
  dsimp only at hp
  rw [huser, Function.update_self] at hp
  cases hp

/-- An event after which the table still follows was in order. -/
theorem Consistent.orderly (h : Consistent s) {e : Event}
    (hafter : Follows (PearNode.step s e)) : Orderly s e := by
  cases e with
  | register c u => exact fun conn hc hanswered => open_of_follows hc hanswered hafter
  | close c =>
    intro conn hc hopen c' conn' u hne hc' hopen' hu
    constructor
    · intro hid
      obtain ⟨⟨peer, hpeer⟩, -⟩ := h.listed _ _ _ hc' hopen' hu
      have huser := h.entry_user hc' hu hpeer
      rw [hid] at hpeer
      exact not_follows_of_close hc hopen hpeer huser hne hc' hopen' hu hafter
    · intro hself
      obtain ⟨⟨peer, hpeer⟩, -⟩ := h.listed _ _ _ hc hopen hself
      have huser := h.entry_user hc hself hpeer
      exact not_follows_of_close hc hopen hpeer huser hne hc' hopen' hu hafter
  | announce _ _ => trivial
  | connection _ => trivial
  | handshake _ _ => trivial
  | lookup _ _ => trivial

/-- The tables follow the live connections in every state of a run exactly when its steps are
orderly. -/
theorem follows_iff (run : List Event) :
    Along step (fun s e => Follows (step s e)) start run ↔ Along step Orderly start run := by
  constructor
  · intro h
    exact h.imp Consistent.start (fun s e hs hafter => hs.step e (hs.orderly hafter))
      fun s e hs hafter => hs.orderly hafter
  · intro h
    exact h.imp Consistent.start (fun s e hs horderly => hs.step e horderly)
      fun s e hs horderly => (hs.step e horderly).follows

/-- A message to a user with a live connection is written to one, and the messages that come
from there are handed on. -/
theorem Follows.reaches (h : Follows s) {c : ℕ} {u : String} (hlive : Live s c u) :
    ∃ c' p, sendToPeer s u = some c' ∧ Live s c' u ∧ onEvent s u p = true ∧
      ∃ peer, s.peers p = some peer ∧ peer.connection = c' := by
  obtain ⟨p, peer, hp, hpeer, hlive'⟩ := (h u).1 c hlive
  refine ⟨peer.connection, p, ?_, hlive', ?_, peer, hpeer, rfl⟩
  · rw [sendToPeer, hp]
    dsimp only
    rw [hpeer]
    rfl
  · rw [onEvent, hp]
    exact decide_eq_true rfl

end PearNode

/-! ## The relay -/

namespace Relay

/-- A socket. `participantId` is whom it was registered for, `closed` whether its close event
has come. -/
structure Socket where
  isOpen : Bool
  closed : Bool
  participantId : Option String
  deriving DecidableEq, Repr

/-- The sockets of the relay and its table of participants. -/
structure State where
  all : List Socket
  sockets : String → Option ℕ

/-- A relay before any event. -/
def start : State := ⟨[], fun _ => none⟩

/-- What happens at the relay. -/
inductive Event where
  /-- A client connects, with a ticket that is then resolved. -/
  | connect
  /-- The ticket was resolved. -/
  | register (k : ℕ) (participantId : String)
  /-- The socket leaves the state `OPEN`. -/
  | hangUp (k : ℕ)
  | close (k : ℕ)
  deriving DecidableEq, Repr

/-- `registerSocket`. -/
def registerSocket (s : State) (participantId : String) (k : ℕ) : State :=
  { s with sockets := Function.update s.sockets participantId (some k) }

/-- `unregisterSocket`. -/
def unregisterSocket (s : State) (participantId : String) : State :=
  { s with sockets := Function.update s.sockets participantId none }

/-- The state with socket `k` changed. -/
def State.setSocket (s : State) (k : ℕ) (socket : Socket) : State :=
  { s with all := s.all.set k socket }

/-- A close event comes once, when the socket is not open. The route has a handler for it if
the socket was registered before. -/
def step (s : State) : Event → State
  | .connect => { s with all := s.all ++ [⟨true, false, none⟩] }
  | .register k participantId =>
    match s.all[k]? with
    | none => s
    | some socket =>
      if socket.participantId = none then
        registerSocket (s.setSocket k { socket with participantId := some participantId })
          participantId k
      else s
  | .hangUp k =>
    match s.all[k]? with
    | none => s
    | some socket => s.setSocket k { socket with isOpen := false }
  | .close k =>
    match s.all[k]? with
    | none => s
    | some socket =>
      if socket.isOpen ∨ socket.closed then s
      else
        match socket.participantId with
        | none => s.setSocket k { socket with closed := true }
        | some participantId =>
          unregisterSocket (s.setSocket k { socket with closed := true }) participantId

/-- Whether a message to a participant is sent. -/
def sendToPeer (s : State) (targetParticipantId : String) : Bool :=
  match s.sockets targetParticipantId with
  | none => false
  | some k => (s.all[k]?).any Socket.isOpen

/-- Socket `k` is open and registered for the participant. -/
def Live (s : State) (k : ℕ) (participantId : String) : Prop :=
  ∃ socket, s.all[k]? = some socket ∧ socket.isOpen = true ∧
    socket.participantId = some participantId

/-- Every participant with a live socket can be reached. -/
def Follows (s : State) : Prop :=
  ∀ participantId k, Live s k participantId → sendToPeer s participantId = true

/-- When a socket is registered that is no longer open, when the socket in use hangs up and
when a close event removes the participant's socket, the participant has no other live one. -/
def Orderly (s : State) : Event → Prop
  | .connect => True
  | .register k participantId => ∀ socket, s.all[k]? = some socket →
      socket.participantId = none → socket.isOpen = false → ∀ k', ¬ Live s k' participantId
  | .hangUp k => ∀ participantId, Live s k participantId → s.sockets participantId = some k →
      ∀ k', k' ≠ k → ¬ Live s k' participantId
  | .close k => ∀ socket participantId, s.all[k]? = some socket → socket.isOpen = false →
      socket.closed = false → socket.participantId = some participantId →
      ∀ k', ¬ Live s k' participantId

/-- A socket in use is registered for its participant. -/
def Consistent (s : State) : Prop :=
  ∀ participantId k, s.sockets participantId = some k →
    ∃ socket, s.all[k]? = some socket ∧ socket.participantId = some participantId

variable {s : State} {k : ℕ} {socket socket' : Socket} {p q : String}

theorem sendToPeer_iff :
    sendToPeer s p = true ↔ ∃ k socket, s.sockets p = some k ∧ s.all[k]? = some socket ∧
      socket.isOpen = true := by
  rw [sendToPeer]
  rcases s.sockets p with _ | k
  · simp
  · simp [Option.any_eq_true]

theorem registerSocket_self : (registerSocket s p k).sockets p = some k :=
  Function.update_self _ _ _

theorem registerSocket_of_ne (h : q ≠ p) : (registerSocket s p k).sockets q = s.sockets q :=
  Function.update_of_ne h _ _

theorem unregisterSocket_self : (unregisterSocket s p).sockets p = none :=
  Function.update_self _ _ _

theorem unregisterSocket_of_ne (h : q ≠ p) : (unregisterSocket s p).sockets q = s.sockets q :=
  Function.update_of_ne h _ _

theorem setSocket_self (hk : s.all[k]? = some socket) :
    (s.setSocket k socket').all[k]? = some socket' :=
  List.getElem?_set_self (List.getElem?_eq_some_iff.mp hk).1

theorem setSocket_of_ne {k' : ℕ} (h : k' ≠ k) : (s.setSocket k socket').all[k']? = s.all[k']? :=
  List.getElem?_set_ne h.symm

/-- A live socket of the changed state is the changed one or was live. -/
theorem live_setSocket {k' : ℕ} (hk : s.all[k]? = some socket)
    (h : Live (s.setSocket k socket') k' p) :
    k' = k ∧ socket'.isOpen = true ∧ socket'.participantId = some p ∨ k' ≠ k ∧ Live s k' p := by
  obtain ⟨x, hx, hopen, hp⟩ := h
  by_cases heq : k' = k
  · rw [heq, setSocket_self hk] at hx
    obtain rfl := Option.some.inj hx
    exact .inl ⟨heq, hopen, hp⟩
  · rw [setSocket_of_ne heq] at hx
    exact .inr ⟨heq, x, hx, hopen, hp⟩

theorem Live.setSocket_of_ne {k' : ℕ} (h : Live s k' p) (hne : k' ≠ k) :
    Live (s.setSocket k socket') k' p := by
  obtain ⟨x, hx, hrest⟩ := h
  exact ⟨x, (Relay.setSocket_of_ne hne).trans hx, hrest⟩

theorem Consistent.start : Consistent start := nofun

/-- An event keeps the relay consistent. -/
theorem Consistent.step (h : Consistent s) (e : Event) : Consistent (step s e) := by
  -- a change that keeps who a socket is registered for
  have hset : ∀ {k : ℕ} {socket socket' : Socket}, s.all[k]? = some socket →
      (∀ p, socket.participantId = some p → socket'.participantId = some p) →
      Consistent (s.setSocket k socket') := by
    intro k socket socket' hk hkeep p k' hp
    obtain ⟨x, hx, hxp⟩ := h p k' hp
    by_cases heq : k' = k
    · rw [heq, hk] at hx
      obtain rfl := Option.some.inj hx
      rw [heq]
      exact ⟨socket', setSocket_self hk, hkeep p hxp⟩
    · exact ⟨x, (setSocket_of_ne heq).trans hx, hxp⟩
  cases e with
  | connect =>
    intro p k hp
    obtain ⟨x, hx, hxp⟩ := h p k hp
    exact ⟨x, (List.getElem?_append_left (List.getElem?_eq_some_iff.mp hx).1).trans hx, hxp⟩
  | register k p =>
    rw [Relay.step]
    rcases hk : s.all[k]? with _ | socket
    · exact h
    dsimp only
    split_ifs with hnone
    · intro q k' hq
      by_cases heq : q = p
      · rw [heq, registerSocket_self] at hq
        obtain rfl := Option.some.inj hq
        rw [heq]
        exact ⟨_, setSocket_self hk, rfl⟩
      · rw [registerSocket_of_ne heq] at hq
        exact hset hk (fun r hr => by rw [hnone] at hr; cases hr) q k' hq
    · exact h
  | hangUp k =>
    rw [Relay.step]
    rcases hk : s.all[k]? with _ | socket
    · exact h
    · exact hset hk fun _ hp => hp
  | close k =>
    rw [Relay.step]
    rcases hk : s.all[k]? with _ | socket
    · exact h
    dsimp only
    have hclosed : Consistent (s.setSocket k { socket with closed := true }) :=
      hset hk fun _ hr => hr
    split_ifs
    · exact h
    · split
      · exact hclosed
      · rename_i p hp
        intro q k' hq
        by_cases heq : q = p
        · rw [heq, unregisterSocket_self] at hq
          cases hq
        · rw [unregisterSocket_of_ne heq] at hq
          exact hclosed q k' hq

/-- Reaching a participant whose socket in use is not changed, or stays open. -/
theorem sendToPeer_setSocket {sockets : String → Option ℕ} (hk : s.all[k]? = some socket)
    (hkeep : s.sockets p = some k → socket.isOpen = true → socket'.isOpen = true)
    (hsockets : sockets p = s.sockets p) (h : sendToPeer s p = true) :
    sendToPeer ⟨s.all.set k socket', sockets⟩ p = true := by
  obtain ⟨k', x, hp, hx, hopen⟩ := sendToPeer_iff.mp h
  refine sendToPeer_iff.mpr ?_
  by_cases heq : k' = k
  · rw [heq] at hp hx
    obtain rfl := Option.some.inj (hk.symm.trans hx)
    exact ⟨k, socket', hsockets.trans hp, setSocket_self hk, hkeep hp hopen⟩
  · exact ⟨k', x, hsockets.trans hp, (setSocket_of_ne heq).trans hx, hopen⟩

/-- A connection leaves the table following. -/
theorem follows_connect (h : Follows s) : Follows (step s .connect) := by
  rintro p k ⟨x, hx, hopen, hp⟩
  have hold : s.all[k]? = some x := by
    rw [step, List.getElem?_append] at hx
    split_ifs at hx with hlt
    · exact hx
    · rw [List.getElem?_singleton] at hx
      split_ifs at hx
      obtain rfl := Option.some.inj hx
      cases hp
  obtain ⟨k', x', hk', hx', hopen'⟩ := sendToPeer_iff.mp (h p k ⟨x, hold, hopen, hp⟩)
  refine sendToPeer_iff.mpr ⟨k', x', hk', ?_, hopen'⟩
  exact (List.getElem?_append_left (List.getElem?_eq_some_iff.mp hx').1).trans hx'

/-- When a registration leaves the table following. -/
theorem follows_register (h : Follows s) :
    Follows (step s (.register k p)) ↔ Orderly s (.register k p) := by
  rw [step, Orderly]
  rcases hk : s.all[k]? with _ | socket
  · exact iff_of_true h nofun
  dsimp only
  split_ifs with hnone
  swap
  · exact iff_of_true h fun x hx hxnone => absurd (Option.some.inj hx ▸ hxnone) hnone
  constructor
  · intro hafter x hx _ hclosed k' hlive
    obtain rfl := Option.some.inj hx
    have hne : k' ≠ k := by
      rintro rfl
      obtain ⟨y, hy, hopen, -⟩ := hlive
      obtain rfl := Option.some.inj (hk.symm.trans hy)
      rw [hclosed] at hopen
      cases hopen
    obtain ⟨k₀, y, hk₀, hy, hopen⟩ :=
      sendToPeer_iff.mp (hafter p k' (hlive.setSocket_of_ne hne))
    rw [registerSocket_self] at hk₀
    obtain rfl := Option.some.inj hk₀
    have hself : y = _ := Option.some.inj (hy.symm.trans (setSocket_self hk))
    rw [hself, hclosed] at hopen
    cases hopen
  · intro horderly q k' hlive
    rcases live_setSocket hk hlive with ⟨rfl, hopen, hq⟩ | ⟨-, hold⟩
    · obtain rfl := Option.some.inj hq
      exact sendToPeer_iff.mpr ⟨k', _, registerSocket_self, setSocket_self hk, hopen⟩
    · by_cases heq : q = p
      · obtain rfl := heq
        rcases hopen : socket.isOpen with _ | _
        · exact absurd hold (horderly socket rfl hnone hopen k')
        · exact sendToPeer_iff.mpr ⟨k, _, registerSocket_self, setSocket_self hk, rfl⟩
      · exact sendToPeer_setSocket hk (fun _ hopen => hopen) (registerSocket_of_ne heq)
          (h q k' hold)

/-- When a hang-up leaves the table following. -/
theorem follows_hangUp (hs : Consistent s) (h : Follows s) :
    Follows (step s (.hangUp k)) ↔ Orderly s (.hangUp k) := by
  rw [step, Orderly]
  rcases hk : s.all[k]? with _ | socket
  · refine iff_of_true h ?_
    rintro p ⟨x, hx, -⟩
    rw [hk] at hx
    cases hx
  dsimp only
  constructor
  · intro hafter p hlive hp k' hne hlive'
    obtain ⟨k₀, x, hk₀, hx, hopen⟩ :=
      sendToPeer_iff.mp (hafter p k' (hlive'.setSocket_of_ne hne))
    have hsame : k₀ = k := Option.some.inj (hk₀.symm.trans hp)
    rw [hsame, setSocket_self hk] at hx
    obtain rfl := Option.some.inj hx
    cases hopen
  · intro horderly p k' hlive
    rcases live_setSocket hk hlive with ⟨-, hopen, -⟩ | ⟨hne, hold⟩
    · cases hopen
    · refine sendToPeer_setSocket hk (fun hp hopen => ?_) rfl (h p k' hold)
      obtain ⟨x, hx, hxp⟩ := hs p k hp
      obtain rfl := Option.some.inj (hk.symm.trans hx)
      exact absurd hold (horderly p ⟨socket, hk, hopen, hxp⟩ hp k' hne)

/-- When a close leaves the table following. -/
theorem follows_close (h : Follows s) :
    Follows (step s (.close k)) ↔ Orderly s (.close k) := by
  rw [step, Orderly]
  rcases hk : s.all[k]? with _ | socket
  · exact iff_of_true h nofun
  dsimp only
  split_ifs with hdone
  · refine iff_of_true h fun x p hx hopen hclosed => ?_
    obtain rfl := Option.some.inj hx
    rw [hopen, hclosed] at hdone
    simp at hdone
  rw [not_or, Bool.not_eq_true, Bool.not_eq_true] at hdone
  have hlive : ∀ {p : String} {k' : ℕ},
      Live (s.setSocket k { socket with closed := true }) k' p → Live s k' p := by
    intro p k' hlive
    rcases live_setSocket hk hlive with ⟨-, hopen, -⟩ | ⟨-, hold⟩
    · rw [hdone.1] at hopen
      cases hopen
    · exact hold
  split
  · rename_i hnone
    refine iff_of_true (fun p k' hp => ?_) fun x p hx _ _ hp => ?_
    · exact sendToPeer_setSocket hk (fun _ hopen => hopen) rfl (h p k' (hlive hp))
    · obtain rfl := Option.some.inj hx
      rw [hnone] at hp
      cases hp
  · rename_i p hp
    constructor
    · intro hafter x q hx _ _ hq k' hlive'
      obtain rfl := Option.some.inj hx
      obtain rfl : p = q := Option.some.inj (hp.symm.trans hq)
      have hne : k' ≠ k := by
        rintro rfl
        obtain ⟨y, hy, hopen, -⟩ := hlive'
        obtain rfl := Option.some.inj (hk.symm.trans hy)
        rw [hdone.1] at hopen
        cases hopen
      obtain ⟨k₀, y, hk₀, -⟩ := sendToPeer_iff.mp (hafter p k' (hlive'.setSocket_of_ne hne))
      rw [unregisterSocket_self] at hk₀
      cases hk₀
    · intro horderly q k' hlive'
      have hold := hlive hlive'
      by_cases heq : q = p
      · obtain rfl := heq
        exact absurd hold (horderly socket q rfl hdone.1 hdone.2 hp k')
      · exact sendToPeer_setSocket hk (fun _ hopen => hopen) (unregisterSocket_of_ne heq)
          (h q k' hold)

theorem follows_step_iff (hs : Consistent s) (h : Follows s) (e : Event) :
    Follows (step s e) ↔ Orderly s e := by
  cases e with
  | connect => exact iff_of_true (follows_connect h) trivial
  | register k p => exact follows_register h
  | hangUp k => exact follows_hangUp hs h
  | close k => exact follows_close h

/-- Participants can be reached in every state of a run exactly when its steps are orderly. -/
theorem follows_iff (run : List Event) :
    Along step (fun s e => Follows (step s e)) start run ↔ Along step Orderly start run := by
  have hstart : Consistent start ∧ Follows start :=
    ⟨Consistent.start, fun p k hlive => by obtain ⟨x, hx, -⟩ := hlive; cases hx⟩
  constructor
  · intro h
    exact Along.imp (I := fun s => Consistent s ∧ Follows s) h hstart
      (fun s e hs hafter => ⟨hs.1.step e, hafter⟩)
      fun s e hs hafter => (follows_step_iff hs.1 hs.2 e).mp hafter
  · intro h
    exact Along.imp (I := fun s => Consistent s ∧ Follows s) h hstart
      (fun s e hs horderly => ⟨hs.1.step e, (follows_step_iff hs.1 hs.2 e).mpr horderly⟩)
      fun s e hs horderly => (follows_step_iff hs.1 hs.2 e).mpr horderly

end Relay

/-! ## Both -/

/-- The tables of a node and of the relay follow the live connections in exactly the runs
whose connections are registered and closed in order. -/
theorem tables_follow (run : List PearNode.Event) (relayRun : List Relay.Event) :
    (Along PearNode.step (fun s e => PearNode.Follows (PearNode.step s e)) PearNode.start run ↔
      Along PearNode.step PearNode.Orderly PearNode.start run) ∧
    (Along Relay.step (fun s e => Relay.Follows (Relay.step s e)) Relay.start relayRun ↔
      Along Relay.step Relay.Orderly Relay.start relayRun) :=
  ⟨PearNode.follows_iff run, Relay.follows_iff relayRun⟩

/-- A peer that reconnects before its old connection closes loses its entries, and a
participant its socket. -/
theorem reconnected_unreachable :
    ¬ PearNode.Follows (run PearNode.step PearNode.start
        [.announce "bob" "p", .connection "p", .handshake 0 "bob", .lookup 0 "bob",
         .register 0 "bob", .connection "p", .handshake 1 "bob", .lookup 1 "bob",
         .register 1 "bob", .close 0]) ∧
      ¬ Relay.Follows (run Relay.step Relay.start
        [.connect, .register 0 "bob", .connect, .register 1 "bob", .hangUp 0, .close 0]) := by
  constructor
  · intro h
    obtain ⟨p, -, hp, -⟩ := (h "bob").1 1 ⟨⟨"p", true, [], [], ["bob"]⟩, by decide, rfl, by decide⟩
    cases hp
  · intro h
    have hsent := h "bob" 1 ⟨⟨true, false, some "bob"⟩, by decide, rfl, rfl⟩
    cases hsent

end Sails.P2p
