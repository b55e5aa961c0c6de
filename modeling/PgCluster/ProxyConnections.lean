import PgCluster.ListUpdates
import PgCluster.Machine
import PgCluster.ProxyBackend
import PgCluster.ProxyPool

/-!
# Proxy sessions and the connections they use

The message loop of `proxy/connection.rs`, for any number of sessions that
share the pool. A connection is a number, given out when it is opened. A
session moves in steps between its awaits, and what `acquire` and `inject` do
without the lock of the idle list is a step of its own: `acquire` reads the
counter in one step and raises it in a later one, `inject` raises it before
it has the lock, and `drain_backend` lowers it, once for each connection,
after it has let go of the lock.

Where a message goes is the router's business and comes with the label, as do
quorum and the health of connections. What a backend answers is anything the
protocol allows, so a reply comes with its label too. The proxy also records,
newest first, which connection each message was forwarded to and each
`ReadyForQuery` a session received. What else stands beside a connection is
added in `ProxyBackends`, `ProxyGate` and `ProxySettings`, over these steps.
-/

namespace PgCluster

open Option

/-! ## One session -/

/-- The connection a session holds, and where it was acquired. -/
structure HeldBackend where
  conn : Nat
  nodeId : String
  addr : String
deriving DecidableEq

/-- Where a session is: inside `inject` at its start, at the top of the loop,
inside `acquire` (about to look for an idle connection, having missed one,
having seen room for one more, or having seen none), inside the login of a
new connection, with a message to forward, waiting for the backend, or gone. -/
inductive ClientPhase where
  | donating (conn : Nat) (nodeId addr : String)
  | reading
  | acquiring (m : FrontendMessage) (nodeId addr : String)
  | checking (m : FrontendMessage) (nodeId addr : String)
  | reserving (m : FrontendMessage) (nodeId addr : String) (prevTotal : Int)
  | full (m : FrontendMessage) (nodeId addr : String)
  | opening (m : FrontendMessage) (nodeId addr : String)
  | holding (m : FrontendMessage)
  | waiting
  | closed
deriving DecidableEq

structure ProxyClient where
  database : String
  user : String
  current : Option HeldBackend
  txnState : TxnState
  phase : ClientPhase
deriving DecidableEq

/-- Where the router sends a message: nowhere because the proxy drains, nowhere
because there is no backend, or to one. -/
inductive ProxyRoute where
  | draining
  | unavailable
  | backend (nodeId addr : String)
deriving DecidableEq

inductive ClientLabel where
  | donate
  | read (m : FrontendMessage) (quorum : Bool) (route : ProxyRoute) (alive : Bool)
  | disconnect (alive : Bool)
  | takeIdle (broken : Nat)
  | check
  | reserve
  | retry
  | giveUp
  | opened (ok : Bool)
  | forward
  | reply (r : Reply) (alive : Bool)
  | ioError
deriving DecidableEq

/-- The labels with which a session gives its connection back. -/
def ClientLabel.returns : ClientLabel → Bool
  | .reply (.ready .idle) _ | .disconnect _ => true
  | .read m quorum _ _ => !quorum || m = .terminate
  | _ => false

/-- What the proxy did for a session: it forwarded a message to a connection, or
received a `ReadyForQuery`. -/
inductive ProxyEvent where
  | forwarded (client conn : Nat)
  | ready (client : Nat) (st : TxnState)
deriving DecidableEq

/-- The pool, and the number of the next connection that is opened. -/
structure PoolStore where
  pools : ConnectionPools Nat
  fresh : Nat

namespace ProxyClient

def identity (s : ProxyClient) (nodeId addr : String) : PoolIdentity :=
  ⟨s.database, s.user, nodeId, addr⟩

def key (s : ProxyClient) (nodeId addr : String) : String := (s.identity nodeId addr).stringKey

def release (s : ProxyClient) (st : PoolStore) (held : HeldBackend) (alive : Bool) : PoolStore :=
  { st with pools := st.pools.release (s.key held.nodeId held.addr) held.conn alive }

/-- Leave the loop and release any remaining backend. -/
def finish (s : ProxyClient) (st : PoolStore) (alive : Bool) : PoolStore × ProxyClient :=
  (match s.current with
    | none => st
    | some held => s.release st held alive,
    { s with current := none, phase := .closed })

/-- What a session does with a message. One that holds a backend stays on it. -/
def onMessage (s : ProxyClient) (st : PoolStore) (m : FrontendMessage) (route : ProxyRoute)
    (alive : Bool) : Option (PoolStore × ProxyClient) :=
  match m with
  | .passwordMessage | .startupMessage => some (st, s)
  | .terminate => some (s.finish st alive)
  | m =>
    if s.current.isSome then some (st, { s with phase := .holding m })
    else
      match route with
      | .backend nodeId addr => some (st, { s with phase := .acquiring m nodeId addr })
      | .unavailable => some (st, s)
      | .draining => if m = .query then some (s.finish st alive) else none

/-- A reply of the backend: the connection goes back to the pool when the
status is idle. -/
def onReply (s : ProxyClient) (st : PoolStore) (r : Reply) (alive : Bool) :
    Option (PoolStore × ProxyClient) :=
  s.current.map fun held =>
    let txn := TxnState.ofStatusByte r.status
    if txn = .idle then
      (s.release st held alive, { s with current := none, txnState := txn, phase := .reading })
    else (st, { s with txnState := txn, phase := .reading })

def step (max : Nat) (st : PoolStore) (s : ProxyClient) (l : ClientLabel) :
    Option (PoolStore × ProxyClient) :=
  match s.phase, l with
  | .donating conn nodeId addr, .donate =>
    match st.pools.donate max (s.key nodeId addr) conn with
    | some pools => some ({ st with pools := pools }, { s with phase := .reading })
    | none => some (st, { s with phase := .closed })
  | .reading, .read m quorum route alive =>
    if quorum then s.onMessage st m route alive else some (s.finish st alive)
  | .reading, .disconnect alive => some (s.finish st alive)
  | .acquiring m nodeId addr, .takeIdle broken =>
    match st.pools.takeIdle max (s.key nodeId addr) broken with
    | (some conn, pools) =>
      some ({ st with pools := pools },
        { s with current := some ⟨conn, nodeId, addr⟩, phase := .holding m })
    | (none, pools) =>
      some ({ st with pools := pools }, { s with phase := .checking m nodeId addr })
  | .checking m nodeId addr, .check =>
    let b := st.pools.bucket max (s.key nodeId addr)
    if b.total < b.max then some (st, { s with phase := .reserving m nodeId addr b.total })
    else some (st, { s with phase := .full m nodeId addr })
  | .reserving m nodeId addr _, .reserve =>
    some ({ st with pools := st.pools.increment max (s.key nodeId addr) },
      { s with phase := .opening m nodeId addr })
  | .full m nodeId addr, .retry => some (st, { s with phase := .acquiring m nodeId addr })
  | .full _ _ _, .giveUp => some (st, { s with phase := .reading })
  | .opening m nodeId addr, .opened true =>
    some ({ st with fresh := st.fresh + 1 },
      { s with current := some ⟨st.fresh, nodeId, addr⟩, phase := .holding m })
  | .opening _ nodeId addr, .opened false =>
    some ({ st with pools := st.pools.decrement max (s.key nodeId addr) },
      { s with phase := .reading })
  | .holding m, .forward =>
    s.current.map fun _ =>
      (st, { s with phase := if m.waitsAfter then .waiting else .reading })
  | .waiting, .reply r alive => s.onReply st r alive
  -- An error of either stream ends the session, and its connection is dropped.
  | .reading, .ioError | .holding _, .ioError | .waiting, .ioError =>
    some (st, { s with current := none, phase := .closed })
  | _, _ => none

/-- What a step of session `i` adds to the record. -/
def events (i : Nat) (s : ProxyClient) : ClientLabel → List ProxyEvent
  | .forward => (s.current.map fun held => ProxyEvent.forwarded i held.conn).toList
  | .reply (.ready txn) _ => [.ready i txn]
  | _ => []

/-- What a step of a session can do. -/
inductive Moves (max : Nat) (st : PoolStore) (s : ProxyClient) :
    ClientLabel → PoolStore → ProxyClient → Prop where
  | donate (conn : Nat) (nodeId addr : String) (pools : ConnectionPools Nat)
      (hphase : s.phase = .donating conn nodeId addr)
      (hdonate : st.pools.donate max (s.key nodeId addr) conn = some pools) :
      Moves max st s .donate { st with pools := pools } { s with phase := .reading }
  | panic (conn : Nat) (nodeId addr : String) (hphase : s.phase = .donating conn nodeId addr)
      (hdonate : st.pools.donate max (s.key nodeId addr) conn = none) :
      Moves max st s .donate st { s with phase := .closed }
  | finish (l : ClientLabel) (alive : Bool) (hphase : s.phase = .reading)
      (hl : (∃ m quorum route, l = .read m quorum route alive) ∨ l = .disconnect alive)
      (hend : s.current = none ∨ l.returns = true) :
      Moves max st s l (s.finish st alive).1 (s.finish st alive).2
  | ignore (m : FrontendMessage) (route : ProxyRoute) (alive : Bool) (hphase : s.phase = .reading) :
      Moves max st s (.read m true route alive) st s
  | stay (m : FrontendMessage) (route : ProxyRoute) (alive : Bool) (hphase : s.phase = .reading)
      (hm : m ≠ .terminate) :
      Moves max st s (.read m true route alive) st { s with phase := .holding m }
  | route (m : FrontendMessage) (nodeId addr : String) (alive : Bool) (hphase : s.phase = .reading)
      (hfree : s.current = none) :
      Moves max st s (.read m true (.backend nodeId addr) alive) st
        { s with phase := .acquiring m nodeId addr }
  | take (m : FrontendMessage) (nodeId addr : String) (broken conn : Nat)
      (hphase : s.phase = .acquiring m nodeId addr)
      (htake : (st.pools.takeIdle max (s.key nodeId addr) broken).1 = some conn) :
      Moves max st s (.takeIdle broken)
        { st with pools := (st.pools.takeIdle max (s.key nodeId addr) broken).2 }
        { s with current := some ⟨conn, nodeId, addr⟩, phase := .holding m }
  | miss (m : FrontendMessage) (nodeId addr : String) (broken : Nat)
      (hphase : s.phase = .acquiring m nodeId addr)
      (hmiss : (st.pools.takeIdle max (s.key nodeId addr) broken).1 = none) :
      Moves max st s (.takeIdle broken)
        { st with pools := (st.pools.takeIdle max (s.key nodeId addr) broken).2 }
        { s with phase := .checking m nodeId addr }
  | room (m : FrontendMessage) (nodeId addr : String) (hphase : s.phase = .checking m nodeId addr)
      (hroom : (st.pools.bucket max (s.key nodeId addr)).total <
        (st.pools.bucket max (s.key nodeId addr)).max) :
      Moves max st s .check st { s with
        phase := .reserving m nodeId addr (st.pools.bucket max (s.key nodeId addr)).total }
  | noRoom (m : FrontendMessage) (nodeId addr : String)
      (hphase : s.phase = .checking m nodeId addr) :
      Moves max st s .check st { s with phase := .full m nodeId addr }
  | reserve (m : FrontendMessage) (nodeId addr : String) (prevTotal : Int)
      (hphase : s.phase = .reserving m nodeId addr prevTotal) :
      Moves max st s .reserve { st with pools := st.pools.increment max (s.key nodeId addr) }
        { s with phase := .opening m nodeId addr }
  | retry (m : FrontendMessage) (nodeId addr : String) (hphase : s.phase = .full m nodeId addr) :
      Moves max st s .retry st { s with phase := .acquiring m nodeId addr }
  | giveUp (m : FrontendMessage) (nodeId addr : String) (hphase : s.phase = .full m nodeId addr) :
      Moves max st s .giveUp st { s with phase := .reading }
  | opened (m : FrontendMessage) (nodeId addr : String)
      (hphase : s.phase = .opening m nodeId addr) :
      Moves max st s (.opened true) { st with fresh := st.fresh + 1 }
        { s with current := some ⟨st.fresh, nodeId, addr⟩, phase := .holding m }
  | refused (m : FrontendMessage) (nodeId addr : String)
      (hphase : s.phase = .opening m nodeId addr) :
      Moves max st s (.opened false)
        { st with pools := st.pools.decrement max (s.key nodeId addr) } { s with phase := .reading }
  | forward (m : FrontendMessage) (held : HeldBackend) (hphase : s.phase = .holding m)
      (hheld : s.current = some held) :
      Moves max st s .forward st
        { s with phase := if m.waitsAfter then .waiting else .reading }
  | ready (alive : Bool) (held : HeldBackend) (hphase : s.phase = .waiting)
      (hheld : s.current = some held) :
      Moves max st s (.reply (.ready .idle) alive) (s.release st held alive)
        { s with current := none, txnState := .idle, phase := .reading }
  | keep (r : Reply) (alive : Bool) (hphase : s.phase = .waiting) (hr : r ≠ .ready .idle)
      (held : HeldBackend) (hheld : s.current = some held) :
      Moves max st s (.reply r alive) st
        { s with txnState := TxnState.ofStatusByte r.status, phase := .reading }
  | fail (hphase : s.phase = .reading ∨ (∃ m, s.phase = .holding m) ∨ s.phase = .waiting) :
      Moves max st s .ioError st { s with current := none, phase := .closed }

variable {max : Nat} {st st' : PoolStore} {s s' : ProxyClient} {l : ClientLabel}

theorem onMessage_moves {m : FrontendMessage} {route : ProxyRoute} {alive : Bool}
    (hphase : s.phase = .reading) (h : s.onMessage st m route alive = some (st', s')) :
    Moves max st s (.read m true route alive) st' s' := by
  unfold onMessage at h
  split at h
  · cases h
    exact .ignore _ _ _ hphase
  · cases h
    exact .ignore _ _ _ hphase
  · cases h
    exact .finish _ _ hphase (.inl ⟨_, _, _, rfl⟩) (.inr rfl)
  · rename_i hm
    split at h
    · cases h
      exact .stay _ _ _ hphase hm
    · rename_i hcurrent
      have hfree : s.current = none := by simpa using hcurrent
      split at h
      · cases h
        exact .route _ _ _ _ hphase hfree
      · cases h
        exact .ignore _ _ _ hphase
      · obtain ⟨-, h⟩ := ite_none_right_eq_some.mp h
        cases h
        exact .finish _ _ hphase (.inl ⟨_, _, _, rfl⟩) (.inl hfree)

theorem ofStatusByte_status_eq_idle {r : Reply} :
    TxnState.ofStatusByte r.status = .idle ↔ r = .ready .idle := by
  cases r with
  | ready => simp [Reply.status]
  | copyIn => decide

theorem onReply_moves {r : Reply} {alive : Bool} (hphase : s.phase = .waiting)
    (h : s.onReply st r alive = some (st', s')) : Moves max st s (.reply r alive) st' s' := by
  rw [onReply, map_eq_some_iff] at h
  obtain ⟨held, hheld, h⟩ := h
  dsimp only at h
  split at h
  · rename_i hidle
    obtain rfl := ofStatusByte_status_eq_idle.mp hidle
    cases h
    exact .ready alive held hphase hheld
  · rename_i hbusy
    cases h
    exact .keep r alive hphase (mt ofStatusByte_status_eq_idle.mpr hbusy) held hheld

theorem moves_of_step (h : s.step max st l = some (st', s')) : Moves max st s l st' s' := by
  unfold step at h
  split at h
  · rename_i conn nodeId addr hphase
    split at h
    · rename_i pools hdonate
      cases h
      exact .donate conn nodeId addr pools hphase hdonate
    · rename_i hdonate
      cases h
      exact .panic conn nodeId addr hphase hdonate
  · rename_i m quorum _ _ hphase
    cases quorum with
    | true => exact onMessage_moves hphase h
    | false =>
      cases h
      exact .finish _ _ hphase (.inl ⟨_, _, _, rfl⟩) (.inr rfl)
  · rename_i hphase
    cases h
    exact .finish _ _ hphase (.inr rfl) (.inr rfl)
  · rename_i m nodeId addr broken hphase
    split at h
    · rename_i conn pools htake
      cases h
      have hmove : Moves max st s _ _ _ := .take m nodeId addr broken conn hphase (by rw [htake])
      rwa [htake] at hmove
    · rename_i pools hmiss
      cases h
      have hmove : Moves max st s _ _ _ := .miss m nodeId addr broken hphase (by rw [hmiss])
      rwa [hmiss] at hmove
  · rename_i m nodeId addr hphase
    dsimp only at h
    split at h
    · rename_i hroom
      cases h
      exact .room m nodeId addr hphase hroom
    · cases h
      exact .noRoom m nodeId addr hphase
  · rename_i m nodeId addr prevTotal hphase
    cases h
    exact .reserve m nodeId addr prevTotal hphase
  · rename_i hphase
    cases h
    exact .retry _ _ _ hphase
  · rename_i hphase
    cases h
    exact .giveUp _ _ _ hphase
  · rename_i hphase
    cases h
    exact .opened _ _ _ hphase
  · rename_i hphase
    cases h
    exact .refused _ _ _ hphase
  · rename_i hphase
    obtain ⟨held, hheld, h⟩ := map_eq_some_iff.mp h
    cases h
    exact .forward _ held hphase hheld
  · rename_i hphase
    exact onReply_moves hphase h
  · rename_i hphase
    cases h
    exact .fail (.inl hphase)
  · rename_i m hphase
    cases h
    exact .fail (.inr (.inl ⟨m, hphase⟩))
  · rename_i hphase
    cases h
    exact .fail (.inr (.inr hphase))
  · cases h

end ProxyClient

/-! ## The proxy -/

/-- `draining` are the buckets a `drain_backend` has cleared, with how often it
has yet to lower their counters. -/
structure PooledProxy where
  store : PoolStore
  clients : List ProxyClient
  draining : List (String × Nat)
  log : List ProxyEvent

inductive PooledLabel where
  | login (database user nodeId addr : String)
  | client (i : Nat) (l : ClientLabel)
  | evict (key : String) (i : Nat)
  | drain (key addr : String)
  | subtract (j : Nat)
deriving DecidableEq

namespace PooledProxy

abbrev pools (q : PooledProxy) : ConnectionPools Nat := q.store.pools

/-- A client that was logged in to the primary: `inject` raises the counter. -/
def login (max : Nat) (q : PooledProxy) (x : PoolIdentity) : PooledProxy :=
  { q with
    store := ⟨q.pools.increment max x.stringKey, q.store.fresh + 1⟩
    clients := q.clients ++
      [⟨x.database, x.user, none, .idle, .donating q.store.fresh x.nodeId x.addr⟩] }

/-- `drain_backend` on one bucket whose key contains the address. -/
def drain (max : Nat) (q : PooledProxy) (key addr : String) : Option PooledProxy :=
  if addr.toList <:+: key.toList then
    some { q with
      store.pools := q.pools.clear key
      draining := q.draining ++ [(key, (q.pools.bucket max key).idle.length)] }
  else none

def subtract (max : Nat) (q : PooledProxy) (j : Nat) : Option PooledProxy :=
  match q.draining[j]? with
  | some (key, n + 1) =>
    some { q with
      store.pools := q.pools.decrement max key
      draining := q.draining.set j (key, n) }
  | _ => none

def step (max : Nat) (q : PooledProxy) : PooledLabel → Option PooledProxy
  | .login database user nodeId addr => some (q.login max ⟨database, user, nodeId, addr⟩)
  | .client i l =>
    q.clients[i]?.bind fun s =>
      (s.step max q.store l).map fun (store, s') =>
        { q with
          store := store
          clients := q.clients.set i s'
          log := s.events i l ++ q.log }
  | .evict key i => some { q with store.pools := q.pools.evict key i }
  | .drain key addr => q.drain max key addr
  | .subtract j => q.subtract max j

def machine (max : Nat) : Machine PooledProxy PooledLabel where
  init := ⟨⟨∅, 0⟩, [], [], []⟩
  step := step max

inductive Moves (max : Nat) (q : PooledProxy) : PooledLabel → PooledProxy → Prop where
  | login (x : PoolIdentity) :
      Moves max q (.login x.database x.user x.nodeId x.addr) (q.login max x)
  | client (i : Nat) (l : ClientLabel) (s s' : ProxyClient) (store : PoolStore)
      (hs : q.clients[i]? = some s) (hmove : s.Moves max q.store l store s') :
      Moves max q (.client i l) { q with
        store := store
        clients := q.clients.set i s'
        log := s.events i l ++ q.log }
  | evict (key : String) (i : Nat) :
      Moves max q (.evict key i) { q with store.pools := q.pools.evict key i }
  | drain (key addr : String) :
      Moves max q (.drain key addr) { q with
        store.pools := q.pools.clear key
        draining := q.draining ++ [(key, (q.pools.bucket max key).idle.length)] }
  | subtract (j n : Nat) (key : String) (hj : q.draining[j]? = some (key, n + 1)) :
      Moves max q (.subtract j) { q with
        store.pools := q.pools.decrement max key
        draining := q.draining.set j (key, n) }

theorem moves_of_step {max : Nat} {q q' : PooledProxy} {l : PooledLabel}
    (h : (machine max).step q l = some q') : Moves max q l q' := by
  cases l with
  | login database user nodeId addr =>
    cases h
    exact .login ⟨database, user, nodeId, addr⟩
  | client i l =>
    obtain ⟨s, hs, h⟩ := bind_eq_some_iff.mp h
    obtain ⟨⟨store, s'⟩, hstep, rfl⟩ := map_eq_some_iff.mp h
    exact .client i l s s' store hs (ProxyClient.moves_of_step hstep)
  | evict key i =>
    cases h
    exact .evict key i
  | drain key addr =>
    obtain ⟨-, rfl⟩ := ite_some_none_eq_some.mp h
    exact .drain key addr
  | subtract j =>
    change q.subtract max j = some q' at h
    unfold subtract at h
    split at h
    · rename_i key n hj
      cases h
      exact .subtract j n key hj
    · cases h

end PooledProxy

end PgCluster
