import PgCluster.ProxyConnections
import PgCluster.ProxyRouter

/-!
# Sessions behind the router's checks

The message loop of `proxy/connection.rs` with the checks it makes on each
message: the quorum lease at a clock, the drain flag, and where the router
sends what a session without a backend asks for. The sessions and the pool
are those of `ProxyConnections`; here a message's quorum and route are no
longer free but computed when the message is read. Everything from there to
the next await is one step, so the clock, the lease, the flag and the
topology move while a session looks for a connection, opens one or is about
to write, and not in between.

Each write to a backend is recorded with what was true at that moment. The
lease is only looked at when a message is read, and `acquire` can wait long,
so a write is covered by the lease as long as the clock does not run past
its end while a session has a message in hand (`writes_hold_quorum`).
-/

namespace PgCluster

open Option

namespace ClientPhase

/-- The phases between reading a message and writing it to a backend. -/
def carries : ClientPhase → Bool
  | .acquiring .. | .checking .. | .reserving .. | .full .. | .opening .. | .holding _ => true
  | .donating .. | .reading | .waiting | .closed => false

end ClientPhase

def ClientLabel.isRead : ClientLabel → Bool
  | .read .. => true
  | _ => false

def ProxyRoute.ofBackend : Option (String × String) → ProxyRoute
  | some (nodeId, addr) => .backend nodeId addr
  | none => .unavailable

/-! ## The sessions of a proxy -/

variable {max : Nat} {c c' : ProxyClient}

namespace ProxyClient

variable {st st' : PoolStore} {l : ClientLabel}

/-- A message in hand was in hand before, or was just read with quorum. -/
theorem Moves.carries (h : Moves max st c l st' c') (hc' : c'.phase.carries) :
    c.phase.carries ∨ ∃ m route alive, l = .read m true route alive := by
  cases h with
  | donate | panic | finish | giveUp | refused | ready | keep | fail =>
    exact absurd hc' Bool.false_ne_true
  | ignore _ _ _ hphase =>
    rw [hphase] at hc'
    exact absurd hc' Bool.false_ne_true
  | stay | route => exact .inr ⟨_, _, _, rfl⟩
  | take _ _ _ _ _ hphase | miss _ _ _ _ hphase | room _ _ _ hphase | noRoom _ _ _ hphase
  | reserve _ _ _ _ hphase | retry _ _ _ hphase | opened _ _ _ hphase | forward _ _ hphase =>
    exact .inl (by rw [hphase]; rfl)

end ProxyClient

namespace PooledProxy

variable {q q' : PooledProxy} {l : PooledLabel} {j : Nat}

/-- A session after a step was there before and has not moved, has just moved, or
has just begun. -/
theorem Moves.client_cases (h : Moves max q l q') (hc' : q'.clients[j]? = some c') :
    (q.clients[j]? = some c' ∧ ∀ lc, l ≠ .client j lc) ∨
      (∃ c lc st', l = .client j lc ∧ q.clients[j]? = some c ∧ c.Moves max q.store lc st' c') ∨
      (c'.current = none ∧ ∃ conn nodeId addr, c'.phase = .donating conn nodeId addr) := by
  cases h with
  | login =>
    rcases getElem?_append_singleton_cases hc' with ⟨-, rfl⟩ | hold
    · exact .inr (.inr ⟨rfl, _, _, _, rfl⟩)
    · exact .inl ⟨hold, nofun⟩
  | client _ lc c _ store hc hmove =>
    rcases getElem?_set_cases hc' with ⟨rfl, rfl⟩ | ⟨hij, hold⟩
    · exact .inr (.inl ⟨c, lc, store, rfl, hc, hmove⟩)
    · exact .inl ⟨hold, fun lc hlc => hij (PooledLabel.client.inj hlc).1⟩
  | evict | drain | subtract => exact .inl ⟨hc', nofun⟩

end PooledProxy

variable {now start : ℚ}

theorem QuorumLease.isHeld_renew {lease : QuorumLease} (instant : ℚ)
    (h : lease.isHeld now) : (lease.renew instant).isHeld now := by
  simp only [isHeld, Bool.and_eq_true, decide_eq_true_eq, ne_eq] at h ⊢
  obtain ⟨_, _⟩ := h
  have hstamp : (lease.renew instant).stamp now = lease.stamp now := rfl
  have hmax : lease.renewed ≤ (lease.renew instant).renewed := le_max_left _ _
  have hduration : (lease.renew instant).duration = lease.duration := rfl
  omega

/-! ## The proxy with its router -/

/-- A message written to a backend: who for and where to, whether the lease was
held and the proxy draining, whether the router took the node for the primary,
and whether the session held no backend when it read the message. -/
structure GatedWrite where
  client : Nat
  nodeId : String
  quorum : Bool
  draining : Bool
  toPrimary : Bool
  wasFree : Bool
deriving DecidableEq

/-- `wasFree` says of each session whether it held no backend when it read its
last message. -/
structure GatedProxy where
  proxy : PooledProxy
  router : Router
  now : ℚ
  marks : Nat → RoutingMarks
  wasFree : Nat → Bool
  writes : List GatedWrite

/-- A query is read with its intent and the order in which the map of roles is
gone through; other labels move the pool and the sessions, the router's
inputs or the clock. -/
inductive GateLabel where
  | read (i : Nat) (m : FrontendMessage) (intent : StatementIntent) (order : List String)
      (alive : Bool)
  | pooled (l : PooledLabel)
  | topology (t : ClusterTopology)
  | beginDrain
  | endDrain
  | renew (instant : ℚ)
  | tick (now : ℚ)

namespace PooledLabel

def isRead : PooledLabel → Bool
  | .client _ l => l.isRead
  | _ => false

end PooledLabel

namespace Router

def renew (r : Router) (instant : ℚ) : Router :=
  { r with quorum := r.quorum.map fun lease => lease.renew instant }

def beginDrain (r : Router) : Router := { r with draining := true }

def endDrain (r : Router) : Router := { r with draining := false }

theorem hasQuorum_renew {r : Router} (instant : ℚ) (h : r.hasQuorum now) :
    (r.renew instant).hasQuorum now := by
  unfold hasQuorum renew at *
  cases hquorum : r.quorum with
  | none => rfl
  | some =>
    rw [hquorum] at h
    exact QuorumLease.isHeld_renew instant h

end Router

namespace GatedProxy

/-- Where a message goes if its session holds no backend. Draining stops only
queries for the primary. -/
def route (s : GatedProxy) (i : Nat) (c : ProxyClient) (m : FrontendMessage)
    (intent : StatementIntent) (order : List String) : ProxyRoute :=
  match m with
  | .query =>
    let target := ((s.marks i).routeIntent c.txnState intent).1
    if s.router.draining && target = .primary then .draining
    else .ofBackend (s.router.resolveBackend order target)
  | .terminate | .passwordMessage | .startupMessage => .unavailable
  | _ => .ofBackend s.router.primary

def marksAfter (s : GatedProxy) (i : Nat) (c : ProxyClient) (m : FrontendMessage)
    (intent : StatementIntent) : Nat → RoutingMarks :=
  if m = .query then
    Function.update s.marks i ((s.marks i).routeIntent c.txnState intent).2
  else s.marks

/-- What a step of the pool and the sessions writes to a backend. -/
def written (s : GatedProxy) : PooledLabel → List GatedWrite
  | .client i .forward =>
    ((s.proxy.clients[i]?.bind ProxyClient.current).map fun held =>
      { client := i
        nodeId := held.nodeId
        quorum := s.router.hasQuorum s.now
        draining := s.router.draining
        toPrimary := s.router.isPrimary held.nodeId
        wasFree := s.wasFree i : GatedWrite }).toList
  | _ => []

def step (max : Nat) (s : GatedProxy) : GateLabel → Option GatedProxy
  | .read i m intent order alive =>
    if order.Nodup ∧ order.toFinset = s.router.topology.nodeRoles.keys then
      s.proxy.clients[i]?.bind fun c =>
        (s.proxy.step max (.client i (.read m (s.router.hasQuorum s.now)
          (s.route i c m intent order) alive))).map fun p =>
          { s with
            proxy := p
            marks := s.marksAfter i c m intent
            wasFree := Function.update s.wasFree i c.current.isNone }
    else none
  | .pooled l =>
    if l.isRead then none
    else (s.proxy.step max l).map fun p =>
      { s with proxy := p, writes := s.written l ++ s.writes }
  | .topology t => some { s with router.topology := t }
  | .beginDrain => some { s with router := s.router.beginDrain }
  | .endDrain => some { s with router := s.router.endDrain }
  | .renew instant =>
    if instant ≤ s.now then some { s with router := s.router.renew instant } else none
  | .tick now => if s.now ≤ now then some { s with now := now } else none

/-- Any router and clock, and no session yet. -/
def machine (max : Nat) (router : Router) (now : ℚ) : Machine GatedProxy GateLabel where
  init := ⟨(PooledProxy.machine max).init, router, now, fun _ => {}, fun _ => false, []⟩
  step := step max

/-- What a step can do. -/
inductive Moves (max : Nat) (s : GatedProxy) : GateLabel → GatedProxy → Prop where
  | read (i : Nat) (m : FrontendMessage) (intent : StatementIntent) (order : List String)
      (alive : Bool) (c : ProxyClient) (p : PooledProxy) (hc : s.proxy.clients[i]? = some c)
      (hmove : s.proxy.Moves max (.client i (.read m (s.router.hasQuorum s.now)
        (s.route i c m intent order) alive)) p) :
      Moves max s (.read i m intent order alive) { s with
        proxy := p
        marks := s.marksAfter i c m intent
        wasFree := Function.update s.wasFree i c.current.isNone }
  | pooled (l : PooledLabel) (p : PooledProxy) (hl : l.isRead = false)
      (hmove : s.proxy.Moves max l p) :
      Moves max s (.pooled l) { s with proxy := p, writes := s.written l ++ s.writes }
  | topology (t : ClusterTopology) : Moves max s (.topology t) { s with router.topology := t }
  | beginDrain : Moves max s .beginDrain { s with router := s.router.beginDrain }
  | endDrain : Moves max s .endDrain { s with router := s.router.endDrain }
  | renew (instant : ℚ) : Moves max s (.renew instant) { s with router := s.router.renew instant }
  | tick (now : ℚ) : Moves max s (.tick now) { s with now := now }

variable {i : Nat} {s s' : GatedProxy} {l : GateLabel} {lp : PooledLabel} {p : PooledProxy}

theorem moves_of_step (h : s.step max l = some s') : Moves max s l s' := by
  cases l with
  | read i m intent order alive =>
    obtain ⟨-, h⟩ := ite_none_right_eq_some.mp h
    obtain ⟨c, hc, h⟩ := bind_eq_some_iff.mp h
    obtain ⟨p, hp, rfl⟩ := map_eq_some_iff.mp h
    exact .read i m intent order alive c p hc (PooledProxy.moves_of_step hp)
  | pooled l =>
    obtain ⟨hl, h⟩ := ite_none_left_eq_some.mp h
    obtain ⟨p, hp, rfl⟩ := map_eq_some_iff.mp h
    exact .pooled l p (Bool.eq_false_of_not_eq_true hl) (PooledProxy.moves_of_step hp)
  | topology t =>
    cases h
    exact .topology t
  | beginDrain =>
    cases h
    exact .beginDrain
  | endDrain =>
    cases h
    exact .endDrain
  | renew instant =>
    obtain ⟨-, rfl⟩ := ite_some_none_eq_some.mp h
    exact .renew instant
  | tick now =>
    obtain ⟨-, rfl⟩ := ite_some_none_eq_some.mp h
    exact .tick now

/-- A write comes from a session that has its message in hand and a connection. -/
theorem mem_written {w : GatedWrite} (hmove : s.proxy.Moves max lp p) (hw : w ∈ s.written lp) :
    ∃ i c m held, lp = .client i .forward ∧ s.proxy.clients[i]? = some c ∧
      c.phase = .holding m ∧ c.current = some held ∧
      w = ⟨i, held.nodeId, s.router.hasQuorum s.now, s.router.draining,
        s.router.isPrimary held.nodeId, s.wasFree i⟩ := by
  unfold written at hw
  split at hw
  · rename_i i
    cases hmove with
    | client i _ c _ _ hc hmove =>
      cases hmove with
      | finish _ _ _ hl => rcases hl with ⟨m, _, _, hl⟩ | hl <;> cases hl
      | forward m held hphase hheld =>
        rw [hc, bind_some, hheld, map_some, toList_some, List.mem_singleton] at hw
        exact ⟨i, c, m, held, rfl, hc, hphase, hheld, hw⟩
  · cases hw

/-! ## The lease at a write -/

theorem not_client_init {router : Router} {c : ProxyClient} :
    (machine max router start).init.proxy.clients[i]? ≠ some c := by
  rintro ⟨⟩

/-- Every session that has a message in hand is covered by the lease, and so was
every write. -/
structure Covered (s : GatedProxy) : Prop where
  carried : ∀ (i : Nat) (c : ProxyClient), s.proxy.clients[i]? = some c → c.phase.carries = true →
    s.router.hasQuorum s.now = true
  writes : ∀ w ∈ s.writes, w.quorum = true

/-- The clock does not run past the lease while a session has a message in hand. -/
def prompt (s : GatedProxy) : GateLabel → Bool
  | .tick now =>
    s.router.hasQuorum now || s.proxy.clients.all fun c => !c.phase.carries
  | _ => true

theorem Covered.pooled (h : s.Covered) (hlp : lp.isRead = false) (hmove : s.proxy.Moves max lp p) :
    Covered { s with proxy := p, writes := s.written lp ++ s.writes } := by
  refine ⟨fun j c' hc' hcarries => ?_, fun w hw => ?_⟩
  · rcases hmove.client_cases hc' with ⟨hold, -⟩ | ⟨c, _, _, rfl, hc, hmove⟩ |
      ⟨-, conn, nodeId, addr, hphase⟩
    · exact h.carried j c' hold hcarries
    · rcases hmove.carries hcarries with hold | ⟨m, _, _, rfl⟩
      · exact h.carried j c hc hold
      · exact absurd hlp Bool.noConfusion
    · rw [hphase] at hcarries
      exact absurd hcarries Bool.false_ne_true
  · rcases List.mem_append.mp hw with hnew | hold
    · obtain ⟨i, c, m, _, -, hc, hphase, -, rfl⟩ := mem_written hmove hnew
      exact h.carried i c hc (by rw [hphase]; rfl)
    · exact h.writes w hold

theorem Covered.move (h : s.Covered) (hl : s.prompt l) (hmove : Moves max s l s') : s'.Covered := by
  cases hmove with
  | read _ m _ _ alive _ _ _ hmove =>
    refine ⟨fun j c' hc' hcarries => ?_, h.writes⟩
    rcases hmove.client_cases hc' with ⟨hold, -⟩ | ⟨c₁, _, _, hlc, hc₁, hmove⟩ |
      ⟨-, conn, nodeId, addr, hphase⟩
    · exact h.carried j c' hold hcarries
    · obtain ⟨rfl, rfl⟩ := PooledLabel.client.inj hlc
      rcases hmove.carries hcarries with hold | ⟨_, _, _, hread⟩
      · exact h.carried _ c₁ hc₁ hold
      · injection hread
    · rw [hphase] at hcarries
      exact absurd hcarries Bool.false_ne_true
  | pooled _ _ hlp hmove => exact h.pooled hlp hmove
  | topology | beginDrain | endDrain => exact ⟨h.carried, h.writes⟩
  | renew instant =>
    exact ⟨fun j c hc hcarries => Router.hasQuorum_renew instant (h.carried j c hc hcarries),
      h.writes⟩
  | tick =>
    refine ⟨fun j c hc hcarries => ?_, h.writes⟩
    rcases Bool.or_eq_true_iff.mp hl with hheld | hnone
    · exact hheld
    · have hfree := List.all_eq_true.mp hnone c (List.mem_of_getElem? hc)
      rw [hcarries] at hfree
      exact absurd hfree Bool.false_ne_true

/-- A message is written to a backend only while the quorum lease is held, in
every run in which the clock does not pass the lease's end between a session's
check and its write. -/
theorem writes_hold_quorum (max : Nat) (router : Router) (start : ℚ) (s : GatedProxy)
    (hs : (machine max router start).Reaches (fun s l => s.prompt l = true) s) :
    ∀ w ∈ s.writes, w.quorum = true := by
  have hinit : Covered (machine max router start).init :=
    ⟨fun i c hc => absurd hc not_client_init, List.forall_mem_nil _⟩
  exact (hs.invariant hinit fun s l s' h hl hstep => h.move hl (moves_of_step hstep)).writes

def twoNodes : ClusterTopology :=
  { ClusterTopology.empty with
    primaryNodeId := "n1"
    nodeRoles := (Finmap.insert "n1" .primary ∅).insert "n2" .replica
    nodeConfigs := (Finmap.insert "n1" ⟨"n1", "a1:7000", "a1:5432", 100, ∅⟩ ∅).insert "n2"
      ⟨"n2", "a2:7000", "a2:5432", 90, ∅⟩ }

def twoNodeRouter : Router := ⟨twoNodes, ⟨true, 1000⟩, false, some (.new 0 1000)⟩

/-- A session has logged in and the lease was renewed when the clock started. -/
def loggedIn : List GateLabel :=
  [.renew 0, .pooled (.login "app" "owner" "n1" "a1:5432"), .pooled (.client 0 .donate)]

/-- A query is read under the lease and written when the lease has run out: after
a wait for a connection, and with the connection the session already holds. -/
theorem writes_without_quorum : (∃ s, (machine 1 twoNodeRouter 0).run (loggedIn ++
        [.read 0 .query .write ["n1", "n2"] true, .tick 1000, .pooled (.client 0 (.takeIdle 0)),
          .pooled (.client 0 .forward)]) = some s ∧
      (machine 1 twoNodeRouter 0).Reachable s ∧ ∃ w ∈ s.writes, w.quorum = false) ∧
    ∃ s, (machine 1 twoNodeRouter 0).run (loggedIn ++
        [.read 0 .query .write ["n1", "n2"] true, .pooled (.client 0 (.takeIdle 0)),
          .pooled (.client 0 .forward), .pooled (.client 0 (.reply (.ready .inTransaction) true)),
          .read 0 .query .write ["n1", "n2"] true, .tick 1000, .pooled (.client 0 .forward)])
          = some s ∧
      (machine 1 twoNodeRouter 0).Reachable s ∧ ∃ w ∈ s.writes, w.quorum = false :=
  ⟨Machine.exists_of_run (by decide +kernel) fun _ => of_decide_eq_true,
    Machine.exists_of_run (by decide +kernel) fun _ => of_decide_eq_true⟩

/-- A message written just before the lease runs out. -/
theorem writes_hold_quorum_inTime : ∃ s, (machine 1 twoNodeRouter 0).run (loggedIn ++
        [.read 0 .query .write ["n1", "n2"] true, .tick 999, .pooled (.client 0 (.takeIdle 0)),
          .pooled (.client 0 .forward)]) = some s ∧
      s.writes.length = 1 ∧ ∀ w ∈ s.writes, w.quorum = true := by
  obtain ⟨s, hs, hlen⟩ := (machine 1 twoNodeRouter 0).exists_run (loggedIn ++
    [.read 0 .query .write ["n1", "n2"] true, .tick 999, .pooled (.client 0 (.takeIdle 0)),
      .pooled (.client 0 .forward)]) (·.writes.length = 1) (by decide +kernel)
  exact ⟨s, hs, hlen,
    writes_hold_quorum 1 twoNodeRouter 0 s (Machine.reaches_of_run (by decide +kernel) hs)⟩

end GatedProxy

end PgCluster
