import PgCluster.ProxyGate

/-!
# Draining before a switchover

`execute_switchover` raises the router's drain flag, waits, and then demotes
the primary. The flag is looked at when a query for the primary is read by a
session that holds no backend. It is not looked at for the messages of the
extended protocol, nor for a read that goes to the primary because there is
no replica for it, and nothing looks again between the check and the write.
Where none of these three happens, a session that begins new work while the
proxy drains does not reach the primary, so that nothing runs there once the
sessions that held a connection to it have let go
(`draining_admits_no_new_work`).
-/

namespace PgCluster

open List Option

/-! ## The node a session is on -/

/-- The node a session looks for a connection to. -/
def ClientPhase.soughtNode : ClientPhase → Option String
  | .acquiring _ nodeId _ | .checking _ nodeId _ | .reserving _ nodeId _ _ | .full _ nodeId _
  | .opening _ nodeId _ => some nodeId
  | .donating .. | .reading | .holding _ | .waiting | .closed => none

variable {m : FrontendMessage} {max : Nat} {c : ProxyClient} {nodeId : String}

namespace ProxyClient

variable {st st' : PoolStore} {c' : ProxyClient} {l : ClientLabel}

/-- A session holds a connection to a node or looks for one. -/
def Uses (c : ProxyClient) (nodeId : String) : Prop :=
  c.current.map HeldBackend.nodeId = some nodeId ∨ c.phase.soughtNode = some nodeId

instance : Decidable (c.Uses nodeId) := by unfold Uses; infer_instance

theorem uses_of_current {held : HeldBackend} (h : c.current = some held) : c.Uses held.nodeId :=
  .inl (by rw [h, map_some])

/-- Only a message routed to a node brings a session there. -/
theorem Moves.uses (h : Moves max st c l st' c') (hc' : c'.Uses nodeId) : c.Uses nodeId ∨
      (c.current = none ∧ ∃ m addr alive, l = .read m true (.backend nodeId addr) alive) := by
  -- Most steps keep the connection and go to a phase that looks for none.
  have hkeep (hcurrent : c'.current = c.current) (hphase : c'.phase.soughtNode = none) :
      c.Uses nodeId := by
    rcases hc' with hheld | hsought
    · exact .inl (by rw [← hcurrent, hheld])
    · rw [hphase] at hsought
      cases hsought
  have hdrop (hcurrent : c'.current = none) (hphase : c'.phase.soughtNode = none) :
      c.Uses nodeId := by
    rcases hc' with hheld | hsought
    · rw [hcurrent] at hheld
      cases hheld
    · rw [hphase] at hsought
      cases hsought
  -- The steps of `acquire` look for the node they looked for.
  have hseek (hcurrent : c'.current = c.current)
      (hphase : c'.phase.soughtNode = c.phase.soughtNode) : c.Uses nodeId := by
    rcases hc' with hheld | hsought
    · exact .inl (by rw [← hcurrent, hheld])
    · exact .inr (by rw [← hphase, hsought])
  have hfound {conn : Nat} {node addr : String} (hcurrent : c'.current = some ⟨conn, node, addr⟩)
      (hphase : c'.phase.soughtNode = none) (hsought : c.phase.soughtNode = some node) :
      c.Uses nodeId := by
    rcases hc' with hheld | hsought'
    · rw [hcurrent, map_some] at hheld
      exact .inr (by rw [hsought, ← hheld])
    · rw [hphase] at hsought'
      cases hsought'
  cases h with
  | donate | panic | giveUp | refused | keep | stay => exact .inl (hkeep rfl rfl)
  | finish | ready | fail => exact .inl (hdrop rfl rfl)
  | ignore => exact .inl hc'
  | route m node addr alive _ hfree =>
    rcases hc' with hheld | hsought
    · exact .inl (.inl hheld)
    · obtain rfl : node = nodeId := Option.some.inj hsought
      exact .inr ⟨hfree, m, addr, alive, rfl⟩
  | take _ _ _ _ _ hphase | opened _ _ _ hphase => exact .inl (hfound rfl rfl (by rw [hphase]; rfl))
  | miss _ _ _ _ hphase | room _ _ _ hphase | noRoom _ _ _ hphase | reserve _ _ _ _ hphase
  | retry _ _ _ hphase => exact .inl (hseek rfl (by rw [hphase]; rfl))
  | forward =>
    refine .inl (hkeep rfl ?_)
    split_ifs <;> rfl

/-- A session that looks for a node did so before, or holds no backend and was
routed. -/
theorem Moves.sought (h : Moves max st c l st' c') (hc' : c'.phase.soughtNode ≠ none) :
    c.phase.soughtNode ≠ none ∨ (c.current = none ∧ l.isRead) := by
  cases h with
  | donate | panic | finish | stay | take | giveUp | opened | refused | ready | keep | fail =>
    exact absurd rfl hc'
  | ignore => exact .inl hc'
  | route _ _ _ _ _ hfree => exact .inr ⟨hfree, rfl⟩
  | miss _ _ _ _ hphase | room _ _ _ hphase | noRoom _ _ _ hphase | reserve _ _ _ _ hphase
  | retry _ _ _ hphase => exact .inl (by rw [hphase]; exact hc')
  | forward => split_ifs at hc' <;> exact absurd rfl hc'

theorem Moves.reading {quorum alive : Bool} {route : ProxyRoute}
    (h : Moves max st c (.read m quorum route alive) st' c') : c.phase = .reading := by
  cases h <;> assumption

theorem carries_of_soughtNode (h : c.phase.soughtNode ≠ none) : c.phase.carries := by
  cases hphase : c.phase <;> rw [hphase] at h <;> first | rfl | exact absurd rfl h

end ProxyClient

/-! ## What may come while the proxy drains -/

namespace GatedProxy

variable {router : Router} {start : ℚ} {s s' : GatedProxy} {l : GateLabel} {i : Nat} {addr : String}
  {intent : StatementIntent} {order : List String} {p : PooledProxy}

def primaryId (s : GatedProxy) : String := s.router.topology.primaryNodeId

/-- A session that held no backend when it read its message is on its way to a
node with it. -/
def Pending (s : GatedProxy) (nodeId : String) (i : Nat) (c : ProxyClient) : Prop :=
  c.phase.carries = true ∧ s.wasFree i = true ∧ c.Uses nodeId

instance {nodeId : String} {i : Nat} {c : ProxyClient} : Decidable (s.Pending nodeId i c) := by
  unfold Pending
  infer_instance

def nonePending (s : GatedProxy) (nodeId : String) : Bool :=
  (List.range s.proxy.clients.length).all fun i =>
    s.proxy.clients[i]?.all fun c => !decide (s.Pending nodeId i c)

def noneUses (s : GatedProxy) (nodeId : String) : Bool :=
  s.proxy.clients.all fun c => !decide (c.Uses nodeId)

/-- A message a session reads while it holds no backend is looked at by the drain
check or does not go to the primary: it is a query, and if it is not for the
primary there is a replica for it. -/
def staysAway (s : GatedProxy) (i : Nat) (c : ProxyClient) (m : FrontendMessage)
    (intent : StatementIntent) (order : List String) : Bool :=
  match m with
  | .query =>
    ((s.marks i).routeIntent c.txnState intent).1 = .primary ||
      (s.router.readBackend order).all fun b => b.1 ≠ s.primaryId
  | .terminate | .passwordMessage | .startupMessage => true
  | _ => false

/-- New work stays away from the primary while the proxy drains; draining does
not begin while a session is between its check and its write to the primary;
and no node becomes the primary while a session uses it, as long as the proxy
drains. -/
def admitsNone (s : GatedProxy) : GateLabel → Bool
  | .read i m intent order _ =>
    !s.router.draining || s.proxy.clients[i]?.all fun c =>
      c.current.isSome || s.staysAway i c m intent order
  | .beginDrain => s.nonePending s.primaryId
  | .topology t =>
    !s.router.draining || t.primaryNodeId = s.primaryId || s.noneUses t.primaryNodeId
  | _ => true

theorem not_pending_of_nonePending (h : s.nonePending nodeId)
    (hc : s.proxy.clients[i]? = some c) : ¬ s.Pending nodeId i c := by
  obtain ⟨hi, -⟩ := List.getElem?_eq_some_iff.mp hc
  have hall := all_eq_true.mp h i (mem_range.mpr hi)
  rw [hc, all_some] at hall
  simpa using hall

theorem not_uses_of_noneUses (h : s.noneUses nodeId)
    (hc : s.proxy.clients[i]? = some c) : ¬ c.Uses nodeId := by
  have hall := all_eq_true.mp h c (mem_of_getElem? hc)
  simpa using hall

theorem ofBackend_eq_backend {b : Option (String × String)} :
    ProxyRoute.ofBackend b = .backend nodeId addr ↔ b = some (nodeId, addr) := by
  cases b with
  | none => exact ⟨nofun, nofun⟩
  | some b =>
    obtain ⟨_, a⟩ := b
    simp [ProxyRoute.ofBackend]

theorem route_ne_primary
    (hdrain : s.router.draining) (haway : s.staysAway i c m intent order) :
    s.route i c m intent order ≠ .backend s.primaryId addr := by
  intro hroute
  cases m with
  | query =>
    simp only [staysAway, Bool.or_eq_true, decide_eq_true_eq] at haway
    simp only [route, hdrain, Bool.true_and, decide_eq_true_eq] at hroute
    split_ifs at hroute with htarget
    have hread := haway.resolve_left htarget
    cases hintent : ((s.marks i).routeIntent c.txnState intent).1 with
    | primary => exact htarget hintent
    | replicaOrPrimary =>
      rw [hintent, ofBackend_eq_backend, Router.resolveBackend] at hroute
      rw [hroute] at hread
      simp at hread
  | terminate | passwordMessage | startupMessage => cases hroute
  | parse | bind | execute | describe | sync | flush | close | copyData | copyDone | copyFail =>
    cases haway

/-! ## Sessions on their way to the primary -/

/-- While the proxy drains, no session is on its way to the primary with a message
it read without a backend. -/
structure Gated (s : GatedProxy) : Prop where
  away : s.router.draining = true → ∀ (i : Nat) (c : ProxyClient),
    s.proxy.clients[i]? = some c → ¬ s.Pending s.primaryId i c
  free : ∀ (i : Nat) (c : ProxyClient), s.proxy.clients[i]? = some c →
    c.phase.soughtNode ≠ none → s.wasFree i = true
  writes : ∀ w ∈ s.writes, w.draining = true → w.toPrimary = true → w.wasFree = false

theorem Gated.pooled {lp : PooledLabel} (h : s.Gated) (hlp : lp.isRead = false)
    (hmove : s.proxy.Moves max lp p) :
    Gated { s with proxy := p, writes := s.written lp ++ s.writes } := by
  refine ⟨fun hdrain j c' hc' => ?_, fun j c' hc' hsought => ?_, fun w hw => ?_⟩
  · rintro ⟨hcarries, hfree, huses⟩
    rcases hmove.client_cases hc' with ⟨hold, -⟩ | ⟨c, lc, st', rfl, hc, hmove⟩ |
      ⟨-, conn, nodeId, addr, hphase⟩
    · exact h.away hdrain j c' hold ⟨hcarries, hfree, huses⟩
    · rcases hmove.carries hcarries with hcarries | ⟨m, _, alive, rfl⟩
      · rcases hmove.uses huses with huses | ⟨-, m, addr, _, hread⟩
        · exact h.away hdrain j c hc ⟨hcarries, hfree, huses⟩
        · rw [hread] at hlp
          exact absurd hlp Bool.noConfusion
      · exact absurd hlp Bool.noConfusion
    · rw [hphase] at hcarries
      exact absurd hcarries Bool.false_ne_true
  · rcases hmove.client_cases hc' with ⟨hold, -⟩ | ⟨c, _, _, rfl, hc, hmove⟩ |
      ⟨-, conn, nodeId, addr, hphase⟩
    · exact h.free j c' hold hsought
    · rcases hmove.sought hsought with hsought | ⟨-, hread⟩
      · exact h.free j c hc hsought
      · exact absurd (hread.symm.trans hlp) Bool.noConfusion
    · rw [hphase] at hsought
      exact absurd rfl hsought
  · rcases mem_append.mp hw with hnew | hold
    · obtain ⟨i, c, m, held, -, hc, hphase, hheld, rfl⟩ := mem_written hmove hnew
      intro hdrain hprimary
      have hnode : held.nodeId = s.primaryId := Router.isPrimary_iff.mp hprimary
      refine Bool.eq_false_of_not_eq_true fun hfree => h.away hdrain i c hc ⟨?_, hfree, ?_⟩
      · rw [hphase]
        rfl
      · rw [← hnode]
        exact ProxyClient.uses_of_current hheld
    · exact h.writes w hold

theorem Gated.read {alive : Bool} (h : s.Gated)
    (hl : s.admitsNone (.read i m intent order alive)) (hc : s.proxy.clients[i]? = some c)
    (hmove : s.proxy.Moves max (.client i (.read m (s.router.hasQuorum s.now)
      (s.route i c m intent order) alive)) p) :
    Gated { s with
      proxy := p
      marks := s.marksAfter i c m intent
      wasFree := Function.update s.wasFree i c.current.isNone } := by
  have haway : s.router.draining → c.current = none → s.staysAway i c m intent order := by
    intro hdrain hfree
    simpa [admitsNone, hdrain, hc, hfree] using hl
  refine ⟨fun hdrain j c' hc' => ?_, fun j c' hc' hsought => ?_, h.writes⟩
  · rintro ⟨hcarries, hfree, huses⟩
    dsimp only at hfree
    rcases hmove.client_cases hc' with ⟨hold, hother⟩ | ⟨c₁, lc, st', hlc, hc₁, hmove⟩ |
      ⟨-, conn, nodeId, addr, hphase⟩
    · have hj : j ≠ i := fun hj => hother _ (by rw [hj])
      rw [Function.update_of_ne hj] at hfree
      exact h.away hdrain j c' hold ⟨hcarries, hfree, huses⟩
    · obtain ⟨rfl, rfl⟩ := PooledLabel.client.inj hlc
      obtain rfl : c = c₁ := Option.some.inj (hc.symm.trans hc₁)
      rw [Function.update_self, isNone_iff_eq_none] at hfree
      rcases hmove.uses huses with hold | ⟨-, _, addr, _, hread⟩
      · -- The session was reading and held nothing, so it used no node.
        rw [ProxyClient.Uses, hfree, hmove.reading] at hold
        simp [ClientPhase.soughtNode] at hold
      · injection hread with _ _ hroute
        exact route_ne_primary (s := s) hdrain (haway hdrain hfree) hroute
    · rw [hphase] at hcarries
      exact absurd hcarries Bool.false_ne_true
  · dsimp only
    rcases hmove.client_cases hc' with ⟨hold, hother⟩ | ⟨c₁, _, _, hlc, hc₁, hmove⟩ |
      ⟨-, conn, nodeId, addr, hphase⟩
    · have hj : j ≠ i := fun hj => hother _ (by rw [hj])
      rw [Function.update_of_ne hj]
      exact h.free j c' hold hsought
    · obtain ⟨rfl, rfl⟩ := PooledLabel.client.inj hlc
      obtain rfl : c = c₁ := Option.some.inj (hc.symm.trans hc₁)
      rw [Function.update_self, isNone_iff_eq_none]
      rcases hmove.sought hsought with hold | ⟨hfree, -⟩
      · rw [hmove.reading] at hold
        exact absurd rfl hold
      · exact hfree
    · rw [hphase] at hsought
      exact absurd rfl hsought

theorem Gated.move (h : s.Gated) (hl : s.admitsNone l) (hmove : Moves max s l s') : s'.Gated := by
  cases hmove with
  | read _ _ _ _ _ _ _ hc hmove => exact h.read hl hc hmove
  | pooled _ _ hlp hmove => exact h.pooled hlp hmove
  | topology t =>
    refine ⟨fun hdrain i c hc hpending => ?_, h.free, h.writes⟩
    have hl : t.primaryNodeId = s.primaryId ∨ s.noneUses t.primaryNodeId := by
      have hdrain : s.router.draining := hdrain
      simpa [admitsNone, hdrain] using hl
    rcases hl with hsame | hnone
    · refine h.away hdrain i c hc ?_
      rw [← hsame]
      exact hpending
    · exact not_uses_of_noneUses hnone hc hpending.2.2
  | beginDrain => exact ⟨fun _ i c hc => not_pending_of_nonePending hl hc, h.free, h.writes⟩
  | endDrain => exact ⟨fun hdrain => absurd hdrain Bool.false_ne_true, h.free, h.writes⟩
  | renew | tick => exact { h with }

theorem gated_of_reaches
    (hs : (machine max router start).Reaches (fun s l => s.admitsNone l) s) : s.Gated := by
  have hinit : Gated (machine max router start).init :=
    ⟨fun _ i c hc => absurd hc not_client_init, fun i c hc => absurd hc not_client_init,
      forall_mem_nil _⟩
  exact hs.invariant hinit fun s l s' h hl hstep => h.move hl (moves_of_step hstep)

/-! ## A drained primary -/

structure Drained (s : GatedProxy) : Prop where
  draining : s.router.draining = true
  away : ∀ (i : Nat) (c : ProxyClient), s.proxy.clients[i]? = some c → ¬ c.Uses s.primaryId

/-- Once the sessions that hold a connection to the primary have let go of it, none
is on its way there. -/
theorem Gated.drained (h : s.Gated) (hdrain : s.router.draining)
    (hgone : ∀ c ∈ s.proxy.clients, c.current.map HeldBackend.nodeId ≠ some s.primaryId) :
    s.Drained := by
  refine ⟨hdrain, fun i c hc huses => ?_⟩
  rcases huses with hheld | hsought
  · exact hgone c (mem_of_getElem? hc) hheld
  · have hseeks : c.phase.soughtNode ≠ none := by
      rw [hsought]
      exact some_ne_none _
    exact h.away hdrain i c hc ⟨ProxyClient.carries_of_soughtNode hseeks, h.free i c hc hseeks,
      .inr hsought⟩

/-- A drained primary stays so until draining ends, and is not written to. -/
theorem Drained.move (h : s.Drained) (hl : s.admitsNone l) (hend : l ≠ .endDrain)
    (hmove : Moves max s l s') :
    s'.Drained ∧ ∃ new, s'.writes = new ++ s.writes ∧ ∀ w ∈ new, w.toPrimary = false := by
  have hsame {t : GatedProxy} (ht : t.writes = s.writes) :
      ∃ new, t.writes = new ++ s.writes ∧ ∀ w ∈ new, w.toPrimary = false :=
    ⟨[], ht, nofun⟩
  cases hmove with
  | read _ _ _ _ _ c _ hc hmove =>
    refine ⟨⟨h.draining, fun j c' hc' huses => ?_⟩, hsame rfl⟩
    rcases hmove.client_cases hc' with ⟨hold, -⟩ | ⟨c₁, lc, st', hlc, hc₁, hmove⟩ |
      ⟨hfree, conn, nodeId, addr, hphase⟩
    · exact h.away j c' hold huses
    · obtain ⟨rfl, rfl⟩ := PooledLabel.client.inj hlc
      obtain rfl : c = c₁ := Option.some.inj (hc.symm.trans hc₁)
      rcases hmove.uses huses with hold | ⟨hfree, _, addr, _, hread⟩
      · exact h.away _ c hc hold
      · injection hread with _ _ hroute
        refine route_ne_primary h.draining ?_ hroute
        simpa [admitsNone, h.draining, hc, hfree] using hl
    · simp [ProxyClient.Uses, hfree, hphase, ClientPhase.soughtNode] at huses
  | pooled lp _ hlp hmove =>
    refine ⟨⟨h.draining, fun j c' hc' huses => ?_⟩, s.written lp, rfl, fun w hw => ?_⟩
    · rcases hmove.client_cases hc' with ⟨hold, -⟩ | ⟨c, _, _, rfl, hc, hmove⟩ |
        ⟨hfree, conn, nodeId, addr, hphase⟩
      · exact h.away j c' hold huses
      · rcases hmove.uses huses with hold | ⟨-, m, _, _, hread⟩
        · exact h.away j c hc hold
        · rw [hread] at hlp
          exact absurd hlp Bool.noConfusion
      · simp [ProxyClient.Uses, hfree, hphase, ClientPhase.soughtNode] at huses
    · obtain ⟨i, c, m, held, -, hc, -, hheld, rfl⟩ := mem_written hmove hw
      refine Bool.eq_false_of_not_eq_true fun hprimary => h.away i c hc ?_
      have hnode : held.nodeId = s.primaryId := Router.isPrimary_iff.mp hprimary
      rw [← hnode]
      exact ProxyClient.uses_of_current hheld
  | topology t =>
    refine ⟨⟨h.draining, fun i c hc huses => ?_⟩, hsame rfl⟩
    have hl : t.primaryNodeId = s.primaryId ∨ s.noneUses t.primaryNodeId := by
      simpa [admitsNone, h.draining] using hl
    rcases hl with hprimary | hnone
    · refine h.away i c hc ?_
      rw [← hprimary]
      exact huses
    · exact not_uses_of_noneUses hnone hc huses
  | beginDrain => exact ⟨⟨rfl, h.away⟩, hsame rfl⟩
  | endDrain => exact absurd rfl hend
  | renew | tick => exact ⟨⟨h.draining, h.away⟩, hsame rfl⟩

/-- While the proxy drains, a session that held no backend when it read its message
does not write it to the primary; and once no session holds a connection to the
primary, nothing is written there until draining ends. -/
theorem draining_admits_no_new_work (max : Nat) (router : Router) (start : ℚ) (s : GatedProxy)
    (hs : (machine max router start).Reaches (fun s l => s.admitsNone l = true) s) :
    (∀ w ∈ s.writes, w.draining = true → w.toPrimary = true → w.wasFree = false) ∧
      (s.router.draining = true →
        (∀ c ∈ s.proxy.clients, c.current.map HeldBackend.nodeId ≠ some s.primaryId) →
        ∀ s', (Machine.mk s (step max)).Reaches
            (fun s l => s.admitsNone l = true ∧ l ≠ .endDrain) s' →
          ∃ new, s'.writes = new ++ s.writes ∧ ∀ w ∈ new, w.toPrimary = false) := by
  have hgated : s.Gated := gated_of_reaches hs
  refine ⟨hgated.writes, fun hdrain hgone s' hs' => ?_⟩
  have hrun : s'.Drained ∧ ∃ new, s'.writes = new ++ s.writes ∧ ∀ w ∈ new, w.toPrimary = false := by
    refine hs'.invariant (I := fun t => t.Drained ∧
        ∃ new, t.writes = new ++ s.writes ∧ ∀ w ∈ new, w.toPrimary = false)
      ⟨hgated.drained hdrain hgone, [], rfl, nofun⟩ ?_
    rintro t l t' ⟨ht, new, hnew, hprimary⟩ ⟨hl, hend⟩ hstep
    have hmove : Moves max t l t' := moves_of_step hstep
    obtain ⟨ht', more, hmore, hmorePrimary⟩ := ht.move hl hend hmove
    refine ⟨ht', more ++ new, by rw [hmore, hnew, append_assoc], fun w hw => ?_⟩
    rcases mem_append.mp hw with hw | hw
    · exact hmorePrimary w hw
    · exact hprimary w hw
  exact hrun.2

/-- A session that holds nothing while the proxy drains: a message of the extended
protocol, a read without a replica, a query whose session had passed the check
when draining began, and a read whose replica becomes the primary. -/
theorem draining_admits_new_work :
    (∃ s, (machine 1 twoNodeRouter 0).run (loggedIn ++
        [.beginDrain, .read 0 .parse .write ["n1", "n2"] true,
          .pooled (.client 0 (.takeIdle 0)), .pooled (.client 0 .forward)]) = some s ∧
      (machine 1 twoNodeRouter 0).Reachable s ∧
      ∃ w ∈ s.writes, w.draining = true ∧ w.toPrimary = true ∧ w.wasFree = true) ∧
    (∃ s, (machine 1 { twoNodeRouter with config := ⟨false, 0⟩ } 0).run (loggedIn ++
        [.beginDrain, .read 0 .query .read ["n1", "n2"] true,
          .pooled (.client 0 (.takeIdle 0)), .pooled (.client 0 .forward)]) = some s ∧
      (machine 1 { twoNodeRouter with config := ⟨false, 0⟩ } 0).Reachable s ∧
      ∃ w ∈ s.writes, w.draining = true ∧ w.toPrimary = true ∧ w.wasFree = true) ∧
    (∃ s, (machine 1 twoNodeRouter 0).run (loggedIn ++
        [.read 0 .query .write ["n1", "n2"] true, .beginDrain,
          .pooled (.client 0 (.takeIdle 0)), .pooled (.client 0 .forward)]) = some s ∧
      (machine 1 twoNodeRouter 0).Reachable s ∧
      ∃ w ∈ s.writes, w.draining = true ∧ w.toPrimary = true ∧ w.wasFree = true) ∧
    ∃ s, (machine 1 twoNodeRouter 0).run (loggedIn ++
        [.beginDrain, .read 0 .query .read ["n1", "n2"] true,
          .pooled (.client 0 (.takeIdle 0)), .pooled (.client 0 .check),
          .pooled (.client 0 .reserve), .pooled (.client 0 (.opened true)),
          .topology { twoNodes with primaryNodeId := "n2" }, .pooled (.client 0 .forward)])
          = some s ∧
      (machine 1 twoNodeRouter 0).Reachable s ∧
      ∃ w ∈ s.writes, w.draining = true ∧ w.toPrimary = true ∧ w.wasFree = true :=
  ⟨Machine.exists_of_run (by decide +kernel) fun _ => of_decide_eq_true,
    Machine.exists_of_run (by decide +kernel) fun _ => of_decide_eq_true,
    Machine.exists_of_run (by decide +kernel) fun _ => of_decide_eq_true,
    Machine.exists_of_run (by decide +kernel) fun _ => of_decide_eq_true⟩

/-- Two sessions: one ends its transaction on the primary while the proxy drains,
the other reads from the replica. -/
def draining : List GateLabel :=
  loggedIn ++ [.pooled (.login "app" "owner" "n1" "a1:5432"), .pooled (.client 1 .donate),
      .read 0 .query .write ["n1", "n2"] true, .pooled (.client 0 (.takeIdle 0)),
      .pooled (.client 0 .forward), .pooled (.client 0 (.reply (.ready .inTransaction) true)),
      .beginDrain, .read 0 .query .write ["n1", "n2"] true, .pooled (.client 0 .forward),
      .pooled (.client 0 (.reply (.ready .idle) true)),
      .read 1 .query .read ["n1", "n2"] true, .pooled (.client 1 (.takeIdle 0)),
      .pooled (.client 1 .check), .pooled (.client 1 .reserve),
      .pooled (.client 1 (.opened true)), .pooled (.client 1 .forward)]

theorem draining_admits_no_new_work_twoSessions :
    ∃ s, (machine 2 twoNodeRouter 0).run draining = some s ∧ s.writes.length = 3 ∧
      s.router.draining = true ∧
      (∀ w ∈ s.writes, w.draining = true → w.toPrimary = true → w.wasFree = false) ∧
      ∀ s', (Machine.mk s (step 2)).Reaches (fun s l => s.admitsNone l = true ∧ l ≠ .endDrain) s' →
        ∃ new, s'.writes = new ++ s.writes ∧ ∀ w ∈ new, w.toPrimary = false := by
  obtain ⟨s, hs, hlen, hdrain, hgone⟩ := (machine 2 twoNodeRouter 0).exists_run draining
    (fun s => s.writes.length = 3 ∧ s.router.draining ∧ ∀ c ∈ s.proxy.clients,
      c.current.map HeldBackend.nodeId ≠ some s.primaryId) (by decide +kernel)
  obtain ⟨hwrites, hafter⟩ :=
    draining_admits_no_new_work 2 twoNodeRouter 0 s (Machine.reaches_of_run (by decide +kernel) hs)
  exact ⟨s, hs, hlen, hdrain, hwrites, hafter hdrain hgone⟩

end GatedProxy

end PgCluster
