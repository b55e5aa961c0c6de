import PgCluster.ProxyBackends

/-!
# What an idle connection may still carry

A session gives its connection back when the backend reports no transaction,
and whenever it ends. The first is right as long as the report is about
everything that was forwarded; the second asks nothing of the connection.
Here are conditions on the clients under which every idle connection is
clean, and the proof over all runs of any number of sessions.

What carries it is a fact about a connection that is in use (`Good`): of the
replies not read yet only the last can be a `ReadyForQuery`, and it tells the
truth about a backend with nothing else to do.
-/

namespace PgCluster

open List ConnectionPools

/-! ## The backend under a well-behaved client -/

namespace Backend

variable {b : Backend} {m : FrontendMessage} {o : Outcome}

/-- No reply is outstanding and no COPY is open. -/
def atRest (b : Backend) : Bool := b.replies.isEmpty && !b.mode.copying

/-- The message comes in its place: a COPY message always, any other when the
backend is at rest, and a simple query only after a Sync. -/
def calmFor (b : Backend) (m : FrontendMessage) : Bool :=
  m.isCopy || (b.atRest && (m != .query || !b.unsynced))

def CopyReplies (rs : List Reply) : Prop := ∀ r ∈ rs, r = .copyIn

structure Good (b : Backend) : Prop where
  replies : CopyReplies b.replies ∨ ∃ rs, b.replies = rs ++ [.ready b.txn] ∧ CopyReplies rs ∧
      b.mode = .normal ∧ b.unsynced = false
  simpleCopy : b.mode = .simpleCopy → b.unsynced = false

theorem good_fresh : Good .fresh := ⟨.inl nofun, nofun⟩

theorem Good.copyReplies (h : Good b) (hmode : b.mode ≠ .normal) : CopyReplies b.replies := by
  rcases h.replies with hcopy | ⟨-, -, -, hnormal, -⟩
  · exact hcopy
  · exact absurd hnormal hmode

theorem good_finish (hreplies : CopyReplies b.replies) (hsynced : b.unsynced = false) :
    Good (b.finish o) :=
  ⟨.inr ⟨b.replies, rfl, hreplies, rfl, hsynced⟩, nofun⟩

theorem good_runQuery (hreplies : CopyReplies b.replies) (hsynced : b.unsynced = false) :
    Good (b.runQuery o) := by
  unfold runQuery
  split
  · refine ⟨.inl fun r hr => ?_, fun _ => hsynced⟩
    rcases mem_append.mp hr with hold | hnew
    · exact hreplies r hold
    · exact mem_singleton.mp hnew
  · exact good_finish hreplies hsynced

theorem good_skip (hreplies : CopyReplies b.replies) : Good (b.skip o) :=
  ⟨.inl hreplies, nofun⟩

theorem replies_of_atRest (h : b.atRest) : b.replies = [] ∧ b.mode.copying = false := by
  simpa [atRest] using h

theorem Good.receiveExtended (hrest : b.atRest) : Good (b.receiveExtended m o) := by
  obtain ⟨hreplies, hmode⟩ := replies_of_atRest hrest
  have hcopy : CopyReplies b.replies := by simp [hreplies, CopyReplies]
  unfold Backend.receiveExtended
  dsimp only
  split
  · rename_i hnormal
    split_ifs
    · exact good_skip hcopy
    · refine ⟨.inl ?_, nofun⟩
      simp [reply, hreplies, CopyReplies]
    · exact ⟨.inl hcopy, by simp [hnormal]⟩
  · rename_i hsimple
    simp [hsimple, BackendMode.copying] at hmode
  · rename_i hextended
    simp [hextended, BackendMode.copying] at hmode
  · rename_i hskip
    exact ⟨.inl hcopy, by simp [hskip]⟩

theorem Good.receiveSync (hrest : b.atRest) : Good b.receiveSync := by
  obtain ⟨hreplies, hmode⟩ := replies_of_atRest hrest
  unfold Backend.receiveSync
  rw [if_neg (by simp [hmode])]
  exact ⟨.inr ⟨b.replies, rfl, by simp [hreplies, CopyReplies], rfl, rfl⟩, nofun⟩

theorem Good.receiveQuery (h : Good b) (hrest : b.atRest) (hsynced : b.unsynced = false) :
    Good (b.receiveQuery o) := by
  obtain ⟨hreplies, -⟩ := replies_of_atRest hrest
  have hcopy : CopyReplies b.replies := by simp [hreplies, CopyReplies]
  unfold Backend.receiveQuery
  split
  · exact good_runQuery hcopy hsynced
  · exact good_finish hcopy hsynced
  · exact good_skip hcopy
  · exact h

theorem Good.receiveCopyData (h : Good b) : Good (b.receiveCopyData o) := by
  unfold Backend.receiveCopyData
  split
  · rename_i hsimple
    split_ifs
    · exact good_finish (h.copyReplies (by simp [hsimple])) (h.simpleCopy hsimple)
    · exact h
  · rename_i hextended
    split_ifs
    · exact good_skip (h.copyReplies (by simp [hextended]))
    · exact h
  · exact h
  · exact h

theorem Good.receiveCopyEnd (h : Good b) : Good (b.receiveCopyEnd o) := by
  unfold Backend.receiveCopyEnd
  split
  · rename_i hsimple
    exact good_runQuery (h.copyReplies (by simp [hsimple])) (h.simpleCopy hsimple)
  · rename_i hextended
    have hcopy := h.copyReplies (by simp [hextended])
    split_ifs
    · exact good_skip hcopy
    · exact ⟨.inl hcopy, nofun⟩
  · exact h
  · exact h

theorem Good.receive (h : Good b) (hm : b.calmFor m) : Good (b.receive m o) := by
  have hrest (hcopy : m.isCopy = false) : b.atRest := by
    simp only [calmFor, hcopy, Bool.false_or, Bool.and_eq_true] at hm
    exact hm.1
  cases m with
  | query =>
    have hcalm : b.atRest ∧ b.unsynced = false := by
      simpa [calmFor, FrontendMessage.isCopy] using hm
    exact h.receiveQuery hcalm.1 hcalm.2
  | sync => exact Good.receiveSync (hrest rfl)
  | parse | bind | execute | describe | flush | close => exact Good.receiveExtended (hrest rfl)
  | copyData => exact h.receiveCopyData
  | copyDone | copyFail => exact h.receiveCopyEnd
  | terminate | passwordMessage | startupMessage => exact h

theorem CopyReplies.drop {rs : List Reply} (h : CopyReplies rs) (k : Nat) :
    CopyReplies (rs.drop k) :=
  fun r hr => h r (mem_of_mem_drop hr)

/-- Reading a reply and losing some. If it reports no transaction, nothing is
left. -/
theorem Good.read {r : Reply} {rest : List Reply} (h : Good b) (hr : b.replies = r :: rest)
    (k : Nat) : Good { b with replies := rest.drop k } ∧
      (TxnState.ofStatusByte r.status = .idle → { b with replies := rest.drop k } = .fresh) := by
  rcases h.replies with hcopy | ⟨rs, hready, hcopy, hmode, hsynced⟩
  · rw [hr] at hcopy
    obtain rfl : r = .copyIn := hcopy r mem_cons_self
    have hrest : CopyReplies rest := fun r' hr' => hcopy r' (mem_cons_of_mem _ hr')
    exact ⟨⟨.inl (hrest.drop k), h.simpleCopy⟩, nofun⟩
  · rw [hr] at hready
    cases rs with
    | nil =>
      obtain ⟨rfl, rfl⟩ := List.cons.inj hready
      rw [drop_nil]
      refine ⟨⟨.inl (forall_mem_nil _), h.simpleCopy⟩, fun hidle => ?_⟩
      have htxn : b.txn = .idle := by simpa [Reply.status] using hidle
      rw [htxn, hmode, hsynced]
      rfl
    | cons r' rs =>
      obtain ⟨rfl, rfl⟩ := List.cons.inj hready
      obtain rfl : r = .copyIn := hcopy r mem_cons_self
      have hrest : CopyReplies rs := fun r' hr' => hcopy r' (mem_cons_of_mem _ hr')
      refine ⟨⟨?_, h.simpleCopy⟩, nofun⟩
      rcases Nat.lt_or_ge rs.length k with hlost | hkept
      · have hnil : (rs ++ [Reply.ready b.txn]).drop k = [] :=
          drop_eq_nil_of_le (by simpa using Nat.succ_le_of_lt hlost)
        left
        show CopyReplies ((rs ++ [Reply.ready b.txn]).drop k)
        rw [hnil]
        exact forall_mem_nil _
      · refine .inr ⟨rs.drop k, ?_, hrest.drop k, hmode, hsynced⟩
        exact drop_append_of_le_length hkept

theorem calmFor_fresh (m : FrontendMessage) : Backend.fresh.calmFor m := by
  cases m <;> rfl

end Backend

/-! ## Sessions -/

namespace Proxy

/-- What a client has to do: finish its COPYs and pipelines before anything
else, and end its session only when it holds no backend, or a dead one. The
last is asked of the loss of quorum too. -/
def careful (p : Proxy) : PooledLabel → Bool
  | .client i (.read m quorum _ alive) =>
    if m = .terminate || !quorum then (p.held i).isNone || !alive
    else (p.held i).all fun conn => conn.backend.calmFor m
  | .client i (.disconnect alive) => (p.held i).isNone || !alive
  | _ => true

end Proxy

def ClientPhase.Suits : ClientPhase → Backend → Prop
  | .reading, b | .waiting, b => b.Good
  | .holding m, b => b.Good ∧ b.calmFor m
  | _, b => b = .fresh

def IdleFresh (_ : String) (conn : BackendConnection) : Prop := conn.backend = .fresh

namespace ProxyClient

def Calm (conn : Option BackendConnection) (s : ProxyClient) : Prop :=
  ∀ c ∈ conn, s.phase.Suits c.backend

variable {max i along : Nat} {p : Proxy} {s s' : ProxyClient} {st : PoolStore} {l : ClientLabel}
  {o : Outcome} {alive : Bool} {conns : Nat → BackendConnection}

theorem calm_of_current {h : HeldBackend} (hheld : s.current = some h)
    (hsuits : s.phase.Suits (conns h.conn).backend) : Calm (s.conn.map conns) s := by
  rw [conn_of_current hheld]
  rintro _ ⟨⟩
  exact hsuits

theorem calm_of_none (h : s.conn = none) : Calm (s.conn.map conns) s := by
  rw [h]
  exact nofun

theorem alive_of_returns {h : HeldBackend} (hs : p.proxy.clients[i]? = some s)
    (hheld : s.current = some h)
    (hl : (∃ m quorum route, l = .read m quorum route alive) ∨ l = .disconnect alive)
    (hreturns : l.returns) (hcareful : p.careful (.client i l)) : alive = false := by
  have hsome : p.held i = some (p.conns h.conn) := Proxy.held_of_current hs hheld
  rcases hl with ⟨m, quorum, _, rfl⟩ | rfl
  · have hend : (m = .terminate || !quorum) := (Bool.or_comm _ _).trans hreturns
    simpa [Proxy.careful, hend, hsome] using hcareful
  · simpa [Proxy.careful, hsome] using hcareful

theorem Calm.move (hseek : s.Seeking) (hcareful : p.careful (.client i l))
    (hanswers : p.answers (.client i l)) (hs : p.proxy.clients[i]? = some s)
    (hidle : ∀ key, ∀ c ∈ p.proxy.pools.idleAt key, IdleFresh key (p.conns c))
    (hcalm : Calm (s.conn.map p.conns) s) (h : s.Moves max p.proxy.store l st s') :
    Brings IdleFresh (s.connsAfter p.proxy.store.fresh p.conns o along l) p.proxy.pools st.pools ∧
      Calm (s'.conn.map (s.connsAfter p.proxy.store.fresh p.conns o along l)) s' := by
  -- The steps before a session has a backend.
  have hnone (hphase : s.phase.seeks) {t : ProxyClient} (hcurrent : t.current = s.current)
      (ht : t.phase.brought = none) : t.conn = none := by
    rw [conn_of_free (hcurrent.trans (hseek hphase)), ht]
  have hsuits {held : HeldBackend} (hheld : s.current = some held) :
      s.phase.Suits (p.conns held.conn).backend :=
    hcalm _ (by rw [conn_of_current hheld]; rfl)
  cases h with
  | donate conn _ _ _ hphase hdonate =>
    have hfree : s.current = none := hseek (by rw [hphase]; rfl)
    have hfresh := hcalm (p.conns conn) (by rw [conn_of_free hfree, hphase]; rfl)
    rw [hphase] at hfresh
    exact ⟨brings_of_gains (gains_donate hdonate) hfresh, calm_of_none (conn_of_free hfree)⟩
  | panic _ _ _ hphase | room _ _ _ hphase | noRoom _ _ _ hphase | retry _ _ _ hphase
  | giveUp _ _ _ hphase =>
    exact ⟨brings_of_shrinks .refl, calm_of_none (hnone (by rw [hphase]; rfl) rfl rfl)⟩
  | miss _ _ _ _ hphase =>
    exact ⟨brings_of_shrinks shrinks_takeIdle,
      calm_of_none (hnone (by rw [hphase]; rfl) rfl rfl)⟩
  | reserve _ _ _ _ hphase =>
    exact ⟨brings_of_shrinks shrinks_increment,
      calm_of_none (hnone (by rw [hphase]; rfl) rfl rfl)⟩
  | refused _ _ _ hphase =>
    exact ⟨brings_of_shrinks shrinks_decrement,
      calm_of_none (hnone (by rw [hphase]; rfl) rfl rfl)⟩
  | route _ _ _ _ _ hfree => exact ⟨brings_of_shrinks .refl, calm_of_none (conn_of_free hfree)⟩
  | finish _ _ _ hl hend =>
    refine ⟨?_, calm_of_none rfl⟩
    unfold finish
    cases hheld : s.current with
    | none => exact brings_of_shrinks .refl
    | some =>
      have hreturns := hend.resolve_left (by rw [hheld]; exact nofun)
      rw [alive_of_returns hs hheld hl hreturns hcareful]
      exact brings_of_shrinks shrinks_release
  | ignore => exact ⟨brings_of_shrinks .refl, hcalm⟩
  | stay m _ _ hphase hm =>
    refine ⟨brings_of_shrinks .refl, ?_⟩
    cases hheld : s.current with
    | none => exact calm_of_none (conn_of_free rfl)
    | some held =>
      have hgood := hsuits hheld
      rw [hphase] at hgood
      have hcalmFor : (p.conns held.conn).backend.calmFor m := by
        simpa [Proxy.careful, hm, Proxy.held_of_current hs hheld] using hcareful
      exact calm_of_current rfl ⟨hgood, hcalmFor⟩
  | take m _ _ _ conn _ htake =>
    have hfresh : (p.conns conn).backend = .fresh := hidle _ conn (takeIdle_some htake).1
    have htaken : (ClientPhase.holding m).Suits (p.conns conn).backend := by
      rw [hfresh]
      exact ⟨Backend.good_fresh, Backend.calmFor_fresh m⟩
    exact ⟨brings_of_shrinks shrinks_takeIdle, calm_of_current rfl htaken⟩
  | opened m _ _ hphase =>
    refine ⟨brings_of_shrinks .refl, calm_of_current rfl ?_⟩
    simp only [connsAfter, hphase, Function.update_self]
    exact ⟨Backend.good_fresh, Backend.calmFor_fresh m⟩
  | forward m _ hphase hheld =>
    have hgood := hsuits hheld
    rw [hphase] at hgood
    refine ⟨brings_of_shrinks .refl, calm_of_current hheld ?_⟩
    simp only [connsAfter, hphase, hheld, Function.update_self]
    split_ifs
    all_goals exact hgood.1.receive hgood.2
  | ready _ held hphase hheld =>
    obtain ⟨rest, hreplies⟩ := Proxy.exists_reply hs hheld hanswers
    have hgood := hsuits hheld
    rw [hphase] at hgood
    refine ⟨brings_release fun _ => ?_, calm_of_none rfl⟩
    simp only [connsAfter, hheld, IdleFresh, Function.update_self, hreplies]
    exact (hgood.read hreplies along).2 rfl
  | keep _ _ hphase _ _ hheld =>
    obtain ⟨rest, hreplies⟩ := Proxy.exists_reply hs hheld hanswers
    have hgood := hsuits hheld
    rw [hphase] at hgood
    refine ⟨brings_of_shrinks .refl, calm_of_current hheld ?_⟩
    simp only [connsAfter, hheld, Function.update_self, hreplies]
    exact (hgood.read hreplies along).1
  | fail => exact ⟨brings_of_shrinks .refl, calm_of_none rfl⟩

end ProxyClient

/-! ## The whole proxy -/

namespace Proxy

theorem idle_clean {max : Nat} {p : Proxy}
    (hr : (machine max).Reaches (fun q l => q.careful l.pooled) p) :
    ∀ key b, p.proxy.pools.lookup key = some b → ∀ c ∈ b.idle,
      (p.conns c).backend.txn = .idle ∧ (p.conns c).backend.unsynced = false := by
  have hinv := invariant (P := IdleFresh) (S := ProxyClient.Calm) hr ?_ ?_
  · intro key b hb c hc
    rw [← ConnectionPools.idleAt_of_lookup hb] at hc
    have hfresh : (p.conns c).backend = .fresh := hinv.idle key c hc
    rw [hfresh]
    exact ⟨rfl, rfl⟩
  · rintro q x _ _ - _ ⟨⟩
    rfl
  · intro q i s l o along st s' hreach hcareful hanswers hs hidle hcalm hmove
    have hseek := (PooledProxy.custodyInv_of_reachable hreach).seeking s (mem_of_getElem? hs)
    exact hcalm.move hseek hcareful hanswers hs hidle hmove

def aliceLogin : ProxyLabel := { pooled := .login "app" "alice" "pg1" "10.0.0.1:5432" }

def alice (l : ClientLabel) : ProxyLabel := { pooled := .client 0 l }

def aliceReads (m : FrontendMessage) : ProxyLabel :=
  alice (.read m true (.backend "pg1" "10.0.0.1:5432") true)

def aliceForwards (o : Outcome) : ProxyLabel := { pooled := .client 0 .forward, outcome := o }

/-- A transaction with a pipeline and a COPY in it, on a connection that the
session opened. -/
def commitRun : List ProxyLabel :=
  let more : Outcome := ⟨.inTransaction, false, false⟩
  let replies := alice (.reply (.ready .inTransaction) true)
  [aliceLogin, alice .donate, aliceReads .query, alice (.takeIdle 1), alice .check, alice .reserve,
    alice (.opened true), aliceForwards more, replies,
    aliceReads .parse, aliceForwards more, aliceReads .sync, aliceForwards more, replies,
    aliceReads .query, aliceForwards ⟨.inTransaction, false, true⟩, alice (.reply .copyIn true),
    aliceReads .copyDone, aliceForwards more, replies,
    aliceReads .query, aliceForwards ⟨.idle, false, false⟩, alice (.reply (.ready .idle) true),
    alice (.disconnect true)]

theorem idle_clean_after_commit :
    ∃ p b c, (machine 25).Reaches (fun q l => q.careful l.pooled) p ∧
      p.proxy.pools.lookup "app|alice|pg1:10.0.0.1:5432" = some b ∧ c ∈ b.idle ∧
      (p.conns c).backend.txn = .idle ∧ (p.conns c).backend.unsynced = false := by
  obtain ⟨p, hp, hbucket⟩ := (machine 25).exists_run commitRun
    (fun p => p.proxy.pools.lookup "app|alice|pg1:10.0.0.1:5432" = some ⟨[1], 1, 25⟩)
    (by decide +kernel)
  have hr := Machine.reaches_of_run (G := fun q l => q.careful l.pooled) (by decide +kernel) hp
  exact ⟨p, _, 1, hr, hbucket, mem_cons_self, idle_clean hr _ _ hbucket 1 mem_cons_self⟩

/-- A client disconnects inside a transaction. -/
theorem disconnect_leaves_transaction : ∃ p b c, (machine 25).Reachable p ∧
      p.proxy.pools.lookup "app|alice|pg1:10.0.0.1:5432" = some b ∧ c ∈ b.idle ∧
      (p.conns c).backend.txn = .inTransaction := by
  obtain ⟨p, hp, hbucket, htxn⟩ := (machine 25).exists_run
    [aliceLogin, alice .donate, aliceReads .query, alice (.takeIdle 0),
      aliceForwards ⟨.inTransaction, false, false⟩,
      alice (.reply (.ready .inTransaction) true), alice (.disconnect true)]
    (fun p => p.proxy.pools.lookup "app|alice|pg1:10.0.0.1:5432" = some ⟨[0], 1, 25⟩ ∧
      (p.conns 0).backend.txn = .inTransaction) (by decide +kernel)
  exact ⟨p, _, 0, Machine.reachable_of_run hp, hbucket, mem_cons_self, htxn⟩

end Proxy

end PgCluster
