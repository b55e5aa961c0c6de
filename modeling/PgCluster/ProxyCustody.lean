import PgCluster.ProxyConnections

/-!
# Who has a connection

A connection is in one place at a time: in one idle list, once, or with one
session. The operations of the pool do two things to the idle lists, as far
as this is concerned: they take connections out, or put one at the end. A
session that holds a connection keeps it until a `ReadyForQuery` says idle,
so all it forwards until then goes to that one.
-/

namespace PgCluster

open ProxyClient
open List hiding swap

/-! ## Idle lists -/

variable {max i j c : Nat} {key : String} {s s' : ProxyClient}

namespace ConnectionPools

variable {κ : Type} {pools pools' : ConnectionPools κ} {key' addr : String} {b : PoolBucket κ}
  {conn : κ} {broken : Nat} {alive : Bool}

def idleAt (pools : ConnectionPools κ) (key : String) : List κ :=
  (pools.lookup key).elim [] PoolBucket.idle

theorem bucket_idle : (pools.bucket max key).idle = pools.idleAt key := by
  unfold ConnectionPools.bucket idleAt
  cases pools.lookup key <;> rfl

theorem idleAt_of_lookup (h : pools.lookup key = some b) : pools.idleAt key = b.idle := by
  rw [idleAt, h, Option.elim_some]

theorem idleAt_insert : idleAt (pools.insert key b) key = b.idle :=
  idleAt_of_lookup (Finmap.lookup_insert _)

theorem idleAt_insert_of_ne (h : key' ≠ key) :
    idleAt (pools.insert key b) key' = pools.idleAt key' := by
  rw [idleAt, Finmap.lookup_insert_of_ne _ h, idleAt]

def Shrinks (pools pools' : ConnectionPools κ) : Prop :=
  ∀ key, List.Sublist (pools'.idleAt key) (pools.idleAt key)

/-- Connections left the idle lists, and `conn` may be new in one of them. -/
def Gains (key : String) (conn : κ) (pools pools' : ConnectionPools κ) : Prop :=
  ∀ key', List.Sublist (pools'.idleAt key')
    (if key' = key then pools.idleAt key' ++ [conn] else pools.idleAt key')

theorem Shrinks.refl : Shrinks pools pools := fun _ => List.Sublist.refl _

theorem shrinks_insert (h : List.Sublist b.idle (pools.idleAt key)) :
    Shrinks pools (pools.insert key b) := by
  intro key'
  by_cases hkey : key' = key
  · subst hkey
    rwa [idleAt_insert]
  · rw [idleAt_insert_of_ne hkey]

theorem Shrinks.gains (h : Shrinks pools pools') : Gains key conn pools pools' := by
  intro key'
  split_ifs
  · exact (h key').trans (sublist_append_left _ _)
  · exact h key'

theorem gains_insert (h : List.Sublist b.idle (pools.idleAt key ++ [conn])) :
    Gains key conn pools (pools.insert key b) := by
  intro _
  split_ifs with hkey
  · subst hkey
    rwa [idleAt_insert]
  · rw [idleAt_insert_of_ne hkey]

theorem shrinks_increment : Shrinks pools (pools.increment max key) :=
  shrinks_insert (by rw [bucket_idle])

theorem shrinks_decrement : Shrinks pools (pools.decrement max key) :=
  shrinks_insert (by rw [bucket_idle])

theorem shrinks_clear : Shrinks pools (pools.clear key) := by
  unfold clear
  cases hlookup : pools.lookup key with
  | none => exact .refl
  | some => exact shrinks_insert (nil_sublist _)

theorem shrinks_evict : Shrinks pools (pools.evict key i) := by
  unfold evict
  cases hlookup : pools.lookup key with
  | none => exact .refl
  | some =>
    dsimp only
    split_ifs
    · refine shrinks_insert ?_
      rw [idleAt_of_lookup hlookup]
      exact eraseIdx_sublist _ _
    · exact .refl

theorem shrinks_takeIdle : Shrinks pools (pools.takeIdle max key broken).2 := by
  unfold takeIdle
  dsimp only
  split
  · exact shrinks_insert (nil_sublist _)
  · rename_i conn rest hdrop
    refine shrinks_insert ?_
    rw [bucket_idle] at hdrop
    have hrest : List.Sublist rest (pools.idleAt key).reverse :=
      ((sublist_cons_self conn rest).trans (by rw [← hdrop])).trans (drop_sublist _ _)
    exact reverse_sublist.mp (by rwa [reverse_reverse])

theorem takeIdle_some (h : (pools.takeIdle max key broken).1 = some conn) :
    conn ∈ pools.idleAt key ∧
      ((pools.idleAt key).Nodup → conn ∉ (pools.takeIdle max key broken).2.idleAt key) := by
  unfold takeIdle at h ⊢
  dsimp only at h ⊢
  split at h
  · cases h
  · rename_i conn' rest hdrop
    obtain rfl := Option.some.inj h
    rw [bucket_idle] at hdrop
    have hsub : List.Sublist (conn' :: rest) (pools.idleAt key).reverse := by
      rw [← hdrop]
      exact drop_sublist _ _
    refine ⟨mem_reverse.mp (hsub.mem mem_cons_self), fun hnodup => ?_⟩
    have hnodup' := (nodup_reverse.mpr hnodup).sublist hsub
    rw [idleAt_insert, mem_reverse]
    exact (nodup_cons.mp hnodup').1

/-- A broken connection does not come back. -/
theorem shrinks_release : Shrinks pools (pools.release key conn false) := by
  unfold release
  cases hlookup : pools.lookup key with
  | none => exact .refl
  | some => exact shrinks_insert (by rw [idleAt_of_lookup hlookup])

theorem gains_release : Gains key conn pools (pools.release key conn alive) := by
  cases alive with
  | false => exact shrinks_release.gains
  | true =>
    unfold release
    cases hlookup : pools.lookup key with
    | none => exact Shrinks.refl.gains
    | some => exact gains_insert (by rw [idleAt_of_lookup hlookup])

theorem gains_donate (h : pools.donate max key conn = some pools') :
    Gains key conn pools pools' := by
  unfold donate at h
  dsimp only at h
  split at h
  · split at h
    · cases h
    · rename_i _ _ hidle
      cases h
      rw [bucket_idle] at hidle
      refine gains_insert ?_
      rw [hidle, cons_append]
      exact sublist_cons_self _ _
  · cases h
    exact gains_insert (by rw [bucket_idle])

end ConnectionPools

/-! ## One place for each connection -/

/-- A place for a connection: the idle list of a bucket, or a session. -/
inductive Place where
  | idle (key : String)
  | client (i : Nat)

open ConnectionPools

section Custody

variable {pools pools' : ConnectionPools Nat} {held held' : Nat → Option Nat} {fresh conn : Nat}

/-- Connection `c` is at a place, where `held` says what each session has. -/
def IsAt (pools : ConnectionPools Nat) (held : Nat → Option Nat) (c : Nat) : Place → Prop
  | .idle key => c ∈ pools.idleAt key
  | .client i => held i = some c

structure Custody (pools : ConnectionPools Nat) (held : Nat → Option Nat) (fresh : Nat) :
    Prop where
  nodup : ∀ key, (pools.idleAt key).Nodup
  unique : ∀ c p p', IsAt pools held c p → IsAt pools held c p' → p = p'
  old : ∀ c p, IsAt pools held c p → c < fresh

namespace Custody

theorem shrink {fresh' : Nat} (h : Custody pools held fresh) (hpools : Shrinks pools pools')
    (hheld : ∀ j c, held' j = some c → held j = some c) (hfresh : fresh ≤ fresh') :
    Custody pools' held' fresh' := by
  have hat : ∀ c p, IsAt pools' held' c p → IsAt pools held c p := by
    rintro c (key | j) hc
    · exact (hpools key).mem hc
    · exact hheld j c hc
  refine ⟨fun key => (h.nodup key).sublist (hpools key), fun c p p' hp hp' => ?_, fun c p hp => ?_⟩
  · exact h.unique c p p' (hat c p hp) (hat c p' hp')
  · exact (h.old c p (hat c p hp)).trans_le hfresh

/-- A connection that was nowhere else than at one place comes to another. -/
theorem unique_of_move {At At' : Nat → Place → Prop} {dest : Place}
    (h : ∀ c p p', At c p → At c p' → p = p')
    (hmove : ∀ c p, At' c p → At c p ∨ (c = conn ∧ p = dest)) (hgone : ∀ p, At' conn p → p = dest) :
    ∀ c p p', At' c p → At' c p' → p = p' := by
  intro c p p' hp hp'
  by_cases hc : c = conn
  · subst hc
    rw [hgone p hp, hgone p' hp']
  · have hold : ∀ p, At' c p → At c p := fun p hp => (hmove c p hp).resolve_right fun h => hc h.1
    exact h c p p' (hold p hp) (hold p' hp')

/-- A session's connection goes to an idle list, if anywhere. -/
theorem push (h : Custody pools held fresh) (hi : held i = some conn)
    (hpools : Gains key conn pools pools')
    (hheld : ∀ j c, held' j = some c → j ≠ i ∧ held j = some c) : Custody pools' held' fresh := by
  have hwith : IsAt pools held conn (.client i) := hi
  have hmove : ∀ c p, IsAt pools' held' c p → IsAt pools held c p ∨ (c = conn ∧ p = .idle key) := by
    rintro c (key' | j) hc
    · have hmem := (hpools key').mem hc
      split_ifs at hmem with hkey
      · rcases mem_append.mp hmem with hold | hnew
        · exact .inl hold
        · exact .inr ⟨mem_singleton.mp hnew, by rw [hkey]⟩
      · exact .inl hmem
    · exact .inl (hheld j c hc).2
  have hgone : ∀ p, IsAt pools' held' conn p → p = .idle key := by
    intro p hp
    rcases hmove conn p hp with hold | ⟨-, hdest⟩
    · -- The session is the only place the connection was at, and it has let go of it.
      obtain rfl := h.unique conn _ _ hwith hold
      exact absurd rfl (hheld i conn hp).1
    · exact hdest
  refine ⟨fun key' => ?_, unique_of_move h.unique hmove hgone, fun c p hp => ?_⟩
  · refine List.Nodup.sublist (hpools key') ?_
    split_ifs with hkey
    · refine nodup_append.mpr ⟨h.nodup key', nodup_singleton _, ?_⟩
      rintro c hc _ hconn rfl
      rw [mem_singleton.mp hconn] at hc
      have hplace := h.unique conn (.idle key') _ hc hwith
      cases hplace
    · exact h.nodup key'
  · rcases hmove c p hp with hold | ⟨rfl, -⟩
    · exact h.old c p hold
    · exact h.old c _ hwith

/-- A session comes to a connection that is nowhere else any more. -/
theorem arrive (h : Custody pools held fresh) (hpools : Shrinks pools pools')
    (hheld : ∀ j c, held' j = some c → (j = i ∧ c = conn) ∨ held j = some c)
    (hgone : ∀ p, IsAt pools held conn p → ¬ IsAt pools' held' conn p) {fresh' : Nat}
    (hfresh : fresh ≤ fresh') (hconn : conn < fresh') : Custody pools' held' fresh' := by
  have hmove : ∀ c p, IsAt pools' held' c p → IsAt pools held c p ∨ (c = conn ∧ p = .client i) := by
    rintro c (key' | j) hc
    · exact .inl ((hpools key').mem hc)
    · rcases hheld j c hc with ⟨rfl, rfl⟩ | hold
      · exact .inr ⟨rfl, rfl⟩
      · exact .inl hold
  have hleft : ∀ p, IsAt pools' held' conn p → p = .client i := by
    intro p hp
    rcases hmove conn p hp with hold | ⟨-, hdest⟩
    · exact absurd hp (hgone p hold)
    · exact hdest
  refine ⟨fun key' => (h.nodup key').sublist (hpools key'),
    unique_of_move h.unique hmove hleft, fun c p hp => ?_⟩
  rcases hmove c p hp with hold | ⟨rfl, -⟩
  · exact Nat.lt_of_lt_of_le (h.old c p hold) hfresh
  · exact hconn

theorem take (h : Custody pools held fresh) (hconn : conn ∈ pools.idleAt key)
    (hpools : Shrinks pools pools') (hgone : conn ∉ pools'.idleAt key)
    (hheld : ∀ j c, held' j = some c → (j = i ∧ c = conn) ∨ held j = some c) :
    Custody pools' held' fresh := by
  have hidle : IsAt pools held conn (.idle key) := hconn
  refine h.arrive hpools hheld (fun p hold => ?_) le_rfl (h.old conn _ hidle)
  obtain rfl := h.unique conn _ _ hidle hold
  exact hgone

theorem gain (h : Custody pools held fresh) (hpools : Shrinks pools pools')
    (hheld : ∀ j c, held' j = some c → (j = i ∧ c = fresh) ∨ held j = some c) :
    Custody pools' held' (fresh + 1) :=
  h.arrive hpools hheld (fun p hold => absurd (h.old fresh p hold) (lt_irrefl _))
    (Nat.le_succ _) (Nat.lt_succ_self _)

end Custody

end Custody

/-! ## What a step of a session does -/

namespace ClientPhase

/-- The phases before a session has a backend for its message. -/
def seeks : ClientPhase → Bool
  | .donating .. | .acquiring .. | .checking .. | .reserving .. | .full .. | .opening .. => true
  | .reading | .holding _ | .waiting | .closed => false

/-- The connection a session brings from its login. -/
def brought : ClientPhase → Option Nat
  | .donating conn _ _ => some conn
  | _ => none

/-- The backend a session brings a connection to, or looks for one to. -/
def target : ClientPhase → Option (String × String)
  | .donating _ nodeId addr | .acquiring _ nodeId addr | .checking _ nodeId addr
  | .reserving _ nodeId addr _ | .full _ nodeId addr | .opening _ nodeId addr => some (nodeId, addr)
  | .reading | .holding _ | .waiting | .closed => none

end ClientPhase

/-- The connections sent to by session `i` since it last received `ReadyForQuery`
with status idle. -/
def sinceIdle (i : Nat) : List ProxyEvent → List Nat
  | [] => []
  | .forwarded j conn :: log => if j = i then conn :: sinceIdle i log else sinceIdle i log
  | .ready j txn :: log => if j = i ∧ txn = .idle then [] else sinceIdle i log

variable {h : HeldBackend}

namespace ProxyClient

variable {c₀ : Nat} {st st' : PoolStore} {l : ClientLabel} {log : List ProxyEvent}
  {held : Nat → Option Nat}

/-- The connection a session has in its hands. -/
def conn (s : ProxyClient) : Option Nat :=
  match s.current with
  | some h => some h.conn
  | none => s.phase.brought

theorem conn_of_current (hh : s.current = some h) : s.conn = some h.conn := by
  rw [conn, hh]

/-- A session that looks for a backend has none. -/
def Seeking (s : ProxyClient) : Prop := s.phase.seeks = true → s.current = none

theorem conn_of_free (hfree : s.current = none) : s.conn = s.phase.brought := by
  rw [conn, hfree]

theorem conn_congr (hcurrent : s'.current = s.current) (hs : s.phase.brought = none)
    (hs' : s'.phase.brought = none) : s'.conn = s.conn := by
  rw [conn, conn, hcurrent, hs, hs']

theorem Seeking.move (hs : s.Seeking) (h : Moves max st s l st' s') : s'.Seeking := by
  cases h with
  | donate | panic | finish | stay | take | giveUp | opened | refused | ready | keep | fail =>
    exact fun hseeks => absurd hseeks Bool.false_ne_true
  | ignore => exact hs
  | route _ _ _ _ _ hfree => exact fun _ => hfree
  | miss _ _ _ _ hphase | room _ _ _ hphase | noRoom _ _ _ hphase | reserve _ _ _ _ hphase
  | retry _ _ _ hphase => exact fun _ => hs (by rw [hphase]; rfl)
  | forward =>
    intro hseeks
    split_ifs at hseeks <;> exact absurd hseeks Bool.false_ne_true

/-- What the sessions hold after one of them has moved. -/
def swap (held : Nat → Option Nat) (i : Nat) (s' : ProxyClient) : Nat → Option Nat :=
  Function.update held i s'.conn

theorem swap_cases (h : swap held i s' j = some c) :
    (j = i ∧ s'.conn = some c) ∨ (j ≠ i ∧ held j = some c) := by
  by_cases hj : j = i
  · subst hj
    exact .inl ⟨rfl, by rwa [swap, Function.update_self] at h⟩
  · exact .inr ⟨hj, by rwa [swap, Function.update_of_ne hj] at h⟩

/-- The session keeps what it has, or has nothing. -/
theorem swap_of_conn (hi : held i = s.conn) (hconn : s'.conn = s.conn ∨ s'.conn = none) :
    ∀ j c, swap held i s' j = some c → held j = some c := by
  intro j c hc
  rcases swap_cases hc with ⟨rfl, hs'⟩ | ⟨-, hold⟩
  · rcases hconn with hsame | hnone
    · rw [hi, ← hsame, hs']
    · rw [hnone] at hs'
      cases hs'
  · exact hold

theorem swap_of_none (hconn : s'.conn = none) :
    ∀ j c, swap held i s' j = some c → j ≠ i ∧ held j = some c := by
  intro j c hc
  rcases swap_cases hc with ⟨-, hs'⟩ | hold
  · rw [hconn] at hs'
    cases hs'
  · exact hold

theorem swap_of_some (hconn : s'.conn = some c₀) :
    ∀ j c, swap held i s' j = some c → (j = i ∧ c = c₀) ∨ held j = some c := by
  intro j c hc
  rcases swap_cases hc with ⟨hj, hs'⟩ | ⟨-, hold⟩
  · rw [hconn] at hs'
    exact .inl ⟨hj, (Option.some.inj hs').symm⟩
  · exact .inr hold

/-- What the connection of a session has to be logged in for. -/
def wants (s : ProxyClient) : Option PoolIdentity :=
  match s.current with
  | some held => some (s.identity held.nodeId held.addr)
  | none => s.phase.target.map fun (nodeId, addr) => s.identity nodeId addr

theorem wants_of_current (hh : s.current = some h) :
    s.wants = some (s.identity h.nodeId h.addr) := by
  rw [wants, hh]

theorem wants_of_free (hfree : s.current = none) :
    s.wants = s.phase.target.map fun (nodeId, addr) => s.identity nodeId addr := by
  rw [wants, hfree]

/-- A session between two transactions. -/
def Resting (s : ProxyClient) : Prop := s.current = none ∧ s.phase ≠ .closed

/-- What a step of a session does with connections: it leaves the session without
one, or with the one it had; or the session gives its connection back, takes one
from an idle list, or opens one. -/
inductive Hands (st : PoolStore) (s : ProxyClient) (l : ClientLabel) (st' : PoolStore)
    (s' : ProxyClient) : Prop where
  | drops (hl : l ≠ .opened true) (hpools : Shrinks st.pools st'.pools)
      (hfresh : st'.fresh = st.fresh) (hconn : s'.conn = none) (hrest : s'.Resting → s.Resting)
      (hwants : s'.wants = none ∨ s'.wants = s.wants ∨ ∃ m nodeId addr alive,
        l = .read m true (.backend nodeId addr) alive ∧ s.current = none ∧
          s'.wants = some (s.identity nodeId addr))
  | keeps (hl : l ≠ .opened true) (hst : st' = st) (hconn : s'.conn = s.conn)
      (hrest : s'.Resting → s.Resting) (hwants : s'.wants = s.wants)
  | gives (c : Nat) (x : PoolIdentity) (hl : l ≠ .opened true)
      (hpools : Gains x.stringKey c st.pools st'.pools) (hfresh : st'.fresh = st.fresh)
      (hc : s.conn = some c) (hx : s.wants = some x) (hback : s.Resting ∨ l.returns = true)
      (hconn : s'.conn = none) (hwants : s'.wants = none)
  | takes (c : Nat) (x : PoolIdentity) (hl : l ≠ .opened true)
      (hpools : Shrinks st.pools st'.pools) (hfresh : st'.fresh = st.fresh)
      (hidle : c ∈ st.pools.idleAt x.stringKey)
      (hgone : (st.pools.idleAt x.stringKey).Nodup → c ∉ st'.pools.idleAt x.stringKey)
      (hrest : s.Resting) (hx : s.wants = some x) (hconn : s'.conn = some c)
      (hbusy : ¬ s'.Resting) (hwants : s'.wants = s.wants)
  | opens (m : FrontendMessage) (nodeId addr : String) (hl : l = .opened true)
      (hst : st' = { st with fresh := st.fresh + 1 }) (hphase : s.phase = .opening m nodeId addr)
      (hrest : s.Resting) (hx : s.wants = some (s.identity nodeId addr))
      (hconn : s'.conn = some st.fresh) (hbusy : ¬ s'.Resting) (hwants : s'.wants = s.wants)

theorem Moves.hands (hs : s.Seeking) (hmove : Moves max st s l st' s') : Hands st s l st' s' := by
  have hopen {phase : ClientPhase} (hphase : s.phase = phase) (hne : phase ≠ .closed) :
      s.phase ≠ .closed := by rwa [hphase]
  have hrest (hphase : s.phase.seeks) : s.Resting := by
    refine ⟨hs hphase, fun hclosed => ?_⟩
    rw [hclosed] at hphase
    exact absurd hphase Bool.false_ne_true
  have hwants {phase : ClientPhase} {nodeId addr : String} (hphase : s.phase = phase)
      (hseeks : phase.seeks) (htarget : phase.target = some (nodeId, addr)) :
      s.wants = some (s.identity nodeId addr) := by
    rw [wants_of_free (hs (by rwa [hphase])), hphase, htarget, Option.map_some]
  -- The steps before a session has a backend.
  have hseeks {pools : ConnectionPools Nat} {phase : ClientPhase} (hl : l ≠ .opened true)
      (hpools : Shrinks st.pools pools) (hphase : s.phase.seeks) (hbrought : phase.brought = none)
      (htarget : phase.target = none ∨ phase.target = s.phase.target) :
      Hands st s l { st with pools := pools } { s with phase := phase } := by
    have hfree := hs hphase
    refine .drops hl hpools rfl (by rw [conn_of_free (by exact hfree), hbrought])
      (fun _ => hrest hphase) ?_
    rw [wants_of_free hfree, wants_of_free (by exact hfree)]
    rcases htarget with hnone | hsame
    · exact .inl (by rw [hnone, Option.map_none])
    · exact .inr (.inl (by rw [hsame]; rfl))
  cases hmove with
  | donate conn nodeId addr _ hphase hdonate =>
    have hfree := hs (by rw [hphase]; rfl)
    exact .gives conn _ nofun (gains_donate hdonate) rfl
      (by rw [conn_of_free hfree, hphase, ClientPhase.brought]) (hwants hphase rfl rfl)
      (.inl (hrest (by rw [hphase]; rfl))) (conn_of_free hfree) (wants_of_free hfree)
  | panic _ _ _ hphase | giveUp _ _ _ hphase =>
    exact hseeks nofun .refl (by rw [hphase]; rfl) rfl (.inl rfl)
  | room _ _ _ hphase | noRoom _ _ _ hphase | retry _ _ _ hphase =>
    exact hseeks nofun .refl (by rw [hphase]; rfl) rfl (.inr (by rw [hphase]; rfl))
  | miss _ _ _ _ hphase =>
    exact hseeks nofun shrinks_takeIdle (by rw [hphase]; rfl) rfl (.inr (by rw [hphase]; rfl))
  | reserve _ _ _ _ hphase =>
    exact hseeks nofun shrinks_increment (by rw [hphase]; rfl) rfl (.inr (by rw [hphase]; rfl))
  | refused _ _ _ hphase =>
    exact hseeks nofun shrinks_decrement (by rw [hphase]; rfl) rfl (.inl rfl)
  | finish _ _ _ hl hend =>
    have hne : l ≠ .opened true := by rcases hl with ⟨_, _, route, rfl⟩ | rfl <;> exact nofun
    unfold ProxyClient.finish
    cases hheld : s.current with
    | none => exact .drops hne .refl rfl rfl (fun hclosed => absurd rfl hclosed.2) (.inl rfl)
    | some =>
      exact .gives _ _ hne gains_release rfl (conn_of_current hheld) (wants_of_current hheld)
        (.inr (hend.resolve_left (by rw [hheld]; exact nofun))) rfl rfl
  | ignore => exact .keeps nofun rfl rfl id rfl
  | stay _ _ _ hphase | keep _ _ hphase =>
    refine .keeps nofun rfl (conn_congr rfl (by rw [hphase]; rfl) rfl)
      (fun hrest => ⟨hrest.1, hopen hphase nofun⟩) ?_
    simp [wants, hphase, ClientPhase.target, identity]
  | route m nodeId addr alive hphase hfree =>
    exact .drops nofun .refl rfl (conn_of_free hfree) (fun _ => ⟨hfree, hopen hphase nofun⟩)
      (.inr (.inr ⟨m, nodeId, addr, alive, rfl, hfree, wants_of_free hfree⟩))
  | take _ _ _ _ _ hphase htake =>
    obtain ⟨hidle, hgone⟩ := takeIdle_some htake
    have hx := hwants hphase rfl rfl
    exact .takes _ _ nofun shrinks_takeIdle rfl hidle hgone (hrest (by rw [hphase]; rfl)) hx rfl
      (fun hrest => absurd hrest.1 nofun) hx.symm
  | opened _ _ _ hphase =>
    have hx := hwants hphase rfl rfl
    exact .opens _ _ _ rfl rfl hphase (hrest (by rw [hphase]; rfl)) hx rfl
      (fun hrest => absurd hrest.1 nofun) hx.symm
  | forward _ _ hphase hheld =>
    refine .keeps nofun rfl (conn_congr rfl (by rw [hphase]; rfl) (by
      dsimp only; split_ifs <;> rfl)) (fun hrest => ⟨hrest.1, hopen hphase nofun⟩) ?_
    simp [wants, hheld, identity]
  | ready _ _ _ hheld =>
    exact .gives _ _ nofun gains_release rfl (conn_of_current hheld) (wants_of_current hheld)
      (.inr rfl) rfl rfl
  | fail => exact .drops nofun .refl rfl rfl (fun hclosed => absurd rfl hclosed.2) (.inl rfl)

theorem custody_move (hs : s.Seeking) (hi : held i = s.conn)
    (hc : Custody st.pools held st.fresh) (hmove : Moves max st s l st' s') :
    Custody st'.pools (swap held i s') st'.fresh := by
  cases hmove.hands hs with
  | drops _ hpools hfresh hconn =>
    exact hc.shrink hpools (swap_of_conn hi (.inr hconn)) hfresh.ge
  | keeps _ hst hconn =>
    rw [hst]
    exact hc.shrink .refl (swap_of_conn hi (.inl hconn)) le_rfl
  | gives _ _ _ hpools hfresh hgiven _ _ hconn =>
    rw [hfresh]
    exact hc.push (hi.trans hgiven) hpools (swap_of_none hconn)
  | takes _ _ _ hpools hfresh hidle hgone _ _ hconn =>
    rw [hfresh]
    exact hc.take hidle hpools (hgone (hc.nodup _)) (swap_of_some hconn)
  | opens _ _ _ _ hst _ _ _ hconn =>
    rw [hst]
    exact hc.gain .refl (swap_of_some hconn)

/-! ## Where messages go -/

theorem sinceIdle_events_of_ne (hj : j ≠ i) :
    sinceIdle i (s.events j l ++ log) = sinceIdle i log := by
  unfold events
  split
  · cases s.current with
    | none => rfl
    | some => exact if_neg hj
  · exact if_neg fun h => hj h.1
  · rfl

/-- What a session has sent since it was idle went to one connection, the one it
holds unless it is gone. -/
structure Sticks (i : Nat) (s : ProxyClient) (log : List ProxyEvent) : Prop where
  same : ∀ c ∈ sinceIdle i log, ∀ c' ∈ sinceIdle i log, c = c'
  holds : s.phase = .closed ∨ ∀ c ∈ sinceIdle i log, ∃ h, s.current = some h ∧ h.conn = c

/-- A session that holds nothing has sent nothing. -/
theorem Sticks.sinceIdle_eq_nil (h : s.Sticks i log) (hopen : s.phase ≠ .closed)
    (hfree : s.current = none) : sinceIdle i log = [] := by
  refine eq_nil_iff_forall_not_mem.mpr fun c hc => ?_
  obtain ⟨_, hheld, -⟩ := h.holds.resolve_left hopen c hc
  rw [hfree] at hheld
  cases hheld

theorem sticks_of_nil (hnil : sinceIdle i log = []) : s.Sticks i log :=
  ⟨by simp [hnil], .inr (by simp [hnil])⟩

theorem Sticks.keep (h : s.Sticks i log) (hopen : s.phase ≠ .closed)
    (hcurrent : s'.current = s.current) : s'.Sticks i log :=
  ⟨h.same, .inr fun c hc => hcurrent ▸ h.holds.resolve_left hopen c hc⟩

theorem Sticks.move (hseek : s.Seeking) (hs : s.Sticks i log) (h : Moves max st s l st' s') :
    s'.Sticks i (s.events i l ++ log) := by
  have hopen {phase : ClientPhase} (hphase : s.phase = phase) (hne : phase ≠ .closed) :
      s.phase ≠ .closed := by rwa [hphase]
  cases h with
  | donate _ _ _ _ hphase | stay _ _ _ hphase | route _ _ _ _ hphase | miss _ _ _ _ hphase
  | room _ _ _ hphase | noRoom _ _ _ hphase | reserve _ _ _ _ hphase | retry _ _ _ hphase
  | giveUp _ _ _ hphase | refused _ _ _ hphase => exact hs.keep (hopen hphase nofun) rfl
  | panic | fail => exact ⟨hs.same, .inl rfl⟩
  | finish l _ _ hl =>
    have hquiet : s.events i l = [] := by rcases hl with ⟨_, _, _, rfl⟩ | rfl <;> rfl
    rw [hquiet, nil_append]
    exact ⟨hs.same, .inl rfl⟩
  | ignore => exact hs
  | take _ _ _ _ _ hphase | opened _ _ _ hphase =>
    exact sticks_of_nil (hs.sinceIdle_eq_nil (hopen hphase nofun) (hseek (by rw [hphase]; rfl)))
  | forward _ h hphase hheld =>
    -- The new message goes to the connection all others went to.
    have hsince : sinceIdle i (s.events i .forward ++ log) = h.conn :: sinceIdle i log := by
      rw [events, hheld]
      exact if_pos rfl
    have hall : ∀ c ∈ h.conn :: sinceIdle i log, h.conn = c := by
      intro c hc
      rcases mem_cons.mp hc with rfl | hold
      · rfl
      · obtain ⟨_, hh', hc'⟩ := hs.holds.resolve_left (hopen hphase nofun) c hold
        rw [hheld] at hh'
        cases hh'
        exact hc'
    rw [← hsince] at hall
    exact ⟨fun c hc c' hc' => (hall c hc).symm.trans (hall c' hc'),
      .inr fun c hc => ⟨h, hheld, hall c hc⟩⟩
  | ready => exact sticks_of_nil (if_pos ⟨rfl, rfl⟩)
  | keep r alive hphase hr =>
    have hsince : sinceIdle i (s.events i (.reply r alive) ++ log) = sinceIdle i log := by
      cases r with
      | ready => exact if_neg fun h => hr (by rw [h.2])
      | copyIn => rfl
    have hkept : Sticks i { s with
        txnState := TxnState.ofStatusByte r.status, phase := .reading } log :=
      hs.keep (hopen hphase nofun) rfl
    exact ⟨by rw [hsince]; exact hkept.same, by rw [hsince]; exact hkept.holds⟩

/-- A session gives its connection back when it receives `ReadyForQuery` with
status idle, or at its end. -/
theorem returned_of_moves {key : String} (hseek : s.Seeking)
    (hheld : s.current = some h) (hbusy : ∀ key, h.conn ∉ st.pools.idleAt key)
    (hmove : Moves max st s l st' s') (hidle : h.conn ∈ st'.pools.idleAt key) :
    (∃ alive, l = .reply (.ready .idle) alive) ∨ s'.phase = .closed := by
  have hshrink {pools : ConnectionPools Nat} (hpools : Shrinks st.pools pools)
      (hidle : h.conn ∈ pools.idleAt key) : False := hbusy key ((hpools key).mem hidle)
  have hseeks (hphase : s.phase.seeks) : False := by
    rw [hseek hphase] at hheld
    cases hheld
  cases hmove with
  | donate _ _ _ _ hphase | take _ _ _ _ _ hphase | miss _ _ _ _ hphase | reserve _ _ _ _ hphase
  | refused _ _ _ hphase => exact (hseeks (by rw [hphase]; rfl)).elim
  | panic | finish | fail => exact .inr rfl
  | ready alive => exact .inl ⟨alive, rfl⟩
  | ignore | stay | route | room | noRoom | retry | giveUp | opened | forward | keep =>
    exact (hshrink .refl hidle).elim

end ProxyClient

/-! ## The whole proxy -/

namespace PooledProxy

variable {q q' : PooledProxy} {l : PooledLabel}

/-- What each session has in its hands. -/
def held (q : PooledProxy) (i : Nat) : Option Nat := q.clients[i]?.bind ProxyClient.conn

theorem held_of_getElem? (hs : q.clients[i]? = some s) : q.held i = s.conn := by
  rw [held, hs, Option.bind_some]

/-- What the sessions have after one of them has moved. -/
theorem swap_of_held {store : PoolStore} {log : List ProxyEvent}
    (h : held { q with store := store, clients := q.clients.set i s', log := log } j = some c) :
    swap q.held i s' j = some c := by
  obtain ⟨t, ht, hconn⟩ := Option.bind_eq_some_iff.mp h
  rcases getElem?_set_cases ht with ⟨rfl, rfl⟩ | ⟨hij, hold⟩
  · rw [swap, Function.update_self, hconn]
  · rw [swap, Function.update_of_ne hij.symm, held_of_getElem? hold, hconn]

structure CustodyInv (q : PooledProxy) : Prop where
  seeking : ∀ s ∈ q.clients, s.Seeking
  custody : Custody q.pools q.held q.store.fresh
  sticks : ∀ i (s : ProxyClient), q.clients[i]? = some s → s.Sticks i q.log
  quiet : ∀ i, q.clients.length ≤ i → sinceIdle i q.log = []

theorem custodyInv_init : CustodyInv (machine max).init where
  seeking := forall_mem_nil _
  custody := ⟨fun _ => nodup_nil, by rintro c (key | i) _ (⟨⟩ | ⟨⟩), by
    rintro _ (_ | i) (⟨⟩ | ⟨⟩)⟩
  sticks := by rintro i s ⟨⟩
  quiet := fun _ _ => rfl

theorem CustodyInv.login (h : q.CustodyInv) (x : PoolIdentity) : (q.login max x).CustodyInv where
  seeking := by
    intro s hs
    rcases mem_append.mp hs with hold | hnew
    · exact h.seeking s hold
    · rw [mem_singleton.mp hnew]
      exact fun _ => rfl
  custody := by
    refine h.custody.gain (i := q.clients.length) shrinks_increment fun j c hc => ?_
    obtain ⟨s, hs, hconn⟩ := Option.bind_eq_some_iff.mp hc
    rcases getElem?_append_singleton_cases hs with ⟨hj, rfl⟩ | hold
    · exact .inl ⟨hj, (Option.some.inj hconn).symm⟩
    · exact .inr (by rw [held_of_getElem? hold, hconn])
  sticks := by
    intro i s hs
    rcases getElem?_append_singleton_cases hs with ⟨hi, -⟩ | hold
    · exact sticks_of_nil (h.quiet i hi.ge)
    · exact h.sticks i s hold
  quiet := by
    intro i hi
    rw [PooledProxy.login, length_append] at hi
    exact h.quiet i (by omega)

theorem CustodyInv.client {l : ClientLabel} {store : PoolStore}
    (h : q.CustodyInv) (hs : q.clients[i]? = some s) (hmove : s.Moves max q.store l store s') :
    CustodyInv { q with
      store := store
      clients := q.clients.set i s'
      log := s.events i l ++ q.log } where
  seeking := by
    intro t ht
    rcases mem_or_eq_of_mem_set ht with hold | rfl
    · exact h.seeking t hold
    · exact (h.seeking s (mem_of_getElem? hs)).move hmove
  custody := by
    have hcustody := custody_move (h.seeking s (mem_of_getElem? hs))
      (held_of_getElem? hs) h.custody hmove
    exact hcustody.shrink .refl (fun j c hc => swap_of_held hc) le_rfl
  sticks := by
    intro j t ht
    rcases getElem?_set_cases ht with ⟨rfl, rfl⟩ | ⟨hij, hold⟩
    · exact (h.sticks i s hs).move (h.seeking s (mem_of_getElem? hs)) hmove
    · have hsince : sinceIdle j (s.events i l ++ q.log) = sinceIdle j q.log :=
        sinceIdle_events_of_ne hij
      have hsticks := h.sticks j t hold
      exact ⟨by rw [hsince]; exact hsticks.same, by rw [hsince]; exact hsticks.holds⟩
  quiet := by
    intro j hj
    rw [length_set] at hj
    have hi : i < q.clients.length := (List.getElem?_eq_some_iff.mp hs).1
    rw [sinceIdle_events_of_ne (by omega)]
    exact h.quiet j hj

theorem CustodyInv.move (h : q.CustodyInv) (hmove : Moves max q l q') : q'.CustodyInv := by
  -- The other steps take idle connections away and do not touch the sessions.
  have hshrink {pools : ConnectionPools Nat} {draining : List (String × Nat)}
      (hpools : Shrinks q.pools pools) :
      CustodyInv { q with store.pools := pools, draining := draining } :=
    { h with custody := h.custody.shrink hpools (fun _ _ hc => hc) le_rfl }
  cases hmove with
  | login x => exact h.login x
  | client _ _ _ _ _ hs hmove => exact h.client hs hmove
  | evict => exact hshrink shrinks_evict
  | drain => exact hshrink shrinks_clear
  | subtract => exact hshrink shrinks_decrement

theorem custodyInv_of_reachable (hr : (machine max).Reachable q) : q.CustodyInv :=
  hr.invariant custodyInv_init fun _ _ _ h _ hstep => h.move (moves_of_step hstep)

theorem CustodyInv.not_idle (hq : q.CustodyInv)
    (hs : q.clients[i]? = some s) (hheld : s.current = some h) (key : String) :
    h.conn ∉ q.pools.idleAt key := by
  intro hidle
  have hwith : IsAt q.pools q.held h.conn (.client i) := by
    rw [IsAt, held_of_getElem? hs, conn_of_current hheld]
  have hplace := hq.custody.unique h.conn (.idle key) (.client i) hidle hwith
  cases hplace

/-- The connection of a session comes back to the pool only by the session's own
step. -/
theorem CustodyInv.returned {key : String}
    (hq : q.CustodyInv) (hmove : Moves max q l q') (hs : q.clients[i]? = some s)
    (hheld : s.current = some h) (hidle : h.conn ∈ q'.pools.idleAt key) :
    (∃ alive, l = .client i (.reply (.ready .idle) alive)) ∨
      ∃ s' : ProxyClient, q'.clients[i]? = some s' ∧ s'.phase = .closed := by
  have hbusy := hq.not_idle hs hheld
  cases hmove with
  | login => exact absurd ((shrinks_increment key).mem hidle) (hbusy key)
  | evict => exact absurd ((shrinks_evict key).mem hidle) (hbusy key)
  | drain => exact absurd ((shrinks_clear key).mem hidle) (hbusy key)
  | subtract => exact absurd ((shrinks_decrement key).mem hidle) (hbusy key)
  | client j _ _ t' _ ht hmove =>
    by_cases hij : i = j
    · subst hij
      cases hs.symm.trans ht
      rcases returned_of_moves (hq.seeking s (mem_of_getElem? hs)) hheld hbusy
        hmove hidle with ⟨alive, rfl⟩ | hclosed
      · exact .inl ⟨alive, rfl⟩
      · have hi : i < q.clients.length := (List.getElem?_eq_some_iff.mp hs).1
        exact .inr ⟨t', getElem?_set_self hi, hclosed⟩
    · -- After the step of another session this one still has the connection.
      have hkept : (q.clients.set j t')[i]? = some s := by rwa [getElem?_set_ne (Ne.symm hij)]
      exact absurd hidle ((hq.client ht hmove).not_idle hkept hheld key)

/-- In every run, at every moment: what a session has sent since it was last idle
went to one connection, no two sessions hold the same, none that is held is
idle, and the next step gives one back only on status idle or at the end. -/
theorem sessions_stick_to_own_connections (hr : (machine max).Reachable q) :
    (∀ i, ∀ c ∈ sinceIdle i q.log, ∀ c' ∈ sinceIdle i q.log, c = c') ∧
      (∀ (i j : Nat) (s t : ProxyClient) h k, q.clients[i]? = some s → q.clients[j]? = some t →
        s.current = some h → t.current = some k → h.conn = k.conn → i = j) ∧
      (∀ s ∈ q.clients, ∀ h, ProxyClient.current s = some h →
        ∀ key b, q.pools.lookup key = some b → h.conn ∉ b.idle) ∧
      ∀ l q' (i : Nat) (s : ProxyClient) h key b, (machine max).step q l = some q' →
        q.clients[i]? = some s → s.current = some h → q'.pools.lookup key = some b →
        h.conn ∈ b.idle → (∃ alive, l = .client i (.reply (.ready .idle) alive)) ∨
          ∃ s' : ProxyClient, q'.clients[i]? = some s' ∧ s'.phase = .closed := by
  have hq := custodyInv_of_reachable hr
  refine ⟨fun i => ?_, ?_, ?_, ?_⟩
  · rcases lt_or_ge i q.clients.length with hlt | hge
    · exact (hq.sticks i _ (getElem?_eq_getElem hlt)).same
    · simp [hq.quiet i hge]
  · intro i j s t h k hs ht hh hk hconn
    have hi : IsAt q.pools q.held h.conn (.client i) := by
      rw [IsAt, held_of_getElem? hs, conn_of_current hh]
    have hj : IsAt q.pools q.held h.conn (.client j) := by
      rw [IsAt, held_of_getElem? ht, conn_of_current hk, hconn]
    have hplace := hq.custody.unique h.conn _ _ hi hj
    injection hplace
  · intro s hs h hh key b hb
    obtain ⟨i, hi⟩ := mem_iff_getElem?.mp hs
    rw [← idleAt_of_lookup hb]
    exact hq.not_idle hi hh key
  · intro _ _ _ _ _ _ _ hstep hs hh hb hidle
    rw [← idleAt_of_lookup hb] at hidle
    exact hq.returned (moves_of_step hstep) hs hh hidle

/-- Two clients share a pool. The first runs a transaction on the connection the
second brought, and the second one a query on the other. -/
def twoSessions : List PooledLabel :=
  [.login "db" "app" "pg1" "10.0.0.1:5432", .client 0 .donate,
    .login "db" "app" "pg1" "10.0.0.1:5432", .client 1 .donate,
    .client 0 (.read .query true (.backend "pg1" "10.0.0.1:5432") true),
    .client 0 (.takeIdle 0), .client 0 .forward,
    .client 1 (.read .query true (.backend "pg1" "10.0.0.1:5432") true),
    .client 0 (.reply (.ready .inTransaction) true),
    .client 1 (.takeIdle 0), .client 1 .forward,
    .client 0 (.read .query true (.backend "pg2" "10.0.0.2:5432") true), .client 0 .forward,
    .client 1 (.reply (.ready .idle) true)]

theorem sessions_stick_twoSessions :
    ∃ q, (machine 25).run twoSessions = some q ∧ sinceIdle 0 q.log = [1, 1] ∧
      ∀ c ∈ sinceIdle 0 q.log, ∀ c' ∈ sinceIdle 0 q.log, c = c' := by
  obtain ⟨q, hq, hlog⟩ := (machine 25).exists_run twoSessions
    (fun q => sinceIdle 0 q.log = [1, 1]) (by decide +kernel)
  exact ⟨q, hq, hlog, (sessions_stick_to_own_connections (Machine.reachable_of_run hq)).1 0⟩

end PooledProxy

end PgCluster
