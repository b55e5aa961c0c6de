import PgCluster.ProxyCustody

/-!
# What stands beside connections and sessions

A result about what is behind a connection puts a value beside each connection
and each session. A step of a session changes its own value, that of the
connection it has and that of one it opens, and no other. As a connection is
in one place at a time, what such a step has to show is about this session and
about what comes to the idle lists (`Records.step`).
-/

namespace PgCluster

open ConnectionPools PooledProxy

variable {β δ : Type} {P : String → β → Prop} {S : δ → Option β → ProxyClient → Prop} {max : Nat}
  {q q' : PooledProxy} {conns conns' : Nat → β} {owns owns' : Nat → δ}

/-- The value of an idle connection satisfies `P` with the key of its bucket, that of
a session and of the connection it has satisfy `S`. -/
structure Records (P : String → β → Prop) (S : δ → Option β → ProxyClient → Prop) (max : Nat)
    (q : PooledProxy) (conns : Nat → β) (owns : Nat → δ) : Prop where
  reachable : (machine max).Reachable q
  idle : ∀ key, ∀ c ∈ q.pools.idleAt key, P key (conns c)
  clients : ∀ (i : Nat) (s : ProxyClient), q.clients[i]? = some s → S (owns i) (s.conn.map conns) s

/-- The connections that come to the idle lists satisfy `P`. -/
def Brings (P : String → β → Prop) (conns : Nat → β) (pools pools' : ConnectionPools Nat) : Prop :=
  ∀ key, ∀ c ∈ pools'.idleAt key, c ∈ pools.idleAt key ∨ P key (conns c)

section Brings

variable {pools pools' : ConnectionPools Nat} {key : String} {conn : Nat} {alive : Bool}

theorem brings_of_shrinks (h : Shrinks pools pools') : Brings P conns pools pools' :=
  fun key _ hc => .inl ((h key).mem hc)

theorem brings_of_gains (h : Gains key conn pools pools') (hconn : P key (conns conn)) :
    Brings P conns pools pools' := by
  intro key' c hc
  have hmem := (h key').mem hc
  split_ifs at hmem with hkey
  · rcases List.mem_append.mp hmem with hold | hnew
    · exact .inl hold
    · rw [List.mem_singleton.mp hnew, hkey]
      exact .inr hconn
  · exact .inl hmem

theorem brings_release (hconn : alive → P key (conns conn)) :
    Brings P conns pools (pools.release key conn alive) := by
  cases alive with
  | true => exact brings_of_gains gains_release (hconn rfl)
  | false => exact brings_of_shrinks shrinks_release

end Brings

namespace Records

theorem init : Records P S max (machine max).init conns owns where
  reachable := .init
  idle := fun _ => List.forall_mem_nil _
  clients := by rintro i s ⟨⟩

/-- The rule for a step: the values change only where the step is. -/
theorem step {l : PooledLabel} (h : Records P S max q conns owns)
    (hstep : q.step max l = some q')
    (hconns : ∀ c, c ≠ q.store.fresh → (∀ i cl, l = .client i cl → q.held i ≠ some c) →
      conns' c = conns c)
    (howns : ∀ i, i ≠ q.clients.length → (∀ cl, l ≠ .client i cl) → owns' i = owns i)
    (hlogin : ∀ x : PoolIdentity, l = .login x.database x.user x.nodeId x.addr →
      S (owns' q.clients.length) (some (conns' q.store.fresh))
        ⟨x.database, x.user, none, .idle, .donating q.store.fresh x.nodeId x.addr⟩)
    (hclient : ∀ i cl s store s', l = .client i cl → q.clients[i]? = some s →
      s.Moves max q.store cl store s' →
      Brings P conns' q.pools store.pools ∧ S (owns' i) (s'.conn.map conns') s') :
    Records P S max q' conns' owns' := by
  have hq := custodyInv_of_reachable h.reachable
  have hidle (key : String) (c : Nat) (hc : c ∈ q.pools.idleAt key) : P key (conns' c) := by
    rw [hconns c (hq.custody.old c (.idle key) hc).ne fun i _ _ hi => ?_]
    · exact h.idle key c hc
    · cases hq.custody.unique c (.idle key) (.client i) hc hi
  have hkept {j : Nat} {s : ProxyClient} (hs : q.clients[j]? = some s)
      (hj : ∀ cl, l ≠ .client j cl) : S (owns' j) (s.conn.map conns') s := by
    have hsame : s.conn.map conns' = s.conn.map conns := by
      cases hconn : s.conn with
      | none => rfl
      | some c =>
        have hheld : q.held j = some c := by rw [held_of_getElem? hs, hconn]
        rw [Option.map_some, hconns c (hq.custody.old c (.client j) hheld).ne fun i cl hl hi => ?_,
          Option.map_some]
        -- Two sessions that have the connection are one.
        obtain rfl := Place.client.inj (hq.custody.unique c (.client j) (.client i) hheld hi)
        exact hj cl hl
    rw [hsame, howns j (List.getElem?_eq_some_iff.mp hs).1.ne hj]
    exact h.clients j s hs
  refine ⟨h.reachable.step trivial hstep, fun key c hc => ?_, fun j t ht => ?_⟩
  · cases moves_of_step hstep with
    | login => exact hidle key c ((shrinks_increment key).mem hc)
    | client i cl s s' store hs hmove =>
      rcases (hclient i cl s store s' rfl hs hmove).1 key c hc with hold | hnew
      · exact hidle key c hold
      · exact hnew
    | evict => exact hidle key c ((shrinks_evict key).mem hc)
    | drain => exact hidle key c ((shrinks_clear key).mem hc)
    | subtract => exact hidle key c ((shrinks_decrement key).mem hc)
  · cases moves_of_step hstep with
    | login x =>
      rcases getElem?_append_singleton_cases ht with ⟨rfl, rfl⟩ | hold
      · exact hlogin x rfl
      · exact hkept hold nofun
    | client i cl s s' store hs hmove =>
      rcases getElem?_set_cases ht with ⟨rfl, rfl⟩ | ⟨hij, hold⟩
      · exact (hclient i cl s store t rfl hs hmove).2
      · exact hkept hold fun _ hl => hij (PooledLabel.client.inj hl).1
    | evict | drain | subtract => exact hkept ht nofun

end Records

end PgCluster
