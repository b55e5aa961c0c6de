import PgCluster.ProxyCustody

/-!
# The pool's counter

A bucket's counter is raised before a connection is opened or donated and
lowered when one is discarded. What it should count are the idle connections
and those a session has or is opening; a `drain_backend` under way has
cleared some it has yet to subtract. Every step keeps the difference, but for
two: a session that ends with an error while it holds a backend drops it
without lowering the counter, and so does one that panics in `inject`. So the
counter is never too low, whatever happens.

The limit is another matter. It is looked at before the counter is raised,
not while, and `inject` does not look at it.
-/

namespace PgCluster

open ConnectionPools ProxyClient List

/-! ## What the operations do to a counter -/

/-- A change at one bucket, and none at the others. -/
def onlyAt (key key' : String) (d : Int) : Int := if key' = key then d else 0

@[simp] theorem onlyAt_zero (key key' : String) : onlyAt key key' 0 = 0 := ite_self 0

@[simp] theorem onlyAt_neg (key key' : String) (d : Int) :
    onlyAt key key' (-d) = -onlyAt key key' d := by
  unfold onlyAt
  split_ifs <;> simp

variable {max i : Nat} {key k : String} {alive : Bool}

namespace ConnectionPools

variable {κ : Type} {pools pools' : ConnectionPools κ} {key' : String} {b : PoolBucket κ}
  {conn : κ} {broken : Nat} {d up : Int}

def busyAt (pools : ConnectionPools κ) (max : Nat) (key : String) : Int :=
  (pools.bucket max key).total - (pools.bucket max key).idle.length

/-- At bucket `key` the count changed by `d` and the counter rose by at most
`up`; limits stay. -/
def Changes (max : Nat) (key : String) (d up : Int) (pools pools' : ConnectionPools κ) : Prop :=
  ∀ key', pools'.busyAt max key' = pools.busyAt max key' + onlyAt key key' d ∧
    (pools'.bucket max key').total ≤ (pools.bucket max key').total + onlyAt key key' up ∧
    (pools'.bucket max key').max = (pools.bucket max key').max

theorem Changes.refl : Changes max key 0 0 pools pools := by
  intro _
  simp

theorem changes_insert (hbusy : b.total - b.idle.length = pools.busyAt max key + d)
    (htotal : b.total ≤ (pools.bucket max key).total + up)
    (hmax : b.max = (pools.bucket max key).max) :
    Changes max key d up pools (pools.insert key b) := by
  intro _
  unfold onlyAt
  split_ifs with hkey
  · subst hkey
    rw [busyAt, bucket_insert]
    exact ⟨hbusy, htotal, hmax⟩
  · rw [busyAt, bucket_insert_of_ne _ hkey, busyAt]
    simp

theorem changes_increment : Changes max key 1 1 pools (pools.increment max key) :=
  changes_insert (by rw [busyAt]; dsimp only; omega) le_rfl rfl

theorem changes_decrement : Changes max key (-1) 0 pools (pools.decrement max key) :=
  changes_insert (by rw [busyAt]; dsimp only; omega) (by dsimp only; omega) rfl

theorem changes_take (h : (pools.takeIdle max key broken).1 = some conn) :
    Changes max key 1 0 pools (pools.takeIdle max key broken).2 := by
  unfold takeIdle at h ⊢
  dsimp only at h ⊢
  split at h
  · cases h
  · rename_i _ _ hdrop
    have hlen := congrArg List.length hdrop
    rw [length_drop, length_reverse, length_cons] at hlen
    refine changes_insert ?_ (by dsimp only; omega) rfl
    rw [busyAt, length_reverse]
    dsimp only
    omega

theorem changes_miss (h : (pools.takeIdle max key broken).1 = none) :
    Changes max key 0 0 pools (pools.takeIdle max key broken).2 := by
  unfold takeIdle at h ⊢
  dsimp only at h ⊢
  split at h
  · refine changes_insert ?_ (by dsimp only; omega) rfl
    rw [busyAt, length_nil]
    dsimp only
    omega
  · cases h

theorem exists_lookup (h : 0 < pools.busyAt max key) : ∃ b, pools.lookup key = some b := by
  refine Option.ne_none_iff_exists'.mp fun hnone => ?_
  simp [busyAt, bucket, hnone] at h

/-- A bucket that counts a connection is there when the connection is released. -/
theorem changes_release (h : 0 < pools.busyAt max key) :
    Changes max key (-1) 0 pools (pools.release key conn alive) := by
  obtain ⟨b, hb⟩ := exists_lookup h
  have hbucket : pools.bucket max key = b := bucket_of_lookup hb
  unfold release
  rw [hb]
  split_ifs
  · refine changes_insert ?_ (by rw [hbucket]; dsimp only; omega) (by rw [hbucket])
    rw [busyAt, hbucket, length_append, length_singleton]
    dsimp only
    omega
  · refine changes_insert ?_ (by rw [hbucket]; dsimp only; omega) (by rw [hbucket])
    rw [busyAt, hbucket]
    dsimp only
    omega

theorem changes_donate (h : pools.donate max key conn = some pools') :
    Changes max key (-1) 0 pools pools' := by
  unfold donate at h
  dsimp only at h
  split at h
  · split at h
    · cases h
    · rename_i _ _ hidle
      cases h
      refine changes_insert ?_ (by dsimp only; omega) rfl
      rw [busyAt, hidle, length_append, length_singleton, length_cons]
      dsimp only
      omega
  · cases h
    refine changes_insert ?_ (by dsimp only; omega) rfl
    rw [busyAt, length_append, length_singleton]
    dsimp only
    omega

theorem max_eq_zero_of_donate (h : pools.donate max key conn = none) :
    (pools.bucket max key).max = 0 := by
  unfold donate at h
  dsimp only at h
  split at h
  · rename_i hfull
    split at h
    · rename_i hidle
      rw [hidle] at hfull
      exact Nat.le_zero.mp hfull
    · cases h
  · cases h

theorem changes_evict : Changes max key 0 0 pools (pools.evict key i) := by
  unfold evict
  cases hb : pools.lookup key with
  | none => exact .refl
  | some b =>
    have hbucket : pools.bucket max key = b := bucket_of_lookup hb
    dsimp only
    split_ifs with hi
    · refine changes_insert ?_ (by rw [hbucket]; dsimp only; omega) (by rw [hbucket])
      rw [busyAt, hbucket, length_eraseIdx_of_lt hi]
      dsimp only
      omega
    · exact .refl

theorem changes_clear :
    Changes max key (pools.bucket max key).idle.length 0 pools (pools.clear key) := by
  unfold clear
  cases hb : pools.lookup key with
  | none =>
    have hidle : (pools.bucket max key).idle = [] := by rw [bucket, hb]; rfl
    rw [hidle]
    exact .refl
  | some b =>
    have hbucket : pools.bucket max key = b := bucket_of_lookup hb
    refine changes_insert ?_ (by rw [hbucket]; dsimp only; omega) (by rw [hbucket])
    rw [busyAt, hbucket]
    simp

end ConnectionPools

/-! ## What a session accounts for -/

namespace ProxyClient

variable {st st' : PoolStore} {s s' : ProxyClient} {l : ClientLabel} {h : HeldBackend}

/-- The bucket of the connection a session has or is opening. -/
def slot (s : ProxyClient) : Option String :=
  match s.current with
  | some h => some (s.key h.nodeId h.addr)
  | none =>
    match s.phase with
    | .donating _ nodeId addr | .opening _ nodeId addr => some (s.key nodeId addr)
    | _ => none

def uses (key : String) (s : ProxyClient) : Bool := s.slot = some key

theorem one_uses_of_some (h : s.slot = some k) : (one (uses key) s : Int) = onlyAt k key 1 := by
  by_cases hkey : key = k
  · simp [one, uses, h, onlyAt, hkey]
  · simp [one, uses, h, onlyAt, hkey, Ne.symm hkey]

theorem one_uses_of_none (h : s.slot = none) : one (uses key) s = 0 := by
  simp [one, uses, h]

theorem slot_of_current (hh : s.current = some h) : s.slot = some (s.key h.nodeId h.addr) := by
  rw [slot, hh]

/-- The pool changed at bucket `k` by as much as the session did. -/
def Balanced (max : Nat) (st st' : PoolStore) (s s' : ProxyClient) (up : Int) : Prop :=
  ∃ k d, Changes max k d up st.pools st'.pools ∧
    ∀ key, (one (uses key) s' : Int) = one (uses key) s + onlyAt k key d

/-- A session that ends with an error while it holds a backend, or panics in
`inject`. -/
def Loses (max : Nat) (st : PoolStore) (s : ProxyClient) (l : ClientLabel) : Prop :=
  (l = .ioError ∧ s.current ≠ none) ∨ (l = .donate ∧ ∃ key, (st.pools.bucket max key).max = 0)

theorem balanced_of_slot (hpools : Changes max k 0 0 st.pools st'.pools)
    (hslot : s'.slot = s.slot) : Balanced max st st' s s' 0 :=
  ⟨k, 0, hpools, fun key => by simp [one, uses, hslot]⟩

theorem balanced_of_gain {up : Int} (hpools : Changes max k 1 up st.pools st'.pools)
    (hs : s.slot = none) (hs' : s'.slot = some k) : Balanced max st st' s s' up :=
  ⟨k, 1, hpools, fun key => by rw [one_uses_of_some hs', one_uses_of_none hs]; simp⟩

theorem balanced_of_loss (hpools : Changes max k (-1) 0 st.pools st'.pools)
    (hs : s.slot = some k) (hs' : s'.slot = none) : Balanced max st st' s s' 0 :=
  ⟨k, -1, hpools, fun key => by rw [one_uses_of_some hs, one_uses_of_none hs']; simp⟩

section

variable (hcount : ∀ key, (one (uses key) s : Int) ≤ st.pools.busyAt max key)
include hcount

theorem busyAt_pos (hslot : s.slot = some k) : 0 < st.pools.busyAt max k := by
  have hone := hcount k
  rw [one_uses_of_some hslot, onlyAt, if_pos rfl] at hone
  omega

theorem balanced_release (hheld : s.current = some h) (hs' : s'.slot = none) :
    Balanced max st (s.release st h alive) s s' 0 :=
  have hslot := slot_of_current hheld
  balanced_of_loss (changes_release (busyAt_pos hcount hslot)) hslot hs'

theorem balanced_finish (hphase : s.phase = .reading) :
    Balanced max st (s.finish st alive).1 s (s.finish st alive).2 0 := by
  unfold finish
  cases hcurrent : s.current with
  | none => exact balanced_of_slot (k := "") .refl (by simp [slot, hcurrent, hphase])
  | some => exact balanced_release hcount hcurrent rfl

end

theorem balanced_of_moves (hseek : s.Seeking)
    (hcount : ∀ key, (one (uses key) s : Int) ≤ st.pools.busyAt max key)
    (h : Moves max st s l st' s') : Balanced max st st' s s' (if l = .reserve then 1 else 0) ∨
      (Loses max st s l ∧ st' = st ∧ s'.slot = none) := by
  -- A session that seeks has no backend, so its phase says what it has.
  have hfree (hphase : s.phase.seeks) : s.current = none := hseek hphase
  cases h with
  | donate _ _ _ _ hphase hdonate =>
    have hnone := hfree (by rw [hphase]; rfl)
    exact .inl (balanced_of_loss (changes_donate hdonate) (by simp [slot, hnone, hphase])
      (by simp [slot, hnone]))
  | panic _ _ _ hphase hdonate =>
    have hnone := hfree (by rw [hphase]; rfl)
    exact .inr ⟨.inr ⟨rfl, _, max_eq_zero_of_donate hdonate⟩, rfl, by simp [slot, hnone]⟩
  | finish l _ hphase hl =>
    have hne : l ≠ .reserve := by rcases hl with ⟨m, _, route, rfl⟩ | rfl <;> exact nofun
    rw [if_neg hne]
    exact .inl (balanced_finish hcount hphase)
  | ignore => exact .inl (balanced_of_slot (k := "") .refl rfl)
  | stay _ _ _ hphase | keep _ _ hphase =>
    exact .inl (balanced_of_slot (k := "") .refl (by simp [slot, hphase]; rfl))
  | route _ _ _ _ hphase hnone =>
    exact .inl (balanced_of_slot (k := "") .refl (by simp [slot, hphase, hnone]))
  | take _ _ _ _ _ hphase htake =>
    have hnone := hfree (by rw [hphase]; rfl)
    exact .inl (balanced_of_gain (changes_take htake) (by simp [slot, hnone, hphase]) rfl)
  | miss _ _ _ _ hphase hmiss =>
    have hnone := hfree (by rw [hphase]; rfl)
    exact .inl (balanced_of_slot (changes_miss hmiss) (by simp [slot, hnone, hphase]))
  | room _ _ _ hphase | noRoom _ _ _ hphase | retry _ _ _ hphase | giveUp _ _ _ hphase =>
    have hnone := hfree (by rw [hphase]; rfl)
    exact .inl (balanced_of_slot (k := "") .refl (by simp [slot, hnone, hphase]))
  | reserve _ _ _ _ hphase =>
    have hnone := hfree (by rw [hphase]; rfl)
    exact .inl (balanced_of_gain changes_increment (by simp [slot, hnone, hphase])
      (by simp [slot, hnone, key, identity]))
  | opened _ _ _ hphase =>
    have hnone := hfree (by rw [hphase]; rfl)
    exact .inl (balanced_of_slot (k := "") .refl (by simp [slot, hnone, hphase, key, identity]))
  | refused _ _ _ hphase =>
    have hnone := hfree (by rw [hphase]; rfl)
    exact .inl (balanced_of_loss changes_decrement (by simp [slot, hnone, hphase])
      (by simp [slot, hnone]))
  | forward _ _ _ hheld =>
    exact .inl (balanced_of_slot (k := "") .refl (by simp [slot, hheld, key, identity]))
  | ready _ _ _ hheld => exact .inl (balanced_release hcount hheld rfl)
  | fail hphase =>
    by_cases hnone : s.current = none
    · refine .inl (balanced_of_slot (k := "") .refl ?_)
      rcases hphase with hphase | ⟨m, hphase⟩ | hphase <;> simp [slot, hnone, hphase]
    · exact .inr ⟨.inl ⟨rfl, hnone⟩, rfl, rfl⟩

/-- Between the check and the increment a session remembers a total that was
below the limit. -/
def Checked (max : Nat) (pools : ConnectionPools Nat) (s : ProxyClient) : Prop :=
  ∀ m nodeId addr prevTotal, s.phase = .reserving m nodeId addr prevTotal →
    prevTotal < (pools.bucket max (s.key nodeId addr)).max

theorem checked_of_moves (h : Moves max st s l st' s') : s'.Checked max st.pools := by
  intro m _ _ _ hphase
  cases h with
  | room _ _ _ _ hroom =>
    cases hphase
    exact hroom
  | forward => split_ifs at hphase
  | ignore _ _ _ hphase' =>
    rw [hphase'] at hphase
    cases hphase
  | _ => cases hphase

end ProxyClient

/-! ## The whole proxy -/

namespace PooledProxy

variable {q q' : PooledProxy} {l : PooledLabel} {j n : Nat}

/-- How many connections of a bucket the sessions have or are opening. -/
def inUse (q : PooledProxy) (key : String) : Nat := q.clients.countP (ProxyClient.uses key)

/-- How many connections of a bucket were drained and not yet subtracted. -/
def owed (q : PooledProxy) (key : String) : Nat :=
  (q.draining.map fun d => if d.1 = key then d.2 else 0).sum

/-- How far the counter of a bucket is above what it should count. -/
def slack (max : Nat) (q : PooledProxy) (key : String) : Int :=
  q.pools.busyAt max key - q.inUse key - q.owed key

/-- The step is one of a session that drops what it has. -/
def Loses (max : Nat) (q : PooledProxy) (l : PooledLabel) : Prop :=
  ∃ i cl s, l = .client i cl ∧ q.clients[i]? = some s ∧ s.Loses max q.store cl

theorem one_le_busyAt {s : ProxyClient} (hslack : ∀ key, 0 ≤ q.slack max key)
    (hs : q.clients[i]? = some s) (key : String) :
    (one (uses key) s : Int) ≤ q.pools.busyAt max key := by
  have hone : one (uses key) s ≤ q.inUse key := one_le_countP hs
  have hkey := hslack key
  rw [slack] at hkey
  omega

theorem slack_client {cl : ClientLabel} {s s' : ProxyClient} {store : PoolStore}
    {log : List ProxyEvent} (hq : ∀ s ∈ q.clients, s.Seeking)
    (hslack : ∀ key, 0 ≤ q.slack max key) (hs : q.clients[i]? = some s)
    (hmove : s.Moves max q.store cl store s') :
    (∀ key, slack max { q with store := store, clients := q.clients.set i s', log := log } key =
        q.slack max key) ∨
      (s.Loses max q.store cl ∧ ∀ key, q.slack max key ≤
        slack max { q with store := store, clients := q.clients.set i s', log := log } key) := by
  have hcount (key : String) : (q.clients.set i s').countP (uses key) + one (uses key) s =
        q.inUse key + one (uses key) s' := countP_set_add hs
  rcases balanced_of_moves (hq s (mem_of_getElem? hs)) (one_le_busyAt hslack hs)
    hmove with ⟨k, d, hpools, hone⟩ | ⟨hloses, rfl, hslot⟩
  · refine .inl fun key => ?_
    have hset := hcount key
    have hone := hone key
    have hbusy := (hpools key).1
    simp only [slack, inUse, owed, pools] at hset hbusy ⊢
    omega
  · refine .inr ⟨hloses, fun key => ?_⟩
    have hset := hcount key
    rw [one_uses_of_none hslot] at hset
    simp only [slack, inUse, owed, pools] at hset ⊢
    omega

theorem slack_login (x : PoolIdentity) : (q.login max x).slack max key = q.slack max key := by
  have hbusy : (q.pools.increment max x.stringKey).busyAt max key =
      q.pools.busyAt max key + onlyAt x.stringKey key 1 := (changes_increment key).1
  have hnew : (one (uses key)
      ⟨x.database, x.user, none, .idle, .donating q.store.fresh x.nodeId x.addr⟩ : Int) =
      onlyAt x.stringKey key 1 := one_uses_of_some rfl
  have hcount : (q.login max x).inUse key = q.inUse key + one (uses key)
      ⟨x.database, x.user, none, .idle, .donating q.store.fresh x.nodeId x.addr⟩ :=
    countP_append_singleton
  simp only [slack, login, owed, pools] at hbusy hcount ⊢
  omega

theorem slack_drain (k : String) : slack max { q with
      store.pools := q.pools.clear k
      draining := q.draining ++ [(k, (q.pools.bucket max k).idle.length)] } key =
    q.slack max key := by
  have hbusy : (q.pools.clear k).busyAt max key = q.pools.busyAt max key +
      onlyAt k key (q.pools.bucket max k).idle.length := (changes_clear key).1
  simp only [slack, inUse, owed, pools, map_append, map_cons, map_nil,
    sum_append, sum_singleton, onlyAt, eq_comm] at hbusy ⊢
  split_ifs at hbusy ⊢ <;> omega

theorem slack_subtract (hj : q.draining[j]? = some (k, n + 1)) :
    slack max { q with
      store.pools := q.pools.decrement max k
      draining := q.draining.set j (k, n) } key = q.slack max key := by
  have hbusy : (q.pools.decrement max k).busyAt max key =
      q.pools.busyAt max key + onlyAt k key (-1) := (changes_decrement key).1
  have hsum := sum_map_set_add (b := (k, n))
    (fun d : String × Nat => if d.1 = key then d.2 else 0) hj
  simp only [slack, inUse, owed, pools, onlyAt, eq_comm] at hbusy hsum ⊢
  split_ifs at hbusy hsum <;> omega

/-- A step keeps the slack of every bucket, or it raises one because a session
drops what it has. -/
theorem slack_move (hq : ∀ s ∈ q.clients, s.Seeking) (hslack : ∀ key, 0 ≤ q.slack max key)
    (hmove : Moves max q l q') : (∀ key, q'.slack max key = q.slack max key) ∨
      (q.Loses max l ∧ ∀ key, q.slack max key ≤ q'.slack max key) := by
  cases hmove with
  | login x => exact .inl fun key => slack_login x
  | client i cl s _ _ hs hmove =>
    rcases slack_client hq hslack hs hmove with hsame | ⟨hloses, hle⟩
    · exact .inl hsame
    · exact .inr ⟨⟨i, cl, s, rfl, hs, hloses⟩, hle⟩
  | evict k i =>
    refine .inl fun key => ?_
    have hbusy : (q.pools.evict k i).busyAt max key = q.pools.busyAt max key + onlyAt k key 0 :=
      (changes_evict key).1
    simp only [slack, inUse, owed, pools, onlyAt_zero] at hbusy ⊢
    omega
  | drain k => exact .inl fun key => slack_drain k
  | subtract _ _ _ hj => exact .inl fun key => slack_subtract hj

/-! ## Limits -/

/-- The counter of a bucket rises at a login and when a session reserves a slot. -/
theorem changes_of_moves (hq : ∀ s ∈ q.clients, s.Seeking) (hslack : ∀ key, 0 ≤ q.slack max key)
    (hmove : Moves max q l q') : ∃ k d up, Changes max k d up q.pools q'.pools ∧ (up = 0 ∨
      (∃ x : PoolIdentity, l = .login x.database x.user x.nodeId x.addr ∧
        k = x.stringKey ∧ up = 1) ∨
      ∃ (i : Nat) (s : ProxyClient), l = .client i .reserve ∧ q.clients[i]? = some s ∧
        ∃ m nodeId addr prevTotal, s.phase = .reserving m nodeId addr prevTotal ∧
          k = s.key nodeId addr ∧ up = 1) := by
  cases hmove with
  | login x => exact ⟨_, _, _, changes_increment, .inr (.inl ⟨x, rfl, rfl, rfl⟩)⟩
  | evict k => exact ⟨k, _, _, changes_evict, .inl rfl⟩
  | drain k => exact ⟨k, _, _, changes_clear, .inl rfl⟩
  | subtract _ _ k => exact ⟨k, _, _, changes_decrement, .inl rfl⟩
  | client i cl s _ _ hs hmove =>
    by_cases hcl : cl = .reserve
    · subst hcl
      cases hmove with
      | reserve m nodeId addr prevTotal hphase =>
        exact ⟨_, _, _, changes_increment,
          .inr (.inr ⟨i, s, rfl, hs, m, nodeId, addr, prevTotal, hphase, rfl, rfl⟩)⟩
      | finish _ _ _ hl => rcases hl with ⟨_, _, _, hl⟩ | hl <;> cases hl
    · rcases balanced_of_moves (hq s (mem_of_getElem? hs))
        (one_le_busyAt hslack hs) hmove with ⟨k, d, hpools, -⟩ | ⟨-, rfl, -⟩
      · rw [if_neg hcl] at hpools
        exact ⟨k, d, 0, hpools, .inl rfl⟩
      · exact ⟨"", 0, 0, .refl, .inl rfl⟩

/-- The counters are never too low, and every bucket has the limit of the
configuration. -/
structure Accounted (max : Nat) (q : PooledProxy) : Prop where
  seeking : ∀ s ∈ q.clients, s.Seeking
  slack : ∀ key, 0 ≤ q.slack max key
  limit : ∀ key, (q.pools.bucket max key).max = max

theorem accounted_init : Accounted max (machine max).init where
  seeking := forall_mem_nil _
  slack := fun _ => le_rfl
  limit := fun _ => rfl

theorem Accounted.move (h : q.Accounted max) (hq' : q'.CustodyInv) (hmove : Moves max q l q') :
    q'.Accounted max where
  seeking := hq'.seeking
  slack := by
    intro key
    rcases slack_move h.seeking h.slack hmove with hsame | ⟨-, hle⟩
    · rw [hsame key]
      exact h.slack key
    · exact (h.slack key).trans (hle key)
  limit := by
    intro key
    obtain ⟨k, d, _, hpools, -⟩ := changes_of_moves h.seeking h.slack hmove
    rw [(hpools key).2.2, h.limit key]

theorem accounted_of_reachable (hr : (machine max).Reachable q) : q.Accounted max := by
  refine (hr.invariant (I := fun q => q.CustodyInv ∧ q.Accounted max)
    ⟨custodyInv_init, accounted_init⟩ ?_).2
  rintro q l _ ⟨hq, hacc⟩ - hstep
  have hmove := moves_of_step hstep
  exact ⟨hq.move hmove, hacc.move (hq.move hmove) hmove⟩

/-- A session that ends with an error has no backend at that moment. -/
def tidy (q : PooledProxy) : PooledLabel → Bool
  | .client i .ioError => (q.clients[i]?.bind ProxyClient.current).isNone
  | _ => true

theorem not_loses (hmax : 0 < max) (h : q.Accounted max) (htidy : q.tidy l) : ¬ q.Loses max l := by
  rintro ⟨i, _, s, rfl, hs, ⟨rfl, hheld⟩ | ⟨rfl, key, hzero⟩⟩
  · rw [tidy, hs, Option.bind_some, Option.isNone_iff_eq_none] at htidy
    exact hheld htidy
  · rw [h.limit key] at hzero
    omega

theorem slack_eq_zero (hmax : 0 < max)
    (hr : (machine max).Reaches (fun q l => q.tidy l) q) (key : String) : q.slack max key = 0 := by
  have hinv : (q.CustodyInv ∧ q.Accounted max) ∧ ∀ key, q.slack max key = 0 := by
    refine hr.invariant (I := fun q => (q.CustodyInv ∧ q.Accounted max) ∧
      ∀ key, q.slack max key = 0) ⟨⟨custodyInv_init, accounted_init⟩, fun _ => rfl⟩ ?_
    rintro q l _ ⟨⟨hq, hacc⟩, hzero⟩ htidy hstep
    have hmove := moves_of_step hstep
    refine ⟨⟨hq.move hmove, hacc.move (hq.move hmove) hmove⟩, fun key => ?_⟩
    rcases slack_move hacc.seeking hacc.slack hmove with hsame | ⟨hloses, -⟩
    · rw [hsame key, hzero key]
    · exact absurd hloses (not_loses hmax hacc htidy)
  exact hinv.2 key

/-- A login finds room in its bucket, and a session reserves its slot while the
total is still what it saw. -/
def frugal (max : Nat) (q : PooledProxy) : PooledLabel → Bool
  | .login database user nodeId addr =>
    (q.pools.bucket max (PoolIdentity.mk database user nodeId addr).stringKey).total < max
  | .client i .reserve =>
    q.clients[i]?.all fun s =>
      match s.phase with
      | .reserving _ nodeId addr prevTotal =>
        (q.pools.bucket max (s.key nodeId addr)).total ≤ prevTotal
      | _ => true
  | _ => true

structure Within (max : Nat) (q : PooledProxy) : Prop where
  accounted : q.Accounted max
  custody : q.CustodyInv
  total : ∀ key, (q.pools.bucket max key).total ≤ max
  checked : ∀ s ∈ q.clients, ∀ m nodeId addr prevTotal,
    s.phase = .reserving m nodeId addr prevTotal → prevTotal < max

theorem Within.move (h : q.Within max) (hfrugal : q.frugal max l)
    (hmove : Moves max q l q') : q'.Within max where
  accounted := h.accounted.move (h.custody.move hmove) hmove
  custody := h.custody.move hmove
  total := by
    intro key
    obtain ⟨k, d, up, hpools, hup⟩ := changes_of_moves h.accounted.seeking h.accounted.slack hmove
    have htotal := (hpools key).2.1
    have hold := h.total key
    have hroom : up = 0 ∨ (up = 1 ∧ (q.pools.bucket max k).total < max) := by
      rcases hup with hzero | ⟨x, rfl, rfl, hone⟩ | ⟨i, s, rfl, hs, m, nodeId, addr, prevTotal,
        hphase, rfl, hone⟩
      · exact .inl hzero
      · exact .inr ⟨hone, of_decide_eq_true hfrugal⟩
      · -- The total is what the check saw, or less.
        rw [frugal, hs, Option.all_some, hphase] at hfrugal
        have hseen := h.checked s (mem_of_getElem? hs) m nodeId addr prevTotal hphase
        exact .inr ⟨hone, (of_decide_eq_true hfrugal).trans_lt hseen⟩
    unfold onlyAt at htotal
    split_ifs at htotal with hkey
    · subst hkey
      omega
    · omega
  checked := by
    intro s hs m nodeId addr prevTotal hphase
    cases hmove with
    | login =>
      rcases mem_append.mp hs with hold | hnew
      · exact h.checked s hold m nodeId addr prevTotal hphase
      · rw [mem_singleton.mp hnew] at hphase
        cases hphase
    | client _ _ _ _ _ _ hmove =>
      rcases mem_or_eq_of_mem_set hs with hold | rfl
      · exact h.checked s hold m nodeId addr prevTotal hphase
      · have hchecked := checked_of_moves hmove m nodeId addr prevTotal hphase
        rwa [h.accounted.limit] at hchecked
    | _ => exact h.checked s hs m nodeId addr prevTotal hphase

theorem total_le_max (hr : (machine max).Reaches (fun q l => q.frugal max l) q)
    (key : String) : (q.pools.bucket max key).total ≤ max := by
  have hwithin : q.Within max := hr.invariant
    ⟨accounted_init, custodyInv_init, fun _ => Int.natCast_nonneg _, forall_mem_nil _⟩
    fun _ _ _ h hfrugal hstep => h.move hfrugal (moves_of_step hstep)
  exact hwithin.total key

/-- In every run no counter falls below zero. In a run whose sessions end with an
error only while they have no backend, with a limit above zero, it is the idle
connections, those in use and those that were drained and are yet to be subtracted,
hence the first two exactly while there are none of these. In a run whose logins
find room and whose sessions reserve a slot while the total is what they saw, it is
at most the limit. -/
theorem pool_counts_its_connections {b : PoolBucket Nat} (hr : (machine max).Reachable q)
    (hb : q.pools.lookup key = some b) : 0 ≤ b.total ∧
      (0 < max → (machine max).Reaches (fun q l => q.tidy l = true) q →
        b.total = b.idle.length + q.inUse key + q.owed key ∧
          (q.owed key = 0 ↔ b.total = b.idle.length + q.inUse key)) ∧
      ((machine max).Reaches (fun q l => q.frugal max l = true) q →
        b.total ≤ b.max ∧ b.max = max) := by
  have hbucket : q.pools.bucket max key = b := bucket_of_lookup hb
  have hacc := accounted_of_reachable hr
  have hslack := hacc.slack key
  rw [slack, busyAt, hbucket] at hslack
  have hlimit := hacc.limit key
  rw [hbucket] at hlimit
  refine ⟨by omega, fun hmax htidy => ?_, fun hfrugal => ⟨?_, hlimit⟩⟩
  · have hzero := slack_eq_zero hmax htidy key
    rw [slack, busyAt, hbucket] at hzero
    omega
  · have htotal := total_le_max hfrugal key
    rw [hbucket] at htotal
    rwa [hlimit]

/-! ## Runs -/

/-- A client of the one database on the one backend of the runs below. -/
def appLogin : PooledLabel := .login "db" "app" "pg1" "10.0.0.1:5432"

def appKey : String := "db|app|pg1:10.0.0.1:5432"

def appQuery : ClientLabel := .read .query true (.backend "pg1" "10.0.0.1:5432") true

/-- One client queries on a connection of the pool; another finds the other one
broken and opens a new one. -/
def twoQueries : List PooledLabel :=
  [appLogin, .client 0 .donate, appLogin, .client 1 .donate, .client 0 appQuery,
    .client 0 (.takeIdle 0), .client 1 appQuery, .client 1 (.takeIdle 1), .client 1 .check,
    .client 1 .reserve, .client 0 .forward]

theorem pool_counts_twoQueries :
    ∃ q b, (machine 25).run twoQueries = some q ∧ q.pools.lookup appKey = some b ∧
      b.total = 2 ∧ b.total = b.idle.length + q.inUse appKey ∧ b.total ≤ b.max := by
  have hrun : ((machine 25).run twoQueries).any (fun q => q.owed appKey = 0 &&
      (q.pools.lookup appKey).any fun b => b.total = 2) = true := by
    decide +kernel
  obtain ⟨q, hq, hend⟩ := (Option.any_eq_true _ _).mp hrun
  obtain ⟨howed, hlookup⟩ := Bool.and_eq_true_iff.mp hend
  obtain ⟨b, hb, htotal⟩ := (Option.any_eq_true _ _).mp hlookup
  have hcounts := pool_counts_its_connections (Machine.reachable_of_run hq) hb
  exact ⟨q, b, hq, hb, of_decide_eq_true htotal,
    (hcounts.2.1 (by decide) (Machine.reaches_of_run (by decide +kernel) hq)).2.mp
      (of_decide_eq_true howed),
    (hcounts.2.2 (Machine.reaches_of_run (by decide +kernel) hq)).1⟩

/-- What the counter of the bucket says, and what there is. -/
def counts (total : Int) (idle inUse : Nat) (q : PooledProxy) : Bool :=
  (q.pools.lookup appKey).any fun b =>
    b.total = total && b.idle.length = idle && q.inUse appKey = inUse

theorem counts_spec {total : Int} {idle inUse : Nat} (q : PooledProxy)
    (h : q.counts total idle inUse) :
    ∃ b, q.pools.lookup appKey = some b ∧ b.total = total ∧ b.idle.length = idle ∧
      q.inUse appKey = inUse := by
  obtain ⟨b, hb, h⟩ := (Option.any_eq_true _ _).mp h
  simp only [Bool.and_eq_true, decide_eq_true_eq] at h
  exact ⟨b, hb, h.1.1, h.1.2, h.2⟩

/-- A session's backend fails while it forwards a query: its connection is
counted for ever. With a limit of one, a login while the only connection is in
use makes two, and so do two sessions that both check before either reserves.
While a bucket is drained its counter is too high. -/
theorem pool_counter_wrong :
    (∃ q, (machine 25).run [appLogin, .client 0 .donate, .client 0 appQuery,
        .client 0 (.takeIdle 0), .client 0 .ioError] = some q ∧
      (machine 25).Reachable q ∧ ∃ b, q.pools.lookup appKey = some b ∧ b.total = 1 ∧
        b.idle.length = 0 ∧ q.inUse appKey = 0) ∧
    (∃ q, (machine 1).run [appLogin, .client 0 .donate, .client 0 appQuery,
        .client 0 (.takeIdle 0), appLogin, .client 1 .donate] = some q ∧
      (machine 1).Reachable q ∧ ∃ b, q.pools.lookup appKey = some b ∧ b.total = 2 ∧
        b.idle.length = 1 ∧ q.inUse appKey = 1) ∧
    (∃ q, (machine 1).run [appLogin, .client 0 .donate, appLogin, .client 1 .donate,
        .evict appKey 0, .client 0 appQuery, .client 0 (.takeIdle 0), .client 0 .check,
        .client 1 appQuery, .client 1 (.takeIdle 0), .client 1 .check,
        .client 0 .reserve, .client 1 .reserve] = some q ∧
      (machine 1).Reachable q ∧ ∃ b, q.pools.lookup appKey = some b ∧ b.total = 2 ∧
        b.idle.length = 0 ∧ q.inUse appKey = 2) ∧
    ∃ q, (machine 25).run [appLogin, .client 0 .donate, .drain appKey "10.0.0.1:5432"] = some q ∧
      (machine 25).Reachable q ∧ ∃ b, q.pools.lookup appKey = some b ∧ b.total = 1 ∧
        b.idle.length = 0 ∧ q.inUse appKey = 0 := by
  refine ⟨?_, ?_, ?_, ?_⟩
  all_goals exact Machine.exists_of_run (by decide +kernel) counts_spec

end PooledProxy

end PgCluster
