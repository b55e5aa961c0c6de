import PgCluster.ProxyAccounting
import PgCluster.ProxyBackends
import PgCluster.Texts

/-!
# Whose connection a session gets

A bucket is found by the text of its key, so a session gets a connection that
was logged in for someone else exactly when two identities share that text.
The main result says so for any set of identities in use; the text is unique
as long as the separators do not occur in the names.
-/

namespace PgCluster

open PoolIdentity ConnectionPools

/-! ## When the text of a key is unique -/

/-- The names do not contain the character that ends them in the key. -/
structure PoolIdentity.Plain (x : PoolIdentity) : Prop where
  database : '|' ∉ x.database.toList
  user : '|' ∉ x.user.toList
  nodeId : ':' ∉ x.nodeId.toList

theorem PoolIdentity.toList_stringKey (x : PoolIdentity) :
    x.stringKey.toList = x.database.toList ++ '|' ::
      (x.user.toList ++ '|' :: (x.nodeId.toList ++ ':' :: x.addr.toList)) := by
  simp [stringKey, PoolKey.new, PoolKey.stringKey]

/-- A part ends at the first occurrence of its separator. -/
theorem split_at_separator {c : Char} {as as' bs bs' : Text} (has : c ∉ as) (has' : c ∉ as')
    (h : as ++ c :: bs = as' ++ c :: bs') : as = as' ∧ bs = bs' := by
  have hsplit := Text.splitOnce_append has bs
  rw [h, Text.splitOnce_append has'] at hsplit
  cases hsplit
  exact ⟨rfl, rfl⟩

theorem PoolIdentity.stringKey_injOn : Set.InjOn stringKey {x | x.Plain} := by
  rintro ⟨_, _, _, _⟩ hx ⟨_, _, _, _⟩ hy hkey
  have hlist := congrArg String.toList hkey
  rw [toList_stringKey, toList_stringKey] at hlist
  obtain ⟨hdatabase, hlist⟩ := split_at_separator hx.database hy.database hlist
  obtain ⟨huser, hlist⟩ := split_at_separator hx.user hy.user hlist
  obtain ⟨hnodeId, haddr⟩ := split_at_separator hx.nodeId hy.nodeId hlist
  rw [String.toList_inj] at hdatabase huser hnodeId haddr
  simp_all

/-! ## What a session holds is its own -/

/-- An idle connection is in the bucket of what it was logged in for. -/
def Filed (ids : Set PoolIdentity) (key : String) (conn : BackendConnection) : Prop :=
  conn.login.stringKey = key ∧ conn.login ∈ ids

namespace ProxyClient

variable {ids : Set PoolIdentity} {max fresh along : Nat} {conns : Nat → BackendConnection}
  {s s' : ProxyClient} {st st' : PoolStore} {l : ClientLabel} {o : Outcome}

def within (ids : Set PoolIdentity) (s : ProxyClient) : ClientLabel → Prop
  | .read _ _ (.backend nodeId addr) _ => s.current = none → s.identity nodeId addr ∈ ids
  | _ => True

/-- What a session wants is one of `ids`, and its connection was logged in for it. -/
def Own (ids : Set PoolIdentity) (conn : Option BackendConnection) (s : ProxyClient) : Prop :=
  ∀ x ∈ s.wants, x ∈ ids ∧ ∀ c ∈ conn, c.login = x

/-- A connection stays logged in for what it was. -/
theorem login_connsAfter (hl : l ≠ .opened true) (c : Nat) :
    (s.connsAfter fresh conns o along l c).login = (conns c).login := by
  have hupdate (d : Nat) (b : Backend) :
      (Function.update conns d { conns d with backend := b } c).login = (conns c).login := by
    by_cases hc : c = d
    · subst hc
      rw [Function.update_self]
    · rw [Function.update_of_ne hc]
  unfold connsAfter
  split
  · exact absurd rfl hl
  · cases s.phase with
    | holding =>
      cases s.current with
      | none => rfl
      | some => exact hupdate _ _
    | _ => rfl
  · cases s.current with
    | none => rfl
    | some => exact hupdate _ _
  · rfl

theorem Own.move (hinj : Set.InjOn stringKey ids) (hseek : s.Seeking)
    (hidle : ∀ key, ∀ c ∈ st.pools.idleAt key, Filed ids key (conns c))
    (hown : Own ids (s.conn.map conns) s) (hw : s.within ids l) (hmove : s.Moves max st l st' s') :
    Brings (Filed ids) (s.connsAfter st.fresh conns o along l) st.pools st'.pools ∧
      Own ids (s'.conn.map (s.connsAfter st.fresh conns o along l)) s' := by
  have hnone (x : PoolIdentity) (hx : x ∈ ids) :
      x ∈ ids ∧ ∀ c ∈ (none : Option BackendConnection), c.login = x := ⟨hx, nofun⟩
  cases hmove.hands hseek with
  | drops _ hpools _ hconn _ hwants =>
    refine ⟨brings_of_shrinks hpools, fun y hy => ?_⟩
    rw [hconn]
    rcases hwants with hgone | hsame | ⟨_, _, _, _, rfl, hfree, hroute⟩
    · rw [hgone] at hy
      cases hy
    · rw [hsame] at hy
      exact hnone y (hown y hy).1
    · rw [hroute] at hy
      obtain rfl := Option.some.inj hy
      exact hnone _ (hw hfree)
  | keeps hl hst hconn _ hwants =>
    rw [hst, hconn]
    refine ⟨brings_of_shrinks .refl, fun y hy => ?_⟩
    rw [hwants] at hy
    obtain ⟨hmem, hlogin⟩ := hown y hy
    refine ⟨hmem, fun _ hc => ?_⟩
    obtain ⟨n, hn, rfl⟩ := Option.map_eq_some_iff.mp hc
    rw [login_connsAfter hl]
    exact hlogin _ (by rw [hn]; rfl)
  | gives c x hl hpools _ hc hx _ _ hwants =>
    obtain ⟨hmem, hlogin⟩ := hown x hx
    refine ⟨brings_of_gains hpools ?_, fun y hy => ?_⟩
    · rw [Filed, login_connsAfter hl, hlogin _ (by rw [hc]; rfl)]
      exact ⟨rfl, hmem⟩
    · rw [hwants] at hy
      cases hy
  | takes c x hl hpools _ hmem _ _ hx hconn _ hwants =>
    obtain ⟨hkey, hlogin⟩ := hidle _ c hmem
    refine ⟨brings_of_shrinks hpools, ?_⟩
    rw [hconn, Own, hwants, hx]
    rintro _ ⟨⟩
    refine ⟨(hown x hx).1, ?_⟩
    rintro _ ⟨⟩
    rw [login_connsAfter hl]
    exact hinj hlogin (hown x hx).1 hkey
  | opens _ nodeId addr hl hst hphase _ hx hconn _ hwants =>
    subst hl
    rw [hst, hconn]
    refine ⟨brings_of_shrinks .refl, ?_⟩
    rw [Own, hwants, hx]
    rintro _ ⟨⟩
    refine ⟨(hown _ hx).1, ?_⟩
    rintro _ ⟨⟩
    simp only [connsAfter, hphase, Function.update_self]

/-! ### Steps that find what they look for -/

variable {nodeId addr : String} {conn : Nat}

theorem step_donate {pools : ConnectionPools Nat} (hphase : s.phase = .donating conn nodeId addr)
    (h : st.pools.donate max (s.key nodeId addr) conn = some pools) :
    s.step max st .donate = some ({ st with pools := pools }, { s with phase := .reading }) := by
  simp [step, hphase, h]

theorem step_takeIdle {m : FrontendMessage} {broken : Nat}
    (hphase : s.phase = .acquiring m nodeId addr)
    (h : (st.pools.takeIdle max (s.key nodeId addr) broken).1 = some conn) :
    s.step max st (.takeIdle broken) =
      some ({ st with pools := (st.pools.takeIdle max (s.key nodeId addr) broken).2 },
        { s with current := some ⟨conn, nodeId, addr⟩, phase := .holding m }) := by
  cases htaken : st.pools.takeIdle max (s.key nodeId addr) broken with
  | mk c =>
    obtain rfl : c = some conn := by rw [← h, htaken]
    simp [step, hphase, htaken]

end ProxyClient

/-! ## The whole proxy -/

namespace ConnectionPools

variable {κ : Type} {pools : ConnectionPools κ} {max : Nat} {key : String} {conn : κ}

/-- `inject` into a bucket of size `max` puts the connection at the end. -/
theorem exists_donate (conn : κ) (hmax : 0 < max) (h : (pools.bucket max key).max = max) :
    ∃ pools', (pools.increment max key).donate max key conn = some pools'
      ∧ (pools'.bucket max key).max = max
      ∧ ∃ idle, (pools'.bucket max key).idle = idle ++ [conn] := by
  unfold increment donate
  dsimp only
  rw [bucket_insert, h]
  split_ifs with hfull
  · cases hidle : (pools.bucket max key).idle with
    | nil => simp [hidle] at hfull; omega
    | cons => exact ⟨_, rfl, by rw [bucket_insert], _, by rw [bucket_insert]⟩
  · exact ⟨_, rfl, by rw [bucket_insert], _, by rw [bucket_insert]⟩

theorem takeIdle_last {idle : List κ} (h : (pools.bucket max key).idle = idle ++ [conn]) :
    (pools.takeIdle max key 0).1 = some conn := by
  simp [takeIdle, h]

end ConnectionPools

namespace Proxy

variable {ids : Set PoolIdentity} {max : Nat} {p : Proxy} {x y : PoolIdentity}

/-- Logins and acquired backends are among `ids`. -/
def within (ids : Set PoolIdentity) (p : Proxy) : PooledLabel → Prop
  | .login database user nodeId addr => ⟨database, user, nodeId, addr⟩ ∈ ids
  | .client i l => ∀ s, p.proxy.clients[i]? = some s → s.within ids l
  | _ => True

/-- Every session holds a connection logged in for its own database and user,
on the node and address it asked for. -/
def Isolated (p : Proxy) : Prop :=
  ∀ s ∈ p.proxy.clients, ∀ held ∈ s.current,
    (p.conns held.conn).login = s.identity held.nodeId held.addr

instance : Decidable p.Isolated := by unfold Isolated; infer_instance

theorem isolated_of_injOn (hinj : Set.InjOn stringKey ids)
    (hr : (machine max).Reaches (fun q l => q.within ids l.pooled) p) : p.Isolated := by
  have hinv := invariant (P := Filed ids) (S := ProxyClient.Own ids) hr ?_ ?_
  · intro s hs held hheld
    obtain ⟨i, hi⟩ := List.mem_iff_getElem?.mp hs
    exact (hinv.clients i s hi _ (ProxyClient.wants_of_current hheld)).2 _
      (by rw [ProxyClient.conn_of_current hheld]; rfl)
  · rintro q x _ _ hx _ ⟨⟩
    refine ⟨hx, ?_⟩
    rintro _ ⟨⟩
    rfl
  · intro q i s l o along st s' hreach hw _ hs hidle hown hmove
    have hseek := (PooledProxy.custodyInv_of_reachable hreach).seeking s (List.mem_of_getElem? hs)
    exact hown.move hinj hseek hidle (hw s hs) hmove

/-- The separators in the names are all that can go wrong. -/
theorem isolated_of_plain
    (hr : (machine max).Reaches (fun q l => q.within {x | x.Plain} l.pooled) p) : p.Isolated :=
  isolated_of_injOn stringKey_injOn hr

/-- Two users log in to one database and each takes a connection. -/
def twoUsers : List PooledLabel :=
  [.login "db" "app" "n1" "addr", .client 0 .donate, .login "db" "ops" "n1" "addr",
    .client 1 .donate, .client 0 (.read .query true (.backend "n1" "addr") true),
    .client 0 (.takeIdle 0), .client 1 (.read .query true (.backend "n1" "addr") true),
    .client 1 (.takeIdle 0)]

theorem isolated_of_plain_twoUsers : ∃ p, (machine 1).run (twoUsers.map ({ pooled := · })) = some p
      ∧ p.proxy.clients.map (·.current.map fun held => (p.conns held.conn).login)
        = [some ⟨"db", "app", "n1", "addr"⟩, some ⟨"db", "ops", "n1", "addr"⟩]
      ∧ p.Isolated := by
  have happ : (⟨"db", "app", "n1", "addr"⟩ : PoolIdentity).Plain :=
    ⟨by decide, by decide, by decide⟩
  have hops : (⟨"db", "ops", "n1", "addr"⟩ : PoolIdentity).Plain :=
    ⟨by decide, by decide, by decide⟩
  have hmeets : (machine 1).Meets (fun q l => q.within {x | x.Plain} l.pooled) (machine 1).init
      (twoUsers.map ({ pooled := · })) := by
    refine ⟨happ, fun _ _ => trivial, hops, fun _ _ => trivial, ?_, fun _ _ => trivial, ?_,
      fun _ _ => trivial, trivial⟩
    · rintro _ ⟨⟩
      exact fun _ => happ
    · rintro _ ⟨⟩
      exact fun _ => hops
  exact ⟨_, rfl, rfl, isolated_of_plain (Machine.reaches_of_run hmeets rfl)⟩

/-- A pool for no connections serves nobody: every session panics in `inject`. -/
theorem isolated_of_max_zero {G : Proxy → ProxyLabel → Prop} (hr : (machine 0).Reaches G p) :
    p.Isolated := by
  have hinv := invariant (P := fun _ _ => False) (S := fun _ s => s.current = none ∧
    (s.phase = .closed ∨ ∃ conn nodeId addr, s.phase = .donating conn nodeId addr)) hr ?_ ?_
  · intro s hs held hheld
    obtain ⟨i, hi⟩ := List.mem_iff_getElem?.mp hs
    rw [(hinv.clients i s hi).1] at hheld
    cases hheld
  · exact fun _ _ _ _ _ => ⟨rfl, .inr ⟨_, _, _, rfl⟩⟩
  · rintro q i s l o along st s' hreach - - - hidle ⟨hnone, hphase⟩ hmove
    have hopen {phase : ClientPhase} (h : s.phase = phase) (hne : phase ≠ .closed)
        (hne' : ∀ conn nodeId addr, phase ≠ .donating conn nodeId addr) : False := by
      rcases hphase with hclosed | ⟨conn, nodeId, addr, hdonating⟩
      · exact hne (h.symm.trans hclosed)
      · exact hne' conn nodeId addr (h.symm.trans hdonating)
    cases hmove with
    | donate _ nodeId addr _ _ hdonate =>
      -- The bucket has no room and nothing it could lose.
      have hlimit := (PooledProxy.accounted_of_reachable hreach).limit (s.key nodeId addr)
      have hempty : (q.proxy.pools.bucket 0 (s.key nodeId addr)).idle = [] :=
        List.eq_nil_iff_forall_not_mem.mpr fun c hc => hidle _ c (bucket_idle ▸ hc)
      simp [donate, hlimit, hempty] at hdonate
    | panic => exact ⟨brings_of_shrinks .refl, hnone, .inl rfl⟩
    | fail hphase =>
      rcases hphase with h | ⟨_, h⟩ | h <;> exact (hopen h nofun nofun).elim
    | ignore _ _ _ h | stay _ _ _ h | route _ _ _ _ h | finish _ _ h | take _ _ _ _ _ h
    | miss _ _ _ _ h | room _ _ _ h | noRoom _ _ _ h | reserve _ _ _ _ h | retry _ _ _ h
    | giveUp _ _ _ h | opened _ _ _ h | refused _ _ _ h | forward _ _ h | ready _ _ h
    | keep _ _ h => exact (hopen h nofun nofun).elim

theorem step_client {i : Nat} {s s' : ProxyClient} {l : ClientLabel} {st : PoolStore}
    (hs : p.proxy.clients[i]? = some s) (hanswers : p.answers (.client i l))
    (h : s.step max p.proxy.store l = some (st, s')) :
    (machine max).step p { pooled := .client i l } = some
      ⟨{ p.proxy with
          store := st
          clients := p.proxy.clients.set i s'
          log := s.events i l ++ p.proxy.log },
        p.connsAfter { pooled := .client i l }⟩ := by
  simp [machine, step, hanswers, PooledProxy.step, hs, h]

/-- Two clients log in and the first sends a query: it gets the connection of
the second, which is the last in the bucket they share. -/
theorem exists_crossing (hmax : 0 < max) (hx : x ∈ ids) (hy : y ∈ ids)
    (hkey : x.stringKey = y.stringKey) (hne : x ≠ y) :
    ∃ p, (machine max).Reaches (fun q l => q.within ids l.pooled) p ∧ ¬ p.Isolated := by
  let first (phase : ClientPhase) : ProxyClient := ⟨x.database, x.user, none, .idle, phase⟩
  let second (phase : ClientPhase) : ProxyClient := ⟨y.database, y.user, none, .idle, phase⟩
  obtain ⟨pools₁, hdonate₁, hmax₁, -⟩ :=
    @exists_donate Nat ∅ max x.stringKey 0 hmax rfl
  obtain ⟨pools₂, hdonate₂, -, _, hidle⟩ := exists_donate 1 hmax (hkey ▸ hmax₁)
  have htake : (pools₂.takeIdle max x.stringKey 0).1 = some 1 := by
    rw [hkey]
    exact takeIdle_last hidle
  have hgives₁ : ProxyClient.step max ⟨increment ∅ max x.stringKey, 1⟩
      (first (.donating 0 x.nodeId x.addr)) .donate = some (⟨pools₁, 1⟩, first .reading) :=
    ProxyClient.step_donate rfl hdonate₁
  have hgives₂ : ProxyClient.step max ⟨pools₁.increment max y.stringKey, 2⟩
      (second (.donating 1 y.nodeId y.addr)) .donate = some (⟨pools₂, 2⟩, second .reading) :=
    ProxyClient.step_donate rfl hdonate₂
  have hasks : ProxyClient.step max ⟨pools₂, 2⟩ (first .reading)
      (.read .query true (.backend x.nodeId x.addr) true) =
      some (⟨pools₂, 2⟩, first (.acquiring .query x.nodeId x.addr)) := rfl
  have htakes : ProxyClient.step max ⟨pools₂, 2⟩ (first (.acquiring .query x.nodeId x.addr))
      (.takeIdle 0) = some (_, _) := ProxyClient.step_takeIdle rfl htake
  have hr₁ : (machine max).Reaches (fun q l => q.within ids l.pooled) _ :=
    .step (l := { pooled := .login x.database x.user x.nodeId x.addr }) .init hx rfl
  have hr₂ : (machine max).Reaches (fun q l => q.within ids l.pooled) _ :=
    .step (l := { pooled := .client 0 .donate }) hr₁ (fun _ _ => trivial)
      (step_client rfl rfl hgives₁)
  have hr₃ : (machine max).Reaches (fun q l => q.within ids l.pooled) _ :=
    .step (l := { pooled := .login y.database y.user y.nodeId y.addr }) hr₂ hy rfl
  have hr₄ : (machine max).Reaches (fun q l => q.within ids l.pooled) _ :=
    .step (l := { pooled := .client 1 .donate }) hr₃ (fun _ _ => trivial)
      (step_client rfl rfl hgives₂)
  have hr₅ : (machine max).Reaches (fun q l => q.within ids l.pooled) _ :=
    .step (l := { pooled := .client 0 (.read .query true (.backend x.nodeId x.addr) true) }) hr₄
      (by rintro _ ⟨⟩; exact fun _ => hx) (step_client rfl rfl hasks)
  have hr₆ : (machine max).Reaches (fun q l => q.within ids l.pooled) _ :=
    .step (l := { pooled := .client 0 (.takeIdle 0) }) hr₅ (fun _ _ => trivial)
      (step_client rfl rfl htakes)
  exact ⟨_, hr₆, fun hiso => hne (hiso _ List.mem_cons_self _ rfl).symm⟩

theorem isolated_iff (max : Nat) (ids : Set PoolIdentity) :
    (∀ p, (machine max).Reaches (fun q l => q.within ids l.pooled) p → p.Isolated) ↔
      max = 0 ∨ Set.InjOn PoolIdentity.stringKey ids := by
  constructor
  · intro hiso
    rcases Nat.eq_zero_or_pos max with hzero | hpos
    · exact .inl hzero
    · refine .inr fun x hx y hy hkey => ?_
      by_contra hne
      obtain ⟨p, hr, hcross⟩ := exists_crossing hpos hx hy hkey hne
      exact hcross (hiso p hr)
  · rintro (rfl | hinj) p hr
    · exact isolated_of_max_zero hr
    · exact isolated_of_injOn hinj hr

/-- User `c` of database `a|b` gets a connection of user `b|c` to database `a`. -/
theorem session_gets_foreign_connection : ∃ p, (machine 25).Reachable p ∧ ¬ p.Isolated := by
  obtain ⟨p, hp, hcross⟩ := (machine 25).exists_run
    ([.login "a|b" "c" "pg1" "10.0.0.1:5432", .client 0 .donate,
      .login "a" "b|c" "pg1" "10.0.0.1:5432", .client 1 .donate,
      .client 0 (.read .query true (.backend "pg1" "10.0.0.1:5432") true),
      .client 0 (.takeIdle 0)].map ({ pooled := · })) (fun p => ¬ p.Isolated) (by decide +kernel)
  exact ⟨p, Machine.reachable_of_run hp, hcross⟩

end Proxy

end PgCluster
