import PgCluster.ProxyRecords

/-!
# Settings of sessions and of connections

A backend keeps the parameters it was logged in with and the session-level
settings that were changed on it. `acquire` hands connections from session to
session of a database and user, `inject` puts a session's login connection
among them, and `release` resets nothing; `set_vars`, from which settings
were to be replayed, is neither filled nor read.

The sessions and the pool are those of `ProxyConnections`. Beside each
connection stands what its backend has, beside each session what its own
startup parameters and its own statements come to, and each statement is
recorded with both as they were when it was forwarded. The two agree as long
as all sessions start with the same parameters and none gives a connection
back with settings of its own (`statements_run_on_own_settings`).
-/

namespace PgCluster

open PooledProxy Option

abbrev SessionParams := HashMap String String

/-- What a statement does to the settings of the session it runs in. -/
inductive SettingChange where
  | set (name value : String)
  | reset (name : String)
  | resetAll
deriving DecidableEq

/-- The startup parameters, and the settings changed since. -/
structure BackendSettings where
  startup : SessionParams
  sets : SessionParams
deriving DecidableEq

namespace BackendSettings

/-- The settings right after a login. -/
def new (startup : SessionParams) : BackendSettings := ⟨startup, ∅⟩

/-- A setting that is reset has its value from the startup parameters again. -/
def change (b : BackendSettings) : SettingChange → BackendSettings
  | .set name value => { b with sets := b.sets.insert name value }
  | .reset name => { b with sets := b.sets.erase name }
  | .resetAll => { b with sets := ∅ }

def changeAll (b : BackendSettings) (changes : List SettingChange) : BackendSettings :=
  changes.foldl change b

@[simp] theorem change_startup (b : BackendSettings) (ch : SettingChange) :
    (b.change ch).startup = b.startup := by
  cases ch <;> rfl

@[simp] theorem changeAll_startup (b : BackendSettings) (changes : List SettingChange) :
    (b.changeAll changes).startup = b.startup := by
  induction changes generalizing b with
  | nil => rfl
  | cons ch _ ih => exact (ih (b.change ch)).trans (change_startup b ch)

theorem eq_new {b : BackendSettings} {startup : SessionParams} (hstartup : b.startup = startup)
    (hsets : b.sets = ∅) : b = new startup := by
  cases b
  exact congrArg₂ BackendSettings.mk hstartup hsets

end BackendSettings

/-! ## What a session's step does to its settings -/

open ConnectionPools

namespace ProxyClient

variable {max : Nat} {st st' : PoolStore} {s s' : ProxyClient} {l : ClientLabel}

/-- The settings of a session are those of the connection it has, and between two
transactions those it started with. -/
structure Settled (startup : SessionParams) (own : BackendSettings) (conn : Option BackendSettings)
    (s : ProxyClient) : Prop where
  started : own.startup = startup
  same : ∀ b ∈ conn, b = own
  resting : s.Resting → own = .new startup

variable {startup : SessionParams} {own : BackendSettings} {conns conns' : Nat → BackendSettings}

theorem Settled.move (hseek : s.Seeking) (h : Settled startup own (s.conn.map conns) s)
    (hidle : ∀ key, ∀ c ∈ st.pools.idleAt key, conns c = .new startup)
    (htidy : l.returns → own.sets = ∅) (hconns : l ≠ .opened true → conns' = conns)
    (hopened : l = .opened true → conns' st.fresh = .new own.startup)
    (hmove : s.Moves max st l st' s') :
    Brings (fun _ b => b = .new startup) conns' st.pools st'.pools ∧
      Settled startup own (s'.conn.map conns') s' := by
  have hown (hback : s.Resting ∨ l.returns) : own = .new startup := by
    rcases hback with hrest | hreturns
    · exact h.resting hrest
    · exact BackendSettings.eq_new h.started (htidy hreturns)
  cases hmove.hands hseek with
  | drops _ hpools _ hconn hrest =>
    exact ⟨brings_of_shrinks hpools, h.started, by rw [hconn]; exact nofun,
      fun ht => h.resting (hrest ht)⟩
  | keeps hl hst hconn hrest =>
    rw [hconns hl, hst, hconn]
    exact ⟨brings_of_shrinks .refl, h.started, h.same, fun ht => h.resting (hrest ht)⟩
  | gives c _ hl hpools _ hc _ hback hconn =>
    have hgiven : conns c = .new startup :=
      (h.same _ (by rw [hc]; rfl)).trans (hown hback)
    rw [hconns hl, hconn]
    exact ⟨brings_of_gains hpools hgiven, h.started, nofun, fun _ => hown hback⟩
  | takes c _ hl hpools _ hmem _ hrest _ hconn hbusy =>
    rw [hconns hl, hconn]
    refine ⟨brings_of_shrinks hpools, h.started, ?_, fun ht => absurd ht hbusy⟩
    rintro _ ⟨⟩
    exact (hidle _ c hmem).trans (hown (.inl hrest)).symm
  | opens _ _ _ hl hst _ hrest _ hconn hbusy =>
    rw [hst, hconn]
    refine ⟨brings_of_shrinks .refl, h.started, ?_, fun ht => absurd ht hbusy⟩
    rintro _ ⟨⟩
    rw [hopened hl, h.started, hown (.inl hrest)]

end ProxyClient

/-! ## The proxy with settings -/

/-- A statement was forwarded for a session: what its connection's backend had, and
what the session's own startup parameters and statements came to. -/
structure StatementRun where
  client : Nat
  backend : BackendSettings
  own : BackendSettings
deriving DecidableEq

structure SettingsProxy where
  proxy : PooledProxy
  conns : Nat → BackendSettings
  owns : Nat → BackendSettings
  ran : List StatementRun

/-- A login with its startup parameters, a statement with what it changes, and the
other steps of the pool and the sessions. -/
inductive SettingsLabel where
  | login (startup : SessionParams) (nodeId addr : String)
  | forward (i : Nat) (changes : List SettingChange)
  | pooled (l : PooledLabel)

namespace PooledLabel

/-- The steps that carry parameters or a statement. -/
def isOwn : PooledLabel → Bool
  | .login .. | .client _ .forward => true
  | _ => false

end PooledLabel

namespace SettingsProxy

/-- `acquire` logs a new connection in with the startup message of the session it is
for. -/
def connsAfter (s : SettingsProxy) : PooledLabel → Nat → BackendSettings
  | .client i (.opened true) =>
    Function.update s.conns s.proxy.store.fresh (.new (s.owns i).startup)
  | _ => s.conns

theorem connsAfter_of_ne {s : SettingsProxy} {c : Nat} (hc : c ≠ s.proxy.store.fresh)
    (l : PooledLabel) : s.connsAfter l c = s.conns c := by
  unfold connsAfter
  split
  · exact Function.update_of_ne hc _ _
  · rfl

/-- The sessions are all of one database and user. -/
def step (max : Nat) (database user : String) (s : SettingsProxy) :
    SettingsLabel → Option SettingsProxy
  | .login startup nodeId addr =>
    some { s with
      proxy := s.proxy.login max ⟨database, user, nodeId, addr⟩
      conns := Function.update s.conns s.proxy.store.fresh (.new startup)
      owns := Function.update s.owns s.proxy.clients.length (.new startup) }
  | .forward i changes =>
    (s.proxy.clients[i]?.bind ProxyClient.current).bind fun held =>
      (s.proxy.step max (.client i .forward)).map fun p =>
        { proxy := p
          conns := Function.update s.conns held.conn ((s.conns held.conn).changeAll changes)
          owns := Function.update s.owns i ((s.owns i).changeAll changes)
          ran := ⟨i, s.conns held.conn, s.owns i⟩ :: s.ran }
  | .pooled l =>
    if l.isOwn then none
    else (s.proxy.step max l).map fun p => { s with proxy := p, conns := s.connsAfter l }

def machine (max : Nat) (database user : String) : Machine SettingsProxy SettingsLabel where
  init := ⟨(PooledProxy.machine max).init, fun _ => .new ∅, fun _ => .new ∅, []⟩
  step := step max database user

/-- Every session starts with the same parameters, and gives a connection back only
when none of its own settings is left. -/
def tidy (startup : SessionParams) (s : SettingsProxy) : SettingsLabel → Bool
  | .login startup' _ _ => startup' = startup
  | .pooled (.client i l) => !l.returns || (s.owns i).sets = ∅
  | _ => true

/-- The connections and the sessions agree. -/
structure Agrees (max : Nat) (startup : SessionParams) (s : SettingsProxy) : Prop where
  records : Records (fun _ b => b = .new startup) (ProxyClient.Settled startup) max s.proxy
    s.conns s.owns
  ran : ∀ r ∈ s.ran, r.backend = r.own

variable {max : Nat} {database user : String} {startup : SessionParams} {s s' : SettingsProxy}

theorem Agrees.login (h : s.Agrees max startup) (x : PoolIdentity) :
    Agrees max startup { s with
      proxy := s.proxy.login max x
      conns := Function.update s.conns s.proxy.store.fresh (.new startup)
      owns := Function.update s.owns s.proxy.clients.length (.new startup) } := by
  refine ⟨h.records.step (l := .login x.database x.user x.nodeId x.addr) rfl
    (fun c hfresh _ => Function.update_of_ne hfresh _ _)
    (fun i hi _ => Function.update_of_ne hi _ _) (fun _ _ => ?_) (fun _ _ _ _ _ hl => ?_), h.ran⟩
  · dsimp only
    rw [Function.update_self, Function.update_self]
    exact ⟨rfl, by rintro _ ⟨⟩; rfl, fun _ => rfl⟩
  · cases hl

/-- A statement changes the settings of its session and of the one connection the
session holds. -/
theorem Agrees.forward {i : Nat} {c : ProxyClient} {held : HeldBackend} {p : PooledProxy}
    (changes : List SettingChange) (h : s.Agrees max startup) (hc : s.proxy.clients[i]? = some c)
    (hheld : c.current = some held) (hp : s.proxy.step max (.client i .forward) = some p) :
    Agrees max startup
      { proxy := p
        conns := Function.update s.conns held.conn ((s.conns held.conn).changeAll changes)
        owns := Function.update s.owns i ((s.owns i).changeAll changes)
        ran := ⟨i, s.conns held.conn, s.owns i⟩ :: s.ran } := by
  have hsettled := h.records.clients i c hc
  have hsame : s.conns held.conn = s.owns i :=
    hsettled.same _ (by rw [ProxyClient.conn_of_current hheld]; rfl)
  refine ⟨h.records.step hp (fun x _ hx => Function.update_of_ne ?_ _ _)
    (fun j _ hj => Function.update_of_ne (fun hji => hj .forward (by rw [hji])) _ _) nofun ?_,
    List.forall_mem_cons.mpr ⟨hsame, h.ran⟩⟩
  · rintro rfl
    refine hx i .forward rfl ?_
    rw [held_of_getElem? hc, ProxyClient.conn_of_current hheld]
  · rintro _ _ c₁ _ _ ⟨⟩ hc₁ hmove
    obtain rfl : c = c₁ := Option.some.inj (hc.symm.trans hc₁)
    cases hmove with
    | finish _ _ _ hl => rcases hl with ⟨m, _, _, hl⟩ | hl <;> cases hl
    | forward =>
      refine ⟨brings_of_shrinks .refl, ?_, ?_, fun hrest => absurd (hheld.symm.trans hrest.1) nofun⟩
      · dsimp only
        rw [Function.update_self, BackendSettings.changeAll_startup, hsettled.started]
      · dsimp only
        rw [ProxyClient.conn_of_current (by exact hheld)]
        rintro _ ⟨⟩
        rw [Function.update_self, Function.update_self, hsame]

theorem Agrees.pooled {l : PooledLabel} {p : PooledProxy} (h : s.Agrees max startup)
    (hl : l.isOwn = false) (htidy : s.tidy startup (.pooled l)) (hp : s.proxy.step max l = some p) :
    Agrees max startup { s with proxy := p, conns := s.connsAfter l } := by
  refine ⟨h.records.step hp (fun c hc _ => connsAfter_of_ne hc l) (fun _ _ _ => rfl) ?_ ?_, h.ran⟩
  · rintro x rfl
    cases hl
  · rintro i cl c store c' rfl hc hmove
    have hseek := (custodyInv_of_reachable h.records.reachable).seeking c (List.mem_of_getElem? hc)
    refine (h.records.clients i c hc).move hseek h.records.idle (fun hreturns => ?_) ?_ ?_ hmove
    · simpa [tidy, hreturns] using htidy
    · intro hne
      unfold connsAfter
      split
      · rename_i hcl
        exact absurd (PooledLabel.client.inj hcl).2 hne
      · rfl
    · rintro rfl
      exact Function.update_self _ _ _

theorem Agrees.step {l : SettingsLabel} (h : s.Agrees max startup) (htidy : s.tidy startup l)
    (hstep : s.step max database user l = some s') : s'.Agrees max startup := by
  cases l with
  | login startup' =>
    obtain rfl : startup' = startup := of_decide_eq_true htidy
    cases hstep
    exact h.login _
  | forward _ changes =>
    obtain ⟨_, hheld, hstep⟩ := bind_eq_some_iff.mp hstep
    obtain ⟨c, hc, hheld⟩ := bind_eq_some_iff.mp hheld
    obtain ⟨p, hp, rfl⟩ := map_eq_some_iff.mp hstep
    exact h.forward changes hc hheld hp
  | pooled l =>
    obtain ⟨hl, hstep⟩ := ite_none_left_eq_some.mp hstep
    obtain ⟨p, hp, rfl⟩ := map_eq_some_iff.mp hstep
    exact h.pooled (Bool.eq_false_of_not_eq_true hl) htidy hp

/-- Each statement of a session runs on a connection with exactly the settings its
own startup parameters and earlier statements come to, in every run in which the
sessions start alike and give back no settings of their own. -/
theorem statements_run_on_own_settings (max : Nat) (database user : String)
    (startup : SessionParams) (s : SettingsProxy)
    (hs : (machine max database user).Reaches (fun s l => s.tidy startup l = true) s) :
    ∀ r ∈ s.ran, r.backend = r.own := by
  have hinit : Agrees max startup (machine max database user).init :=
    ⟨.init, List.forall_mem_nil _⟩
  exact (hs.invariant hinit fun s l s' h hl hstep => h.step hl hstep).ran

/-- Two sessions log in, one after the other. -/
def twoLogins (first second : SessionParams) : List SettingsLabel :=
  [.login first "n1" "a1:5432", .pooled (.client 0 .donate),
    .login second "n1" "a1:5432", .pooled (.client 1 .donate)]

/-- A session runs a query on the connection that was released last. -/
def query (i : Nat) (changes : List SettingChange) : List SettingsLabel :=
  [.pooled (.client i (.read .query true (.backend "n1" "a1:5432") true)),
    .pooled (.client i (.takeIdle 0)), .forward i changes]

def idles (i : Nat) : List SettingsLabel := [.pooled (.client i (.reply (.ready .idle) true))]

/-- One session's setting meets another session's statement; a session's own setting
is gone when its next statement runs on another connection; and a statement runs
with another session's startup parameters. -/
theorem statements_run_on_others_settings :
    (∃ s, (machine 2 "app" "owner").run (twoLogins ∅ ∅ ++
        query 0 [.set "role" "admin"] ++ idles 0 ++ query 1 []) = some s ∧
      (machine 2 "app" "owner").Reachable s ∧
      ∃ r ∈ s.ran, r.client = 1 ∧ r.own.sets = ∅ ∧ r.backend.sets ≠ ∅) ∧
    (∃ s, (machine 2 "app" "owner").run (twoLogins ∅ ∅ ++
        query 0 [.set "role" "admin"] ++ idles 0 ++ query 1 [] ++ query 0 []) = some s ∧
      (machine 2 "app" "owner").Reachable s ∧
      ∃ r ∈ s.ran, r.client = 0 ∧ r.own.sets ≠ ∅ ∧ r.backend.sets = ∅) ∧
    ∃ s, (machine 2 "app" "owner").run (twoLogins (Finmap.insert "DateStyle" "ISO" ∅)
        (Finmap.insert "DateStyle" "German" ∅) ++ query 0 []) = some s ∧
      (machine 2 "app" "owner").Reachable s ∧
      ∃ r ∈ s.ran, r.client = 0 ∧ r.backend.startup ≠ r.own.startup := by
  refine ⟨?_, ?_, ?_⟩
  all_goals exact Machine.exists_of_run (by decide +kernel) fun _ => of_decide_eq_true

/-- A session sets a parameter for the length of a transaction, and another session
then uses the connection. -/
def sharedConnection : List SettingsLabel :=
  twoLogins ∅ ∅ ++ query 0 [.set "role" "admin"] ++
    [.pooled (.client 0 (.reply (.ready .inTransaction) true)),
      .pooled (.client 0 (.read .query true .unavailable true)), .forward 0 [.reset "role"]] ++
    idles 0 ++ query 1 []

theorem statements_run_on_own_settings_sharedConnection :
    ∃ s, (machine 2 "app" "owner").run sharedConnection = some s ∧ s.ran.length = 3 ∧
      ∀ r ∈ s.ran, r.backend = r.own := by
  obtain ⟨s, hs, hlen⟩ := (machine 2 "app" "owner").exists_run sharedConnection
    (·.ran.length = 3) (by decide +kernel)
  exact ⟨s, hs, hlen, statements_run_on_own_settings 2 "app" "owner" ∅ s
    (Machine.reaches_of_run (by decide +kernel) hs)⟩

end SettingsProxy

end PgCluster
