import PgCluster.ProxyRecords

/-!
# The backends behind the proxy's connections

The sessions and the pool of `ProxyConnections`, with what each connection was
logged in for and the state of its backend. A connection is logged in when a
client comes or when a session opens it; a message that is forwarded is worked
off by the backend, and a reply is one the backend has sent.
-/

namespace PgCluster

open Option

structure BackendConnection where
  login : PoolIdentity
  backend : Backend
deriving DecidableEq

structure Proxy where
  proxy : PooledProxy
  conns : Nat → BackendConnection

/-- A step of the sessions and the pool, what comes of the message if it forwards
one, and how many replies arrive along with the one it reads. Those are passed
on to the client and not looked at. -/
structure ProxyLabel where
  pooled : PooledLabel
  outcome : Outcome := ⟨.idle, false, false⟩
  along : Nat := 0
deriving DecidableEq

namespace ProxyClient

/-- What a step of a session does to its connection, or to the one it opens. -/
def connsAfter (s : ProxyClient) (fresh : Nat) (conns : Nat → BackendConnection) (o : Outcome)
    (along : Nat) : ClientLabel → Nat → BackendConnection
  | .opened true =>
    match s.phase with
    | .opening _ nodeId addr => Function.update conns fresh ⟨s.identity nodeId addr, .fresh⟩
    | _ => conns
  | .forward =>
    match s.phase, s.current with
    | .holding m, some held =>
      let conn := conns held.conn
      Function.update conns held.conn { conn with backend := conn.backend.receive m o }
    | _, _ => conns
  | .reply _ _ =>
    match s.current with
    | some held =>
      let conn := conns held.conn
      Function.update conns held.conn
        { conn with backend.replies := conn.backend.replies.drop (along + 1) }
    | none => conns
  | _ => conns

theorem connsAfter_of_ne {s : ProxyClient} {fresh along c : Nat} {conns : Nat → BackendConnection}
    {o : Outcome} (hfresh : c ≠ fresh) (hconn : s.conn ≠ some c) (l : ClientLabel) :
    s.connsAfter fresh conns o along l c = conns c := by
  have hne {held : HeldBackend} (hheld : s.current = some held) : c ≠ held.conn := by
    rintro rfl
    exact hconn (conn_of_current hheld)
  unfold connsAfter
  split
  · cases s.phase with
    | opening => exact Function.update_of_ne hfresh _ _
    | _ => rfl
  · cases s.phase with
    | holding =>
      cases hheld : s.current with
      | none => rfl
      | some => exact Function.update_of_ne (hne hheld) _ _
    | _ => rfl
  · cases hheld : s.current with
    | none => rfl
    | some => exact Function.update_of_ne (hne hheld) _ _
  · rfl

end ProxyClient

namespace Proxy

/-- The connection a session holds. -/
def held (p : Proxy) (i : Nat) : Option BackendConnection :=
  (p.proxy.clients[i]?.bind ProxyClient.current).map fun held => p.conns held.conn

/-- A reply that is read is the first the backend has sent. -/
def answers (p : Proxy) : PooledLabel → Bool
  | .client i (.reply r _) => (p.held i).any fun conn => conn.backend.replies.head? = some r
  | _ => true

section

variable {p : Proxy} {i : Nat} {s : ProxyClient} {h : HeldBackend} {r : Reply} {alive : Bool}
  (hs : p.proxy.clients[i]? = some s)
include hs

theorem held_of_current (hheld : s.current = some h) : p.held i = some (p.conns h.conn) := by
  rw [held, hs, bind_some, hheld, map_some]

theorem exists_reply (hheld : s.current = some h)
    (hanswers : p.answers (.client i (.reply r alive))) :
    ∃ rest, (p.conns h.conn).backend.replies = r :: rest := by
  rw [answers, held_of_current hs hheld, any_some] at hanswers
  exact List.head?_eq_some_iff.mp (of_decide_eq_true hanswers)

end

def connsAfter (p : Proxy) (l : ProxyLabel) : Nat → BackendConnection :=
  match l.pooled with
  | .login database user nodeId addr =>
    Function.update p.conns p.proxy.store.fresh ⟨⟨database, user, nodeId, addr⟩, .fresh⟩
  | .client i cl =>
    match p.proxy.clients[i]? with
    | some s => s.connsAfter p.proxy.store.fresh p.conns l.outcome l.along cl
    | none => p.conns
  | _ => p.conns

def step (max : Nat) (p : Proxy) (l : ProxyLabel) : Option Proxy :=
  if p.answers l.pooled then
    (p.proxy.step max l.pooled).map fun q => ⟨q, p.connsAfter l⟩
  else none

def machine (max : Nat) : Machine Proxy ProxyLabel where
  init := ⟨(PooledProxy.machine max).init, fun _ => ⟨⟨"", "", "", ""⟩, .fresh⟩⟩
  step := step max

/-- What holds of every idle connection (with its key) and of every session (with
its connection) is kept if each session's steps keep it and logins bring it. -/
theorem invariant {max : Nat} {G : Proxy → ProxyLabel → Prop}
    {P : String → BackendConnection → Prop} {S : Option BackendConnection → ProxyClient → Prop}
    {p : Proxy} (hr : (machine max).Reaches G p)
    (hlogin : ∀ (p : Proxy) (x : PoolIdentity) o along,
      G p ⟨.login x.database x.user x.nodeId x.addr, o, along⟩ → S (some ⟨x, .fresh⟩)
        ⟨x.database, x.user, none, .idle, .donating p.proxy.store.fresh x.nodeId x.addr⟩)
    (hclient : ∀ (p : Proxy) i s l o along st s',
      (PooledProxy.machine max).Reachable p.proxy → G p ⟨.client i l, o, along⟩ →
      p.answers (.client i l) → p.proxy.clients[i]? = some s →
      (∀ key, ∀ c ∈ p.proxy.pools.idleAt key, P key (p.conns c)) → S (s.conn.map p.conns) s →
      s.Moves max p.proxy.store l st s' →
      Brings P (s.connsAfter p.proxy.store.fresh p.conns o along l) p.proxy.pools st.pools ∧
        S (s'.conn.map (s.connsAfter p.proxy.store.fresh p.conns o along l)) s') :
    Records P (fun _ : Unit => S) max p.proxy p.conns fun _ => () := by
  refine hr.invariant (I := fun p => Records P (fun _ : Unit => S) max p.proxy p.conns fun _ => ())
    .init ?_
  rintro p ⟨l, o, along⟩ _ h hG hstep
  obtain ⟨hanswers, hstep⟩ := ite_none_right_eq_some.mp hstep
  obtain ⟨q, hq, rfl⟩ := map_eq_some_iff.mp hstep
  refine h.step hq (fun c hfresh hc => ?_) (fun _ _ _ => rfl) ?_ ?_
  · unfold connsAfter
    split
    · exact Function.update_of_ne hfresh _ _
    · rename_i i cl hl
      split
      · rename_i s hs
        refine ProxyClient.connsAfter_of_ne hfresh (fun hconn => hc i cl hl ?_) cl
        rw [PooledProxy.held_of_getElem? hs, hconn]
      · rfl
    · rfl
  · rintro x rfl
    simp only [connsAfter, Function.update_self]
    exact hlogin p x o along hG
  · rintro i cl s store s' rfl hs hmove
    simp only [connsAfter, hs]
    exact hclient p i s cl o along store s' h.reachable hG hanswers hs h.idle (h.clients i s hs)
      hmove

end Proxy

end PgCluster
