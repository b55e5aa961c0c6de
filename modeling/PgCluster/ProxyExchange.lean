import Mathlib.Data.Finset.Basic
import PgCluster.ProxyConnections

/-!
# One client's exchange through the proxy

The message loop of `proxy/connection.rs` for one client, with everything the
backend sends in order: the replies the proxy looks for (`ReadyForQuery` and
`CopyInResponse`), and all others, of which only their place in the stream
matters. `pipe_until_ready_for_query` passes the stream on message by message
and ends at the first reply it looks for; what came in the same read is
passed on with it. The loop's own `ErrorResponse`s, the messages it reads and
forwards, and the end of the connection are recorded with them, in order.

The router's choice and the outcome of `acquire` come with the labels. A
connection that is acquired is as it was after login. The sessions of
`ProxyConnections` take the same steps: they have the pool, and the exchange
what is on the wire.
-/

namespace PgCluster

open List
open Backend (runQuery reply finish receiveSync receiveCopyData receiveCopyEnd receiveExtended skip)
open BackendMode (copying)

/-! ## The backend's end -/

inductive Output where
  | other
  | reply (r : Reply)
deriving DecidableEq

/-- A backend, and what it has sent and the proxy has not read. -/
structure Wire where
  backend : Backend
  unread : List Output
deriving DecidableEq

/-- Whether a message can make the backend send anything besides the replies the
proxy looks for: rows, an error, an acknowledgement. What it skips or ignores
is not answered. -/
def Backend.speaks (b : Backend) (m : FrontendMessage) (o : Outcome) : Bool :=
  match m with
  | .query | .parse | .bind | .execute | .describe | .close => b.mode ≠ .skipToSync
  | .copyData => b.mode.copying && o.fails
  | .copyDone | .copyFail => b.mode.copying
  | .sync | .flush | .terminate | .passwordMessage | .startupMessage => false

namespace Wire

def fresh : Wire := ⟨.fresh, []⟩

/-- The backend works off a message and answers, `others` first. -/
def receive (w : Wire) (m : FrontendMessage) (o : Outcome) (others : Nat) : Wire :=
  let b := Backend.receive { w.backend with replies := [] } m o
  { backend := { b with replies := [] }
    unread := w.unread ++ (List.replicate others .other ++ b.replies.map .reply) }

/-- Nothing the proxy looks for is unread. -/
def silent (w : Wire) : Bool := w.unread.all (· = .other)

end Wire

namespace FrontendMessage

/-- The messages that go to a backend. -/
def travels : FrontendMessage → Bool
  | .terminate | .passwordMessage | .startupMessage => false
  | _ => true

def wantsReady (m : FrontendMessage) : Bool := m = .query || m = .sync

end FrontendMessage

/-! ## The session -/

/-- At the top of the loop, inside `acquire`, with a message to forward, waiting
for the backend, or gone. -/
inductive ExchangePhase where
  | reading
  | seeking (m : FrontendMessage)
  | holding (m : FrontendMessage)
  | waiting
  | closed
deriving DecidableEq

/-- What the router says to a session without a backend. -/
inductive BackendChoice where
  | draining
  | unavailable
  | found
deriving DecidableEq

def BackendChoice.route (x : PoolIdentity) : BackendChoice → ProxyRoute
  | .draining => .draining
  | .unavailable => .unavailable
  | .found => .backend x.nodeId x.addr

/-- The proxy read a message, answered it with an error of its own, forwarded it,
passed something on to the client, or closed the connection. -/
inductive ExchangeEvent where
  | read (m : FrontendMessage)
  | proxyError (m : FrontendMessage)
  | forwarded (m : FrontendMessage)
  | output (x : Output)
  | closed
deriving DecidableEq

structure Exchange where
  phase : ExchangePhase
  current : Option Wire
  txnState : TxnState
  log : List ExchangeEvent
deriving DecidableEq

inductive ExchangeLabel where
  | read (m : FrontendMessage) (quorum : Bool) (choice : BackendChoice)
  | acquired (ok : Bool)
  | forward (o : Outcome) (others : Nat)
  | pass (along : Nat)
  | disconnect
  | ioError
deriving DecidableEq

namespace Exchange

def logs (e : Exchange) (events : List ExchangeEvent) : Exchange :=
  { e with log := e.log ++ events }

def close (e : Exchange) : Exchange :=
  { e.logs [.closed] with current := none, phase := .closed }

def onMessage (e : Exchange) (m : FrontendMessage) (choice : BackendChoice) : Option Exchange :=
  match m with
  | .terminate => some e.close
  | .passwordMessage | .startupMessage => some e
  | m =>
    if e.current.isSome then some { e with phase := .holding m }
    else
      match choice with
      | .found => some { e with phase := .seeking m }
      | .unavailable => some (e.logs [.proxyError m])
      | .draining => if m = .query then some e.close else none

/-- One message of the stream is passed on. At a reply the proxy looks for it stops
waiting, and gives the connection back if the status is idle. -/
def onOutput (e : Exchange) (w : Wire) (x : Output) (rest : List Output) (along : Nat) : Exchange :=
  match x with
  | .other => { e.logs [.output .other] with current := some { w with unread := rest } }
  | .reply r =>
    let txn := TxnState.ofStatusByte r.status
    { e.logs (.output (.reply r) :: (rest.take along).map .output) with
      current := if txn = .idle then none else some { w with unread := rest.drop along }
      txnState := txn
      phase := .reading }

/-- One step of the loop. Whatever its last session did, a connection that is
acquired is `fresh`, as after login: no transaction, and nothing unread. -/
def step (e : Exchange) (l : ExchangeLabel) : Option Exchange :=
  match e.phase, l with
  | .reading, .read m quorum choice =>
    if quorum || m = .terminate then (e.logs [.read m]).onMessage m choice
    else some (e.logs [.read m]).close
  | .reading, .disconnect => some e.close
  | .seeking m, .acquired true => some { e with current := some .fresh, phase := .holding m }
  | .seeking m, .acquired false => some { e.logs [.proxyError m] with phase := .reading }
  | .holding m, .forward o others =>
    e.current.bind fun w =>
      if others = 0 ∨ w.backend.speaks m o = true then
        some { e.logs [.forwarded m] with
          current := some (w.receive m o others)
          phase := if m.waitsAfter then .waiting else .reading }
      else none
  | .waiting, .pass along =>
    e.current.bind fun w =>
      match w.unread with
      | [] => none
      | x :: rest => some (e.onOutput w x rest along)
  | .reading, .ioError | .holding _, .ioError | .waiting, .ioError => some e.close
  | _, _ => none

/-- A session at the start of the loop. -/
def start : Exchange := ⟨.reading, none, .idle, []⟩

def machine : Machine Exchange ExchangeLabel where
  init := start
  step := step

/-- What a step can do. -/
inductive Moves (e : Exchange) : ExchangeLabel → Exchange → Prop where
  | refuse (m : FrontendMessage) (quorum : Bool) (choice : BackendChoice)
      (hphase : e.phase = .reading) :
      Moves e (.read m quorum choice) (e.logs [.read m]).close
  | ignore (m : FrontendMessage) (choice : BackendChoice) (hphase : e.phase = .reading)
      (hm : m = .passwordMessage ∨ m = .startupMessage) :
      Moves e (.read m true choice) (e.logs [.read m])
  | stay (m : FrontendMessage) (choice : BackendChoice) (w : Wire) (hphase : e.phase = .reading)
      (hw : e.current = some w) (hm : m.travels = true) :
      Moves e (.read m true choice) { e.logs [.read m] with phase := .holding m }
  | seek (m : FrontendMessage) (hphase : e.phase = .reading) (hfree : e.current = none)
      (hm : m.travels = true) :
      Moves e (.read m true .found) { e.logs [.read m] with phase := .seeking m }
  | unavailable (m : FrontendMessage) (hphase : e.phase = .reading) (hfree : e.current = none)
      (hm : m.travels = true) :
      Moves e (.read m true .unavailable) ((e.logs [.read m]).logs [.proxyError m])
  | hangUp (l : ExchangeLabel) (hl : l = .disconnect ∨ l = .ioError) (hopen : e.phase ≠ .closed) :
      Moves e l e.close
  | acquire (m : FrontendMessage) (hphase : e.phase = .seeking m) :
      Moves e (.acquired true) { e with current := some .fresh, phase := .holding m }
  | failed (m : FrontendMessage) (hphase : e.phase = .seeking m) :
      Moves e (.acquired false) { e.logs [.proxyError m] with phase := .reading }
  | forward (m : FrontendMessage) (o : Outcome) (others : Nat) (w : Wire)
      (hphase : e.phase = .holding m) (hw : e.current = some w)
      (hothers : others = 0 ∨ w.backend.speaks m o = true) :
      Moves e (.forward o others) { e.logs [.forwarded m] with
        current := some (w.receive m o others)
        phase := if m.waitsAfter then .waiting else .reading }
  | pass (along : Nat) (w : Wire) (x : Output) (rest : List Output) (hphase : e.phase = .waiting)
      (hw : e.current = some w) (hunread : w.unread = x :: rest) :
      Moves e (.pass along) (e.onOutput w x rest along)

variable {e e' : Exchange} {l : ExchangeLabel}

theorem onMessage_moves {m : FrontendMessage} {quorum : Bool} {choice : BackendChoice}
    (hphase : e.phase = .reading) (hquorum : (quorum || m = .terminate))
    (h : (e.logs [.read m]).onMessage m choice = some e') : Moves e (.read m quorum choice) e' := by
  have hquorum : quorum ∨ m = .terminate := by simpa using hquorum
  unfold onMessage at h
  split at h
  · cases h
    exact .refuse _ _ _ hphase
  · obtain rfl : quorum := hquorum.resolve_right nofun
    cases h
    exact .ignore _ _ hphase (.inl rfl)
  · obtain rfl : quorum := hquorum.resolve_right nofun
    cases h
    exact .ignore _ _ hphase (.inr rfl)
  · rename_i hterminate _ _
    obtain rfl : quorum := hquorum.resolve_right hterminate
    have hm : m.travels := by
      unfold FrontendMessage.travels
      split <;> first | rfl | contradiction
    split at h
    · rename_i hcurrent
      obtain ⟨w, hw⟩ := Option.isSome_iff_exists.mp hcurrent
      cases h
      exact .stay _ _ w hphase hw hm
    · rename_i hcurrent
      have hfree : e.current = none := by simpa [logs] using hcurrent
      split at h
      · cases h
        exact .seek _ hphase hfree hm
      · cases h
        exact .unavailable _ hphase hfree hm
      · obtain ⟨-, h⟩ := Option.ite_none_right_eq_some.mp h
        cases h
        exact .refuse _ _ _ hphase

theorem moves_of_step (h : e.step l = some e') : Moves e l e' := by
  unfold step at h
  split at h
  · rename_i m _ _ hphase
    split at h
    · rename_i hquorum
      exact onMessage_moves hphase hquorum h
    · cases h
      exact .refuse _ _ _ hphase
  · rename_i hphase
    cases h
    exact .hangUp _ (.inl rfl) (by rw [hphase]; exact nofun)
  · rename_i m hphase
    cases h
    exact .acquire m hphase
  · rename_i m hphase
    cases h
    exact .failed m hphase
  · rename_i m o others hphase
    obtain ⟨w, hw, h⟩ := Option.bind_eq_some_iff.mp h
    obtain ⟨hothers, h⟩ := Option.ite_none_right_eq_some.mp h
    cases h
    exact .forward m o others w hphase hw hothers
  · rename_i along hphase
    obtain ⟨w, hw, h⟩ := Option.bind_eq_some_iff.mp h
    split at h
    · cases h
    · rename_i x rest hunread
      cases h
      exact .pass along w x rest hphase hw hunread
  · rename_i hphase
    cases h
    exact .hangUp _ (.inr rfl) (by rw [hphase]; exact nofun)
  · rename_i m hphase
    cases h
    exact .hangUp _ (.inr rfl) (by rw [hphase]; exact nofun)
  · rename_i hphase
    cases h
    exact .hangUp _ (.inr rfl) (by rw [hphase]; exact nofun)
  · cases h

/-! ## The session of an exchange -/

/-- The session in the pool, for one identity and on connections with one number. -/
def session (x : PoolIdentity) (conn : Nat) (e : Exchange) : ProxyClient where
  database := x.database
  user := x.user
  current := e.current.map fun _ => ⟨conn, x.nodeId, x.addr⟩
  txnState := e.txnState
  phase := match e.phase with
    | .reading => .reading
    | .seeking m => .acquiring m x.nodeId x.addr
    | .holding m => .holding m
    | .waiting => .waiting
    | .closed => .closed

/-- What the session does for a step of the exchange. -/
def sessionLabels (x : PoolIdentity) (e : Exchange) : ExchangeLabel → List ClientLabel
  | .read m quorum choice => [.read m quorum (choice.route x) true]
  | .acquired ok => [.takeIdle 0, .check, .reserve, .opened ok]
  | .forward _ _ => [.forward]
  | .pass _ => match e.current.bind (·.unread.head?) with
    | some (.reply r) => [.reply r true]
    | _ => []
  | .disconnect => [.disconnect true]
  | .ioError => [.ioError]

/-- Steps of a session, between which others may change the pool. -/
def Takes : List ClientLabel → ProxyClient → ProxyClient → Prop
  | [], s, s' => s = s'
  | l :: ls, s, s' => ∃ max st st' s₁, s.step max st l = some (st', s₁) ∧ Takes ls s₁ s'

variable {x : PoolIdentity} {conn : Nat}

theorem Takes.cons {s s₁ s' : ProxyClient} {st' : PoolStore} {l : ClientLabel}
    {ls : List ClientLabel} (st : PoolStore) (hstep : s.step 1 st l = some (st', s₁))
    (h : Takes ls s₁ s') : Takes (l :: ls) s s' :=
  ⟨1, st, st', s₁, hstep, h⟩

theorem Takes.append : ∀ {ls ls' : List ClientLabel} {s s' s'' : ProxyClient},
    Takes ls s s' → Takes ls' s' s'' → Takes (ls ++ ls') s s''
  | [], _, _, _, _, rfl, h' => h'
  | _ :: _, _, _, _, _, ⟨max, st, st', s₁, hstep, h⟩, h' => ⟨max, st, st', s₁, hstep, h.append h'⟩

theorem onMessage_session {m : FrontendMessage} {choice : BackendChoice} (st : PoolStore)
    (h : e.onMessage m choice = some e') :
    ∃ st', (e.session x conn).onMessage st m (choice.route x) true
      = some (st', e'.session x conn) := by
  unfold onMessage at h
  split at h
  · cases h
    exact ⟨_, rfl⟩
  · cases h
    exact ⟨_, rfl⟩
  · cases h
    exact ⟨_, rfl⟩
  · unfold ProxyClient.onMessage
    split
    any_goals contradiction
    split at h
    · rename_i hsome
      cases h
      exact ⟨_, if_pos (by simpa [session] using hsome)⟩
    · rename_i hnone
      rw [if_neg (by simpa [session] using hnone)]
      split at h
      · cases h
        exact ⟨_, rfl⟩
      · cases h
        exact ⟨_, rfl⟩
      · obtain ⟨hm, h⟩ := Option.ite_none_right_eq_some.mp h
        cases h
        exact ⟨_, if_pos hm⟩

/-- Every step of an exchange is what its session does in the pool. -/
theorem takes_of_step (h : e.step l = some e') :
    Takes (e.sessionLabels x l) (e.session x conn) (e'.session x conn) := by
  -- in an empty pool every connection is opened anew
  let st : PoolStore := ⟨∅, conn⟩
  obtain ⟨phase, current, txn, log⟩ := e
  unfold step at h
  split at h
  · rename_i m quorum choice hphase
    cases hphase
    cases quorum with
    | true =>
      obtain ⟨st', hon⟩ := onMessage_session st h
      exact .cons st hon rfl
    | false =>
      split at h
      · rename_i hm
        obtain rfl : m = .terminate := by simpa using hm
        cases h
        exact .cons st rfl rfl
      · cases h
        exact .cons st rfl rfl
  · rename_i hphase
    cases hphase
    cases h
    exact .cons st rfl rfl
  · rename_i m hphase
    cases hphase
    cases h
    exact .cons st rfl <| .cons st rfl <| .cons st rfl <| .cons st rfl rfl
  · rename_i m hphase
    cases hphase
    cases h
    exact .cons st rfl <| .cons st rfl <| .cons st rfl <| .cons st rfl rfl
  · rename_i m o others hphase
    cases hphase
    obtain ⟨w, hw, h⟩ := Option.bind_eq_some_iff.mp h
    obtain ⟨-, h⟩ := Option.ite_none_right_eq_some.mp h
    cases hw
    cases h
    cases m <;> exact .cons st rfl rfl
  · rename_i along hphase
    cases hphase
    obtain ⟨w, hw, h⟩ := Option.bind_eq_some_iff.mp h
    cases hw
    split at h
    · cases h
    · rename_i x rest hunread
      cases h
      simp only [sessionLabels, Option.bind_some, hunread, head?_cons]
      cases x with
      | other => rfl
      | reply r => rcases r with (_ | _ | _) | _ <;> exact .cons st rfl rfl
  · rename_i hphase
    cases hphase
    cases h
    exact .cons st rfl rfl
  · rename_i hphase
    cases hphase
    cases h
    exact .cons st rfl rfl
  · rename_i hphase
    cases hphase
    cases h
    exact .cons st rfl rfl
  · cases h

/-- So every exchange is that of a session in the pool. -/
theorem exists_takes (h : machine.Reachable e) :
    ∃ ls, Takes ls (start.session x conn) (e.session x conn) := by
  induction h with
  | init => exact ⟨[], rfl⟩
  | step _ _ hstep ih =>
    obtain ⟨ls, htakes⟩ := ih
    exact ⟨_, htakes.append (takes_of_step hstep)⟩

end Exchange

/-! ## What is unread between messages -/

namespace Wire

variable {w : Wire} {m : FrontendMessage} {o : Outcome} {others : Nat}

/-- Everything the proxy looks for was read, and no COPY is open. -/
structure Quiet (w : Wire) : Prop where
  silent : w.silent = true
  mode : w.backend.mode.copying = false

def EndsWith (w : Wire) (r : Reply) : Prop :=
  ∃ before : List Output, w.unread = before ++ [.reply r] ∧ ∀ x ∈ before, x = .other

/-- The reply to a query, a Sync or the end of a COPY is on its way, and the
backend is where the reply says. -/
structure Answers (w : Wire) (r : Reply) : Prop where
  ends : w.EndsWith r
  mode : w.backend.mode = if r = .copyIn then .simpleCopy else .normal

/-- A COPY of a simple query is open as far as the client knows. The backend may
have given it up after data it could not use. -/
def Copying (w : Wire) : Prop :=
  (w.silent = true ∧ w.backend.mode = .simpleCopy) ∨ ∃ st, w.Answers (.ready st)

theorem quiet_fresh : Wire.fresh.Quiet := ⟨rfl, rfl⟩

theorem not_copying_fresh : ¬ Wire.fresh.Copying := by
  rintro (⟨-, hmode⟩ | ⟨_, hanswers⟩)
  · cases hmode
  · obtain ⟨before, hends, -⟩ := hanswers.ends
    cases before <;> cases hends

theorem silent_iff : w.silent ↔ ∀ x ∈ w.unread, x = .other := by
  simp [silent]

theorem receive_silent (h : w.silent)
    (hreplies : (Backend.receive { w.backend with replies := [] } m o).replies = []) :
    (w.receive m o others).silent := by
  rw [silent_iff] at h ⊢
  intro x hx
  rw [receive, hreplies, map_nil, append_nil] at hx
  rcases mem_append.mp hx with hold | hnew
  · exact h x hold
  · exact eq_of_mem_replicate hnew

theorem receive_endsWith {r : Reply} (h : w.silent)
    (hreplies : (Backend.receive { w.backend with replies := [] } m o).replies = [r]) :
    (w.receive m o others).EndsWith r := by
  rw [silent_iff] at h
  refine ⟨w.unread ++ List.replicate others .other, ?_, fun x hx => ?_⟩
  · rw [receive, hreplies, map_singleton, append_assoc]
  · rcases mem_append.mp hx with hold | hnew
    · exact h x hold
    · exact eq_of_mem_replicate hnew

/-- What the proxy reads after a reply was passed on, with nothing behind it. -/
theorem Answers.rest {r : Reply} {x : Output} {rest : List Output} (h : w.Answers r)
    (hunread : w.unread = x :: rest) :
    (x = .reply r ∧ rest = []) ∨ (x = .other ∧ Answers { w with unread := rest } r) := by
  obtain ⟨before, hends, hothers⟩ := h.ends
  rw [hunread] at hends
  cases before with
  | nil =>
    obtain ⟨rfl, rfl⟩ := List.cons.inj hends
    exact .inl ⟨rfl, rfl⟩
  | cons y before =>
    obtain ⟨rfl, rfl⟩ := List.cons.inj hends
    exact .inr ⟨hothers x mem_cons_self,
      ⟨before, rfl, fun y hy => hothers y (mem_cons_of_mem _ hy)⟩, h.mode⟩

/-- The reply to a query, or to the end of a COPY in it. -/
def queryReply (o : Outcome) : Reply := if o.copies then .copyIn else .ready o.txn

theorem receive_runQuery (hsilent : w.silent)
    (hrun : Backend.receive { w.backend with replies := [] } m o =
      runQuery { w.backend with replies := [] } o) :
    (w.receive m o others).Answers (queryReply o) := by
  cases hcopies : o.copies with
  | true =>
    refine ⟨receive_endsWith hsilent ?_, ?_⟩
    · simp [hrun, runQuery, hcopies, reply, queryReply]
    · simp [receive, hrun, runQuery, hcopies, reply, queryReply]
  | false =>
    refine ⟨receive_endsWith hsilent ?_, ?_⟩
    · simp [hrun, runQuery, hcopies, finish, reply, queryReply]
    · simp [receive, hrun, runQuery, hcopies, finish, reply, queryReply]

theorem receive_query (hsilent : w.silent) (hmode : w.backend.mode = .normal) :
    (w.receive .query o others).Answers (queryReply o) :=
  receive_runQuery hsilent (by simp [Backend.receive, Backend.receiveQuery, hmode])

theorem Quiet.receive_sync (h : w.Quiet) :
    ∃ st, (w.receive .sync o others).Answers (.ready st) := by
  refine ⟨w.backend.txn, receive_endsWith h.silent ?_, ?_⟩
  · simp [Backend.receive, receiveSync, h.mode, reply]
  · simp [receive, Backend.receive, receiveSync, h.mode, reply]

/-- A backend that has given a COPY up ignores the rest of it. -/
theorem Answers.receive_ignored {st : TxnState} (h : w.Answers (.ready st)) (hm : m.isCopy)
    (hothers : others = 0 ∨ w.backend.speaks m o) : (w.receive m o others).Answers (.ready st) := by
  have hmode : w.backend.mode = .normal := h.mode
  have hreceive : Backend.receive { w.backend with replies := [] } m o =
      { w.backend with replies := [] } := by
    cases m with
    | copyData => simp [Backend.receive, receiveCopyData, hmode]
    | copyDone | copyFail => simp [Backend.receive, receiveCopyEnd, hmode]
    | _ => exact absurd hm Bool.false_ne_true
  have hsilent : w.backend.speaks m o = false := by
    cases m with
    | copyData | copyDone | copyFail => simp [Backend.speaks, hmode, copying]
    | _ => exact absurd hm Bool.false_ne_true
  obtain rfl : others = 0 := hothers.resolve_right (by simp [hsilent])
  have hunread : (w.receive m o 0).unread = w.unread := by simp [receive, hreceive]
  have hback : (w.receive m o 0).backend.mode = w.backend.mode := by simp [receive, hreceive]
  exact ⟨by rw [EndsWith, hunread]; exact h.ends, by rw [hback]; exact h.mode⟩

theorem Copying.receive_copyEnd (h : w.Copying) (hm : m = .copyDone ∨ m = .copyFail)
    (hothers : others = 0 ∨ w.backend.speaks m o) : ∃ r, (w.receive m o others).Answers r := by
  rcases h with ⟨hsilent, hmode⟩ | ⟨_, hanswers⟩
  · refine ⟨_, receive_runQuery hsilent ?_⟩
    rcases hm with rfl | rfl <;> simp [Backend.receive, receiveCopyEnd, hmode]
  · exact ⟨_, hanswers.receive_ignored (by rcases hm with rfl | rfl <;> rfl) hothers⟩

theorem Copying.receive_copyData (h : w.Copying)
    (hothers : others = 0 ∨ w.backend.speaks .copyData o) :
    (w.receive .copyData o others).Copying := by
  rcases h with ⟨hsilent, hmode⟩ | ⟨st, hanswers⟩
  · cases hfails : o.fails with
    | true =>
      refine .inr ⟨o.txn, receive_endsWith hsilent ?_, ?_⟩
      · simp [Backend.receive, receiveCopyData, hmode, hfails, finish, reply]
      · simp [receive, Backend.receive, receiveCopyData, hmode, hfails, finish, reply]
    | false =>
      refine .inl ⟨receive_silent hsilent ?_, ?_⟩
      · simp [Backend.receive, receiveCopyData, hmode, hfails]
      · simp [receive, Backend.receive, receiveCopyData, hmode, hfails]
  · exact .inr ⟨st, hanswers.receive_ignored rfl hothers⟩

theorem mode_of_not_copying {mode : BackendMode} (h : mode.copying = false) :
    mode = .normal ∨ mode = .skipToSync := by
  cases mode with
  | normal => exact .inl rfl
  | skipToSync => exact .inr rfl
  | simpleCopy | extendedCopy => cases h

theorem Quiet.receive_copyData (h : w.Quiet) : (w.receive .copyData o others).Quiet := by
  rcases mode_of_not_copying h.mode with hmode | hmode
  all_goals
    refine ⟨receive_silent h.silent ?_, ?_⟩
    · simp [Backend.receive, receiveCopyData, hmode]
    · simp [receive, Backend.receive, receiveCopyData, hmode, copying]

/-- The messages of a pipeline are not answered by what the proxy looks for, unless
one of them starts a COPY. -/
theorem Quiet.receive_extended (h : w.Quiet)
    (hm : ∀ b : Backend, b.receive m o = b.receiveExtended m o)
    (hcopies : m = .execute → o.copies = false) : (w.receive m o others).Quiet := by
  have hrun : ¬ (m = .execute ∧ o.copies) := by
    rintro ⟨hexecute, hcopy⟩
    rw [hcopies hexecute] at hcopy
    cases hcopy
  rcases mode_of_not_copying h.mode with hmode | hmode
  · cases hfails : o.fails with
    | true =>
      refine ⟨receive_silent h.silent ?_, ?_⟩
      · simp [hm, receiveExtended, hmode, hfails, skip]
      · simp [receive, hm, receiveExtended, hmode, hfails, skip, copying]
    | false =>
      refine ⟨receive_silent h.silent ?_, ?_⟩
      · simp [hm, receiveExtended, hmode, hfails, hrun]
      · simp [receive, hm, receiveExtended, hmode, hfails, hrun, copying]
  · refine ⟨receive_silent h.silent ?_, ?_⟩
    · simp [hm, receiveExtended, hmode]
    · simp [receive, hm, receiveExtended, hmode, copying]

end Wire

end PgCluster
