import PgCluster.ProxyExchange

/-!
# Client, proxy and backend

Who waits for whom. The client sends what the protocol lets it send and may
run ahead of the replies; the proxy is the loop of `ProxyExchange`, which
reads from the client or from the backend, never from both; the backend works
off a message when it is forwarded.

The proxy waits for the backend after Query, Sync and the end of a COPY only.
That is too little after a Flush, whose replies stay unread, and too much at
the end of a COPY in the extended protocol, where the backend speaks only
after the Sync that the proxy does not read. A client that uses neither is
never left waiting on the proxy, nor the proxy on the backend
(`exchange_never_stuck`).
-/

namespace PgCluster

open List Option

/-! ## A conforming client -/

/-- A message, and whether the statement in it is a COPY FROM STDIN. -/
structure SentMessage where
  message : FrontendMessage
  copies : Bool := false
deriving DecidableEq

/-- Where a client is in the protocol: between messages, with or without messages
sent since the last Sync; having asked for a COPY, and having sent Syncs that
an open COPY will swallow; sending data; or gone. -/
inductive ClientStage where
  | normal (unsynced : Bool)
  | asked (extended : Bool) (swallowed : Nat)
  | copying (extended : Bool)
  | ended
deriving DecidableEq

namespace ClientStage

/-- The messages the protocol allows, and where they lead. -/
def next : ClientStage → SentMessage → Option ClientStage
  | .normal unsynced, msg =>
    match msg.message with
    | .query =>
      if unsynced then none else some (if msg.copies then .asked false 0 else .normal false)
    | .execute => some (if msg.copies then .asked true 0 else .normal true)
    | .parse | .bind | .describe | .close | .flush => some (.normal true)
    | .sync => some (.normal false)
    | .terminate => some .ended
    | .copyData | .copyDone | .copyFail | .passwordMessage | .startupMessage => none
  | .asked true swallowed, msg =>
    match msg.message with
    | .sync => some (.asked true (swallowed + 1))
    | .flush => some (.asked true swallowed)
    | _ => none
  | .copying extended, msg =>
    match msg.message with
    | .copyData => some (.copying extended)
    | .copyDone | .copyFail => some (if extended then .normal true else .asked false 0)
    | _ => none
  | .asked false _, _ | .ended, _ => none

def run (stage : ClientStage) (msgs : List SentMessage) : Option ClientStage :=
  msgs.foldlM next stage

end ClientStage

/-- `due` counts the `ReadyForQuery`s to come, and `flushed` says that the last
message was a Flush whose replies have not begun to arrive. -/
structure ExchangeClient where
  stage : ClientStage
  due : Nat
  flushed : Bool
deriving DecidableEq

namespace ExchangeClient

def sends (c : ExchangeClient) (msg : SentMessage) (stage : ClientStage) : ExchangeClient where
  stage := stage
  due := c.due + if msg.message.wantsReady then 1 else 0
  flushed := msg.message = .flush

/-- What the proxy passes on. A `CopyInResponse` begins the COPY that was asked for,
and the last `ReadyForQuery` that is due ends it. -/
def sees (c : ExchangeClient) : ExchangeEvent → ExchangeClient
  | .output .other => { c with flushed := false }
  | .output (.reply .copyIn) =>
    match c.stage with
    | .asked extended swallowed => ⟨.copying extended, c.due - swallowed, false⟩
    | _ => { c with flushed := false }
  | .output (.reply (.ready _)) =>
    match c.stage with
    | .asked _ _ => ⟨if c.due ≤ 1 then .normal false else c.stage, c.due - 1, false⟩
    | _ => ⟨c.stage, c.due - 1, false⟩
  | _ => c

/-- The client has no more to send before something arrives. -/
def waits (c : ExchangeClient) : Bool :=
  c.flushed || match c.stage with
    | .normal false => 0 < c.due
    | .asked _ _ => true
    | _ => false

end ExchangeClient

/-! ## The three together -/

/-- `inbox` is what the client has sent and the proxy has not read, and `inHand`
whether the message read last is a COPY. -/
structure DuplexExchange where
  exchange : Exchange
  inbox : List SentMessage
  inHand : Bool
  client : ExchangeClient
deriving DecidableEq

inductive DuplexLabel where
  | send (msg : SentMessage)
  | proxy (l : ExchangeLabel)
deriving DecidableEq

variable {stage stage' : ClientStage}

namespace DuplexExchange

/-- The loop moves, and the client gets what was passed on. -/
def moveTo (s : DuplexExchange) (e : Exchange) : DuplexExchange :=
  { s with
    exchange := e
    client := (e.log.drop s.exchange.log.length).foldl ExchangeClient.sees s.client }

/-- The proxy reads what the client sent first, and only a COPY statement opens a
COPY. -/
def step (s : DuplexExchange) : DuplexLabel → Option DuplexExchange
  | .send msg =>
    (s.client.stage.next msg).map fun stage =>
      { s with inbox := s.inbox ++ [msg], client := s.client.sends msg stage }
  | .proxy (.read m quorum choice) =>
    match s.inbox with
    | [] => none
    | msg :: rest =>
      if msg.message = m then
        (s.exchange.step (.read m quorum choice)).map fun e =>
          { s.moveTo e with inbox := rest, inHand := msg.copies }
      else none
  | .proxy (.forward o others) =>
    if o.copies && !s.inHand then none else (s.exchange.step (.forward o others)).map s.moveTo
  | .proxy l => (s.exchange.step l).map s.moveTo

def machine : Machine DuplexExchange DuplexLabel where
  init := ⟨.start, [], false, ⟨.normal false, 0, false⟩⟩
  step := step

/-- The proxy waits for a reply when the backend has none to send before the next
message; or it waits for the client while the client waits for output that is
unread. -/
def Stuck (s : DuplexExchange) : Prop :=
  (s.exchange.phase = .waiting ∧ ∃ w, s.exchange.current = some w ∧ w.silent = true) ∨
    (s.exchange.phase = .reading ∧ s.inbox = [] ∧ s.client.waits = true ∧
      ∃ w, s.exchange.current = some w ∧ w.unread ≠ [])

instance (s : DuplexExchange) : Decidable s.Stuck :=
  decidable_of_iff ((s.exchange.phase = .waiting ∧ s.exchange.current.any Wire.silent = true) ∨
      (s.exchange.phase = .reading ∧ s.inbox = [] ∧ s.client.waits = true ∧
        s.exchange.current.any (fun w => decide (w.unread ≠ [])) = true))
    (by simp only [Stuck, Option.any_eq_true, decide_eq_true_eq])

/-- The client sends no Flush, and no COPY in the extended protocol. -/
def plain : DuplexLabel → Bool
  | .send msg => msg.message ≠ .flush && !(msg.message = .execute && msg.copies)
  | .proxy _ => true

/-! ## Where the three are -/

/-- A message in hand, the connection it goes to, and where the client was after
sending it. -/
inductive Takes (copies : Bool) : FrontendMessage → Wire → ClientStage → Prop where
  | query (w : Wire) (hsilent : w.silent = true) (hmode : w.backend.mode = .normal) :
      Takes copies .query w (if copies then .asked false 0 else .normal false)
  | sync (w : Wire) (hquiet : w.Quiet) : Takes copies .sync w (.normal false)
  | extended (m : FrontendMessage) (w : Wire)
      (hm : ∀ (b : Backend) (o : Outcome), b.receive m o = b.receiveExtended m o)
      (hwaits : m.waitsAfter = false) (hcopies : m = .execute → copies = false)
      (hquiet : w.Quiet) : Takes copies m w (.normal true)
  | copyData (w : Wire) (hw : w.Copying) : Takes copies .copyData w (.copying false)
  | copyEnd (m : FrontendMessage) (w : Wire) (hm : m = .copyDone ∨ m = .copyFail)
      (hw : w.Copying) : Takes copies m w (.asked false 0)

/-- Between pipelines everything was read. -/
def Settled (unsynced : Bool) (w : Wire) : Prop :=
  w.Quiet ∧ (unsynced = false → w.backend.mode = .normal ∧ w.unread = [])

/-- Where the loop and its connection are when the messages read so far have brought
the client to a stage. -/
inductive At (copies : Bool) : ExchangePhase → Option Wire → ClientStage → Prop where
  | idle (unsynced : Bool) (current : Option Wire)
      (h : ∀ w, current = some w → Settled unsynced w) :
      At copies .reading current (.normal unsynced)
  | copying (w : Wire) (hw : w.Copying) : At copies .reading (some w) (.copying false)
  | seeking (m : FrontendMessage) (stage : ClientStage) (h : Takes copies m .fresh stage) :
      At copies (.seeking m) none stage
  | holding (m : FrontendMessage) (w : Wire) (stage : ClientStage) (h : Takes copies m w stage) :
      At copies (.holding m) (some w) stage
  | waiting (w : Wire) (r : Reply) (stage : ClientStage) (hw : w.Answers r)
      (hstage : stage = .asked false 0 ∨ stage = .normal false ∧ r ≠ .copyIn) :
      At copies .waiting (some w) stage
  | closed (stage : ClientStage) : At copies .closed none stage

variable {current : Option Wire}

theorem quiet_of_settled {unsynced : Bool}
    (h : ∀ w, current = some w → Settled unsynced w) : (current.getD .fresh).Quiet := by
  cases current with
  | none => exact Wire.quiet_fresh
  | some w => exact (h w rfl).1

variable {stage : ClientStage} {copies : Bool} {msg : SentMessage} {w : Wire} {m : FrontendMessage}
  {msgs : List SentMessage} {n others along : Nat} {rest : List SentMessage}

theorem At.read (h : At copies .reading current stage)
    (hnext : stage.next msg = some stage') (hplain : plain (.send msg))
    (htravels : msg.message.travels) :
    Takes msg.copies msg.message (current.getD .fresh) stage' := by
  obtain ⟨m, copies'⟩ := msg
  cases h with
  | idle unsynced current hsettled =>
    have hquiet : (current.getD .fresh).Quiet := quiet_of_settled hsettled
    cases m with
    | query =>
      obtain ⟨hsynced, hnext⟩ := ite_none_left_eq_some.mp hnext
      cases hnext
      have hsynced : unsynced = false := Bool.eq_false_of_not_eq_true hsynced
      have hmode : (current.getD .fresh).backend.mode = .normal := by
        cases current with
        | none => rfl
        | some w => exact ((hsettled w rfl).2 hsynced).1
      exact .query _ hquiet.silent hmode
    | execute =>
      obtain rfl : copies' = false := by simpa [plain] using hplain
      cases hnext
      exact .extended _ _ (fun _ _ => rfl) rfl (fun _ => rfl) hquiet
    | parse | bind | describe | close =>
      cases hnext
      exact .extended _ _ (fun _ _ => rfl) rfl nofun hquiet
    | flush => simp [plain] at hplain
    | sync =>
      cases hnext
      exact .sync _ hquiet
    | terminate => cases htravels
    | copyData | copyDone | copyFail | passwordMessage | startupMessage => cases hnext
  | copying w hw =>
    cases m with
    | copyData =>
      cases hnext
      exact .copyData w hw
    | copyDone =>
      cases hnext
      exact .copyEnd _ w (.inl rfl) hw
    | copyFail =>
      cases hnext
      exact .copyEnd _ w (.inr rfl) hw
    | query | parse | bind | execute | describe | sync | flush | close | terminate
    | passwordMessage | startupMessage => cases hnext

theorem Takes.forward {o : Outcome} (h : Takes copies m w stage)
    (hothers : others = 0 ∨ w.backend.speaks m o) (hcopies : o.copies → copies) :
    At copies (if m.waitsAfter then .waiting else .reading)
      (some (w.receive m o others)) stage := by
  cases h with
  | query _ hsilent hmode =>
    refine .waiting _ (Wire.queryReply o) _ (Wire.receive_query hsilent hmode) ?_
    cases copies with
    | true => exact .inl rfl
    | false =>
      have hplain : o.copies = false :=
        Bool.eq_false_of_not_eq_true fun h => Bool.false_ne_true (hcopies h)
      exact .inr ⟨rfl, by simp [Wire.queryReply, hplain]⟩
  | sync w hquiet =>
    obtain ⟨st, hst⟩ : ∃ st, (w.receive .sync o others).Answers (.ready st) := hquiet.receive_sync
    exact .waiting _ _ _ hst (.inr ⟨rfl, fun h => by cases h⟩)
  | extended _ _ hm hwaits hexecute hquiet =>
    rw [hwaits]
    refine .idle true _ ?_
    rintro _ ⟨⟩
    refine ⟨hquiet.receive_extended (fun b => hm b o) fun hm => ?_, fun h => by cases h⟩
    exact Bool.eq_false_of_not_eq_true fun h =>
      Bool.false_ne_true ((hexecute hm).symm.trans (hcopies h))
  | copyData _ hw => exact .copying _ (hw.receive_copyData hothers)
  | copyEnd m w hm hw =>
    obtain ⟨r, hr⟩ : ∃ r, (w.receive m o others).Answers r := hw.receive_copyEnd hm hothers
    have hwaits : m.waitsAfter := by rcases hm with rfl | rfl <;> rfl
    rw [hwaits]
    exact .waiting _ _ _ hr (.inl rfl)

/-! ## What the client has sent ahead -/

/-- The messages not read yet bring the client from the loop's stage to its own; or
the client has lost a `ReadyForQuery` to an error of the proxy and waits for
the end of a COPY that is over. -/
def Linked (phase : ExchangePhase) (stage : ClientStage) (inbox : List SentMessage)
    (clientStage : ClientStage) : Prop :=
  stage.run inbox = some clientStage ∨
    (phase = .reading ∨ phase = .closed) ∧ stage = .normal false ∧ inbox = [] ∧
      clientStage = .asked false 0

/-- The `ReadyForQuery` of the message the loop is at. -/
def owes (phase : ExchangePhase) (stage : ClientStage) : Nat :=
  match phase with
  | .seeking m | .holding m => if m.wantsReady then 1 else 0
  | .waiting => if stage = .normal false then 1 else 0
  | .reading | .closed => 0

def wanting (inbox : List SentMessage) : Nat := inbox.countP fun msg => msg.message.wantsReady

theorem wanting_cons (msg : SentMessage) (rest : List SentMessage) :
    wanting (msg :: rest) = wanting rest + if msg.message.wantsReady then 1 else 0 :=
  countP_cons

theorem run_asked (h : (ClientStage.asked false n).run msgs = some stage) :
    msgs = [] ∧ stage = .asked false n := by
  cases msgs with
  | nil => exact ⟨rfl, (Option.some.inj h).symm⟩
  | cons => cases h

theorem run_ended (h : ClientStage.ended.run msgs = some stage) : stage = .ended := by
  cases msgs with
  | nil => exact (Option.some.inj h).symm
  | cons => cases h

theorem run_cons (h : stage.run (msg :: rest) = some stage') :
    ∃ mid, stage.next msg = some mid ∧ mid.run rest = some stage' :=
  bind_eq_some_iff.mp h

theorem wanting_of_run {unsynced extended : Bool} (hplain : ∀ msg ∈ msgs, plain (.send msg))
    (h : (ClientStage.normal unsynced).run msgs = some (.asked extended n)) : 1 ≤ wanting msgs := by
  induction msgs generalizing unsynced with
  | nil => cases h
  | cons msg rest ih =>
    obtain ⟨_, hnext, hrun⟩ := run_cons h
    have hrest : ∀ msg ∈ rest, plain (.send msg) := fun msg hmsg =>
      hplain msg (mem_cons_of_mem _ hmsg)
    have hmsg := hplain msg mem_cons_self
    rw [wanting_cons]
    obtain ⟨m, copies⟩ := msg
    cases m with
    | query | sync => exact Nat.le_add_left _ _
    | execute =>
      obtain rfl : copies = false := by simpa [plain] using hmsg
      cases hnext
      exact (ih hrest hrun).trans (Nat.le_add_right _ _)
    | parse | bind | describe | close | flush =>
      cases hnext
      exact (ih hrest hrun).trans (Nat.le_add_right _ _)
    | terminate =>
      cases hnext
      cases run_ended hrun
    | copyData | copyDone | copyFail | passwordMessage | startupMessage => cases hnext

/-! ## No step gets stuck -/

/-- The loop, its connection, what is in the inbox and the client fit together. -/
structure InStep (s : DuplexExchange) : Prop where
  joined : ∃ stage, At s.inHand s.exchange.phase s.exchange.current stage ∧
    Linked s.exchange.phase stage s.inbox s.client.stage ∧
    wanting s.inbox + owes s.exchange.phase stage ≤ s.client.due
  flushed : s.client.flushed = false
  plain : ∀ msg ∈ s.inbox, plain (.send msg) = true

variable {s s' : DuplexExchange} {l : DuplexLabel} {e : Exchange} {inbox : List SentMessage}

theorem client_moveTo (events : List ExchangeEvent) (hlog : e.log = s.exchange.log ++ events) :
    (s.moveTo e).client = events.foldl ExchangeClient.sees s.client := by
  simp [moveTo, hlog]

theorem InStep.send (h : s.InStep)
    (hplain : DuplexExchange.plain (.send msg)) (hnext : s.client.stage.next msg = some stage') :
    InStep { s with inbox := s.inbox ++ [msg], client := s.client.sends msg stage' } := by
  obtain ⟨stage, hat, hlinked, _⟩ := h.joined
  refine ⟨⟨stage, hat, .inl ?_, ?_⟩, ?_, fun msg' hmsg' => ?_⟩
  · rcases hlinked with hrun | ⟨-, -, -, hasked⟩
    · show (s.inbox ++ [msg]).foldlM ClientStage.next stage = some stage'
      have hrun : s.inbox.foldlM ClientStage.next stage = some s.client.stage := hrun
      rw [foldlM_append, hrun]
      simp [hnext]
    · -- A client that has lost a reply to its COPY sends nothing more.
      rw [hasked] at hnext
      cases hnext
  · have hcount : wanting (s.inbox ++ [msg]) =
        wanting s.inbox + if msg.message.wantsReady then 1 else 0 := by
      simp [wanting, countP_append, countP_cons]
    simp only [hcount, ExchangeClient.sends]
    omega
  · have hflush : msg.message ≠ .flush := by
      intro hflush
      simp [DuplexExchange.plain, hflush] at hplain
    simp [ExchangeClient.sends, hflush]
  · rcases mem_append.mp hmsg' with hold | hnew
    · exact h.plain msg' hold
    · rw [mem_singleton.mp hnew]
      exact hplain

theorem Takes.unserved {copies copies' : Bool}
    {clientStage : ClientStage} (h : Takes copies m .fresh stage)
    (hrun : stage.run inbox = some clientStage) :
    ∃ stage', At copies' .reading none stage' ∧ Linked .reading stage' inbox clientStage := by
  have hnormal (unsynced : Bool) (hstage : stage = .normal unsynced) :
      ∃ stage', At copies' .reading none stage' ∧ Linked .reading stage' inbox clientStage :=
    ⟨stage, by rw [hstage]; exact .idle _ _ nofun, .inl hrun⟩
  cases h with
  | query =>
    cases copies with
    | false => exact hnormal false rfl
    | true =>
      obtain ⟨hinbox, hclient⟩ := run_asked hrun
      exact ⟨.normal false, .idle _ _ nofun, .inr ⟨.inl rfl, rfl, hinbox, hclient⟩⟩
  | sync => exact hnormal false rfl
  | extended => exact hnormal true rfl
  | copyData _ hw | copyEnd _ _ _ hw => exact absurd hw Wire.not_copying_fresh

theorem Takes.owes_waiting (h : Takes copies m w stage) :
    owes (if m.waitsAfter then .waiting else .reading) stage ≤
      owes (.holding m) stage := by
  cases h with
  | query => cases copies <;> decide
  | sync | copyData => decide
  | extended _ _ _ hwaits =>
    rw [hwaits]
    exact Nat.zero_le _
  | copyEnd _ _ hm => rcases hm with rfl | rfl <;> decide

theorem InStep.unseen {inHand : Bool}
    (h : s.InStep) (events : List ExchangeEvent) (hlog : e.log = s.exchange.log ++ events)
    (hunseen : events.foldl ExchangeClient.sees s.client = s.client)
    (hinbox : ∀ msg ∈ inbox, msg ∈ s.inbox) (hat : At inHand e.phase e.current stage)
    (hlinked : Linked e.phase stage inbox s.client.stage)
    (hdue : wanting inbox + owes e.phase stage ≤ s.client.due) :
    InStep { s.moveTo e with inbox := inbox, inHand := inHand } := by
  have hclient : (s.moveTo e).client = s.client := (client_moveTo events hlog).trans hunseen
  refine ⟨⟨stage, hat, ?_, ?_⟩, ?_, fun msg hmsg => h.plain msg (hinbox msg hmsg)⟩
  · show Linked e.phase stage inbox (s.moveTo e).client.stage
    rw [hclient]
    exact hlinked
  · show wanting inbox + owes e.phase stage ≤ (s.moveTo e).client.due
    rw [hclient]
    exact hdue
  · show (s.moveTo e).client.flushed = false
    rw [hclient]
    exact h.flushed

theorem InStep.read {quorum : Bool}
    {choice : BackendChoice} (h : s.InStep) (hinbox : s.inbox = msg :: rest)
    (hmove : s.exchange.Moves (.read msg.message quorum choice) e) :
    InStep { s.moveTo e with inbox := rest, inHand := msg.copies } := by
  obtain ⟨_, hat, hlinked, hdue⟩ := h.joined
  rw [hinbox] at hlinked hdue
  rw [wanting_cons] at hdue
  have hrest : ∀ msg' ∈ rest, msg' ∈ s.inbox := fun msg' hmsg' => by
    rw [hinbox]
    exact mem_cons_of_mem _ hmsg'
  have hplain := h.plain msg (by rw [hinbox]; exact mem_cons_self)
  obtain ⟨stage', hnext, hrun⟩ := run_cons (hlinked.resolve_right nofun)
  have hread : wanting rest + (if msg.message.wantsReady then 1 else 0) ≤ s.client.due := by omega
  have hless : wanting rest ≤ s.client.due := by omega
  cases hmove with
  | refuse =>
    exact h.unseen [.read msg.message, .closed] (append_assoc _ _ _) rfl hrest
      (.closed stage') (.inl hrun) hless
  | ignore m _ hphase hm =>
    -- No stage lets the client send these.
    rw [hphase] at hat
    generalize s.exchange.current = current at hat
    obtain ⟨m, _⟩ := msg
    rcases hm with rfl | rfl <;> cases hat <;> cases hnext
  | stay _ _ w hphase hw hm =>
    rw [hphase, hw] at hat
    exact h.unseen [.read msg.message] rfl rfl hrest
      (by rw [show (s.exchange.logs _).current = some w from hw]
          exact .holding _ w _ (hat.read hnext hplain hm)) (.inl hrun) hread
  | seek _ hphase hfree hm =>
    rw [hphase, hfree] at hat
    exact h.unseen [.read msg.message] rfl rfl hrest
      (by rw [show (s.exchange.logs _).current = none from hfree]
          exact .seeking _ _ (hat.read hnext hplain hm)) (.inl hrun) hread
  | unavailable _ hphase hfree hm =>
    rw [hphase, hfree] at hat
    obtain ⟨stage'', hidle, hlinked'⟩ : ∃ stage'', At msg.copies .reading none stage'' ∧
          Linked .reading stage'' rest s.client.stage :=
      (hat.read hnext hplain hm).unserved hrun
    rw [← hphase] at hidle hlinked'
    rw [← hfree] at hidle
    refine h.unseen [.read msg.message, .proxyError msg.message] (append_assoc _ _ _) rfl
      hrest hidle hlinked' ?_
    show wanting rest + owes s.exchange.phase stage'' ≤ s.client.due
    rw [hphase]
    exact hless
  | hangUp _ hl => rcases hl with hl | hl <;> cases hl

theorem At.pass {r : Reply} {c : ExchangeClient} (hanswers : w.Answers r)
    (hstage : stage = .asked false 0 ∨ stage = .normal false ∧ r ≠ .copyIn)
    (hplain : ∀ msg ∈ inbox, plain (.send msg)) (hrun : stage.run inbox = some c.stage)
    (hdue : wanting inbox + owes .waiting stage ≤ c.due) : ∃ stage', At copies .reading
        (if TxnState.ofStatusByte r.status = .idle then none else some { w with unread := [] })
        stage' ∧ Linked .reading stage' inbox (c.sees (.output (.reply r))).stage ∧
      wanting inbox ≤ (c.sees (.output (.reply r))).due := by
  cases r with
  | copyIn =>
    obtain rfl : stage = .asked false 0 := hstage.resolve_right fun h => h.2 rfl
    obtain ⟨rfl, hclient⟩ := run_asked hrun
    refine ⟨.copying false, .copying _ (.inl ⟨rfl, hanswers.mode⟩), .inl ?_, Nat.zero_le _⟩
    simp [ExchangeClient.sees, hclient, ClientStage.run]
  | ready st =>
    have hidle : At copies .reading
        (if TxnState.ofStatusByte (Reply.ready st).status = .idle then none
          else some { w with unread := [] }) (.normal false) := by
      refine .idle false _ fun w' hw' => ?_
      obtain ⟨-, hw'⟩ := ite_none_left_eq_some.mp hw'
      cases hw'
      have hmode : w.backend.mode = .normal := hanswers.mode
      exact ⟨⟨rfl, by simp [hmode, BackendMode.copying]⟩, fun _ => ⟨hmode, rfl⟩⟩
    refine ⟨.normal false, hidle, ?_⟩
    rcases hstage with rfl | ⟨rfl, -⟩
    · -- The COPY the client waits for is over.
      obtain ⟨rfl, hclient⟩ := run_asked hrun
      refine ⟨?_, Nat.zero_le _⟩
      by_cases hlast : c.due ≤ 1
      · exact .inl (by simp [ExchangeClient.sees, hclient, hlast, ClientStage.run])
      · exact .inr ⟨.inl rfl, rfl, rfl, by simp [ExchangeClient.sees, hclient, hlast]⟩
    · have hdue : wanting inbox + 1 ≤ c.due := hdue
      cases hclient : c.stage with
      | asked =>
        -- The COPY was asked for after the query that is answered here.
        rw [hclient] at hrun
        have hone : 1 ≤ wanting inbox := wanting_of_run hplain hrun
        have hmore : ¬ c.due ≤ 1 := by omega
        refine ⟨.inl ?_, ?_⟩
        · simpa [ExchangeClient.sees, hclient, hmore] using hrun
        · simp only [ExchangeClient.sees, hclient]
          omega
      | normal | copying | ended =>
        refine ⟨.inl ?_, ?_⟩
        · simpa [ExchangeClient.sees, hclient] using hrun
        · simp only [ExchangeClient.sees, hclient]
          omega

theorem InStep.pass {x : Output} {rest : List Output} (h : s.InStep)
    (hphase : s.exchange.phase = .waiting) (hw : s.exchange.current = some w)
    (hunread : w.unread = x :: rest) : InStep (s.moveTo (s.exchange.onOutput w x rest along)) := by
  obtain ⟨stage, hat, hlinked, hdue⟩ := h.joined
  rw [hphase, hw] at hat
  rw [hphase] at hlinked hdue
  have hrun : stage.run s.inbox = some s.client.stage :=
    hlinked.resolve_right fun h => h.1.elim nofun nofun
  cases hat with
  | waiting w r stage hanswers hstage =>
    rcases hanswers.rest hunread with ⟨rfl, rfl⟩ | ⟨rfl, hanswers'⟩
    · have hclient : (s.moveTo (s.exchange.onOutput w (.reply r) [] along)).client =
          s.client.sees (.output (.reply r)) :=
        client_moveTo [.output (.reply r)] (by simp [Exchange.onOutput, Exchange.logs])
      obtain ⟨stage', hat', hlinked', hdue'⟩ :
          ∃ stage', At s.inHand .reading (if TxnState.ofStatusByte r.status = .idle then none
                else some { w with unread := [] }) stage' ∧
            Linked .reading stage' s.inbox (s.client.sees (.output (.reply r))).stage ∧
            wanting s.inbox ≤ (s.client.sees (.output (.reply r))).due :=
        At.pass hanswers hstage h.plain hrun hdue
      refine ⟨⟨stage', ?_, ?_, ?_⟩, ?_, h.plain⟩
      · simpa [moveTo, Exchange.onOutput] using hat'
      · rw [hclient]
        exact hlinked'
      · rw [hclient]
        exact hdue'
      · rw [hclient]
        cases r <;> cases hstage' : s.client.stage <;> simp [ExchangeClient.sees, hstage']
    · have hclient : (s.moveTo (s.exchange.onOutput w .other rest along)).client =
          s.client.sees (.output .other) :=
        client_moveTo [.output .other] (by simp [Exchange.onOutput, Exchange.logs])
      refine ⟨⟨stage, ?_, ?_, ?_⟩, ?_, h.plain⟩
      · show At s.inHand s.exchange.phase (some { w with unread := rest }) stage
        rw [hphase]
        exact .waiting _ r stage hanswers' hstage
      · rw [hclient]
        exact .inl hrun
      · show wanting s.inbox + owes s.exchange.phase stage ≤ _
        rw [hclient, hphase]
        exact hdue
      · rw [hclient]
        rfl

theorem InStep.proxy {l : ExchangeLabel} (h : s.InStep) (hmove : s.exchange.Moves l e)
    (hread : ∀ m quorum choice, l ≠ .read m quorum choice)
    (hcopies : ∀ o others, l = .forward o others → o.copies → s.inHand) : InStep (s.moveTo e) := by
  have hself : ∀ msg ∈ s.inbox, msg ∈ s.inbox := fun _ hmsg => hmsg
  cases hmove with
  | refuse | ignore | stay | seek | unavailable => exact absurd rfl (hread _ _ _)
  | hangUp =>
    obtain ⟨stage, hat, hlinked, hdue⟩ := h.joined
    refine h.unseen [.closed] rfl rfl hself (.closed stage) ?_ ?_
    · exact hlinked.imp_right fun ⟨_, hrest⟩ => ⟨.inr rfl, hrest⟩
    · exact (Nat.le_add_right _ _).trans hdue
  | acquire m hphase =>
    obtain ⟨stage, hat, hlinked, hdue⟩ := h.joined
    rw [hphase] at hat hlinked hdue
    have hrun := hlinked.resolve_right fun h => h.1.elim nofun nofun
    generalize s.exchange.current = current at hat
    cases hat with
    | seeking m stage htakes =>
      exact h.unseen [] (append_nil _).symm rfl hself (.holding m _ stage htakes) (.inl hrun) hdue
  | failed m hphase =>
    obtain ⟨stage, hat, hlinked, hdue⟩ := h.joined
    rw [hphase] at hat hlinked hdue
    have hrun := hlinked.resolve_right fun h => h.1.elim nofun nofun
    generalize hcurrent : s.exchange.current = current at hat
    cases hat with
    | seeking m stage htakes =>
      obtain ⟨stage', hidle, hlinked'⟩ : ∃ stage', At s.inHand .reading none stage' ∧
            Linked .reading stage' s.inbox s.client.stage := htakes.unserved hrun
      rw [← hcurrent] at hidle
      exact h.unseen [.proxyError m] rfl rfl hself hidle hlinked'
        ((Nat.le_add_right _ _).trans hdue)
  | forward m o others w hphase hw hothers =>
    obtain ⟨_, hat, hlinked, hdue⟩ := h.joined
    rw [hphase] at hat hlinked hdue
    rw [hw] at hat
    have hrun := hlinked.resolve_right fun h => h.1.elim nofun nofun
    cases hat with
    | holding m _ _ htakes =>
      exact h.unseen [.forwarded m] rfl rfl hself
        (htakes.forward hothers (hcopies o others rfl)) (.inl hrun)
        ((Nat.add_le_add_left htakes.owes_waiting _).trans hdue)
  | pass _ _ _ _ hphase hw hunread => exact h.pass hphase hw hunread

theorem InStep.step (h : s.InStep) (hplain : DuplexExchange.plain l)
    (hstep : s.step l = some s') : s'.InStep := by
  cases l with
  | send =>
    obtain ⟨_, hnext, rfl⟩ := map_eq_some_iff.mp hstep
    exact h.send hplain hnext
  | proxy l =>
    cases l with
    | read =>
      simp only [DuplexExchange.step] at hstep
      split at hstep
      · cases hstep
      · rename_i msg _ hinbox
        obtain ⟨rfl, hstep⟩ := ite_none_right_eq_some.mp hstep
        obtain ⟨e, he, rfl⟩ := map_eq_some_iff.mp hstep
        exact h.read hinbox (Exchange.moves_of_step he)
    | forward =>
      obtain ⟨hcopies, hstep⟩ := ite_none_left_eq_some.mp hstep
      obtain ⟨e, he, rfl⟩ := map_eq_some_iff.mp hstep
      refine h.proxy (Exchange.moves_of_step he) nofun ?_
      rintro _ _ ⟨⟩ ho
      simpa [ho] using hcopies
    | acquired | pass | disconnect | ioError =>
      obtain ⟨e, he, rfl⟩ := map_eq_some_iff.mp hstep
      exact h.proxy (Exchange.moves_of_step he) nofun nofun

theorem InStep.not_stuck (h : s.InStep) : ¬ s.Stuck := by
  obtain ⟨stage, hat, hlinked, -⟩ := h.joined
  rintro (⟨hphase, w, hw, hsilent⟩ | ⟨hphase, hinbox, hwaits, w, hw, hunread⟩)
  · rw [hphase, hw] at hat
    cases hat with
    | waiting _ r _ hanswers =>
      obtain ⟨_, hends, -⟩ := hanswers.ends
      have hother := Wire.silent_iff.mp hsilent (.reply r) (by simp [hends])
      cases hother
  · rw [hphase, hw] at hat
    cases hat with
    | idle unsynced _ hsettled =>
      -- What is unread belongs to a pipeline without a Sync, whose client goes on sending.
      cases unsynced with
      | false => exact hunread ((hsettled w rfl).2 rfl).2
      | true =>
        have hrun := hlinked.resolve_right fun h => nomatch h.2.1
        rw [hinbox] at hrun
        have hclient : s.client.stage = .normal true := (Option.some.inj hrun).symm
        simp [ExchangeClient.waits, hclient, h.flushed] at hwaits
    | copying =>
      have hrun := hlinked.resolve_right fun h => nomatch h.2.1
      rw [hinbox] at hrun
      have hclient : s.client.stage = .copying false := (Option.some.inj hrun).symm
      simp [ExchangeClient.waits, hclient, h.flushed] at hwaits

/-- A message that goes through, with what comes of it. -/
def relay (m : FrontendMessage) (o : Outcome) (others : Nat) : List DuplexLabel :=
  [.proxy (.read m true .found), .proxy (.forward o others)]

def acquireAndRelay (m : FrontendMessage) (o : Outcome) (others : Nat) : List DuplexLabel :=
  [.proxy (.read m true .found), .proxy (.acquired true), .proxy (.forward o others)]

/-- Two queries sent at once, a pipeline that fails before its Sync, and a COPY that
the backend gives up while the client sends on. -/
def mixedTraffic : List DuplexLabel :=
  [.send ⟨.query, false⟩, .send ⟨.query, false⟩] ++
    acquireAndRelay .query ⟨.inTransaction, false, false⟩ 2 ++
    [.proxy (.pass 0), .proxy (.pass 0), .proxy (.pass 0)] ++
    relay .query ⟨.idle, false, false⟩ 0 ++ [.proxy (.pass 0), .send ⟨.parse, false⟩] ++
    acquireAndRelay .parse ⟨.idle, true, false⟩ 1 ++ [.send ⟨.sync, false⟩] ++
    relay .sync ⟨.idle, false, false⟩ 0 ++
    [.proxy (.pass 0), .proxy (.pass 0), .send ⟨.query, true⟩] ++
    acquireAndRelay .query ⟨.idle, false, true⟩ 0 ++
    [.proxy (.pass 0), .send ⟨.copyData, false⟩] ++ relay .copyData ⟨.idle, true, false⟩ 1

end DuplexExchange

end PgCluster
