import PgCluster.ProxyExchange

/-!
# What a client gets for its messages

Each Query and each Sync is answered by one `ReadyForQuery`, after all other
replies to it, and after an error in the extended protocol nothing is done
before the next Sync. `ReplyView` reads this off the record of an exchange,
event by event; a record that breaks it ends in `broken`.

A backend keeps to it. The loop's own errors do not: an error for a Query or
a Sync is not followed by a `ReadyForQuery`, and one for another message is
forgotten, so that what the client had sent after it is forwarded or answered
again. Messages out of place, or a COPY in the extended protocol, break it
too, because the proxy reads one reply for each message it waits after. In
the other exchanges the discipline holds, and a proxy that waits has its
reply coming (`replies_in_discipline`).
-/

namespace PgCluster

/-! ## The discipline -/

/-- Nothing is due; a Query or a Sync awaits its `ReadyForQuery`; a COPY is open;
a `ReadyForQuery` was sent and nothing may follow it; the proxy reported an
error and nothing may be done before a Sync; that Sync awaits its
`ReadyForQuery` and nothing else; a message was read while another was due, so
that only closing is left; the connection is closed; or the discipline was
broken. -/
inductive ReplyView where
  | idle
  | due
  | copying
  | answered
  | failed
  | dueAlone
  | doomed
  | closed
  | broken
deriving DecidableEq

def FrontendMessage.endsCopy (m : FrontendMessage) : Bool := m = .copyDone || m = .copyFail

namespace ReplyView

def next : ReplyView → ExchangeEvent → ReplyView
  | .broken, _ | .closed, _ => .broken
  | _, .closed => .closed
  | .idle, .read m | .answered, .read m => if m.wantsReady then .due else .idle
  | .copying, .read m =>
    if m.endsCopy then .due else if m.wantsReady then .doomed else .copying
  -- A Query would have to be answered and left alone.
  | .failed, .read m => if m = .sync then .dueAlone else if m = .query then .doomed else .failed
  | .due, .read _ | .dueAlone, .read _ => .doomed
  | .idle, .proxyError _ => .failed
  | .due, .proxyError _ => .due
  | .idle, .forwarded _ => .idle
  | .due, .forwarded _ => .due
  | .copying, .forwarded _ => .copying
  | .dueAlone, .forwarded _ => .dueAlone
  | .idle, .output (.reply (.ready _)) => .broken
  | .idle, .output _ => .idle
  | .due, .output .other => .due
  | .due, .output (.reply .copyIn) => .copying
  | .due, .output (.reply (.ready _)) => .answered
  | .dueAlone, .output (.reply (.ready _)) => .answered
  | _, _ => .broken

def after (v : ReplyView) (events : List ExchangeEvent) : ReplyView := events.foldl next v

end ReplyView

/-! ## Messages in their place -/

/-- A message comes in its place: a query when the backend takes one, the end of a
COPY when the backend has one open or has answered it, and the messages of a
pipeline outside a COPY with nothing the proxy looks for unread. -/
def Wire.inPlace (w : Wire) : FrontendMessage → Bool
  | .query => w.silent && w.backend.mode = .normal
  | .sync | .parse | .bind | .execute | .describe | .flush | .close =>
    w.silent && !w.backend.mode.copying
  | .copyDone | .copyFail => w.backend.mode = .simpleCopy || !w.silent
  | .copyData | .terminate | .passwordMessage | .startupMessage => true

namespace Exchange

def view (e : Exchange) : ReplyView := ReplyView.idle.after e.log

/-- The client sends its messages in their place and runs no COPY through the
extended protocol. The proxy finds and acquires a backend for every Query and
Sync; where it does not for another message, a Sync or the end comes next. -/
def orderly (e : Exchange) : ExchangeLabel → Bool
  | .read m quorum choice =>
    m = .terminate || !quorum ||
      ((e.current.getD .fresh).inPlace m && (e.view ≠ .failed || m = .sync) &&
        (e.current.isSome || choice ≠ .unavailable || !m.wantsReady))
  | .acquired false =>
    match e.phase with
    | .seeking m => !m.wantsReady
    | _ => true
  | .forward o _ => e.phase ≠ .holding .execute || !o.copies
  | _ => true

/-! ## Between messages -/

/-- What holds at the top of the loop. -/
inductive Rests : ReplyView → Option Wire → Prop where
  | copying (w : Wire) (hw : w.Copying) : Rests .copying (some w)
  | idle (v : ReplyView) (current : Option Wire) (hv : v = .idle ∨ v = .answered)
      (hquiet : ∀ w, current = some w → w.Quiet) : Rests v current
  | failed : Rests .failed none

/-- What holds of a message in hand, the connection it goes to and the record. -/
inductive Fits : FrontendMessage → Wire → ReplyView → Prop where
  | query (w : Wire) (hsilent : w.silent = true) (hmode : w.backend.mode = .normal) :
      Fits .query w .due
  | sync (w : Wire) (hquiet : w.Quiet) : Fits .sync w .due
  | syncAlone : Fits .sync .fresh .dueAlone
  | copyEnd (m : FrontendMessage) (w : Wire) (hm : m = .copyDone ∨ m = .copyFail)
      (hw : w.Copying) : Fits m w .due
  | copyData (w : Wire) (hw : w.Copying) : Fits .copyData w .copying
  | strayData (w : Wire) (hquiet : w.Quiet) : Fits .copyData w .idle
  | extended (m : FrontendMessage) (w : Wire)
      (hm : ∀ (b : Backend) (o : Outcome), b.receive m o = b.receiveExtended m o)
      (hready : m.wantsReady = false) (hwaits : m.waitsAfter = false)
      (hquiet : w.Quiet) : Fits m w .idle

variable {v : ReplyView} {w : Wire} {current : Option Wire} {m : FrontendMessage}

theorem copying_not_silent (h : w.Copying) : w.silent = false ∨ w.backend.mode = .simpleCopy := by
  rcases h with ⟨-, hmode⟩ | ⟨_, hanswers⟩
  · exact .inr hmode
  · left
    obtain ⟨_, hends, -⟩ := hanswers.ends
    simp [Wire.silent, hends]

theorem quiet_getD (h : ∀ w, current = some w → w.Quiet) : (current.getD .fresh).Quiet := by
  cases current with
  | none => exact Wire.quiet_fresh
  | some w => exact h w rfl

theorem Rests.read (h : Rests v current) (hplace : (current.getD .fresh).inPlace m)
    (hfailed : v = .failed → m = .sync) (hm : m.travels) :
    Fits m (current.getD .fresh) (v.next (.read m)) := by
  cases h with
  | copying w hw =>
    have hcopy := copying_not_silent hw
    cases m with
    | copyData => exact .copyData w hw
    | copyDone => exact .copyEnd _ w (.inl rfl) hw
    | copyFail => exact .copyEnd _ w (.inr rfl) hw
    | query | sync | parse | bind | execute | describe | flush | close =>
      rcases hcopy with hloud | hmode
      · simp [Wire.inPlace, hloud] at hplace
      · simp [Wire.inPlace, hmode, BackendMode.copying] at hplace
    | terminate | passwordMessage | startupMessage => exact absurd hm Bool.false_ne_true
  | idle v current hv hquiet =>
    have hquiet : (current.getD .fresh).Quiet := quiet_getD hquiet
    have hnext : v.next (.read m) = if m.wantsReady then .due else .idle := by
      rcases hv with rfl | rfl <;> rfl
    rw [hnext]
    cases m with
    | query =>
      have hmode : (current.getD .fresh).backend.mode = .normal := by
        simpa [Wire.inPlace, hquiet.silent] using hplace
      exact .query _ hquiet.silent hmode
    | sync => exact .sync _ hquiet
    | copyData => exact .strayData _ hquiet
    | copyDone | copyFail =>
      rcases Wire.mode_of_not_copying hquiet.mode with hmode | hmode <;>
        simp [Wire.inPlace, hquiet.silent, hmode] at hplace
    | parse | bind | execute | describe | flush | close =>
      exact .extended _ _ (fun _ _ => rfl) rfl rfl hquiet
    | terminate | passwordMessage | startupMessage => exact absurd hm Bool.false_ne_true
  | failed =>
    obtain rfl := hfailed rfl
    exact .syncAlone

/-- What the proxy waits for comes, and tells the record what it is. -/
def Awaits (v : ReplyView) (w : Wire) : Prop :=
  ∃ r, w.Answers r ∧ (v = .due ∨ v = .dueAlone ∧ w.unread = [.reply r] ∧ r ≠ .copyIn)

theorem Fits.forward {o : Outcome}
    {others : Nat} (h : Fits m w v) (hothers : others = 0 ∨ w.backend.speaks m o)
    (hcopies : m = .execute → o.copies = false) :
    (m.waitsAfter → Awaits (v.next (.forwarded m)) (w.receive m o others)) ∧
      (m.waitsAfter = false →
        Rests (v.next (.forwarded m)) (some (w.receive m o others))) := by
  cases h with
  | query _ hsilent hmode => exact ⟨fun _ => ⟨_, Wire.receive_query hsilent hmode, .inl rfl⟩, nofun⟩
  | sync w hquiet =>
    obtain ⟨st, hst⟩ : ∃ st, (w.receive .sync o others).Answers (.ready st) := hquiet.receive_sync
    exact ⟨fun _ => ⟨_, hst, .inl rfl⟩, nofun⟩
  | syncAlone =>
    obtain rfl : others = 0 := hothers.resolve_right nofun
    exact ⟨fun _ => ⟨.ready .idle, ⟨⟨[], rfl, nofun⟩, rfl⟩, .inr ⟨rfl, rfl, nofun⟩⟩, nofun⟩
  | copyEnd m w hm hw =>
    obtain ⟨r, hr⟩ : ∃ r, (w.receive m o others).Answers r := hw.receive_copyEnd hm hothers
    refine ⟨fun _ => ⟨r, hr, .inl rfl⟩, fun hwaits => ?_⟩
    rcases hm with rfl | rfl <;> cases hwaits
  | copyData _ hw => exact ⟨nofun, fun _ => .copying _ (hw.receive_copyData hothers)⟩
  | strayData _ hquiet =>
    refine ⟨nofun, fun _ => .idle _ _ (.inl rfl) ?_⟩
    rintro _ ⟨⟩
    exact hquiet.receive_copyData
  | extended _ _ hm _ hwaits hquiet =>
    refine ⟨fun h => absurd (h.symm.trans hwaits) nofun, fun _ => .idle _ _ (.inl rfl) ?_⟩
    rintro _ ⟨⟩
    exact hquiet.receive_extended (fun b => hm b o) hcopies

/-! ## The whole exchange -/

variable {e e' : Exchange} {l : ExchangeLabel}

/-- The connection and the record, at each place of the loop. -/
def Discipline (phase : ExchangePhase) (current : Option Wire) (v : ReplyView) : Prop :=
  match phase with
  | .reading => Rests v current
  | .seeking m => current = none ∧ Fits m .fresh v
  | .holding m => ∃ w, current = some w ∧ Fits m w v
  | .waiting => ∃ w, current = some w ∧ Awaits v w
  | .closed => v = .closed

def InDiscipline (e : Exchange) : Prop := Discipline e.phase e.current e.view

theorem inDiscipline_of_log (events : List ExchangeEvent) (hlog : e'.log = e.log ++ events)
    (h : Discipline e'.phase e'.current (e.view.after events)) : e'.InDiscipline := by
  have hview : e'.view = e.view.after events := by
    rw [view, hlog, ReplyView.after, List.foldl_append]
    rfl
  rw [InDiscipline, hview]
  exact h

theorem Rests.next_closed (h : Rests v current) : v.next .closed = .closed := by
  cases h with
  | copying | failed => rfl
  | idle _ _ hv => rcases hv with rfl | rfl <;> rfl

theorem Fits.next_closed (h : Fits m w v) : v.next .closed = .closed := by
  cases h <;> rfl

theorem Awaits.next_closed (h : Awaits v w) : v.next .closed = .closed := by
  obtain ⟨r, -, rfl | ⟨rfl, -⟩⟩ := h <;> rfl

theorem InDiscipline.next_closed (h : e.InDiscipline) (hopen : e.phase ≠ .closed) :
    e.view.next .closed = .closed := by
  unfold InDiscipline Discipline at h
  split at h
  · exact h.next_closed
  · exact h.2.next_closed
  · obtain ⟨w, -, hfits⟩ := h
    exact hfits.next_closed
  · obtain ⟨w, -, hawaits⟩ := h
    exact hawaits.next_closed
  · rename_i hclosed
    exact absurd hclosed hopen

/-- What follows a reply the proxy looks for. -/
theorem Awaits.pass {x : Output} {rest : List Output} (h : Awaits v w)
    (hunread : w.unread = x :: rest) :
    (x = .other ∧ Awaits (v.next (.output x)) { w with unread := rest }) ∨
      ∃ r, x = .reply r ∧ rest = [] ∧ Rests (v.next (.output x))
          (if TxnState.ofStatusByte r.status = .idle then none
            else some { w with unread := [] }) := by
  obtain ⟨r, hanswers, hv⟩ := h
  rcases hanswers.rest hunread with ⟨rfl, rfl⟩ | ⟨rfl, hrest⟩
  · refine .inr ⟨r, rfl, rfl, ?_⟩
    cases r with
    | copyIn =>
      -- An open COPY counts as a transaction, so the connection is kept.
      obtain rfl : v = .due := hv.resolve_right fun h => h.2.2 rfl
      exact .copying _ (.inl ⟨rfl, hanswers.mode⟩)
    | ready st =>
      have hnext : v.next (.output (.reply (.ready st))) = .answered := by
        rcases hv with rfl | ⟨rfl, -⟩ <;> rfl
      rw [hnext]
      refine .idle _ _ (.inr rfl) fun w' hw' => ?_
      split_ifs at hw'
      cases hw'
      have hmode : w.backend.mode = .normal := hanswers.mode
      exact ⟨rfl, by simp [hmode, BackendMode.copying]⟩
  · refine .inl ⟨rfl, r, hrest, ?_⟩
    rcases hv with rfl | ⟨-, hunread', -⟩
    · exact .inl rfl
    · rw [hunread] at hunread'
      cases hunread'

/-- Nothing is due at the top of the loop. -/
theorem Rests.settled (h : Rests v current) : v ≠ .due ∧ v ≠ .dueAlone ∧ v ≠ .doomed := by
  cases h with
  | copying | failed => exact ⟨nofun, nofun, nofun⟩
  | idle _ _ hv => rcases hv with rfl | rfl <;> exact ⟨nofun, nofun, nofun⟩

theorem Rests.read_closed (h : Rests v current)
    (m : FrontendMessage) : (v.next (.read m)).next .closed = .closed := by
  cases h with
  | copying | failed => cases m <;> rfl
  | idle _ _ hv => rcases hv with rfl | rfl <;> cases m <;> rfl

theorem Rests.ignore (h : Rests v current) (hfailed : v ≠ .failed)
    (hm : m = .passwordMessage ∨ m = .startupMessage) : Rests (v.next (.read m)) current := by
  cases h with
  | copying w hw => rcases hm with rfl | rfl <;> exact .copying w hw
  | idle _ _ hv hquiet =>
    rcases hm with rfl | rfl <;> rcases hv with rfl | rfl <;> exact .idle _ _ (.inl rfl) hquiet
  | failed => exact absurd rfl hfailed

theorem Fits.proxyError (h : Fits m .fresh v)
    (hm : m.wantsReady = false) : v.next (.proxyError m) = .failed := by
  cases h with
  | query | sync | syncAlone => cases hm
  | copyEnd _ _ _ hw | copyData _ hw => exact absurd hw Wire.not_copying_fresh
  | strayData | extended => rfl

/-- What `orderly` asks of a message that is not refused. -/
theorem orderly_read {choice : BackendChoice}
    (hl : e.orderly (.read m true choice)) (hm : m ≠ .terminate) :
    (e.current.getD .fresh).inPlace m ∧ (e.view = .failed → m = .sync) ∧
      (e.current = none → choice = .unavailable → m.wantsReady = false) := by
  simp only [orderly, hm, decide_false, Bool.not_true, Bool.or_self, Bool.false_or,
    Bool.and_eq_true, Bool.or_eq_true, decide_eq_true_eq, Bool.not_eq_true'] at hl
  obtain ⟨⟨hplace, hfailed⟩, hchoice⟩ := hl
  refine ⟨hplace, fun hv => hfailed.resolve_left (fun h => h hv), fun hfree hun => ?_⟩
  rcases hchoice with (hsome | hfound) | hready
  · rw [hfree] at hsome
    cases hsome
  · exact absurd hun hfound
  · exact hready

theorem InDiscipline.move (h : e.InDiscipline) (hl : e.orderly l) (hmove : Moves e l e') :
    e'.InDiscipline := by
  have hreading (hphase : e.phase = .reading) : Rests e.view e.current := by
    rwa [InDiscipline, hphase] at h
  have hneTerminate {m : FrontendMessage} (hm : m.travels) : m ≠ .terminate := by
    rintro rfl
    cases hm
  cases hmove with
  | refuse m _ _ hphase =>
    exact inDiscipline_of_log [.read m, .closed] (List.append_assoc _ _ _)
      ((hreading hphase).read_closed m)
  | ignore m _ hphase hm =>
    have hterminate : m ≠ .terminate := by rcases hm with rfl | rfl <;> exact nofun
    obtain ⟨-, hfailed, -⟩ := orderly_read hl hterminate
    have hview : e.view ≠ .failed := by
      intro hv
      have hsync := hfailed hv
      rcases hm with rfl | rfl <;> cases hsync
    refine inDiscipline_of_log [.read m] rfl ?_
    have hphase' : (e.logs [.read m]).phase = .reading := hphase
    rw [hphase']
    exact (hreading hphase).ignore hview hm
  | stay m _ w hphase hw hm =>
    obtain ⟨hplace, hfailed, -⟩ := orderly_read hl (hneTerminate hm)
    have hfits := (hreading hphase).read hplace hfailed hm
    rw [hw, Option.getD_some] at hfits
    exact inDiscipline_of_log [.read m] rfl ⟨w, hw, hfits⟩
  | seek m hphase hfree hm =>
    obtain ⟨hplace, hfailed, -⟩ := orderly_read hl (hneTerminate hm)
    have hfits := (hreading hphase).read hplace hfailed hm
    rw [hfree, Option.getD_none] at hfits
    exact inDiscipline_of_log [.read m] rfl ⟨hfree, hfits⟩
  | unavailable m hphase hfree hm =>
    obtain ⟨hplace, hfailed, hready⟩ := orderly_read hl (hneTerminate hm)
    have hfits := (hreading hphase).read hplace hfailed hm
    rw [hfree, Option.getD_none] at hfits
    refine inDiscipline_of_log [.read m, .proxyError m] (List.append_assoc _ _ _) ?_
    have hview : e.view.after [.read m, .proxyError m] = .failed :=
      hfits.proxyError (hready hfree rfl)
    have hphase' : ((e.logs [.read m]).logs [.proxyError m]).phase = .reading := hphase
    have hfree' : ((e.logs [.read m]).logs [.proxyError m]).current = none := hfree
    rw [hview, hphase', hfree']
    exact Rests.failed
  | hangUp _ _ hopen => exact inDiscipline_of_log [.closed] rfl (h.next_closed hopen)
  | acquire _ hphase =>
    rw [InDiscipline, hphase] at h
    exact ⟨.fresh, rfl, h.2⟩
  | failed m hphase =>
    rw [InDiscipline, hphase] at h
    obtain ⟨hfree, hfits⟩ := h
    have hready : m.wantsReady = false := by simpa [orderly, hphase] using hl
    refine inDiscipline_of_log [.proxyError m] rfl ?_
    have hview : e.view.after [.proxyError m] = .failed := hfits.proxyError hready
    have hfree' : (e.logs [.proxyError m]).current = none := hfree
    rw [hview]
    show Rests .failed (e.logs [.proxyError m]).current
    rw [hfree']
    exact .failed
  | forward m o _ w hphase hw hothers =>
    rw [InDiscipline, hphase] at h
    obtain ⟨w', hw', hfits⟩ := h
    obtain rfl : w = w' := Option.some.inj (hw.symm.trans hw')
    have hcopies : m = .execute → o.copies = false := by
      rintro rfl
      simpa [orderly, hphase] using hl
    obtain ⟨hawaits, hrests⟩ := hfits.forward hothers hcopies
    refine inDiscipline_of_log [.forwarded m] rfl ?_
    cases hwaits : m.waitsAfter with
    | true => exact ⟨_, rfl, hawaits hwaits⟩
    | false => exact hrests hwaits
  | pass along w _ rest hphase hw hunread =>
    rw [InDiscipline, hphase] at h
    obtain ⟨w', hw', hawaits⟩ := h
    obtain rfl : w = w' := Option.some.inj (hw.symm.trans hw')
    rcases hawaits.pass hunread with ⟨rfl, hawaits⟩ | ⟨r, rfl, rfl, hrests⟩
    · refine inDiscipline_of_log [.output .other] rfl ?_
      have hphase' : (e.onOutput w .other rest along).phase = .waiting := hphase
      rw [hphase']
      exact ⟨_, rfl, hawaits⟩
    · have hlog : (e.onOutput w (.reply r) [] along).log = e.log ++ [.output (.reply r)] := by
        simp [onOutput, logs]
      refine inDiscipline_of_log [.output (.reply r)] hlog ?_
      simpa [onOutput, Discipline, ReplyView.after] using hrests

theorem step_pass {x : Output} {rest : List Output} (along : Nat)
    (hphase : e.phase = .waiting) (hw : e.current = some w) (hunread : w.unread = x :: rest) :
    e.step (.pass along) = some (e.onOutput w x rest along) := by
  simp [step, hphase, hw, hunread]

/-- From where the proxy waits, passing on what comes leads it back to the client,
with the reply it waits for passed on last. -/
theorem passes_reply {r : Reply} {before : List Output} (hphase : e.phase = .waiting)
    (hw : e.current = some w) (hunread : w.unread = before ++ [.reply r])
    (hothers : ∀ x ∈ before, x = .other) :
    ∃ n e', machine.runFrom e (List.replicate n (.pass 0)) = some e' ∧ e'.phase = .reading ∧
      ∃ passed, e'.log = e.log ++ passed ++ [.output (.reply r)] := by
  induction before generalizing e w with
  | nil =>
    have hstep : machine.step e (.pass 0) = some (e.onOutput w (.reply r) [] 0) :=
      step_pass 0 hphase hw hunread
    refine ⟨1, _, Machine.runFrom_cons_of_step hstep _, rfl, [], ?_⟩
    simp [onOutput, logs]
  | cons x before ih =>
    obtain rfl : x = .other := hothers x List.mem_cons_self
    have hstep : machine.step e (.pass 0) = some (e.onOutput w .other (before ++ [.reply r]) 0) :=
      step_pass 0 hphase hw hunread
    obtain ⟨n, e', hrun, hphase', passed, hlog⟩ :=
      ih (e := e.onOutput w .other (before ++ [.reply r]) 0) hphase rfl rfl
        fun y hy => hothers y (List.mem_cons_of_mem _ hy)
    refine ⟨n + 1, e', ?_, hphase', .output .other :: passed, ?_⟩
    · rw [List.replicate_succ, Machine.runFrom_cons_of_step hstep, hrun]
    · rw [hlog]
      simp [onOutput, logs]

theorem inDiscipline_of_reaches (he : machine.Reaches (fun e l => e.orderly l) e) :
    e.InDiscipline := by
  have hinit : machine.init.InDiscipline := Rests.idle _ _ (.inl rfl) nofun
  exact he.invariant hinit fun e l e' h hl hstep => h.move hl (moves_of_step hstep)

/-- A pipeline whose first message the proxy has no backend for, a pipeline that
fails, and a COPY the backend gives up. -/
def mixedRun : List ExchangeLabel :=
  [.read .parse true .unavailable, .read .sync true .found, .acquired true,
    .forward ⟨.idle, false, false⟩ 0, .pass 0,
    .read .parse true .found, .acquired true, .forward ⟨.idle, true, false⟩ 1,
    .read .bind true .found, .forward ⟨.idle, false, false⟩ 0,
    .read .sync true .found, .forward ⟨.idle, false, false⟩ 0, .pass 0, .pass 0,
    .read .query true .found, .acquired true, .forward ⟨.idle, false, true⟩ 0, .pass 0,
    .read .copyData true .found, .forward ⟨.idle, true, false⟩ 1,
    .read .copyDone true .found, .forward ⟨.idle, false, false⟩ 0]

end Exchange

end PgCluster
