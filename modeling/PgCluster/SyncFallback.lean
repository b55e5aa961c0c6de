import PgCluster.FailoverEngine
import PgCluster.ListUpdates
import PgCluster.SyncStandbys

/-!
# The fallback of `sync`

With no standby streaming, `sync` falls back to async: the leader's monitor
records `sync_degraded` through Raft, then empties `synchronous_standby_names`
on the primary. With a standby back it first sets the names, then clears the
flag. So while the setting is empty because of a fallback, the flag should be
up, and a failover should know that no standby is guaranteed current.

The flag and the setting are written one after the other, by the monitors of
several instances, each from the topology it read at the start of its tick.
`SetReplicationMode` clears the flag as well, and leaves the setting to the
next tick.

`fellBack` is ghost: the primary whose setting a fallback emptied, until the
setting gets a value again or another node is recorded as primary.
-/

namespace PgCluster

open Option

/-! ## What a tick decides -/

/-- What the `sync` fallback should do on this tick. -/
inductive Fallback where
  | stay
  | degrade
  | restore
deriving DecidableEq

/-- Times how long `sync` has had no standby streaming. -/
structure DegradeTimer where
  noStandbySince : Option Nat
deriving DecidableEq

def DegradeTimer.step (timer : DegradeTimer) (t : ClusterTopology) (standbyStreaming : Bool)
    (timeout now : Nat) : Fallback × DegradeTimer :=
  if t.replicationMode ≠ .sync || standbyStreaming then
    (if t.replicationMode = .sync && t.syncDegraded && standbyStreaming then .restore else .stay,
      ⟨none⟩)
  else if t.syncDegraded then (.stay, timer)
  else
    let since := timer.noStandbySince.getD now
    if timeout ≤ now - since then (.degrade, ⟨none⟩) else (.stay, ⟨some since⟩)

/-- What a tick reads off the primary's health check: the standbys that
stream, the two settings it looks after, if the primary reported them. -/
structure PrimaryReport where
  streamingStandbys : List String
  standbyNames : Option String
  walKeepSizeSet : Bool
deriving DecidableEq

/-- An external standby counts as well. -/
def PrimaryReport.standbyStreaming (r : PrimaryReport) (t : ClusterTopology) : Bool :=
  r.streamingStandbys.any fun name => (t.nodeConfigs.lookup name).isSome

/-- The names a tick wants, and which of the two settings it sends. -/
structure ReplicationPlan where
  fallback : Fallback
  standbyNames : String
  sendNames : Bool
  sendWalKeepSize : Bool
deriving DecidableEq

def PrimaryReport.plan (r : PrimaryReport) (t : ClusterTopology) (fallback : Fallback) :
    ReplicationPlan :=
  let names := match fallback with
    | .stay => t.synchronousStandbyNames
    | .degrade => ""
    | .restore => t.standbyNames
  { fallback := fallback
    standbyNames := names
    sendNames := r.standbyNames ≠ some names
    sendWalKeepSize := !r.walKeepSizeSet }

/-- The names are empty because `sync` has fallen back. -/
def ReplicationPlan.fallsBack (plan : ReplicationPlan) (t : ClusterTopology) : Bool :=
  t.replicationMode = .sync && (plan.fallback = .degrade || plan.fallback = .stay && t.syncDegraded)

/-! ## Monitors -/

/-- Where a monitor is in `reconcile_replication`: polling the nodes, or at
one of its three writes. -/
inductive ReconcilePhase where
  | idle
  | polling (t : ClusterTopology)
  | recording (t : ClusterTopology) (plan : ReplicationPlan)
  | setting (t : ClusterTopology) (plan : ReplicationPlan)
  | clearing

def ReconcilePhase.isIdle : ReconcilePhase → Bool
  | .idle => true
  | _ => false

/-- After the parameters: the flag is cleared only by a restore. -/
def ReplicationPlan.afterSet (plan : ReplicationPlan) : ReconcilePhase :=
  if plan.fallback = .restore then .clearing else .idle

def ReplicationPlan.applyParameters (plan : ReplicationPlan) (t : ClusterTopology) :
    ReconcilePhase :=
  if plan.sendNames || plan.sendWalKeepSize then .setting t plan else plan.afterSet

def ReplicationPlan.start (plan : ReplicationPlan) (t : ClusterTopology) : ReconcilePhase :=
  if plan.fallback = .degrade then .recording t plan else plan.applyParameters t

structure ReplicationMonitor where
  timer : DegradeTimer
  phase : ReconcilePhase

/-- The monitors are those of the instances, and `proposed` are the commands
of the API and the writes that failed, which may still be committed. -/
structure FallbackState where
  applied : ClusterTopology
  shown : List ClusterTopology
  proposed : List TopologyCommand
  settings : String → String
  monitors : List ReplicationMonitor
  fellBack : Option String

/-- `report` is the streaming standbys, whether the names are reported, and
whether the WAL limit is as it should be. -/
inductive FallbackLabel where
  | forward
  | setMode (k : Nat) (mode : ReplicationMode)
  | commit (i : Nat) (now : Int)
  | other (cmd : TopologyCommand) (now : Int)
  | tick (m k : Nat)
  | polled (m : Nat) (report : Option (List String × Bool × Bool)) (now : Nat)
  | recorded (m : Nat) (committed : Option Int)
  | set (m : Nat) (ok : Bool)
  | cleared (m : Nat) (committed : Option Int)
deriving DecidableEq

/-- Commands that touch neither the mode nor the flag. -/
def TopologyCommand.keepsMode : TopologyCommand → Bool
  | .setReplicationMode _ => false
  | .setSyncDegraded _ => false
  | _ => true

namespace FallbackState

def commitCommand (s : FallbackState) (now : Int) (cmd : TopologyCommand) : FallbackState :=
  let applied := s.applied.applyCommand now cmd
  { s with
    applied := applied
    fellBack := s.fellBack.filter fun p => p = applied.primaryNodeId }

def setParameters (s : FallbackState) (t : ClusterTopology) (plan : ReplicationPlan) :
    FallbackState :=
  if !plan.sendNames then s
  else
    let p := t.primaryNodeId
    { s with
      settings := Function.update s.settings p plan.standbyNames
      fellBack :=
        if plan.standbyNames ≠ "" then s.fellBack.filter fun q => q ≠ p
        else if plan.fallsBack t && p = s.applied.primaryNodeId then some p
        else s.fellBack }

def setMonitor (s : FallbackState) (m : Nat) (monitor : ReplicationMonitor) : FallbackState :=
  { s with monitors := s.monitors.set m monitor }

def setPhase (s : FallbackState) (m : Nat) (monitor : ReplicationMonitor)
    (phase : ReconcilePhase) : FallbackState :=
  s.setMonitor m { monitor with phase := phase }

/-- The report of the primary of `t`: the names are as they are. -/
def report (s : FallbackState) (t : ClusterTopology) (r : List String × Bool × Bool) :
    PrimaryReport where
  streamingStandbys := r.1
  standbyNames := if r.2.1 then some (s.settings t.primaryNodeId) else none
  walKeepSizeSet := r.2.2

def stepMonitor (timeout : Nat) (s : FallbackState) (m : Nat) (monitor : ReplicationMonitor) :
    FallbackLabel → Option FallbackState
  | .tick _ k =>
    match monitor.phase with
    | .idle => s.shown[k]?.map fun t => s.setPhase m monitor (.polling t)
    | _ => none
  | .polled _ r now =>
    match monitor.phase, r with
    | .polling _, none => some (s.setPhase m monitor .idle)
    | .polling t, some r =>
      let report := s.report t r
      let (fallback, timer) :=
        monitor.timer.step t (report.standbyStreaming t) timeout now
      some (s.setMonitor m ⟨timer, (report.plan t fallback).start t⟩)
    | _, _ => none
  | .recorded _ committed =>
    match monitor.phase, committed with
    | .recording t plan, some now =>
      some ((s.commitCommand now (.setSyncDegraded true)).setPhase m monitor
        (plan.applyParameters t))
    | .recording _ _, none =>
      some { s.setPhase m monitor .idle with
        proposed := s.proposed ++ [.setSyncDegraded true] }
    | _, _ => none
  | .set _ ok =>
    match monitor.phase with
    | .setting t plan =>
      if ok then some ((s.setParameters t plan).setPhase m monitor plan.afterSet)
      else some (s.setPhase m monitor .idle)
    | _ => none
  | .cleared _ committed =>
    match monitor.phase, committed with
    | .clearing, some now =>
      some ((s.commitCommand now (.setSyncDegraded false)).setPhase m monitor .idle)
    | .clearing, none =>
      some { s.setPhase m monitor .idle with
        proposed := s.proposed ++ [.setSyncDegraded false] }
    | _, _ => none
  | _ => none

def step (timeout : Nat) (s : FallbackState) (l : FallbackLabel) : Option FallbackState :=
  match l with
  | .forward => some { s with shown := s.applied :: s.shown }
  | .setMode k mode =>
    s.shown[k]?.bind fun t =>
      if t.setModeAccepts mode then
        some { s with proposed := s.proposed ++ [.setReplicationMode mode] }
      else none
  | .commit i now =>
    s.proposed[i]?.map fun cmd =>
      { s.commitCommand now cmd with proposed := s.proposed.eraseIdx i }
  | .other cmd now => if cmd.keepsMode then some (s.commitCommand now cmd) else none
  | .tick m _ | .polled m _ _ | .recorded m _ | .set m _ | .cleared m _ =>
    s.monitors[m]?.bind fun monitor => s.stepMonitor timeout m monitor l

def start (instances : Nat) (settings : String → String) (t : ClusterTopology) :
    FallbackState where
  applied := t
  shown := [t]
  proposed := []
  settings := settings
  monitors := List.replicate instances ⟨⟨none⟩, .idle⟩
  fellBack := none

def machine (instances timeout : Nat) (settings : String → String) (t : ClusterTopology) :
    Machine FallbackState FallbackLabel where
  init := start instances settings t
  step := step timeout

/-! ## Orderly steps -/

def allIdle (s : FallbackState) : Bool := s.monitors.all fun m => m.phase.isIdle

/-- The watch has caught up with who is primary, the mode and the flag. -/
def caughtUp (s : FallbackState) (t : ClusterTopology) : Bool :=
  t.primaryNodeId = s.applied.primaryNodeId
    && t.replicationMode = s.applied.replicationMode && t.syncDegraded = s.applied.syncDegraded

def clearsFlag : TopologyCommand → Bool
  | .setReplicationMode mode => mode = .sync
  | .setSyncDegraded degraded => !degraded
  | _ => false

/-- One tick runs at a time, from a watch that has caught up; a tick that
restores has somebody to name; and outside the ticks nothing clears the flag
while one runs or while a setting is empty because of a fallback. -/
def orderly (s : FallbackState) : FallbackLabel → Bool
  | .tick _ k => s.allIdle && (s.shown[k]?).all s.caughtUp
  | .polled m (some r) _ =>
    (s.monitors[m]?).all fun monitor =>
      match monitor.phase with
      | .polling t =>
        !(t.syncDegraded && (s.report t r).standbyStreaming t) || t.namedStandbys.Nonempty
      | _ => true
  | .commit i _ =>
    (s.proposed[i]?).all fun cmd => !clearsFlag cmd || s.allIdle && s.fellBack.isNone
  | _ => true

/-! ## What holds while a tick runs -/

/-- In `sync`, the flag is up. -/
def Flagged (t : ClusterTopology) : Prop := t.replicationMode = .sync → t.syncDegraded = true

def About (fellBack : Option String) (t : ClusterTopology) : Prop :=
  ∀ q, fellBack = some q → q = t.primaryNodeId

/-- What a tick relies on in each phase: a tick that is going to empty the
setting finds the flag up, and one that is going to clear the flag has put
the names back. -/
def PhaseOk (fellBack : Option String) (applied : ClusterTopology) : ReconcilePhase → Prop
  | .idle => True
  | .polling t =>
    About fellBack t ∧ (t.replicationMode = .sync → t.syncDegraded = true → Flagged applied)
  | .recording t plan => About fellBack t ∧ plan.fallback = .degrade
  | .setting t plan =>
    About fellBack t ∧ (plan.fallsBack t = true → Flagged applied) ∧ (plan.fallback = .restore →
        plan.standbyNames ≠ "" ∧ (plan.sendNames = false → fellBack = none))
  | .clearing => fellBack = none

structure Inv (s : FallbackState) : Prop where
  /-- The setting of `fellBack` is empty, and the flag says so. -/
  recorded : ∀ p, s.fellBack = some p →
    p = s.applied.primaryNodeId ∧ s.settings p = "" ∧ Flagged s.applied
  phases : ∀ (m : Nat) monitor, s.monitors[m]? = some monitor →
    PhaseOk s.fellBack s.applied monitor.phase
  solo : ∀ (m n : Nat) a b, s.monitors[m]? = some a → s.monitors[n]? = some b →
    a.phase.isIdle = false → b.phase.isIdle = false → m = n

variable {s s' s₁ : FallbackState} {l : FallbackLabel} {m n : Nat} {monitor : ReplicationMonitor}
  {t : ClusterTopology} {phase : ReconcilePhase} {plan : ReplicationPlan} {timeout k : Nat}
  {now : Int} {cmd : TopologyCommand} {fellBack : Option String} {applied : ClusterTopology}
  {timer : DegradeTimer} {committed : Option Int}

theorem phaseOk_idle (h : phase.isIdle) : PhaseOk fellBack applied phase := by
  cases phase with
  | idle => trivial
  | _ => cases h

/-- A phase stays sound when `fellBack` can only have ended and the flag only
have gone up. -/
theorem PhaseOk.mono {fellBack fellBack' : Option String} {applied applied' : ClusterTopology}
    (h : PhaseOk fellBack applied phase) (hfell : ∀ q, fellBack' = some q → fellBack = some q)
    (hflag : Flagged applied → Flagged applied') : PhaseOk fellBack' applied' phase := by
  have hnone : fellBack = none → fellBack' = none := by
    intro hnone
    rw [eq_none_iff_forall_ne_some]
    intro q hq
    rw [hfell q hq] at hnone
    cases hnone
  cases phase with
  | idle => trivial
  | polling => exact ⟨fun q hq => h.1 q (hfell q hq), fun hm hd => hflag (h.2 hm hd)⟩
  | recording => exact ⟨fun q hq => h.1 q (hfell q hq), h.2⟩
  | setting =>
    refine ⟨fun q hq => h.1 q (hfell q hq), fun hf => hflag (h.2.1 hf), fun hr => ?_⟩
    exact ⟨(h.2.2 hr).1, fun hsend => hnone ((h.2.2 hr).2 hsend)⟩
  | clearing => exact hnone h

theorem isIdle_of_allIdle (h : s.allIdle) (hm : s.monitors[m]? = some monitor) :
    monitor.phase.isIdle :=
  List.all_eq_true.mp h monitor (List.mem_of_getElem? hm)

/-! ## Commits -/

theorem fellBack_commit {q : String} (h : (s.commitCommand now cmd).fellBack = some q) :
    s.fellBack = some q ∧ q = (s.applied.applyCommand now cmd).primaryNodeId := by
  obtain ⟨hq, hprimary⟩ := filter_eq_some_iff.mp h
  exact ⟨hq, of_decide_eq_true hprimary⟩

/-- A command that does not lower the flag, or comes when nobody relies on
it. -/
theorem Inv.commit (h : s.Inv)
    (hcmd : (Flagged s.applied → Flagged (s.applied.applyCommand now cmd)) ∨
      s.fellBack = none ∧ s.allIdle) : (s.commitCommand now cmd).Inv where
  recorded p hp := by
    obtain ⟨hold, hprimary⟩ := fellBack_commit hp
    obtain ⟨-, hsetting, hflag⟩ := h.recorded p hold
    refine ⟨hprimary, hsetting, ?_⟩
    rcases hcmd with hkeeps | ⟨hnone, -⟩
    · exact hkeeps hflag
    · rw [hnone] at hold
      cases hold
  phases m monitor hm := by
    rcases hcmd with hkeeps | ⟨-, hidle⟩
    · exact (h.phases m monitor hm).mono (fun q hq => (fellBack_commit hq).1) hkeeps
    · exact phaseOk_idle (isIdle_of_allIdle hidle hm)
  solo := h.solo

theorem flagged_applyCommand (hcmd : clearsFlag cmd = false) (h : Flagged t) :
    Flagged (t.applyCommand now cmd) := by
  intro hmode
  cases cmd with
  | setReplicationMode mode =>
    have hsync : mode = .sync := hmode
    simp [clearsFlag, hsync] at hcmd
  | setSyncDegraded degraded =>
    have hdegraded : degraded := by simpa [clearsFlag] using hcmd
    exact hdegraded
  | _ => exact h hmode

/-! ## A monitor's own steps -/

/-- Monitor `m` moves to a phase of which `PhaseOk` holds, while the other
monitors are idle. -/
theorem Inv.move (h : s.Inv) (hm : s.monitors[m]? = some monitor)
    (hbusy : monitor.phase.isIdle = false ∨ s.allIdle)
    (hmonitors : s₁.monitors = s.monitors) {next : ReplicationMonitor}
    (hrecorded : ∀ p, s₁.fellBack = some p →
      p = s₁.applied.primaryNodeId ∧ s₁.settings p = "" ∧ Flagged s₁.applied)
    (hphase : PhaseOk s₁.fellBack s₁.applied next.phase) : (s₁.setMonitor m next).Inv := by
  -- Whoever is at another place is idle.
  have hother : ∀ (n : Nat) other, m ≠ n → s.monitors[n]? = some other → other.phase.isIdle := by
    intro n other hne hn
    rcases hbusy with hbusy | hidle
    · by_contra hbusy'
      exact hne (h.solo m n _ _ hm hn hbusy ((Bool.not_eq_true _).mp hbusy'))
    · exact isIdle_of_allIdle hidle hn
  refine ⟨hrecorded, fun n other hn => ?_, fun n n' a b ha hb hna hnb => ?_⟩
  · rw [setMonitor, hmonitors] at hn
    rcases getElem?_set_cases hn with ⟨-, rfl⟩ | ⟨hne, hn⟩
    · exact hphase
    · exact phaseOk_idle (hother n other hne hn)
  · rw [setMonitor, hmonitors] at ha hb
    have hplace : ∀ (k : Nat) c, (s.monitors.set m next)[k]? = some c →
        c.phase.isIdle = false → m = k := by
      intro k c hc hbusy'
      rcases getElem?_set_cases hc with ⟨rfl, -⟩ | ⟨hne, hc⟩
      · rfl
      · rw [hother k c hne hc] at hbusy'
        cases hbusy'
    rw [← hplace n a ha hna, hplace n' b hb hnb]

theorem Inv.tick (h : s.Inv) (hm : s.monitors[m]? = some monitor) (hidle : s.allIdle)
    (hcaught : s.caughtUp t) : (s.setPhase m monitor (.polling t)).Inv := by
  simp only [caughtUp, Bool.and_eq_true, decide_eq_true_iff] at hcaught
  obtain ⟨⟨hprimary, -⟩, hdegraded⟩ := hcaught
  refine h.move hm (.inr hidle) rfl h.recorded ⟨fun q hq => ?_, fun _ hflag _ => ?_⟩
  · rw [(h.recorded q hq).1, hprimary]
  · rw [← hdegraded, hflag]

/-- When the timer says what: a fallback and its end only in `sync`, the end
only from a topology with the flag and a standby that streams. -/
theorem timer_step_restore {streaming : Bool} {now : Nat}
    (h : (timer.step t streaming timeout now).1 = .restore) :
    t.syncDegraded ∧ streaming := by
  unfold DegradeTimer.step at h
  split at h
  · split at h
    · rename_i hrestore
      simp only [Bool.and_eq_true] at hrestore
      exact ⟨hrestore.1.2, hrestore.2⟩
    · cases h
  · split at h
    · cases h
    · dsimp only at h
      split at h <;> cases h

/-- After the parameters were sent or found in place, a restore goes on to
clear the flag: the names are there, so no fallback is left. -/
theorem phaseOk_afterSet
    (h : plan.fallback = .restore → fellBack = none) : PhaseOk fellBack applied plan.afterSet := by
  unfold ReplicationPlan.afterSet
  split
  · rename_i hrestore
    exact h hrestore
  · trivial

theorem phaseOk_applyParameters
    (habout : About fellBack t) (hflag : plan.fallsBack t → Flagged applied)
    (hrestore : plan.fallback = .restore →
      plan.standbyNames ≠ "" ∧ (plan.sendNames = false → fellBack = none)) :
    PhaseOk fellBack applied (plan.applyParameters t) := by
  unfold ReplicationPlan.applyParameters
  split
  · exact ⟨habout, hflag, hrestore⟩
  · have hsend : plan.sendNames = false := by simp_all
    exact phaseOk_afterSet fun hr => (hrestore hr).2 hsend

/-- What is proposed matters only once it is committed. -/
theorem Inv.propose (h : s.Inv) (proposed : List TopologyCommand) :
    Inv { s with proposed := proposed } := { h with }

theorem inv_start (instances : Nat) (settings : String → String) (t : ClusterTopology) :
    (start instances settings t).Inv where
  recorded p hp := by cases hp
  phases m monitor hm := by
    rw [List.eq_of_mem_replicate (List.mem_of_getElem? hm)]
    trivial
  solo m n a b ha _ hbusy _ := by
    rw [List.eq_of_mem_replicate (List.mem_of_getElem? ha)] at hbusy
    cases hbusy

section Steps

variable (h : s.Inv) (hm : s.monitors[m]? = some monitor)
include h hm

theorem Inv.polled
    (hphase : monitor.phase = .polling t) {r : List String × Bool × Bool} {fallback : Fallback}
    (hrestore : fallback = .restore → t.namedStandbys.Nonempty) :
    (s.setMonitor m ⟨timer, ((s.report t r).plan t fallback).start t⟩).Inv := by
  have hok := h.phases m monitor hm
  rw [hphase] at hok
  obtain ⟨habout, hflag⟩ := hok
  refine h.move hm (.inl (by rw [hphase]; rfl)) rfl h.recorded ?_
  unfold ReplicationPlan.start
  split
  · rename_i hdegrade
    exact ⟨habout, hdegrade⟩
  · rename_i hdegrade
    refine phaseOk_applyParameters habout (fun hfalls => ?_) (fun hr => ?_)
    · simp only [ReplicationPlan.fallsBack, hdegrade, decide_false, Bool.false_or,
        Bool.and_eq_true, decide_eq_true_iff] at hfalls
      exact hflag hfalls.1 hfalls.2.2
    · have hr : fallback = .restore := hr
      subst hr
      have hnames : t.standbyNames ≠ "" := by
        rw [Ne, ClusterTopology.standbyNames_eq_empty_iff]
        exact (hrestore rfl).ne_empty
      refine ⟨hnames, fun hsend => ?_⟩
      -- The primary reported the names, so its setting is not empty.
      have hreported : (s.report t r).standbyNames = some t.standbyNames := by
        simpa [PrimaryReport.plan] using hsend
      have hsetting : s.settings t.primaryNodeId = t.standbyNames := by
        obtain ⟨-, hsetting⟩ := ite_none_right_eq_some.mp hreported
        exact Option.some.inj hsetting
      rw [eq_none_iff_forall_ne_some]
      intro q hq
      have hempty := (h.recorded q hq).2.1
      rw [habout q hq, hsetting] at hempty
      exact hnames hempty

theorem Inv.record (hphase : monitor.phase = .recording t plan) :
    ((s.commitCommand now (.setSyncDegraded true)).setPhase m monitor
      (plan.applyParameters t)).Inv := by
  have hok := h.phases m monitor hm
  rw [hphase] at hok
  obtain ⟨habout, hdegrade⟩ := hok
  have hflagged : Flagged (s.commitCommand now (.setSyncDegraded true)).applied := fun _ => rfl
  have hcommit : (s.commitCommand now (.setSyncDegraded true)).Inv :=
    h.commit (.inl fun _ => hflagged)
  refine hcommit.move hm (.inl (by rw [hphase]; rfl)) rfl hcommit.recorded ?_
  refine phaseOk_applyParameters (fun q hq => habout q (fellBack_commit hq).1)
    (fun _ => hflagged) (fun hr => ?_)
  rw [hdegrade] at hr
  cases hr

/-- A successful `set_parameters`: a value ends the fallback, an empty one
finds the flag up. -/
theorem Inv.set (hphase : monitor.phase = .setting t plan) :
    ((s.setParameters t plan).setPhase m monitor plan.afterSet).Inv := by
  have hok := h.phases m monitor hm
  rw [hphase] at hok
  obtain ⟨habout, hflag, hrestore⟩ := hok
  have hbusy : monitor.phase.isIdle = false := by rw [hphase]; rfl
  cases hsend : plan.sendNames with
  | false =>
    have hsame : s.setParameters t plan = s := by simp [setParameters, hsend]
    rw [hsame]
    exact h.move hm (.inl hbusy) rfl h.recorded (phaseOk_afterSet fun hr => (hrestore hr).2 hsend)
  | true =>
    have hmonitors : (s.setParameters t plan).monitors = s.monitors := by
      simp [setParameters, hsend]
    by_cases hnames : plan.standbyNames = ""
    · have hsettings : (s.setParameters t plan).settings t.primaryNodeId = "" := by
        simp [setParameters, hsend, hnames]
      have hstay : ¬ plan.fallback = .restore := fun hr => (hrestore hr).1 hnames
      refine h.move hm (.inl hbusy) hmonitors (fun q hq => ?_)
        (phaseOk_afterSet fun hr => absurd hr hstay)
      have happlied : (s.setParameters t plan).applied = s.applied := by simp [setParameters, hsend]
      simp only [setParameters, hsend, hnames, Bool.not_true, Bool.false_eq_true, if_false,
        ne_eq, not_true_eq_false] at hq
      split at hq
      · rename_i hfalls
        simp only [Bool.and_eq_true, decide_eq_true_iff] at hfalls
        cases hq
        rw [happlied]
        exact ⟨hfalls.2, hsettings, hflag hfalls.1⟩
      · obtain ⟨hprimary, -, hflagged⟩ := h.recorded q hq
        rw [happlied]
        exact ⟨hprimary, habout q hq ▸ hsettings, hflagged⟩
    · have hnone : (s.setParameters t plan).fellBack = none := by
        rw [eq_none_iff_forall_ne_some]
        intro q hq
        simp only [setParameters, hsend, Bool.not_true, Bool.false_eq_true, if_false, ne_eq,
          hnames, not_false_eq_true, if_true, filter_eq_some_iff, decide_not,
          Bool.not_eq_true', decide_eq_false_iff_not] at hq
        exact hq.2 (habout q hq.1)
      refine h.move hm (.inl hbusy) hmonitors (fun q hq => ?_) (phaseOk_afterSet fun _ => hnone)
      rw [hnone] at hq
      cases hq

theorem Inv.clear (hphase : monitor.phase = .clearing) :
    ((s.commitCommand now (.setSyncDegraded false)).setPhase m monitor .idle).Inv := by
  have hnone := h.phases m monitor hm
  rw [hphase] at hnone
  have hmonitors : (s.commitCommand now (.setSyncDegraded false)).monitors = s.monitors := rfl
  refine h.move hm (.inl (by rw [hphase]; rfl)) hmonitors (fun q hq => ?_) trivial
  rw [(fellBack_commit hq).1] at hnone
  cases hnone

theorem Inv.giveUp (hbusy : monitor.phase.isIdle = false) : (s.setPhase m monitor .idle).Inv :=
  h.move hm (.inl hbusy) rfl h.recorded trivial

theorem Inv.step_polled {r : Option (List String × Bool × Bool)} {now : Nat}
    (horderly : s.orderly (.polled m r now))
    (hstep : s.stepMonitor timeout m monitor (.polled m r now) = some s') : s'.Inv := by
  cases hphase : monitor.phase with
  | polling =>
    cases r with
    | none =>
      simp only [stepMonitor, hphase] at hstep
      cases hstep
      exact h.giveUp hm (by rw [hphase]; rfl)
    | some =>
      simp only [stepMonitor, hphase] at hstep
      cases hstep
      refine h.polled hm hphase fun hrestore => ?_
      obtain ⟨hdegraded, hstreaming⟩ := timer_step_restore hrestore
      simpa [orderly, hm, hphase, hdegraded, hstreaming] using horderly
  | _ => simp [stepMonitor, hphase] at hstep

theorem Inv.step_recorded
    (hstep : s.stepMonitor timeout m monitor (.recorded m committed) = some s') : s'.Inv := by
  cases hphase : monitor.phase with
  | recording =>
    simp only [stepMonitor, hphase] at hstep
    cases committed with
    | none =>
      cases hstep
      exact (h.giveUp hm (by rw [hphase]; rfl)).propose _
    | some =>
      cases hstep
      exact h.record hm hphase
  | _ => simp [stepMonitor, hphase] at hstep

theorem Inv.step_set {ok : Bool}
    (hstep : s.stepMonitor timeout m monitor (.set m ok) = some s') : s'.Inv := by
  cases hphase : monitor.phase with
  | setting =>
    simp only [stepMonitor, hphase] at hstep
    cases ok with
    | false =>
      cases hstep
      exact h.giveUp hm (by rw [hphase]; rfl)
    | true =>
      cases hstep
      exact h.set hm hphase
  | _ => simp [stepMonitor, hphase] at hstep

theorem Inv.step_cleared
    (hstep : s.stepMonitor timeout m monitor (.cleared m committed) = some s') : s'.Inv := by
  cases hphase : monitor.phase with
  | clearing =>
    simp only [stepMonitor, hphase] at hstep
    cases committed with
    | none =>
      cases hstep
      exact (h.giveUp hm (by rw [hphase]; rfl)).propose _
    | some =>
      cases hstep
      exact h.clear hm hphase
  | _ => simp [stepMonitor, hphase] at hstep

theorem Inv.step_tick
    (horderly : s.orderly (.tick m k))
    (hstep : s.stepMonitor timeout m monitor (.tick m k) = some s') : s'.Inv := by
  obtain ⟨hidle, hcaught⟩ := Bool.and_eq_true_iff.mp horderly
  cases hphase : monitor.phase with
  | idle =>
    simp only [stepMonitor, hphase] at hstep
    obtain ⟨t, ht, rfl⟩ := map_eq_some_iff.mp hstep
    rw [ht] at hcaught
    exact h.tick hm hidle hcaught
  | _ => simp [stepMonitor, hphase] at hstep

end Steps

theorem Inv.step (h : s.Inv) (horderly : s.orderly l)
    (hstep : s.step timeout l = some s') : s'.Inv := by
  cases l with
  | forward =>
    cases hstep
    exact { h with }
  | setMode =>
    obtain ⟨t, -, hstep⟩ := bind_eq_some_iff.mp hstep
    obtain ⟨-, rfl⟩ := ite_some_none_eq_some.mp hstep
    exact h.propose _
  | commit =>
    obtain ⟨cmd, hcmd, rfl⟩ := map_eq_some_iff.mp hstep
    have hclears : clearsFlag cmd = false ∨ s.allIdle ∧ s.fellBack = none := by
      simpa [orderly, hcmd] using horderly
    refine (h.commit ?_).propose _
    rcases hclears with hkeeps | ⟨hidle, hnone⟩
    · exact .inl (flagged_applyCommand hkeeps)
    · exact .inr ⟨hnone, hidle⟩
  | other cmd =>
    obtain ⟨hkeeps, rfl⟩ := ite_some_none_eq_some.mp hstep
    refine h.commit (.inl (flagged_applyCommand ?_))
    cases cmd with
    | setReplicationMode | setSyncDegraded => cases hkeeps
    | _ => rfl
  | tick =>
    obtain ⟨monitor, hm, hstep⟩ := bind_eq_some_iff.mp hstep
    exact h.step_tick hm horderly hstep
  | polled =>
    obtain ⟨monitor, hm, hstep⟩ := bind_eq_some_iff.mp hstep
    exact h.step_polled hm horderly hstep
  | recorded =>
    obtain ⟨monitor, hm, hstep⟩ := bind_eq_some_iff.mp hstep
    exact h.step_recorded hm hstep
  | set =>
    obtain ⟨monitor, hm, hstep⟩ := bind_eq_some_iff.mp hstep
    exact h.step_set hm hstep
  | cleared =>
    obtain ⟨_, hm, hstep⟩ := bind_eq_some_iff.mp hstep
    exact h.step_cleared hm hstep

end FallbackState

/-- In a run of orderly steps, as long as a fallback has left the primary's
setting empty, and that node is still primary, the mode `sync` comes with the
flag; and a failover from such a topology records that it ran degraded. -/
theorem sync_fallback_is_recorded {instances timeout : Nat} {settings : String → String}
    {t : ClusterTopology} {s : FallbackState}
    (hs : (FallbackState.machine instances timeout settings t).Reaches
      (fun s l => s.orderly l = true) s)
    {p : String} (hp : s.fellBack = some p) (hmode : s.applied.replicationMode = .sync) :
    s.applied.syncDegraded = true ∧
      ∀ call : FailoverCall, call.topology = s.applied → ∀ candidate triggeredAt durationMs,
        (call.event candidate triggeredAt durationMs).ranDegraded = true := by
  have hinv : s.Inv := hs.invariant (FallbackState.inv_start instances settings t)
    fun _ _ _ h horderly hstep => h.step horderly hstep
  have hdegraded : s.applied.syncDegraded = true := (hinv.recorded p hp).2.2 hmode
  refine ⟨hdegraded, fun call htopology candidate triggeredAt durationMs => ?_⟩
  rw [FailoverCall.event, htopology, hdegraded]

/-! ## Runs -/

/-- Two instances over the pair `pg1` and `pg2` in `sync`, with a timeout of
30 s. -/
def pairMachine : Machine FallbackState FallbackLabel :=
  FallbackState.machine 2 30000 (fun _ => "") (seedTopology 0 (pair .sync))

def firstTick : List FallbackLabel :=
  [.tick 0 0, .polled 0 (some (["pg2"], true, true)) 0, .set 0 true]

/-- Two ticks of monitor 0 from the time `now` on: the standby is gone, and
30 s later `sync` falls back. `ok`: the primary answers. -/
def losesStandby (now : Nat) (ok : Bool) : List FallbackLabel :=
  [.tick 0 0, .polled 0 (some ([], true, true)) now, .tick 0 0,
    .polled 0 (some ([], true, true)) (now + 30000), .recorded 0 (some 0), .set 0 ok, .forward]

/-- A fallback and its end, seen by the other monitor, then the mode is set
again and `sync` falls back once more. -/
def fallsBackTwice : List FallbackLabel :=
  firstTick ++ (losesStandby 0 true : List FallbackLabel)
    ++ ([.tick 1 0, .polled 1 (some (["pg2"], true, true)) 40000, .set 1 true,
      .cleared 1 (some 1), .forward, .setMode 0 .sync, .commit 0 2, .forward] : List FallbackLabel)
    ++ (losesStandby 50000 true : List FallbackLabel)

theorem sync_fallback_is_recorded_twice :
    ∃ s, pairMachine.run fallsBackTwice = some s ∧
      s.fellBack = some "pg1" ∧ s.applied.syncDegraded = true := by
  obtain ⟨s, hs, hfell, hmode⟩ := pairMachine.exists_run fallsBackTwice (fun s =>
    s.fellBack = some "pg1" ∧ s.applied.replicationMode = .sync) (by decide +kernel)
  have hreaches := Machine.reaches_of_run (G := fun s l => s.orderly l = true)
    (by decide +kernel) hs
  exact ⟨s, hs, hfell, (sync_fallback_is_recorded hreaches hfell hmode).1⟩

/-- The fallback is forgotten: the setting is empty because of it, the mode
is `sync`, and the flag is down. -/
def FallbackState.forgot (s : FallbackState) : Bool :=
  s.fellBack = some "pg1" && s.applied.replicationMode = .sync && !s.applied.syncDegraded

theorem FallbackState.forgot_spec (s : FallbackState) (h : s.forgot) :
    s.fellBack = some "pg1" ∧ s.applied.replicationMode = .sync ∧
      s.applied.syncDegraded = false := by
  simpa [forgot, and_assoc] using h

def modeSetAgain : List FallbackLabel :=
  firstTick ++ (losesStandby 0 true : List FallbackLabel)
    ++ ([.setMode 0 .sync, .commit 0 2] : List FallbackLabel)

/-- The lost standby is removed, an external one streams, and the restore
finds nobody to name. -/
def restoredWithoutStandby : List FallbackLabel :=
  firstTick ++ (losesStandby 0 true : List FallbackLabel)
    ++ ([.other (.addNode (newNode "dr" true).config) 2, .other (.removeNode "pg2") 3, .forward,
      .tick 0 0, .polled 0 (some (["dr"], true, true)) 40000, .cleared 0 (some 4)]
        : List FallbackLabel)

/-- The primary does not answer the fallback at first. A tick is about to
empty the setting when another instance sees the standby back and restores. -/
def ticksOverlap : List FallbackLabel :=
  firstTick ++ (losesStandby 0 false : List FallbackLabel)
    ++ ([.tick 0 0, .polled 0 (some ([], true, true)) 31000,
      .tick 1 0, .polled 1 (some (["pg2"], true, true)) 32000, .cleared 1 (some 2),
      .set 0 true] : List FallbackLabel)

theorem sync_fallback_forgotten :
    (∃ s, pairMachine.run modeSetAgain = some s ∧ pairMachine.Reachable s ∧
      s.fellBack = some "pg1" ∧ s.applied.replicationMode = .sync ∧
      s.applied.syncDegraded = false) ∧
    (∃ s, pairMachine.run restoredWithoutStandby = some s ∧ pairMachine.Reachable s ∧
      s.fellBack = some "pg1" ∧ s.applied.replicationMode = .sync ∧
      s.applied.syncDegraded = false) ∧
    (∃ s, pairMachine.run ticksOverlap = some s ∧ pairMachine.Reachable s ∧
      s.fellBack = some "pg1" ∧ s.applied.replicationMode = .sync ∧
      s.applied.syncDegraded = false) := by
  refine ⟨?_, ?_, ?_⟩
  all_goals exact Machine.exists_of_run (by decide +kernel) FallbackState.forgot_spec

end PgCluster
