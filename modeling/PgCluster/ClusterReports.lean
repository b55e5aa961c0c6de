import PgCluster.Machine
import PgCluster.RaftCommands

/-!
# What a cluster's leader reports

`failover_history` of `pgcluster/src/api/failover.rs`, the report that
`vk-agent/src/host/tasks.rs` makes of it, and `cluster_report` of
`pgcluster-admin/src/agent.rs`, which records it and turns what is new into
events. Failovers are new from the place on that the last report ended at. The
history keeps only the last hundred, so once it is full that place is its end,
and no later failover is announced.

A report is read and recorded in one step. What it says besides failovers, and
how the cluster prints a time, is left open.
-/

namespace PgCluster.ClusterReports

open List

/-! ## Reports -/

/-- A failover as the history lists it. -/
structure FailoverEntry where
  oldPrimary : String
  newPrimary : String
  triggeredAt : String
  durationMs : Nat
  reason : String
  ranDegraded : Bool
deriving DecidableEq

structure BackupReport where
  id : String
  label : String
  completedAt : Int
  sizeBytes : Nat
deriving DecidableEq

/-- What a report says besides failovers. -/
structure Findings where
  primary : Option String
  syncDegraded : Bool
  needsReseed : List String
  backups : List BackupReport
  backupError : Option String
deriving DecidableEq

structure ClusterReport extends Findings where
  failovers : List FailoverEntry
deriving DecidableEq

section Cluster

variable (rfc3339 : Int → String)

def describe (e : FailoverEvent) : FailoverEntry where
  oldPrimary := e.oldPrimary
  newPrimary := e.newPrimary
  triggeredAt := rfc3339 e.triggeredAt
  durationMs := e.durationMs
  reason := e.reason
  ranDegraded := e.ranDegraded

def failoverHistory (t : ClusterTopology) : List FailoverEntry :=
  t.failoverHistory.map (describe rfc3339)

end Cluster

/-! ## Recording them -/

inductive ClusterEvent where
  | failoverCompleted (detail : FailoverEntry)
  | syncDegraded
  | syncRestored
  | backupFailed (error : String)
  | backupCompleted (backupId label : String)
deriving DecidableEq

def ClusterEvent.failover? : ClusterEvent → Option FailoverEntry
  | .failoverCompleted detail => some detail
  | _ => none

/-- `databases.observed`, once there was a report. -/
structure Observed where
  primary : Option String
  syncDegraded : Bool
  needsReseed : List String
  backupError : Option String
  failoverCount : Nat
deriving DecidableEq

/-- What is stored of a database's cluster: the last observation, its backups, and
its events in order. -/
structure ClusterRecord where
  observed : Option Observed
  backups : List BackupReport
  events : List ClusterEvent
deriving DecidableEq

namespace ClusterRecord

def seen (c : ClusterRecord) : Nat := (c.observed.map (·.failoverCount)).getD 0

def syncEvents (c : ClusterRecord) (r : ClusterReport) : List ClusterEvent :=
  let wasDegraded := (c.observed.map (·.syncDegraded)).getD false
  if r.syncDegraded = wasDegraded then []
  else if r.syncDegraded then [.syncDegraded]
  else [.syncRestored]

def backupErrorEvents (c : ClusterRecord) (r : ClusterReport) : List ClusterEvent :=
  match r.backupError with
  | some error =>
    if c.observed.bind (·.backupError) = some error then [] else [.backupFailed error]
  | none => []

/-- `cluster_report`. Backups that are new are inserted, and one that is named twice
is an error; those that are gone from the repository are deleted. -/
def clusterReport (c : ClusterRecord) (r : ClusterReport) : Option ClusterRecord :=
  let known := c.backups.map (·.id)
  let new : List BackupReport := r.backups.filter fun b => !known.contains b.id
  let current := r.backups.map (·.id)
  if (new.map (·.id)).Nodup then
    some
      { observed := some
          { primary := r.primary
            syncDegraded := r.syncDegraded
            needsReseed := r.needsReseed
            backupError := r.backupError
            failoverCount := max r.failovers.length c.seen }
        backups := (c.backups ++ new).filter fun b => current.contains b.id
        events := c.events ++ (r.failovers.drop c.seen).map .failoverCompleted
          ++ c.syncEvents r ++ c.backupErrorEvents r
          ++ new.map fun b => .backupCompleted b.id b.label }
  else none

def announced (c : ClusterRecord) : List FailoverEntry :=
  c.events.filterMap ClusterEvent.failover?

end ClusterRecord

/-! ## A cluster and its record -/

structure ReportedCluster where
  topology : ClusterTopology
  /-- Every failover that was recorded: a ghost. -/
  recorded : List FailoverEvent
  record : ClusterRecord

inductive Label where
  | command (now : Int) (cmd : TopologyCommand)
  | report (findings : Findings)

def recordedBy : TopologyCommand → List FailoverEvent
  | .recordFailover event => [event]
  | _ => []

def machine (rfc3339 : Int → String) : Machine ReportedCluster Label where
  init := ⟨.empty, [], ⟨none, [], []⟩⟩
  step s
    | .command now cmd =>
      some { s with
        topology := s.topology.applyCommand now cmd
        recorded := s.recorded ++ recordedBy cmd }
    | .report findings =>
      (s.record.clusterReport ⟨findings, failoverHistory rfc3339 s.topology⟩).map fun record =>
        { s with record := record }

variable {rfc3339 : Int → String} {s s' : ReportedCluster} {l : Label} {findings : Findings}

/-! ## Only failovers announce failovers -/

theorem failover?_syncEvents (c : ClusterRecord) (r : ClusterReport) :
    (c.syncEvents r).filterMap ClusterEvent.failover? = [] := by
  unfold ClusterRecord.syncEvents
  dsimp only
  split_ifs <;> rfl

theorem failover?_backupErrorEvents (c : ClusterRecord) (r : ClusterReport) :
    (c.backupErrorEvents r).filterMap ClusterEvent.failover? = [] := by
  unfold ClusterRecord.backupErrorEvents
  cases r.backupError with
  | none => rfl
  | some =>
    dsimp only
    split_ifs <;> rfl

theorem announced_clusterReport {c c' : ClusterRecord} {r : ClusterReport}
    (h : c.clusterReport r = some c') : c'.announced = c.announced ++ r.failovers.drop c.seen
      ∧ c'.seen = max r.failovers.length c.seen := by
  obtain ⟨-, rfl⟩ := Option.ite_some_none_eq_some.mp h
  refine ⟨?_, rfl⟩
  have hfailovers : ((r.failovers.drop c.seen).map ClusterEvent.failoverCompleted).filterMap
      ClusterEvent.failover? = r.failovers.drop c.seen := by
    rw [filterMap_map]
    exact filterMap_some
  have hbackups : ∀ new : List BackupReport,
      (new.map fun b => ClusterEvent.backupCompleted b.id b.label).filterMap
        ClusterEvent.failover? = [] := by
    intro _
    rw [filterMap_map]
    exact filterMap_eq_nil_iff.mpr fun _ _ => rfl
  simp only [ClusterRecord.announced, filterMap_append, hfailovers, hbackups,
    failover?_syncEvents, failover?_backupErrorEvents, append_nil]

/-! ## Runs -/

/-- The history is the end of what was recorded, and up to the place the last report
ended at, while that is all of it, every failover has been announced. -/
structure Follows (rfc3339 : Int → String) (s : ReportedCluster) : Prop where
  history : s.topology.failoverHistory
    = s.recorded.drop (s.recorded.length - ClusterTopology.failoverHistoryMax)
  announced : s.recorded.length ≤ ClusterTopology.failoverHistoryMax →
    s.record.seen ≤ s.recorded.length
      ∧ s.record.announced = (s.recorded.take s.record.seen).map (describe rfc3339)

theorem history_append {recorded : List FailoverEvent} {event : FailoverEvent} (m : Nat) :
    (recorded.drop (recorded.length - m) ++ [event]).drop
        ((recorded.drop (recorded.length - m) ++ [event]).length - m)
      = (recorded ++ [event]).drop ((recorded ++ [event]).length - m) := by
  have hle : recorded.length - m ≤ recorded.length := Nat.sub_le _ _
  rw [← drop_append_of_le_length hle, drop_drop]
  congr 1
  simp only [length_drop, length_append, length_singleton]
  omega

theorem Follows.recordFailover (h : Follows rfc3339 s) {now : Int} {event : FailoverEvent} :
    Follows rfc3339 { s with
      topology := s.topology.applyCommand now (.recordFailover event)
      recorded := s.recorded ++ [event] } where
  history := by
    show (s.topology.failoverHistory ++ [event]).drop
      ((s.topology.failoverHistory ++ [event]).length - ClusterTopology.failoverHistoryMax) = _
    rw [h.history]
    exact history_append _
  announced := by
    intro hmax
    have hlength : s.recorded.length ≤ (s.recorded ++ [event]).length := by simp
    obtain ⟨hseen, hannounced⟩ := h.announced (hlength.trans hmax)
    refine ⟨hseen.trans hlength, ?_⟩
    show s.record.announced = ((s.recorded ++ [event]).take s.record.seen).map _
    rw [take_append_of_le_length hseen]
    exact hannounced

theorem Follows.report (h : Follows rfc3339 s)
    (hmax : s.recorded.length ≤ ClusterTopology.failoverHistoryMax) {record : ClusterRecord}
    (hrecord : s.record.clusterReport ⟨findings, failoverHistory rfc3339 s.topology⟩
      = some record) :
    record.announced = s.recorded.map (describe rfc3339) ∧ record.seen = s.recorded.length := by
  obtain ⟨hannounced, hcount⟩ := announced_clusterReport hrecord
  obtain ⟨hseen, hbefore⟩ := h.announced hmax
  have hhistory : failoverHistory rfc3339 s.topology = s.recorded.map (describe rfc3339) := by
    rw [failoverHistory, h.history, Nat.sub_eq_zero_of_le hmax, drop_zero]
  rw [hhistory] at hannounced hcount
  constructor
  · rw [hannounced, hbefore, ← map_drop, ← map_append, take_append_drop]
  · rw [hcount, length_map, Nat.max_eq_left hseen]

theorem Follows.step (h : Follows rfc3339 s) (hs : (machine rfc3339).step s l = some s') :
    Follows rfc3339 s' := by
  cases l with
  | command _ cmd =>
    cases hs
    cases cmd with
    | recordFailover => exact h.recordFailover
    | _ =>
      dsimp only [recordedBy]
      rw [append_nil]
      exact ⟨h.history, h.announced⟩
  | report =>
    obtain ⟨record, hrecord, rfl⟩ := Option.map_eq_some_iff.mp hs
    refine ⟨h.history, fun hmax => ?_⟩
    obtain ⟨hannounced, hseen⟩ := h.report hmax hrecord
    refine ⟨Nat.le_of_eq hseen, ?_⟩
    show record.announced = (s.recorded.take record.seen).map _
    rw [hseen, take_length]
    exact hannounced

/-- After each report the failovers announced are those recorded so far, each once
and in order, while the history has not dropped any. -/
theorem failovers_announced_once (hr : (machine rfc3339).Reachable s)
    (hs : (machine rfc3339).step s (.report findings) = some s')
    (hmax : s.recorded.length ≤ ClusterTopology.failoverHistoryMax) :
    s'.record.announced = s.recorded.map (describe rfc3339) := by
  have h : Follows rfc3339 s := by
    refine hr.invariant ⟨rfl, fun _ => ⟨le_rfl, rfl⟩⟩ ?_
    intro _ _ _ h _ hs
    exact h.step hs
  obtain ⟨_, hrecord, rfl⟩ := Option.map_eq_some_iff.mp hs
  exact (h.report hmax hrecord).1

def demoFailover (second : Nat) : Label :=
  .command second (.recordFailover ⟨"pg1", "pg2", second, 900, "health_check_failure", false⟩)

def healthy : Findings := ⟨some "pg2", false, [], [], none⟩

def threeFailovers : List Label := [demoFailover 1, .report healthy, demoFailover 2, demoFailover 3]

theorem failovers_announced_once_threeFailovers :
    ∃ s s', (machine toString).run threeFailovers = some s
      ∧ (machine toString).step s (.report healthy) = some s' ∧ s.recorded.length = 3
      ∧ s'.record.announced = s.recorded.map (describe toString) := by
  have hrun : ∃ s s', (machine toString).run threeFailovers = some s
      ∧ (machine toString).step s (.report healthy) = some s' ∧ s.recorded.length = 3 :=
    ⟨_, _, rfl, rfl, by decide⟩
  obtain ⟨s, s', hs, hstep, hlength⟩ := hrun
  have hmax : s.recorded.length ≤ ClusterTopology.failoverHistoryMax := by
    rw [hlength]
    decide
  exact ⟨s, s', hs, hstep, hlength,
    failovers_announced_once (Machine.reachable_of_run hs) hstep hmax⟩

/-- A report after a hundred failovers, and one after the next. -/
def hundredAndOne : List Label :=
  (List.range 100).map demoFailover ++ [.report healthy, demoFailover 100, .report healthy]

theorem failover_not_announced : ∃ s, (machine toString).run hundredAndOne = some s
    ∧ (machine toString).Reachable s
    ∧ (s.recorded.length = 101 ∧ s.record.announced.length = 100) :=
  Machine.exists_of_run (by decide +kernel) fun _ => of_decide_eq_true

end PgCluster.ClusterReports
