import PgCluster.FailoverEngine
import PgCluster.Machine
import PgCluster.NodeMonitor

/-!
# Failovers on one instance

Everything on a pgcluster instance that can start a failover or change the
primary under one: the monitor's tick, the API's failover and switchover
handlers with the tasks they spawn, the commands applied from the Raft log,
and the task that forwards the applied topology to the watch everybody
reads. The state machine here interleaves their steps between any two
awaits; `op_in_progress` is the only thing they coordinate by.

A failover names the node it takes for the failed primary twice removed
from the truth: the monitor compares against the topology it read when its
tick began, the API takes the name from the request. `entered` and
`promotes` record what held when it mattered, so that later one can say
when that is the current primary: the watch had caught up when the tick
read it, the request named the primary, and no step changed the primary
while a decision was `exposed`.
-/

namespace PgCluster

/-! ## State -/

/-- Where the monitor's loop is. `heldFor` is ghost, as in `FailoverCall`. -/
inductive MonitorPhase where
  | idle
  | polling (topology : ClusterTopology)
  | processing (topology : ClusterTopology) (rest : List HealthCheckResult)
  | writing (topology : ClusterTopology) (writes : List TopologyCommand)
      (rest : List HealthCheckResult)
  | markOffline (topology : ClusterTopology) (nodeId heldFor : String)
      (rest : List HealthCheckResult)
  | failover (call : FailoverCall) (rest : List HealthCheckResult)

/-- A request being handled, or the task it spawned. -/
inductive Task where
  | failoverAcquired (failedNodeId heldFor : String)
  | failoverMarkOffline (topology : ClusterTopology) (failedNodeId heldFor : String)
  | failoverCall (call : FailoverCall)
  | switchoverChecked (target : String)
  | switchoverRunning (target : String)

/-- A call of `trigger_failover` that was entered. -/
structure FailoverEntry where
  failedPrimary : String
  heldFor : String
deriving DecidableEq

/-- A Promote request, and the primary of the latest applied topology at
that moment. -/
structure PromoteSent where
  candidate : String
  failedPrimary : String
  primary : String
deriving DecidableEq

/-- `applied` is the state machine's topology, `watched` what the topology
watch shows, and `forwarding` what the forwarding task has read and not yet
sent. The last two fields are ghost. -/
structure ClusterInstance where
  applied : ClusterTopology
  forwarding : Option ClusterTopology
  watched : ClusterTopology
  opInProgress : Bool
  tracker : FailureTracker
  monitor : MonitorPhase
  tasks : List Task
  entered : List FailoverEntry
  promotes : List PromoteSent

inductive TaskInput where
  | readTopology
  | markedOffline (committed : Option Int)
  | failover (input : FailoverInput)
  | acquire
  | setPrimary (now : Int) (atLsn : Nat)
  | finish

inductive InstanceStep where
  | commit (now : Int) (cmd : TopologyCommand)
  | forwardRead
  | forwardSend
  | tick (driving : Bool)
  | polled (results : List HealthCheckResult)
  | visit
  | wrote (committed : Option Int)
  | markedOffline (committed : Option Int)
  | failover (input : FailoverInput)
  | failoverRequest (failedNodeId : String)
  | switchoverRequest (target : String)
  | task (i : Nat) (input : TaskInput)

namespace ClusterInstance

/-! ## Steps -/

def commit (s : ClusterInstance) (now : Int) (cmd : TopologyCommand) : ClusterInstance :=
  { s with applied := s.applied.applyCommand now cmd }

/-- A Raft write: its command is applied if it is committed. -/
def write (s : ClusterInstance) (committed : Option Int) (cmd : TopologyCommand) :
    ClusterInstance :=
  match committed with
  | some now => s.commit now cmd
  | none => s

def enter (s : ClusterInstance) (topology : ClusterTopology) (failed heldFor : String) :
    ClusterInstance × FailoverCall :=
  ({ s with entered := ⟨failed, heldFor⟩ :: s.entered }, ⟨topology, failed, .pick, heldFor⟩)

/-- One step of a running `trigger_failover`; no call is left when it
returned. -/
def runCall (s : ClusterInstance) (call : FailoverCall) (input : FailoverInput) :
    Option (ClusterInstance × Option FailoverCall) :=
  (call.step input).map fun effect =>
    let promotes := match effect.promoteSent with
      | some candidate =>
        ⟨candidate, call.failedPrimary, s.applied.primaryNodeId⟩ :: s.promotes
      | none => s.promotes
    let s := { s with promotes := promotes }
    let s := match effect.command with
      | some (now, cmd) => s.commit now cmd
      | none => s
    (s, effect.next.map fun phase => { call with phase := phase })

/-- The body of the monitor's loop for one result, up to its first await. -/
def visitResult (threshold : Nat) (s : ClusterInstance) (topology : ClusterTopology)
    (r : HealthCheckResult) (rest : List HealthCheckResult) : ClusterInstance :=
  match r.visit topology with
  | .skip => { s with monitor := .processing topology rest }
  | .healthy =>
    let s := { s with tracker := s.tracker.recordSuccess r.nodeId }
    if r.isStalePrimary s.watched s.opInProgress
    then { s with monitor := .processing topology rest }
    else { s with monitor := .writing topology (r.healthyWrites topology) rest }
  | .failing =>
    let s := { s with tracker := s.tracker.recordFailure r.nodeId }
    if s.tracker.isFailed r.nodeId threshold && r.nodeId = topology.primaryNodeId && !s.opInProgress
    then { s with
      opInProgress := true
      monitor := .markOffline topology r.nodeId s.applied.primaryNodeId rest }
    else { s with monitor := .processing topology rest }

/-- The checks of the switchover handler, on the topology the watch shows. -/
def switchoverAllowed (t : ClusterTopology) (target : String) : Bool :=
  t.isMember target && t.primaryNodeId ≠ target && t.nodeRoles.lookup target = some .replica

/-- One step of a task; no task is left when it ended. Whoever holds
`op_in_progress` releases it on the way out. -/
def stepTask (s : ClusterInstance) : Task → TaskInput → Option (ClusterInstance × Option Task)
  | .failoverAcquired failed heldFor, .readTopology =>
    if (s.watched.nodeConfigs.lookup failed).isSome
    then some (s, some (.failoverMarkOffline s.watched failed heldFor))
    else some ({ s with opInProgress := false }, none)
  | .failoverMarkOffline _ _ _, .markedOffline none =>
    some ({ s with opInProgress := false }, none)
  | .failoverMarkOffline topology failed heldFor, .markedOffline (some now) =>
    let (s, call) := (s.commit now (.markOffline failed)).enter topology failed heldFor
    some (s, some (.failoverCall call))
  | .failoverCall call, .failover input =>
    (s.runCall call input).map fun
      | (s, some call) => (s, some (.failoverCall call))
      | (s, none) => ({ s with opInProgress := false }, none)
  | .switchoverChecked target, .acquire =>
    if s.opInProgress then some (s, none)
    else some ({ s with opInProgress := true }, some (.switchoverRunning target))
  | .switchoverRunning target, .setPrimary now atLsn =>
    some (s.commit now (.setPrimary target atLsn 0), some (.switchoverRunning target))
  | .switchoverRunning _, .finish => some ({ s with opInProgress := false }, none)
  | _, _ => none

def step (threshold : Nat) (s : ClusterInstance) : InstanceStep → Option ClusterInstance
  | .commit now cmd => some (s.commit now cmd)
  | .forwardRead => some { s with forwarding := some s.applied }
  | .forwardSend => s.forwarding.map fun t => { s with forwarding := none, watched := t }
  | .tick driving =>
    match s.monitor with
    | .idle => if driving then some { s with monitor := .polling s.watched } else some s
    | _ => none
  | .polled results =>
    match s.monitor with
    | .polling topology =>
      -- One result for each configured node, less those whose task panicked.
      if (results.map (·.nodeId)).Nodup
          ∧ ∀ r ∈ results, (topology.nodeConfigs.lookup r.nodeId).isSome = true
      then some { s with monitor := .processing topology results } else none
    | _ => none
  | .visit =>
    match s.monitor with
    | .processing _ [] => some { s with monitor := .idle }
    | .processing topology (r :: rest) => some (s.visitResult threshold topology r rest)
    | _ => none
  | .wrote committed =>
    match s.monitor with
    | .writing topology (cmd :: cmds) rest =>
      let s := s.write committed cmd
      if cmds.isEmpty then some { s with monitor := .processing topology rest }
      else some { s with monitor := .writing topology cmds rest }
    | _ => none
  | .markedOffline committed =>
    match s.monitor, committed with
    | .markOffline topology _ _ rest, none =>
      some { s with opInProgress := false, monitor := .processing topology rest }
    | .markOffline topology nodeId heldFor rest, some now =>
      let (s, call) := (s.commit now (.markOffline nodeId)).enter topology nodeId heldFor
      some { s with monitor := .failover call rest }
    | _, _ => none
  | .failover input =>
    match s.monitor with
    | .failover call rest =>
      (s.runCall call input).map fun
        | (s, some call) => { s with monitor := .failover call rest }
        | (s, none) =>
          { s with
            opInProgress := false
            tracker := s.tracker.recordSuccess call.failedPrimary
            monitor := .processing call.topology rest }
    | _ => none
  | .failoverRequest failed =>
    if s.opInProgress then some s
    else some { s with
      opInProgress := true
      tasks := .failoverAcquired failed s.applied.primaryNodeId :: s.tasks }
  | .switchoverRequest target =>
    if switchoverAllowed s.watched target
    then some { s with tasks := .switchoverChecked target :: s.tasks } else some s
  | .task i input =>
    match s.tasks[i]? with
    | some task =>
      (s.stepTask task input).map fun
        | (s, some task) => { s with tasks := s.tasks.set i task }
        | (s, none) => { s with tasks := s.tasks.eraseIdx i }
    | none => none

/-- An instance whose state machine and watch start at `t`. -/
def start (t : ClusterTopology) : ClusterInstance where
  applied := t
  forwarding := none
  watched := t
  opInProgress := false
  tracker := .new
  monitor := .idle
  tasks := []
  entered := []
  promotes := []

def machine (threshold : Nat) (t : ClusterTopology) : Machine ClusterInstance InstanceStep where
  init := start t
  step := step threshold

end ClusterInstance

end PgCluster
