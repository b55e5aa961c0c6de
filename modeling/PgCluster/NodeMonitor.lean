import PgCluster.RaftCommands

/-!
# What the node monitor decides from one health check

`node_monitor/mod.rs` polls every node on each tick and goes through the
results one by one. This file has the parts of that loop that are functions
of a result and a topology; the loop itself, which shares the operation
flag and the topology with the rest of the instance, is in
`InstanceFailover`. The failure tracker keeps only its counts: nothing reads
the two instants it stores with them.
-/

namespace PgCluster

/-! ## Consecutive failures -/

structure FailureTracker where
  failures : HashMap String Nat
deriving DecidableEq

namespace FailureTracker

def new : FailureTracker := ⟨∅⟩

/-- How many consecutive failures have been recorded for `nodeId`. -/
def failureCount (tr : FailureTracker) (nodeId : String) : Nat :=
  (tr.failures.lookup nodeId).getD 0

def recordFailure (tr : FailureTracker) (nodeId : String) : FailureTracker :=
  ⟨tr.failures.insert nodeId (tr.failureCount nodeId + 1)⟩

/-- Reset the failure counter for `nodeId` (node answered OK). -/
def recordSuccess (tr : FailureTracker) (nodeId : String) : FailureTracker :=
  ⟨tr.failures.erase nodeId⟩

def isFailed (tr : FailureTracker) (nodeId : String) (threshold : Nat) : Bool :=
  decide (threshold ≤ tr.failureCount nodeId)

end FailureTracker

/-! ## One result -/

/-- The parts of a health check the loop decides by. -/
structure HealthCheckResult where
  nodeId : String
  reachable : Bool
  inRecovery : Bool
  flushLsn : Nat
  replayLsn : Nat
  timeline : Nat
  pgRunning : Bool
  hasData : Bool
deriving DecidableEq

namespace HealthCheckResult

/-- `unreachable_result`: a node that did not answer is assumed to have data. -/
def unreachable (nodeId : String) : HealthCheckResult where
  nodeId := nodeId
  reachable := false
  inRecovery := false
  flushLsn := 0
  replayLsn := 0
  timeline := 0
  pgRunning := false
  hasData := true

/-- A node accepting writes that the cluster does not count as its primary.
`current` is the latest topology, not the tick's, and a running failover or
switchover holds the answer back. -/
def isStalePrimary (r : HealthCheckResult) (current : ClusterTopology)
    (opInProgress : Bool) : Bool :=
  !r.inRecovery && current.primaryNodeId ≠ "" && current.primaryNodeId ≠ r.nodeId && !opInProgress

/-- The Raft writes proposed for a healthy node, in order: the primary that
came back before a failover completed, a node without an effective role,
and the positions. -/
def healthyWrites (r : HealthCheckResult) (topology : ClusterTopology) :
    List TopologyCommand :=
  let role := topology.nodeRoles.lookup r.nodeId
  (if r.nodeId = topology.primaryNodeId ∧ role = some .offline ∧ r.inRecovery = false
    then [.setPrimary r.nodeId r.flushLsn r.timeline] else [] : List TopologyCommand)
  ++ (if (role = some .offline ∨ role = some .unknown ∨ role = some .maintenance)
        ∧ r.nodeId ≠ topology.primaryNodeId
    then [.markReplica r.nodeId r.flushLsn] else [] : List TopologyCommand)
  ++ ([.updateFlushLsn r.nodeId r.flushLsn r.replayLsn] : List TopologyCommand)

end HealthCheckResult

/-- Which way the loop body goes for a result. -/
inductive Visit where
  | skip
  | healthy
  | failing
deriving DecidableEq

/-- The branches of the loop body, under the tick's topology. A node that is
not configured, an empty node waiting to be seeded and a failing node in
maintenance are passed over. -/
def HealthCheckResult.visit (r : HealthCheckResult) (topology : ClusterTopology) : Visit :=
  if (topology.nodeConfigs.lookup r.nodeId).isNone then .skip
  else if r.reachable && !r.hasData && r.nodeId ≠ topology.primaryNodeId then .skip
  else if r.reachable && r.pgRunning then .healthy
  else if topology.nodeRoles.lookup r.nodeId = some .maintenance then .skip
  else .failing

end PgCluster
