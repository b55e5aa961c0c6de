import Mathlib.Data.List.MinMax
import PgCluster.ProxyBackend
import PgCluster.RaftLease
import PgCluster.RaftTopology

/-!
# Routing decisions

`proxy/router.rs` and the routing half of `proxy/session.rs`: which backend a
statement goes to, read off the topology as this instance last saw it.

`best_replica_addr` goes over a hash map and sorts by lag with a stable sort,
so what it returns depends on the order of the map's keys where lags are
equal. The order is an argument here, and the head of the sorted list is the
first entry with the least lag.
-/

namespace PgCluster

/-! ## What a session wants -/

inductive StatementIntent where
  | read
  | write
  | setLocal
deriving DecidableEq

/-- Where to send the next statement: to the primary, or to a replica with the
primary as the fallback. -/
inductive RouteTarget where
  | primary
  | replicaOrPrimary
deriving DecidableEq

/-- The fields of `SessionState` that routing reads, apart from the transaction
state. -/
structure RoutingMarks where
  isReadOnly : Bool := false
  usedSet : Bool := false
deriving DecidableEq

namespace RoutingMarks

def needsPrimary (marks : RoutingMarks) : TxnState → Bool
  | .idle => false
  | .inTransaction => !marks.isReadOnly
  | .failed => true

def routeIntent (marks : RoutingMarks) (txn : TxnState) :
    StatementIntent → RouteTarget × RoutingMarks
  | .write => (.primary, { marks with isReadOnly := false })
  | .setLocal => (.primary, { marks with usedSet := true })
  | .read =>
    if marks.needsPrimary txn || marks.usedSet then (.primary, marks)
    else (.replicaOrPrimary, marks)

end RoutingMarks

/-! ## The router -/

structure ReadRoutingConfig where
  enabled : Bool
  maxReplicaLagBytes : Nat
deriving DecidableEq

/-- `quorum` must be held to route anything; `none` skips the check. -/
structure Router where
  topology : ClusterTopology
  config : ReadRoutingConfig
  draining : Bool
  quorum : Option QuorumLease

namespace Router

def hasQuorum (r : Router) (now : ℚ) : Bool := r.quorum.all fun lease => lease.isHeld now

def primaryAddr (r : Router) : Option String :=
  (r.topology.nodeConfigs.lookup r.topology.primaryNodeId).map NodeConfig.postgresAddr

def primaryNodeId (r : Router) : Option String :=
  if r.topology.primaryNodeId = "" then none else some r.topology.primaryNodeId

/-- `primary_node_id().zip(primary_addr())`. -/
def primary (r : Router) : Option (String × String) :=
  r.primaryNodeId.bind fun nodeId => r.primaryAddr.map fun addr => (nodeId, addr)

/-- A replica's entry among the candidates for a read: its address and lag. -/
def candidate (r : Router) (nodeId : String) : Option (String × String × Nat) :=
  if r.topology.nodeRoles.lookup nodeId = some .replica then
    (r.topology.nodeConfigs.lookup nodeId).map fun cfg =>
      (nodeId, cfg.postgresAddr, (r.topology.replicaLagBytes.lookup nodeId).getD 0)
  else none

/-- The least-lagged replica within the configured lag. -/
def bestReplicaAddr (r : Router) (order : List String) : Option (String × String) :=
  let candidates := (order.filterMap r.candidate).filter fun c =>
    c.2.2 ≤ r.config.maxReplicaLagBytes
  (candidates.argmin fun c => c.2.2).map fun c => (c.1, c.2.1)

theorem replica_of_bestReplicaAddr {r : Router} {order : List String} {id addr : String}
    (h : r.bestReplicaAddr order = some (id, addr)) : r.topology.nodeRoles.lookup id = some .replica
      ∧ (r.topology.replicaLagBytes.lookup id).getD 0 ≤ r.config.maxReplicaLagBytes := by
  obtain ⟨c, hc, heq⟩ := Option.map_eq_some_iff.mp h
  obtain ⟨rfl, -⟩ := Prod.mk.inj heq
  obtain ⟨hmem, hlag⟩ := List.mem_filter.mp (List.argmin_mem hc)
  obtain ⟨_, -, hcandidate⟩ := List.mem_filterMap.mp hmem
  rw [candidate] at hcandidate
  split_ifs at hcandidate with hrole
  obtain ⟨_, -, rfl⟩ := Option.map_eq_some_iff.mp hcandidate
  exact ⟨hrole, of_decide_eq_true hlag⟩

def readBackend (r : Router) (order : List String) : Option (String × String) :=
  (if r.config.enabled then r.bestReplicaAddr order else none).or
    (r.primaryAddr.map fun addr => (r.topology.primaryNodeId, addr))

/-- `resolve_backend` of `proxy/connection.rs`. -/
def resolveBackend (r : Router) (order : List String) : RouteTarget → Option (String × String)
  | .primary => r.primary
  | .replicaOrPrimary => r.readBackend order

def isPrimary (r : Router) (nodeId : String) : Bool := nodeId = r.topology.primaryNodeId

theorem isPrimary_iff {r : Router} {nodeId : String} :
    r.isPrimary nodeId ↔ nodeId = r.topology.primaryNodeId := by
  simp [isPrimary]

end Router

end PgCluster
