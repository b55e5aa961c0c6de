import Mathlib.Data.Finmap
import Mathlib.Data.Finset.Sort
import Mathlib.Data.String.Basic

/-!
# The replicated cluster topology

The value the Raft log agrees on: who is primary, the role, address and
last known positions of every node, the replication mode, and the bounded
histories. `raft/topology.rs` and `raft/commands.rs` are the source.

A Rust `HashMap` is a `Finmap`: finitely many keys, one value each, and
*no order*. Two maps with the same lookups are equal (`Finmap.ext_lookup`),
and code that iterates a map gets its entries as an unordered set of keys,
so nothing proved here can rest on an iteration order the code does not
have. A `BTreeSet` is a `Finset`, a `Vec` or `VecDeque` a `List`.

`u64` positions and counters are `Nat` and Unix seconds are `Int`:
positions are only compared and subtracted with saturation, which is
`Nat`'s own subtraction.
-/

namespace PgCluster

abbrev HashMap (κ α : Type) := Finmap fun _ : κ => α

inductive NodeRole where
  | primary
  | replica
  | offline
  | maintenance
  | unknown
deriving DecidableEq

/-- How commits relate to standbys. `async` commits after a local flush,
`sync` after a flush on one standby but may fall back, `syncStrict` never
falls back. -/
inductive ReplicationMode where
  | async
  | sync
  | syncStrict
deriving DecidableEq

structure NodeConfig where
  nodeId : String
  agentAddr : String
  postgresAddr : String
  priority : Nat
  tags : HashMap String String
deriving DecidableEq

/-- Tag value for a node that follows the primary from outside. -/
def externalRole : String := "external"

def NodeConfig.isExternal (cfg : NodeConfig) : Bool :=
  cfg.tags.lookup "role" == some externalRole

inductive BackupStatus where
  | completed
  | failed
deriving DecidableEq

structure BackupManifest where
  backupId : String
  label : String
  frequency : String
  sourceNode : String
  startedAt : Int
  completedAt : Int
  sizeBytes : Nat
  location : String
  status : BackupStatus
deriving DecidableEq

structure FailoverEvent where
  oldPrimary : String
  newPrimary : String
  triggeredAt : Int
  durationMs : Nat
  reason : String
  ranDegraded : Bool
deriving DecidableEq

/-- The Raft state machine's value. -/
structure ClusterTopology where
  primaryNodeId : String
  nodeRoles : HashMap String NodeRole
  replicaSlots : HashMap String String
  primaryConninfos : HashMap String String
  lastFlushLsns : HashMap String Nat
  lastReplayLsns : HashMap String Nat
  replicaLagBytes : HashMap String Nat
  nodeConfigs : HashMap String NodeConfig
  failoverHistory : List FailoverEvent
  backups : List BackupManifest
  replicationMode : ReplicationMode
  syncDegraded : Bool
  needsReseed : Finset String
  version : Nat
  lastChangedAt : Int
deriving DecidableEq

namespace ClusterTopology

/-- `ClusterTopology::default()`. -/
def empty : ClusterTopology where
  primaryNodeId := ""
  nodeRoles := ∅
  replicaSlots := ∅
  primaryConninfos := ∅
  lastFlushLsns := ∅
  lastReplayLsns := ∅
  replicaLagBytes := ∅
  nodeConfigs := ∅
  failoverHistory := []
  backups := []
  replicationMode := .async
  syncDegraded := false
  needsReseed := ∅
  version := 0
  lastChangedAt := 0

instance : Inhabited ClusterTopology := ⟨empty⟩

/-! ## Standbys

`standby_names`, the failover's count of standbys and the rolling restart
all select "configured, not external, and not this one"; `standbysExcept`
is that selection. -/

def isMember (t : ClusterTopology) (id : String) : Bool :=
  match t.nodeConfigs.lookup id with
  | some cfg => !cfg.isExternal
  | none => false

/-- The configured, non-external nodes other than `excluded`. -/
def standbysExcept (t : ClusterTopology) (excluded : String) : Finset String :=
  t.nodeConfigs.keys.filter fun id => id ≠ excluded ∧ t.isMember id = true

theorem isMember_iff {t : ClusterTopology} {id : String} :
    t.isMember id ↔ ∃ cfg, t.nodeConfigs.lookup id = some cfg ∧ cfg.isExternal = false := by
  unfold isMember
  cases h : t.nodeConfigs.lookup id with
  | none | some => simp

theorem mem_standbysExcept {t : ClusterTopology} {excluded id : String} :
    id ∈ t.standbysExcept excluded ↔ id ≠ excluded ∧ t.isMember id := by
  rw [standbysExcept, Finset.mem_filter, Finmap.mem_keys, Finmap.mem_iff]
  refine ⟨fun h => h.2, fun h => ⟨?_, h⟩⟩
  obtain ⟨cfg, hcfg, -⟩ := isMember_iff.mp h.2
  exact ⟨cfg, hcfg⟩

/-- `"` doubled, and the whole in `"`: a quoted Postgres identifier. -/
def quoteStandby (id : String) : String :=
  "\"" ++ String.ofList (id.toList.flatMap fun c => if c = '"' then ['"', '"'] else [c]) ++ "\""

def namedStandbys (t : ClusterTopology) : Finset String :=
  t.standbysExcept t.primaryNodeId

/-- `ANY 1 (...)` over every node except the primary, or empty if there
are none. -/
def standbyNames (t : ClusterTopology) : String :=
  let standbys := t.namedStandbys.sort
  if standbys.isEmpty then ""
  else "ANY 1 (" ++ ", ".intercalate (standbys.map quoteStandby) ++ ")"

/-- The `synchronous_standby_names` value for the current state. -/
def synchronousStandbyNames (t : ClusterTopology) : String :=
  let required := match t.replicationMode with
    | .async => false
    | .sync => !t.syncDegraded
    | .syncStrict => true
  if required then t.standbyNames else ""

/-! ## Failover history -/

def failoverHistoryMax : Nat := 100

/-- Append a failover event, keeping only the last `failoverHistoryMax`:
`push_back`, then `pop_front` while too long. -/
def recordFailover (t : ClusterTopology) (event : FailoverEvent) : ClusterTopology :=
  let history := t.failoverHistory ++ [event]
  { t with failoverHistory := history.drop (history.length - failoverHistoryMax) }

end ClusterTopology

end PgCluster
