import PgCluster.RaftTopology

/-!
# Topology commands and their effect

Every topology change is a log entry carrying one `TopologyCommand`, and
`applyCommand` is what every instance does with it. The command stamps the
topology first - `version` goes up by one, `lastChangedAt` is the local
clock - and then takes its own effect (`commandEffect`), which touches
neither stamp. The clock is the only input that differs between instances,
so it is an explicit argument, and the two facts below say how little it
matters:

- `commandEffect_withClock`: an effect commutes with setting the clock,
- `applyCommand_sameButClock`: topologies that agree up to the clock still
  agree after the same command, whatever the two clocks read.
-/

namespace PgCluster

/-- A Raft log entry's payload; `raft/commands.rs`. -/
inductive TopologyCommand where
  | setPrimary (nodeId : String) (atLsn newTimeline : Nat)
  | markOffline (nodeId : String)
  | markReplica (nodeId : String) (flushLsn : Nat)
  | markMaintenance (nodeId : String)
  | updatePrimaryConninfo (nodeId conninfo : String)
  | updateFlushLsn (nodeId : String) (flushLsn replayLsn : Nat)
  | addNode (cfg : NodeConfig)
  | removeNode (nodeId : String)
  | recordFailover (event : FailoverEvent)
  | setReplicationMode (mode : ReplicationMode)
  | setSyncDegraded (degraded : Bool)
  | setNeedsReseed (nodeId : String) (needsReseed : Bool)
  | setReplicationSlot (nodeId slotName : String)
  | addBackupManifest (manifest : BackupManifest)
  | removeBackupManifest (backupId : String)
deriving DecidableEq

namespace ClusterTopology

def backupsMax : Nat := 1000

/-- What a command does besides stamping the topology: the `match` of
`TopologyStateMachine::apply_command`. -/
def commandEffect (t : ClusterTopology) : TopologyCommand → ClusterTopology
  | .setPrimary nodeId atLsn _ =>
    let roles :=
      if t.primaryNodeId ≠ "" ∧ t.primaryNodeId ≠ nodeId
      then t.nodeRoles.insert t.primaryNodeId .replica else t.nodeRoles
    { t with
      primaryNodeId := nodeId
      nodeRoles := roles.insert nodeId .primary
      lastFlushLsns := t.lastFlushLsns.insert nodeId atLsn }
  | .markOffline nodeId =>
    { t with nodeRoles := t.nodeRoles.insert nodeId .offline }
  | .markReplica nodeId flushLsn =>
    { t with
      nodeRoles := t.nodeRoles.insert nodeId .replica
      lastFlushLsns := t.lastFlushLsns.insert nodeId flushLsn }
  | .markMaintenance nodeId =>
    { t with nodeRoles := t.nodeRoles.insert nodeId .maintenance }
  | .updatePrimaryConninfo nodeId conninfo =>
    { t with primaryConninfos := t.primaryConninfos.insert nodeId conninfo }
  | .updateFlushLsn nodeId flushLsn replayLsn =>
    let flushLsns := t.lastFlushLsns.insert nodeId flushLsn
    -- the lag is measured against the primary's position *after* the insert
    let lag :=
      if t.primaryNodeId ≠ "" ∧ nodeId ≠ t.primaryNodeId
      then t.replicaLagBytes.insert nodeId ((flushLsns.lookup t.primaryNodeId).getD 0 - flushLsn)
      else t.replicaLagBytes
    { t with
      lastFlushLsns := flushLsns
      lastReplayLsns := t.lastReplayLsns.insert nodeId replayLsn
      replicaLagBytes := lag }
  | .addNode cfg =>
    let roles :=
      if cfg.nodeId ∈ t.nodeRoles then t.nodeRoles
      else t.nodeRoles.insert cfg.nodeId .unknown
    { t with
      nodeRoles := roles
      nodeConfigs := t.nodeConfigs.insert cfg.nodeId cfg }
  | .removeNode nodeId =>
    { t with
      nodeRoles := t.nodeRoles.erase nodeId
      nodeConfigs := t.nodeConfigs.erase nodeId
      lastFlushLsns := t.lastFlushLsns.erase nodeId
      lastReplayLsns := t.lastReplayLsns.erase nodeId
      replicaLagBytes := t.replicaLagBytes.erase nodeId }
  | .recordFailover event => t.recordFailover event
  | .setReplicationMode mode =>
    { t with replicationMode := mode, syncDegraded := false }
  | .setSyncDegraded degraded => { t with syncDegraded := degraded }
  | .setNeedsReseed nodeId needsReseed =>
    { t with
      needsReseed :=
        if needsReseed then insert nodeId t.needsReseed
        else t.needsReseed.erase nodeId }
  | .setReplicationSlot nodeId slotName =>
    { t with replicaSlots := t.replicaSlots.insert nodeId slotName }
  | .addBackupManifest manifest =>
    -- `sort_by_key` is stable, as insertion sort is
    let sorted := (t.backups ++ [manifest]).insertionSort
      fun a b => b.completedAt ≤ a.completedAt
    { t with backups := sorted.take backupsMax }
  | .removeBackupManifest backupId =>
    { t with backups := t.backups.filter fun b => b.backupId ≠ backupId }

/-- `TopologyStateMachine::apply_command`, with the clock read passed in. -/
def applyCommand (now : Int) (t : ClusterTopology) (cmd : TopologyCommand) :
    ClusterTopology :=
  commandEffect { t with version := t.version + 1, lastChangedAt := now } cmd

/-! ## The stamps -/

def withClock (now : Int) (t : ClusterTopology) : ClusterTopology :=
  { t with lastChangedAt := now }

theorem commandEffect_withClock (now : Int) (t : ClusterTopology) (cmd : TopologyCommand) :
    commandEffect (t.withClock now) cmd = (commandEffect t cmd).withClock now := by
  cases cmd <;> rfl

@[simp] theorem commandEffect_version (t : ClusterTopology) (cmd : TopologyCommand) :
    (commandEffect t cmd).version = t.version := by
  cases cmd <;> rfl

@[simp] theorem applyCommand_version (now : Int) (t : ClusterTopology)
    (cmd : TopologyCommand) : (applyCommand now t cmd).version = t.version + 1 := by
  simp [applyCommand]

/-- The two topologies agree on every field except `lastChangedAt`. -/
def SameButClock (t u : ClusterTopology) : Prop :=
  t.withClock 0 = u.withClock 0

instance (t u : ClusterTopology) : Decidable (SameButClock t u) :=
  inferInstanceAs (Decidable (t.withClock 0 = u.withClock 0))

@[refl] theorem SameButClock.refl (t : ClusterTopology) : SameButClock t t := rfl

theorem SameButClock.version_eq {t u : ClusterTopology} (h : SameButClock t u) :
    t.version = u.version := by
  have h' : t.withClock 0 = u.withClock 0 := h
  exact congrArg (·.version) h'

/-- The stamp and the effect see the clock only through `lastChangedAt`,
so it can be normalised before the command instead of after it. -/
theorem applyCommand_withClock (now : Int) (t : ClusterTopology) (cmd : TopologyCommand) :
    (applyCommand now t cmd).withClock 0 = applyCommand 0 (t.withClock 0) cmd := by
  have h : ({ t with version := t.version + 1, lastChangedAt := now } : ClusterTopology).withClock 0
      = { t.withClock 0 with version := t.version + 1, lastChangedAt := 0 } := rfl
  rw [applyCommand, ← commandEffect_withClock, h]
  rfl

theorem applyCommand_sameButClock {t u : ClusterTopology} (h : SameButClock t u)
    (now now' : Int) (cmd : TopologyCommand) :
    SameButClock (applyCommand now t cmd) (applyCommand now' u cmd) := by
  unfold SameButClock at h ⊢
  rw [applyCommand_withClock, applyCommand_withClock, h]

end ClusterTopology

end PgCluster
