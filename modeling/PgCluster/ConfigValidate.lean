import PgCluster.NetParse
import PgCluster.RaftTopology

/-!
# The configuration and what `validate` accepts

`config/mod.rs` and `config/validate.rs`, with the fields `validate` and the
bootstrap seed read. The checks run in the order of the source and the first
that fails is the error, which names the field it is about. Sums and products
are over the natural numbers.

CIDR blocks are parsed by a third-party crate, so which strings it accepts
is the parameter `parsesCidr`.
-/

namespace PgCluster

/-! ## The configuration -/

structure ClusterConfig where
  name : String
  dataDir : String

structure RaftPeer where
  id : Nat
  addr : String

structure RaftConfig where
  nodeId : Nat
  peers : List RaftPeer
  heartbeatIntervalMs : Nat := 150
  electionTimeoutMs : Nat := 500

structure NodeEntry where
  id : String
  agentAddr : String
  postgresAddr : String
  priority : Nat := 100
  tags : HashMap String String := ∅

structure ReplicationConfig where
  replicationMode : ReplicationMode := .async
  syncDegradeTimeoutSeconds : Nat := 30
  maxSlotWalKeepSizeMb : Nat := 10 * 1024

structure ProxyConfig where
  listenAddr : String := "0.0.0.0:5432"
  adminListenAddr : String := "0.0.0.0:5433"
  healthListenAddr : String := "0.0.0.0:8008"
  authUser : String := "pgcluster_auth"
  quorumLeaseMs : Nat := 1000
  allowedCidrs : Option (List String) := none
  requireTls : Bool := false
  maxClientConnections : Nat := 10000
  maxPendingLogins : Nat := 512
  maxPendingLoginsPerAddress : Nat := 64
  loginTimeoutMs : Nat := 10000

structure FailoverConfig where
  healthCheckIntervalMs : Nat := 500
  healthCheckFailuresBeforeFailover : Nat := 3
  agentHeartbeatTimeoutSeconds : Nat := 10

structure TlsConfig where
  caCert : Option String := none
  cert : Option String := none
  key : Option String := none
  insecurePlaintext : Bool := false

structure MetricsConfig where
  listenAddr : String := "0.0.0.0:9190"

structure ApiConfig where
  listenAddr : String := "0.0.0.0:8009"
  apiKeys : List String := []
  insecureNoAuth : Bool := false

structure S3Config where
  bucket : String

structure PosixConfig where
  path : String

structure BackupConfig where
  s3 : Option S3Config := none
  posix : Option PosixConfig := none
  intervalSeconds : Nat := 24 * 3600
  retainFull : Nat := 4

structure PgClusterConfig where
  cluster : ClusterConfig
  raft : RaftConfig
  nodes : List NodeEntry := []
  replication : ReplicationConfig := {}
  proxy : ProxyConfig := {}
  failover : FailoverConfig := {}
  tls : TlsConfig := {}
  metrics : MetricsConfig := {}
  api : ApiConfig := {}
  backup : Option BackupConfig := none

/-! ## The checks -/

/-- The error of each check, with the values its text shows. -/
inductive ConfigError where
  | clusterName
  | clusterDataDir
  | raftPeersEmpty
  | raftNodeIdNotInPeers (nodeId : Nat)
  | raftDuplicatePeers
  | raftPeerAddr (id : Nat) (addr : String)
  | raftElectionTimeout (electionTimeoutMs heartbeatIntervalMs minElection : Nat)
  | nodeIdEmpty
  | nodeIdDuplicate (id : String)
  | bindAddress (field addr : String)
  | nodePostgresAddr (id addr : String)
  | nodeAgentAddr (id addr : String)
  | replicationModeNeedsStandby
  | syncDegradeTimeout
  | maxSlotWalKeepSize
  | proxyAuthUser
  | proxyAllowedCidrs (cidr : String)
  | proxyRequireTls
  | proxyLimits
  | proxyLeaseTooShort (lease : Nat)
  | proxyLeaseTooLong (lease detection : Nat)
  | agentHeartbeatTimeout (seconds needed : Nat)
  | tlsEither
  | tlsFilesRequired
  | apiEmptyKey
  | apiKeysRequired
  | apiEither
  | backupBucket
  | backupPath
  | backupEither
  | backupInterval
  | backupRetainFull
deriving DecidableEq

def bailIf (cond : Bool) (e : ConfigError) : Except ConfigError Unit :=
  if cond then .error e else .ok ()

/-- Any "host:port" where port is a valid `u16`: the last colon splits. -/
def parsesHostPort (s : String) : Bool :=
  let portReversed := s.toList.reverse.takeWhile (· ≠ ':')
  let hostReversed := (s.toList.reverse.dropWhile (· ≠ ':')).tail
  s.toList.contains ':' && !hostReversed.isEmpty && parsesU16 portReversed.reverse

/-- Below this, a single slow probe round would stop the proxy. -/
def minQuorumLeaseMs : Nat := 200

section Checks

variable (parsesCidr : String → Bool) (cfg : PgClusterConfig)

def validateCluster : Except ConfigError Unit := do
  bailIf (cfg.cluster.name == "") .clusterName
  bailIf (cfg.cluster.dataDir == "") .clusterDataDir

def validateRaft : Except ConfigError Unit := do
  bailIf cfg.raft.peers.isEmpty .raftPeersEmpty
  let peerIds := cfg.raft.peers.map (·.id)
  bailIf (!peerIds.contains cfg.raft.nodeId) (.raftNodeIdNotInPeers cfg.raft.nodeId)
  bailIf (!decide peerIds.Nodup) .raftDuplicatePeers
  for peer in cfg.raft.peers do
    bailIf (!parsesHostPort peer.addr) (.raftPeerAddr peer.id peer.addr)
  let minElection := cfg.raft.heartbeatIntervalMs * 2
  bailIf (cfg.raft.electionTimeoutMs < minElection)
    (.raftElectionTimeout cfg.raft.electionTimeoutMs cfg.raft.heartbeatIntervalMs minElection)

/-- The loop over the nodes, with the ids seen so far. -/
def validateNodesFrom (seen : List String) : List NodeEntry → Except ConfigError Unit
  | [] => .ok ()
  | node :: rest => do
      bailIf (node.id == "") .nodeIdEmpty
      bailIf (seen.contains node.id) (.nodeIdDuplicate node.id)
      validateNodesFrom (node.id :: seen) rest

def validateNodes : Except ConfigError Unit := validateNodesFrom [] cfg.nodes

def validateAddresses : Except ConfigError Unit := do
  for (name, addr) in [("proxy.listen_addr", cfg.proxy.listenAddr),
      ("proxy.admin_listen_addr", cfg.proxy.adminListenAddr),
      ("proxy.health_listen_addr", cfg.proxy.healthListenAddr),
      ("metrics.listen_addr", cfg.metrics.listenAddr),
      ("api.listen_addr", cfg.api.listenAddr)] do
    bailIf (!parsesSocketAddr addr) (.bindAddress name addr)
  for node in cfg.nodes do
    bailIf (!parsesHostPort node.postgresAddr) (.nodePostgresAddr node.id node.postgresAddr)
    bailIf (!parsesHostPort node.agentAddr) (.nodeAgentAddr node.id node.agentAddr)

def validateReplication : Except ConfigError Unit := do
  bailIf (cfg.replication.replicationMode ≠ .async && cfg.nodes.length < 2)
    .replicationModeNeedsStandby
  bailIf (cfg.replication.syncDegradeTimeoutSeconds == 0) .syncDegradeTimeout
  bailIf (cfg.replication.maxSlotWalKeepSizeMb == 0) .maxSlotWalKeepSize

/-- How long the monitor takes to see a primary as failed, in the words of
the source. -/
def PgClusterConfig.detection : Nat :=
  cfg.failover.healthCheckIntervalMs * cfg.failover.healthCheckFailuresBeforeFailover

def validateTiming : Except ConfigError Unit := do
  let lease := cfg.proxy.quorumLeaseMs
  bailIf (cfg.proxy.authUser == "") .proxyAuthUser
  for cidr in cfg.proxy.allowedCidrs.getD [] do
    bailIf (!parsesCidr cidr) (.proxyAllowedCidrs cidr)
  bailIf (cfg.proxy.requireTls && cfg.tls.insecurePlaintext) .proxyRequireTls
  bailIf (cfg.proxy.maxClientConnections == 0 || cfg.proxy.maxPendingLogins == 0
    || cfg.proxy.maxPendingLoginsPerAddress == 0 || cfg.proxy.loginTimeoutMs == 0) .proxyLimits
  bailIf (lease < minQuorumLeaseMs) (.proxyLeaseTooShort lease)
  -- An isolated proxy must stop before the majority can start a failover.
  bailIf (cfg.detection ≤ lease) (.proxyLeaseTooLong lease cfg.detection)
  let needed := cfg.raft.electionTimeoutMs * 2 + cfg.failover.healthCheckIntervalMs
  let heartbeatTimeout := cfg.failover.agentHeartbeatTimeoutSeconds * 1000
  bailIf (heartbeatTimeout ≤ needed)
    (.agentHeartbeatTimeout cfg.failover.agentHeartbeatTimeoutSeconds needed)

def validateTls : Except ConfigError Unit :=
  let files := [cfg.tls.caCert, cfg.tls.cert, cfg.tls.key]
  if cfg.tls.insecurePlaintext then bailIf (files.any (·.isSome)) .tlsEither
  else bailIf (files.any (·.isNone)) .tlsFilesRequired

def validateApi : Except ConfigError Unit := do
  bailIf (cfg.api.apiKeys.any fun k => k.toList.all isWhitespace) .apiEmptyKey
  bailIf (cfg.api.apiKeys.isEmpty && !cfg.api.insecureNoAuth) .apiKeysRequired
  bailIf (!cfg.api.apiKeys.isEmpty && cfg.api.insecureNoAuth) .apiEither

def validateBackup : Except ConfigError Unit :=
  match cfg.backup with
  | none => .ok ()
  | some backup => do
      match backup.s3, backup.posix with
      | some s3, none => bailIf (s3.bucket == "") .backupBucket
      | none, some posix => bailIf (posix.path.toList.head? ≠ some '/') .backupPath
      | _, _ => .error .backupEither
      bailIf (backup.intervalSeconds == 0) .backupInterval
      bailIf (backup.retainFull == 0) .backupRetainFull

def validate : Except ConfigError Unit := do
  validateCluster cfg
  validateRaft cfg
  validateNodes cfg
  validateAddresses cfg
  validateReplication cfg
  validateTiming parsesCidr cfg
  validateTls cfg
  validateApi cfg
  validateBackup cfg

end Checks

/-! ## What an accepted configuration satisfies -/

variable {parsesCidr : String → Bool} {cfg : PgClusterConfig}

theorem bailIf_eq_ok {cond : Bool} {e : ConfigError} : bailIf cond e = .ok () ↔ cond = false := by
  cases cond <;> simp [bailIf]

theorem check_then_eq_ok {check : Except ConfigError Unit} {rest : Unit → Except ConfigError Unit} :
    (check >>= rest) = .ok () ↔ check = .ok () ∧ rest () = .ok () := by
  cases check with
  | error => exact ⟨nofun, nofun⟩
  | ok => exact ⟨fun h => ⟨rfl, h⟩, And.right⟩

section

variable (h : validate parsesCidr cfg = .ok ())
include h

theorem validateTiming_of_validate : validateTiming parsesCidr cfg = .ok () := by
  simp only [validate, check_then_eq_ok] at h
  obtain ⟨-, -, -, -, -, htiming, -⟩ := h
  exact htiming

theorem lease_bounds_of_validate :
    minQuorumLeaseMs ≤ cfg.proxy.quorumLeaseMs ∧ cfg.proxy.quorumLeaseMs < cfg.detection := by
  have htiming := validateTiming_of_validate h
  simp only [validateTiming, check_then_eq_ok, bailIf_eq_ok] at htiming
  obtain ⟨-, -, -, -, hmin, hmax, -⟩ := htiming
  constructor
  · simpa using hmin
  · simpa using hmax

theorem failures_pos_of_validate : 0 < cfg.failover.healthCheckFailuresBeforeFailover := by
  have hdetection : 0 < cfg.detection := Nat.zero_lt_of_lt (lease_bounds_of_validate h).2
  exact Nat.pos_of_mul_pos_left hdetection

end

end PgCluster
