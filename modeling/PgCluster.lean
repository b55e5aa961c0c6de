import PgCluster.RaftSnapshot
import PgCluster.RaftRecovery
import PgCluster.RaftLogState
import PgCluster.ReplicationSlots
import PgCluster.SwitchoverWritable
import PgCluster.LeaseIsolation
import PgCluster.AgentFence
import PgCluster.AgentCrash
import PgCluster.ProxyBackends
import PgCluster.ProxyClean
import PgCluster.ProxyIsolation
import PgCluster.AdminSharing
import PgCluster.HostRemoval
import PgCluster.CaTrust
import PgCluster.NodeTrust
import PgCluster.RolePasswords
import PgCluster.OperationLock
import PgCluster.BootstrapSeed
import PgCluster.SyncFallback
import PgCluster.SwitchoverTarget
import PgCluster.PrimaryProposals
import PgCluster.ProxyAccounting
import PgCluster.AdminQueue
import PgCluster.HostTasks
import PgCluster.RaftMembership
import PgCluster.ProxyLimits
import PgCluster.ScramBackend
import PgCluster.ProxyFrames
import PgCluster.ScramExchange
import PgCluster.ProxyDrain
import PgCluster.ProxySettings
import PgCluster.ProxyReplies
import PgCluster.ProxyDuplex
import PgCluster.DesiredAccess
import PgCluster.TopologyHistories
import PgCluster.ReplicaLag
import PgCluster.EventFeed
import PgCluster.AdminSeparation
import PgCluster.BackupRepositories
import PgCluster.HostDrain
import PgCluster.ReplicaIds
import PgCluster.AdminPorts
import PgCluster.AdminUpgrade
import PgCluster.RestoreWindow
import PgCluster.SecretsFile
import PgCluster.BackupRetention
