import PgCluster.AdminWorld
import PgCluster.CaRotation
import PgCluster.Readings

/-!
# The desired state of a host

The rows of the metadata database that a host's desired state is made of, and
`build_desired_state` (`pgcluster-admin/src/agent.rs`). It reads the host's
generation and its instances in one snapshot, and everything else in later
statements, each on its own: the repository checks, the rotation of the admin
CA, and for each instance its repository, peers, replicas and tasks.

The operations of a database that are pending or running stand in its row, in
their order, and are told apart by a number, as tasks are. Secrets are in the
clear. A node's name is `n` and a number. What only the scheduler reads is left
out.
-/

namespace PgCluster.Desired

open PgCluster.Admin (Kind StepName DbStatus Resources DatabaseSecrets NextPasswords)

/-! ## Rows -/

structure HostRow where
  id : String
  generation : Nat
  address : Option String
  enrolled : Bool
deriving DecidableEq

structure Owner where
  username : String
  scramVerifier : String
deriving DecidableEq

structure BackupSettings where
  repositoryId : String
  retentionDays : Nat
deriving DecidableEq

/-- Weekly full backups, with one to spare. -/
def BackupSettings.retainFull (b : BackupSettings) : Nat := (b.retentionDays + 6) / 7 + 1

structure RestoreSource where
  databaseId : String
  databaseName : String
  targetTime : String
deriving DecidableEq

structure ReplicaOf where
  databaseId : String
  /-- What the source cluster calls this standby. -/
  nodeId : String
deriving DecidableEq

structure DatabaseSpec where
  version : String
  ha : Bool
  resources : Resources
  replicationMode : String
  allowedCidrs : List String
  extensions : List String
  owner : Owner
  backup : BackupSettings
  restore : Option RestoreSource
  replicaOf : Option ReplicaOf
  dataName : Option String
deriving DecidableEq

inductive OpParams where
  | none
  | label (label : String)
  | target (target : Option String)
  | mode (mode : String)
  | restart (restart : Bool)
  | version (targetVersion : String)
  | replace (oldNode newNode : Nat) (address : String) (portBase : Nat)
deriving DecidableEq

structure Operation where
  id : Nat
  kind : Kind
  params : OpParams
  steps : List StepName
deriving DecidableEq

/-- An operation by what never changes of it, however it ends. -/
structure OperationRow where
  id : Nat
  database : String
  kind : Kind
deriving DecidableEq

structure DatabaseRow where
  id : String
  name : String
  status : DbStatus
  generation : Nat
  spec : DatabaseSpec
  secrets : Option DatabaseSecrets
  accessOpen : Bool
  operations : List Operation
deriving DecidableEq

def DatabaseRow.replicates (d : DatabaseRow) (database : String) : Bool :=
  d.spec.replicaOf.any (·.databaseId = database) && d.status ≠ .deleted

structure NodeSecrets where
  certPem : String
  keyPem : String
deriving DecidableEq

inductive Bootstrap where
  | initdb | restore | seed | replica | promoted
deriving DecidableEq

structure NodeRow where
  database : String
  node : Nat
  host : String
  portBase : Nat
  secrets : NodeSecrets
  bootstrap : Bootstrap
  retracted : Bool
deriving DecidableEq

def nodeName (node : Nat) : String := "n" ++ toString node

structure RepositoryConfig where
  path : Option String
  bucket : Option String
  keyPrefix : Option String
  region : Option String
  endpoint : Option String
  pathStyle : Bool
deriving DecidableEq

structure RepositoryCredentials where
  accessKeyId : Option String
  secretAccessKey : Option String
deriving DecidableEq

inductive RepositoryStatus where
  | verifying | verified | failed
deriving DecidableEq

structure RepositoryRow where
  id : String
  kind : String
  config : RepositoryConfig
  credentials : Option RepositoryCredentials
  status : RepositoryStatus
  checkHost : Option String
deriving DecidableEq

inductive TaskName where
  | backup | rollingRestart | switchover | replicationMode | replaceMember | alterPasswords
  | addReplica | detachReplica | removeReplica
deriving DecidableEq

inductive RunOn where
  | leader | primary
deriving DecidableEq

inductive TaskParams where
  | operation (params : OpParams)
  | replica (nodeId agentAddr postgresAddr : String)
deriving DecidableEq

inductive TaskStatus where
  | pending | succeeded | failed
deriving DecidableEq

structure TaskRow where
  id : Nat
  operation : Nat
  database : String
  kind : TaskName
  runOn : RunOn
  params : TaskParams
  status : TaskStatus
deriving DecidableEq

structure Tables where
  hosts : List HostRow
  databases : List DatabaseRow
  nodes : List NodeRow
  repositories : List RepositoryRow
  tasks : List TaskRow
  rotation : Option AdminCa.Rotation
  nextOperation : Nat
  /-- Every operation ever recorded. -/
  recorded : List OperationRow
  /-- Every host ID ever given out: a ghost. -/
  hostIds : List String

/-! ## What a host is sent -/

structure BackupTarget where
  kind : String
  config : RepositoryConfig
  credentials : RepositoryCredentials
  encryptionKey : Option String
deriving DecidableEq

/-- `trim_end_matches('/')`. -/
def trimEndSlashes (text : String) : String :=
  String.ofList (text.toList.reverse.dropWhile (· = '/')).reverse

def trimStartSlashes (text : String) : String := String.ofList (text.toList.dropWhile (· = '/'))

def BackupTarget.forDatabase (kind : String) (config : RepositoryConfig)
    (credentials : RepositoryCredentials) (databaseId encryptionKey : String) : BackupTarget :=
  let under (base : Option String) : String := trimEndSlashes (base.getD "") ++ "/" ++ databaseId
  { kind := kind
    config :=
      if kind = "posix" then { config with path := some (under config.path) }
      else { config with keyPrefix := some (trimStartSlashes (under config.keyPrefix)) }
    credentials := credentials
    encryptionKey := some encryptionKey }

structure RepositoryCheck where
  id : String
  target : BackupTarget
deriving DecidableEq

structure InstanceBackup where
  target : BackupTarget
  retainFull : Nat
deriving DecidableEq

structure InstanceRestore where
  source : BackupTarget
  targetTime : Option String
  sourceDatabase : String
deriving DecidableEq

structure Task where
  id : Nat
  kind : TaskName
  runOn : RunOn
  params : TaskParams
deriving DecidableEq

structure Peer where
  node : String
  address : String
  portBase : Nat
deriving DecidableEq

structure InstanceSecrets where
  caCertPem : List String
  certPem : String
  keyPem : String
  superuserPassword : String
  replicationPassword : String
  authPassword : String
  apiKey : String
  next : Option NextPasswords
  proxyCertPem : Option String
  proxyKeyPem : Option String
deriving DecidableEq

def InstanceSecrets.merge (database : DatabaseSecrets) (node : NodeSecrets) : InstanceSecrets where
  caCertPem := database.caBundle
  certPem := node.certPem
  keyPem := node.keyPem
  superuserPassword := database.superuserPassword
  replicationPassword := database.replicationPassword
  authPassword := database.authPassword
  apiKey := database.apiKey
  next := database.next
  proxyCertPem := database.proxyCertificate.map (·.certPem)
  proxyKeyPem := database.proxyCertificate.map (·.keyPem)

inductive Role where
  | member | replica
deriving DecidableEq

structure Instance where
  databaseId : String
  databaseName : String
  node : Nat
  generation : Nat
  operationId : Option Nat
  postgresVersion : String
  resources : Resources
  portBase : Nat
  address : String
  peers : List Peer
  bootstrap : Bootstrap
  restore : Option InstanceRestore
  backup : InstanceBackup
  tasks : List Task
  replicationMode : String
  allowedCidrs : List String
  extensions : List String
  owner : Owner
  secrets : InstanceSecrets
  role : Role
  renameFrom : Option String
  replicas : List Peer
deriving DecidableEq

structure AdminCaState where
  bundle : AdminCa.Bundle
  renewClientCertificate : Bool
deriving DecidableEq

structure DesiredState where
  generation : Nat
  instances : List Instance
  repositoryChecks : List RepositoryCheck
  adminCa : Option AdminCaState
deriving DecidableEq

/-! ## Queries -/

structure InstanceRow where
  databaseId : String
  databaseName : String
  node : Nat
  portBase : Nat
  nodeSecrets : NodeSecrets
  generation : Nat
  spec : DatabaseSpec
  databaseSecrets : Option DatabaseSecrets
  operationId : Option Nat
  bootstrap : Bootstrap
  address : Option String
  accessOpen : Bool
deriving DecidableEq

structure PeerRow where
  node : String
  address : Option String
  portBase : Nat
deriving DecidableEq

/-- The statements after the snapshot. -/
inductive Question where
  | checks (host : String)
  | repository (id : String)
  | rotation
  | peers (database : String) (except : Option Nat)
  | replicas (database : String)
  | tasks (database : String)
deriving DecidableEq

abbrev Question.Answer : Question → Type
  | .checks _ => List String
  | .repository _ => Option (String × RepositoryConfig × RepositoryCredentials)
  | .rotation => Option AdminCa.Rotation
  | .peers _ _ | .replicas _ => List PeerRow
  | .tasks _ => List Task

namespace Tables

variable (t : Tables)

def host? (id : String) : Option HostRow := t.hosts.find? (·.id = id)

def db? (id : String) : Option DatabaseRow := t.databases.find? (·.id = id)

variable {t} in
theorem id_of_db? {id : String} {d : DatabaseRow} (hd : t.db? id = some d) : d.id = id := by
  simpa using List.find?_some hd

/-- `ORDER BY n.database_id, n.node`. -/
def nodeOrder (a b : NodeRow) : Bool :=
  a.database < b.database || (a.database = b.database && nodeName a.node ≤ nodeName b.node)

def select {β : Type} (p : NodeRow → Bool) (f : NodeRow → Option β) : List β :=
  ((t.nodes.filter fun n => !n.retracted && p n).insertionSort (nodeOrder · ·)).filterMap f

def peerRow (name : String) (n : NodeRow) : Option PeerRow :=
  (t.host? n.host).map fun h => ⟨name, h.address, n.portBase⟩

def instanceRow (n : NodeRow) : Option InstanceRow :=
  (t.db? n.database).bind fun d => (t.host? n.host).map fun h =>
    { databaseId := n.database
      databaseName := d.name
      node := n.node
      portBase := n.portBase
      nodeSecrets := n.secrets
      generation := d.generation
      spec := d.spec
      databaseSecrets := d.secrets
      operationId := d.operations.head?.map (·.id)
      bootstrap := n.bootstrap
      address := h.address
      accessOpen := d.accessOpen }

def instanceRows (host : String) : List InstanceRow :=
  t.select (fun n => n.host = host) t.instanceRow

def checks (host : String) : List String :=
  (t.repositories.filter fun r => r.checkHost = some host && r.status = .verifying).map (·.id)

def repository (id : String) : Option (String × RepositoryConfig × RepositoryCredentials) :=
  (t.repositories.find? (·.id = id)).map fun r =>
    (r.kind, r.config, r.credentials.getD ⟨none, none⟩)

def peers (database : String) (except : Option Nat) : List PeerRow :=
  t.select (fun n => n.database = database && some n.node ≠ except)
    fun n => t.peerRow (nodeName n.node) n

def replicaRow (n : NodeRow) : Option PeerRow :=
  (t.db? n.database).bind fun d => d.spec.replicaOf.bind fun source => t.peerRow source.nodeId n

def replicas (database : String) : List PeerRow :=
  t.select (fun n => (t.db? n.database).any (·.replicates database)) t.replicaRow

def pendingTasks (database : String) : List Task :=
  (t.tasks.filter fun task => task.database = database && task.status = .pending).map
    fun task => ⟨task.id, task.kind, task.runOn, task.params⟩

def answer : (q : Question) → q.Answer
  | .checks host => t.checks host
  | .repository id => t.repository id
  | .rotation => t.rotation
  | .peers database except => t.peers database except
  | .replicas database => t.replicas database
  | .tasks database => t.pendingTasks database

end Tables

/-! ## Building it -/

open Reading (need each)

abbrev Statements := Reading Question Question.Answer

abbrev query (q : Question) : Statements q.Answer := Reading.question q

def repository (id : String) :
    Statements (String × RepositoryConfig × RepositoryCredentials) := do
  let row ← query (.repository id)
  need row

def checksFor (host : String) : Statements (List RepositoryCheck) := do
  let ids ← query (.checks host)
  each (fun id => do
    let (kind, config, credentials) ← repository id
    return ⟨id, ⟨kind, config, credentials, none⟩⟩) ids

def toPeers (rows : List PeerRow) : List Peer :=
  rows.filterMap fun row => row.address.map fun address => ⟨row.node, address, row.portBase⟩

/-- A replica's peers are its source's nodes, and it has no replicas. -/
def peersOf (row : InstanceRow) : Statements (List PeerRow) :=
  match row.spec.replicaOf with
  | some source => query (.peers source.databaseId none)
  | none => query (.peers row.databaseId (some row.node))

def replicasOf (row : InstanceRow) : Statements (List PeerRow) :=
  match row.spec.replicaOf with
  | some _ => pure []
  | none => query (.replicas row.databaseId)

/-- An instance, from its row and what the statements about it answered. -/
def InstanceRow.toInstance (row : InstanceRow) (database : DatabaseSecrets)
    (repository : String × RepositoryConfig × RepositoryCredentials)
    (peers replicas : List PeerRow) (tasks : List Task) : Instance :=
  let (kind, config, credentials) := repository
  let target := BackupTarget.forDatabase kind config credentials
  { databaseId := row.databaseId
    databaseName := row.databaseName
    node := row.node
    generation := row.generation
    operationId := row.operationId
    postgresVersion := row.spec.version
    resources := row.spec.resources
    portBase := row.portBase
    address := row.address.getD ""
    peers := toPeers peers
    bootstrap := row.bootstrap
    restore := row.spec.restore.map fun source =>
      ⟨target source.databaseId (database.sourceBackupKey.getD ""), some source.targetTime,
        source.databaseName⟩
    backup := ⟨target row.databaseId database.backupKey, row.spec.backup.retainFull⟩
    tasks := tasks
    replicationMode := row.spec.replicationMode
    -- Clients get no access until a restorable backup exists.
    allowedCidrs := if row.accessOpen then row.spec.allowedCidrs else []
    extensions := row.spec.extensions
    owner := row.spec.owner
    secrets := .merge database row.nodeSecrets
    role := if row.spec.replicaOf.isSome then .replica else .member
    renameFrom := row.spec.dataName.filter (· ≠ row.databaseName)
    replicas := toPeers replicas }

def instanceOf (row : InstanceRow) : Statements Instance := do
  let database ← need row.databaseSecrets
  let repository ← repository row.spec.backup.repositoryId
  let peers ← peersOf row
  let replicas ← replicasOf row
  let tasks ← query (.tasks row.databaseId)
  return row.toInstance database repository peers replicas tasks

def forHosts (rotation : AdminCa.Rotation) : AdminCaState :=
  ⟨rotation.bundle, rotation.phase = .issue⟩

/-- `build_desired_state` after its snapshot. -/
def desiredFrom (host : String) (generation : Nat) (rows : List InstanceRow) :
    Statements DesiredState := do
  let repositoryChecks ← checksFor host
  let rotation ← query .rotation
  let instances ← each instanceOf rows
  return ⟨generation, instances, repositoryChecks, rotation.map forHosts⟩

/-- `build_desired_state` with nothing in between. -/
def Tables.build (t : Tables) (host : String) : Option DesiredState :=
  (t.host? host).bind fun h =>
    (desiredFrom host h.generation (t.instanceRows host)).eval t.answer

end PgCluster.Desired
