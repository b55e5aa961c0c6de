import PgCluster.DesiredState

/-!
# What changes desired states

The transactions that write what desired states are made of: the steps of
`reconciler.rs`, the handlers of `api/databases.rs`, `api/replicas.rs`,
`api/backups.rs` and `api/hosts.rs`, the reports and results of hosts
(`agent.rs`), and the statements of `rotation.rs`, which are transactions of
their own. A committed transaction is one change of the tables. One that is
refused or meets an error changes nothing and is left out, and so are those that
write only what no desired state is made of.

Which hosts the scheduler chooses, with which ports, what a step finds out from
hosts, and random material are the environment's choice. IDs that are generated
are new.
-/

namespace PgCluster.Desired

open PgCluster.Admin (Kind StepName DbStatus Resources DatabaseSecrets RandomMaterial
  ProxyCertificate)

/-! ## Writes -/

namespace Tables

/-- Hosts have something new to read. -/
def bumpIf (p : HostRow → Bool) (t : Tables) : Tables :=
  { t with
    hosts := t.hosts.map fun h =>
      if p h then { h with generation := h.generation + 1 } else h }

def bumpHost (id : String) : Tables → Tables := bumpIf fun h => h.id = id

def runs (t : Tables) (host database : String) : Bool :=
  t.nodes.any fun n => !n.retracted && n.database = database && n.host = host

/-- Every host with a live node of this database has something new to read. -/
def bumpHosts (database : String) (t : Tables) : Tables :=
  t.bumpIf fun h => t.runs h.id database

def bumpAllHosts : Tables → Tables := bumpIf fun h => h.enrolled

/-- One host after another, a host with two nodes twice. -/
def bumpEach (ids : List String) (t : Tables) : Tables := ids.foldl (fun t id => t.bumpHost id) t

def updateDb (id : String) (f : DatabaseRow → DatabaseRow) (t : Tables) : Tables :=
  { t with databases := t.databases.map fun d => if d.id = id then f d else d }

def setStatus (id : String) (status : DbStatus) : Tables → Tables :=
  updateDb id fun d => { d with status := status }

def storeSecrets (id : String) (secrets : DatabaseSecrets) : Tables → Tables :=
  updateDb id fun d => { d with secrets := some secrets }

/-- Raise a database's generation and publish it. -/
def newGeneration (id : String) (t : Tables) : Tables :=
  (t.updateDb id fun d => { d with generation := d.generation + 1 }).bumpHosts id

def mapNodes (p : NodeRow → Bool) (f : NodeRow → NodeRow) (t : Tables) : Tables :=
  { t with nodes := t.nodes.map fun n => if p n then f n else n }

def retractNodes (p : NodeRow → Bool) : Tables → Tables :=
  mapNodes p fun n => { n with retracted := true }

def dropNodes (p : NodeRow → Bool) (t : Tables) : Tables :=
  { t with nodes := t.nodes.filter fun n => !p n }

/-- `add_node`: record a node on a host and publish it. A name that is taken and a
host that is gone are errors. -/
def addNode (n : NodeRow) (t : Tables) : Option Tables :=
  if t.nodes.any (fun m => m.database = n.database && m.node = n.node)
      || (t.host? n.host).isNone then none
  else some ({ t with nodes := t.nodes ++ [n] }.bumpHost n.host)

def endTasks (p : TaskRow → Bool) (status : TaskStatus) (t : Tables) : Tables :=
  { t with
    tasks := t.tasks.map fun task =>
      if p task && task.status = .pending then { task with status := status } else task }

/-- `operations::create_with`. -/
def record (id : String) (kind : Kind) (params : OpParams) (t : Tables) : Tables :=
  { t.updateDb id (fun d =>
      { d with operations := d.operations ++ [⟨t.nextOperation, kind, params, kind.steps⟩] }) with
    nextOperation := t.nextOperation + 1
    recorded := t.recorded ++ [⟨t.nextOperation, id, kind⟩] }

def hasReplicas (t : Tables) (id : String) : Bool := t.databases.any (·.replicates id)

/-- As `lock` reads it: a deleted database is not found. -/
def lock (t : Tables) (id : String) : Option DatabaseRow :=
  (t.db? id).filter fun d => d.status ≠ .deleted

end Tables

/-! ## Steps -/

inductive Verdict where
  | done | wait | fail
deriving DecidableEq

structure Chosen where
  host : String
  portBase : Nat
  secrets : NodeSecrets

/-- `full`: the host after those chosen has no free ports. -/
inductive Choice where
  | tooFewHosts
  | noRoom
  | placed (chosen : List Chosen) (full : Bool)

/-- What one run of a step meets. -/
structure StepEnv where
  pastDeadline : Bool
  /-- What a step finds that waits for hosts. -/
  found : Verdict
  choice : Choice
  random : RandomMaterial
  /-- The certificates `ca_issue` gives the nodes. -/
  issued : Nat → NodeSecrets

structure TaskSpec where
  kind : TaskName
  runOn : RunOn
  params : TaskParams

section Steps

variable (t : Tables) (d : DatabaseRow) (op : Operation) (e : StepEnv)

/-- The step's first attempt records the task, and later attempts look at how it
went. -/
def runTaskOn (database : String) (task : TaskSpec) : Tables × Verdict :=
  match t.tasks.find? fun row => row.operation = op.id && row.kind = task.kind with
  | none =>
    let row : TaskRow :=
      ⟨t.tasks.length, op.id, database, task.kind, task.runOn, task.params, .pending⟩
    ({ t with tasks := t.tasks ++ [row] }.bumpHosts database, .wait)
  | some row =>
    (t, match row.status with
      | .succeeded => .done
      | .failed => .fail
      | .pending => .wait)

def FIRST_BACKUP_LABEL : String := "first-backup"

def addNodes (index : Nat) (bootstrap : Nat → Bootstrap) : List Chosen → Tables → Option Tables
  | [], t => some t
  | c :: rest, t =>
    (t.addNode ⟨d.id, index + 1, c.host, c.portBase, c.secrets, bootstrap index, false⟩).bind
      (addNodes (index + 1) bootstrap rest)

/-- Choose hosts, allocate ports, generate each instance's secrets and publish
them to the hosts. -/
def place : Option (Tables × Verdict) :=
  match e.choice with
  | .tooFewHosts => some (t, .wait)
  | .noRoom => some (t, .fail)
  | .placed chosen full =>
    let sourceBackupKey : Option (Option String) :=
      match d.spec.restore with
      | none => some none
      | some source => ((t.db? source.databaseId).bind (·.secrets)).map fun s => some s.backupKey
    let first : Bootstrap := if d.spec.restore.isSome then .restore else .initdb
    sourceBackupKey.bind fun key =>
      (addNodes d 0 (fun index => if index = 0 then first else .seed) chosen
        (t.storeSecrets d.id (.generate e.random key))).map
          fun t => (t, if full then .fail else .done)

/-- Put a replica on a host away from its source. The source's nodes let it in. -/
def placeReplica : Option (Tables × Verdict) :=
  d.spec.replicaOf.bind fun source =>
    match e.choice with
    | .tooFewHosts => some (t, .wait)
    | .noRoom => some (t, .fail)
    | .placed chosen full =>
      ((t.db? source.databaseId).bind (·.secrets)).bind fun secrets =>
        let t := t.storeSecrets d.id (secrets.forReplica e.random)
        match chosen, full with
        | [], true => some (t, .fail)
        | [c], false =>
          (t.addNode ⟨d.id, 1, c.host, c.portBase, c.secrets, .replica, false⟩).map
            fun t => (t.bumpHosts source.databaseId, .done)
        | _, _ => none

/-- Steps that change the database's secrets and publish them. -/
def changeSecrets (f : DatabaseSecrets → Option DatabaseSecrets) : Option (Tables × Verdict) :=
  (d.secrets.bind f).map fun secrets => ((t.storeSecrets d.id secrets).newGeneration d.id, .done)

def caIssue : Option (Tables × Verdict) :=
  d.secrets.map fun _ =>
    ((t.mapNodes (fun n => n.database = d.id && !n.retracted)
      fun n => { n with secrets := e.issued n.node }).newGeneration d.id, .done)

def openAccess : Tables × Verdict :=
  ((t.updateDb d.id fun d => { d with accessOpen := true }).newGeneration d.id, .done)

/-- The source stops letting a deleted replica in. -/
def retract : Tables × Verdict :=
  let t := match d.spec.replicaOf with
    | some source => t.bumpHosts source.databaseId
    | none => t
  let hosts := (t.nodes.filter (·.database = d.id)).map (·.host)
  ((t.retractNodes (·.database = d.id)).bumpEach hosts, .done)

def finalize : Tables × Verdict :=
  (((t.dropNodes (·.database = d.id)).updateDb d.id
    fun d => { d with secrets := none }).setStatus d.id .deleted, .done)

def oldNode : Option Nat :=
  match op.params with
  | .replace old _ _ _ => some old
  | _ => none

def retractOld : Option (Tables × Verdict) :=
  (oldNode op).bind fun old =>
    (t.nodes.find? fun n => n.database = d.id && n.node = old).map fun n =>
      (((t.retractNodes fun m => m.database = d.id && m.node = old).bumpHost n.host).newGeneration
        d.id, .done)

def dropOld : Option (Tables × Verdict) :=
  (oldNode op).map fun old =>
    (t.dropNodes fun n => n.database = d.id && n.node = old, .done)

/-- Work on a replica that its source's Raft leader does. -/
def replicaTask (kind : TaskName) : Option (Tables × Verdict) :=
  d.spec.replicaOf.bind fun source =>
    ((t.nodes.filter (·.database = d.id)).insertionSort (Tables.nodeOrder · ·)).head?.bind fun n =>
      (t.host? n.host).map fun h =>
        let address := h.address.getD ""
        let addr (offset : Nat) := address ++ ":" ++ toString (n.portBase + offset)
        runTaskOn t op source.databaseId ⟨kind, .leader, .replica source.nodeId (addr 4) (addr 2)⟩

/-- The replica becomes a one-node database of its own. -/
def promote : Tables × Verdict :=
  let t := match d.spec.replicaOf with
    | some source => t.bumpHosts source.databaseId
    | none => t
  (((t.updateDb d.id fun d => { d with spec := { d.spec with replicaOf := none } }).mapNodes
    (·.database = d.id) fun n => { n with bootstrap := .promoted }).newGeneration d.id, .done)

def runTask (kind : TaskName) (runOn : RunOn) (params : OpParams) : Option (Tables × Verdict) :=
  some (runTaskOn t op d.id ⟨kind, runOn, .operation params⟩)

def runStep : StepName → Option (Tables × Verdict)
  | .place => place t d e
  | .placeReplica => placeReplica t d e
  | .activate => some (t.setStatus d.id .active, .done)
  | .settle => some (t, .done)
  | .openAccess => some (openAccess t d)
  | .newGeneration => some (t.newGeneration d.id, .done)
  | .retract => some (retract t d)
  | .finalize => some (finalize t d)
  | .retractOld => retractOld t d op
  | .dropOld => dropOld t d op
  | .promote => some (promote t d)
  | .caTrustBoth => changeSecrets t d fun s => some (s.caTrustBoth e.random)
  | .caIssue => caIssue t d e
  | .caTrustNew => changeSecrets t d fun s => some s.caTrustNew
  | .passwordsOffer => changeSecrets t d fun s => some (s.passwordsOffer e.random)
  | .passwordsCommit => changeSecrets t d DatabaseSecrets.passwordsCommit
  | .firstBackup => runTask t d op .backup .leader (.label FIRST_BACKUP_LABEL)
  | .backup => runTask t d op .backup .leader op.params
  | .rollingRestart => runTask t d op .rollingRestart .leader .none
  | .resizeRestart =>
    if op.params = .restart true then runTask t d op .rollingRestart .leader .none
    else some (t, .done)
  | .switchover => runTask t d op .switchover .leader op.params
  | .setReplicationMode => runTask t d op .replicationMode .leader op.params
  | .replaceMember => runTask t d op .replaceMember .leader op.params
  | .passwordsAlter => runTask t d op .alterPasswords .primary .none
  | .addReplica => replicaTask t d op .addReplica
  | .detachReplica => replicaTask t d op .detachReplica
  | .removeReplica =>
    if d.spec.replicaOf.isSome then replicaTask t d op .removeReplica else some (t, .done)
  | .waitApplied | .waitPeers | .waitRemoved | .waitOldRemoved | .waitVersion | .upgradeCheck =>
    some (t, e.found)

end Steps

def popStep : List Operation → List Operation
  | [] => []
  | op :: rest =>
    match op.steps.tail with
    | [] => rest
    | steps => { op with steps := steps } :: rest

/-- A failed update leaves a database serving on its old settings. -/
def failedStatus : Kind → DbStatus
  | .create | .delete | .createReplica | .promoteReplica => .error
  | _ => .degraded

namespace Tables

def finishStep (id : String) : Tables → Tables :=
  updateDb id fun d => { d with operations := popStep d.operations }

/-- `fail`. Its tasks end with the operation. -/
def failOperation (id : String) (op : Operation) (t : Tables) : Tables :=
  (t.updateDb id fun d =>
    { d with operations := d.operations.tail, status := failedStatus op.kind }).endTasks
      (fun task => task.operation = op.id) .failed

def fails (v : Verdict) (pastDeadline : Bool) : Bool := v = .fail || (v = .wait && pastDeadline)

def settle (id : String) (op : Operation) (v : Verdict) (pastDeadline : Bool) (t : Tables) :
    Tables :=
  if fails v pastDeadline then t.failOperation id op
  else if v = .done then t.finishStep id
  else t

def claimed (t : Tables) (id : String) : Option (DatabaseRow × Operation × StepName) :=
  (t.db? id).bind fun d => d.operations.head?.bind fun op => op.steps.head?.map fun name =>
    (d, op, name)

def stepOnce (t : Tables) (id : String) (e : StepEnv) : Option Tables :=
  (t.claimed id).bind fun (d, op, name) =>
    (runStep t d op e name).map fun (t', v) => t'.settle id op v e.pastDeadline

end Tables

/-! ## Handlers -/

inductive SpecChange where
  | retention (days : Nat)
  | replicationMode (mode : String) (days : Option Nat)
  | owner (scramVerifier : String)
  | allowlist (cidrs : List String)
  /-- `rolling`: a library to be loaded at start comes or goes. -/
  | extensions (wanted : List String) (rolling : Bool)

namespace SpecChange

def apply : SpecChange → DatabaseSpec → DatabaseSpec
  | .retention days, spec => { spec with backup := { spec.backup with retentionDays := days } }
  | .replicationMode mode days, spec =>
    { spec with
      replicationMode := mode
      backup := { spec.backup with retentionDays := days.getD spec.backup.retentionDays } }
  | .owner verifier, spec => { spec with owner := { spec.owner with scramVerifier := verifier } }
  | .allowlist cidrs, spec => { spec with allowedCidrs := cidrs }
  | .extensions wanted _, spec => { spec with extensions := wanted }

def kind : SpecChange → Kind
  | .replicationMode _ _ => .replicationMode
  | .extensions _ true => .rollingUpdate
  | _ => .update

def params : SpecChange → OpParams
  | .replicationMode mode _ => .mode mode
  | _ => .none

end SpecChange

/-- The operations that `start` and `backup_now` record. -/
def startable : Kind → Bool
  | .restart | .switchover | .rotateCa | .rotatePasswords | .upgrade | .backup => true
  | _ => false

namespace Tables

variable (t : Tables)

/-- A database's row, as `create`, `restore` and `replicas::create` insert it. -/
def insertDatabase (id name : String) (spec : DatabaseSpec) (kind : Kind) : Option Tables :=
  if (t.db? id).isSome || t.databases.any (fun d => d.name = name && d.status ≠ .deleted) then none
  else some { t with
    databases := t.databases ++ [⟨id, name, .provisioning, 1, spec, none, false,
      [⟨t.nextOperation, kind, .none, kind.steps⟩]⟩]
    nextOperation := t.nextOperation + 1
    recorded := t.recorded ++ [⟨t.nextOperation, id, kind⟩] }

/-- `create` and `restore`, with the spec that statements before have made. -/
def create (id name : String) (spec : DatabaseSpec) : Option Tables :=
  t.insertDatabase id name { spec with replicaOf := none, dataName := none } .create

def createReplica (source id name : String) : Option Tables :=
  (t.lock source).bind fun d =>
    if !d.status.serving || d.spec.replicaOf.isSome || !d.spec.ha then none
    else
      let count := (t.databases.filter fun r =>
        r.spec.replicaOf.any (·.databaseId = source)).length
      t.insertDatabase id name { d.spec with
          dataName := some (d.spec.dataName.getD d.name)
          ha := false
          replicationMode := "async"
          restore := none
          replicaOf := some ⟨source, "r" ++ toString (count + 1)⟩ }
        .createReplica

def promoteReplica (source id : String) : Option Tables :=
  (t.lock id).bind fun d =>
    if !d.replicates source || !d.status.serving || !d.operations.isEmpty then none
    else some ((t.setStatus id .provisioning).record id .promoteReplica .none)

/-- A stuck create must not hold up its own removal. -/
def delete (id : String) : Option Tables :=
  (t.lock id).bind fun d =>
    if d.status = .deleting || t.hasReplicas id then none
    else some ((((t.updateDb id fun d => { d with operations := [] }).endTasks
      (fun task => task.database = id) .failed).setStatus id .deleting).record id .delete .none)

/-- Start an operation that changes no spec. -/
def start (id : String) (kind : Kind) (params : OpParams) : Option Tables :=
  (t.lock id).bind fun d =>
    if !startable kind || !d.status.serving || d.spec.replicaOf.isSome
        || (kind.rotation && t.hasReplicas id) then none
    else some (t.record id kind params)

/-- Store a changed spec, publish it to the database's hosts, and record the
operation that waits for them. -/
def storeSpec (id : String) (spec : DatabaseSpec) (kind : Kind) (params : OpParams) : Tables :=
  ((t.updateDb id fun d => { d with spec := spec, generation := d.generation + 1 }).bumpHosts
    id).record id kind params

def changeSpec (id : String) (change : SpecChange) : Option Tables :=
  (t.lock id).bind fun d =>
    if d.spec.replicaOf.isSome || d.status = .deleting || d.status = .error then none
    else some (t.storeSpec id (change.apply d.spec) change.kind change.params)

def resize (id : String) (resources : Resources) (days : Option Nat) : Option Tables :=
  (t.lock id).bind fun d =>
    if !d.status.serving || d.spec.replicaOf.isSome || !d.operations.isEmpty
        || resources.storageGb < d.spec.resources.storageGb then none
    else
      let restart : Bool := d.spec.ha && resources.memoryGb ≠ d.spec.resources.memoryGb
      some (t.storeSpec id { d.spec with
          resources := resources
          backup := { d.spec.backup with
            retentionDays := days.getD d.spec.backup.retentionDays } }
        .resize (.restart restart))

/-- Start replacing a node with a new one on a host that has none of this
database. -/
def startReplacement (id : String) (node : Nat) (c : Chosen) : Option Tables :=
  (t.lock id).bind fun d =>
    let live := t.nodes.filter fun n => n.database = id && !n.retracted
    if !d.status.serving || d.spec.replicaOf.isSome || !d.spec.ha || !d.operations.isEmpty
        || !live.any (·.node = node) || live.any (·.host = c.host) || d.secrets.isNone then none
    else
      let number := (live.map (·.node)).foldr max 0 + 1
      ((t.host? c.host).bind (·.address)).bind fun address =>
        (t.addNode ⟨id, number, c.host, c.portBase, c.secrets, .seed, false⟩).map fun t =>
          (t.newGeneration id).record id .replace (.replace node number address c.portBase)

def putCertificate (id : String) (certificate : ProxyCertificate) : Option Tables :=
  (t.lock id).bind fun d =>
    if !d.status.serving || d.spec.replicaOf.isSome then none
    else d.secrets.map fun secrets =>
      ((t.storeSecrets id { secrets with proxyCertificate := some certificate }).newGeneration
        id).record id .update .none

/-- Reissue a node's certificate, as a change like any other. Only the host of the
node is told. -/
def renewCertificate (id : String) (node : Nat) (secrets : NodeSecrets) : Option Tables :=
  (t.lock id).bind fun d =>
    if !d.status.serving || d.secrets.isNone || !d.operations.isEmpty then none
    else (t.nodes.find? fun n => n.database = id && n.node = node).map fun n =>
      ((((t.mapNodes (fun m => m.database = id && m.node = node)
        fun m => { m with secrets := secrets }).updateDb id
          fun d => { d with generation := d.generation + 1 }).bumpHost n.host).record id .update
            .none)

/-- Reflect node and host health in a database's status. -/
def sweep (id : String) (problem : Bool) : Option Tables :=
  (t.db? id).bind fun d =>
    if problem && d.status = .active then some (t.setStatus id .degraded)
    else if !problem && d.status = .degraded then some (t.setStatus id .active)
    else none

/-! ## Hosts and repositories -/

def createHost (id : String) : Option Tables :=
  if t.hostIds.contains id then none
  else some { t with hosts := t.hosts ++ [⟨id, 1, none, false⟩], hostIds := id :: t.hostIds }

def updateHost (id : String) (f : HostRow → HostRow) : Tables :=
  { t with hosts := t.hosts.map fun h => if h.id = id then f h else h }

def enroll (id : String) : Tables := t.updateHost id fun h => { h with enrolled := true }

def deleteHost (id : String) : Option Tables :=
  if t.nodes.any (·.host = id) then none
  else some { t with
    hosts := t.hosts.filter (·.id ≠ id)
    repositories := t.repositories.map fun r =>
      if r.checkHost = some id then { r with checkHost := none } else r }

/-- `report`, as far as it writes what is read here: the host's address. -/
def report (id address : String) : Tables :=
  t.updateHost id fun h => { h with address := some address }

/-- The first answer stands: a task can run twice, if its node changed hands. That
the host runs a node of the database was asked in a statement before, and may
not be so any more. -/
def taskResult (task : Nat) (success : Bool) : Option Tables :=
  (t.tasks.find? (·.id = task)).map fun row =>
    (t.endTasks (·.id = task) (if success then .succeeded else .failed)).bumpHosts row.database

/-- `create_repository`, up to its wait for the check. -/
def createRepository (id kind : String) (config : RepositoryConfig)
    (credentials : Option RepositoryCredentials) (host : String) : Option Tables :=
  if t.repositories.any (·.id = id)
      || t.databases.any (·.spec.backup.repositoryId = id) || (t.host? host).isNone then none
  else
    let row : RepositoryRow := ⟨id, kind, config, credentials, .verifying, some host⟩
    some ({ t with repositories := t.repositories ++ [row] }.bumpHost host)

def repositoryCheck (id host : String) (ok : Bool) : Tables :=
  { t with
    repositories := t.repositories.map fun r =>
      if r.id = id && r.checkHost = some host && r.status = .verifying then
        { r with status := if ok then .verified else .failed }
      else r }

/-- `remove_unverified`: nothing is checked again. -/
def removeUnverified (id : String) : Tables :=
  { t with repositories := t.repositories.filter (·.id ≠ id) }

def deleteRepository (id : String) : Option Tables :=
  if t.databases.any fun d => d.spec.backup.repositoryId = id && d.status ≠ .deleted then none
  else some { t with repositories := t.repositories.filter (·.id ≠ id) }

/-! ## The admin CA -/

/-- The insert of `start`. -/
def startRotation (old new : AdminCa.Ca) : Option Tables :=
  if t.rotation.isSome then none else some { t with rotation := some ⟨.trust, old, new⟩ }

/-- The update of `advance`. -/
def advanceRotation (phase : AdminCa.Phase) : Tables :=
  { t with rotation := t.rotation.map fun r => { r with phase := phase } }

/-- The delete of `advance`. -/
def endRotation : Tables := { t with rotation := none }

end Tables

/-! ## All changes -/

inductive Change where
  | step (database : String) (e : StepEnv)
  | create (id name : String) (spec : DatabaseSpec)
  | createReplica (source id name : String)
  | promoteReplica (source id : String)
  | delete (id : String)
  | start (id : String) (kind : Kind) (params : OpParams)
  | changeSpec (id : String) (change : SpecChange)
  | resize (id : String) (resources : Resources) (days : Option Nat)
  | replace (id : String) (node : Nat) (c : Chosen)
  | putCertificate (id : String) (certificate : ProxyCertificate)
  | renewCertificate (id : String) (node : Nat) (secrets : NodeSecrets)
  | sweep (id : String) (problem : Bool)
  | createHost (id : String)
  | enroll (id : String)
  | deleteHost (id : String)
  | report (host address : String)
  | taskResult (task : Nat) (success : Bool)
  | createRepository (id kind : String) (config : RepositoryConfig)
      (credentials : Option RepositoryCredentials) (host : String)
  | repositoryCheck (id host : String) (ok : Bool)
  | removeUnverified (id : String)
  | deleteRepository (id : String)
  | startRotation (old new : AdminCa.Ca)
  | advanceRotation (phase : AdminCa.Phase)
  | endRotation
  | bumpAllHosts

/-- What a change makes of the tables; nothing if it is refused. -/
def Tables.apply (t : Tables) : Change → Option Tables
  | .step database e => t.stepOnce database e
  | .create id name spec => t.create id name spec
  | .createReplica source id name => t.createReplica source id name
  | .promoteReplica source id => t.promoteReplica source id
  | .delete id => t.delete id
  | .start id kind params => t.start id kind params
  | .changeSpec id change => t.changeSpec id change
  | .resize id resources days => t.resize id resources days
  | .replace id node c => t.startReplacement id node c
  | .putCertificate id certificate => t.putCertificate id certificate
  | .renewCertificate id node secrets => t.renewCertificate id node secrets
  | .sweep id problem => t.sweep id problem
  | .createHost id => t.createHost id
  | .enroll id => some (t.enroll id)
  | .deleteHost id => t.deleteHost id
  | .report host address => some (t.report host address)
  | .taskResult task success => t.taskResult task success
  | .createRepository id kind config credentials host =>
    t.createRepository id kind config credentials host
  | .repositoryCheck id host ok => some (t.repositoryCheck id host ok)
  | .removeUnverified id => some (t.removeUnverified id)
  | .deleteRepository id => t.deleteRepository id
  | .startRotation old new => t.startRotation old new
  | .advanceRotation phase => some (t.advanceRotation phase)
  | .endRotation => some t.endRotation
  | .bumpAllHosts => some t.bumpAllHosts

end PgCluster.Desired
