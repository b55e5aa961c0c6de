import PgCluster.AdminReconciler
import PgCluster.AdminScheduler
import PgCluster.AdminSecrets

/-!
# Databases and nodes

The rest of the metadata database, as far as placement, replicas and
rotations go: the rows of databases and nodes, the steps of `reconciler.rs`
that change them and the handlers of `api/databases.rs`, `api/replicas.rs`
and `api/backups.rs`, all as bodies for the engine of `AdminReconciler`.

Every statement of the source that takes a lock is a `lock` here, and reads
of other rows are statements of their own, so that they may see different
states. Writes are made at the commit. What a step finds out from hosts and
their tasks (`wait_applied`, `run_task` and the like) is the environment's
choice, and so are which hosts are online and what the random number
generator gives. A refused request rolls back and is not told apart from an
error; a host's row is fixed (`Fleet`).

Other modules have the same tables with the columns their results are about:
`DesiredState` what hosts are sent, `BackupRepositories` the repositories, and
`SecretRotation` one database with its hosts. Statuses, kinds, steps and
secrets are those of this model in all of them.
-/

namespace PgCluster.Admin

/-! ## Rows -/

inductive DbStatus where
  | provisioning | active | degraded | deleting | deleted | error
deriving DecidableEq

/-- `require_serving`. -/
def DbStatus.serving (s : DbStatus) : Bool := s = .active || s = .degraded

structure DatabaseRow where
  id : String
  status : DbStatus
  ha : Bool
  resources : Resources
  /-- The hosts asked for, by ID or name; none leaves the choice open. -/
  hosts : List String
  replicaOf : Option String
  /-- The database whose backups it was restored from. -/
  restore : Option String
  secrets : Option DatabaseSecrets
deriving DecidableEq

structure NodeRow where
  database : String
  node : Nat
  host : String
  portBase : Nat
  retracted : Bool
deriving DecidableEq

structure World where
  databases : List DatabaseRow
  nodes : List NodeRow
deriving DecidableEq

def HA_NODES : Nat := 3

namespace World

def db? (w : World) (id : String) : Option DatabaseRow := w.databases.find? (·.id = id)

/-- As `lock` and `spec_of` read it: a deleted database is not found. -/
def live? (w : World) (id : String) : Option DatabaseRow :=
  (w.db? id).filter fun d => d.status ≠ .deleted

def update (id : String) (f : DatabaseRow → DatabaseRow) (w : World) : World :=
  { w with databases := w.databases.map fun d => if d.id = id then f d else d }

def insert (d : DatabaseRow) (w : World) : World :=
  { w with databases := w.databases ++ [d] }

def setStatus (id : String) (status : DbStatus) : World → World :=
  update id fun d => { d with status := status }

def storeSecrets (id : String) (secrets : DatabaseSecrets) : World → World :=
  update id fun d => { d with secrets := some secrets }

def secrets? (w : World) (id : String) : Option DatabaseSecrets := (w.db? id).bind (·.secrets)

def addNodes (rows : List NodeRow) (w : World) : World := { w with nodes := w.nodes ++ rows }

def hasReplicas (w : World) (id : String) : Bool :=
  w.databases.any fun d => d.replicaOf = some id && d.status ≠ .deleted

def liveNodes (w : World) (id : String) : List NodeRow :=
  w.nodes.filter fun n => n.database = id && !n.retracted

/-- Every instance on a host counts, including one on its way out. -/
def instancesOn (w : World) (host : String) : List NodeRow := w.nodes.filter (·.host = host)

def sizeOf (w : World) (n : NodeRow) : Resources :=
  ((w.db? n.database).map (·.resources)).getD .zero

/-- `HOST_LOAD_QUERY`: the sum over the nodes of a host. -/
def used (w : World) (host : String) : Resources :=
  ((w.instancesOn host).map w.sizeOf).foldr .plus .zero

end World

/-! ## The environment -/

/-- What one run of a step or a handler meets: the hosts that are online
with an address, those that drain, what hosts and tasks have come to (`none`
is an error), and random material. -/
structure Env where
  online : List String
  draining : List String
  outcome : Option Outcome
  random : RandomMaterial

namespace Fleet

variable (F : Fleet)

/-- `host_loads`: the hosts' rows with the sums the statement read. -/
def hostLoads (e : Env) (w : World) : List HostLoad :=
  F.hosts.map fun h =>
    { host := h
      used := w.used h.id
      instances := (w.instancesOn h.id).length
      online := e.online.contains h.id
      draining := e.draining.contains h.id }

/-- The first free port block of a host, as `add_node` looks for it. -/
def freePort (w : World) (host : String) : Option Nat :=
  ((List.range F.config.portBlocks).map fun k => F.config.portBaseStart + k * PORT_BLOCK).find?
    fun p => !(w.instancesOn host).any (·.portBase = p)

end Fleet

/-! ## Steps -/

section Steps

variable (F : Fleet) (e : Env) (c : Claimed)

/-- A step that waits for hosts, or for a task one of them runs. -/
def await : Body World Outcome :=
  match e.outcome with
  | none => .error
  | some o => .done o fun w => w

/-- Steps that change the database's secrets and publish them. -/
def changeSecrets (f : DatabaseSecrets → Option DatabaseSecrets) : Body World Outcome :=
  .read fun s =>
    match (s.world.secrets? c.database).bind f with
    | none => .error
    | some secrets => .done .done (World.storeSecrets c.database secrets)

def caTrustBoth : Body World Outcome := changeSecrets c fun s => some (s.caTrustBoth e.random)
def caTrustNew : Body World Outcome := changeSecrets c fun s => some s.caTrustNew
def passwordsOffer : Body World Outcome :=
  changeSecrets c fun s => some (s.passwordsOffer e.random)
def passwordsCommit : Body World Outcome := changeSecrets c DatabaseSecrets.passwordsCommit

/-- The nodes' certificates are not modelled here, only that it needs the
database's secrets. -/
def caIssue : Body World Outcome := changeSecrets c some

/-- The loop of `place` over the chosen hosts: the rows it inserts, and the
host that had no port left, where it stops. The hosts are different ones, so
no port is taken by an earlier round. -/
def placeNodes (w : World) (database : String) : Nat → List HostLoad → List NodeRow × Option String
  | _, [] => ([], none)
  | number, h :: hs =>
    match F.freePort w h.host.id with
    | none => ([], some h.host.id)
    | some port =>
      let (rows, full) := placeNodes w database (number + 1) hs
      (⟨database, number, h.host.id, port, false⟩ :: rows, full)

def insertNodes (w : World) (rows : List NodeRow) (result : Outcome)
    (write : World → World) : Body World Outcome :=
  if rows.any fun r => w.nodes.any fun n => n.database = r.database && n.node = r.node then .error
  else .done result fun w => (write w).addNodes rows

def placeOn (sourceBackupKey : Option String) (chosen : List HostLoad) : Body World Outcome :=
  .read fun s =>
    let (rows, full) := placeNodes F s.world c.database 1 chosen
    insertNodes s.world rows (match full with
        | none => .done
        | some host => .fail ("host " ++ host ++ " has no free ports"))
      (World.storeSecrets c.database (.generate e.random sourceBackupKey))

/-- Hosts a node of `d` may go to, from the loads a statement read. -/
def candidates (w : World) (d : DatabaseRow) (avoid : List String) : List HostLoad :=
  ((F.hostLoads e w).filter fun h => h.online && !h.draining).filter fun h =>
    !avoid.contains h.domain
      && (d.hosts.isEmpty || d.hosts.contains h.host.id || d.hosts.contains h.host.name)

/-- Choose hosts, allocate ports and generate the database's secrets. The
loads come from the snapshot of the statement that locks the hosts. -/
def place : Body World Outcome :=
  .read fun s =>
    match s.world.db? c.database with
    | none => .error
    | some d => .lock .hosts fun s₀ _ =>
      match F.place (candidates F e s₀.world d []) (if d.ha then HA_NODES else 1)
        d.resources with
      | .tooFewHosts => .done (.wait (if d.ha then
            "waiting for three online hosts in separate failure domains"
          else "waiting for an online host")) fun w => w
      | .noRoom message => .done (.fail message) fun w => w
      | .placed chosen =>
        match d.restore with
        | none => placeOn F e c none chosen
        | some source => .read fun s =>
          match s.world.secrets? source with
          | none => .error
          | some secrets => placeOn F e c (some secrets.backupKey) chosen

def Fleet.domainOf (F : Fleet) (host : String) : Option String :=
  (F.hosts.find? (·.id = host)).map fun h => h.failureDomain.getD h.id

def placeReplicaOn (source : String) (host : HostLoad) : Body World Outcome :=
  .read fun s =>
    match s.world.secrets? source with
    | none => .error
    | some secrets => .read fun s =>
      let write := World.storeSecrets c.database (secrets.forReplica e.random)
      match F.freePort s.world host.host.id with
      | none => .done (.fail ("host " ++ host.host.name ++ " has no free ports")) write
      | some port => insertNodes s.world [⟨c.database, 1, host.host.id, port, false⟩] .done write

/-- Put a replica on a host away from its source. -/
def placeReplica : Body World Outcome :=
  .read fun s =>
    match s.world.db? c.database with
    | none => .error
    | some d =>
      match d.replicaOf with
      | none => .error
      | some source => .read fun s => .lock .hosts fun s₀ _ =>
        let taken := (s.world.liveNodes source).filterMap fun n => F.domainOf n.host
        match F.place (candidates F e s₀.world d taken) 1 d.resources with
        | .tooFewHosts =>
          .done (.wait "waiting for an online host outside the source's failure domains")
            fun w => w
        | .noRoom message => .done (.fail message) fun w => w
        | .placed [] => .error
        | .placed (host :: _) => placeReplicaOn F e c source host

/-- Mark node rows as taken out of desired state. -/
def World.retract (p : NodeRow → Bool) (w : World) : World :=
  { w with nodes := w.nodes.map fun n => if p n then { n with retracted := true } else n }

def World.dropNodes (p : NodeRow → Bool) (w : World) : World :=
  { w with nodes := w.nodes.filter fun n => !p n }

def retractOld : Body World Outcome :=
  match c.params.oldNode with
  | none => .error
  | some old => .read fun s =>
    let isOld (n : NodeRow) : Bool := n.database = c.database && n.node = old
    if s.world.nodes.any isOld then .done .done (World.retract isOld) else .error

def dropOld : Body World Outcome :=
  match c.params.oldNode with
  | none => .error
  | some old => .done .done (World.dropNodes fun n => n.database = c.database && n.node = old)

def retract : Body World Outcome :=
  .done .done (World.retract fun n => n.database = c.database)

/-- A deleted database keeps its row, without nodes or secrets. -/
def World.finalize (id : String) (w : World) : World :=
  ((w.dropNodes fun n => n.database = id).update id
    fun d => { d with secrets := none }).setStatus id .deleted

def finalize : Body World Outcome := .done .done (World.finalize c.database)

/-- Work on a replica that its source's Raft leader does. -/
def replicaTask : Body World Outcome :=
  .read fun s =>
    match (s.world.db? c.database).bind (·.replicaOf) with
    | none => .error
    | some _ => await e

def removeReplica : Body World Outcome :=
  .read fun s =>
    match s.world.db? c.database with
    | none => .error
    | some d =>
      match d.replicaOf with
      | none => .done .done fun w => w
      | some _ => replicaTask e c

/-- The source has let go: the replica becomes a database of its own. -/
def World.promote (id : String) : World → World := update id fun d => { d with replicaOf := none }

def promote : Body World Outcome := .done .done (World.promote c.database)

def runStep : Body World Outcome :=
  match c.name with
  | .place => place F e c
  | .placeReplica => placeReplica F e c
  | .activate => .done .done (World.setStatus c.database .active)
  | .settle | .openAccess | .newGeneration => .done .done fun w => w
  | .retract => retract c
  | .finalize => finalize c
  | .retractOld => retractOld c
  | .dropOld => dropOld c
  | .addReplica | .detachReplica => replicaTask e c
  | .removeReplica => removeReplica e c
  | .promote => promote c
  | .caTrustBoth => caTrustBoth e c
  | .caIssue => caIssue c
  | .caTrustNew => caTrustNew c
  | .passwordsOffer => passwordsOffer e c
  | .passwordsCommit => passwordsCommit c
  | .waitApplied | .waitPeers | .waitRemoved | .waitOldRemoved | .waitVersion
  | .firstBackup | .backup | .rollingRestart | .resizeRestart | .upgradeCheck | .switchover
  | .setReplicationMode | .replaceMember | .passwordsAlter => await e

/-- A failed update leaves a database serving on its old settings. -/
def onFail (w : World) : World :=
  w.setStatus c.database (match c.kind with
    | .create | .delete | .createReplica | .promoteReplica => .error
    | _ => .degraded)

end Steps

end PgCluster.Admin
