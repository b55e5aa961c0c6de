import PgCluster.AdminWorld

/-!
# API handlers

The handlers that change databases, nodes and operations: `api/databases.rs`,
`api/replicas.rs`, `backup_now` and `restore` of `api/backups.rs`, and the two
background jobs that do the same, `renew_certificates` and `sweep`. A drain
calls `start_replacement` with a host it chose.

A handler that inserts a database holds its new row from the insert on, so
the insert is a `lock` on an ID nobody uses. Names are not modelled: a name
that is taken refuses a request.
-/

namespace PgCluster.Admin

/-- Requests that change something, by the ID of the database. -/
inductive ApiRequest where
  | create (id : String) (ha : Bool) (resources : Resources) (hosts : List String)
  | restore (source id : String) (hosts : List String)
  | createReplica (source id : String) (host : Option String)
  | promoteReplica (source id : String)
  | deleteReplica (source id : String)
  | delete (id : String)
  | restart (id : String)
  | switchover (id : String)
  | rotateCa (id : String)
  | rotatePasswords (id : String)
  | upgrade (id : String)
  | backup (id : String)
  | update (id : String)
  | rollingUpdate (id : String)
  | replicationMode (id : String)
  | resize (id : String) (resources : Resources)
  | replace (id : String) (node : Nat) (host : String)
  | putCertificate (id : String) (certificate : ProxyCertificate)
  | renewCertificate (id : String) (node : Nat)
  | sweep (id : String) (problem : Bool)

/-- A request, and what its handler meets. -/
structure Call where
  env : Env
  request : ApiRequest

section Handlers

variable (F : Fleet) (e : Env)

/-- Record an operation with the writes that go with it. -/
def record (id : String) (kind : Kind) (write : World → World) : Body World ApiResult :=
  .done ⟨id, false, some (kind, .none)⟩ write

/-- `lock`, and what the handler does with the row. -/
def lockDatabase (id : String) (next : DatabaseRow → Body World ApiResult) :
    Body World ApiResult :=
  .lock (.database id) fun _ s =>
    match s.world.live? id with
    | none => .error
    | some d => next d

/-- The hosts a request names, each of which must exist and be a failure
domain of its own. -/
def checkPlacement (hosts : List String) : Bool :=
  let found := hosts.map fun wanted => F.hosts.find? fun h => h.id = wanted || h.name = wanted
  found.all (·.isSome) && (found.filterMap fun h => h.map fun h => h.failureDomain.getD h.id).Nodup

/-- Refuse at once what the fleet cannot hold. Too few hosts is not refused,
because more may enrol. -/
def checkCapacity (w : World) (d : DatabaseRow) : Bool :=
  let hosts := ((F.hostLoads e w).filter fun h => !h.draining && h.host.capacity.isSome).filter
    fun h => d.hosts.isEmpty || d.hosts.contains h.host.id || d.hosts.contains h.host.name
  !F.tooLarge hosts d.resources
    && match F.place hosts (if d.ha then HA_NODES else 1) d.resources with
      | .noRoom _ => false
      | _ => true

/-- Insert a database's row, with the operation that brings it up. -/
def insertDatabase (d : DatabaseRow) (kind : Kind) : Body World ApiResult :=
  .lock (.database d.id) fun _ s =>
    if (s.world.db? d.id).isSome then .error else record d.id kind (World.insert d)

def create (id : String) (ha : Bool) (resources : Resources) (hosts : List String) :
    Body World ApiResult :=
  let d : DatabaseRow := ⟨id, .provisioning, ha, resources, hosts, none, none, none⟩
  if !resources.positive || !checkPlacement F hosts then .error
  else .read fun s =>
    if checkCapacity F e s.world d then insertDatabase d .create else .error

/-- Restore into a new database. The source stays as it is. -/
def restore (source id : String) (hosts : List String) : Body World ApiResult :=
  .read fun s =>
    match s.world.live? source with
    | none => .error
    | some d =>
      let d := { d with
        id := id, status := .provisioning, hosts := hosts
        replicaOf := none, restore := some source, secrets := none }
      insertDatabase d .create

/-- Start a replica of a three-node database. -/
def createReplica (source id : String) (host : Option String) : Body World ApiResult :=
  lockDatabase source fun d =>
    let r := { d with
      id := id, status := .provisioning, ha := false, hosts := host.toList
      replicaOf := some source, restore := none, secrets := none }
    if !d.status.serving || d.replicaOf.isSome || !d.ha || !checkPlacement F r.hosts then .error
    else .read fun s =>
      if checkCapacity F e s.world r then insertDatabase r .createReplica else .error

/-- `replica_of`: the replica, checked to belong to the source, and no lock. -/
def ofSource (source id : String) (next : Body World ApiResult) : Body World ApiResult :=
  .read fun s =>
    if (s.world.live? id).any fun d => d.replicaOf = some source then next else .error

/-- Detach a replica into an independent one-node database. -/
def promoteReplica (source id : String) : Body World ApiResult :=
  ofSource source id <| lockDatabase id fun d =>
    if !d.status.serving then .error
    else .read fun s =>
      if s.busy id then .error
      else record id .promoteReplica (World.setStatus id .provisioning)

def delete (id : String) : Body World ApiResult :=
  lockDatabase id fun d =>
    if d.status = .deleting then .error
    else .read fun s =>
      if s.world.hasReplicas id then .error
      -- A stuck create must not hold up its own removal.
      else .done ⟨id, true, some (.delete, .none)⟩ (World.setStatus id .deleting)

def deleteReplica (source id : String) : Body World ApiResult :=
  ofSource source id (delete id)

/-- Start an operation that changes no spec. -/
def start (id : String) (kind : Kind) : Body World ApiResult :=
  lockDatabase id fun d =>
    if !d.status.serving || d.replicaOf.isSome then .error
    -- A replica shares its source's CA and passwords, which it cannot follow
    -- through a rotation.
    else if kind = .rotateCa || kind = .rotatePasswords then .read fun s =>
      if s.world.hasReplicas id then .error else record id kind fun w => w
    else record id kind fun w => w

def switchover (id : String) : Body World ApiResult :=
  .read fun s =>
    if (s.world.live? id).any (·.ha) then start id .switchover else .error

/-- Store a changed spec and record the operation that waits for the hosts.
What changes is none of what the rows here hold. -/
def changeSpec (id : String) (kind : Kind) : Body World ApiResult :=
  lockDatabase id fun d =>
    if d.replicaOf.isSome || d.status = .deleting || d.status = .error then .error
    else record id kind fun w => w

/-- What a database of this size grows by. -/
def growth (old new : Resources) : Resources where
  vcpu := max (new.vcpu - old.vcpu) 0
  memoryGb := max (new.memoryGb - old.memoryGb) 0
  storageGb := new.storageGb - old.storageGb

/-- Give every node new resources. Each node's host must have room for the
difference. -/
def resize (id : String) (resources : Resources) : Body World ApiResult :=
  if !resources.positive then .error
  else lockDatabase id fun d =>
    if !d.status.serving || d.replicaOf.isSome then .error
    else .read fun s =>
      if s.busy id || resources.storageGb < d.resources.storageGb then .error
      else .read fun s => .lock .hosts fun s₀ _ =>
        let hosts := (s.world.liveNodes id).map (·.host)
        -- This database already counts in what each host uses.
        let fitsOn (h : HostLoad) : Bool :=
          (h.free F.config).any (fits · (growth d.resources resources))
        if (F.hostLoads e s₀.world).all fun h => !hosts.contains h.host.id || fitsOn h then
          record id .resize (World.update id fun d => { d with resources := resources })
        else .error

/-- Start replacing a node with a new one on the wanted host, by ID or name. -/
def startReplacement (id : String) (node : Nat) (wanted : String) : Body World ApiResult :=
  lockDatabase id fun d =>
    if !d.status.serving || d.replicaOf.isSome || !d.ha then .error
    else .read fun s =>
      if s.busy id then .error
      else .read fun s =>
        let nodes := s.world.liveNodes id
        if !nodes.any (·.node = node) then .error
        else .lock .hosts fun s₀ _ =>
          match (F.hostLoads e s₀.world).find? fun h =>
              (h.host.id = wanted || h.host.name = wanted) && h.online with
          | none => .error
          | some h =>
            if h.draining
                || nodes.any (fun n => n.node ≠ node && F.domainOf n.host = some h.domain)
                || nodes.any (·.host = h.host.id)
                || !h.hasRoom F.config d.resources then .error
            else .read fun s =>
              if (s.world.secrets? id).isNone then .error
              else .read fun s =>
                let number := (nodes.map (·.node)).foldr max 0 + 1
                match F.freePort s.world h.host.id with
                | none => .error
                | some port =>
                  if s.world.nodes.any fun n => n.database = id && n.node = number then .error
                  else .done ⟨id, false, some (.replace, ⟨some node, some number⟩)⟩
                    (World.addNodes [⟨id, number, h.host.id, port, false⟩])

/-- Have every node's proxy present this certificate. -/
def putCertificate (id : String) (certificate : ProxyCertificate) : Body World ApiResult :=
  lockDatabase id fun d =>
    if !d.status.serving || d.replicaOf.isSome then .error
    else .read fun s =>
      match s.world.secrets? id with
      | none => .error
      | some secrets =>
        record id .update
          (World.storeSecrets id { secrets with proxyCertificate := some certificate })

/-- Reissue a node's certificate as a change like any other. -/
def renewCertificate (id : String) (node : Nat) : Body World ApiResult :=
  lockDatabase id fun d =>
    if !d.status.serving || d.secrets.isNone then .error
    else .read fun s =>
      if s.busy id then .error
      else .read fun s =>
        if s.world.nodes.any fun n => n.database = id && n.node = node then
          record id .update fun w => w
        else .error

/-- Reflect node and host health in a database's status. -/
def sweep (id : String) (problem : Bool) : Body World ApiResult :=
  .lock (.database id) fun _ s =>
    match s.world.db? id, problem with
    | some d, true =>
      if d.status = .active then .done ⟨id, false, none⟩ (World.setStatus id .degraded)
      else .error
    | some d, false =>
      if d.status = .degraded then .done ⟨id, false, none⟩ (World.setStatus id .active)
      else .error
    | none, _ => .error

end Handlers

def handler (F : Fleet) (call : Call) : Body World ApiResult :=
  match call.request with
  | .create id ha resources hosts => create F call.env id ha resources hosts
  | .restore source id hosts => restore source id hosts
  | .createReplica source id host => createReplica F call.env source id host
  | .promoteReplica source id => promoteReplica source id
  | .deleteReplica source id => deleteReplica source id
  | .delete id => delete id
  | .restart id => start id .restart
  | .switchover id => switchover id
  | .rotateCa id => start id .rotateCa
  | .rotatePasswords id => start id .rotatePasswords
  | .upgrade id => start id .upgrade
  | .backup id => start id .backup
  | .update id => changeSpec id .update
  | .rollingUpdate id => changeSpec id .rollingUpdate
  | .replicationMode id => changeSpec id .replicationMode
  | .resize id resources => resize F call.env id resources
  | .replace id node host => startReplacement F call.env id node host
  | .putCertificate id certificate => putCertificate id certificate
  | .renewCertificate id node => renewCertificate id node
  | .sweep id problem => sweep id problem

/-- pgcluster-admin over a fleet of hosts. -/
def adminEngine (F : Fleet) : Engine World Env Call where
  runStep e c := runStep F e c
  onFail c := onFail c
  api call := handler F call

def World.empty : World := ⟨[], []⟩

end PgCluster.Admin
