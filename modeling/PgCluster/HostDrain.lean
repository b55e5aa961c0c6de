import PgCluster.AdminLifecycle

/-!
# Draining hosts

`drain` and `undrain` of `api/hosts.rs` and `drain.rs`, next to everything that
`adminEngine` runs. A host's row now has the columns a drain changes and a lock of
its own, so that `host_loads ... FOR UPDATE OF h` is a snapshot and then a lock on
one row after another, of which only `draining` is read again (`lockRows`).

The programs of `adminEngine` are taken over by `onHosts`. What they take for the
draining hosts is a guess of the environment until the rows are locked; a session
that has guessed otherwise than it finds goes no further.

The statement of `advance` that sets `drained_at` treats each host on its own, so it
is a request for each host here (`markDrained`). It looks for nodes in its snapshot
only: a host that was undrained, given a node and drained again while the statement
waited is marked as drained all the same.
-/

namespace PgCluster.Admin

open Contract List

/-- The columns of a host's row that a drain changes. -/
structure HostFlags where
  id : String
  draining : Bool
  drainedAt : Option Int
  drainError : Option String
deriving DecidableEq

structure HostTables where
  admin : Tables World
  hosts : List HostFlags
  /-- The hosts undrained so far, for the record: no program reads it. -/
  undrains : List String

inductive HostKey where
  | admin (k : Key)
  | host (id : String)
deriving DecidableEq

abbrev HostTxn := Txn HostTables HostKey Empty

namespace HostTables

def nodes (s : HostTables) : List NodeRow := s.admin.world.nodes

def draining (s : HostTables) (id : String) : Bool := s.hosts.any fun h => h.id = id && h.draining

def updateHost (id : String) (f : HostFlags → HostFlags) (s : HostTables) : HostTables :=
  { s with hosts := s.hosts.map fun h => if h.id = id then f h else h }

def startDrain (id : String) : HostTables → HostTables :=
  updateHost id fun h => { h with draining := true, drainedAt := none, drainError := none }

def undrain (id : String) (s : HostTables) : HostTables :=
  { updateHost id (fun h => { h with draining := false, drainedAt := none, drainError := none }) s
    with undrains := s.undrains ++ [id] }

def markDrained (id : String) (now : Int) : HostTables → HostTables :=
  updateHost id fun h => { h with drainedAt := some now, drainError := none }

def setError (id : String) (reason : Option String) : HostTables → HostTables :=
  updateHost id fun h => { h with drainError := reason }

/-- What `advance` looks for: a node to move, of a database that is idle. Which one
of several it takes is left open. -/
def due (s : HostTables) (database : String) (node : Nat) (host : String) : Bool :=
  s.nodes.any (fun n => n.database = database && n.node = node && n.host = host && !n.retracted)
    && s.draining host && (s.admin.world.db? database).any (fun d => d.status.serving && d.ha)
    && !s.admin.busy database

def single (s : HostTables) (id : String) : Bool :=
  s.nodes.any fun n => n.host = id && !n.retracted
    && (s.admin.world.db? n.database).any fun d => !d.ha

def unmarked (s : HostTables) (id : String) : Bool :=
  s.hosts.any fun h => h.id = id && h.draining && h.drainedAt.isNone

end HostTables

section Programs

variable (F : Fleet)

/-- Lock rows of hosts one after the other and read again which of them drain. -/
def lockRows : List String → ((String → Bool) → HostTxn) → HostTxn
  | [], next => next fun _ => false
  | id :: ids, next => .lock (.host id) fun _ s => lockRows ids fun found =>
    next fun j => if j = id then s.draining id else found j

/-- A program of `adminEngine` among hosts that drain; `finish` ends it. -/
def onHosts (draining : List String) (finish : (Tables World → Tables World) → HostTxn) :
    AdminTxn World → HostTxn
  | .commit write => finish write
  | .rollback => .rollback
  | .read next => .read fun s => onHosts draining finish (next s.admin)
  | .lock k next =>
    if k = .hosts then .read fun s₀ => lockRows (F.hosts.map (·.id)) fun found =>
      if F.hosts.all fun h => found h.id = draining.contains h.id then
        -- the loads are those of the snapshot
        onHosts draining finish (next s₀.admin s₀.admin)
      else .rollback
    else .lock (.admin k) fun s₀ s => onHosts draining finish (next s₀.admin s.admin)
  | .claim cand recheck next =>
    .claim (fun s k => match k with | .admin k => cand s.admin k | .host _ => false)
      (fun s k => match k with | .admin k => recheck s.admin k | .host _ => false)
      fun s₀ k => onHosts draining finish
        (next s₀.admin (k.bind fun k => match k with | .admin k => some k | .host _ => none))
  | .note _ next => onHosts draining finish next

def commitAdmin (write : Tables World → Tables World) : HostTxn :=
  .commit fun s => { s with admin := write s.admin }

def drain (id : String) : HostTxn :=
  .lock (.host id) fun _ s =>
    match s.hosts.find? (·.id = id) with
    | none => .rollback
    | some h => .read fun s =>
      -- one-node databases cannot move without downtime
      if s.single id then .rollback
      else .commit (if h.draining then fun s => s else HostTables.startDrain id)

/-- Let nodes land on a host again. -/
def undrain (id : String) : HostTxn :=
  .lock (.host id) fun _ s =>
    if s.hosts.any (·.id = id) then .commit (HostTables.undrain id) else .rollback

/-- What the `UPDATE` of `advance` does to one host: the row is read again when it is
locked, the nodes are not. -/
def markDrained (id : String) (now : Int) : HostTxn :=
  .lock (.host id) fun s₀ s =>
    if s₀.unmarked id && !s₀.nodes.any (·.host = id) && s.unmarked id then
      .commit (HostTables.markDrained id now)
    else .rollback

def blocked (id reason : String) : HostTxn :=
  .lock (.host id) fun _ _ => .commit (HostTables.setError id (some reason))

/-- Replace one node of a draining host, on the host with the most room that keeps the
database's nodes in separate failure domains. A move that fails is rolled back; what
is said about it is another transaction (`blocked`). -/
def moveNode (database : String) (node : Nat) (host : String) (e : Env) : HostTxn :=
  .read fun s => if !s.due database node host then .rollback else .read fun s =>
    let peers := (s.admin.world.liveNodes database).filter (·.node ≠ node)
    let taken := peers.filterMap fun n => F.domainOf n.host
    .read fun s => match s.admin.world.db? database with
      | none => .rollback
      | some d => .read fun s =>
        let e' := { e with draining := (s.hosts.filter (·.draining)).map (·.id) }
        let hosts := (F.hostLoads e' s.admin.world).filter fun h =>
          h.online && !h.draining && h.host.id ≠ host && !peers.any (·.host = h.host.id)
            && !taken.contains h.domain
        match F.place hosts 1 d.resources with
        | .placed (target :: _) =>
          onHosts F e.draining (fun write => .lock (.host host) fun _ _ =>
              .commit fun s => HostTables.setError host none { s with admin := write s.admin })
            ((adminEngine F).handle ⟨e, .replace database node target.host.id⟩)
        | _ => .rollback

inductive HostRequest where
  | admin (r : Request Env Call)
  | drain (id : String)
  | undrain (id : String)
  | moveNode (database : String) (node : Nat) (host : String) (e : Env)
  | markDrained (id : String) (now : Int)
  | blocked (id reason : String)

def Request.env : Request Env Call → Env
  | .reconcile _ e => e
  | .api call => call.env

def HostRequest.program : HostRequest → HostTxn
  | .admin r => onHosts F r.env.draining commitAdmin ((adminEngine F).program r)
  | .drain id => Admin.drain id
  | .undrain id => Admin.undrain id
  | .moveNode database node host e => Admin.moveNode F database node host e
  | .markDrained id now => Admin.markDrained id now
  | .blocked id reason => Admin.blocked id reason

def HostTables.empty : HostTables :=
  ⟨⟨[], 0, World.empty, []⟩, F.hosts.map fun h => ⟨h.id, false, none, none⟩, []⟩

abbrev HostStore := Store HostTables HostKey Empty HostRequest

def hostMachine : Machine HostStore (TxnLabel HostKey HostRequest) :=
  storeMachine (.empty F) (HostRequest.program F)

end Programs

/-! ## Where nodes land -/

variable {id wanted : String} {F : Fleet} {locked : Bool} {strict : Prop}

section Places

variable (F : Fleet) (draining : List String)

def NodeRow.same (m n : NodeRow) : Prop :=
  m.database = n.database ∧ m.node = n.node ∧ m.host = n.host

/-- Nodes that are new are on hosts that are locked and do not drain. -/
def Inserts (locked : Bool) (old new : List NodeRow) : Prop :=
  ∀ n ∈ new, (∃ m ∈ old, m.same n)
    ∨ (locked = true ∧ ∃ h ∈ F.hosts, h.id = n.host ∧ draining.contains h.id = false)

def Key.locks (locked : Bool) : Key → Bool
  | .hosts => true
  | _ => locked

/-- Whatever it reads, a body puts nodes only there. -/
def Body.Places {ρ : Type} : Bool → Body World ρ → Prop
  | locked, .done _ write => ∀ w : World, Inserts F draining locked w.nodes (write w).nodes
  | _, .error => True
  | locked, .read next => ∀ s, (next s).Places locked
  | locked, .lock k next => ∀ s₀ s, (next s₀ s).Places (k.locks locked)

/-- The same for a transaction. -/
def TxnPlaces : Bool → AdminTxn World → Prop
  | locked, .commit write =>
    ∀ s : Tables World, Inserts F draining locked s.world.nodes (write s).world.nodes
  | _, .rollback => True
  | locked, .read next => ∀ s, TxnPlaces locked (next s)
  | locked, .lock k next => ∀ s₀ s, TxnPlaces (k.locks locked) (next s₀ s)
  | locked, .claim _ _ next => ∀ s k, TxnPlaces locked (next s k)
  | locked, .note _ next => TxnPlaces locked next

variable {F draining} {ρ : Type} {e : Env} {c : Claimed} {loads : List HostLoad} {w v : World}
  {rows old new : List NodeRow} {write : World → World} {kind : Kind}

theorem Inserts.of_old (h : ∀ n ∈ new, ∃ m ∈ old, m.same n) :
    Inserts F draining locked old new := fun n hn => .inl (h n hn)

theorem Inserts.refl (nodes : List NodeRow) : Inserts F draining locked nodes nodes :=
  .of_old fun n hn => ⟨n, hn, rfl, rfl, rfl⟩

theorem Inserts.filter (p : NodeRow → Bool) (nodes : List NodeRow) :
    Inserts F draining locked nodes (nodes.filter p) :=
  .of_old fun n hn => ⟨n, (mem_filter.mp hn).1, rfl, rfl, rfl⟩

theorem Inserts.retract (p : NodeRow → Bool) (w : World) :
    Inserts F draining locked w.nodes (w.retract p).nodes := by
  refine .of_old fun n hn => ?_
  obtain ⟨m, hm, rfl⟩ := mem_map.mp hn
  refine ⟨m, hm, ?_⟩
  split <;> exact ⟨rfl, rfl, rfl⟩

/-- New rows on hosts that a statement under lock has found not to drain. -/
theorem Inserts.add (hloads : ∀ h ∈ loads, h ∈ F.hostLoads e v ∧ h.draining = false)
    (hrows : ∀ n ∈ rows, ∃ h ∈ loads, h.host.id = n.host) :
    Inserts F e.draining true w.nodes (w.addNodes rows).nodes := by
  intro n hn
  rcases mem_append.mp hn with hn | hn
  · exact .inl ⟨n, hn, rfl, rfl, rfl⟩
  · obtain ⟨h, hh, hhost⟩ := hrows n hn
    obtain ⟨hload, hdraining⟩ := hloads h hh
    obtain ⟨row, hrow, rfl⟩ := mem_map.mp hload
    exact .inr ⟨rfl, row, hrow, hhost, hdraining⟩

theorem places_quiet {r : ρ} (h : ∀ w, (write w).nodes = w.nodes) :
    (Body.done r write).Places F draining locked := by
  intro w
  rw [h w]
  exact .refl _

theorem places_toTxn {finish : ρ → (World → World) → AdminTxn World}
    (hfinish : ∀ {locked r w}, (∀ v : World, Inserts F draining locked v.nodes (w v).nodes) →
      TxnPlaces F draining locked (finish r w)) (b : Body World ρ) :
    ∀ {locked}, b.Places F draining locked → TxnPlaces F draining locked (b.toTxn finish) := by
  induction b with
  | done => exact fun h => hfinish h
  | error => exact fun _ => trivial
  | read _ ih => exact fun h s => ih s (h s)
  | lock _ _ ih => exact fun h s₀ s => ih s₀ s (h s₀ s)

theorem places_await : (await e).Places F draining locked := by
  unfold await
  split
  · trivial
  · exact places_quiet fun _ => rfl

theorem places_changeSecrets (f : DatabaseSecrets → Option DatabaseSecrets) :
    (changeSecrets c f).Places F draining locked := by
  intro s
  dsimp only
  split
  · trivial
  · exact places_quiet fun _ => rfl

/-- Hosts that a placement under lock has chosen. -/
theorem candidates_open {d : DatabaseRow} {avoid : List String} {count : Nat}
    {chosen : List HostLoad}
    (h : F.place (candidates F e w d avoid) count d.resources = .placed chosen) :
    ∀ x ∈ chosen, x ∈ F.hostLoads e w ∧ x.draining = false := by
  intro x hx
  have hmem := mem_filter.mp ((F.place_placed h).1 x hx).1
  obtain ⟨hload, hopen⟩ := mem_filter.mp hmem.1
  exact ⟨hload, by simpa using (Bool.and_eq_true_iff.mp hopen).2⟩

theorem places_insertNodes {o : Outcome} (hwrite : ∀ w, (write w).nodes = w.nodes)
    (hloads : ∀ h ∈ loads, h ∈ F.hostLoads e v ∧ h.draining = false)
    (hrows : ∀ n ∈ rows, ∃ h ∈ loads, h.host.id = n.host) :
    (insertNodes w rows o write).Places F e.draining true := by
  unfold insertNodes
  split
  · trivial
  · intro w
    rw [← hwrite w]
    exact .add hloads hrows

theorem places_placeOn {key : Option String}
    (hloads : ∀ h ∈ loads, h ∈ F.hostLoads e v ∧ h.draining = false) :
    (placeOn F e c key loads).Places F e.draining true := by
  intro s
  refine places_insertNodes (fun _ => rfl) hloads fun n hn => ?_
  have hhost := (placeNodes_placedOn s.world c.database loads 1).hosts.subset (mem_map_of_mem hn)
  obtain ⟨h, hh, heq⟩ := mem_map.mp hhost
  exact ⟨h, hh, heq⟩

theorem places_place : (place F e c).Places F e.draining locked := by
  intro s
  dsimp only
  split
  · trivial
  next d _ =>
  intro _ s
  dsimp only
  split
  · exact places_quiet fun _ => rfl
  · exact places_quiet fun _ => rfl
  next _ hplace =>
  split
  · exact places_placeOn (candidates_open hplace)
  · intro s
    dsimp only
    split
    · trivial
    · exact places_placeOn (candidates_open hplace)

theorem places_placeReplica : (placeReplica F e c).Places F e.draining locked := by
  intro s
  dsimp only
  split
  · trivial
  next d _ =>
  split
  · trivial
  intro s _ _
  dsimp only
  split
  · exact places_quiet fun _ => rfl
  · exact places_quiet fun _ => rfl
  · trivial
  next host _ hplace =>
  intro s
  dsimp only
  split
  · trivial
  · intro s
    dsimp only
    split
    · exact places_quiet fun _ => rfl
    · refine places_insertNodes (fun _ => rfl) (candidates_open hplace) fun n hn => ?_
      rw [mem_singleton.mp hn]
      exact ⟨host, mem_cons_self, rfl⟩

theorem places_retractOld : (retractOld c).Places F draining locked := by
  unfold retractOld
  split
  · trivial
  · intro s
    dsimp only
    split
    · exact fun w => .retract _ w
    · trivial

theorem places_dropOld : (dropOld c).Places F draining locked := by
  unfold dropOld
  split
  · trivial
  · exact fun w => .filter _ w.nodes

theorem places_replicaTask : (replicaTask e c).Places F draining locked := by
  intro s
  dsimp only
  split
  · trivial
  · exact places_await

theorem places_removeReplica : (removeReplica e c).Places F draining locked := by
  intro s
  dsimp only
  split
  · trivial
  · split
    · exact places_quiet fun _ => rfl
    · exact places_replicaTask

theorem places_runStep : (runStep F e c).Places F e.draining locked := by
  unfold runStep
  split
  case h_1 => exact places_place
  case h_2 => exact places_placeReplica
  case h_7 => exact fun w => .retract _ w
  case h_8 => exact fun w => .filter _ w.nodes
  case h_9 => exact places_retractOld
  case h_10 => exact places_dropOld
  case h_13 => exact places_removeReplica
  all_goals first
    | exact places_quiet fun _ => rfl
    | exact places_await
    | exact places_changeSecrets _
    | exact places_replicaTask

/-! Handlers put nodes nowhere, but for `start_replacement`. -/

theorem places_lockDatabase {next : DatabaseRow → Body World ApiResult}
    (h : ∀ d, (next d).Places F draining locked) :
    (lockDatabase id next).Places F draining locked := by
  intro _ s
  dsimp only
  split
  · trivial
  · exact h _

theorem places_insertDatabase (d : DatabaseRow) (kind : Kind) :
    (insertDatabase d kind).Places F draining locked := by
  intro _ s
  dsimp only
  split
  · trivial
  · exact places_quiet fun _ => rfl

theorem places_ite {p : Prop} [Decidable p] {a b : Body World ρ} (ha : a.Places F draining locked)
    (hb : b.Places F draining locked) : (if p then a else b).Places F draining locked := by
  split
  · exact ha
  · exact hb

theorem places_startReplacement {node : Nat} :
    (startReplacement F e id node wanted).Places F e.draining locked := by
  refine places_lockDatabase fun d => places_ite trivial fun s => places_ite trivial fun s =>
    places_ite trivial fun s₀ s => ?_
  dsimp only
  split
  · trivial
  next load hfind =>
  split
  · trivial
  next hopen =>
  have hload : ∀ h ∈ [load], h ∈ F.hostLoads e s₀.world ∧ h.draining = false := by
    intro h hh
    rw [mem_singleton.mp hh]
    simp only [Bool.or_eq_true, not_or, Bool.not_eq_true] at hopen
    exact ⟨mem_of_find?_eq_some hfind, hopen.1.1.1⟩
  refine fun s => places_ite trivial fun s => ?_
  dsimp only
  split
  · trivial
  · refine places_ite trivial fun w => Inserts.add hload fun n hn => ?_
    rw [mem_singleton.mp hn]
    exact ⟨load, mem_singleton_self _, rfl⟩

theorem places_start : (start id kind).Places F draining locked :=
  places_lockDatabase fun _ => places_ite trivial <| places_ite
    (fun _ => places_ite trivial <| places_quiet fun _ => rfl) (places_quiet fun _ => rfl)

theorem places_delete : (delete id).Places F draining locked :=
  places_lockDatabase fun _ => places_ite trivial fun _ =>
    places_ite trivial <| places_quiet fun _ => rfl

theorem places_changeSpec : (changeSpec id kind).Places F draining locked :=
  places_lockDatabase fun _ => places_ite trivial <| places_quiet fun _ => rfl

theorem places_handler (call : Call) : (handler F call).Places F call.env.draining locked := by
  unfold handler
  split
  · exact places_ite trivial fun _ => places_ite (places_insertDatabase _ _) trivial
  · intro s
    dsimp only
    split
    · trivial
    · exact places_insertDatabase _ _
  · exact places_lockDatabase fun _ => places_ite trivial fun _ =>
      places_ite (places_insertDatabase _ _) trivial
  · exact fun _ => places_ite (places_lockDatabase fun _ => places_ite trivial fun _ =>
      places_ite trivial <| places_quiet fun _ => rfl) trivial
  · exact fun _ => places_ite places_delete trivial
  · exact places_delete
  · exact places_start
  · exact fun _ => places_ite places_start trivial
  · exact places_start
  · exact places_start
  · exact places_start
  · exact places_start
  · exact places_changeSpec
  · exact places_changeSpec
  · exact places_changeSpec
  · exact places_ite trivial <| places_lockDatabase fun _ => places_ite trivial fun _ =>
      places_ite trivial fun _ _ _ => places_ite (places_quiet fun _ => rfl) trivial
  · exact places_startReplacement
  · refine places_lockDatabase fun _ => places_ite trivial fun s => ?_
    dsimp only
    split
    · trivial
    · exact places_quiet fun _ => rfl
  · exact places_lockDatabase fun _ => places_ite trivial fun _ => places_ite trivial fun _ =>
      places_ite (places_quiet fun _ => rfl) trivial
  · intro _ s
    dsimp only
    split
    · exact places_ite (places_quiet fun _ => rfl) trivial
    · exact places_ite (places_quiet fun _ => rfl) trivial
    · trivial

theorem places_handle (call : Call) :
    TxnPlaces F call.env.draining false ((adminEngine F).handle call) := by
  refine places_toTxn ?_ (handler F call) (places_handler call)
  intro _ r w h _ _ s
  rw [commit_world]
  exact h s.world

theorem places_program (r : Request Env Call) :
    TxnPlaces F r.env.draining false ((adminEngine F).program r) := by
  cases r with
  | api call => exact places_handle call
  | reconcile late e =>
    intro s₀ k
    dsimp only
    cases k.bind (claimedStep s₀ late) with
    | none => trivial
    | some c =>
      intro _ _ s
      dsimp only
      split
      · refine places_toTxn ?_ (runStep F e c) places_runStep
        intro _ o w h s
        show Inserts _ _ _ _ (s.settle onFail c o w).world.nodes
        rw [StepCommit.settle_nodes]
        exact h s.world
      · trivial

end Places

/-! ## The contract -/

def Drained (s : HostTables) : Prop :=
  ∀ h ∈ s.hosts, h.drainedAt ≠ none → h.draining = true ∧ ∀ n ∈ s.nodes, n.host ≠ h.id

/-- What a session that has locked `H` may commit. -/
structure HostStep (H : Set HostKey) (s s' : HostTables) : Prop where
  rows : ∀ h : HostFlags, .host h.id ∉ H → (h ∈ s'.hosts ↔ h ∈ s.hosts)
  inserted : ∀ n ∈ s'.nodes, (∃ m ∈ s.nodes, m.same n)
    ∨ (s.draining n.host = false ∧ s'.draining n.host = false)
  undrained : ∀ id, s.undrains.count id ≤ s'.undrains.count id
    ∧ (s'.undrains.count id = s.undrains.count id → s.draining id = true → s'.draining id = true)

/-- With `strict`, no host is undrained while a statement that is to mark it waits. -/
def drainContract (F : Fleet) (strict : Prop) :
    Contract HostTables HostKey Empty HostRequest where
  Inv s := s.hosts.map (·.id) = F.hosts.map (·.id) ∧ (strict → Drained s)
  Guar _ _ H s s' := HostStep H s s'
  row := Empty.elim
  Cond _ _ := True
  Fresh a _ s₀ s := strict → ∀ id now, a = .markDrained id now →
    s.undrains.count id = s₀.undrains.count id

section Steps

variable {H H' : Set HostKey} {s s' s₁ : HostTables} {f : HostFlags → HostFlags}

theorem HostTables.draining_iff : s.draining id ↔ ∃ h ∈ s.hosts, h.id = id ∧ h.draining := by
  simp [draining]

/-- The flag of a host that others have not locked. -/
theorem HostStep.draining_eq (h : HostStep H s s') (hid : .host id ∉ H) :
    s'.draining id = s.draining id := by
  rw [Bool.eq_iff_iff, HostTables.draining_iff, HostTables.draining_iff]
  refine exists_congr fun x => and_congr_left fun hx => h.rows x ?_
  rw [hx.1]
  exact hid

theorem ids_update (hf : ∀ h, (f h).id = h.id) :
    (s.updateHost id f).hosts.map (·.id) = s.hosts.map (·.id) :=
  map_key_map_ite hf

/-- One host changes, under its lock; that it drains no more is on record. -/
theorem hostStep_update (hlock : .host id ∈ H) (hf : ∀ h, (f h).id = h.id)
    (hhosts : s'.hosts = (s.updateHost id f).hosts) (hnodes : s'.nodes = s.nodes)
    (hundrains : (s'.undrains = s.undrains ∧ ∀ h, h.draining → (f h).draining)
      ∨ s'.undrains = s.undrains ++ [id]) : HostStep H s s' := by
  refine ⟨fun h hh => ?_, fun n hn => .inl ⟨n, hnodes ▸ hn, rfl, rfl, rfl⟩, fun j => ?_⟩
  · rw [hhosts]
    have hne : h.id ≠ id := fun heq => hh (heq ▸ hlock)
    refine mem_map_of_key_ne (fun x => ?_) (fun x hx => if_neg hx) hne
    split
    · exact hf x
    · rfl
  -- a host other than this one, or one that goes on draining
  have hkeep : (∀ h : HostFlags, h.id = j → h.draining →
      (if h.id = id then f h else h).draining) → s.draining j →
      s'.draining j := by
    intro hflag hdraining
    obtain ⟨h, hh, hid, hd⟩ := HostTables.draining_iff.mp hdraining
    refine HostTables.draining_iff.mpr ⟨_, hhosts ▸ mem_map_of_mem hh, ?_, hflag h hid hd⟩
    split
    · exact (hf h).trans hid
    · exact hid
  rcases hundrains with ⟨heq, hmono⟩ | heq
  · rw [heq]
    refine ⟨le_refl _, fun _ => hkeep fun h _ hd => ?_⟩
    split
    · exact hmono h hd
    · exact hd
  · rw [heq, count_append, count_singleton]
    refine ⟨Nat.le_add_right _ _, fun hcount => hkeep fun h hid hd => ?_⟩
    rw [if_neg]
    · exact hd
    · rintro rfl
      simp [hid] at hcount

theorem drained_update (h : Drained s) (hhosts : s'.hosts = (s.updateHost id f).hosts)
    (hnodes : s'.nodes = s.nodes) (hf : ∀ h, (f h).id = h.id)
    (hnew : ∀ h ∈ s.hosts, h.id = id → (f h).drainedAt ≠ none →
      (f h).draining ∧ ∀ n ∈ s.nodes, n.host ≠ id) : Drained s' := by
  intro _ hh' hat
  rw [hhosts] at hh'
  obtain ⟨x, hx, rfl⟩ := mem_map.mp hh'
  rw [hnodes]
  by_cases heq : x.id = id
  · rw [if_pos heq] at hat ⊢
    rw [hf x, heq]
    exact hnew x hx heq hat
  · rw [if_neg heq] at hat ⊢
    exact h x hx hat

/-- Writes that put nodes only on locked hosts, of which it is known which drain. -/
theorem hostStep_admin {draining : List String} {locked : Bool}
    {write : Tables World → Tables World}
    (hwrite : Inserts F draining locked s.nodes (write s.admin).world.nodes)
    (hflags : locked → ∀ h ∈ F.hosts, s.draining h.id = draining.contains h.id) :
    HostStep H s { s with admin := write s.admin } := by
  refine ⟨fun _ _ => .rfl, fun n hn => ?_, fun id => ⟨le_refl _, fun _ h => h⟩⟩
  refine (hwrite n hn).imp_right fun ⟨hlocked, h, hh, hid, hopen⟩ => ?_
  have hflag := (hflags hlocked h hh).trans hopen
  rw [hid] at hflag
  exact ⟨hflag, hflag⟩

theorem HostStep.mono (h : HostStep H s s') (hsub : H ⊆ H') : HostStep H' s s' :=
  ⟨fun x hx => h.rows x fun hin => hx (hsub hin), h.inserted, h.undrained⟩

theorem HostStep.trans (h₁ : HostStep H s s₁) (h₂ : HostStep H s₁ s')
    (hnodes : s'.nodes = s₁.nodes) (hflags : ∀ id, s'.draining id = s₁.draining id) :
    HostStep H s s' := by
  refine ⟨fun h hh => (h₂.rows h hh).trans (h₁.rows h hh), fun n hn => ?_, fun id => ?_⟩
  · rw [hflags]
    exact h₁.inserted n (hnodes ▸ hn)
  · obtain ⟨hle₁, hkeep₁⟩ := h₁.undrained id
    obtain ⟨hle₂, -⟩ := h₂.undrained id
    rw [hflags]
    exact ⟨hle₁.trans hle₂, fun heq => hkeep₁ (by omega)⟩

def Emptied (id : String) (s : HostTables) : Prop :=
  s.draining id = true ∧ ∀ n ∈ s.nodes, n.host ≠ id

theorem HostStep.emptied (h : HostStep H s s') (hs : Emptied id s)
    (hkeep : s'.draining id) : Emptied id s' := by
  refine ⟨hkeep, fun n hn hid => ?_⟩
  rcases h.inserted n hn with ⟨m, hm, -, -, hhost⟩ | ⟨-, hopen⟩
  · exact hs.2 m hm (hhost.trans hid)
  · rw [hid, hkeep] at hopen
    cases hopen

theorem HostStep.drained (h : HostStep H s s') (hhosts : s'.hosts = s.hosts) (hs : Drained s) :
    Drained s' := by
  intro x hx hat
  have hold := hs x (hhosts ▸ hx) hat
  have hkeep := HostTables.draining_iff.mpr ⟨x, hx, rfl, hold.1⟩
  have hsame : s'.draining x.id = s.draining x.id := by rw [HostTables.draining, hhosts]; rfl
  exact ⟨hold.1, (h.emptied ⟨hsame ▸ hkeep, hold.2⟩ hkeep).2⟩

end Steps

/-! ## Sessions -/

section Sessions

variable {draining : List String} {a : HostRequest} {n : Option Empty} {H : Set HostKey}
  {K : HostTables → Prop}

/-- What a session knows that has locked the hosts. -/
structure Holding (F : Fleet) (draining : List String) (H : Set HostKey)
    (K : HostTables → Prop) : Prop where
  keys : ∀ h ∈ F.hosts, .host h.id ∈ H
  flags : ∀ s, K s → ∀ h ∈ F.hosts, s.draining h.id = draining.contains h.id

theorem stable_draining (hid : .host id ∈ H) (b : Bool) :
    (drainContract F strict).Stable H fun s => s.draining id = b := by
  intro a n H' s s' hd _ _ hG hs
  have hstep : HostStep H' s s' := hG
  exact (hstep.draining_eq (hd _ hid)).trans hs

/-- Row after row, the flags that are read stay as they are. -/
theorem verified_lockRows (ids : List String) : ∀ {next : (String → Bool) → HostTxn}
    {H : Set HostKey} {K : HostTables → Prop}, (drainContract F strict).Stable H K →
    (∀ found H' K', H ⊆ H' → (∀ id ∈ ids, .host id ∈ H') → (drainContract F strict).Stable H' K' →
      (∀ s, K' s → K s ∧ ∀ id ∈ ids, s.draining id = found id) →
      (drainContract F strict).Verified a (next found) n H' K') →
    (drainContract F strict).Verified a (lockRows ids next) n H K := by
  induction ids with
  | nil =>
    intro next H K hK h
    exact h _ H K (fun _ hk => hk) (fun _ hid => absurd hid not_mem_nil) hK
      fun s hs => ⟨hs, fun _ hid => absurd hid not_mem_nil⟩
  | cons id _ ih =>
    intro next H K hK h _ _ hs₀
    refine ⟨K, hK, hs₀, fun s _ hs _ => ⟨fun s' => K s' ∧ s'.draining id = s.draining id,
      (hK.mono (Set.subset_insert _ _)).and (stable_draining (Set.mem_insert _ _) _),
      ⟨hs, rfl⟩, ?_⟩⟩
    refine ih ((hK.mono (Set.subset_insert _ _)).and (stable_draining (Set.mem_insert _ _) _)) ?_
    intro _ H' K' hsub hids hstable hK'
    refine h _ H' K' ((Set.subset_insert _ _).trans hsub) ?_ hstable fun s' hs' => ?_
    · intro j hj
      rcases mem_cons.mp hj with rfl | hj
      · exact hsub (Set.mem_insert _ _)
      · exact hids j hj
    · obtain ⟨⟨hKs, hhead⟩, htail⟩ := hK' s' hs'
      refine ⟨hKs, fun j hj => ?_⟩
      split
      · next heq => exact heq ▸ hhead
      · next hne => exact htail j ((mem_cons.mp hj).resolve_left hne)

/-- A program of `adminEngine` keeps the contract among hosts that drain. -/
theorem verified_onHosts {finish : (Tables World → Tables World) → HostTxn}
    (hfinish : ∀ {write locked H K}, (∀ s : Tables World,
        Inserts F draining locked s.world.nodes (write s).world.nodes) →
      (locked → Holding F draining H K) → (drainContract F strict).Stable H K →
      (drainContract F strict).Verified a (finish write) n H K) (t : AdminTxn World) :
    ∀ {locked H K}, TxnPlaces F draining locked t → (locked → Holding F draining H K) →
      (drainContract F strict).Stable H K →
      (drainContract F strict).Verified a (onHosts F draining finish t) n H K := by
  have hmore : ∀ {locked H K k}, (locked → Holding F draining H K) →
      locked → Holding F draining (insert k H) K := fun h hlocked =>
    ⟨fun x hx => Set.mem_insert_of_mem _ ((h hlocked).keys x hx), (h hlocked).flags⟩
  induction t with
  | commit => exact fun hp hhold hK => hfinish hp hhold hK
  | rollback => exact fun _ _ _ => trivial
  | note _ _ ih => exact fun hp hhold hK => ih hp hhold hK
  | read _ ih => exact fun hp hhold hK s _ hs => ⟨_, hK, hs, ih s.admin (hp s.admin) hhold hK⟩
  | claim _ _ _ ih =>
    intro locked H K hp hhold hK s₀ _ hs₀
    refine ⟨K, hK, hs₀, fun s _ hs => ⟨K, hK, hs, ih _ _ (hp _ _) hhold hK⟩, ?_⟩
    intro s k _ hs _ _
    exact ⟨K, hK.mono (Set.subset_insert _ _), hs, ih _ _ (hp _ _) (hmore hhold)
      (hK.mono (Set.subset_insert _ _))⟩
  | lock k next ih =>
    intro locked H K hp hhold hK
    rw [onHosts]
    split
    · next hk =>
      intro s₀ _ hs₀
      refine ⟨K, hK, hs₀, verified_lockRows _ hK ?_⟩
      intro _ _ _ _ hkeys hstable hK'
      split
      · next hfound =>
        refine ih _ _ (hp _ _) (fun _ => ⟨fun h hh => ?_, fun s hs h hh => ?_⟩) hstable
        · exact hkeys h.id (mem_map_of_mem hh)
        · rw [(hK' s hs).2 h.id (mem_map_of_mem hh)]
          exact of_decide_eq_true (all_eq_true.mp hfound h hh)
      · trivial
    · next hk =>
      have hlocks : k.locks locked = locked := by
        cases k with
        | hosts => exact (hk rfl).elim
        | database | step => rfl
      intro _ _ hs₀
      refine ⟨K, hK, hs₀, fun s _ hs _ => ⟨K, hK.mono (Set.subset_insert _ _), hs, ?_⟩⟩
      exact ih _ _ (hlocks ▸ hp _ _) (hmore hhold) (hK.mono (Set.subset_insert _ _))

/-- How its writes are committed. -/
theorem verified_commitAdmin {write : Tables World → Tables World}
    (hwrite : ∀ s : Tables World, Inserts F draining locked s.world.nodes (write s).world.nodes)
    (hhold : locked → Holding F draining H K) :
    (drainContract F strict).Verified a (commitAdmin write) n H K := by
  intro s hinv hs _
  have hstep : HostStep H s { s with admin := write s.admin } :=
    hostStep_admin (hwrite s.admin) fun hlocked => (hhold hlocked).flags s hs
  exact ⟨⟨hinv.1, fun hstrict => hstep.drained rfl (hinv.2 hstrict)⟩, hstep⟩

theorem verified_updateHost {f : HostFlags → HostFlags}
    {write : HostTables → HostTables} (hlock : .host id ∈ H) (hf : ∀ h, (f h).id = h.id)
    (hhosts : ∀ s, (write s).hosts = (s.updateHost id f).hosts)
    (hnodes : ∀ s, (write s).nodes = s.nodes)
    (hundrains : ∀ s, ((write s).undrains = s.undrains ∧ ∀ h, h.draining →
      (f h).draining) ∨ (write s).undrains = s.undrains ++ [id])
    (hnew : ∀ s, (drainContract F strict).Inv s → K s → strict → ∀ h ∈ s.hosts, h.id = id →
      (f h).drainedAt ≠ none → (f h).draining ∧ ∀ n ∈ s.nodes, n.host ≠ id) :
    (drainContract F strict).Verified a (.commit write) n H K := by
  intro s hinv hs _
  refine ⟨⟨?_, fun hstrict => ?_⟩, hostStep_update hlock hf (hhosts s) (hnodes s) (hundrains s)⟩
  · rw [hhosts s, ids_update hf]
    exact hinv.1
  · exact drained_update (hinv.2 hstrict) (hhosts s) (hnodes s) hf (hnew s hinv hs hstrict)

theorem verified_setError (reason : Option String) (hlock : .host id ∈ H) :
    (drainContract F strict).Verified a (.commit (HostTables.setError id reason)) n H K :=
  verified_updateHost (f := fun h => { h with drainError := reason }) hlock (fun _ => rfl)
    (fun _ => rfl) (fun _ => rfl) (fun _ => .inl ⟨rfl, fun _ h => h⟩)
    fun _ hinv _ hstrict h hh hid hat => hid ▸ hinv.2 hstrict h hh hat

theorem verified_blocked (id reason : String) :
    (drainContract F strict).Verified a (blocked id reason) n ∅ fun _ => True := by
  exact verified_lock _ fun _ _ => verified_setError _ (Set.mem_insert _ _)

theorem verified_drain (id : String) :
    (drainContract F strict).Verified a (drain id) n ∅ fun _ => True := by
  refine verified_lock _ fun _ s => ?_
  split
  · trivial
  · refine verified_read _ fun s => ?_
    split
    · trivial
    split
    · intro s hinv _ _
      exact ⟨hinv, fun _ _ => .rfl, fun n hn => .inl ⟨n, hn, rfl, rfl, rfl⟩,
        fun _ => ⟨le_refl _, fun _ h => h⟩⟩
    · exact verified_updateHost
        (f := fun h => { h with draining := true, drainedAt := none, drainError := none })
        (Set.mem_insert _ _) (fun _ => rfl) (fun _ => rfl) (fun _ => rfl)
        (fun _ => .inl ⟨rfl, fun _ _ => rfl⟩) fun _ _ _ _ _ _ _ hat => (hat rfl).elim

theorem verified_undrain (id : String) :
    (drainContract F strict).Verified a (undrain id) n ∅ fun _ => True := by
  refine verified_lock _ fun _ s => ?_
  split
  · exact verified_updateHost
      (f := fun h => { h with draining := false, drainedAt := none, drainError := none })
      (Set.mem_insert _ _) (fun _ => rfl) (fun _ => rfl) (fun _ => rfl)
      (fun _ => .inr rfl) fun _ _ _ _ _ _ _ hat => (hat rfl).elim
  · trivial

/-- A host that was empty in `s₀` is so until it is undrained. -/
theorem stable_emptied_since (id : String) (s₀ : HostTables) :
    (drainContract F strict).Stable H fun s => s₀.undrains.count id ≤ s.undrains.count id
      ∧ (s.undrains.count id = s₀.undrains.count id → Emptied id s₀ → Emptied id s) := by
  rintro a n H' s s' _ _ _ hG ⟨hle, hsince⟩
  have hstep : HostStep H' s s' := hG
  obtain ⟨hle', hkeep⟩ := hstep.undrained id
  refine ⟨hle.trans hle', fun heq hempty => ?_⟩
  have hs := hsince (by omega) hempty
  exact hstep.emptied hs (hkeep (by omega) hs.1)

/-- It is so while its row is locked, in any case. -/
theorem stable_emptied (hid : .host id ∈ H) :
    (drainContract F strict).Stable H fun s => strict → Emptied id s := by
  intro a n H' s s' hd _ _ hG hs hstrict
  have hstep : HostStep H' s s' := hG
  exact hstep.emptied (hs hstrict) ((hstep.draining_eq (hd _ hid)).trans (hs hstrict).1)

theorem verified_markDrained (id : String) (now : Int) :
    (drainContract F strict).Verified (.markDrained id now) (markDrained id now) n ∅
      fun _ => True := by
  intro s₀ _ _
  refine ⟨_, stable_emptied_since id s₀, ⟨le_refl _, fun _ h => h⟩, fun s _ hs hfresh => ?_⟩
  dsimp only
  split
  · next hdue =>
    simp only [Bool.and_eq_true, Bool.not_eq_true', any_eq_false, decide_eq_true_eq] at hdue
    have hempty : Emptied id s₀ := by
      obtain ⟨h, hh, hflags⟩ := any_eq_true.mp hdue.1.1
      simp only [Bool.and_eq_true, decide_eq_true_eq] at hflags
      exact ⟨HostTables.draining_iff.mpr ⟨h, hh, hflags.1⟩, hdue.1.2⟩
    refine ⟨_, stable_emptied (Set.mem_insert _ _),
      fun hstrict => hs.2 (hfresh hstrict id now rfl) hempty, ?_⟩
    refine verified_updateHost
      (f := fun h => { h with drainedAt := some now, drainError := none }) (Set.mem_insert _ _)
      (fun _ => rfl) (fun _ => rfl) (fun _ => rfl) (fun _ => .inl ⟨rfl, fun _ h => h⟩)
      fun s hinv hs hstrict h hh hid _ => ?_
    obtain ⟨hdraining, hnone⟩ := hs hstrict
    obtain ⟨x, hx, hxid, hxd⟩ := HostTables.draining_iff.mp hdraining
    obtain rfl := inj_on_of_nodup_map (hinv.1 ▸ F.ids) hx hh (hxid.trans hid.symm)
    exact ⟨hxd, hnone⟩
  · exact ⟨_, stable_true _ _, trivial, trivial⟩

theorem verified_moveNode (database : String) (node : Nat) (host : String) (e : Env) :
    (drainContract F strict).Verified a (moveNode F database node host e) n ∅ fun _ => True := by
  refine verified_read _ fun s => ?_
  split
  · trivial
  refine verified_read _ fun s => verified_read _ fun s => ?_
  split
  · trivial
  refine verified_read _ fun s => ?_
  dsimp only
  split
  · next target _ _ =>
    refine verified_onHosts ?_ _ (places_handle ⟨e, .replace database node target.host.id⟩)
      (fun h : false = true => by cases h) (stable_true _ _)
    -- the node and the operation, and then the host's row
    intro _ _ H K hwrite hhold hK _ _ hs₀
    refine ⟨K, hK, hs₀, fun s _ hs _ => ⟨K, hK.mono (Set.subset_insert _ _), hs, ?_⟩⟩
    intro s hinv hs _
    have hadmin := verified_commitAdmin (n := n) (a := a) hwrite hhold s hinv hs trivial
    have herror := verified_setError (n := n) (a := a) (K := fun _ => True) none
      (Set.mem_insert (.host host) H) _ hadmin.1 trivial trivial
    refine ⟨herror.1, HostStep.trans (hadmin.2.mono (Set.subset_insert _ _)) herror.2 rfl ?_⟩
    intro _
    simp only [HostTables.draining, HostTables.setError, HostTables.updateHost, any_map]
    refine congrArg (List.any s.hosts) (funext fun h => ?_)
    dsimp only [Function.comp]
    split <;> rfl
  · trivial

theorem verified_hosts (a : HostRequest) :
    (drainContract F strict).Verified a (a.program F) none ∅ fun _ => True := by
  cases a with
  | admin r =>
    exact verified_onHosts (fun hwrite hhold _ => verified_commitAdmin hwrite hhold) _
      (places_program r) (fun h : false = true => by cases h) (stable_true _ _)
  | drain id => exact verified_drain id
  | undrain id => exact verified_undrain id
  | moveNode database node host e => exact verified_moveNode database node host e
  | markDrained id now => exact verified_markDrained id now
  | blocked id reason => exact verified_blocked id reason

end Sessions

/-! ## Whole runs -/

theorem drained_empty (F : Fleet) (strict : Prop) :
    (drainContract F strict).Inv (HostTables.empty F) := by
  refine ⟨?_, fun _ h hh hat => ?_⟩
  · show (F.hosts.map _).map _ = _
    rw [map_map]
    rfl
  · obtain ⟨_, -, rfl⟩ := mem_map.mp hh
    exact (hat rfl).elim

/-- Runs in which no host is undrained while the statement that is to mark it as
drained, having taken its snapshot, waits for the host's row. -/
def MarksFresh (st : HostStore) : TxnLabel HostKey HostRequest → Prop
  | .advance i _ => ∀ t k next s₀ id now, st.sessions i = some t → t.todo = .lock k next →
      t.snapshot = some s₀ → t.request = .markDrained id now →
      st.tables.undrains.count id = s₀.undrains.count id
  | _ => True

theorem MarksFresh.permits {strict : Prop} {st : HostStore}
    {l : TxnLabel HostKey HostRequest} (h : strict → MarksFresh st l) :
    (drainContract F strict).Permits st l := by
  cases l with
  | start | crash => trivial
  | advance =>
    refine permits_iff.mpr fun t ht => ⟨fun _ _ => trivial, ?_⟩
    exact fun k next s₀ htodo hsnap hstrict id now => h hstrict t k next s₀ id now ht htodo hsnap

/-- Draining is final until a host is undrained. In every interleaving no node is
inserted on a host that drains when the insertion commits; and a host that is marked
as drained drains and has no nodes, in every run in which it was not undrained
while the statement that marks it waited. -/
theorem draining_final (F : Fleet) :
    (∀ st st' l, (hostMachine F).Reachable st → (hostMachine F).step st l = some st' →
      ∀ n ∈ st'.tables.nodes, (∃ m ∈ st.tables.nodes, m.same n)
        ∨ (st.tables.draining n.host = false ∧ st'.tables.draining n.host = false))
    ∧ ∀ st, (hostMachine F).Reaches MarksFresh st → ∀ h ∈ st.tables.hosts, h.drainedAt ≠ none →
      h.draining = true ∧ ∀ n ∈ st.tables.nodes, n.host ≠ h.id := by
  constructor
  · intro st _ l hr hs
    have hpermits : ∀ st l, (drainContract F False).Permits st l := fun st l =>
      MarksFresh.permits fun h => h.elim
    have hgood : (drainContract F False).Good st :=
      sound (drained_empty F False) verified_hosts (hr.mono fun st l _ => hpermits st l)
    rcases (hgood.step verified_hosts (hpermits st l) hs).2 with heq | ⟨i, t, -, hstep⟩
    · rw [heq]
      exact fun n hn => .inl ⟨n, hn, rfl, rfl, rfl⟩
    · exact hstep.inserted
  · intro st hr
    have hgood : (drainContract F True).Good st :=
      sound (drained_empty F True) verified_hosts
        (hr.mono fun _ _ h => MarksFresh.permits fun _ => h)
    exact hgood.inv.2 trivial

/-- Requests one after the other wait for nobody. -/
theorem marksFresh_of_serial {l : List (HostRequest × Option HostKey)} {s : HostTables}
    (h : serial (HostRequest.program F) (fun _ _ => true) l (.empty F) = some s) :
    (hostMachine F).Reaches MarksFresh (Store.idle s) := by
  have hr := reaches_of_serial (C := drainContract F True)
    (fun _ _ _ _ _ _ _ => rfl) (fun _ _ _ => trivial) .init h
  refine hr.mono fun st l hl => ?_
  cases l with
  | start | crash => trivial
  | advance =>
    intro t k next s₀ id now ht htodo hsnap
    exact (permits_iff.mp hl t ht).2 k next s₀ htodo hsnap trivial id now

/-- Requests to `adminEngine`, next to drains. -/
def among (l : List (Request Env Call × Option Key)) : List (HostRequest × Option HostKey) :=
  l.map fun (r, k) => (.admin r, k.map .admin)

/-- The node of `s` on `h1` is moved to `h4`, and `h1` is drained. -/
theorem draining_final_moved : ∃ st, (hostMachine fourHosts).Reaches MarksFresh st
      ∧ ∃ h ∈ st.tables.hosts, h.drainedAt = some 7 ∧ h.draining = true
        ∧ ∀ n ∈ st.tables.nodes, n.host ≠ h.id := by
  have hrun : (serial (HostRequest.program fourHosts) (fun _ _ => true)
      (among bringUp ++ [(.drain "h1", none),
          (.moveNode "s" 1 "h1" { calm "" with draining := ["h1"] }, none)]
        ++ among (runSteps (calm "") 1 7) ++ [(.markDrained "h1" 7, none)])
      (.empty fourHosts)).any fun s => s.hosts.any fun h => h.drainedAt = some 7 := by
    decide +kernel
  obtain ⟨s, hs, hfound⟩ := (Option.any_eq_true _ _).mp hrun
  obtain ⟨h, hh, hat⟩ := any_eq_true.mp hfound
  have hat := of_decide_eq_true hat
  have hr := marksFresh_of_serial hs
  exact ⟨_, hr, h, hh, hat, (draining_final fourHosts).2 _ hr h hh (hat ▸ Option.some_ne_none _)⟩

/-- The statement that is to mark `h1` takes its snapshot. Before it has the row, the
host is undrained, gets a node of `s`, and is drained again. -/
def undrainedBetween : List (TxnLabel HostKey HostRequest) :=
  let whole (n : Nat) (a : HostRequest) (pick : Option HostKey) :
      List (TxnLabel HostKey HostRequest) := .start 0 a :: List.replicate n (.advance 0 pick)
  List.flatten [whole 4 (.drain "h1") none, [.start 1 (.markDrained "h1" 7), .advance 1 none],
    whole 3 (.undrain "h1") none,
    whole 6 (.admin (.api ⟨calm "s", .create "s" true ⟨1, 1, 1⟩ []⟩)) none,
    whole 17 (.admin (.reconcile false (calm "s"))) (some (.admin (.step 0 0))),
    whole 4 (.drain "h1") none, [.advance 1 none, .advance 1 none]]

theorem marked_with_nodes : ∃ st, (hostMachine fourHosts).run undrainedBetween = some st
      ∧ (hostMachine fourHosts).Reachable st
      ∧ ∃ h ∈ st.tables.hosts, h.drainedAt ≠ none ∧ ∃ n ∈ st.tables.nodes, n.host = h.id := by
  refine Machine.exists_of_run (p := fun st => st.tables.hosts.any fun h => h.drainedAt ≠ none
      && st.tables.nodes.any (·.host = h.id)) (by decide +kernel) fun st hst => ?_
  obtain ⟨h, hh, hmarked⟩ := any_eq_true.mp hst
  rw [Bool.and_eq_true, decide_eq_true_eq] at hmarked
  obtain ⟨n, hn, hhost⟩ := any_eq_true.mp hmarked.2
  exact ⟨h, hh, hmarked.1, n, hn, of_decide_eq_true hhost⟩

end PgCluster.Admin
