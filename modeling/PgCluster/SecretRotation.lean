import PgCluster.AdminOperations
import PgCluster.AdminSecrets

/-!
# Rotating a database's secrets

The operations `rotate_ca` and `rotate_passwords` of one database, step by
step (`reconciler.rs`), with its nodes' hosts and its Postgres. A database
runs one operation at a time and a step is one transaction, so the operations
queue up and the first of them takes its next step; it may fail at any.

A host polls for its desired state, one poll at a time. The state is read in
two parts: what a node gets from one snapshot, and after it the tasks that are
pending then. Its host may lose the answer, fail to save it, apply it when it
likes and report when it likes; reports may be lost or late. While a state
with a task is there, its host may run the task, again and again, and a run
goes on with the passwords it has begun with.

A certificate is its issuer here, named by the issuer's certificate, as are
the members of a bundle.
-/

namespace PgCluster.Secrets

open Admin (DatabaseSecrets NextPasswords RandomMaterial Kind StepName)

/-! ## Nodes -/

/-- What a desired state has for a node, as far as its secrets go. -/
structure Sent where
  generation : Nat
  cert : String
  bundle : List String
  next : Option NextPasswords
  /-- Its alter_passwords tasks. -/
  tasks : List Nat
deriving DecidableEq

structure Node where
  name : String
  retracted : Bool
  /-- Of the certificate in its row. -/
  cert : String
  observed : Nat
  /-- Its state is `running`. -/
  running : Bool
  /-- It has an `offline_since`, and its host was not seen lately. -/
  away : Bool
  /-- The answer to its host's poll, before the tasks are read. -/
  building : Option Sent
  answer : Option Sent
  desired : Option Sent
  saved : Option Sent
  applied : Option Sent
  /-- Reports on their way: the generation, and whether it runs. -/
  reports : List (Nat × Bool)
deriving DecidableEq

def Node.new (cert name : String) : Node where
  name := name
  retracted := false
  cert := cert
  observed := 0
  running := false
  away := false
  building := none
  answer := none
  desired := none
  saved := none
  applied := none
  reports := []

inductive NodeAct where
  | build | readTasks | pollFailed
  | receive (saved : Bool)
  | apply
  | report (running : Bool)
  | reported (generation : Nat) (running : Bool)
  | restart
  | seen (away : Bool)
  | retract
deriving DecidableEq

namespace Node

def appliedGeneration (n : Node) : Nat := (n.applied.map (·.generation)).getD 0

/-- One thing that a node's host does, or that is done to its row. -/
def act (n : Node) (sent : Sent) (pending : List Nat) : NodeAct → Option Node
  | .build =>
    if n.retracted = false ∧ n.building = none ∧ n.answer = none then
      some { n with building := some sent }
    else none
  | .readTasks =>
    n.building.map fun s =>
      { n with building := none, answer := some { s with tasks := pending } }
  | .pollFailed => some { n with building := none, answer := none }
  | .receive ok =>
    n.answer.map fun s =>
      { n with answer := none, desired := some s, saved := if ok then some s else n.saved }
  | .apply => n.desired.map fun s => { n with applied := some s }
  | .report running =>
    some { n with reports := (n.appliedGeneration, running) :: n.reports }
  | .reported generation running =>
    if (generation, running) ∈ n.reports then
      some { n with
        observed := generation
        running := running
        reports := n.reports.erase (generation, running) }
    else none
  | .restart => some { n with building := none, answer := none, desired := n.saved }
  | .seen away => some { n with away := away }
  | .retract => some { n with retracted := true }

end Node

/-! ## Operations and tasks -/

inductive TaskStatus where
  | pending | succeeded | failed
deriving DecidableEq

structure Operation where
  kind : Kind
  /-- Of its first pending step. -/
  seq : Nat
  target : Nat
  /-- Its alter_passwords task, once it has one. -/
  task : Option Nat
deriving DecidableEq

def Operation.step? (op : Operation) : Option StepName := op.kind.steps[op.seq]?

/-- The passwords of the managed roles. -/
structure Roles where
  superuser : String
  replication : String
  auth : String
deriving DecidableEq

def current (s : DatabaseSecrets) : Roles :=
  ⟨s.superuserPassword, s.replicationPassword, s.authPassword⟩

def rolesOf (n : NextPasswords) : Roles :=
  ⟨n.superuserPassword, n.replicationPassword, n.authPassword⟩

/-- A run of the task, and how many roles it has moved. -/
structure Alter where
  task : Nat
  next : NextPasswords
  moved : Nat
deriving DecidableEq

/-- `alter_passwords`, one role after the other. -/
def Alter.move (a : Alter) (stored : Roles) : Option Roles :=
  match a.moved with
  | 0 => some { stored with replication := a.next.replicationPassword }
  | 1 => some { stored with auth := a.next.authPassword }
  | 2 => some { stored with superuser := a.next.superuserPassword }
  | _ => none

/-! ## The database -/

structure State where
  secrets : DatabaseSecrets
  generation : Nat
  ha : Bool
  /-- Those that have not ended, the oldest first. -/
  operations : List Operation
  /-- By number. -/
  tasks : List TaskStatus
  nodes : List Node
  /-- What Postgres has. -/
  stored : Roles
  alters : List Alter

inductive Label where
  | start (kind : Kind)
  | step (random : RandomMaterial)
  | fail
  | node (name : String) (act : NodeAct)
  | runTask (name : String) (task : Nat)
  | alter (a : Alter)
  /-- A run ends early, and maybe its result gets through. -/
  | alterFailed (a : Alter) (reported : Bool)
  | alterDone (a : Alter) (reported : Bool)
deriving DecidableEq

namespace State

def sent (st : State) (n : Node) : Sent where
  generation := st.generation
  cert := n.cert
  bundle := st.secrets.caBundle
  next := st.secrets.next
  tasks := []

def pendingTasks (st : State) : List Nat :=
  (List.range st.tasks.length).filter fun t => st.tasks[t]? = some .pending

/-- `UPDATE tasks … WHERE status = 'pending'`: the first answer stands. -/
def setTask (st : State) (t : Nat) (status : TaskStatus) : State :=
  if st.tasks[t]? = some .pending then { st with tasks := st.tasks.set t status } else st

def finishStep (st : State) (op : Operation) (queue : List Operation) : State :=
  { st with
    operations :=
      if op.seq + 1 < op.kind.steps.length then { op with seq := op.seq + 1 } :: queue
      else queue }

def newGeneration (st : State) (op : Operation) (queue : List Operation) : State :=
  { st with generation := st.generation + 1 }.finishStep
    { op with target := st.generation + 1 } queue

/-- `fail`. -/
def failStep (st : State) (op : Operation) (queue : List Operation) : State :=
  match op.task with
  | some t => { st.setTask t .failed with operations := queue }
  | none => { st with operations := queue }

/-- `wait_applied`: no node it looks at is behind. -/
def waitApplied (st : State) (target : Nat) : Bool :=
  st.nodes.all fun n => n.retracted || (st.ha && n.away) || (target ≤ n.observed && n.running)

/-- `ca_issue`, in the rows. -/
def reissue (st : State) : List Node :=
  st.nodes.map fun n => if n.retracted then n else { n with cert := st.secrets.caCertPem }

/-- `run_step` and what comes of it. A wait leaves all as it is. -/
def runStep (st : State) (op : Operation) (queue : List Operation) (random : RandomMaterial) :
    Option State :=
  match op.step? with
  | some .caTrustBoth =>
    some ({ st with secrets := st.secrets.caTrustBoth random }.newGeneration op queue)
  | some .caIssue => some ({ st with nodes := st.reissue }.newGeneration op queue)
  | some .caTrustNew =>
    some ({ st with secrets := st.secrets.caTrustNew }.newGeneration op queue)
  | some .passwordsOffer =>
    some ({ st with secrets := st.secrets.passwordsOffer random }.newGeneration op queue)
  | some .passwordsAlter =>
    -- the first attempt records the task, and later ones look how it went
    match op.task with
    | none =>
      some { st with
        tasks := st.tasks ++ [.pending]
        operations := { op with task := some st.tasks.length } :: queue }
    | some t =>
      match st.tasks[t]? with
      | some .succeeded => some (st.finishStep op queue)
      | some .failed => some (st.failStep op queue)
      | _ => none
  | some .passwordsCommit =>
    st.secrets.passwordsCommit.map fun secrets =>
      { st with secrets := secrets }.newGeneration op queue
  | some .waitApplied =>
    if st.waitApplied op.target then some (st.finishStep op queue) else none
  | some .settle => some (st.finishStep op queue)
  | _ => none

def step (st : State) : Label → Option State
  | .start kind =>
    if kind = .rotateCa ∨ kind = .rotatePasswords then
      some { st with operations := st.operations ++ [⟨kind, 0, st.generation, none⟩] }
    else none
  | .step random =>
    match st.operations with
    | op :: queue => st.runStep op queue random
    | [] => none
  | .fail =>
    match st.operations with
    | op :: queue => some (st.failStep op queue)
    | [] => none
  | .node name act =>
    match st.nodes.find? (·.name = name) with
    | some n =>
      (n.act (st.sent n) st.pendingTasks act).map fun n' =>
        { st with nodes := st.nodes.map fun m => if m.name = name then n' else m }
    | none => none
  | .runTask name t =>
    match (st.nodes.find? (·.name = name)).bind (·.desired) with
    | some s =>
      if t ∈ s.tasks then s.next.map fun next => { st with alters := ⟨t, next, 0⟩ :: st.alters }
      else none
    | none => none
  | .alter a =>
    if a ∈ st.alters then
      (a.move st.stored).map fun stored =>
        { st with
          stored := stored
          alters := { a with moved := a.moved + 1 } :: st.alters.erase a }
    else none
  | .alterFailed a reported =>
    if a ∈ st.alters then
      let st := { st with alters := st.alters.erase a }
      some (if reported then st.setTask a.task .failed else st)
    else none
  | .alterDone a reported =>
    if a ∈ st.alters ∧ a.moved = 3 then
      let st := { st with alters := st.alters.erase a }
      some (if reported then st.setTask a.task .succeeded else st)
    else none

end State

/-- A database with these nodes, as it is created. -/
def init (random : RandomMaterial) (ha : Bool) (names : List String) : State where
  secrets := .generate random none
  generation := 1
  ha := ha
  operations := []
  tasks := []
  nodes := names.map (Node.new random.caCertPem)
  stored := rolesOf random.passwords
  alters := []

def secretsMachine (random : RandomMaterial) (ha : Bool) (names : List String) :
    Machine State Label :=
  ⟨init random ha names, State.step⟩

/-! ## What is to hold -/

/-- A node trusts the certificate of each other one, as they were last
applied. -/
def NodesTrustEachOther (st : State) : Prop :=
  ∀ n ∈ st.nodes, n.retracted = false → ∀ m ∈ st.nodes, m.retracted = false →
    ∀ a, n.applied = some a → ∀ b, m.applied = some b → a.cert ∈ b.bundle

/-- Each role has the current password, or the next one. -/
structure PasswordsKnown (secrets : DatabaseSecrets) (stored : Roles) : Prop where
  superuser : stored.superuser = secrets.superuserPassword
    ∨ ∃ next, secrets.next = some next ∧ stored.superuser = next.superuserPassword
  replication : stored.replication = secrets.replicationPassword
    ∨ ∃ next, secrets.next = some next ∧ stored.replication = next.replicationPassword
  auth : stored.auth = secrets.authPassword
    ∨ ∃ next, secrets.next = some next ∧ stored.auth = next.authPassword

/-- What a node has, or is about to get. -/
def Node.held (n : Node) : List Sent :=
  n.building.toList ++ n.answer.toList ++ n.desired.toList ++ n.applied.toList

def State.next? (st : State) : Option (Operation × StepName) :=
  st.operations.head?.bind fun op => op.step?.map fun name => (op, name)

/-- A step of a run in which a rotation of the CA begins with no other left
half done, no wait of one passes over a node that is behind, and an agent
that restarts has the newest state. -/
def keepsTrust (st : State) : Label → Bool
  | .step _ =>
    match st.next? with
    | some (_, .caTrustBoth) => st.secrets.previousCaCertPem = none
    | some (op, .waitApplied) => op.kind ≠ .rotateCa || st.nodes.all fun n =>
      n.retracted || !(st.ha && n.away) || n.held.all (op.target ≤ ·.generation)
    | _ => true
  | .node name .restart => st.nodes.all fun n => n.name ≠ name || n.saved = n.desired
  | _ => true

/-- The passwords that a node's host may yet move the roles to: those of a
state with a task, or of one whose tasks are yet to be read. -/
def Node.offers (n : Node) : List NextPasswords :=
  (n.building.bind (·.next)).toList
    ++ ([n.answer, n.desired, n.saved].filterMap id).flatMap fun s =>
      if s.tasks = [] then [] else s.next.toList

/-- A step of a run in which passwords are offered only when Postgres has the
current ones, and no host can still move it to others. -/
def offersSafely (st : State) : Label → Bool
  | .step _ =>
    match st.next? with
    | some (_, .passwordsOffer) => st.stored = current st.secrets && st.alters = []
        && st.nodes.all (·.offers = [])
    | _ => true
  | _ => true

/-! ## Pieces of runs -/

/-- A host is sent the state as it is now. -/
def polls (name : String) : List Label :=
  [.build, .readTasks, .receive true].map (.node name)

def applies (name : String) (generation : Nat) : List Label :=
  [.apply, .report true, .reported generation true].map (.node name)

/-- Material that a number tells apart. -/
def material (i : Nat) : RandomMaterial where
  caCertPem := s!"ca {i}"
  caKeyPem := s!"ca key {i}"
  passwords := ⟨s!"superuser {i}", s!"replication {i}", s!"auth {i}", s!"api key {i}"⟩
  backupKey := s!"backup key {i}"

end PgCluster.Secrets
