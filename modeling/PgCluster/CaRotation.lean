import PgCluster.Machine

/-!
# Rotating the admin CA

The rotation of pgcluster-admin's own CA (`rotation.rs`), with what it moves
on both sides: the CA and the listeners that each instance keeps in memory and
the `ca_dir` it starts from, and each host's row, trusted CAs and client
certificate (`agent.rs`, `client.rs`).

`start`, `advance`, an enrolment, a poll and a renewal are taken apart at
every point where another task, instance or host can come in between. A
request may be given up at any point: what the server has done by then stays,
and an `UPDATE` that is on its way may still come. A poll may bring the
desired state at any time, since other changes of a host raise its generation
too, and a renewal may be due at any time.

CAs are numbered, in the order made. A bundle is the list of the CAs whose
certificates it has, in the order of its text, and the hash of a text is taken
to be the text.
-/

namespace PgCluster.AdminCa

abbrev Ca := Nat

abbrev Bundle := List Ca

inductive Phase where
  | trust | issue | trim
deriving DecidableEq

/-- The row of `admin_ca_rotation`. -/
structure Rotation where
  phase : Phase
  old : Ca
  new : Ca
deriving DecidableEq

def Rotation.bundle (r : Rotation) : Bundle :=
  match r.phase with
  | .trim => [r.new]
  | _ => [r.new, r.old]

/-! ## An instance of pgcluster-admin -/

/-- How far `advance` is. -/
inductive Advancing where
  | idle
  | looked (r : Rotation)
  /-- No host is waited for, as of then. -/
  | checked (r : Rotation)
  /-- The listeners match this phase, which is yet to be written to the row. -/
  | applied (r : Rotation)
deriving DecidableEq

/-- How far a call of `start` is. -/
inductive Start where
  | looked (old : Ca)
  | inserted (old new : Ca)
deriving DecidableEq

structure Instance where
  /-- `state.ca()`, which signs host certificates. -/
  ca : Ca
  /-- What has signed the certificate its listeners present. -/
  presented : Ca
  /-- Whose client certificates the agent listener takes. -/
  trusted : Bundle
  advancing : Advancing
  starts : List Start
deriving DecidableEq

namespace Instance

/-- What `run` comes up with before `resume`. -/
def load (ca : Ca) : Instance := ⟨ca, ca, [ca], .idle, []⟩

/-- `apply`, but for the CA that the last phase stores. -/
def apply (inst : Instance) (r : Rotation) : Instance :=
  let signer := match r.phase with
    | .trust => inst.ca
    | _ => r.new
  { inst with
    ca := signer
    presented := signer
    trusted := match r.phase with
      | .trim => [r.new]
      | _ => [r.old, r.new] }

end Instance

/-! ## A host -/

/-- The credentials on disk. -/
structure Identity where
  trusts : Bundle
  /-- What has signed the client certificate. -/
  cert : Ca
deriving DecidableEq

inductive Enrolling where
  | idle
  /-- The CA is fetched, and matches the token. -/
  | fetched (ca : Ca)
  | connected (ca : Ca) (instance_ : Nat)
  /-- The certificate is signed. The transaction is still open. -/
  | signed (ca cert : Ca)
  /-- The response is on its way. -/
  | committed (ca cert : Ca)
deriving DecidableEq

def Enrolling.cert : Enrolling → Option Ca
  | .signed _ cert | .committed _ cert => some cert
  | _ => none

/-- A request for a certificate that is signed, and maybe recorded. -/
structure Renewal where
  cert : Ca
  recorded : Bool
deriving DecidableEq

structure Host where
  name : String
  enrolled : Bool
  certificateCa : Option Ca
  caFingerprint : Option Bundle
  /-- The CA in its unused token. -/
  token : Option Ca
  identity : Option Identity
  enrolling : Enrolling
  /-- The answer to its poll: the bundle, if a rotation runs. -/
  answer : Option (Option Bundle)
  /-- What `publish` is about to trust. -/
  publishing : Option Bundle
  /-- The bundle of the last state received. -/
  newest : Option Bundle
  /-- The bundle of the state on disk. -/
  saved : Option Bundle
  renewal : Option Renewal
  /-- Reports on their way. -/
  reports : List Bundle
  /-- Signed by requests it has given up, and not yet recorded. -/
  late : List Ca
deriving DecidableEq

def Host.register (name : String) : Host where
  name := name
  enrolled := false
  certificateCa := none
  caFingerprint := none
  token := none
  identity := none
  enrolling := .idle
  answer := none
  publishing := none
  newest := none
  saved := none
  renewal := none
  reports := []
  late := []

inductive HostAct where
  | newToken (ca : Ca)
  | fetchCa | connect | sign | commit | enrolled | enrollFailed
  | desiredState | pollFailed
  | received (saved : Bool)
  | publish (ok : Bool)
  | renew | record
  | renewed (ok : Bool)
  | renewFailed
  | recordLate (ca : Ca)
  | report
  | reported (bundle : Bundle)
  | restart | reinstall
deriving DecidableEq

namespace Host

/-- A renewal that is signed and not yet recorded. -/
def unrecorded (h : Host) : List Ca :=
  match h.renewal with
  | some ⟨cert, false⟩ => [cert]
  | _ => []

/-- A host that gives up its renewal leaves the server to go on. -/
def dropRenewal (h : Host) : Host :=
  { h with renewal := none, late := h.unrecorded ++ h.late }

def act (h : Host) (row : Option Rotation) (i : Nat) (inst : Option Instance) :
    HostAct → Option Host
  | .newToken ca => some { h with token := some ca }
  | .fetchCa =>
    match h.identity, h.enrolling, inst with
    | none, .idle, some inst =>
      if h.token = some inst.ca then some { h with enrolling := .fetched inst.ca } else none
    | _, _, _ => none
  | .connect =>
    match h.enrolling, inst with
    | .fetched ca, some inst =>
      if inst.presented = ca then some { h with enrolling := .connected ca i } else none
    | _, _ => none
  | .sign =>
    match h.enrolling, inst with
    | .connected ca j, some inst =>
      if j = i ∧ h.token.isSome then some { h with enrolling := .signed ca inst.ca } else none
    | _, _ => none
  | .commit =>
    match h.enrolling with
    | .signed ca cert =>
      some { h with
        token := none
        enrolled := true
        certificateCa := some cert
        enrolling := .committed ca cert }
    | _ => none
  | .enrolled =>
    match h.enrolling with
    | .committed ca cert => some { h with identity := some ⟨[ca], cert⟩, enrolling := .idle }
    | _ => none
  | .enrollFailed => some { h with enrolling := .idle }
  | .desiredState =>
    -- the loop of the agent does one thing at a time
    match h.identity, h.answer, h.publishing, h.renewal, inst with
    | some _, none, none, none, some _ =>
      some { h with answer := some (row.map Rotation.bundle) }
    | _, _, _, _, _ => none
  | .pollFailed => some { h with answer := none }
  | .received ok =>
    match h.answer with
    | some bundle =>
      some { h with
        answer := none
        publishing := bundle
        newest := bundle
        saved := if ok then bundle else h.saved }
    | none => none
  | .publish ok =>
    match h.publishing, h.identity with
    | some bundle, some id =>
      some { h with
        publishing := none
        identity := some { id with trusts := if ok then bundle else id.trusts } }
    | _, _ => none
  | .renew =>
    match h.identity, h.answer, h.publishing, h.renewal, inst with
    | some _, none, none, none, some inst => some { h with renewal := some ⟨inst.ca, false⟩ }
    | _, _, _, _, _ => none
  | .record =>
    match h.renewal with
    | some ⟨cert, false⟩ =>
      some { h with certificateCa := some cert, renewal := some ⟨cert, true⟩ }
    | _ => none
  | .renewed ok =>
    match h.renewal, h.identity with
    | some ⟨cert, true⟩, some id =>
      some { h with
        renewal := none
        identity := some { id with cert := if ok then cert else id.cert } }
    | _, _ => none
  | .renewFailed => some h.dropRenewal
  | .recordLate cert =>
    if cert ∈ h.late then
      some { h with certificateCa := some cert, late := h.late.erase cert }
    else none
  | .report =>
    h.identity.map fun id => { h with reports := id.trusts :: h.reports }
  | .reported bundle =>
    if bundle ∈ h.reports then
      some { h with caFingerprint := some bundle, reports := h.reports.erase bundle }
    else none
  | .restart =>
    h.identity.map fun _ =>
      { h.dropRenewal with answer := none, publishing := h.saved }
  | .reinstall =>
    some { h.dropRenewal with
      identity := none, enrolling := .idle, answer := none, publishing := none
      newest := none, saved := none }

end Host

/-! ## All of it -/

structure State where
  row : Option Rotation
  /-- The next CA to be made. -/
  fresh : Ca
  /-- The CA in each instance's `ca_dir`. -/
  dirs : Nat → Ca
  instances : Nat → Option Instance
  hosts : List Host

inductive Label where
  | register (name : String)
  | delete (name : String)
  | boot (i : Nat)
  | crash (i : Nat)
  | startLook (i : Nat)
  | startInsert (i : Nat) (old : Ca)
  | startApply (i : Nat) (old new : Ca)
  | startFailed (i : Nat) (s : Start)
  | look (i : Nat)
  | check (i : Nat)
  | applyNext (i : Nat) (stored : Bool)
  | writePhase (i : Nat)
  | endRotation (i : Nat)
  | advanceFailed (i : Nat)
  | host (name : String) (i : Nat) (act : HostAct)
deriving DecidableEq

/-- `waiting_for`: whom a phase waits for. -/
def waitingFor (hosts : List Host) (r : Rotation) : List String :=
  (hosts.filter fun h => h.enrolled && match r.phase with
    | .issue => decide (h.certificateCa ≠ some r.new)
    | _ => decide (h.caFingerprint ≠ some r.bundle)).map (·.name)

namespace State

/-- Every instance starts out with the same CA. -/
def init : State := ⟨none, 1, fun _ => 0, fun _ => none, []⟩

def setInstance (st : State) (i : Nat) (inst : Instance) : State :=
  { st with instances := Function.update st.instances i (some inst) }

def store (st : State) (i : Nat) (ca : Ca) : State :=
  { st with dirs := Function.update st.dirs i ca }

/-- `run`, with `resume`. -/
def boot (st : State) (i : Nat) : State :=
  match st.row with
  | none => st.setInstance i (.load (st.dirs i))
  | some r =>
    let st' := st.setInstance i ((Instance.load (st.dirs i)).apply r)
    if r.phase = .trim then st'.store i r.new else st'

/-- `advance` has checked, and makes the listeners match the next phase. A CA
that cannot be stored ends it there. -/
def applyNext (st : State) (i : Nat) (inst : Instance) (r : Rotation) (stored : Bool) :
    Option State :=
  match r.phase with
  | .trust =>
    let r := { r with phase := .issue }
    some (st.setInstance i { inst.apply r with advancing := .applied r })
  | .issue =>
    let r := { r with phase := .trim }
    some (if stored then
        (st.setInstance i { inst.apply r with advancing := .applied r }).store i r.new
      else st.setInstance i { inst.apply r with advancing := .idle })
  | .trim => none

def instanceStep (st : State) (i : Nat) (inst : Instance) : Label → Option State
  | .crash _ => some { st with instances := Function.update st.instances i none }
  | .startLook _ =>
    if st.row = none then
      some (st.setInstance i { inst with starts := .looked inst.ca :: inst.starts })
    else none
  | .startInsert _ old =>
    if .looked old ∈ inst.starts then
      let starts := inst.starts.erase (.looked old)
      match st.row with
      | none =>
        some { st.setInstance i { inst with starts := .inserted old st.fresh :: starts } with
          row := some ⟨.trust, old, st.fresh⟩
          fresh := st.fresh + 1 }
      | some _ => some (st.setInstance i { inst with starts := starts })
    else none
  | .startApply _ old new =>
    if .inserted old new ∈ inst.starts then
      some (st.setInstance i
        { inst.apply ⟨.trust, old, new⟩ with starts := inst.starts.erase (.inserted old new) })
    else none
  | .startFailed _ s => some (st.setInstance i { inst with starts := inst.starts.erase s })
  | .look _ =>
    match st.row, inst.advancing with
    | some r, .idle => some (st.setInstance i { inst with advancing := .looked r })
    | _, _ => none
  | .check _ =>
    match inst.advancing with
    | .looked r =>
      some (st.setInstance i { inst with
        advancing := if waitingFor st.hosts r = [] then .checked r else .idle })
    | _ => none
  | .applyNext _ stored =>
    match inst.advancing with
    | .checked r => st.applyNext i inst r stored
    | _ => none
  | .writePhase _ =>
    match inst.advancing with
    | .applied r =>
      some { st.setInstance i { inst with advancing := .idle } with
        row := st.row.map fun r' => { r' with phase := r.phase } }
    | _ => none
  | .endRotation _ =>
    match inst.advancing with
    | .checked r =>
      if r.phase = .trim then
        some { st.setInstance i { inst with advancing := .idle } with row := none }
      else none
    | _ => none
  | .advanceFailed _ => some (st.setInstance i { inst with advancing := .idle })
  | _ => none

def step (st : State) (l : Label) : Option State :=
  match l with
  | .register name =>
    if st.hosts.any (·.name = name) then none
    else some { st with hosts := .register name :: st.hosts }
  | .delete name => some { st with hosts := st.hosts.filter (·.name ≠ name) }
  | .boot i => if st.instances i = none then some (st.boot i) else none
  | .host name i act =>
    match st.hosts.find? (·.name = name) with
    | some h =>
      (h.act st.row i (st.instances i) act).map fun h' =>
        { st with hosts := st.hosts.map fun x => if x.name = name then h' else x }
    | none => none
  | .crash i | .startLook i | .startInsert i _ | .startApply i _ _ | .startFailed i _ | .look i
  | .check i | .applyNext i _ | .writePhase i | .endRotation i | .advanceFailed i =>
    (st.instances i).bind fun inst => st.instanceStep i inst l

end State

def rotationMachine : Machine State Label := ⟨.init, State.step⟩

/-- An enrolled host trusts what every instance presents, and every instance
trusts the certificate that the host holds. -/
def NoneLockedOut (st : State) : Prop :=
  ∀ i inst, st.instances i = some inst → ∀ h ∈ st.hosts, h.enrolled = true →
    ∀ id, h.identity = some id → inst.presented ∈ id.trusts ∧ id.cert ∈ inst.trusted

/-- What has signed the certificates a host has, or is about to get. -/
def Host.certs (h : Host) : List Ca :=
  (h.identity.map (·.cert)).toList ++ (h.renewal.map (·.cert)).toList ++ h.enrolling.cert.toList

/-- What the next phase counts on is so: the host is not about to enrol, and
its row is right. -/
def settled (r : Rotation) (h : Host) : Bool :=
  h.enrolling = .idle && match r.phase with
    | .issue => h.certs.all fun cert => h.certificateCa = some cert
    | _ => h.identity.all fun id => h.caFingerprint = some id.trusts

/-- A step of a run with one instance, in which what a phase has checked is so
and stays so until the next one is written, and a restarted agent has the
newest state. -/
def orderly (st : State) : Label → Bool
  | .boot i => i = 0
  | .startInsert i old => (st.instances i).all (·.ca = old)
  | .startApply _ old new => st.row.any fun r => r.old = old && r.new = new
  | .applyNext i _ => (st.instances i).all fun inst => match inst.advancing with
      | .checked r => st.hosts.all (settled r) && decide (waitingFor st.hosts r = [])
      | _ => true
  | .host _ i .fetchCa => st.row.all fun r =>
    r.phase ≠ .trust || (st.instances i).all (·.ca = r.old)
  | .host name _ .restart => st.hosts.all fun h => h.name ≠ name || h.saved = h.newest
  | _ => true

end PgCluster.AdminCa
