import PgCluster.ListUpdates
import PgCluster.Machine

/-!
# Tasks that hosts run on a cluster

`vk-agent/src/host/tasks.rs` and the loop around it: a switchover or a rolling
restart that the admin server asks of a database. The task is in the desired
state of every host with a node of the database. A host picks it up at a tick
of its task loop unless it is running it already, asks its local instance
whether it is the Raft leader, and goes on if so. It ends a run by reporting
the result, and the first report ends the task. A host that has not polled
since goes on seeing it.

What the local API answers, who the leader is, and whether a request is taken
(by the flag and the topology of that instance) is up to the label, and so
are answers that get lost. Requests that were taken run on in the cluster.

`started` counts the requests that were taken before the task ended, and
`completed` those that came through before that.
-/

namespace PgCluster

open List Option

/-! ## One run of a task -/

inductive TaskKind where
  | switchover (target : Option String)
  | rollingRestart
deriving DecidableEq

inductive ClusterRequest where
  | switchover (target : String)
  | rollingRestart
deriving DecidableEq

structure ListedNode where
  nodeId : String
  isReplica : Bool
  lagBytes : Nat
deriving DecidableEq

/-- `min_by_key(lag_bytes)`: of several, the first. -/
def leastLag : List ListedNode → Option ListedNode
  | [] => none
  | n :: rest =>
    match leastLag rest with
    | none => some n
    | some m => if n.lagBytes ≤ m.lagBytes then some n else some m

/-- The standby closest to the primary. -/
def bestStandby (nodes : List ListedNode) : Option String :=
  (leastLag (nodes.filter (·.isReplica))).map (·.nodeId)

/-- Where a run is: asking whether it is its task, reading the primary, choosing
a standby, about to send its request, waiting for what was asked, or about to
report. -/
inductive TaskPhase where
  | asking
  | reading
  | choosing
  | posting (req : ClusterRequest)
  | awaiting (req : ClusterRequest)
  | reporting (success : Bool)
deriving DecidableEq

inductive TaskAnswer where
  | health (leader : Bool)
  | primary (nodeId : Option String)
  | nodes (nodes : List ListedNode)
  | restart (running ok : Bool)
  | failed
  | deadline
deriving DecidableEq

namespace TaskKind

/-- Where `tasks::run` begins. -/
def start : TaskKind → TaskPhase
  | .switchover _ => .reading
  | .rollingRestart => .posting .rollingRestart

def target : TaskKind → Option String
  | .switchover target => target
  | .rollingRestart => none

/-- After the primary was read. A repeat of a task that already got this far
ends here. -/
def afterPrimary (kind : TaskKind) (primary : Option String) : TaskPhase :=
  if kind.target.isSome && primary = kind.target then .reporting true
  else
    match kind.target with
    | some target => .posting (.switchover target)
    | none => .choosing

def asks (kind : TaskKind) (req : ClusterRequest) : Bool :=
  match kind, req with
  | .switchover (some target), .switchover node => node = target
  | .switchover none, .switchover _ => true
  | .rollingRestart, .rollingRestart => true
  | _, _ => false

end TaskKind

/-- What a run does with an answer. A run that ends without a report has none. -/
def TaskPhase.next (kind : TaskKind) : TaskPhase → TaskAnswer → Option (Option TaskPhase)
  | .asking, .health leader => some (if leader then some kind.start else none)
  | .asking, .failed => some none
  | .reading, .primary nodeId => some (some (kind.afterPrimary nodeId))
  | .reading, .failed => some (some (.reporting false))
  | .choosing, .nodes nodes =>
    some (some (match bestStandby nodes with
      | some target => .posting (.switchover target)
      | none => .reporting false))
  | .choosing, .failed => some (some (.reporting false))
  | .awaiting (.switchover target), .primary nodeId =>
    some (some (if nodeId = some target then .reporting true
      else .awaiting (.switchover target)))
  | .awaiting (.switchover target), .failed => some (some (.awaiting (.switchover target)))
  | .awaiting .rollingRestart, .restart running ok =>
    some (some (if running then .awaiting .rollingRestart else .reporting ok))
  | .awaiting .rollingRestart, .failed => some (some (.reporting false))
  | .awaiting _, .deadline => some (some (.reporting false))
  | _, _ => none

/-! ## All hosts -/

structure TaskHost where
  sees : Bool
  run : Option TaskPhase
deriving DecidableEq

def TaskHost.running (host : TaskHost) : Bool := host.run.isSome

structure TaskState where
  pending : Bool
  hosts : List TaskHost
  primary : String
  underWay : List ClusterRequest
  started : Nat
  completed : Nat
deriving DecidableEq

inductive TaskLabel where
  | poll (h : Nat)
  | tick (h : Nat)
  | answer (h : Nat) (a : TaskAnswer)
  | post (h : Nat) (taken answered : Bool)
  | report (h : Nat) (recorded : Bool)
  | crash (h : Nat)
  | requestEnds (i : Nat) (ok : Bool)
  | primaryMoves (nodeId : String)
  | operationEnds
deriving DecidableEq

variable {kind : TaskKind} {s s' : TaskState} {l : TaskLabel} {n : Nat} {primary : String}
  {phase : TaskPhase}

namespace TaskState

def setRun (s : TaskState) (h : Nat) (host : TaskHost) (run : Option TaskPhase) : TaskState :=
  { s with hosts := s.hosts.set h { host with run := run } }

def take (s : TaskState) (req : ClusterRequest) : TaskState :=
  { s with
    underWay := s.underWay ++ [req]
    started := if s.pending then s.started + 1 else s.started }

def post (s : TaskState) (h : Nat) (host : TaskHost) (req : ClusterRequest)
    (taken answered : Bool) : TaskState :=
  let s := if taken then s.take req else s
  s.setRun h host (some (if taken && answered then .awaiting req else .reporting false))

def complete (s : TaskState) (i : Nat) (req : ClusterRequest) (ok : Bool) : TaskState :=
  { s with
    underWay := s.underWay.eraseIdx i
    completed := if ok && s.pending then s.completed + 1 else s.completed
    primary := match req with
      | .switchover target => if ok then target else s.primary
      | .rollingRestart => s.primary }

def step (kind : TaskKind) (s : TaskState) : TaskLabel → Option TaskState
  | .poll h =>
    s.hosts[h]?.map fun host => { s with hosts := s.hosts.set h { host with sees := s.pending } }
  | .tick h =>
    s.hosts[h]?.bind fun host =>
      if host.sees && host.run.isNone then some (s.setRun h host (some .asking)) else none
  | .answer h a =>
    s.hosts[h]?.bind fun host => host.run.bind fun phase =>
      (phase.next kind a).map fun run => s.setRun h host run
  | .post h taken answered =>
    s.hosts[h]?.bind fun host =>
      match host.run with
      | some (.posting req) => some (s.post h host req taken answered)
      | _ => none
  | .report h recorded =>
    s.hosts[h]?.bind fun host =>
      match host.run with
      | some (.reporting _) =>
        some { s.setRun h host none with pending := s.pending && !recorded }
      | _ => none
  | .crash h => s.hosts[h]?.map fun host => s.setRun h host none
  | .requestEnds i ok => s.underWay[i]?.map fun req => s.complete i req ok
  | .primaryMoves nodeId => some { s with primary := nodeId }
  | .operationEnds => some { s with pending := false }

def machine (kind : TaskKind) (hosts : Nat) (primary : String) : Machine TaskState TaskLabel where
  init := ⟨true, List.replicate hosts ⟨false, none⟩, primary, [], 0, 0⟩
  step := step kind

inductive Moves (kind : TaskKind) (s : TaskState) : TaskLabel → TaskState → Prop where
  | poll (h : Nat) (host : TaskHost) (hh : s.hosts[h]? = some host) :
      Moves kind s (.poll h) { s with hosts := s.hosts.set h { host with sees := s.pending } }
  | tick (h : Nat) (host : TaskHost) (hh : s.hosts[h]? = some host) (hrun : host.run = none) :
      Moves kind s (.tick h) (s.setRun h host (some .asking))
  | answer (h : Nat) (a : TaskAnswer) (host : TaskHost) (phase : TaskPhase)
      (run : Option TaskPhase) (hh : s.hosts[h]? = some host) (hrun : host.run = some phase)
      (hnext : phase.next kind a = some run) :
      Moves kind s (.answer h a) (s.setRun h host run)
  | post (h : Nat) (taken answered : Bool) (host : TaskHost) (req : ClusterRequest)
      (hh : s.hosts[h]? = some host) (hrun : host.run = some (.posting req)) :
      Moves kind s (.post h taken answered) (s.post h host req taken answered)
  | report (h : Nat) (recorded : Bool) (host : TaskHost) (hh : s.hosts[h]? = some host) :
      Moves kind s (.report h recorded)
        { s.setRun h host none with pending := s.pending && !recorded }
  | crash (h : Nat) (host : TaskHost) (hh : s.hosts[h]? = some host) :
      Moves kind s (.crash h) (s.setRun h host none)
  | requestEnds (i : Nat) (ok : Bool) (req : ClusterRequest) (hi : s.underWay[i]? = some req) :
      Moves kind s (.requestEnds i ok) (s.complete i req ok)
  | primaryMoves (nodeId : String) :
      Moves kind s (.primaryMoves nodeId) { s with primary := nodeId }
  | operationEnds : Moves kind s .operationEnds { s with pending := false }

theorem moves_of_step (h : s.step kind l = some s') : Moves kind s l s' := by
  cases l with
  | poll h' =>
    obtain ⟨host, hh, rfl⟩ := map_eq_some_iff.mp h
    exact .poll h' host hh
  | tick h' =>
    obtain ⟨host, hh, h⟩ := bind_eq_some_iff.mp h
    obtain ⟨hfree, rfl⟩ := ite_some_none_eq_some.mp h
    rw [Bool.and_eq_true, isNone_iff_eq_none] at hfree
    exact .tick h' host hh hfree.2
  | answer h' a =>
    obtain ⟨host, hh, h⟩ := bind_eq_some_iff.mp h
    obtain ⟨phase, hrun, h⟩ := bind_eq_some_iff.mp h
    obtain ⟨run, hnext, rfl⟩ := map_eq_some_iff.mp h
    exact .answer h' a host phase run hh hrun hnext
  | post h' taken answered =>
    obtain ⟨host, hh, h⟩ := bind_eq_some_iff.mp h
    split at h
    · rename_i req hrun
      cases h
      exact .post h' taken answered host req hh hrun
    · cases h
  | report h' recorded =>
    obtain ⟨host, hh, h⟩ := bind_eq_some_iff.mp h
    split at h
    · cases h
      exact .report h' recorded host hh
    · cases h
  | crash h' =>
    obtain ⟨host, hh, rfl⟩ := map_eq_some_iff.mp h
    exact .crash h' host hh
  | requestEnds i ok =>
    obtain ⟨req, hi, rfl⟩ := map_eq_some_iff.mp h
    exact .requestEnds i ok req hi
  | primaryMoves nodeId =>
    cases h
    exact .primaryMoves nodeId
  | operationEnds =>
    cases h
    exact .operationEnds

/-! ## When a task acts once -/

def settled (kind : TaskKind) (s : TaskState) : Bool := kind.target = some s.primary

/-- Until the task ends: it is picked up while nobody runs it and no request of it
was taken, or, after that, when it is a switchover to the node that is now the
primary. The API then names the current primary, and the primary stays. -/
def careful (kind : TaskKind) (s : TaskState) : TaskLabel → Bool
  | .tick _ => !s.pending || (if s.started = 0 then s.hosts.all (·.run.isNone) else s.settled kind)
  | .answer _ (.primary nodeId) => !s.pending || s.started = 0 || nodeId = some s.primary
  | .primaryMoves nodeId => !s.pending || s.started = 0 || kind.target.all (· = nodeId)
  | _ => true

end TaskState

namespace TaskPhase

def spent : TaskPhase → Bool
  | .awaiting _ | .reporting _ => true
  | .asking | .reading | .choosing | .posting _ => false

def early : TaskPhase → Bool
  | .asking | .reading => true
  | .choosing | .posting _ | .awaiting _ | .reporting _ => false

/-- What a run is about to do is something its task can ask for. -/
def Fits (kind : TaskKind) : TaskPhase → Prop
  | .posting req | .awaiting req => kind.asks req = true
  | .reading => kind ≠ .rollingRestart
  | .choosing => kind = .switchover none
  | .asking | .reporting _ => True

variable {phase' : TaskPhase} {a : TaskAnswer}

theorem fits_start : kind.start.Fits kind := by
  cases kind with
  | switchover => exact nofun
  | rollingRestart => rfl

theorem fits_afterPrimary {nodeId : Option String} (h : kind ≠ .rollingRestart) :
    (kind.afterPrimary nodeId).Fits kind := by
  cases kind with
  | rollingRestart => exact absurd rfl h
  | switchover target =>
    unfold TaskKind.afterPrimary
    split_ifs
    · trivial
    · cases target with
      | none => rfl
      | some => exact decide_eq_true rfl

theorem fits_next (h : phase.Fits kind) (hnext : phase.next kind a = some (some phase')) :
    phase'.Fits kind := by
  unfold next at hnext
  split at hnext
  · split_ifs at hnext
    · cases hnext
      exact fits_start
    · cases hnext
  · cases hnext
  · cases hnext
    exact fits_afterPrimary h
  · cases hnext
    trivial
  · cases hnext
    have hkind : kind = .switchover none := h
    subst hkind
    split
    · rfl
    · trivial
  · cases hnext
    trivial
  · cases hnext
    split_ifs
    · trivial
    · exact h
  · cases hnext
    exact h
  · cases hnext
    split_ifs
    · exact h
    · trivial
  · cases hnext
    trivial
  · cases hnext
    trivial
  · cases hnext

theorem spent_next (h : phase.spent) (hnext : phase.next kind a = some (some phase')) :
    phase'.spent := by
  cases phase with
  | asking | reading | choosing | posting => cases h
  | reporting => cases a <;> cases hnext
  | awaiting req =>
    cases req with
    | switchover =>
      cases a with
      | primary =>
        cases hnext
        split_ifs <;> rfl
      | failed | deadline =>
        cases hnext
        rfl
      | _ => cases hnext
    | rollingRestart =>
      cases a with
      | restart =>
        cases hnext
        split_ifs <;> rfl
      | failed | deadline =>
        cases hnext
        rfl
      | _ => cases hnext

theorem early_next {node : String} (htarget : kind.target = some node)
    (hread : ∀ nodeId, a = .primary nodeId → nodeId = some node) (h : phase.early)
    (hnext : phase.next kind a = some (some phase')) : phase'.early ∨ phase'.spent := by
  cases phase with
  | choosing | posting | awaiting | reporting => cases h
  | asking =>
    cases a with
    | health leader =>
      cases leader with
      | false => cases hnext
      | true =>
        cases hnext
        cases kind with
        | switchover => exact .inl rfl
        | rollingRestart => cases htarget
    | _ => cases hnext
  | reading =>
    cases a with
    | primary nodeId =>
      cases hnext
      rw [hread nodeId rfl, TaskKind.afterPrimary, htarget]
      simp [spent]
    | failed =>
      cases hnext
      exact .inr rfl
    | _ => cases hnext

end TaskPhase

namespace TaskState

variable {h i : Nat} {host host' : TaskHost} {req : ClusterRequest} {run : Option TaskPhase}
  {ok taken answered : Bool}

/-- A run of the task that sends no request any more, or will find the task done. -/
def Done (kind : TaskKind) (s : TaskState) (phase : TaskPhase) : Prop :=
  phase.spent = true ∨ (phase.early = true ∧ s.settled kind = true)

/-- While the task is pending: at most one request was taken. Before that at most
one host runs the task, after it every run is done with requests. -/
structure Inv (kind : TaskKind) (s : TaskState) : Prop where
  few : s.started ≤ 1
  ledger : s.completed + s.underWay.length ≤ s.started
  alone : s.started = 0 → s.hosts.countP TaskHost.running ≤ 1
  fits : ∀ host ∈ s.hosts, ∀ phase, host.run = some phase → phase.Fits kind
  asked : ∀ req ∈ s.underWay, kind.asks req = true
  after : s.started = 1 → ∀ host ∈ s.hosts, ∀ phase, host.run = some phase → s.Done kind phase

theorem inv_init : Inv kind (machine kind n primary).init where
  few := Nat.zero_le 1
  ledger := Nat.le_refl 0
  alone _ := by
    have hnone : (List.replicate n (⟨false, none⟩ : TaskHost)).countP TaskHost.running = 0 := by
      rw [countP_eq_zero]
      intro host hhost
      rw [eq_of_mem_replicate hhost]
      exact Bool.false_ne_true
    show (List.replicate n (⟨false, none⟩ : TaskHost)).countP TaskHost.running ≤ 1
    omega
  fits host hhost phase hrun := by
    rw [eq_of_mem_replicate hhost] at hrun
    cases hrun
  asked _ hreq := absurd hreq not_mem_nil
  after h0 := absurd h0 nofun

theorem Inv.withPending (hI : s.Inv kind) (pending : Bool) :
    Inv kind { s with pending := pending } :=
  { hI with }

theorem Inv.setRun (hI : s.Inv kind)
    (hcount : s.started = 0 → (s.setRun h host run).hosts.countP TaskHost.running ≤ 1)
    (hfits : ∀ phase, run = some phase → phase.Fits kind)
    (hafter : s.started = 1 → ∀ phase, run = some phase → s.Done kind phase) :
    (s.setRun h host run).Inv kind where
  few := hI.few
  ledger := hI.ledger
  alone := hcount
  fits other hother phase hrun := by
    obtain hmem | rfl := mem_or_eq_of_mem_set hother
    · exact hI.fits other hmem phase hrun
    · exact hfits phase hrun
  asked := hI.asked
  after h1 other hother phase hrun := by
    obtain hmem | rfl := mem_or_eq_of_mem_set hother
    · exact hI.after h1 other hmem phase hrun
    · exact hafter h1 phase hrun

theorem countP_setRun (hh : s.hosts[h]? = some host) (host' : TaskHost) (run : Option TaskPhase) :
    (s.setRun h host' run).hosts.countP TaskHost.running + one TaskHost.running host =
      s.hosts.countP TaskHost.running + run.isSome.toNat := by
  have hset := countP_set_add (p := TaskHost.running) (b := { host' with run := run }) hh
  rwa [one_eq_toNat TaskHost.running { host' with run := run }] at hset

section

variable (hI : s.Inv kind)
include hI

theorem Inv.countP_setRun_le
    (hh : s.hosts[h]? = some host) (hsome : run.isSome → host.run.isSome)
    (h0 : s.started = 0) : (s.setRun h host' run).hosts.countP TaskHost.running ≤ 1 := by
  have halone := hI.alone h0
  have hset := countP_setRun hh host' run
  have hle : run.isSome.toNat ≤ one TaskHost.running host := by
    cases run with
    | none => exact Nat.zero_le _
    | some =>
      have hrun : host.running := hsome rfl
      rw [one_of_true hrun]
      exact Nat.le_refl 1
  omega

theorem Inv.endRun (hh : s.hosts[h]? = some host) : (s.setRun h host none).Inv kind :=
  hI.setRun (hI.countP_setRun_le hh nofun) nofun fun _ => nofun

theorem Inv.poll (hh : s.hosts[h]? = some host) :
    Inv kind { s with hosts := s.hosts.set h { host with sees := s.pending } } := by
  have hmem := mem_of_getElem? hh
  -- the run it is put back with is the one it has
  show (s.setRun h ⟨s.pending, host.run⟩ host.run).Inv kind
  exact hI.setRun (hI.countP_setRun_le hh id) (hI.fits host hmem) fun h1 => hI.after h1 host hmem

theorem Inv.tick (hp : s.pending) (hh : s.hosts[h]? = some host)
    (hcond : s.careful kind (.tick h)) : (s.setRun h host (some .asking)).Inv kind := by
  simp only [careful, hp, Bool.not_true, Bool.false_or] at hcond
  refine hI.setRun ?_ ?_ ?_
  · intro h0
    rw [if_pos h0, List.all_eq_true] at hcond
    have hnone : s.hosts.countP TaskHost.running = 0 := by
      rw [countP_eq_zero]
      intro other hother hrunning
      have hfree := hcond other hother
      rw [isNone_iff_eq_none] at hfree
      rw [TaskHost.running, hfree] at hrunning
      cases hrunning
    have hset := countP_setRun hh host (some .asking)
    rw [hnone, isSome_some, Bool.toNat_true] at hset
    omega
  · intro phase hphase
    cases hphase
    trivial
  · intro h1 _ hphase
    cases hphase
    rw [h1, if_neg Nat.one_ne_zero] at hcond
    exact .inr ⟨rfl, hcond⟩

theorem Inv.answer {a : TaskAnswer} (hp : s.pending) (hh : s.hosts[h]? = some host)
    (hrun : host.run = some phase) (hnext : phase.next kind a = some run)
    (hcond : s.careful kind (.answer h a)) : (s.setRun h host run).Inv kind := by
  have hmem := mem_of_getElem? hh
  refine hI.setRun (hI.countP_setRun_le hh fun _ => ?_) ?_ ?_
  · rw [hrun, isSome_some]
  · rintro phase' rfl
    exact TaskPhase.fits_next (hI.fits host hmem phase hrun) hnext
  · rintro h1 _ rfl
    obtain hspent | ⟨hearly, hsettled⟩ := hI.after h1 host hmem phase hrun
    · exact .inl (TaskPhase.spent_next hspent hnext)
    · have hread : ∀ nodeId, a = .primary nodeId → nodeId = some s.primary := by
        rintro _ rfl
        simpa [careful, hp, h1] using hcond
      have htarget : kind.target = some s.primary := of_decide_eq_true hsettled
      obtain hearly' | hspent' := TaskPhase.early_next htarget hread hearly hnext
      · exact .inr ⟨hearly', hsettled⟩
      · exact .inl hspent'

/-- The request of the only run is taken: now every run is past its request. -/
theorem Inv.postTaken (hp : s.pending) (h0 : s.started = 0) (hh : s.hosts[h]? = some host)
    (hrun : host.run = some (.posting req)) (hfits : phase.Fits kind)
    (hspent : phase.spent) : ((s.take req).setRun h host (some phase)).Inv kind := by
  have hmem := mem_of_getElem? hh
  have hledger := hI.ledger
  have hstarted : (s.take req).started = 1 := by simp [TaskState.take, hp, h0]
  have hrunning : host.running := by rw [TaskHost.running, hrun, isSome_some]
  refine ⟨Nat.le_of_eq hstarted, ?_, fun h => ?_, ?_, ?_, fun _ => ?_⟩
  · show s.completed + (s.underWay ++ [req]).length ≤ (s.take req).started
    rw [hstarted, length_append, length_singleton]
    omega
  · exact absurd (hstarted.symm.trans h) Nat.one_ne_zero
  · intro other hother phase' hphase
    obtain hold | rfl := mem_or_eq_of_mem_set hother
    · exact hI.fits other hold phase' hphase
    · cases hphase
      exact hfits
  · intro req' hreq'
    obtain hold | hnew := mem_append.mp hreq'
    · exact hI.asked req' hold
    · rw [mem_singleton.mp hnew]
      exact hI.fits host hmem _ hrun
  · intro other hother _ hphase
    obtain ⟨j, hj⟩ := mem_iff_getElem?.mp hother
    obtain ⟨-, rfl⟩ | ⟨hne, hj⟩ := getElem?_set_cases hj
    · cases hphase
      exact .inl hspent
    · -- no other host runs the task
      have hother' : other.running := by rw [TaskHost.running, hphase, isSome_some]
      exact absurd (index_unique_of_countP_le_one (hI.alone h0) hh hrunning hj hother') hne

theorem Inv.post
    (hp : s.pending) (hh : s.hosts[h]? = some host) (hrun : host.run = some (.posting req)) :
    (s.post h host req taken answered).Inv kind := by
  have hmem := mem_of_getElem? hh
  have hasks := hI.fits host hmem _ hrun
  have h0 : s.started = 0 := by
    by_contra hne
    have hfew := hI.few
    obtain hspent | ⟨hearly, -⟩ := hI.after (by omega) host hmem _ hrun
    · cases hspent
    · cases hearly
  cases taken with
  | true =>
    cases answered with
    | true => exact hI.postTaken hp h0 hh hrun hasks rfl
    | false => exact hI.postTaken hp h0 hh hrun trivial rfl
  | false =>
    refine hI.setRun (hI.countP_setRun_le hh fun _ => ?_) ?_ ?_
    · rw [hrun, isSome_some]
    · intro _ hphase
      cases hphase
      trivial
    · exact fun h1 => absurd (h0.symm.trans h1) Nat.zero_ne_one

end

theorem settled_complete (hasks : kind.asks req) (h : s.settled kind) :
    (s.complete i req ok).settled kind := by
  have htarget : kind.target = some s.primary := of_decide_eq_true h
  refine decide_eq_true ?_
  cases req with
  | rollingRestart => exact htarget
  | switchover node =>
    cases ok with
    | false => exact htarget
    | true =>
      cases kind with
      | rollingRestart => cases hasks
      | switchover target =>
        cases target with
        | none => cases htarget
        | some target =>
          have hnode : node = target := of_decide_eq_true hasks
          exact congrArg some hnode.symm

theorem Inv.requestEnds (hI : s.Inv kind)
    (hi : s.underWay[i]? = some req) : (s.complete i req ok).Inv kind where
  few := hI.few
  ledger := by
    obtain ⟨hlt, -⟩ := List.getElem?_eq_some_iff.mp hi
    have hledger := hI.ledger
    have hdone : (s.complete i req ok).completed ≤ s.completed + 1 := by
      simp only [complete]
      split_ifs <;> omega
    have hlen : (s.complete i req ok).underWay.length = s.underWay.length - 1 :=
      length_eraseIdx_of_lt hlt
    show _ ≤ s.started
    omega
  alone := hI.alone
  fits := hI.fits
  asked other hother := hI.asked other (mem_of_mem_eraseIdx hother)
  after h1 other hother phase hrun := by
    obtain hspent | ⟨hearly, hsettled⟩ := hI.after h1 other hother phase hrun
    · exact .inl hspent
    · exact .inr ⟨hearly, settled_complete (hI.asked req (mem_of_getElem? hi)) hsettled⟩

theorem Inv.primaryMoves {nodeId : String} (hI : s.Inv kind) (hp : s.pending)
    (hcond : s.careful kind (.primaryMoves nodeId)) :
    Inv kind { s with primary := nodeId } := by
  refine { hI with after := fun h1 other hother phase hrun => ?_ }
  obtain hspent | ⟨hearly, hsettled⟩ := hI.after h1 other hother phase hrun
  · exact .inl hspent
  · have htarget : kind.target = some s.primary := of_decide_eq_true hsettled
    have hstarted : s.started = 1 := h1
    have hstays : s.primary = nodeId := by simpa [careful, hp, hstarted, htarget] using hcond
    exact .inr ⟨hearly, decide_eq_true (htarget.trans (congrArg some hstays))⟩

theorem Inv.moves (hI : s.Inv kind) (hp : s.pending) (hcond : s.careful kind l)
    (hm : Moves kind s l s') : s'.Inv kind := by
  cases hm with
  | poll _ _ hh => exact hI.poll hh
  | tick _ _ hh => exact hI.tick hp hh hcond
  | answer _ _ _ _ _ hh hrun hnext => exact hI.answer hp hh hrun hnext hcond
  | post _ _ _ _ _ hh hrun => exact hI.post hp hh hrun
  | report _ _ _ hh => exact (hI.endRun hh).withPending _
  | crash _ _ hh => exact hI.endRun hh
  | requestEnds _ _ _ hi => exact hI.requestEnds hi
  | primaryMoves => exact hI.primaryMoves hp hcond
  | operationEnds => exact hI.withPending false

theorem Moves.ended (hm : Moves kind s l s') (hp : s.pending = false) :
    s'.pending = false ∧ s'.started = s.started ∧ s'.completed = s.completed := by
  cases hm with
  | poll | tick | answer | crash | primaryMoves => exact ⟨hp, rfl, rfl⟩
  | operationEnds => exact ⟨rfl, rfl, rfl⟩
  | report => exact ⟨by rw [hp, Bool.false_and], rfl, rfl⟩
  | requestEnds =>
    refine ⟨hp, rfl, ?_⟩
    simp [complete, hp]
  | post _ taken =>
    cases taken with
    | false => exact ⟨hp, rfl, rfl⟩
    | true =>
      refine ⟨hp, ?_, rfl⟩
      simp [TaskState.post, TaskState.setRun, take, hp]

theorem once_of_reaches (hr : (machine kind n primary).Reaches (fun s l => s.careful kind l) s) :
    s.started ≤ 1 ∧ s.completed ≤ 1 ∧ (s.pending → s.Inv kind) := by
  refine hr.invariant (I := fun s => s.started ≤ 1 ∧ s.completed ≤ 1 ∧
    (s.pending → s.Inv kind)) ?_ ?_
  · exact ⟨Nat.zero_le 1, Nat.zero_le 1, fun _ => inv_init⟩
  · intro s l _ h hcond hstep
    obtain ⟨_, _, hI⟩ := h
    have hm := moves_of_step hstep
    cases hp : s.pending with
    | false =>
      obtain ⟨hp', _, _⟩ := hm.ended hp
      refine ⟨by omega, by omega, fun h => ?_⟩
      rw [hp'] at h
      cases h
    | true =>
      have hI' := (hI hp).moves hp hcond hm
      have hledger := hI'.ledger
      have hfew := hI'.few
      exact ⟨hfew, by omega, fun _ => hI'⟩

/-- In every run that is careful about picking the task up, the task causes at most
one request that the cluster takes, and so at most one that comes through,
however often it is picked up. -/
theorem task_effect_once
    (hr : (machine kind n primary).Reaches (fun s l => s.careful kind l = true) s) :
    s.started ≤ 1 ∧ s.completed ≤ 1 := by
  obtain ⟨hstarted, hcompleted, -⟩ := once_of_reaches hr
  exact ⟨hstarted, hcompleted⟩

/-- A switchover to pg2 whose result gets lost: the next run finds it done. -/
def resultLost : List TaskLabel :=
  [.poll 0, .poll 1, .tick 0, .answer 0 (.health true), .answer 0 (.primary (some "pg1")),
    .post 0 true true, .requestEnds 0 true, .answer 0 (.primary (some "pg2")), .report 0 false,
    .tick 1, .answer 1 (.health true), .answer 1 (.primary (some "pg2")), .report 1 true]

theorem task_effect_once_resultLost :
    ∃ s, (machine (.switchover (some "pg2")) 2 "pg1").run resultLost = some s ∧
      s.completed = 1 ∧ s.started ≤ 1 ∧ s.completed ≤ 1 := by
  obtain ⟨s, hs, h⟩ := (machine (.switchover (some "pg2")) 2 "pg1").exists_run resultLost
    (fun s => s.completed = 1) (by decide +kernel)
  exact ⟨s, hs, h, task_effect_once (Machine.reaches_of_run (by decide +kernel) hs)⟩

/-- A switchover without a target whose result gets lost: the next run chooses
another node. -/
def choosesAgain : List TaskLabel :=
  [.poll 0, .tick 0, .answer 0 (.health true), .answer 0 (.primary (some "pg1")),
    .answer 0 (.nodes [⟨"pg1", false, 0⟩, ⟨"pg2", true, 0⟩]),
    .post 0 true true, .requestEnds 0 true, .answer 0 (.primary (some "pg2")), .report 0 false,
    .tick 0, .answer 0 (.health true), .answer 0 (.primary (some "pg2")),
    .answer 0 (.nodes [⟨"pg1", true, 0⟩, ⟨"pg2", false, 0⟩]),
    .post 0 true true, .requestEnds 0 true]

/-- A rolling restart whose result gets lost: the next run asks for another. -/
def restartsAgain : List TaskLabel :=
  [.poll 0, .tick 0, .answer 0 (.health true), .post 0 true true, .requestEnds 0 true,
    .answer 0 (.restart false true), .report 0 false,
    .tick 0, .answer 0 (.health true), .post 0 true true, .requestEnds 0 true]

/-- The leader changes while a switchover to pg2 is under way: the host of the new
leader still reads pg1 as the primary. -/
def leaderChanges : List TaskLabel :=
  [.poll 0, .poll 1, .tick 0, .answer 0 (.health true), .answer 0 (.primary (some "pg1")),
    .post 0 true true, .tick 1, .answer 1 (.health true), .answer 1 (.primary (some "pg1")),
    .post 1 true true, .requestEnds 0 true, .requestEnds 0 true]

theorem task_repeats_effect :
    (∃ s, (machine (.switchover none) 2 "pg1").run choosesAgain = some s ∧
      (machine (.switchover none) 2 "pg1").Reachable s ∧
      s.pending = true ∧ s.started = 2 ∧ s.completed = 2) ∧
    (∃ s, (machine .rollingRestart 2 "pg1").run restartsAgain = some s ∧
      (machine .rollingRestart 2 "pg1").Reachable s ∧
      s.pending = true ∧ s.started = 2 ∧ s.completed = 2) ∧
    (∃ s, (machine (.switchover (some "pg2")) 2 "pg1").run leaderChanges = some s ∧
      (machine (.switchover (some "pg2")) 2 "pg1").Reachable s ∧
      s.pending = true ∧ s.started = 2 ∧ s.completed = 2) := by
  refine ⟨?_, ?_, ?_⟩
  all_goals exact Machine.exists_of_run (by decide +kernel) fun _ => of_decide_eq_true

end TaskState

end PgCluster
