import PgCluster.InstancePrimary
import PgCluster.ListUpdates

/-!
# Who proposes a primary, and what it had read

A failover or a switchover that promoted a node proposes `SetPrimary` for it.
The monitor proposes `SetPrimary` too, for the node its tick takes for the
primary, when that node was marked offline and answers again. Each of them
decides by a topology it read some time before, and only the failovers and
switchovers exclude each other, by `op_in_progress`.

`ProposingInstance` is a `ClusterInstance` with the reads kept: the newest
version the current tick has read (its own snapshot, and the watch again for
each healthy node), the newest one the running switchover has read, and for a
failover the version of the topology it was given. `commits` are the
committed `SetPrimary` commands, the latest first, each with what its
operation had read when it proposed it. A write that returned an error may
still be committed later, and is kept in `late`.
-/

namespace PgCluster

open MonitorPhase List Option

/-! ## Proposals -/

/-- A `SetPrimary` on its way to the log. `read` is the newest version its
operation had read, and `promoted` tells a failover or switchover from the
monitor's recovery. -/
structure PrimaryProposal where
  nodeId : String
  atLsn : Nat
  newTimeline : Nat
  read : Nat
  promoted : Bool
deriving DecidableEq

def PrimaryProposal.command (p : PrimaryProposal) : TopologyCommand :=
  .setPrimary p.nodeId p.atLsn p.newTimeline

structure PrimaryCommit where
  proposal : PrimaryProposal
  version : Nat
deriving DecidableEq

structure ProposingInstance where
  inst : ClusterInstance
  tickRead : Nat
  switchoverRead : Option Nat
  late : List PrimaryProposal
  commits : List PrimaryCommit

inductive ProposalLabel where
  | step (l : InstanceStep)
  | switchoverReads
  | switchoverFails (i : Nat) (atLsn : Nat)
  | late (i : Nat) (now : Int)

def Task.isRunningSwitchover : Task → Bool
  | .switchoverRunning _ => true
  | _ => false

namespace ProposingInstance

/-- The `SetPrimary` whose write a step awaits, and what came of it. -/
def proposal (w : ProposingInstance) : InstanceStep → Option (PrimaryProposal × Option Int)
  | .wrote committed =>
    match w.inst.monitor with
    | .writing _ (.setPrimary nodeId atLsn newTimeline :: _) _ =>
      some (⟨nodeId, atLsn, newTimeline, w.tickRead, false⟩, committed)
    | _ => none
  | .failover (.written committed) =>
    match w.inst.monitor with
    | .failover ⟨_, _, .setPrimary candidate atLsn, _⟩ _ =>
      some (⟨candidate, atLsn, FailoverCall.newTimeline, w.tickRead, true⟩, committed)
    | _ => none
  | .task i (.failover (.written committed)) =>
    match w.inst.tasks[i]? with
    | some (.failoverCall ⟨topology, _, .setPrimary candidate atLsn, _⟩) =>
      some (⟨candidate, atLsn, FailoverCall.newTimeline, topology.version, true⟩, committed)
    | _ => none
  | .task i (.setPrimary now atLsn) =>
    match w.inst.tasks[i]?, w.switchoverRead with
    | some (.switchoverRunning target), some read =>
      some (⟨target, atLsn, 0, read, true⟩, some now)
    | _, _ => none
  | _ => none

/-- What the tick has read after a step: its snapshot at the start, and the
watch for every healthy node, in `is_stale_primary`. -/
def tickReadAfter (w : ProposingInstance) : InstanceStep → Nat
  | .tick true => w.inst.watched.version
  | .visit =>
    match w.inst.monitor with
    | .processing topology (r :: _) =>
      if r.visit topology = .healthy then max w.tickRead w.inst.watched.version
      else w.tickRead
    | _ => w.tickRead
  | _ => w.tickRead

/-- A switchover that takes the flag has yet to read the topology. -/
def switchoverReadAfter (w : ProposingInstance) : InstanceStep → Option Nat
  | .task _ .acquire => if w.inst.opInProgress then w.switchoverRead else none
  | _ => w.switchoverRead

/-- Steps that are not this instance's: a `SetPrimary` of nobody, and a
switchover's before it has taken its snapshot. -/
def foreign (w : ProposingInstance) : InstanceStep → Bool
  | .commit _ (.setPrimary ..) => true
  | .task _ (.setPrimary ..) => w.switchoverRead.isNone
  | _ => false

def record (commits : List PrimaryCommit) (version : Nat) :
    Option (PrimaryProposal × Option Int) → List PrimaryCommit
  | some (p, some _) => ⟨p, version⟩ :: commits
  | _ => commits

def postpone (late : List PrimaryProposal) :
    Option (PrimaryProposal × Option Int) → List PrimaryProposal
  | some (p, none) => late ++ [p]
  | _ => late

def step (threshold : Nat) (w : ProposingInstance) : ProposalLabel → Option ProposingInstance
  | .step l =>
    if w.foreign l then none
    else
      (w.inst.step threshold l).map fun inst =>
        { inst := inst
          tickRead := w.tickReadAfter l
          switchoverRead := w.switchoverReadAfter l
          late := postpone w.late (w.proposal l)
          commits := record w.commits inst.applied.version (w.proposal l) }
  | .switchoverReads =>
    if w.inst.tasks.any Task.isRunningSwitchover then
      some { w with switchoverRead := some w.inst.watched.version }
    else none
  | .switchoverFails i atLsn =>
    match w.inst.tasks[i]?, w.switchoverRead with
    | some (.switchoverRunning target), some read =>
      some { w with late := w.late ++ [⟨target, atLsn, 0, read, true⟩] }
    | _, _ => none
  | .late i now =>
    w.late[i]?.map fun p =>
      let inst := w.inst.commit now p.command
      { w with
        inst := inst
        late := w.late.eraseIdx i
        commits := ⟨p, inst.applied.version⟩ :: w.commits }

def machine (threshold : Nat) (t : ClusterTopology) : Machine ProposingInstance ProposalLabel where
  init := ⟨.start t, 0, none, [], []⟩
  step := step threshold

end ProposingInstance

/-! ## The flag on a `ClusterInstance` -/

def MonitorPhase.holdsFlag : MonitorPhase → Bool
  | .markOffline .. => true
  | .failover .. => true
  | _ => false

def Task.holdsFlag : Task → Bool
  | .switchoverChecked _ => false
  | _ => true

variable {i : Nat} {task : Task} {input : FailoverInput} {call : FailoverCall} {m : MonitorPhase}
  {target nodeId heldFor : String} {s s' s₁ : ClusterInstance} {threshold read : Nat}
  {commits : List PrimaryCommit} {c : PrimaryCommit} {switchoverRead : Option Nat}

namespace ClusterInstance

def holders (s : ClusterInstance) : Nat :=
  s.tasks.countP Task.holdsFlag + s.monitor.holdsFlag.toNat

/-- The flag counts its holders. -/
def Held (s : ClusterInstance) : Prop := s.holders = s.opInProgress.toNat

variable {j : Nat}

theorem runCall_frame {next : Option FailoverCall} (h : s.runCall call input = some (s₁, next)) :
    s₁.opInProgress = s.opInProgress ∧ s.applied.version ≤ s₁.applied.version := by
  obtain ⟨effect, -, heq⟩ := map_eq_some_iff.mp h
  obtain ⟨rfl, -⟩ := Prod.mk.inj heq
  cases effect.command with
  | none => exact ⟨rfl, le_rfl⟩
  | some => exact ⟨rfl, by simp [commit]⟩

theorem Held.free (h : s.Held) (hmonitor : s.monitor.holdsFlag) :
    s.tasks.countP Task.holdsFlag = 0 := by
  have hle := Bool.toNat_le s.opInProgress
  simp only [Held, holders, hmonitor, Bool.toNat_true] at h
  omega

theorem Held.not_holds (h : s.Held) (hmonitor : s.monitor.holdsFlag)
    (htask : task ∈ s.tasks) : task.holdsFlag = false := by
  have hzero := countP_eq_zero.mp (h.free hmonitor) task htask
  simpa using hzero

theorem Held.not_holds_other (h : s.Held) {task other : Task}
    (hi : s.tasks[i]? = some task) (hholds : task.holdsFlag) (hne : i ≠ j)
    (hj : s.tasks[j]? = some other) : other.holdsFlag = false := by
  have hle := Bool.toNat_le s.opInProgress
  have hset := countP_set_add (p := Task.holdsFlag) (b := .switchoverChecked "") hi
  have hj' : (s.tasks.set i (.switchoverChecked ""))[j]? = some other := by
    rw [getElem?_set_ne hne, hj]
  have hone : one Task.holdsFlag other ≤ _ := one_le_countP hj'
  rw [one_of_true hholds, one_of_false rfl] at hset
  simp only [Held, holders] at h
  by_contra hother
  rw [one_of_true ((Bool.not_eq_false _).mp hother)] at hone
  omega

end ClusterInstance

/-! ## Who may still propose -/

def FailoverCall.beforeSetPrimary (call : FailoverCall) : Bool :=
  match call.phase with
  | .recordFailover _ => false
  | .repoint _ => false
  | _ => true

def TopologyCommand.isSetPrimary : TopologyCommand → Bool
  | .setPrimary .. => true
  | _ => false

/-- The tick may still propose a primary: the result of the node it takes for
the primary is to come, or is being handled. -/
def MonitorPhase.mayPropose : MonitorPhase → Bool
  | .idle => false
  | .polling _ => true
  | .processing topology rest => primaryPending topology rest
  | .writing topology writes rest =>
    writes.any TopologyCommand.isSetPrimary || primaryPending topology rest
  | .markOffline .. => true
  | .failover call _ => call.beforeSetPrimary

/-- The results of a tick are of different nodes, and a failover is about the
one it takes for the primary. -/
def MonitorPhase.Once : MonitorPhase → Prop
  | .idle => True
  | .polling _ => True
  | .processing _ rest => (rest.map (·.nodeId)).Nodup
  | .writing _ _ rest => (rest.map (·.nodeId)).Nodup
  | .markOffline topology _ _ rest =>
    (rest.map (·.nodeId)).Nodup ∧ primaryPending topology rest = false
  | .failover call rest =>
    (rest.map (·.nodeId)).Nodup ∧ primaryPending call.topology rest = false

def Fresh (commits : List PrimaryCommit) (read : Nat) : Prop :=
  ∀ c ∈ commits, c.proposal.promoted = true → c.version ≤ read

/-- As `Fresh`, but for the promotions of `nodeId` itself. -/
def FreshFor (nodeId : String) (commits : List PrimaryCommit) (read : Nat) : Prop :=
  ∀ c ∈ commits, c.proposal.promoted = true → nodeId ≠ c.proposal.nodeId → c.version ≤ read

def Task.Fresh (commits : List PrimaryCommit) (switchoverRead : Option Nat) : Task → Prop
  | .failoverAcquired .. => True
  | .failoverMarkOffline topology _ _ => PgCluster.Fresh commits topology.version
  | .failoverCall call =>
    call.beforeSetPrimary = true → PgCluster.Fresh commits call.topology.version
  | .switchoverChecked _ => True
  | .switchoverRunning target => ∀ read, switchoverRead = some read → FreshFor target commits read

/-- A later commit that names another node than a promotion had read it. -/
def HadRead (later earlier : PrimaryCommit) : Prop :=
  earlier.proposal.promoted = true → later.proposal.nodeId ≠ earlier.proposal.nodeId →
    earlier.version ≤ later.proposal.read

structure ProposalInv (s : ClusterInstance) (tickRead : Nat) (switchoverRead : Option Nat)
    (commits : List PrimaryCommit) : Prop where
  held : s.Held
  once : s.monitor.Once
  versions : ∀ c ∈ commits, c.version ≤ s.applied.version
  tick : s.monitor.mayPropose = true → Fresh commits tickRead
  tasks : ∀ task ∈ s.tasks, task.Fresh commits switchoverRead
  order : commits.Pairwise HadRead

section Facts

variable {read' : Nat}

theorem Fresh.mono (h : Fresh commits read) (hle : read ≤ read') : Fresh commits read' :=
  fun c hc hp => Nat.le_trans (h c hc hp) hle

theorem Fresh.freshFor (h : Fresh commits read) (nodeId : String) : FreshFor nodeId commits read :=
  fun c hc hp _ => h c hc hp

/-- What the monitor's recovery commits is no promotion. -/
theorem Fresh.cons (h : Fresh commits read) (hc : c.proposal.promoted = false) :
    Fresh (c :: commits) read := by
  intro d hd hp
  rcases mem_cons.mp hd with rfl | hd
  · rw [hc] at hp
    cases hp
  · exact h d hd hp

theorem FreshFor.cons (h : FreshFor nodeId commits read)
    (hc : c.proposal.promoted = false ∨ c.proposal.nodeId = nodeId) :
    FreshFor nodeId (c :: commits) read := by
  intro d hd hp hne
  rcases mem_cons.mp hd with rfl | hd
  · rcases hc with hc | hc
    · rw [hc] at hp
      cases hp
    · exact absurd hc.symm hne
  · exact h d hd hp hne

theorem FreshFor.order (h : FreshFor c.proposal.nodeId commits c.proposal.read)
    (hcommits : commits.Pairwise HadRead) : (c :: commits).Pairwise HadRead :=
  pairwise_cons.mpr ⟨fun d hd hp hne => h d hd hp hne, hcommits⟩

/-- Only who holds the flag has something to propose. -/
theorem Task.fresh_of_not_holds (h : task.holdsFlag = false) :
    task.Fresh commits switchoverRead := by
  cases task with
  | switchoverChecked => trivial
  | _ => cases h

theorem Task.Fresh.cons (h : task.Fresh commits switchoverRead)
    (hc : c.proposal.promoted = false) : task.Fresh (c :: commits) switchoverRead := by
  cases task with
  | failoverAcquired | switchoverChecked => trivial
  | failoverMarkOffline => exact PgCluster.Fresh.cons h hc
  | failoverCall => exact fun hbefore => (h hbefore).cons hc
  | switchoverRunning => exact fun read hread => (h read hread).cons (.inl hc)

/-- A call does not come back to before its `SetPrimary`, and passes it by
the write. -/
theorem FailoverCall.beforeSetPrimary_of_step {effect : FailoverEffect} {next : FailoverPhase}
    (h : call.step input = some effect) (hnext : effect.next = some next)
    (hbefore : { call with phase := next }.beforeSetPrimary) :
    call.beforeSetPrimary ∧ ∀ committed, input ≠ .written committed := by
  unfold step at h
  split at h
  · next hphase => exact ⟨by simp [beforeSetPrimary, hphase], nofun⟩
  · next hphase => exact ⟨by simp [beforeSetPrimary, hphase], nofun⟩
  · next hphase => exact ⟨by simp [beforeSetPrimary, hphase], nofun⟩
  all_goals
    obtain ⟨⟩ := h
    try cases hnext
    try cases hbefore

end Facts

/-! ## Steps of the instance -/

namespace ClusterInstance

variable {task' : Task}

theorem Held.monitor (h : s.Held) (hm : m.holdsFlag = s.monitor.holdsFlag) :
    Held { s with monitor := m } := by
  simpa [Held, holders, hm] using h

theorem Held.setTask (h : s.Held) (hi : s.tasks[i]? = some task) (hmonitor : s₁.monitor = s.monitor)
    (htasks : s₁.tasks = s.tasks.set i task')
    (hflag : s₁.opInProgress.toNat + task.holdsFlag.toNat
      = s.opInProgress.toNat + task'.holdsFlag.toNat) : s₁.Held := by
  have hset := countP_set_add (p := Task.holdsFlag) (b := task') hi
  simp only [one_eq_toNat] at hset
  simp only [Held, holders] at h ⊢
  rw [htasks, hmonitor]
  omega

theorem Held.eraseTask (h : s.Held) (hi : s.tasks[i]? = some task)
    (hmonitor : s₁.monitor = s.monitor) (htasks : s₁.tasks = s.tasks.eraseIdx i)
    (hflag : s₁.opInProgress.toNat + task.holdsFlag.toNat = s.opInProgress.toNat) : s₁.Held := by
  have herase := countP_eraseIdx_add (p := Task.holdsFlag) hi
  rw [one_eq_toNat] at herase
  simp only [Held, holders] at h ⊢
  rw [htasks, hmonitor]
  omega

theorem before_of_runCall {call call' : FailoverCall}
    (h : s.runCall call input = some (s₁, some call')) (hbefore : call'.beforeSetPrimary) :
    call.beforeSetPrimary ∧ ∀ committed, input ≠ .written committed := by
  obtain ⟨_, hstep, heq⟩ := map_eq_some_iff.mp h
  obtain ⟨-, hnext⟩ := Prod.mk.inj heq
  obtain ⟨_, hphase, rfl⟩ := map_eq_some_iff.mp hnext
  exact FailoverCall.beforeSetPrimary_of_step hstep hphase hbefore

theorem Held.flag (h : s.Held) (hi : s.tasks[i]? = some task) (hholds : task.holdsFlag) :
    s.opInProgress := by
  have hone := one_le_countP (p := Task.holdsFlag) hi
  rw [one_of_true hholds] at hone
  simp only [Held, holders] at h
  cases hflag : s.opInProgress with
  | true => rfl
  | false =>
    rw [hflag, Bool.toNat_false] at h
    omega

end ClusterInstance

open ClusterInstance

namespace ProposalInv

variable {tickRead : Nat} {topology : ClusterTopology} {rest : List HealthCheckResult}
  {r : HealthCheckResult}

theorem nodeId_of_healthyWrites
    (h : (r.healthyWrites topology).any TopologyCommand.isSetPrimary) :
    r.nodeId = topology.primaryNodeId := by
  by_contra hne
  have hnone : (r.healthyWrites topology).any TopologyCommand.isSetPrimary = false := by
    simp only [HealthCheckResult.healthyWrites, hne, false_and, if_false]
    split <;> rfl
  rw [hnone] at h
  cases h

theorem primaryPending_cons (h : primaryPending topology rest) :
    primaryPending topology (r :: rest) := by
  rw [primaryPending, any_cons, ← primaryPending, h, Bool.or_true]

theorem primaryPending_head (h : r.nodeId = topology.primaryNodeId) :
    primaryPending topology (r :: rest) := by
  simp [primaryPending, h]

variable (h : ProposalInv s tickRead switchoverRead commits)
include h

/-- Everybody is up to date who reads a watch that has caught up. -/
theorem fresh_of_versions
    (hcaught : s.watched.version = s.applied.version) : Fresh commits s.watched.version := by
  intro c hc _
  rw [hcaught]
  exact h.versions c hc

theorem recover (hc : c.proposal.promoted = false) (hread : Fresh commits c.proposal.read)
    (hversion : c.version ≤ s.applied.version) :
    ProposalInv s tickRead switchoverRead (c :: commits) where
  held := h.held
  once := h.once
  versions := forall_mem_cons.mpr ⟨hversion, h.versions⟩
  tick hmay := (h.tick hmay).cons hc
  tasks task htask := (h.tasks task htask).cons hc
  order := (hread.freshFor _).order h.order

theorem promote (hmonitor : s.monitor.mayPropose = false)
    (htasks : ∀ task ∈ s.tasks, task.Fresh (c :: commits) switchoverRead)
    (hread : FreshFor c.proposal.nodeId commits c.proposal.read)
    (hversion : c.version ≤ s.applied.version) :
    ProposalInv s tickRead switchoverRead (c :: commits) where
  held := h.held
  once := h.once
  versions := forall_mem_cons.mpr ⟨hversion, h.versions⟩
  tick hmay := by
    rw [hmonitor] at hmay
    cases hmay
  tasks := htasks
  order := hread.order h.order

/-! ### The monitor -/

theorem moveMonitor
    (htasks : s₁.tasks = s.tasks) (hflag : s₁.opInProgress = s.opInProgress)
    (hversion : s.applied.version ≤ s₁.applied.version) (hread : tickRead ≤ read)
    (hholds : s₁.monitor.holdsFlag = s.monitor.holdsFlag) (honce : s₁.monitor.Once)
    (hmay : s₁.monitor.mayPropose → s.monitor.mayPropose) :
    ProposalInv s₁ read switchoverRead commits where
  held := by
    have hheld := h.held
    simp only [Held, holders] at hheld ⊢
    rw [hholds, htasks, hflag, hheld]
  once := honce
  versions c hc := Nat.le_trans (h.versions c hc) hversion
  tick hm := (h.tick (hmay hm)).mono hread
  tasks := htasks ▸ h.tasks
  order := h.order

theorem startTick (hmonitor : s.monitor = .idle) (hcaught : s.watched.version = s.applied.version) :
    ProposalInv { s with monitor := .polling s.watched } s.watched.version switchoverRead commits :=
  { h with
    held := h.held.monitor (by rw [hmonitor]; rfl)
    once := trivial
    tick := fun _ => h.fresh_of_versions hcaught }

theorem visit (hmonitor : s.monitor = .processing topology (r :: rest)) :
    ProposalInv (s.visitResult threshold topology r rest)
      (if r.visit topology = .healthy then max tickRead s.watched.version else tickRead)
      switchoverRead commits := by
  have honce := h.once
  rw [hmonitor] at honce
  obtain ⟨hfirst, hrest⟩ := nodup_cons.mp (show ((r :: rest).map (·.nodeId)).Nodup from honce)
  have htail : primaryPending topology rest → s.monitor.mayPropose := by
    intro hpending
    rw [hmonitor]
    exact primaryPending_cons hpending
  have hmove {s₁ : ClusterInstance} {read : Nat} (hread : tickRead ≤ read)
      (htasks : s₁.tasks = s.tasks) (hflag : s₁.opInProgress = s.opInProgress)
      (happlied : s₁.applied = s.applied) (hholds : s₁.monitor.holdsFlag = false)
      (honce : s₁.monitor.Once)
      (hmay : s₁.monitor.mayPropose → s.monitor.mayPropose) :
      ProposalInv s₁ read switchoverRead commits :=
    h.moveMonitor htasks hflag (by rw [happlied]) hread (by rw [hholds, hmonitor]; rfl) honce hmay
  unfold visitResult
  split
  · rename_i hvisit
    rw [hvisit, if_neg (show ¬ Visit.skip = .healthy by decide)]
    exact hmove le_rfl rfl rfl rfl rfl hrest htail
  · rename_i hvisit
    rw [hvisit, if_pos rfl]
    dsimp only
    split
    · exact hmove (Nat.le_max_left ..) rfl rfl rfl rfl hrest htail
    · refine hmove (Nat.le_max_left ..) rfl rfl rfl rfl hrest ?_
      intro hmay
      rcases Bool.or_eq_true_iff.mp hmay with hwrites | hpending
      · rw [hmonitor]
        exact primaryPending_head (nodeId_of_healthyWrites hwrites)
      · exact htail hpending
  · rename_i hvisit
    rw [hvisit, if_neg (show ¬ Visit.failing = .healthy by decide)]
    dsimp only
    split
    · rename_i hfails
      simp only [Bool.and_eq_true, decide_eq_true_iff, Bool.not_eq_true'] at hfails
      obtain ⟨⟨-, hprimary⟩, hflag⟩ := hfails
      have hpending : primaryPending topology rest = false := by
        rw [primaryPending, List.any_eq_false]
        intro x hx hxr
        exact hfirst (List.mem_map.mpr ⟨x, hx, (beq_iff_eq.mp hxr).trans hprimary.symm⟩)
      have hmay : s.monitor.mayPropose := by
        rw [hmonitor]
        exact primaryPending_head hprimary
      have hheld := h.held
      simp only [Held, holders, hmonitor, hflag, holdsFlag, Bool.toNat_false, Nat.add_zero] at hheld
      refine { h with held := ?_, once := ⟨hrest, hpending⟩, tick := fun _ => h.tick hmay }
      simp only [Held, holders, hheld, holdsFlag, Bool.toNat_true, Nat.zero_add]
    · exact hmove le_rfl rfl rfl rfl rfl hrest htail

theorem wrote {cmd : TopologyCommand}
    {cmds : List TopologyCommand} (hmonitor : s.monitor = .writing topology (cmd :: cmds) rest)
    (committed : Option Int)
    (hm : m = .processing topology rest ∨ m = .writing topology cmds rest) :
    ProposalInv { s.write committed cmd with monitor := m } tickRead switchoverRead commits := by
  have honce := h.once
  rw [hmonitor] at honce
  have hframe : (s.write committed cmd).tasks = s.tasks ∧
      (s.write committed cmd).opInProgress = s.opInProgress ∧
      s.applied.version ≤ (s.write committed cmd).applied.version := by
    cases committed with
    | none => exact ⟨rfl, rfl, le_rfl⟩
    | some => exact ⟨rfl, rfl, by simp [write, commit]⟩
  obtain ⟨htasks, hflag, hversion⟩ := hframe
  rcases hm with rfl | rfl
  · refine h.moveMonitor htasks hflag hversion le_rfl (by rw [hmonitor]; rfl) honce ?_
    intro hmay
    rw [hmonitor]
    exact Bool.or_eq_true_iff.mpr (.inr hmay)
  · refine h.moveMonitor htasks hflag hversion le_rfl (by rw [hmonitor]; rfl) honce ?_
    intro hmay
    rw [hmonitor]
    rcases Bool.or_eq_true_iff.mp hmay with hwrites | hpending
    · exact Bool.or_eq_true_iff.mpr (.inl (by rw [any_cons, hwrites, Bool.or_true]))
    · exact Bool.or_eq_true_iff.mpr (.inr hpending)

theorem releaseMonitor (hmonitor : s.monitor.holdsFlag) (htasks : s₁.tasks = s.tasks)
    (hflag : s₁.opInProgress = false) (hversion : s.applied.version ≤ s₁.applied.version)
    (hnext : s₁.monitor = .processing topology rest) (hnodup : (rest.map (·.nodeId)).Nodup)
    (hpending : primaryPending topology rest = false) :
    ProposalInv s₁ tickRead switchoverRead commits where
  held := by simp [Held, holders, hnext, holdsFlag, htasks, hflag, h.held.free hmonitor]
  once := by
    rw [hnext]
    exact hnodup
  versions c hc := Nat.le_trans (h.versions c hc) hversion
  tick hmay := by
    rw [hnext, mayPropose, hpending] at hmay
    cases hmay
  tasks := htasks ▸ h.tasks
  order := h.order

theorem startFailover
    {now : Int} (hmonitor : s.monitor = .markOffline topology nodeId heldFor rest) :
    ProposalInv { ((s.commit now (.markOffline nodeId)).enter topology nodeId heldFor).1 with
        monitor := .failover ⟨topology, nodeId, .pick, heldFor⟩ rest }
      tickRead switchoverRead commits := by
  have honce := h.once
  rw [hmonitor] at honce
  refine h.moveMonitor rfl rfl ?_ le_rfl (by rw [hmonitor]; rfl) honce ?_
  · simp [enter, commit]
  · exact fun _ => by rw [hmonitor]; rfl

theorem runFailover {call call' : FailoverCall} (hmonitor : s.monitor = .failover call rest)
    (hrun : s.runCall call input = some (s₁, some call')) :
    ProposalInv { s₁ with monitor := .failover call' rest } tickRead switchoverRead commits := by
  have honce := h.once
  rw [hmonitor] at honce
  obtain ⟨-, htasks, -, -, hnext⟩ := runCall_spec hrun
  obtain ⟨hflag, hversion⟩ := runCall_frame hrun
  obtain ⟨htopology, -⟩ := hnext call' rfl
  refine h.moveMonitor htasks hflag hversion le_rfl (by rw [hmonitor]; rfl)
    ⟨honce.1, ?_⟩ fun hmay => ?_
  · rw [htopology]
    exact honce.2
  · rw [hmonitor]
    exact (before_of_runCall hrun hmay).1

/-! ### Tasks -/

theorem setTask {task task' : Task}
    (hi : s.tasks[i]? = some task) (hmonitor : s₁.monitor = s.monitor)
    (htasks : s₁.tasks = s.tasks) (hflag : s₁.opInProgress = s.opInProgress)
    (hversion : s.applied.version ≤ s₁.applied.version) (hholds : task'.holdsFlag = task.holdsFlag)
    (hfresh : task'.Fresh commits switchoverRead) :
    ProposalInv { s₁ with tasks := s₁.tasks.set i task' } tickRead switchoverRead commits where
  held := h.held.setTask hi hmonitor (by rw [htasks]) (by rw [hflag, hholds])
  once := hmonitor ▸ h.once
  versions c hc := Nat.le_trans (h.versions c hc) hversion
  tick := hmonitor ▸ h.tick
  tasks x hx := by
    rcases mem_or_eq_of_mem_set hx with hx | rfl
    · exact h.tasks x (htasks ▸ hx)
    · exact hfresh
  order := h.order

theorem eraseTask
    (hi : s.tasks[i]? = some task) (s₁ : ClusterInstance) (hmonitor : s₁.monitor = s.monitor)
    (htasks : s₁.tasks = s.tasks)
    (hflag : s₁.opInProgress.toNat + task.holdsFlag.toNat = s.opInProgress.toNat)
    (hversion : s.applied.version ≤ s₁.applied.version) :
    ProposalInv { s₁ with tasks := s₁.tasks.eraseIdx i } tickRead switchoverRead commits where
  held := h.held.eraseTask hi hmonitor (by rw [htasks]) hflag
  once := hmonitor ▸ h.once
  versions c hc := Nat.le_trans (h.versions c hc) hversion
  tick := hmonitor ▸ h.tick
  tasks x hx := h.tasks x (htasks ▸ mem_of_mem_eraseIdx hx)
  order := h.order

theorem releaseTask (hi : s.tasks[i]? = some task) (hholds : task.holdsFlag)
    (hmonitor : s₁.monitor = s.monitor) (htasks : s₁.tasks = s.tasks)
    (hversion : s.applied.version ≤ s₁.applied.version) :
    ProposalInv { s₁ with opInProgress := false, tasks := s₁.tasks.eraseIdx i }
      tickRead switchoverRead commits := by
  have hflag : s.opInProgress := h.held.flag hi hholds
  refine h.eraseTask hi { s₁ with opInProgress := false } hmonitor htasks ?_ hversion
  rw [hflag, hholds]
  rfl

theorem addTask {flag : Bool} (hflag : flag.toNat = s.opInProgress.toNat + task.holdsFlag.toNat)
    (hfresh : task.Fresh commits switchoverRead) :
    ProposalInv { s with opInProgress := flag, tasks := task :: s.tasks }
      tickRead switchoverRead commits := by
  refine { h with held := ?_, tasks := forall_mem_cons.mpr ⟨hfresh, h.tasks⟩ }
  have hheld := h.held
  simp only [Held, holders] at hheld ⊢
  rw [countP_cons, hflag, ← hheld]
  cases task.holdsFlag with
  | false => simp
  | true => simp; omega

/-- A switchover takes a free flag: nobody has anything to propose. -/
theorem acquireSwitchover
    (hi : s.tasks[i]? = some (.switchoverChecked target)) (hflag : s.opInProgress = false) :
    ProposalInv { s with opInProgress := true, tasks := s.tasks.set i (.switchoverRunning target) }
      tickRead none commits := by
  refine { h with
    held := h.held.setTask hi rfl rfl (by simp [hflag, Task.holdsFlag])
    tasks := fun x hx => ?_ }
  rcases mem_or_eq_of_mem_set hx with hx | rfl
  · obtain ⟨j, hj⟩ := getElem?_of_mem hx
    refine Task.fresh_of_not_holds ?_
    by_contra hholds
    rw [h.held.flag hj ((Bool.not_eq_false _).mp hholds)] at hflag
    cases hflag
  · exact fun read hread => (nomatch hread)

theorem readSwitchover (hcaught : s.watched.version = s.applied.version) :
    ProposalInv s tickRead (some s.watched.version) commits := by
  refine { h with tasks := fun task htask => ?_ }
  have hfresh := h.tasks task htask
  cases task with
  | switchoverRunning target =>
    rintro _ ⟨⟩
    exact (h.fresh_of_versions hcaught).freshFor target
  | _ => exact hfresh

/-- The holder of the flag commits its promotion: the other tasks hold
nothing. -/
theorem promoteTask (hi : s.tasks[i]? = some task) (hholds : task.holdsFlag)
    (hfresh : task.Fresh (c :: commits) switchoverRead) (hmonitor : s.monitor.mayPropose = false)
    (hread : FreshFor c.proposal.nodeId commits c.proposal.read)
    (hversion : c.version ≤ s.applied.version) :
    ProposalInv s tickRead switchoverRead (c :: commits) := by
  refine h.promote hmonitor (fun x hx => ?_) hread hversion
  obtain ⟨j, hj⟩ := getElem?_of_mem hx
  by_cases hij : i = j
  · subst hij
    rw [hi] at hj
    cases hj
    exact hfresh
  · exact Task.fresh_of_not_holds (h.held.not_holds_other hi hholds hij hj)

end ProposalInv

/-! ## Timely runs -/

namespace ProposingInstance

def caughtUp (w : ProposingInstance) : Bool :=
  w.inst.watched.version = w.inst.applied.version

/-- Ticks, failovers and switchovers read a watch that has caught up; the API's
failover or switchover commits its promotion only when the tick has nothing
left to propose; and a write that failed is not committed later. -/
def timely (w : ProposingInstance) : ProposalLabel → Bool
  | .step (.tick true) => w.caughtUp
  | .step (.task _ .readTopology) => w.caughtUp
  | .step (.task _ (.failover (.written (some _)))) => !w.inst.monitor.mayPropose
  | .step (.task _ (.setPrimary ..)) => !w.inst.monitor.mayPropose
  | .switchoverReads => w.caughtUp
  | .late .. => false
  | _ => true

def Inv (w : ProposingInstance) : Prop :=
  ProposalInv w.inst w.tickRead w.switchoverRead w.commits

variable {w w' : ProposingInstance} {inst : ClusterInstance} {l : InstanceStep}

/-- What a step leaves, its commits taken together. -/
def after (w : ProposingInstance) (l : InstanceStep) (inst : ClusterInstance) : Prop :=
  ProposalInv inst (w.tickReadAfter l) (w.switchoverReadAfter l)
    (record w.commits inst.applied.version (w.proposal l))

theorem after_of_none (hproposal : w.proposal l = none)
    (hread : w.tickReadAfter l = w.tickRead) (hswitch : w.switchoverReadAfter l = w.switchoverRead)
    (h : ProposalInv inst w.tickRead w.switchoverRead w.commits) : w.after l inst := by
  rw [after, hproposal, hread, hswitch]
  exact h

theorem after_wrote (h : w.Inv) {committed : Option Int}
    (hstep : w.inst.step threshold (.wrote committed) = some inst) :
    w.after (.wrote committed) inst := by
  cases hmonitor : w.inst.monitor with
  | writing _ writes =>
    cases writes with
    | nil => simp [ClusterInstance.step, hmonitor] at hstep
    | cons cmd =>
      have hafter : ProposalInv inst w.tickRead w.switchoverRead w.commits := by
        simp only [ClusterInstance.step, hmonitor] at hstep
        split at hstep
        · cases hstep
          exact h.wrote hmonitor committed (.inl rfl)
        · cases hstep
          exact h.wrote hmonitor committed (.inr rfl)
      cases cmd with
      | setPrimary =>
        have hmay : w.inst.monitor.mayPropose := by rw [hmonitor]; rfl
        simp only [after, proposal, hmonitor]
        cases committed with
        | none => exact hafter
        | some => exact hafter.recover rfl (h.tick hmay) le_rfl
      | _ => exact after_of_none (by simp [proposal, hmonitor]) rfl rfl hafter
  | _ => simp [ClusterInstance.step, hmonitor] at hstep

theorem after_failover (h : w.Inv) (hstep : w.inst.step threshold (.failover input) = some inst) :
    w.after (.failover input) inst := by
  cases hmonitor : w.inst.monitor with
  | failover call =>
    have honce := h.once
    rw [hmonitor] at honce
    simp only [ClusterInstance.step, hmonitor] at hstep
    obtain ⟨⟨_, next⟩, hrun, heq⟩ := map_eq_some_iff.mp hstep
    have hafter : ProposalInv inst w.tickRead w.switchoverRead w.commits := by
      cases next with
      | some =>
        obtain rfl := heq
        exact h.runFailover hmonitor hrun
      | none =>
        obtain rfl := heq
        obtain ⟨-, htasks, -⟩ := runCall_spec hrun
        obtain ⟨-, hversion⟩ := runCall_frame hrun
        exact h.releaseMonitor (by rw [hmonitor]; rfl) htasks rfl hversion rfl honce.1 honce.2
    cases input with
    | written committed =>
      obtain ⟨_, _, phase, _⟩ := call
      cases phase with
      | setPrimary =>
        simp only [after, proposal, hmonitor]
        cases committed with
        | none => exact hafter
        | some =>
          have hmay : w.inst.monitor.mayPropose := by rw [hmonitor]; rfl
          obtain ⟨-, rfl⟩ := Prod.mk.inj (Option.some.inj hrun)
          obtain ⟨-, htasks, -⟩ := runCall_spec hrun
          obtain rfl := heq
          refine hafter.promote rfl (fun task htask => ?_) ((h.tick hmay).freshFor _) le_rfl
          exact Task.fresh_of_not_holds (h.held.not_holds (by rw [hmonitor]; rfl) (htasks ▸ htask))
      | _ => exact after_of_none (by simp [proposal, hmonitor]) rfl rfl hafter
    | _ => exact hafter
  | _ => simp [ClusterInstance.step, hmonitor] at hstep

theorem after_failoverCall (h : w.Inv) (hi : w.inst.tasks[i]? = some (.failoverCall call))
    (htimely : w.timely (.step (.task i (.failover input))))
    (hstep : w.inst.step threshold (.task i (.failover input)) = some inst) :
    w.after (.task i (.failover input)) inst := by
  simp only [ClusterInstance.step, hi, stepTask, Option.map_map] at hstep
  obtain ⟨⟨s₁, next⟩, hrun, heq⟩ := map_eq_some_iff.mp hstep
  obtain ⟨hmonitor, htasks, -, -, hnext⟩ := runCall_spec hrun
  obtain ⟨hflag, hversion⟩ := runCall_frame hrun
  have hfresh : call.beforeSetPrimary → Fresh w.commits call.topology.version :=
    h.tasks _ (mem_of_getElem? hi)
  have hafter : ProposalInv inst w.tickRead w.switchoverRead w.commits := by
    cases next with
    | some call' =>
      obtain rfl := heq
      refine h.setTask hi hmonitor htasks hflag hversion rfl fun hbefore => ?_
      rw [(hnext call' rfl).1]
      exact hfresh (before_of_runCall hrun hbefore).1
    | none =>
      obtain rfl := heq
      exact h.releaseTask hi rfl hmonitor htasks hversion
  cases input with
  | written committed =>
    obtain ⟨topology, failed, phase, heldFor⟩ := call
    cases phase with
    | setPrimary candidate =>
      simp only [after, proposal, hi]
      cases committed with
      | none => exact hafter
      | some =>
        have hquiet : w.inst.monitor.mayPropose = false := by simpa [timely] using htimely
        obtain ⟨hlt, -⟩ := List.getElem?_eq_some_iff.mp hi
        obtain ⟨-, rfl⟩ := Prod.mk.inj (Option.some.inj hrun)
        obtain rfl := heq
        have hi' : (s₁.tasks.set i (.failoverCall
            ⟨topology, failed, .recordFailover candidate, heldFor⟩))[i]?
            = some (.failoverCall ⟨topology, failed, .recordFailover candidate, heldFor⟩) := by
          simp [htasks, hlt]
        refine hafter.promoteTask hi' rfl (fun hbefore => by cases hbefore) ?_
          ((hfresh rfl).freshFor _) le_rfl
        show s₁.monitor.mayPropose = false
        rw [hmonitor, hquiet]
    | _ => exact after_of_none (by simp [proposal, hi]) rfl rfl hafter
  | _ => exact hafter

theorem after_failoverTask (h : w.Inv) {input : TaskInput} (hi : w.inst.tasks[i]? = some task)
    (htask : (∃ failed heldFor, task = .failoverAcquired failed heldFor) ∨
      ∃ topology failed heldFor, task = .failoverMarkOffline topology failed heldFor)
    (htimely : w.timely (.step (.task i input)))
    (hstep : w.inst.step threshold (.task i input) = some inst) :
    w.after (.task i input) inst := by
  rcases htask with ⟨_, _, rfl⟩ | ⟨topology, _, _, rfl⟩
  · cases input with
    | readTopology =>
      have hcaught : w.inst.watched.version = w.inst.applied.version := of_decide_eq_true htimely
      refine after_of_none rfl rfl rfl ?_
      simp only [ClusterInstance.step, hi, stepTask] at hstep
      split at hstep
      · cases hstep
        exact h.setTask hi rfl rfl rfl le_rfl rfl (h.fresh_of_versions hcaught)
      · cases hstep
        exact h.releaseTask hi rfl rfl rfl le_rfl
    | _ => simp [ClusterInstance.step, hi, stepTask] at hstep
  · cases input with
    | markedOffline committed =>
      refine after_of_none rfl rfl rfl ?_
      simp only [ClusterInstance.step, hi] at hstep
      cases committed with
      | none =>
        cases hstep
        exact h.releaseTask hi rfl rfl rfl le_rfl
      | some =>
        cases hstep
        have hfresh : Fresh w.commits topology.version := h.tasks _ (mem_of_getElem? hi)
        refine h.setTask hi rfl rfl rfl ?_ rfl (fun _ => hfresh)
        simp [commit]
    | _ => simp [ClusterInstance.step, hi, stepTask] at hstep

theorem after_switchoverTask (h : w.Inv) {input : TaskInput} (hi : w.inst.tasks[i]? = some task)
    (htask : task = .switchoverChecked target ∨ task = .switchoverRunning target)
    (htimely : w.timely (.step (.task i input)))
    (hforeign : w.foreign (.task i input) = false)
    (hstep : w.inst.step threshold (.task i input) = some inst) :
    w.after (.task i input) inst := by
  rcases htask with rfl | rfl
  · cases input with
    | acquire =>
      simp only [ClusterInstance.step, hi, stepTask] at hstep
      cases hflag : w.inst.opInProgress with
      | true =>
        refine after_of_none rfl rfl (by simp [switchoverReadAfter, hflag]) ?_
        simp only [hflag, if_true] at hstep
        cases hstep
        exact h.eraseTask hi w.inst rfl rfl rfl le_rfl
      | false =>
        simp only [hflag, Bool.false_eq_true, if_false] at hstep
        cases hstep
        have hread : w.switchoverReadAfter (.task i .acquire) = none := by
          simp [switchoverReadAfter, hflag]
        rw [after, hread]
        exact h.acquireSwitchover hi hflag
    | _ => simp [ClusterInstance.step, hi, stepTask] at hstep
  · have hfresh : ∀ read, w.switchoverRead = some read → FreshFor target w.commits read :=
      h.tasks _ (mem_of_getElem? hi)
    cases input with
    | finish =>
      refine after_of_none rfl rfl rfl ?_
      simp only [ClusterInstance.step, hi] at hstep
      cases hstep
      exact h.releaseTask hi rfl rfl rfl le_rfl
    | setPrimary now atLsn =>
      have hquiet : w.inst.monitor.mayPropose = false := by simpa [timely] using htimely
      obtain ⟨hlt, -⟩ := List.getElem?_eq_some_iff.mp hi
      cases hread : w.switchoverRead with
      | none => simp [foreign, hread] at hforeign
      | some read =>
        simp only [ClusterInstance.step, hi] at hstep
        cases hstep
        have hafter : ProposalInv { w.inst.commit now (.setPrimary target atLsn 0) with
              tasks := w.inst.tasks.set i (.switchoverRunning target) }
            w.tickRead w.switchoverRead w.commits := by
          refine h.setTask hi rfl rfl rfl ?_ rfl hfresh
          simp [commit]
        have hi' : (w.inst.tasks.set i (.switchoverRunning target))[i]?
            = some (.switchoverRunning target) := by simp [hlt]
        simp only [after, proposal, hi, hread]
        -- Its own promotion does not count against it.
        refine hafter.promoteTask hi' rfl (fun read' hread' => ?_) hquiet (hfresh read hread) le_rfl
        exact (hfresh read' hread').cons (.inr rfl)
    | _ => simp [ClusterInstance.step, hi, stepTask] at hstep

theorem after_tick (h : w.Inv) {driving : Bool} (htimely : w.timely (.step (.tick driving)))
    (hstep : w.inst.step threshold (.tick driving) = some inst) :
    w.after (.tick driving) inst := by
  cases hmonitor : w.inst.monitor with
  | idle =>
    simp only [ClusterInstance.step, hmonitor] at hstep
    cases driving with
    | true =>
      cases hstep
      exact h.startTick hmonitor (of_decide_eq_true htimely)
    | false =>
      cases hstep
      exact after_of_none rfl rfl rfl h
  | _ => simp [ClusterInstance.step, hmonitor] at hstep

theorem after_visit (h : w.Inv) (hstep : w.inst.step threshold .visit = some inst) :
    w.after .visit inst := by
  cases hmonitor : w.inst.monitor with
  | processing topology results =>
    cases results with
    | nil =>
      simp only [ClusterInstance.step, hmonitor] at hstep
      cases hstep
      refine after_of_none rfl (by simp [tickReadAfter, hmonitor]) rfl
        (h.moveMonitor rfl rfl le_rfl le_rfl (by rw [hmonitor]; rfl)
          trivial fun hmay => by cases hmay)
    | cons r =>
      simp only [ClusterInstance.step, hmonitor] at hstep
      cases hstep
      have hread : w.tickReadAfter .visit = if r.visit topology = .healthy
          then max w.tickRead w.inst.watched.version else w.tickRead := by
        simp [tickReadAfter, hmonitor]
      rw [after, hread]
      exact h.visit hmonitor
  | _ => simp [ClusterInstance.step, hmonitor] at hstep

theorem after_markedOffline (h : w.Inv) {committed : Option Int}
    (hstep : w.inst.step threshold (.markedOffline committed) = some inst) :
    w.after (.markedOffline committed) inst := by
  cases hmonitor : w.inst.monitor with
  | markOffline =>
    have honce := h.once
    rw [hmonitor] at honce
    simp only [ClusterInstance.step, hmonitor] at hstep
    cases committed with
    | none =>
      cases hstep
      exact after_of_none rfl rfl rfl (h.releaseMonitor (by rw [hmonitor]; rfl) rfl rfl
        le_rfl rfl honce.1 honce.2)
    | some =>
      cases hstep
      exact after_of_none rfl rfl rfl (h.startFailover hmonitor)
  | _ => simp [ClusterInstance.step, hmonitor] at hstep

theorem after_step (h : w.Inv) (htimely : w.timely (.step l))
    (hforeign : w.foreign l = false) (hstep : w.inst.step threshold l = some inst) :
    w.after l inst := by
  cases l with
  | commit =>
    cases hstep
    refine after_of_none rfl rfl rfl (h.moveMonitor rfl rfl ?_ le_rfl rfl h.once id)
    simp [commit]
  | forwardRead =>
    cases hstep
    exact after_of_none rfl rfl rfl (h.moveMonitor rfl rfl le_rfl le_rfl rfl h.once id)
  | forwardSend =>
    obtain ⟨t, -, rfl⟩ := map_eq_some_iff.mp hstep
    exact after_of_none rfl rfl rfl (h.moveMonitor rfl rfl le_rfl le_rfl rfl h.once id)
  | tick => exact after_tick h htimely hstep
  | polled =>
    cases hmonitor : w.inst.monitor with
    | polling =>
      simp only [ClusterInstance.step, hmonitor] at hstep
      obtain ⟨hresults, rfl⟩ := ite_some_none_eq_some.mp hstep
      refine after_of_none rfl rfl rfl (h.moveMonitor rfl rfl le_rfl le_rfl
        (by rw [hmonitor]; rfl) hresults.1 ?_)
      exact fun _ => by rw [hmonitor]; rfl
    | _ => simp [ClusterInstance.step, hmonitor] at hstep
  | visit => exact after_visit h hstep
  | wrote => exact after_wrote h hstep
  | markedOffline => exact after_markedOffline h hstep
  | failover => exact after_failover h hstep
  | failoverRequest =>
    refine after_of_none rfl rfl rfl ?_
    simp only [ClusterInstance.step] at hstep
    split at hstep
    · cases hstep
      exact h
    · rename_i hflag
      cases hstep
      exact h.addTask (by simp [hflag, Task.holdsFlag]) trivial
  | switchoverRequest =>
    refine after_of_none rfl rfl rfl ?_
    simp only [ClusterInstance.step] at hstep
    split at hstep
    · cases hstep
      exact h.addTask rfl trivial
    · cases hstep
      exact h
  | task i input =>
    cases hi : w.inst.tasks[i]? with
    | none => simp [ClusterInstance.step, hi] at hstep
    | some task =>
      cases task with
      | failoverAcquired => exact after_failoverTask h hi (.inl ⟨_, _, rfl⟩) htimely hstep
      | failoverMarkOffline => exact after_failoverTask h hi (.inr ⟨_, _, _, rfl⟩) htimely hstep
      | failoverCall =>
        cases input with
        | failover => exact after_failoverCall h hi htimely hstep
        | _ => simp [ClusterInstance.step, hi, stepTask] at hstep
      | switchoverChecked => exact after_switchoverTask h hi (.inl rfl) htimely hforeign hstep
      | switchoverRunning => exact after_switchoverTask h hi (.inr rfl) htimely hforeign hstep

theorem Inv.step (h : w.Inv) {l : ProposalLabel} (htimely : w.timely l)
    (hstep : w.step threshold l = some w') : w'.Inv := by
  cases l with
  | step =>
    obtain ⟨hforeign, hstep⟩ := ite_none_left_eq_some.mp hstep
    obtain ⟨_, hinst, rfl⟩ := map_eq_some_iff.mp hstep
    exact after_step h htimely ((Bool.not_eq_true _).mp hforeign) hinst
  | switchoverReads =>
    obtain ⟨-, rfl⟩ := ite_some_none_eq_some.mp hstep
    exact ProposalInv.readSwitchover h (of_decide_eq_true htimely)
  | switchoverFails =>
    simp only [ProposingInstance.step] at hstep
    split at hstep
    · cases hstep
      exact h
    · cases hstep
  | late => cases htimely

theorem inv_start (t : ClusterTopology) : (machine threshold t).init.Inv where
  held := rfl
  once := trivial
  versions := forall_mem_nil _
  tick hmay := (nomatch hmay)
  tasks := forall_mem_nil _
  order := .nil

end ProposingInstance

/-- In a timely run, whoever had a `SetPrimary` committed after a promotion,
for another node, had read a topology with that promotion. -/
theorem later_primary_had_read {threshold : Nat} {t : ClusterTopology} {w : ProposingInstance}
    (hw : (ProposingInstance.machine threshold t).Reaches (fun w l => w.timely l = true) w) :
    w.commits.Pairwise fun later earlier =>
      earlier.proposal.promoted = true → later.proposal.nodeId ≠ earlier.proposal.nodeId →
        earlier.version ≤ later.proposal.read := by
  have hinv : w.Inv := hw.invariant (ProposingInstance.inv_start t)
    fun _ _ _ h htimely hstep => h.step htimely hstep
  exact hinv.order

/-! ## Runs -/

open ClusterTopology (threeNodes threeNodesStatus)

/-- A failover request for the primary, up to its `SetPrimary` of `pg3`. -/
def requestedFailover : List ProposalLabel :=
  [.step (.failoverRequest "pg1"), .step (.task 0 .readTopology),
    .step (.task 0 (.markedOffline (some 10)))]

def requestedPromotion : List ProposalLabel :=
  [.step (.task 0 (.failover (.positions ["pg2", "pg3"] threeNodesStatus))),
    .step (.task 0 (.failover (.promoted .success))),
    .step (.task 0 (.failover (.verified (.answer ⟨true, false, 50, 50⟩)))),
    .step (.task 0 (.failover (.written (some 11))))]

def forwarded : List ProposalLabel := [.step .forwardRead, .step .forwardSend]

def oldPrimaryUp : HealthCheckResult := ⟨"pg1", true, false, 50, 50, 1, true, true⟩

def failoverThenSwitchover : List ProposalLabel :=
  requestedFailover ++ (requestedPromotion : List ProposalLabel)
    ++ ([.step (.task 0 (.failover (.recorded none 0 0))), .step (.task 0 (.failover .repointed))]
      : List ProposalLabel)
    ++ (forwarded : List ProposalLabel)
    ++ ([.step (.switchoverRequest "pg2"), .step (.task 0 .acquire), .switchoverReads,
      .step (.task 0 (.setPrimary 20 60)), .step (.task 0 .finish)] : List ProposalLabel)

theorem later_primary_had_read_switchover :
    ∃ w, (ProposingInstance.machine 1 threeNodes).run failoverThenSwitchover = some w ∧
      w.commits.map (fun c => (c.proposal.nodeId, c.proposal.read, c.version))
        = [("pg2", 2, 3), ("pg3", 0, 2)] ∧
      w.commits.Pairwise fun later earlier =>
        earlier.proposal.promoted = true → later.proposal.nodeId ≠ earlier.proposal.nodeId →
          earlier.version ≤ later.proposal.read := by
  obtain ⟨w, hw, h⟩ := (ProposingInstance.machine 1 threeNodes).exists_run failoverThenSwitchover
    (fun w => w.commits.map (fun c => (c.proposal.nodeId, c.proposal.read, c.version))
      = [("pg2", 2, 3), ("pg3", 0, 2)]) (by decide +kernel)
  exact ⟨w, hw, h, later_primary_had_read (Machine.reaches_of_run (by decide +kernel) hw)⟩

/-- The tick reads the topology while the failover has marked the primary
offline, finds it up, and proposes it again after `pg3` was promoted and
recorded. -/
def recoveredDuringFailover : List ProposalLabel :=
  requestedFailover ++ (forwarded : List ProposalLabel)
    ++ ([.step (.tick true), .step (.polled [oldPrimaryUp]), .step .visit] : List ProposalLabel)
    ++ (requestedPromotion : List ProposalLabel)
    ++ ([.step (.wrote (some 12))] : List ProposalLabel)

/-- The tick reads the topology, a switchover to `pg2` runs from start to
end, and the tick then fails over from the primary it had read. -/
def failoverAfterSwitchover : List ProposalLabel :=
  ([.step (.tick true), .step (.switchoverRequest "pg2"), .step (.task 0 .acquire),
      .switchoverReads, .step (.task 0 (.setPrimary 20 60)), .step (.task 0 .finish),
      .step (.polled [.unreachable "pg1"]), .step .visit, .step (.markedOffline (some 21)),
      .step (.failover (.positions ["pg2", "pg3"] threeNodesStatus)),
      .step (.failover (.promoted .success)),
      .step (.failover (.verified (.answer ⟨true, false, 50, 50⟩))),
      .step (.failover (.written (some 22)))] : List ProposalLabel)

/-- The latest `SetPrimary` overrides a promotion its operation had not
read. -/
def ProposingInstance.overrides (w : ProposingInstance) : Bool :=
  match w.commits with
  | later :: earlier :: _ =>
    earlier.proposal.promoted && later.proposal.nodeId ≠ earlier.proposal.nodeId
      && later.proposal.read < earlier.version
  | _ => false

theorem ProposingInstance.overrides_spec (w : ProposingInstance) (h : w.overrides) :
    ∃ later earlier rest, w.commits = later :: earlier :: rest ∧
      earlier.proposal.promoted ∧ later.proposal.nodeId ≠ earlier.proposal.nodeId ∧
      later.proposal.read < earlier.version := by
  unfold overrides at h
  split at h
  · rename_i later earlier rest hcommits
    refine ⟨later, earlier, rest, hcommits, ?_⟩
    simpa [and_assoc] using h
  · cases h

theorem stale_primary_proposed :
    (∃ w, (ProposingInstance.machine 1 threeNodes).run recoveredDuringFailover = some w ∧
      (ProposingInstance.machine 1 threeNodes).Reachable w ∧
      ∃ later earlier rest, w.commits = later :: earlier :: rest ∧
        earlier.proposal.promoted = true ∧ later.proposal.nodeId ≠ earlier.proposal.nodeId ∧
        later.proposal.read < earlier.version) ∧
    (∃ w, (ProposingInstance.machine 1 threeNodes).run failoverAfterSwitchover = some w ∧
      (ProposingInstance.machine 1 threeNodes).Reachable w ∧
      ∃ later earlier rest, w.commits = later :: earlier :: rest ∧
        earlier.proposal.promoted = true ∧ later.proposal.nodeId ≠ earlier.proposal.nodeId ∧
        later.proposal.read < earlier.version) :=
  ⟨Machine.exists_of_run (by decide +kernel) ProposingInstance.overrides_spec,
    Machine.exists_of_run (by decide +kernel) ProposingInstance.overrides_spec⟩

end PgCluster
