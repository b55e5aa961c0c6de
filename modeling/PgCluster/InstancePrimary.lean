import PgCluster.InstanceFailover

/-!
# A failover runs against the current primary

A decision to fail over is *exposed* from the moment it read who the
primary is until its Promote is sent: the monitor's from the start of its
tick (if the result of the primary it read is still to come), the API's
from the acquisition of the flag. `Steady` asks of a step that it opens no
exposed decision about a node other than the primary, and changes no
primary under one. Runs of such steps keep `Current`: every exposed
decision is about the primary of the latest applied topology.

`Current` only constrains exposed decisions, so it survives any change of
the primary when there are none (`Current.frame`); each step lemma then
looks only at the phase that moved.
-/

namespace PgCluster

open List Option

/-! ## Exposed decisions -/

/-- The result of the node this tick takes for the primary is still to come. -/
def primaryPending (topology : ClusterTopology) (rest : List HealthCheckResult) : Bool :=
  rest.any fun r => r.nodeId == topology.primaryNodeId

def MonitorPhase.exposed : MonitorPhase → Bool
  | .idle => false
  | .polling _ => true
  | .processing topology rest => primaryPending topology rest
  | .writing topology _ rest => primaryPending topology rest
  | .markOffline .. => true
  | .failover call _ => call.beforePromote

def Task.exposed : Task → Bool
  | .failoverAcquired .. => true
  | .failoverMarkOffline .. => true
  | .failoverCall call => call.beforePromote
  | .switchoverChecked _ => false
  | .switchoverRunning _ => false

def ClusterInstance.exposed (s : ClusterInstance) : Bool :=
  s.monitor.exposed || s.tasks.any Task.exposed

/-- A decision is opened only about the current primary: the watch a tick
reads has caught up with it, and a request that gets the flag names it. -/
def ClusterInstance.opensOnPrimary (s : ClusterInstance) : InstanceStep → Bool
  | .tick true => s.watched.primaryNodeId == s.applied.primaryNodeId
  | .failoverRequest failed => s.opInProgress || failed == s.applied.primaryNodeId
  | _ => true

/-- The step opens decisions about the primary only, and leaves the primary
alone while a decision is exposed. -/
def ClusterInstance.Steady (threshold : Nat) (s : ClusterInstance) (l : InstanceStep) : Prop :=
  s.opensOnPrimary l = true ∧ (s.exposed = true → ∀ s' ∈ s.step threshold l,
        s'.applied.primaryNodeId = s.applied.primaryNodeId)

instance (threshold : Nat) (s : ClusterInstance) (l : InstanceStep) :
    Decidable (s.Steady threshold l) :=
  inferInstanceAs (Decidable (_ ∧ _))

/-! ## The invariant -/

/-- An exposed call is about `p`, and every call about the node the flag
was taken for. -/
def FailoverCall.Current (p : String) (call : FailoverCall) : Prop :=
  call.failedPrimary = call.heldFor ∧ (call.beforePromote = true → call.failedPrimary = p)

/-- The results of a tick are of different nodes, and the primary's, if it
is still to come, is `p`'s. -/
def TickCurrent (p : String) (topology : ClusterTopology) (rest : List HealthCheckResult) :
    Prop :=
  (rest.map (·.nodeId)).Nodup ∧ (primaryPending topology rest = true → topology.primaryNodeId = p)

def MonitorPhase.Current (p : String) : MonitorPhase → Prop
  | .idle => True
  | .polling topology => topology.primaryNodeId = p
  | .processing topology rest => TickCurrent p topology rest
  | .writing topology _ rest => TickCurrent p topology rest
  | .markOffline topology nodeId heldFor rest =>
    nodeId = heldFor ∧ nodeId = p ∧ (rest.map (·.nodeId)).Nodup
      ∧ primaryPending topology rest = false
  | .failover call rest =>
    call.Current p ∧ (rest.map (·.nodeId)).Nodup ∧ primaryPending call.topology rest = false

def Task.Current (p : String) : Task → Prop
  | .failoverAcquired failed heldFor => failed = heldFor ∧ failed = p
  | .failoverMarkOffline _ failed heldFor => failed = heldFor ∧ failed = p
  | .failoverCall call => call.Current p
  | .switchoverChecked _ => True
  | .switchoverRunning _ => True

/-- Both recorded facts, and every decision, are about the right node; `p`
stands for the primary of the latest applied topology. -/
structure ClusterInstance.Current (p : String) (s : ClusterInstance) : Prop where
  monitor : s.monitor.Current p
  tasks : ∀ task ∈ s.tasks, task.Current p
  entered : ∀ e ∈ s.entered, e.failedPrimary = e.heldFor
  promotes : ∀ e ∈ s.promotes, e.failedPrimary = e.primary

variable {p q : String} {topology t : ClusterTopology} {rest : List HealthCheckResult}
  {call call' : FailoverCall} {r : HealthCheckResult} {task : Task}

theorem FailoverCall.Current.frame (h : call.Current p)
    (hpq : call.beforePromote → q = p) : call.Current q :=
  ⟨h.1, fun hb => (h.2 hb).trans (hpq hb).symm⟩

theorem FailoverCall.Current.of_next
    (h : call.Current p) (hfailed : call'.failedPrimary = call.failedPrimary)
    (hheld : call'.heldFor = call.heldFor) (hbefore : call'.beforePromote → call.beforePromote) :
    call'.Current p := by
  refine ⟨hfailed.trans (h.1.trans hheld.symm), fun hb => ?_⟩
  exact hfailed.trans (h.2 (hbefore hb))

theorem TickCurrent.frame (h : TickCurrent p topology rest)
    (hpq : primaryPending topology rest → q = p) : TickCurrent q topology rest :=
  ⟨h.1, fun hb => (h.2 hb).trans (hpq hb).symm⟩

theorem MonitorPhase.Current.frame {m : MonitorPhase} (h : m.Current p)
    (hpq : m.exposed → q = p) : m.Current q := by
  cases m with
  | idle => trivial
  | polling => exact Eq.trans h (hpq rfl).symm
  | processing | writing => exact TickCurrent.frame h hpq
  | markOffline => exact hpq rfl ▸ h
  | failover => exact ⟨h.1.frame hpq, h.2⟩

theorem Task.Current.frame (h : task.Current p) (hpq : task.exposed → q = p) : task.Current q := by
  cases task with
  | failoverAcquired | failoverMarkOffline => exact hpq rfl ▸ h
  | failoverCall => exact FailoverCall.Current.frame h hpq
  | switchoverChecked | switchoverRunning => trivial

theorem TickCurrent.tail (h : TickCurrent p topology (r :: rest)) :
    TickCurrent p topology rest := by
  refine ⟨(nodup_cons.mp h.1).2, fun hb => h.2 ?_⟩
  rw [primaryPending, any_cons, ← primaryPending, hb, Bool.or_true]

theorem TickCurrent.head (h : TickCurrent p topology (r :: rest))
    (hr : r.nodeId = topology.primaryNodeId) :
    topology.primaryNodeId = p ∧ primaryPending topology rest = false := by
  refine ⟨h.2 (by simp [primaryPending, hr]), ?_⟩
  rw [primaryPending, List.any_eq_false]
  intro x hx hxr
  have hmem : r.nodeId ∈ rest.map (·.nodeId) :=
    List.mem_map.mpr ⟨x, hx, (beq_iff_eq.mp hxr).trans hr.symm⟩
  exact (nodup_cons.mp h.1).1 hmem

theorem TickCurrent.of_not_pending (hnodup : (rest.map (·.nodeId)).Nodup)
    (hnot : primaryPending topology rest = false) : TickCurrent p topology rest :=
  ⟨hnodup, fun hb => Bool.noConfusion (hnot.symm.trans hb)⟩

namespace ClusterInstance

variable {s s' : ClusterInstance} {threshold : Nat} {s₁ : ClusterInstance} {input : FailoverInput}
  {next : Option FailoverCall}

theorem Current.frame (h : s.Current p) (hpq : s.exposed → q = p) : s.Current q where
  monitor := h.monitor.frame fun he => hpq (by simp [exposed, he])
  tasks := fun task ht => (h.tasks task ht).frame fun he =>
    hpq (by simp [exposed, List.any_eq_true.mpr ⟨task, ht, he⟩])
  entered := h.entered
  promotes := h.promotes

/-! ## Calls -/

/-- What a step of a call leaves alone, and what it can add: a Promote
request, only if the call was still exposed. -/
theorem runCall_spec (h : s.runCall call input = some (s₁, next)) :
    s₁.monitor = s.monitor ∧ s₁.tasks = s.tasks ∧ s₁.entered = s.entered
      ∧ (∀ e ∈ s₁.promotes, e ∈ s.promotes ∨ call.beforePromote
          ∧ e.failedPrimary = call.failedPrimary ∧ e.primary = s.applied.primaryNodeId)
      ∧ ∀ call', next = some call' → call'.topology = call.topology
          ∧ call'.failedPrimary = call.failedPrimary ∧ call'.heldFor = call.heldFor
          ∧ (call'.beforePromote → call.beforePromote) := by
  obtain ⟨effect, hstep, heq⟩ := map_eq_some_iff.mp h
  obtain ⟨hs₁, rfl⟩ := Prod.mk.inj heq
  have hpromotes : ∀ e ∈ s₁.promotes, e ∈ s.promotes ∨ call.beforePromote
      ∧ e.failedPrimary = call.failedPrimary ∧ e.primary = s.applied.primaryNodeId := by
    intro e he
    cases hsent : effect.promoteSent with
    | none =>
      have hsame : s₁.promotes = s.promotes := by
        rw [← hs₁, hsent]
        cases effect.command <;> rfl
      exact .inl (hsame ▸ he)
    | some candidate =>
      have hmore : s₁.promotes
          = ⟨candidate, call.failedPrimary, s.applied.primaryNodeId⟩ :: s.promotes := by
        rw [← hs₁, hsent]
        cases effect.command <;> rfl
      rw [hmore] at he
      rcases mem_cons.mp he with rfl | he
      · exact .inr ⟨FailoverCall.beforePromote_of_promoteSent hstep hsent, rfl, rfl⟩
      · exact .inl he
  have hnext : ∀ call', effect.next.map (fun phase => { call with phase := phase }) = some call' →
      call'.topology = call.topology ∧ call'.failedPrimary = call.failedPrimary
        ∧ call'.heldFor = call.heldFor
        ∧ (call'.beforePromote → call.beforePromote) := by
    intro _ hc
    obtain ⟨_, hphase, rfl⟩ := map_eq_some_iff.mp hc
    exact ⟨rfl, rfl, rfl, FailoverCall.beforePromote_of_next hstep hphase⟩
  refine ⟨?_, ?_, ?_, hpromotes, hnext⟩
  all_goals
    rw [← hs₁]
    cases effect.command <;> rfl

theorem promotes_of_runCall
    (h : s.runCall call input = some (s₁, next)) (hs : s.Current s.applied.primaryNodeId)
    (hcall : call.Current s.applied.primaryNodeId) :
    ∀ e ∈ s₁.promotes, e.failedPrimary = e.primary := by
  intro e he
  rcases (runCall_spec h).2.2.2.1 e he with hold | ⟨hb, hfailed, hprimary⟩
  · exact hs.promotes e hold
  · rw [hfailed, hprimary, hcall.2 hb]

/-! ## Tasks -/

theorem stepTask_current (hs : s.Current s.applied.primaryNodeId)
    (htask : task.Current s.applied.primaryNodeId) {input : TaskInput}
    {next : Option Task} (h : s.stepTask task input = some (s₁, next))
    (hq : task.exposed → q = s.applied.primaryNodeId) :
    s₁.monitor = s.monitor ∧ s₁.tasks = s.tasks ∧ (∀ e ∈ s₁.entered, e.failedPrimary = e.heldFor)
      ∧ (∀ e ∈ s₁.promotes, e.failedPrimary = e.primary)
      ∧ ∀ task', next = some task' → task'.Current q := by
  have htask' := htask.frame hq
  unfold stepTask at h
  split at h
  · split at h <;> cases h
    · exact ⟨rfl, rfl, hs.entered, hs.promotes, fun _ ht => Option.some.inj ht ▸ htask'⟩
    · exact ⟨rfl, rfl, hs.entered, hs.promotes, nofun⟩
  · cases h
    exact ⟨rfl, rfl, hs.entered, hs.promotes, nofun⟩
  · cases h
    refine ⟨rfl, rfl, ?_, hs.promotes, ?_⟩
    · intro e he
      rcases mem_cons.mp he with rfl | he
      · exact htask.1
      · exact hs.entered e he
    · rintro task' ⟨⟩
      exact ⟨htask'.1, fun _ => htask'.2⟩
  · next _ input =>
    obtain ⟨⟨_, next₂⟩, hrun, heq⟩ := map_eq_some_iff.mp h
    obtain ⟨hmon, htasks, hentered, -, hnext⟩ := runCall_spec hrun
    have hprom := promotes_of_runCall hrun hs htask
    cases next₂ with
    | none =>
      cases heq
      exact ⟨hmon, htasks, hentered ▸ hs.entered, hprom, nofun⟩
    | some call' =>
      cases heq
      refine ⟨hmon, htasks, hentered ▸ hs.entered, hprom, ?_⟩
      rintro _ ⟨⟩
      obtain ⟨-, hfailed, hheld, hbefore⟩ := hnext call' rfl
      exact FailoverCall.Current.of_next htask' hfailed hheld hbefore
  · split at h <;> cases h
    · exact ⟨rfl, rfl, hs.entered, hs.promotes, nofun⟩
    · exact ⟨rfl, rfl, hs.entered, hs.promotes, fun _ ht => Option.some.inj ht ▸ trivial⟩
  · cases h
    exact ⟨rfl, rfl, hs.entered, hs.promotes, fun _ ht => Option.some.inj ht ▸ trivial⟩
  · cases h
    exact ⟨rfl, rfl, hs.entered, hs.promotes, nofun⟩
  · cases h

/-! ## The monitor -/

theorem visitResult_current (hs : s.Current s.applied.primaryNodeId)
    (htick : TickCurrent s.applied.primaryNodeId topology (r :: rest)) :
    (s.visitResult threshold topology r rest).Current s.applied.primaryNodeId := by
  unfold visitResult
  split
  · exact { hs with monitor := htick.tail }
  · dsimp only
    split
    · exact { hs with monitor := htick.tail }
    · exact { hs with monitor := htick.tail }
  · dsimp only
    split
    · next hfail =>
      simp only [Bool.and_eq_true, decide_eq_true_eq] at hfail
      obtain ⟨hprimary, hpending⟩ := htick.head hfail.1.2
      have hnode : r.nodeId = s.applied.primaryNodeId := hfail.1.2.trans hprimary
      exact { hs with monitor := ⟨hnode, hnode, htick.tail.1, hpending⟩ }
    · exact { hs with monitor := htick.tail }

theorem visitResult_applied (s : ClusterInstance) (topology : ClusterTopology)
    (r : HealthCheckResult) (rest : List HealthCheckResult) :
    (s.visitResult threshold topology r rest).applied = s.applied := by
  unfold visitResult
  split
  · rfl
  · dsimp only
    split <;> rfl
  · dsimp only
    split <;> rfl

theorem write_fields (s : ClusterInstance) (committed : Option Int) (cmd : TopologyCommand) :
    (s.write committed cmd).tasks = s.tasks ∧ (s.write committed cmd).entered = s.entered
      ∧ (s.write committed cmd).promotes = s.promotes := by
  cases committed <;> exact ⟨rfl, rfl, rfl⟩

/-! ## Every step -/

section

variable (hs : s.Current s.applied.primaryNodeId) (hs' : s.Current s'.applied.primaryNodeId)
include hs

theorem Current.step_visit (h : s.step threshold .visit = some s') :
    s'.Current s'.applied.primaryNodeId := by
  simp only [ClusterInstance.step] at h
  split at h
  · cases h
    exact { hs with monitor := trivial }
  · next topology r rest hmon =>
    cases h
    have hm := hs.monitor
    rw [hmon] at hm
    rw [visitResult_applied]
    exact visitResult_current hs hm
  · cases h

theorem Current.step_failoverRequest {failed : String}
    (hopens : s.opensOnPrimary (.failoverRequest failed) = true)
    (h : s.step threshold (.failoverRequest failed) = some s') :
    s'.Current s'.applied.primaryNodeId := by
  simp only [ClusterInstance.step] at h
  split at h
  · cases h
    exact hs
  · next hop =>
    cases h
    refine { hs with tasks := fun task ht => ?_ }
    rcases mem_cons.mp ht with rfl | ht
    · have hfailed : failed = s.applied.primaryNodeId := by simpa [opensOnPrimary, hop] using hopens
      exact ⟨hfailed, hfailed⟩
    · exact hs.tasks task ht

include hs'

theorem Current.step_wrote {committed : Option Int}
    (h : s.step threshold (.wrote committed) = some s') : s'.Current s'.applied.primaryNodeId := by
  simp only [ClusterInstance.step] at h
  split at h
  · next topology cmd _ rest hmon =>
    have hm := hs'.monitor
    rw [hmon] at hm
    obtain ⟨htasks, hentered, hpromotes⟩ := write_fields s committed cmd
    split at h <;> cases h <;>
      exact ⟨hm, htasks ▸ hs'.tasks, hentered ▸ hs.entered, hpromotes ▸ hs.promotes⟩
  · cases h

theorem Current.step_markedOffline {committed : Option Int}
    (h : s.step threshold (.markedOffline committed) = some s') :
    s'.Current s'.applied.primaryNodeId := by
  simp only [ClusterInstance.step] at h
  split at h
  · next topology nodeId heldFor rest hmon =>
    cases h
    have hm := hs.monitor
    rw [hmon] at hm
    exact { hs with monitor := TickCurrent.of_not_pending hm.2.2.1 hm.2.2.2 }
  · next topology nodeId heldFor rest now hmon =>
    cases h
    have hm := hs'.monitor
    rw [hmon] at hm
    refine ⟨⟨⟨hm.1, fun _ => hm.2.1⟩, hm.2.2⟩, hs'.tasks, ?_, hs.promotes⟩
    intro e he
    rcases mem_cons.mp he with rfl | he
    · exact hm.1
    · exact hs.entered e he
  · cases h

theorem Current.step_failover (h : s.step threshold (.failover input) = some s') :
    s'.Current s'.applied.primaryNodeId := by
  simp only [ClusterInstance.step] at h
  split at h
  · next _ rest hmon =>
    obtain ⟨⟨s₁, next⟩, hrun, heq⟩ := map_eq_some_iff.mp h
    obtain ⟨-, htasks, hentered, -, hnext⟩ := runCall_spec hrun
    have hm := hs.monitor
    have hm' := hs'.monitor
    rw [hmon] at hm hm'
    have hprom := promotes_of_runCall hrun hs hm.1
    cases next with
    | none =>
      subst heq
      exact ⟨TickCurrent.of_not_pending hm.2.1 hm.2.2, htasks ▸ hs'.tasks,
        hentered ▸ hs.entered, hprom⟩
    | some call' =>
      subst heq
      obtain ⟨htopo, hfailed, hheld, hbefore⟩ := hnext call' rfl
      exact ⟨⟨hm'.1.of_next hfailed hheld hbefore, hm.2.1, htopo ▸ hm.2.2⟩,
        htasks ▸ hs'.tasks, hentered ▸ hs.entered, hprom⟩
  · cases h

theorem Current.step_task {i : Nat} {input : TaskInput}
    (hq : s.exposed → s'.applied.primaryNodeId = s.applied.primaryNodeId)
    (h : s.step threshold (.task i input) = some s') : s'.Current s'.applied.primaryNodeId := by
  simp only [ClusterInstance.step] at h
  split at h
  · next task htask =>
    have hmem : task ∈ s.tasks := mem_of_getElem? htask
    obtain ⟨⟨_, next⟩, hrun, heq⟩ := map_eq_some_iff.mp h
    obtain ⟨hmon, htasks, hentered, hprom, hnext⟩ :=
      stepTask_current hs (hs.tasks task hmem) hrun fun he => hq (by
        rw [exposed, List.any_eq_true.mpr ⟨task, hmem, he⟩, Bool.or_true])
    cases next with
    | none =>
      subst heq
      refine ⟨hmon ▸ hs'.monitor, ?_, hentered, hprom⟩
      intro x hx
      exact hs'.tasks x (htasks ▸ mem_of_mem_eraseIdx hx)
    | some =>
      subst heq
      refine ⟨hmon ▸ hs'.monitor, ?_, hentered, hprom⟩
      intro x hx
      rcases mem_or_eq_of_mem_set hx with hx | rfl
      · exact hs'.tasks x (htasks ▸ hx)
      · exact hnext x rfl
  · cases h

end

theorem Current.step (hs : s.Current s.applied.primaryNodeId) {l : InstanceStep}
    (hl : s.Steady threshold l) (h : s.step threshold l = some s') :
    s'.Current s'.applied.primaryNodeId := by
  have hq : s.exposed → s'.applied.primaryNodeId = s.applied.primaryNodeId := fun he => hl.2 he s' h
  have hs' := hs.frame hq
  cases l with
  | commit =>
    cases h
    exact { hs' with }
  | forwardRead =>
    cases h
    exact { hs with }
  | forwardSend =>
    obtain ⟨t, -, rfl⟩ := map_eq_some_iff.mp h
    exact { hs with }
  | tick =>
    simp only [ClusterInstance.step] at h
    split at h
    · split at h
      · next hdriving =>
        cases h
        subst hdriving
        exact { hs with monitor := beq_iff_eq.mp hl.1 }
      · cases h
        exact hs
    · cases h
  | polled =>
    simp only [ClusterInstance.step] at h
    split at h
    · next topology hmon =>
      obtain ⟨hresults, ⟨⟩⟩ := ite_none_right_eq_some.mp h
      have hm := hs.monitor
      rw [hmon] at hm
      exact { hs with monitor := ⟨hresults.1, fun _ => hm⟩ }
    · cases h
  | visit => exact hs.step_visit h
  | wrote => exact hs.step_wrote hs' h
  | markedOffline => exact hs.step_markedOffline hs' h
  | failover => exact hs.step_failover hs' h
  | failoverRequest => exact hs.step_failoverRequest hl.1 h
  | switchoverRequest =>
    simp only [ClusterInstance.step] at h
    split at h
    · cases h
      refine { hs with tasks := fun task ht => ?_ }
      rcases mem_cons.mp ht with rfl | ht
      · trivial
      · exact hs.tasks task ht
    · cases h
      exact hs
  | task => exact hs.step_task hs' hq h

theorem current_of_reaches
    (h : (machine threshold t).Reaches (Steady threshold) s) : s.Current s.applied.primaryNodeId :=
  h.invariant (I := fun s => s.Current s.applied.primaryNodeId)
    ⟨trivial, fun _ hm => absurd hm not_mem_nil,
      fun _ hm => absurd hm not_mem_nil, fun _ hm => absurd hm not_mem_nil⟩
    fun _ _ _ hc hG hs => hc.step hG hs

/-- In every run of steady steps, each failover entered is against the node
that was primary when its call took the operation flag, and each Promote is
sent while the node declared failed is still the primary. -/
theorem failover_against_primary {t : ClusterTopology}
    (h : (machine threshold t).Reaches (Steady threshold) s) :
    (∀ e ∈ s.entered, e.failedPrimary = e.heldFor)
      ∧ ∀ e ∈ s.promotes, e.failedPrimary = e.primary :=
  ⟨(current_of_reaches h).entered, (current_of_reaches h).promotes⟩

open ClusterTopology (threeNodes threeNodesStatus)

/-- The primary misses one check and is failed over. -/
def failoverRun : List InstanceStep :=
  [.tick true, .polled [.unreachable "pg1"], .visit, .markedOffline (some 10),
    .failover (.positions ["pg2", "pg3"] threeNodesStatus), .failover (.promoted .success),
    .failover (.verified (.answer ⟨true, false, 50, 50⟩)), .failover (.written (some 11)),
    .failover (.recorded (some 12) 12 900), .failover .repointed, .visit]

theorem failover_against_primary_failoverRun : ∃ s, (machine 1 threeNodes).run failoverRun = some s
      ∧ s.promotes = [⟨"pg3", "pg1", "pg1"⟩] ∧ s.applied.primaryNodeId = "pg3"
      ∧ ∀ e ∈ s.entered, e.failedPrimary = e.heldFor := by
  have hrun : ∃ s, (machine 1 threeNodes).run failoverRun = some s
      ∧ s.promotes = [⟨"pg3", "pg1", "pg1"⟩] ∧ s.applied.primaryNodeId = "pg3" :=
    ⟨_, rfl, by decide, by decide⟩
  obtain ⟨s, hs, hpromotes, hprimary⟩ := hrun
  have hreach := Machine.reaches_of_run (G := Steady 1) (by decide) hs
  exact ⟨s, hs, hpromotes, hprimary, (failover_against_primary hreach).1⟩

/-- A standby is named in a request: `pg3` is promoted beside the primary. -/
def standbyRequestRun : List InstanceStep :=
  [.failoverRequest "pg2", .task 0 .readTopology, .task 0 (.markedOffline (some 10)),
    .task 0 (.failover (.positions ["pg3"] threeNodesStatus)),
    .task 0 (.failover (.promoted .success))]

/-- The primary changes while a tick is polling. -/
def staleTickRun : List InstanceStep :=
  [.tick true, .commit 9 (.setPrimary "pg2" 50 1), .polled [.unreachable "pg1"], .visit,
    .markedOffline (some 10), .failover (.positions ["pg2", "pg3"] threeNodesStatus),
    .failover (.promoted .success)]

theorem failover_beside_primary :
    (∃ s, (machine 1 { threeNodes with replicationMode := .async }).run standbyRequestRun = some s
      ∧ s.promotes = [⟨"pg3", "pg2", "pg1"⟩]
      ∧ (¬ ∀ e ∈ s.entered, e.failedPrimary = e.heldFor)
      ∧ ¬ ∀ e ∈ s.promotes, e.failedPrimary = e.primary)
    ∧ ∃ s, (machine 1 threeNodes).run staleTickRun = some s
      ∧ s.promotes = [⟨"pg3", "pg1", "pg2"⟩]
      ∧ (¬ ∀ e ∈ s.entered, e.failedPrimary = e.heldFor)
      ∧ ¬ ∀ e ∈ s.promotes, e.failedPrimary = e.primary :=
  ⟨⟨_, rfl, by decide, by decide, by decide⟩, ⟨_, rfl, by decide, by decide, by decide⟩⟩

end ClusterInstance

end PgCluster
