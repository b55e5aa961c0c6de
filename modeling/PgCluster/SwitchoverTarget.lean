import PgCluster.InstanceFailover
import PgCluster.ListUpdates
import PgCluster.TopologyWatch

/-!
# The target of a planned switchover

A switchover request reads the topology three times. `trigger_switchover`
checks the target on the first read: configured, not external, a replica and
not the primary. `wait_for_replica_sync` reads until the target's position is
close enough, where a position that is not recorded counts as 0. And
`planned_switchover` takes the snapshot that the hand-off works from, which
nobody checks again. The topology may change between any two of them.
-/

namespace PgCluster

open TopologyCommand ClusterTopology List Option

/-! ## Positions -/

namespace ClusterTopology

/-- The lag `wait_for_replica_sync` computes. -/
def switchoverLag (t : ClusterTopology) (target : String) : Nat :=
  (t.lastFlushLsns.lookup t.primaryNodeId).getD 0 - (t.lastFlushLsns.lookup target).getD 0

def positionsRecorded (t : ClusterTopology) (target : String) : Bool :=
  (t.lastFlushLsns.lookup t.primaryNodeId).isSome && (t.lastFlushLsns.lookup target).isSome

/-- Both positions are recorded, and close enough. -/
def inSync (t : ClusterTopology) (target : String) (maxLagBytes : Nat) : Bool :=
  t.positionsRecorded target && t.switchoverLag target ≤ maxLagBytes

theorem inSync_iff {t : ClusterTopology} {target : String} {maxLagBytes : Nat} :
    t.inSync target maxLagBytes ↔
      ∃ primaryLsn replicaLsn, t.lastFlushLsns.lookup t.primaryNodeId = some primaryLsn ∧
        t.lastFlushLsns.lookup target = some replicaLsn ∧
        primaryLsn - replicaLsn ≤ maxLagBytes := by
  unfold inSync positionsRecorded switchoverLag
  cases t.lastFlushLsns.lookup t.primaryNodeId with
  | none => simp
  | some =>
    cases t.lastFlushLsns.lookup target with
    | none | some => simp

end ClusterTopology

/-! ## Requests -/

/-- Where a request is: checked by the handler, in the wait, past it, or
over. -/
inductive SwitchoverPhase where
  | checked
  | waiting
  | ready
  | ended
deriving DecidableEq

structure SwitchoverRequest where
  target : String
  maxLagBytes : Nat
  phase : SwitchoverPhase
deriving DecidableEq

/-- A call of `execute_switchover`. -/
structure SwitchoverStart where
  topology : ClusterTopology
  target : String
  maxLagBytes : Nat

/-- `started` is ghost: the calls of `execute_switchover` so far. -/
structure SwitchoverState where
  views : TopologyViews
  requests : List SwitchoverRequest
  started : List SwitchoverStart

/-- `free`: the request gets `op_in_progress`. `expired`: its time is up. -/
inductive SwitchoverLabel where
  | commit (now : Int) (cmd : TopologyCommand)
  | forwardRead
  | forwardSend
  | request (target : String) (maxLagBytes : Nat)
  | acquire (i : Nat) (free : Bool)
  | read (i : Nat) (expired : Bool)
  | start (i : Nat)
deriving DecidableEq

namespace SwitchoverState

def setPhase (s : SwitchoverState) (i : Nat) (r : SwitchoverRequest) (phase : SwitchoverPhase) :
    SwitchoverState :=
  { s with requests := s.requests.set i { r with phase := phase } }

/-- One round of the loop of `wait_for_replica_sync`. -/
def readPhase (t : ClusterTopology) (r : SwitchoverRequest) (expired : Bool) : SwitchoverPhase :=
  if expired then .ended
  else if t.switchoverLag r.target ≤ r.maxLagBytes then .ready
  else .waiting

def step (s : SwitchoverState) : SwitchoverLabel → Option SwitchoverState
  | .commit now cmd => some { s with views := s.views.commit now cmd }
  | .forwardRead => some { s with views := s.views.forwardRead }
  | .forwardSend => s.views.forwardSend.map fun views => { s with views := views }
  | .request target maxLagBytes =>
    if ClusterInstance.switchoverAllowed s.views.watched target then
      some { s with requests := s.requests ++ [⟨target, maxLagBytes, .checked⟩] }
    else some s
  | .acquire i free =>
    s.requests[i]?.bind fun r =>
      if r.phase = .checked then some (s.setPhase i r (if free then .waiting else .ended))
      else none
  | .read i expired =>
    s.requests[i]?.bind fun r =>
      if r.phase = .waiting then some (s.setPhase i r (readPhase s.views.watched r expired))
      else none
  | .start i =>
    s.requests[i]?.bind fun r =>
      if r.phase = .ready then
        some { s.setPhase i r .ended with
          started := ⟨s.views.watched, r.target, r.maxLagBytes⟩ :: s.started }
      else none

def machine (t : ClusterTopology) : Machine SwitchoverState SwitchoverLabel :=
  ⟨⟨.start t, [], []⟩, step⟩

end SwitchoverState

/-! ## Commands that disturb a request -/

/-- The command makes `target` primary, external or no replica, or removes
it. -/
def TopologyCommand.spoils (target : String) : TopologyCommand → Bool
  | .setPrimary nodeId _ _ => nodeId = target
  | .markOffline nodeId => nodeId = target
  | .markMaintenance nodeId => nodeId = target
  | .removeNode nodeId => nodeId = target
  | .addNode cfg => cfg.nodeId = target && cfg.isExternal
  | _ => false

/-- The command changes who is primary, or the position of one of the two. -/
def TopologyCommand.movesPositions (primary target : String) : TopologyCommand → Bool
  | .setPrimary .. => true
  | .markReplica nodeId _ => nodeId = primary || nodeId = target
  | .updateFlushLsn nodeId _ _ => nodeId = primary || nodeId = target
  | .removeNode nodeId => nodeId = primary || nodeId = target
  | _ => false

namespace ClusterTopology

open ClusterInstance (switchoverAllowed)

variable {t : ClusterTopology} {target : String} {cmd : TopologyCommand} {now : Int}

theorem switchoverAllowed_iff :
    switchoverAllowed t target ↔ t.isMember target ∧ t.primaryNodeId ≠ target ∧
        t.nodeRoles.lookup target = some .replica := by
  simp [switchoverAllowed, and_assoc]

theorem switchoverAllowed_applyCommand (h : switchoverAllowed t target)
    (hcmd : cmd.spoils target = false) : switchoverAllowed (t.applyCommand now cmd) target := by
  obtain ⟨hmember, hprimary, hrole⟩ := switchoverAllowed_iff.mp h
  rw [switchoverAllowed_iff]
  cases cmd with
  | setPrimary nodeId =>
    have hne : nodeId ≠ target := by simpa [spoils] using hcmd
    refine ⟨hmember, hne, ?_⟩
    simp only [applyCommand, commandEffect]
    rw [Finmap.lookup_insert_of_ne _ (Ne.symm hne)]
    split
    · rwa [Finmap.lookup_insert_of_ne _ (Ne.symm hprimary)]
    · exact hrole
  | markOffline nodeId | markMaintenance nodeId =>
    have hne : nodeId ≠ target := by simpa [spoils] using hcmd
    exact ⟨hmember, hprimary, (Finmap.lookup_insert_of_ne _ (Ne.symm hne)).trans hrole⟩
  | markReplica nodeId =>
    refine ⟨hmember, hprimary, ?_⟩
    by_cases hne : nodeId = target
    · subst hne
      exact Finmap.lookup_insert _
    · exact (Finmap.lookup_insert_of_ne _ (Ne.symm hne)).trans hrole
  | removeNode nodeId =>
    have hne : nodeId ≠ target := by simpa [spoils] using hcmd
    refine ⟨?_, hprimary, ?_⟩
    · simpa [isMember, applyCommand, commandEffect, Finmap.lookup_erase_ne hne.symm] using hmember
    · exact (Finmap.lookup_erase_ne hne.symm).trans hrole
  | addNode cfg =>
    refine ⟨?_, hprimary, ?_⟩
    · by_cases hne : cfg.nodeId = target
      · subst hne
        have hinternal : cfg.isExternal = false := by simpa [spoils] using hcmd
        simp [isMember, applyCommand, commandEffect, hinternal]
      · simpa [isMember, applyCommand, commandEffect, Finmap.lookup_insert_of_ne, Ne.symm hne]
          using hmember
    · simp only [applyCommand, commandEffect]
      split
      · exact hrole
      · rename_i hnew
        by_cases hne : cfg.nodeId = target
        · subst hne
          exact absurd (Finmap.mem_iff.mpr ⟨_, hrole⟩) hnew
        · exact (Finmap.lookup_insert_of_ne _ (Ne.symm hne)).trans hrole
  | _ => exact ⟨hmember, hprimary, hrole⟩

theorem inSync_applyCommand {maxLagBytes : Nat}
    (hcmd : cmd.movesPositions t.primaryNodeId target = false) :
    (t.applyCommand now cmd).inSync target maxLagBytes = t.inSync target maxLagBytes := by
  cases cmd with
  | setPrimary => cases hcmd
  | markReplica nodeId | updateFlushLsn nodeId =>
    obtain ⟨hprimary, htarget⟩ : nodeId ≠ t.primaryNodeId ∧ nodeId ≠ target := by
      simpa [movesPositions] using hcmd
    simp [inSync, positionsRecorded, switchoverLag, applyCommand, commandEffect,
      Finmap.lookup_insert_of_ne, hprimary.symm, htarget.symm]
  | removeNode nodeId =>
    obtain ⟨hprimary, htarget⟩ : nodeId ≠ t.primaryNodeId ∧ nodeId ≠ target := by
      simpa [movesPositions] using hcmd
    simp [inSync, positionsRecorded, switchoverLag, applyCommand, commandEffect,
      Finmap.lookup_erase_ne hprimary.symm, Finmap.lookup_erase_ne htarget.symm]
  | _ => rfl

end ClusterTopology

/-- In the snapshot of the hand-off, the target is another node than the
primary, configured, not external and a replica, and both positions are
recorded and close enough. -/
def SwitchoverStart.Eligible (e : SwitchoverStart) : Prop :=
  e.target ≠ e.topology.primaryNodeId ∧
  (∃ cfg, e.topology.nodeConfigs.lookup e.target = some cfg ∧ cfg.isExternal = false) ∧
  e.topology.nodeRoles.lookup e.target = some .replica ∧
  ∃ primaryLsn replicaLsn,
    e.topology.lastFlushLsns.lookup e.topology.primaryNodeId = some primaryLsn ∧
    e.topology.lastFlushLsns.lookup e.target = some replicaLsn ∧
    primaryLsn - replicaLsn ≤ e.maxLagBytes

theorem SwitchoverStart.eligible_iff {e : SwitchoverStart} :
    e.Eligible ↔ ClusterInstance.switchoverAllowed e.topology e.target ∧
      e.topology.inSync e.target e.maxLagBytes := by
  rw [Eligible, switchoverAllowed_iff, isMember_iff, inSync_iff, ne_comm]
  tauto

/-! ## Undisturbed requests -/

namespace SwitchoverState

open ClusterInstance (switchoverAllowed)

/-- No command spoils the target of a request under way, or moves a position
it has just waited for; a request is checked, and its wait ends, on a watch
that has caught up, with both positions recorded. -/
def undisturbed (s : SwitchoverState) : SwitchoverLabel → Bool
  | .commit _ cmd =>
    s.requests.all fun r => r.phase = .ended || !cmd.spoils r.target &&
        (r.phase ≠ .ready || !cmd.movesPositions s.views.applied.primaryNodeId r.target)
  | .request .. => s.views.caughtUp
  | .read i _ =>
    (s.requests[i]?).all fun r =>
      r.maxLagBytes < s.views.watched.switchoverLag r.target
        || s.views.caughtUp && s.views.watched.positionsRecorded r.target
  | _ => true

/-- What the views show to a request under way. -/
structure RequestOk (views : TopologyViews) (r : SwitchoverRequest) : Prop where
  allowed : r.phase ≠ .ended → views.All fun t => switchoverAllowed t r.target = true
  inSync : r.phase = .ready → views.All fun t => t.inSync r.target r.maxLagBytes = true

structure Inv (s : SwitchoverState) : Prop where
  requests : ∀ r ∈ s.requests, RequestOk s.views r
  started : ∀ e ∈ s.started, e.Eligible

variable {s s' : SwitchoverState} {l : SwitchoverLabel} {r : SwitchoverRequest} {i : Nat}
  {phase : SwitchoverPhase} {views : TopologyViews}

theorem RequestOk.ended (r : SwitchoverRequest) : RequestOk views { r with phase := .ended } :=
  ⟨fun h => absurd rfl h, nofun⟩

theorem RequestOk.mono (h : RequestOk s.views r)
    (hviews : ∀ P : ClusterTopology → Prop, s.views.All P → views.All P) : RequestOk views r :=
  ⟨fun hphase => hviews _ (h.allowed hphase), fun hphase => hviews _ (h.inSync hphase)⟩

theorem Inv.setPhase (h : s.Inv) (hr : RequestOk s.views { r with phase := phase }) :
    (s.setPhase i r phase).Inv := by
  refine ⟨fun r' hr' => ?_, h.started⟩
  rcases mem_or_eq_of_mem_set hr' with hold | rfl
  · exact h.requests r' hold
  · exact hr

theorem RequestOk.commit {now : Int} {cmd : TopologyCommand} (h : RequestOk s.views r)
    (hr : r ∈ s.requests) (hcmd : s.undisturbed (.commit now cmd)) :
    RequestOk (s.views.commit now cmd) r := by
  have hquiet := all_eq_true.mp hcmd r hr
  simp only [Bool.or_eq_true, Bool.and_eq_true, decide_eq_true_iff, Bool.not_eq_true'] at hquiet
  refine ⟨fun hphase => ?_, fun hphase => ?_⟩
  · have hall := h.allowed hphase
    obtain ⟨hspoils, -⟩ := hquiet.resolve_left hphase
    exact hall.commit (switchoverAllowed_applyCommand hall.applied hspoils)
  · have hall := h.inSync hphase
    have hunder : ¬ r.phase = .ended := by simp [hphase]
    obtain ⟨-, hmoves⟩ := hquiet.resolve_left hunder
    have hmoves := hmoves.resolve_left (fun hne => hne hphase)
    exact hall.commit ((inSync_applyCommand hmoves).trans hall.applied)

theorem Inv.read {expired : Bool} (h : s.Inv) (hr : s.requests[i]? = some r)
    (hphase : r.phase = .waiting) (hquiet : s.undisturbed (.read i expired)) :
    (s.setPhase i r (readPhase s.views.watched r expired)).Inv := by
  have hok := h.requests r (mem_of_getElem? hr)
  have hallowed := hok.allowed (by simp [hphase])
  refine h.setPhase ?_
  unfold readPhase
  split
  · exact .ended r
  · split
    · rename_i hlag
      have hquiet : s.views.caughtUp ∧ s.views.watched.positionsRecorded r.target := by
        simpa [undisturbed, hr, Nat.not_lt.mpr hlag] using hquiet
      refine ⟨fun _ => hallowed, fun _ => TopologyViews.all_of_caughtUp hquiet.1 ?_⟩
      simp [inSync, hquiet.2, hlag]
    · exact ⟨fun _ => hallowed, nofun⟩

theorem Inv.step (h : s.Inv) (hquiet : s.undisturbed l) (hstep : s.step l = some s') : s'.Inv := by
  cases l with
  | commit =>
    cases hstep
    exact ⟨fun r hr => (h.requests r hr).commit hr hquiet, h.started⟩
  | forwardRead =>
    cases hstep
    exact ⟨fun r hr => (h.requests r hr).mono fun _ hall => hall.forwardRead, h.started⟩
  | forwardSend =>
    obtain ⟨_, hsend, rfl⟩ := map_eq_some_iff.mp hstep
    exact ⟨fun r hr => (h.requests r hr).mono fun _ hall => hall.forwardSend hsend, h.started⟩
  | request target =>
    by_cases hallowed : switchoverAllowed s.views.watched target
    · simp only [SwitchoverState.step, hallowed, if_true] at hstep
      cases hstep
      refine ⟨fun r hr => ?_, h.started⟩
      rcases mem_append.mp hr with hold | hnew
      · exact h.requests r hold
      · rw [mem_singleton.mp hnew]
        exact ⟨fun _ => TopologyViews.all_of_caughtUp hquiet hallowed, nofun⟩
    · simp only [SwitchoverState.step, hallowed, Bool.false_eq_true, if_false] at hstep
      cases hstep
      exact h
  | acquire _ free =>
    obtain ⟨r, hr, hstep⟩ := bind_eq_some_iff.mp hstep
    obtain ⟨hphase, rfl⟩ := ite_some_none_eq_some.mp hstep
    have hallowed := (h.requests r (mem_of_getElem? hr)).allowed (by simp [hphase])
    refine h.setPhase ?_
    cases free with
    | false => exact .ended r
    | true => exact ⟨fun _ => hallowed, nofun⟩
  | read =>
    obtain ⟨r, hr, hstep⟩ := bind_eq_some_iff.mp hstep
    obtain ⟨hphase, rfl⟩ := ite_some_none_eq_some.mp hstep
    exact h.read hr hphase hquiet
  | start i =>
    obtain ⟨r, hr, hstep⟩ := bind_eq_some_iff.mp hstep
    obtain ⟨hphase, rfl⟩ := ite_some_none_eq_some.mp hstep
    have hok := h.requests r (mem_of_getElem? hr)
    have hset : (s.setPhase i r .ended).Inv := h.setPhase (.ended r)
    refine ⟨hset.requests, fun e he => ?_⟩
    rcases mem_cons.mp he with rfl | hold
    · exact SwitchoverStart.eligible_iff.mpr
        ⟨(hok.allowed (by simp [hphase])).watched, (hok.inSync hphase).watched⟩
    · exact h.started e hold

end SwitchoverState

/-- A hand-off that an undisturbed request starts has an eligible target in
the snapshot it works from. -/
theorem switchover_target_eligible {t : ClusterTopology} {s : SwitchoverState}
    (hs : (SwitchoverState.machine t).Reaches (fun s l => s.undisturbed l = true) s) :
    ∀ e ∈ s.started, e.Eligible := by
  have hinv : s.Inv := hs.invariant
    ⟨forall_mem_nil _, forall_mem_nil _⟩ fun _ _ _ h hquiet hstep => h.step hquiet hstep
  exact hinv.started

/-! ## Runs -/

def switchoverNode (id : String) : NodeConfig :=
  ⟨id, "127.0.0.1:7010", "127.0.0.1:5432", 100, ∅⟩

/-- `pg1` is primary and `pg2` its replica; `lsns` are the positions that are
recorded. -/
def replicated (lsns : HashMap String Nat) : ClusterTopology :=
  { ClusterTopology.empty with
    primaryNodeId := "pg1"
    nodeRoles := ((∅ : HashMap String NodeRole).insert "pg1" .primary).insert "pg2" .replica
    nodeConfigs := ((∅ : HashMap String NodeConfig).insert "pg1" (switchoverNode "pg1")).insert
      "pg2" (switchoverNode "pg2")
    lastFlushLsns := lsns }

def positions (primaryLsn replicaLsn : Nat) : HashMap String Nat :=
  ((∅ : HashMap String Nat).insert "pg1" primaryLsn).insert "pg2" replicaLsn

/-- The target catches up during the wait. -/
theorem switchover_target_eligible_caught_up :
    ∃ s, (SwitchoverState.machine (replicated (positions 900 100))).run
        [.request "pg2" 10, .acquire 0 true, .read 0 false,
          .commit 1 (.updateFlushLsn "pg2" 895 895), .forwardRead, .forwardSend,
          .read 0 false, .start 0] = some s ∧
      ∃ e ∈ s.started, e.target = "pg2" ∧ e.Eligible := by
  obtain ⟨s, hs, e, he, htarget⟩ :=
    (SwitchoverState.machine (replicated (positions 900 100))).exists_run
      [.request "pg2" 10, .acquire 0 true, .read 0 false,
        .commit 1 (.updateFlushLsn "pg2" 895 895), .forwardRead, .forwardSend,
        .read 0 false, .start 0] (fun s => ∃ e ∈ s.started, e.target = "pg2") (by decide +kernel)
  exact ⟨s, hs, e, he, htarget,
    switchover_target_eligible (Machine.reaches_of_run (by decide +kernel) hs) e he⟩

/-- A hand-off was started with a target that is not eligible. -/
def SwitchoverState.startedIneligible (s : SwitchoverState) : Bool :=
  s.started.any fun e =>
    !(ClusterInstance.switchoverAllowed e.topology e.target
      && e.topology.inSync e.target e.maxLagBytes)

theorem SwitchoverState.startedIneligible_spec (s : SwitchoverState)
    (h : s.startedIneligible) : ∃ e ∈ s.started, ¬ e.Eligible := by
  obtain ⟨e, he, hill⟩ := any_eq_true.mp h
  refine ⟨e, he, fun heligible => ?_⟩
  obtain ⟨hallowed, hsync⟩ := SwitchoverStart.eligible_iff.mp heligible
  rw [hallowed, hsync] at hill
  cases hill

/-- Three hand-offs to a target that is not eligible. No position is
recorded, so both count as 0, and nothing else happens at all; the target is
marked offline during the wait; the primary's position moves on between the
last read of the wait and the snapshot. -/
theorem switchover_target_ineligible : (∃ s, (SwitchoverState.machine (replicated ∅)).run
        [.request "pg2" 10, .acquire 0 true, .read 0 false, .start 0] = some s ∧
      (SwitchoverState.machine (replicated ∅)).Reachable s ∧ ∃ e ∈ s.started, ¬ e.Eligible) ∧
    (∃ s, (SwitchoverState.machine (replicated (positions 900 100))).run
        [.request "pg2" 10, .acquire 0 true, .read 0 false,
          .commit 1 (.updateFlushLsn "pg2" 895 895), .commit 2 (.markOffline "pg2"),
          .forwardRead, .forwardSend, .read 0 false, .start 0] = some s ∧
      (SwitchoverState.machine (replicated (positions 900 100))).Reachable s ∧
      ∃ e ∈ s.started, ¬ e.Eligible) ∧
    (∃ s, (SwitchoverState.machine (replicated (positions 900 900))).run
        [.request "pg2" 10, .acquire 0 true, .read 0 false,
          .commit 1 (.updateFlushLsn "pg1" 5000 5000), .forwardRead, .forwardSend,
          .start 0] = some s ∧
      (SwitchoverState.machine (replicated (positions 900 900))).Reachable s ∧
      ∃ e ∈ s.started, ¬ e.Eligible) := by
  refine ⟨?_, ?_, ?_⟩
  all_goals
    exact Machine.exists_of_run (by decide +kernel) SwitchoverState.startedIneligible_spec

end PgCluster
