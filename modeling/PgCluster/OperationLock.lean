import PgCluster.ListUpdates
import PgCluster.Machine

/-!
# The operation flag

`op_in_progress` is taken by five operations of an instance: the monitor's
automatic failover, and the API's failover, switchover, rolling restart and
detach. All take it by `compare_exchange`. They give it back in three ways.
The tasks that the failover, switchover and restart handlers spawn hold an
`OpGuard`, which gives it back when the task ends, by a panic too. The
monitor and the detach handler store `false` after their last await. Whoever
panics there, or is dropped there as a request whose client went away is,
gives nothing back.

An operation moves from await to await. What happens inside an awaited call
does not touch the flag, so a call is one phase, however long it takes.
`start_restart` and the other handlers have no await between taking the flag
and spawning their task, but other threads do run there.
-/

namespace PgCluster

open Option

/-! ## Operations -/

inductive OpKind where
  | automaticFailover
  | failover
  | switchover
  | restart
  | detach
deriving DecidableEq

/-- The calls the operations await while they hold the flag. -/
inductive OpCall where
  | markOffline
  | triggerFailover
  | plannedSwitchover
  | rollingRestart
  | getOrConnect
  | agentDetach
  | removeNode
  | dropSlot
deriving DecidableEq

/-- Where an operation is: before its `compare_exchange`, holding the flag
before its first await, at an await, about to store `false`, or over. -/
inductive OpPhase where
  | entered
  | acquired
  | awaiting (call : OpCall)
  | releasing
  | ended
deriving DecidableEq

structure Operation where
  kind : OpKind
  phase : OpPhase
deriving DecidableEq

namespace OpKind

/-- The operation runs in a task of its own, under an `OpGuard`. -/
def guarded : OpKind → Bool
  | .automaticFailover => false
  | .failover => true
  | .switchover => true
  | .restart => true
  | .detach => false

/-- The first await, once the operation has its topology. `known`: the
failover's node is in it. -/
def firstAwait (kind : OpKind) (known : Bool) : OpPhase :=
  match kind with
  | .automaticFailover => .awaiting .markOffline
  | .failover => if known then .awaiting .markOffline else .releasing
  | .switchover => .awaiting .plannedSwitchover
  | .restart => .awaiting .rollingRestart
  | .detach => .awaiting .getOrConnect

end OpKind

def OpCall.returned (call : OpCall) (ok : Bool) : OpPhase :=
  match call with
  | .markOffline => if ok then .awaiting .triggerFailover else .releasing
  | .getOrConnect => if ok then .awaiting .agentDetach else .releasing
  | .agentDetach => if ok then .awaiting .removeNode else .releasing
  | .removeNode => if ok then .awaiting .dropSlot else .releasing
  | .triggerFailover => .releasing
  | .plannedSwitchover => .releasing
  | .rollingRestart => .releasing
  | .dropSlot => .releasing

namespace Operation

/-- Between its acquisition and its release of the flag. -/
def holds (op : Operation) : Bool :=
  match op.phase with
  | .entered => false
  | .acquired => true
  | .awaiting _ => true
  | .releasing => true
  | .ended => false

/-- A panic in an awaited call unwinds through the guard, if there is one. -/
def panicked (op : Operation) : Operation :=
  { op with phase := if op.kind.guarded then .releasing else .ended }

end Operation

/-! ## The instance -/

/-- `exiting`: the monitor's task is over, and the instance ends with it. -/
structure OpState where
  opInProgress : Bool
  ops : List Operation
  exiting : Bool
deriving DecidableEq

inductive OpLabel where
  | start (kind : OpKind)
  | acquire (i : Nat)
  | proceed (i : Nat) (known : Bool)
  | returned (i : Nat) (ok : Bool)
  | panic (i : Nat)
  | dropped (i : Nat)
  | release (i : Nat)
  | exit
deriving DecidableEq

namespace OpState

def start : OpState := ⟨false, [], false⟩

/-- The monitor is one task, and takes one primary after the other. -/
def monitorFree (s : OpState) : Bool :=
  !s.exiting && s.ops.all fun op => op.kind ≠ .automaticFailover || op.phase = .ended

def setPhase (s : OpState) (i : Nat) (op : Operation) (phase : OpPhase) : OpState :=
  { s with ops := s.ops.set i { op with phase := phase } }

def step (s : OpState) : OpLabel → Option OpState
  | .start kind =>
    if kind = .automaticFailover ∧ s.monitorFree = false then none
    else some { s with ops := s.ops ++ [⟨kind, .entered⟩] }
  | .acquire i =>
    s.ops[i]?.bind fun op =>
      if op.phase = .entered then
        if s.opInProgress then some (s.setPhase i op .ended)
        else some { s.setPhase i op .acquired with opInProgress := true }
      else none
  | .proceed i known =>
    s.ops[i]?.bind fun op =>
      if op.phase = .acquired then some (s.setPhase i op (op.kind.firstAwait known)) else none
  | .returned i ok =>
    s.ops[i]?.bind fun op =>
      match op.phase with
      | .awaiting call => some (s.setPhase i op (call.returned ok))
      | _ => none
  | .panic i =>
    s.ops[i]?.bind fun op =>
      match op.phase with
      | .awaiting _ => some
          { s with
            ops := s.ops.set i op.panicked
            exiting := s.exiting || op.kind = .automaticFailover }
      | _ => none
  | .dropped i =>
    -- Of the requests only a detach awaits anything while it holds the flag.
    s.ops[i]?.bind fun op =>
      match op.kind, op.phase with
      | .detach, .awaiting _ => some (s.setPhase i op .ended)
      | _, _ => none
  | .release i =>
    s.ops[i]?.bind fun op =>
      if op.phase = .releasing then
        some { s.setPhase i op .ended with opInProgress := false }
      else none
  | .exit => if s.exiting then some start else none

def machine : Machine OpState OpLabel := ⟨start, step⟩

/-- How many operations hold the flag. -/
def holders (s : OpState) : Nat := s.ops.countP Operation.holds

/-- A holder ends without giving the flag back: a panic where there is no
guard, or a request that is dropped. -/
def leaks (s : OpState) : OpLabel → Bool
  | .panic i => s.ops[i]?.any fun op => !op.kind.guarded
  | .dropped _ => true
  | _ => false

/-! ## What a step does to the flag and its holders -/

/-- The flag and the number of holders, before and after a step. -/
inductive Moves (s : OpState) (l : OpLabel) (s' : OpState) : Prop where
  | keep (hflag : s'.opInProgress = s.opInProgress) (hholders : s'.holders = s.holders)
  | take (hfree : s.opInProgress = false) (hflag : s'.opInProgress = true)
      (hholders : s'.holders = s.holders + 1)
  | give (hflag : s'.opInProgress = false) (hholders : s'.holders + 1 = s.holders)
  | leak (hleaks : s.leaks l = true) (hflag : s'.opInProgress = s.opInProgress)
      (hholders : s'.holders + 1 = s.holders)
  | restart (hflag : s'.opInProgress = false) (hholders : s'.holders = 0)

variable {s s' : OpState} {l : OpLabel} {i j : Nat} {op op' : Operation}

theorem holders_set (hop : s.ops[i]? = some op) (op' : Operation) :
    (s.ops.set i op').countP Operation.holds + one Operation.holds op
      = s.holders + one Operation.holds op' :=
  countP_set_add hop

theorem holders_set_same (hop : s.ops[i]? = some op) (h : op'.holds = op.holds) :
    (s.ops.set i op').countP Operation.holds = s.holders := by
  have hset := holders_set hop op'
  rw [one, one, h] at hset
  exact Nat.add_right_cancel hset

theorem holders_set_ended (hop : s.ops[i]? = some op) (h : op.holds)
    (h' : op'.holds = false) : (s.ops.set i op').countP Operation.holds + 1 = s.holders := by
  have hset := holders_set hop op'
  rwa [one_of_true h, one_of_false h', Nat.add_zero] at hset

theorem firstAwait_holds (kind : OpKind) (known : Bool) :
    Operation.holds ⟨kind, kind.firstAwait known⟩ := by
  cases kind <;> cases known <;> rfl

theorem returned_holds (kind : OpKind) (call : OpCall) (ok : Bool) :
    Operation.holds ⟨kind, call.returned ok⟩ := by
  cases call <;> cases ok <;> rfl

theorem holds_of_phase {phase : OpPhase} (h : op.phase = phase) :
    op.holds = Operation.holds ⟨op.kind, phase⟩ := by
  rw [← h]

theorem moves_of_step (h : s.step l = some s') : Moves s l s' := by
  cases l with
  | start =>
    obtain ⟨-, h⟩ := ite_none_left_eq_some.mp h
    cases h
    refine .keep rfl ?_
    exact countP_append_singleton
  | acquire =>
    obtain ⟨op, hop, h⟩ := bind_eq_some_iff.mp h
    obtain ⟨hphase, h⟩ := ite_none_right_eq_some.mp h
    have hholds : op.holds = false := holds_of_phase hphase
    split at h
    · cases h
      exact .keep rfl (holders_set_same hop hholds.symm)
    · rename_i hflag
      cases h
      refine .take ((Bool.not_eq_true _).mp hflag) rfl ?_
      have hset := holders_set hop { op with phase := .acquired }
      rwa [one_of_false hholds, one_of_true rfl] at hset
  | proceed =>
    obtain ⟨op, hop, h⟩ := bind_eq_some_iff.mp h
    obtain ⟨hphase, rfl⟩ := ite_some_none_eq_some.mp h
    have hholds : op.holds := holds_of_phase hphase
    exact .keep rfl (holders_set_same hop ((firstAwait_holds _ _).trans hholds.symm))
  | returned =>
    obtain ⟨op, hop, h⟩ := bind_eq_some_iff.mp h
    split at h
    · rename_i call hphase
      cases h
      have hholds : op.holds := holds_of_phase hphase
      exact .keep rfl (holders_set_same hop ((returned_holds _ _ _).trans hholds.symm))
    · cases h
  | panic =>
    obtain ⟨op, hop, h⟩ := bind_eq_some_iff.mp h
    split at h
    · rename_i call hphase
      cases h
      have hholds : op.holds := holds_of_phase hphase
      cases hguarded : op.kind.guarded with
      | true =>
        have hpanicked : op.panicked.holds := by
          simp [Operation.panicked, Operation.holds, hguarded]
        exact .keep rfl (holders_set_same hop (hpanicked.trans hholds.symm))
      | false =>
        have hpanicked : op.panicked.holds = false := by
          simp [Operation.panicked, Operation.holds, hguarded]
        refine .leak ?_ rfl (holders_set_ended hop hholds hpanicked)
        simp [leaks, hop, hguarded]
    · cases h
  | dropped =>
    obtain ⟨op, hop, h⟩ := bind_eq_some_iff.mp h
    split at h
    · rename_i call _ hphase
      cases h
      exact .leak rfl rfl (holders_set_ended hop (holds_of_phase hphase) rfl)
    · cases h
  | release =>
    obtain ⟨_, hop, h⟩ := bind_eq_some_iff.mp h
    obtain ⟨hphase, rfl⟩ := ite_some_none_eq_some.mp h
    exact .give rfl (holders_set_ended hop (holds_of_phase hphase) rfl)
  | exit =>
    obtain ⟨-, rfl⟩ := ite_some_none_eq_some.mp h
    exact .restart rfl rfl

/-! ## Whole runs -/

/-- The flag bounds its holders, whatever happens: whoever takes it found it
free, and only a holder frees it. -/
theorem holders_le (h : machine.Reachable s) : s.holders ≤ s.opInProgress.toNat := by
  refine h.invariant (I := fun s => s.holders ≤ s.opInProgress.toNat) (Nat.le_refl 0) ?_
  intro s l _ hle _ hstep
  cases moves_of_step hstep with
  | keep hflag hholders => rwa [hflag, hholders]
  | take hfree hflag hholders =>
    rw [hfree] at hle
    rw [hflag, hholders]
    exact Nat.succ_le_succ hle
  | give =>
    have hone : s.opInProgress.toNat ≤ 1 := Bool.toNat_le _
    omega
  | leak _ hflag =>
    rw [hflag]
    omega
  | restart => omega

/-- Where nobody leaks it, the flag is exactly the number of its holders. -/
theorem holders_eq (h : machine.Reaches (fun s l => s.leaks l = false) s) :
    s.holders = s.opInProgress.toNat := by
  refine h.invariant (I := fun s => s.holders = s.opInProgress.toNat) rfl ?_
  intro s l _ heq hleaks hstep
  cases moves_of_step hstep with
  | keep hflag hholders => rwa [hflag, hholders]
  | take hfree hflag hholders => rw [hholders, heq, hfree, hflag]; rfl
  | give hflag =>
    have hone : s.opInProgress.toNat ≤ 1 := Bool.toNat_le _
    rw [hflag, Bool.toNat_false]
    omega
  | leak hleak =>
    rw [hleaks] at hleak
    cases hleak
  | restart hflag hholders => rw [hflag, hholders]; rfl

theorem exists_holder (h : 0 < s.holders) : ∃ op ∈ s.ops, op.holds :=
  List.countP_pos_iff.mp h

theorem eq_of_holds (hle : s.holders ≤ 1) (hi : s.ops[i]? = some op)
    (hj : s.ops[j]? = some op') (h : op.holds) (h' : op'.holds) : i = j := by
  by_contra hne
  -- Take the flag from the first: the second still counts.
  let ended : Operation := { op with phase := .ended }
  have hset : (s.ops.set i ended).countP Operation.holds + 1 = s.holders :=
    holders_set_ended hi h rfl
  have hj' : (s.ops.set i ended)[j]? = some op' := by rw [List.getElem?_set_ne hne, hj]
  have hone : one Operation.holds op' ≤ _ := one_le_countP hj'
  rw [one_of_true h'] at hone
  omega

end OpState

/-- At most one operation is between its acquisition and its release of the
flag, in every run. And as long as no holder ends at an await without a
guard (a panic in the monitor's failover or in a detach, a detach whose
request is dropped), the flag is up only while one of them is still
running. -/
theorem op_lock_discipline {s : OpState} (hs : OpState.machine.Reachable s) :
    (∀ (i j : Nat) (op op' : Operation), s.ops[i]? = some op → s.ops[j]? = some op' →
      op.holds = true → op'.holds = true → i = j) ∧
    (OpState.machine.Reaches (fun s l => s.leaks l = false) s →
      s.opInProgress = true → ∃ op ∈ s.ops, op.holds = true) := by
  constructor
  · intro _ _ _ _ hi hj h h'
    have hle : s.holders ≤ 1 := Nat.le_trans (OpState.holders_le hs) (Bool.toNat_le _)
    exact OpState.eq_of_holds hle hi hj h h'
  · intro hkept hflag
    have heq := OpState.holders_eq hkept
    rw [hflag] at heq
    exact OpState.exists_holder (heq ▸ Nat.one_pos)

/-- A failover request whose Raft write panics, and a detach that was turned
away before it: the guard is about to give the flag back. -/
theorem op_lock_discipline_panic :
    ∃ s, OpState.machine.run [.start .failover, .start .detach, .acquire 0, .acquire 1,
        .proceed 0 true, .panic 0] = some s ∧
      s.opInProgress = true ∧ ∃ op ∈ s.ops, op.holds = true := by
  obtain ⟨s, hs, hflag⟩ := OpState.machine.exists_run [.start .failover, .start .detach,
    .acquire 0, .acquire 1, .proceed 0 true, .panic 0] (·.opInProgress) (by decide)
  have hkept := Machine.reaches_of_run (G := fun s l => s.leaks l = false) (by decide) hs
  exact ⟨s, hs, hflag, (op_lock_discipline hkept.reachable).2 hkept hflag⟩

/-- The flag is up and every operation is over. -/
def OpState.stuck (s : OpState) : Bool :=
  s.opInProgress && s.ops.all fun op => op.phase = .ended

theorem OpState.stuck_spec (s : OpState) (h : s.stuck) :
    s.opInProgress ∧ ∀ op ∈ s.ops, op.phase = .ended := by
  simpa [stuck] using h

/-- A detach whose client goes away while the agent is asked, and an
automatic failover whose Raft write panics, leave the flag up with nothing
running. After the first, every later failover, automatic or not, is turned
away. -/
theorem op_lock_leaked :
    (∃ s, OpState.machine.run [.start .detach, .acquire 0, .proceed 0 true, .returned 0 true,
        .dropped 0, .start .automaticFailover, .acquire 1] = some s ∧ OpState.machine.Reachable s ∧
      s.opInProgress = true ∧ ∀ op ∈ s.ops, op.phase = .ended) ∧
    (∃ s, OpState.machine.run [.start .automaticFailover, .acquire 0, .proceed 0 true,
        .panic 0] = some s ∧ OpState.machine.Reachable s ∧
      s.opInProgress = true ∧ ∀ op ∈ s.ops, op.phase = .ended) :=
  ⟨Machine.exists_of_run (by decide) OpState.stuck_spec,
    Machine.exists_of_run (by decide) OpState.stuck_spec⟩

end PgCluster
