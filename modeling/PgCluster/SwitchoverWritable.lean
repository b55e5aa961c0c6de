import PgCluster.SwitchoverAtomic

/-!
# One writable node during a switchover

The hand-off promotes the target when the target's position stops moving,
and takes that for the old primary having stopped. `settled_iff` says what
the loop of reads really waits for: four equal answers in a row, at the
first point within fifty reads where there are four. An idle primary gives
them just as well, so the promotion is safe exactly when the stop took
effect by then.

Time is counted in reads, as in `SwitchoverOutcomes.stopTime`: moment `k` is
that of read `k`, and after `n` reads the Promote is sent at moment `n`.
-/

namespace PgCluster

open SwitchoverOutcomes

/-! ## The loop of reads -/

/-- How many times in a row the last of the first `n` reads repeated the one
before it. -/
def runLength (reads : Nat → Option Nat) : Nat → Nat
  | 0 => 0
  | 1 => 0
  | k + 2 => if reads (k + 1) = reads k then runLength reads (k + 1) + 1 else 0

/-- The last `steadyReads + 1` of the first `n` reads are equal. -/
def SteadyAt (reads : Nat → Option Nat) (n : Nat) : Prop :=
  steadyReads < n ∧ ∀ i < steadyReads, reads (n - 1 - i) = reads (n - 2 - i)

/-- `n` is the first number of reads, all answered, after which the position
is steady. -/
structure Settled (reads : Nat → Option Nat) (n : Nat) : Prop where
  le_max : n ≤ maxReads
  answered : ∀ k < n, (reads k).isSome = true
  steady : SteadyAt reads n
  first : ∀ m < n, ¬ SteadyAt reads m

variable {reads : Nat → Option Nat} {n j k position left : Nat} {o : SwitchoverOutcomes}

theorem le_runLength_iff (hj : 0 < j) :
    j ≤ runLength reads n ↔ j < n ∧ ∀ i < j, reads (n - 1 - i) = reads (n - 2 - i) := by
  induction n generalizing j with
  | zero => simp only [runLength]; omega
  | succ n ih =>
    cases n with
    | zero => simp only [runLength]; omega
    | succ k =>
      rw [runLength]
      by_cases heq : reads (k + 1) = reads k
      · rw [if_pos heq]
        rcases Nat.eq_or_lt_of_le hj with rfl | _
        · refine iff_of_true (by omega) ⟨by omega, fun i hi => ?_⟩
          obtain rfl : i = 0 := by omega
          exact heq
        · have hstep := ih (j := j - 1) (by omega)
          constructor
          · intro h
            obtain ⟨hlt, hall⟩ := hstep.mp (by omega)
            refine ⟨by omega, fun i hi => ?_⟩
            rcases i with - | i
            · exact heq
            · have := hall i (by omega)
              rwa [show k + 1 + 1 - 1 - (i + 1) = k + 1 - 1 - i by omega,
                show k + 1 + 1 - 2 - (i + 1) = k + 1 - 2 - i by omega]
          · rintro ⟨_, hall⟩
            have := hstep.mpr ⟨by omega, fun i hi => ?_⟩
            · omega
            · have := hall (i + 1) (by omega)
              rwa [show k + 1 + 1 - 1 - (i + 1) = k + 1 - 1 - i by omega,
                show k + 1 + 1 - 2 - (i + 1) = k + 1 - 2 - i by omega] at this
      · rw [if_neg heq]
        refine iff_of_false (by omega) fun h => heq ?_
        exact h.2 0 hj

theorem steadyAt_iff : SteadyAt reads n ↔ steadyReads ≤ runLength reads n :=
  (le_runLength_iff (by decide)).symm

/-- The answer the loop compares the next one with. -/
def lastRead (reads : Nat → Option Nat) : Nat → Option Nat
  | 0 => none
  | k + 1 => reads k

theorem runLength_succ (hread : reads k = some position) :
    runLength reads (k + 1)
      = if lastRead reads k = some position then runLength reads k + 1 else 0 := by
  cases k with
  | zero => rfl
  | succ =>
    rw [runLength, lastRead, hread]
    simp only [eq_comm]

/-- What the loop carries: the last read and how often it was repeated. An
answered read ends the loop or goes on with the same two for one more. -/
theorem settleLoop_succ (hread : reads k = some position)
    (hsteady : runLength reads k < steadyReads) :
    settleLoop reads (left + 1) k (lastRead reads k) (runLength reads k)
      = if steadyReads ≤ runLength reads (k + 1) then (k + 1, .ok ())
        else settleLoop reads left (k + 1) (lastRead reads (k + 1)) (runLength reads (k + 1)) := by
  have hlast : lastRead reads (k + 1) = some position := hread
  rw [settleLoop, hread, hlast, runLength_succ hread]
  dsimp only
  by_cases heq : lastRead reads k = some position
  · rw [if_pos heq, if_pos heq]
    by_cases hdone : runLength reads k + 1 = steadyReads
    · rw [if_pos hdone, if_pos (by omega)]
    · rw [if_neg hdone, if_neg (by omega)]
  · rw [if_neg heq, if_neg heq, if_neg (by decide)]

theorem settleLoop_ok_iff (hsteady : runLength reads k < steadyReads) :
    settleLoop reads left k (lastRead reads k) (runLength reads k) = (n, .ok ())
      ↔ k < n ∧ n ≤ k + left ∧ (∀ j, k ≤ j → j < n → (reads j).isSome)
        ∧ SteadyAt reads n ∧ ∀ m, k < m → m < n → ¬ SteadyAt reads m := by
  induction left generalizing k with
  | zero =>
    refine iff_of_false (by simp [settleLoop]) ?_
    rintro ⟨hk, hn, -⟩
    omega
  | succ _ ih =>
    cases hread : reads k with
    | none =>
      rw [settleLoop, hread]
      refine iff_of_false (by simp) ?_
      rintro ⟨hk, -, hans, -⟩
      have := hans k le_rfl hk
      rw [hread] at this
      cases this
    | some =>
      rw [settleLoop_succ hread hsteady]
      by_cases hdone : steadyReads ≤ runLength reads (k + 1)
      · -- Steady now: the loop returns, and `k + 1` is the first point.
        rw [if_pos hdone]
        constructor
        · intro h
          obtain rfl : k + 1 = n := (Prod.mk.inj h).1
          refine ⟨by omega, by omega, ?_, steadyAt_iff.mpr hdone, by omega⟩
          intro j hj hj'
          obtain rfl : j = k := by omega
          rw [hread]
          rfl
        · rintro ⟨hk, -, -, -, hfirst⟩
          have hle : ¬ k + 1 < n := fun hlt =>
            hfirst (k + 1) (by omega) hlt (steadyAt_iff.mpr hdone)
          obtain rfl : n = k + 1 := by omega
          rfl
      · rw [if_neg hdone, ih (by omega)]
        constructor
        · rintro ⟨hk, hn, hans, hsteady', hfirst⟩
          refine ⟨by omega, by omega, ?_, hsteady', ?_⟩
          · intro j hj hj'
            rcases Nat.eq_or_lt_of_le hj with rfl | hj
            · rw [hread]
              rfl
            · exact hans j hj hj'
          · intro m hm hm'
            rcases Nat.eq_or_lt_of_le hm with rfl | hm
            · rw [steadyAt_iff]
              exact hdone
            · exact hfirst m hm hm'
        · rintro ⟨_, _, hans, hsteady', hfirst⟩
          have hne : n ≠ k + 1 := by
            rintro rfl
            exact hdone (steadyAt_iff.mp hsteady')
          exact ⟨by omega, by omega, fun j hj => hans j (by omega), hsteady',
            fun m hm => hfirst m (by omega)⟩

theorem settled_iff : waitForPositionToSettle reads = (n, .ok ()) ↔ Settled reads n := by
  have hloop : waitForPositionToSettle reads = (n, .ok ()) ↔ _ :=
    settleLoop_ok_iff (Nat.zero_lt_succ 2)
  rw [hloop]
  constructor
  · rintro ⟨_, hmax, hans, hsteady, hfirst⟩
    refine ⟨by omega, fun k => hans k (Nat.zero_le k), hsteady, fun m hm hm' => ?_⟩
    exact hfirst m (by have := hm'.1; omega) hm hm'
  · intro h
    have hpos := h.steady.1
    have hmax := h.le_max
    exact ⟨by omega, by omega, fun j _ => h.answered j, h.steady, fun m _ => h.first m⟩

/-! ## Two clocks of WAL -/

/-- What the old primary has written and the target has received, at every
moment. The end of the WAL may stay where it is for any time while the old
primary runs; a stop that takes effect has shipped all of it. -/
structure HandoffSchedule (o : SwitchoverOutcomes) where
  walEnd : Nat → Nat
  received : Nat → Nat
  walEnd_mono : Monotone walEnd
  received_le : ∀ k, received k ≤ walEnd k
  reads_eq : ∀ k p, o.reads k = some p → p = received k
  shipped : ∀ τ, o.stopTime = some τ → ∀ k, τ ≤ k → walEnd k = walEnd τ ∧ received k = walEnd k

/-- When the Promote is sent, the old primary does not accept writes, and
the target has everything it wrote. -/
def SingleWriter (t : ClusterTopology) (newPrimaryId : String) (drain : Bool)
    (o : SwitchoverOutcomes) (sched : HandoffSchedule o) : Prop :=
  ∀ n, (handoffEnd t newPrimaryId drain o).promoteSentAfter = some n →
    (o.afterSettle drain n).old.acceptsWrites = false ∧ sched.walEnd n ≤ sched.received n

/-- The hand-off gives up before the Promote, or by the time its reads
settle. -/
def SwitchoverOutcomes.GivesUp (o : SwitchoverOutcomes) : Prop :=
  o.demote ≠ .success ∨ o.stop = .unreachable ∨ o.promote = .unreachable ∨ ∀ n, ¬ Settled o.reads n

theorem handOff_promoteSentAfter {drain : Bool} :
    (exec (handOff drain o) .init).2.promoteSentAfter = some n
      ↔ o.demote = .success ∧ o.stop ≠ .unreachable ∧ o.promote ≠ .unreachable
        ∧ Settled o.reads n := by
  rw [exec_handOff]
  by_cases hd : o.demote = .success
  · have hsignal := o.demote_success hd
    rw [if_neg (by simp [hd])]
    by_cases hs : o.stop = .unreachable
    · rw [if_pos (.inr hs)]
      exact iff_of_false (by simp [afterDemote, HandoffState.init]) fun h => h.2.1 hs
    rw [if_neg (by simp [hd, hs]), ← settled_iff]
    rcases waitForPositionToSettle o.reads with ⟨m, e | ⟨⟩⟩
    · refine iff_of_false ?_ (by simp)
      simp [afterSettle_eq hsignal]
    -- Passed or not, the end state has the Promote of `afterPromote`.
    have hend : (if o.promotionPassed = true then o.afterSetPrimary drain m
          else o.afterRestore drain m).promoteSentAfter
        = if o.promote.sent then some m else none := by
      split
      · rw [afterSetPrimary, afterPromote_eq hsignal]
      · rw [afterRestore, afterPromote_eq hsignal]
    rw [hend]
    cases hp : o.promote <;> simp [RpcOutcome.sent, hd, hs]
  · refine iff_of_false ?_ fun h => hd h.1
    split
    · simp [HandoffState.init]
    · rw [if_pos (.inl hd)]
      simp [afterDemote, HandoffState.init]

theorem promoteSentAfter_eq_some {t : ClusterTopology} {newPrimaryId : String} {drain : Bool} :
    (handoffEnd t newPrimaryId drain o).promoteSentAfter = some n
      ↔ switchoverConfigured t newPrimaryId ∧ o.demote = .success
        ∧ o.stop ≠ .unreachable ∧ o.promote ≠ .unreachable ∧ Settled o.reads n := by
  rw [handoffEnd_eq]
  split
  · next hconf => rw [handOff_promoteSentAfter, and_iff_right hconf]
  · next hconf => exact iff_of_false (by simp [HandoffState.init]) fun h => hconf h.1

/-- With the signal file written, the old primary accepts writes until its
stop takes effect. -/
theorem afterSettle_acceptsWrites (hsignal : o.signalWritten) (drain : Bool) (n : Nat) :
    (o.afterSettle drain n).old.acceptsWrites = false ↔ o.stoppedBy n := by
  have hold : (o.oldAfter n).acceptsWrites = !o.stoppedBy n := by
    unfold oldAfter
    cases o.stoppedBy n <;> cases o.restarted <;> rfl
  rw [afterSettle_eq hsignal, hold, Bool.not_eq_eq_eq_not, Bool.not_false]

theorem SwitchoverOutcomes.stoppedBy_iff : o.stoppedBy n ↔ ∃ τ, o.stopTime = some τ ∧ τ ≤ n := by
  unfold stoppedBy
  cases o.stopTime <;> simp

/-- Over every schedule of writes: at most one node is writable exactly when
the hand-off gives up before the Promote, or the stop takes effect no later
than the reads settle. -/
theorem switchover_single_writer_iff (t : ClusterTopology) (newPrimaryId : String)
    (drain : Bool) (o : SwitchoverOutcomes) (sched : HandoffSchedule o) :
    SingleWriter t newPrimaryId drain o sched
      ↔ switchoverConfigured t newPrimaryId = false ∨ o.GivesUp
        ∨ ∃ n τ, Settled o.reads n ∧ o.stopTime = some τ ∧ τ ≤ n := by
  constructor
  · intro h
    by_cases hconf : switchoverConfigured t newPrimaryId = false
    · exact .inl hconf
    by_cases hgive : o.GivesUp
    · exact .inr (.inl hgive)
    unfold GivesUp at hgive
    push Not at hgive
    obtain ⟨hd, hs, hp, n, hn⟩ := hgive
    have hsent : (handoffEnd t newPrimaryId drain o).promoteSentAfter = some n :=
      promoteSentAfter_eq_some.mpr ⟨by simpa using hconf, hd, hs, hp, hn⟩
    have hstopped := (afterSettle_acceptsWrites (o.demote_success hd) drain n).mp (h n hsent).1
    obtain ⟨τ, hτ, hle⟩ := stoppedBy_iff.mp hstopped
    exact .inr (.inr ⟨n, τ, hn, hτ, hle⟩)
  · intro h n hsent
    obtain ⟨hconf, hd, hs, hp, hn⟩ := promoteSentAfter_eq_some.mp hsent
    rcases h with hconf' | hgive | ⟨m, τ, hm, hτ, hle⟩
    · exact absurd hconf (by simp [hconf'])
    · rcases hgive with hd' | hs' | hp' | hnone
      · exact absurd hd hd'
      · exact absurd hs' hs
      · exact absurd hp' hp
      · exact absurd hn (hnone n)
    · have hmn : m = n := by
        rcases Nat.lt_trichotomy m n with hlt | heq | hgt
        · exact absurd hm.steady (hn.first m hlt)
        · exact heq
        · exact absurd hn.steady (hm.first n hgt)
      subst hmn
      have hstopped := stoppedBy_iff.mpr ⟨τ, hτ, hle⟩
      exact ⟨(afterSettle_acceptsWrites (o.demote_success hd) drain m).mpr hstopped,
        (sched.shipped τ hτ m hle).2.ge⟩

/-- The stop fails without stopping an idle primary. -/
def idlePrimaryOutcomes : SwitchoverOutcomes :=
  { notLeaderOutcomes with
    stop := .error
    stopTime := none
    setPrimaryOk := true
    setPrimaryCommitted := true
    stop_success := fun h => by cases h
    setPrimary_ok := fun _ => rfl }

/-- It writes again as soon as the reads have settled. -/
def idlePrimarySchedule : HandoffSchedule idlePrimaryOutcomes where
  walEnd k := if k < 4 then 50 else 60
  received _ := 50
  walEnd_mono := by
    intro a b hab
    dsimp only
    split <;> split <;> omega
  received_le k := by split <;> omega
  reads_eq _ p h := (Option.some.inj h).symm
  shipped τ h := by cases h

theorem switchover_two_writers :
    (handoffEnd twoNodes "pg2" true idlePrimaryOutcomes).old.acceptsWrites = true
      ∧ (handoffEnd twoNodes "pg2" true idlePrimaryOutcomes).target.acceptsWrites = true
      ∧ ¬ SingleWriter twoNodes "pg2" true idlePrimaryOutcomes idlePrimarySchedule := by
  have hsent : (handoffEnd twoNodes "pg2" true idlePrimaryOutcomes).promoteSentAfter
      = some 4 := by decide
  exact ⟨by decide, by decide, fun h => absurd (h 4 hsent).1 (by decide)⟩

end PgCluster
