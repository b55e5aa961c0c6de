import PgCluster.ConfigValidate
import PgCluster.NodeMonitor
import PgCluster.RaftLease

/-!
# An isolated proxy and the monitor's clock

A proxy loses the majority at some instant, the cutoff, and its lease runs
out one lease duration later. The monitor on the other side counts failed
checks of the primary, one per tick of a tokio interval. `validate` compares
the lease with `interval × failures`. The ticks say something else: the
first failing check falls on the first tick that runs at or after the
cutoff, and the last one needed is only `failures - 1` intervals later. A
tick that runs late keeps its place in the interval, so that first tick may
even have been due before the cutoff.

The result below is the exact condition, in terms of when that first tick
was due.
-/

namespace PgCluster

open FailureTracker

/-! ## The monitor's ticks -/

/-- When tick `k` runs. A tick is due at a multiple of the period, and runs
late if the check before it ended late (tokio's `Burst`). -/
def tickAt (interval : Nat) (start : ℚ) (ends : Nat → ℚ) : Nat → ℚ
  | 0 => start
  | k + 1 => max (start + (k + 1) * interval) (ends k)

/-- One check of the primary per tick: when each ends and whether the primary
answered. -/
structure MonitorSchedule (interval : Nat) where
  start : ℚ
  ends : Nat → ℚ
  answered : Nat → Bool
  ends_after : ∀ k, tickAt interval start ends k ≤ ends k

namespace MonitorSchedule

variable {interval f failures k : Nat} (sched : MonitorSchedule interval)

def runsAt (k : Nat) : ℚ := tickAt interval sched.start sched.ends k

def dueAt (k : Nat) : ℚ := sched.start + k * interval

def tracker (primary : String) : Nat → FailureTracker
  | 0 => .new
  | k + 1 =>
    if sched.answered k then (tracker primary k).recordSuccess primary
    else (tracker primary k).recordFailure primary

def HealthyBefore (cutoff : ℚ) : Prop := ∀ k, sched.runsAt k < cutoff → sched.answered k

/-- The first tick to run at or after the cutoff was due at `due`. -/
def FirstDue (cutoff due : ℚ) : Prop :=
  ∃ f, (∀ k < f, sched.runsAt k < cutoff) ∧ cutoff ≤ sched.runsAt f ∧ sched.dueAt f = due

variable {sched}

theorem dueAt_le_runsAt (k : Nat) : sched.dueAt k ≤ sched.runsAt k := by
  cases k with
  | zero => simp [dueAt, runsAt, tickAt]
  | succ =>
    simp only [dueAt, runsAt, tickAt, Nat.cast_add, Nat.cast_one]
    exact le_max_left _ _

theorem dueAt_mono : Monotone sched.dueAt := by
  intro j k hjk
  have hcast : (j : ℚ) ≤ k := Nat.cast_le.mpr hjk
  have hmul : (j : ℚ) * interval ≤ k * interval :=
    mul_le_mul_of_nonneg_right hcast (Nat.cast_nonneg _)
  exact add_le_add_right hmul _

theorem dueAt_add (f m : Nat) : sched.dueAt (f + m) = sched.dueAt f + m * interval := by
  simp only [dueAt, Nat.cast_add]
  ring

/-- Answered checks do not count, so the count is at most the number of checks
since the first that can fail. -/
theorem failureCount_le (primary : String) (h : ∀ k < f, sched.answered k) (k : Nat) :
    (sched.tracker primary k).failureCount primary ≤ k - f := by
  induction k with
  | zero => simp [tracker, new, failureCount]
  | succ k =>
    unfold tracker
    split
    · simp [recordSuccess, failureCount]
    · rename_i hfailed
      have hf : f ≤ k := by
        by_contra hlt
        exact hfailed (h k (Nat.lt_of_not_le hlt))
      have hcount : ((sched.tracker primary k).recordFailure primary).failureCount primary
          = (sched.tracker primary k).failureCount primary + 1 := by
        simp [recordFailure, failureCount]
      rw [hcount]
      omega

/-- The check that brings the count to `failures` ends at least
`failures - 1` intervals after the first tick past the cutoff was due. -/
theorem ends_of_isFailed {cutoff due : ℚ} {primary : String}
    (hhealthy : sched.HealthyBefore cutoff) (hdue : sched.FirstDue cutoff due)
    (hpos : 0 < failures) (hfailed : (sched.tracker primary (k + 1)).isFailed primary failures) :
    due + (failures - 1) * interval ≤ sched.ends k := by
  obtain ⟨f, hbefore, -, rfl⟩ := hdue
  have hanswered : ∀ j < f, sched.answered j := fun j hj => hhealthy j (hbefore j hj)
  have hcount := failureCount_le primary hanswered (k + 1)
  have hreached := of_decide_eq_true hfailed
  have hk : f + (failures - 1) ≤ k := by omega
  calc sched.dueAt f + (failures - 1) * interval
      = sched.dueAt (f + (failures - 1)) := by rw [dueAt_add, Nat.cast_sub hpos, Nat.cast_one]
    _ ≤ sched.dueAt k := dueAt_mono hk
    _ ≤ sched.runsAt k := dueAt_le_runsAt k
    _ ≤ sched.ends k := sched.ends_after k

end MonitorSchedule

/-! ## The lease against the count -/

/-- Whenever the failure count of the primary reaches the threshold, the
lease of a proxy whose rounds after the cutoff all failed is gone. -/
def StopsBeforeFailover (cfg : PgClusterConfig) (cutoff due : ℚ) : Prop :=
  ∀ sched : MonitorSchedule cfg.failover.healthCheckIntervalMs,
    sched.HealthyBefore cutoff → sched.FirstDue cutoff due →
    ∀ (origin : ℚ) (rounds : List ProbeRound),
    (∀ round ∈ rounds, origin ≤ round.started ∧ (round.succeeds → round.started ≤ cutoff)) →
    ∀ (primary : String) (k : Nat),
    (sched.tracker primary (k + 1)).isFailed primary
      cfg.failover.healthCheckFailuresBeforeFailover →
    ((QuorumLease.new origin cfg.proxy.quorumLeaseMs).probes rounds).isHeld (sched.ends k) = false

/-- A check that ran before the cutoff answers and ends at it at the latest.
Every later one fails as soon as it runs. -/
def fastFailures (interval : Nat) (start cutoff : ℚ) : MonitorSchedule interval where
  start := start
  ends k := max (start + k * interval) cutoff
  answered k := k == 0
  ends_after k := by
    cases k with
    | zero => simp [tickAt]
    | succ k =>
      have hprev : start + k * interval ≤ start + (k + 1) * interval := by
        have hinterval : (0 : ℚ) ≤ interval := Nat.cast_nonneg _
        linarith
      simp only [tickAt, Nat.cast_add, Nat.cast_one]
      exact max_le (le_max_left _ _) (max_le_max_right _ hprev)

/-- A round of a three-voter cluster in which one other voter answers. -/
def majorityRound (started : ℚ) : ProbeRound := ⟨started, true, 3, 1⟩

theorem probes_majorityRound (lease : QuorumLease) (started : ℚ) :
    lease.probes [majorityRound started] = lease.renew started := by
  have hsucceeds : (majorityRound started).succeeds := by
    simp [majorityRound, ProbeRound.succeeds, isMajority]
  simp only [QuorumLease.probes, List.foldl_cons, List.foldl_nil, QuorumLease.probe, hsucceeds]
  rfl

section FastFailures

variable {interval : Nat} {start cutoff due : ℚ}

theorem fastFailures_runsAt_succ (k : Nat) : (fastFailures interval start cutoff).runsAt (k + 1)
      = max (start + (k + 1) * interval) cutoff := by
  have hprev : start + k * interval ≤ start + (k + 1) * interval := by
    have hinterval : (0 : ℚ) ≤ interval := Nat.cast_nonneg _
    linarith
  simp only [MonitorSchedule.runsAt, fastFailures, tickAt]
  rw [← max_assoc, max_eq_left hprev]

theorem fastFailures_healthyBefore : (fastFailures interval start cutoff).HealthyBefore cutoff := by
  intro k hk
  cases k with
  | zero => rfl
  | succ =>
    rw [fastFailures_runsAt_succ] at hk
    exact absurd hk (not_lt.mpr (le_max_right _ _))

theorem fastFailures_firstDue (hstart : due - interval < cutoff) :
    (fastFailures interval (due - interval) cutoff).FirstDue cutoff due := by
  refine ⟨1, ?_, ?_, ?_⟩
  · intro k _
    obtain rfl : k = 0 := by omega
    exact hstart
  · rw [fastFailures_runsAt_succ]
    exact le_max_right _ _
  · simp [MonitorSchedule.dueAt, fastFailures]

theorem fastFailures_failureCount (primary : String) (k : Nat) :
    ((fastFailures interval start cutoff).tracker primary (k + 1)).failureCount primary = k := by
  induction k with
  | zero => simp [MonitorSchedule.tracker, fastFailures, recordSuccess, failureCount]
  | succ k ih =>
    unfold MonitorSchedule.tracker
    have hfails : (fastFailures interval start cutoff).answered (k + 1) = false := rfl
    rw [hfails]
    simp only [Bool.false_eq_true, if_false, recordFailure]
    simp [failureCount] at ih ⊢
    exact ih

end FastFailures

/-- For every accepted configuration, an isolated proxy stops before every
failover exactly when the first tick past the cutoff was due late enough. -/
theorem isolated_proxy_stops_iff {parsesCidr : String → Bool} {cfg : PgClusterConfig}
    (hvalid : validate parsesCidr cfg = .ok ()) (cutoff due : ℚ) :
    StopsBeforeFailover cfg cutoff due ↔ cutoff + cfg.proxy.quorumLeaseMs ≤
        due + (cfg.failover.healthCheckFailuresBeforeFailover - 1)
          * cfg.failover.healthCheckIntervalMs := by
  obtain ⟨hmin, hlease⟩ := lease_bounds_of_validate hvalid
  have hfailures := failures_pos_of_validate hvalid
  constructor
  · intro hstops
    by_contra hshort
    push Not at hshort
    have hlease' : (cfg.proxy.quorumLeaseMs : ℚ) <
        cfg.failover.healthCheckIntervalMs * cfg.failover.healthCheckFailuresBeforeFailover := by
      exact_mod_cast hlease
    -- The tick before the first late one ran before the cutoff, as the lease
    -- is shorter than the whole detection time.
    have hpos : (0 : ℚ) < cfg.proxy.quorumLeaseMs := by
      exact_mod_cast Nat.lt_of_lt_of_le (by decide) hmin
    have hstart : due - cfg.failover.healthCheckIntervalMs < cutoff := by linarith
    have hgone := hstops _ fastFailures_healthyBefore (fastFailures_firstDue hstart)
      cutoff [majorityRound cutoff] (by simp [majorityRound]) "" _
      (decide_eq_true (fastFailures_failureCount "" _).ge)
    rw [probes_majorityRound] at hgone
    have hheld := QuorumLease.isHeld_of_renewed cfg.proxy.quorumLeaseMs
      (le_max_right (due - cfg.failover.healthCheckIntervalMs
        + cfg.failover.healthCheckFailuresBeforeFailover * cfg.failover.healthCheckIntervalMs)
        cutoff) (max_lt (by linarith) (by linarith))
    exact absurd hheld (ne_true_of_eq_false hgone)
  · intro hlong _ hhealthy hdue origin _ hrounds _ _ hfailed
    have hends := MonitorSchedule.ends_of_isFailed hhealthy hdue hfailures hfailed
    have hrenewed : (QuorumLease.new origin cfg.proxy.quorumLeaseMs).RenewedBy cutoff := .inl rfl
    apply (hrenewed.probes hrounds).not_isHeld
    rw [QuorumLease.probes_duration]
    exact hlong.trans hends

/-- The configuration of the source's own tests. -/
def minimal : PgClusterConfig where
  cluster := ⟨"test", "/tmp"⟩
  raft :=
    { nodeId := 1
      peers := [⟨1, "127.0.0.1:7000"⟩, ⟨2, "127.0.0.1:7001"⟩, ⟨3, "127.0.0.1:7002"⟩] }
  nodes := [{ id := "pg1", agentAddr := "127.0.0.1:7010", postgresAddr := "127.0.0.1:5432" }]
  replication := { maxSlotWalKeepSizeMb := 1024 }
  tls :=
    { caCert := some "/certs/ca.crt"
      cert := some "/certs/node.crt"
      key := some "/certs/node.key" }
  api := { apiKeys := ["test-key"] }

theorem isolated_proxy_stops_minimal :
    validate (fun _ => false) minimal = .ok () ∧ StopsBeforeFailover minimal 0 0 := by
  have hvalid : validate (fun _ => false) minimal = .ok () := by decide
  refine ⟨hvalid, (isolated_proxy_stops_iff hvalid 0 0).mpr ?_⟩
  norm_num [minimal]

/-- `minimal` with a lease of 1200 ms, below the 1500 ms of `detection`. -/
def longLease : PgClusterConfig := { minimal with proxy := { quorumLeaseMs := 1200 } }

/-- Checks at 0, 500 and 1000 ms fail at once, and the lease of 1200 ms renewed
at 0 is still held at the third. -/
theorem lease_outlives_detection :
    validate (fun _ => false) longLease = .ok () ∧ ¬ StopsBeforeFailover longLease 0 0 := by
  refine ⟨by decide, fun hstops => ?_⟩
  have hdue : (fastFailures 500 (0 - (500 : Nat)) 0).FirstDue 0 0 :=
    fastFailures_firstDue (by norm_num)
  have hgone := hstops _ fastFailures_healthyBefore hdue 0 [majorityRound 0]
    (by simp [majorityRound]) "pg1" 3 (decide_eq_true (fastFailures_failureCount "pg1" 3).ge)
  have hends : (fastFailures longLease.failover.healthCheckIntervalMs
      (0 - (500 : Nat)) 0).ends 3 = 1000 := by
    norm_num [fastFailures, longLease, minimal]
  have hheld : ((QuorumLease.new 0 1200).renew 0).isHeld 1000 = true :=
    QuorumLease.isHeld_of_renewed 1200 (by norm_num) (by norm_num)
  rw [probes_majorityRound, hends] at hgone
  exact absurd hheld (ne_true_of_eq_false hgone)

end PgCluster
