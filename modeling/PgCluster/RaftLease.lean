import Mathlib.Data.Rat.Floor

/-!
# The quorum lease

`raft/lease.rs`. A proxy routes while it holds the lease, and a probe round
that reaches a majority of the voters renews it. Instants are rational
numbers of milliseconds. The source stores whole milliseconds from the
lease's creation, plus one, so that zero can mean "never renewed".
-/

namespace PgCluster

open List

structure QuorumLease where
  origin : ℚ
  renewed : Nat
  duration : Nat

namespace QuorumLease

def new (origin : ℚ) (duration : Nat) : QuorumLease := ⟨origin, 0, duration⟩

/-- Whole milliseconds from the origin to `instant`, plus one. An instant
before the origin counts as the origin, as `duration_since` has it. -/
def stamp (lease : QuorumLease) (instant : ℚ) : Nat := ⌊instant - lease.origin⌋₊ + 1

/-- Extend the lease from an instant. An older renewal never shortens a newer
one. -/
def renew (lease : QuorumLease) (instant : ℚ) : QuorumLease :=
  { lease with renewed := max lease.renewed (lease.stamp instant) }

def isHeld (lease : QuorumLease) (now : ℚ) : Bool :=
  lease.renewed ≠ 0 && lease.stamp now - lease.renewed < lease.duration

end QuorumLease

/-! ## Probe rounds -/

/-- Whether `reached` voters, counting this one, are a majority. -/
def isMajority (reached voters : Nat) : Bool := decide (voters / 2 < reached)

/-- One round of `spawn_renewal`: when it started, whether this instance is a
voter, how many voters there are and how many of the others answered. -/
structure ProbeRound where
  started : ℚ
  isVoter : Bool
  voters : Nat
  answered : Nat

def ProbeRound.succeeds (round : ProbeRound) : Bool :=
  round.isVoter && isMajority (1 + round.answered) round.voters

def QuorumLease.probe (lease : QuorumLease) (round : ProbeRound) : QuorumLease :=
  if round.succeeds then lease.renew round.started else lease

def QuorumLease.probes (lease : QuorumLease) (rounds : List ProbeRound) : QuorumLease :=
  rounds.foldl QuorumLease.probe lease

/-! ## When the lease runs out -/

namespace QuorumLease

variable {lease : QuorumLease} {cutoff now : ℚ} {round : ProbeRound} {rounds : List ProbeRound}
  {instants : List ℚ}

theorem stamp_mono (lease : QuorumLease) : Monotone lease.stamp := by
  intro a b hab
  have hfloor : ⌊a - lease.origin⌋₊ ≤ ⌊b - lease.origin⌋₊ := Nat.floor_mono (sub_le_sub_right hab _)
  exact Nat.succ_le_succ hfloor

/-- No renewal is from after `cutoff`. -/
def RenewedBy (lease : QuorumLease) (cutoff : ℚ) : Prop :=
  lease.renewed = 0 ∨ lease.origin ≤ cutoff ∧ lease.renewed ≤ lease.stamp cutoff

@[simp] theorem probe_origin : (lease.probe round).origin = lease.origin := by
  unfold probe
  split <;> rfl

@[simp] theorem probe_duration : (lease.probe round).duration = lease.duration := by
  unfold probe
  split <;> rfl

theorem RenewedBy.probe (h : lease.RenewedBy cutoff) (hstarted : lease.origin ≤ round.started)
    (hcutoff : round.succeeds → round.started ≤ cutoff) : (lease.probe round).RenewedBy cutoff := by
  unfold QuorumLease.probe
  split
  · rename_i hsucceeds
    have hle : round.started ≤ cutoff := hcutoff hsucceeds
    have hstamp : lease.stamp round.started ≤ lease.stamp cutoff := lease.stamp_mono hle
    refine .inr ⟨hstarted.trans hle, max_le ?_ hstamp⟩
    rcases h with hzero | ⟨-, hrenewed⟩
    · rw [hzero]
      exact Nat.zero_le _
    · exact hrenewed
  · exact h

/-- The run of the renewal task: `RenewedBy` survives every round. -/
theorem RenewedBy.probes (h : lease.RenewedBy cutoff) (hrounds : ∀ round ∈ rounds,
      lease.origin ≤ round.started ∧ (round.succeeds → round.started ≤ cutoff)) :
    (lease.probes rounds).RenewedBy cutoff := by
  induction rounds generalizing lease with
  | nil => exact h
  | cons round _ ih =>
    obtain ⟨hstarted, hcutoff⟩ := hrounds round mem_cons_self
    refine ih (h.probe hstarted hcutoff) ?_
    intro later hlater
    rw [probe_origin]
    exact hrounds later (mem_cons_of_mem _ hlater)

@[simp] theorem probes_duration : (lease.probes rounds).duration = lease.duration := by
  induction rounds generalizing lease with
  | nil => rfl
  | cons _ _ ih => exact ih.trans probe_duration

theorem RenewedBy.not_isHeld (h : lease.RenewedBy cutoff)
    (hnow : cutoff + lease.duration ≤ now) : lease.isHeld now = false := by
  rcases h with hzero | ⟨horigin, hrenewed⟩
  · simp [isHeld, hzero]
  · have hshift : ⌊cutoff - lease.origin⌋₊ + lease.duration ≤ ⌊now - lease.origin⌋₊ := by
      rw [← Nat.floor_add_natCast (sub_nonneg.mpr horigin)]
      apply Nat.floor_mono
      linarith
    have hexpired : lease.duration ≤ lease.stamp now - lease.renewed := by
      simp only [stamp] at hrenewed ⊢
      omega
    simp [isHeld, hexpired]

theorem isHeld_of_renewed (duration : Nat) (hlater : cutoff ≤ now)
    (hnow : now < cutoff + duration) : ((new cutoff duration).renew cutoff).isHeld now := by
  have hfloor : ⌊now - cutoff⌋₊ < duration := by
    rw [Nat.floor_lt (sub_nonneg.mpr hlater)]
    linarith
  simp only [isHeld, renew, stamp, new, sub_self, Nat.floor_zero]
  simpa using hfloor

/-! ## The newest renewal decides -/

/-- Renewals in the order they were made, each from its own instant. -/
def renewAll (lease : QuorumLease) (instants : List ℚ) : QuorumLease :=
  instants.foldl renew lease

@[simp] theorem renewAll_cons (lease : QuorumLease) (instant : ℚ) (instants : List ℚ) :
    lease.renewAll (instant :: instants) = (lease.renew instant).renewAll instants := rfl

@[simp] theorem renewAll_origin (lease : QuorumLease) (instants : List ℚ) :
    (lease.renewAll instants).origin = lease.origin := by
  induction instants generalizing lease with
  | nil => rfl
  | cons instant _ ih => exact ih (lease.renew instant)

@[simp] theorem renewAll_duration (lease : QuorumLease) (instants : List ℚ) :
    (lease.renewAll instants).duration = lease.duration := by
  induction instants generalizing lease with
  | nil => rfl
  | cons instant _ ih => exact ih (lease.renew instant)

/-- A run of renewals leaves what was there when none is newer. -/
theorem renewAll_renewed_of_le {bound : Nat}
    (h : ∀ instant ∈ instants, lease.stamp instant ≤ bound) (hbound : lease.renewed = bound) :
    (lease.renewAll instants).renewed = bound := by
  induction instants generalizing lease with
  | nil => exact hbound
  | cons instant _ ih =>
    have hkeeps : (lease.renew instant).renewed = bound := by
      rw [renew, hbound]
      exact max_eq_left (h instant mem_cons_self)
    exact ih (fun later hlater => h later (mem_cons_of_mem _ hlater)) hkeeps

/-- The order of the renewals does not matter: the newest one is stored. -/
theorem renewAll_renewed {newest : ℚ} (hmem : newest ∈ instants)
    (hnewest : ∀ instant ∈ instants, instant ≤ newest) (hold : lease.renewed ≤ lease.stamp newest) :
    (lease.renewAll instants).renewed = lease.stamp newest := by
  induction instants generalizing lease with
  | nil => exact absurd hmem not_mem_nil
  | cons instant rest ih =>
    have hrest : ∀ later ∈ rest, later ≤ newest := fun later hlater =>
      hnewest later (mem_cons_of_mem _ hlater)
    have hfirst : lease.stamp instant ≤ lease.stamp newest :=
      lease.stamp_mono (hnewest instant mem_cons_self)
    rw [renewAll_cons]
    rcases mem_cons.mp hmem with rfl | hlater
    · exact renewAll_renewed_of_le (fun later hlater => lease.stamp_mono (hrest later hlater))
        (max_eq_right hold)
    · exact ih hlater hrest (max_le hold hfirst)

/-- The comparison the source makes, for a query no earlier than the newest
renewal. -/
theorem isHeld_renewAll {newest : ℚ} (hfresh : lease.renewed = 0)
    (hmem : newest ∈ instants) (hnewest : ∀ instant ∈ instants, instant ≤ newest)
    (horigin : lease.origin ≤ newest) (hnow : newest ≤ now) : (lease.renewAll instants).isHeld now ↔
      ⌊now - lease.origin⌋ - ⌊newest - lease.origin⌋ < lease.duration := by
  have hrenewed : (lease.renewAll instants).renewed = lease.stamp newest :=
    renewAll_renewed hmem hnewest (hfresh ▸ Nat.zero_le _)
  have hfloor : ⌊newest - lease.origin⌋₊ ≤ ⌊now - lease.origin⌋₊ :=
    Nat.floor_mono (sub_le_sub_right hnow _)
  have hcastNow : (⌊now - lease.origin⌋₊ : ℤ) = ⌊now - lease.origin⌋ :=
    Int.natCast_floor_eq_floor (sub_nonneg.mpr (horigin.trans hnow))
  have hcastNewest : (⌊newest - lease.origin⌋₊ : ℤ) = ⌊newest - lease.origin⌋ :=
    Int.natCast_floor_eq_floor (sub_nonneg.mpr horigin)
  rw [← hcastNow, ← hcastNewest]
  simp only [isHeld, stamp, hrenewed, renewAll_origin, renewAll_duration, Bool.and_eq_true,
    decide_eq_true_eq]
  omega

end QuorumLease

end PgCluster
