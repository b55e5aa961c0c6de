import Mathlib.Data.Finset.Card
import PgCluster.RaftLease

/-!
# Raft membership, and who a probe round reaches

`raft/membership.rs` promotes and removes one member at a time. openraft goes
from one voter set to the next through a joint configuration, in which a
decision needs a majority of both sets, and refuses a second change until the
first is through. `spawn_renewal` counts against all voters of a joint
configuration at once. That is enough because one of the two sets always
contains the other: a probe round that renews the lease has reached a member
of every set that could decide anything.
-/

namespace PgCluster

open List

variable {NodeId : Type} [DecidableEq NodeId]

/-- openraft's membership: the voter sets that must each agree, and every
member, voter or learner. -/
structure ClusterMembers (NodeId : Type) where
  configs : List (Finset NodeId)
  nodes : Finset NodeId

namespace ClusterMembers

def voterIds (m : ClusterMembers NodeId) : Finset NodeId := m.configs.foldr (· ∪ ·) ∅

/-! ## One set contains the other -/

/-- One voter set, or two of which one contains the other. -/
def Nested (m : ClusterMembers NodeId) : Prop :=
  (∃ voters, m.configs = [voters]) ∨ ∃ old new, m.configs = [old, new] ∧ (old ⊆ new ∨ new ⊆ old)

variable {m : ClusterMembers NodeId}

theorem Nested.voterIds_mem (hm : m.Nested) : m.voterIds ∈ m.configs := by
  rcases hm with ⟨_, hconfigs⟩ | ⟨_, _, hconfigs, hsub | hsub⟩
  · simp [voterIds, hconfigs]
  · simp [voterIds, hconfigs, Finset.union_eq_right.mpr hsub]
  · simp [voterIds, hconfigs, Finset.union_eq_left.mpr hsub]

/-! ## Quorums meet -/

/-- A set decides when it holds a majority of every configuration. -/
def Decides (m : ClusterMembers NodeId) (deciders : Finset NodeId) : Prop :=
  ∀ config ∈ m.configs, isMajority (deciders ∩ config).card config.card = true

theorem inter_nonempty_of_isMajority {voters reached deciders : Finset NodeId}
    (hsub : reached ⊆ voters) (hreached : isMajority reached.card voters.card)
    (hdeciders : isMajority (deciders ∩ voters).card voters.card) :
    (reached ∩ deciders).Nonempty := by
  by_contra hempty
  have hdisjoint : Disjoint reached (deciders ∩ voters) := by
    rw [Finset.not_nonempty_iff_eq_empty, ← Finset.disjoint_iff_inter_eq_empty] at hempty
    exact hempty.mono_right Finset.inter_subset_left
  have hcard : reached.card + (deciders ∩ voters).card ≤ voters.card := by
    rw [← Finset.card_union_of_disjoint hdisjoint]
    exact Finset.card_le_card (Finset.union_subset hsub Finset.inter_subset_right)
  have hmany : voters.card / 2 < reached.card := of_decide_eq_true hreached
  have hmany' : voters.card / 2 < (deciders ∩ voters).card := of_decide_eq_true hdeciders
  omega

theorem Nested.reached_inter_deciders {reached deciders : Finset NodeId} (hm : m.Nested)
    (hsub : reached ⊆ m.voterIds)
    (hreached : isMajority reached.card m.voterIds.card) (hdeciders : m.Decides deciders) :
    (reached ∩ deciders).Nonempty :=
  inter_nonempty_of_isMajority hsub hreached (hdeciders _ hm.voterIds_mem)

end ClusterMembers

/-! ## The lease and the quorum -/

namespace QuorumLease

def Newest (offsets : List ℚ) (newest : ℚ) : Prop :=
  newest ∈ offsets ∧ ∀ offset ∈ offsets, offset ≤ newest

def renewedAt (origin duration : ℚ) (offsets : List ℚ) : QuorumLease :=
  (new origin ⌊duration⌋₊).renewAll (offsets.map (origin + ·))

variable {origin duration now : ℚ} {offsets before after : List ℚ} {newest older : ℚ}

theorem isHeld_renewedAt_nil : (renewedAt origin duration []).isHeld (origin + now) = false := rfl

theorem isHeld_renewedAt (hduration : 0 ≤ duration) (hnewest : Newest offsets newest)
    (hoffset : 0 ≤ newest) (hnow : newest ≤ now) :
    (renewedAt origin duration offsets).isHeld (origin + now) ↔ ⌊now⌋ - ⌊newest⌋ < ⌊duration⌋ := by
  have hall : ∀ instant ∈ offsets.map (origin + ·), instant ≤ origin + newest := by
    intro _ hinstant
    obtain ⟨offset, hoffset, rfl⟩ := mem_map.mp hinstant
    exact add_le_add_right (hnewest.2 offset hoffset) origin
  have horigin : (new origin ⌊duration⌋₊).origin ≤ origin + newest := le_add_of_nonneg_right hoffset
  have hheld : (renewedAt origin duration offsets).isHeld (origin + now) ↔
      ⌊origin + now - origin⌋ - ⌊origin + newest - origin⌋ < (⌊duration⌋₊ : ℤ) :=
    isHeld_renewAll rfl (mem_map_of_mem hnewest.1) hall horigin (add_le_add_right hnow origin)
  rw [hheld, add_sub_cancel_left, add_sub_cancel_left, Int.natCast_floor_eq_floor hduration]

/-- Rounding down never makes the lease last longer than it was given for. -/
theorem elapsed_lt_of_floor (h : ⌊now⌋ - ⌊newest⌋ < ⌊duration⌋) : now - newest < duration := by
  have hle : ⌊now⌋ + 1 ≤ ⌊duration⌋ + ⌊newest⌋ := by omega
  have hle' : (⌊now⌋ : ℚ) + 1 ≤ ⌊duration⌋ + ⌊newest⌋ := by exact_mod_cast hle
  have hnow : now < ⌊now⌋ + 1 := Int.lt_floor_add_one now
  have hnewest : (⌊newest⌋ : ℚ) ≤ newest := Int.floor_le newest
  have hduration : (⌊duration⌋ : ℚ) ≤ duration := Int.floor_le duration
  linarith

theorem exists_newest (h : offsets ≠ []) : ∃ newest, Newest offsets newest := by
  induction offsets with
  | nil => exact absurd rfl h
  | cons offset rest ih =>
    by_cases hrest : rest = []
    · exact ⟨offset, by simp [Newest, hrest]⟩
    · obtain ⟨newest, hmem, hle⟩ := ih hrest
      rcases le_total offset newest with hoffset | hoffset
      · refine ⟨newest, mem_cons_of_mem _ hmem, ?_⟩
        exact forall_mem_cons.mpr ⟨hoffset, hle⟩
      · refine ⟨offset, mem_cons_self, ?_⟩
        exact forall_mem_cons.mpr ⟨le_rfl, fun o ho => (hle o ho).trans hoffset⟩

/-- An older renewal, wherever it comes among the others, is not the newest. -/
theorem Newest.insert_older
    (h : Newest (before ++ after) newest) (holder : older ≤ newest) :
    Newest (before ++ older :: after) newest := by
  have hperm : (before ++ older :: after).Perm (older :: (before ++ after)) := perm_middle
  refine ⟨hperm.mem_iff.mpr (mem_cons_of_mem _ h.1), ?_⟩
  intro offset hoffset
  rcases mem_cons.mp (hperm.mem_iff.mp hoffset) with rfl | hmem
  · exact holder
  · exact h.2 offset hmem

/-- The lease is held exactly while the newest renewal, both instants rounded
down to milliseconds, is less than its duration ago, so it never outlasts the
duration and no older renewal takes it away; and under any membership that
promotions and removals pass through, the voters that renewed it include a
member of every set that can decide. -/
theorem held_iff_newest_and_quorums_meet {Id : Type} [DecidableEq Id] (origin duration now : ℚ)
    (offsets : List ℚ) (m : ClusterMembers Id) (hduration : 0 ≤ duration)
    (hoffsets : ∀ offset ∈ offsets, 0 ≤ offset ∧ offset ≤ now) (hm : m.Nested) :
    ((renewedAt origin duration offsets).isHeld (origin + now) = true ↔
      ∃ newest, Newest offsets newest ∧ ⌊now⌋ - ⌊newest⌋ < ⌊duration⌋)
    ∧ ((renewedAt origin duration offsets).isHeld (origin + now) = true →
      ∀ newest, Newest offsets newest → now - newest < duration)
    ∧ (∀ before after older, offsets = before ++ after → 0 ≤ older →
      (∃ offset ∈ offsets, older ≤ offset) →
      (renewedAt origin duration offsets).isHeld (origin + now) = true →
      (renewedAt origin duration (before ++ older :: after)).isHeld (origin + now) = true)
    ∧ ∀ reached deciders, reached ⊆ m.voterIds →
      isMajority reached.card m.voterIds.card = true → m.Decides deciders →
      (reached ∩ deciders).Nonempty := by
  have hheld : ∀ newest, Newest offsets newest →
      ((renewedAt origin duration offsets).isHeld (origin + now) = true ↔
        ⌊now⌋ - ⌊newest⌋ < ⌊duration⌋) := fun newest hnewest =>
    isHeld_renewedAt hduration hnewest (hoffsets newest hnewest.1).1 (hoffsets newest hnewest.1).2
  refine ⟨⟨?_, ?_⟩, ?_, ?_, ?_⟩
  · intro h
    have hne : offsets ≠ [] := by
      rintro rfl
      exact absurd h (by simp [isHeld_renewedAt_nil])
    obtain ⟨newest, hnewest⟩ := exists_newest hne
    exact ⟨newest, hnewest, (hheld newest hnewest).mp h⟩
  · rintro ⟨newest, hnewest, hlt⟩
    exact (hheld newest hnewest).mpr hlt
  · intro h newest hnewest
    exact elapsed_lt_of_floor ((hheld newest hnewest).mp h)
  · rintro _ _ _ rfl - ⟨offset, hmem, hle⟩ h
    obtain ⟨newest, hnewest⟩ := exists_newest (ne_nil_of_mem hmem)
    have hbounds := hoffsets newest hnewest.1
    have hnewest' := hnewest.insert_older (hle.trans (hnewest.2 offset hmem))
    rw [isHeld_renewedAt hduration hnewest' hbounds.1 hbounds.2]
    exact (hheld newest hnewest).mp h
  · intro _ _ hsub hreached hdeciders
    exact hm.reached_inter_deciders hsub hreached hdeciders

/-- A fourth voter joins three. -/
def joining : ClusterMembers (Fin 4) where
  configs := [{0, 1, 2}, {0, 1, 2, 3}]
  nodes := {0, 1, 2, 3}

theorem joining_nested : joining.Nested := .inr ⟨_, _, rfl, .inl (by decide)⟩

theorem joining_decides : joining.Decides {0, 1, 2} := by
  have hall : ∀ config ∈ [({0, 1, 2} : Finset (Fin 4)), {0, 1, 2, 3}],
      isMajority (({0, 1, 2} : Finset (Fin 4)) ∩ config).card config.card := by decide
  exact hall

/-- A lease renewed twice, out of order, and held by the newer renewal; and
the voters a round reached while the fourth was joining. -/
theorem held_iff_newest_and_quorums_meet_joining :
    (renewedAt 0 1000 [5/2, 1/2]).isHeld (0 + 1000) = true
    ∧ (({0, 1, 3} : Finset (Fin 4)) ∩ {0, 1, 2}).Nonempty := by
  have hoffsets : ∀ offset ∈ [(5/2 : ℚ), 1/2], 0 ≤ offset ∧ offset ≤ 1000 := by
    simp only [mem_cons, not_mem_nil, or_false, forall_eq_or_imp, forall_eq]
    norm_num
  have h := held_iff_newest_and_quorums_meet 0 1000 1000 [5/2, 1/2] joining (by norm_num) hoffsets
    joining_nested
  refine ⟨h.1.mpr ⟨5/2, ?_, ?_⟩, ?_⟩
  · simp only [Newest, mem_cons, not_mem_nil, or_false, forall_eq_or_imp, forall_eq]
    norm_num
  · norm_num
  · exact h.2.2.2 {0, 1, 3} {0, 1, 2} (by decide) (by decide) joining_decides

end QuorumLease

end PgCluster
