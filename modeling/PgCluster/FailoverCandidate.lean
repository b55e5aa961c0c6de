import Mathlib.Data.List.MinMax
import Mathlib.Data.Prod.Lex
import PgCluster.AgentCalls
import PgCluster.RaftTopology

/-!
# Picking the failover candidate

`failover/candidate.rs` asks every standby it takes for a replica for its
position and ranks the answers. What a node answers is a parameter, `none`
standing for every way of not answering (no connection, an error, a
timeout), and so is the order in which the answers come in: the code polls
the nodes of a hash map concurrently, so a `CompletionOrder` is any
enumeration of the polled set.

The set polled is chosen by *role*, the set named to Postgres by
`standby_names` by *configuration*. Under `SyncStrict` the count of answers
is what ties them together: the polled nodes are among the configured ones
(`pollTargets_subset`), each answers at most once, so enough answers means
that everybody was polled and answered (`answered_of_count`).
-/

namespace PgCluster

open List

/-- An order in which concurrent calls to the nodes of a set complete. -/
structure CompletionOrder (S : Finset String) where
  ids : List String
  nodup : ids.Nodup
  complete : ids.toFinset = S

theorem CompletionOrder.mem_iff {S : Finset String} (order : CompletionOrder S)
    (id : String) : id ∈ order.ids ↔ id ∈ S := by
  obtain ⟨_, _, rfl⟩ := order
  exact mem_toFinset.symm

namespace ClusterTopology

/-- The nodes `live_positions` asks: replicas by role, configured and not
external. -/
def pollTargets (t : ClusterTopology) (failedNodeId : String) : Finset String :=
  t.nodeRoles.keys.filter fun id =>
    id ≠ failedNodeId ∧ t.nodeRoles.lookup id = some .replica ∧ t.isMember id = true

/-- The standby's entry in the positions, if it gets one. -/
def livePosition (status : String → Option AgentStatus) (id : String) :
    Option (String × Nat) :=
  match status id with
  | some st => if st.postgresRunning && st.isInRecovery then some (id, st.position) else none
  | none => none

/-- Ask every standby except `failedNodeId` for its position. One that does
not answer, or is not in recovery, is left out. -/
def livePositions {t : ClusterTopology} {failedNodeId : String}
    (order : CompletionOrder (t.pollTargets failedNodeId))
    (status : String → Option AgentStatus) : List (String × Nat) :=
  order.ids.filterMap (livePosition status)

def priorityOf (t : ClusterTopology) (id : String) : Nat :=
  match t.nodeConfigs.lookup id with
  | some cfg => cfg.priority
  | none => 0

/-- Pick the highest position, breaking ties by node priority. Of equal keys
`max_by_key` returns the last, `argmax` the first, hence the reversal. -/
def rankPositions (t : ClusterTopology) (positions : List (String × Nat)) :
    Option (String × Nat) :=
  positions.reverse.argmax fun p => toLex (p.2, t.priorityOf p.1)

/-- Pick the failover candidate from the live status of reachable standbys. -/
def pickLiveCandidate (t : ClusterTopology) (failedNodeId : String)
    (order : CompletionOrder (t.pollTargets failedNodeId))
    (status : String → Option AgentStatus) : Option (String × Nat) :=
  let positions := livePositions order status
  if t.replicationMode = .syncStrict
      ∧ positions.length < (t.standbysExcept failedNodeId).card then none
  else t.rankPositions positions

variable {t : ClusterTopology} {failed : String} {status : String → Option AgentStatus}
  {id c : String} {order : CompletionOrder (t.pollTargets failed)} {l : Nat}

/-! ## The polled set -/

theorem mem_pollTargets : id ∈ t.pollTargets failed ↔
      id ≠ failed ∧ t.nodeRoles.lookup id = some .replica ∧ t.isMember id := by
  rw [pollTargets, Finset.mem_filter, Finmap.mem_keys, Finmap.mem_iff]
  exact ⟨fun h => h.2, fun h => ⟨⟨_, h.2.1⟩, h⟩⟩

theorem pollTargets_subset : t.pollTargets failed ⊆ t.standbysExcept failed := by
  intro _ hid
  obtain ⟨hne, -, hmem⟩ := mem_pollTargets.mp hid
  exact mem_standbysExcept.mpr ⟨hne, hmem⟩

/-! ## The answers -/

def Answered (status : String → Option AgentStatus) (id : String) (lsn : Nat) : Prop :=
  ∃ st, status id = some st ∧ st.postgresRunning = true ∧ st.isInRecovery = true ∧ st.position = lsn

theorem livePosition_eq_some {p : String × Nat} :
    livePosition status id = some p ↔ p.1 = id ∧ Answered status id p.2 := by
  obtain ⟨i, l⟩ := p
  unfold livePosition Answered
  cases status id with
  | none => simp
  | some =>
    simp only [Bool.and_eq_true, Option.some.injEq, exists_eq_left']
    constructor
    · intro h
      obtain ⟨⟨hrun, hrec⟩, ⟨⟩⟩ := Option.ite_none_right_eq_some.mp h
      exact ⟨rfl, hrun, hrec, rfl⟩
    · rintro ⟨rfl, hrun, hrec, rfl⟩
      rw [if_pos ⟨hrun, hrec⟩]

theorem mem_livePositions : (id, l) ∈ livePositions order status ↔
      id ∈ t.pollTargets failed ∧ Answered status id l := by
  rw [livePositions, mem_filterMap]
  constructor
  · rintro ⟨_, hid', h⟩
    obtain ⟨rfl, hans⟩ := livePosition_eq_some.mp h
    exact ⟨(order.mem_iff _).mp hid', hans⟩
  · rintro ⟨hid, hans⟩
    exact ⟨id, (order.mem_iff id).mpr hid, livePosition_eq_some.mpr ⟨rfl, hans⟩⟩

theorem livePositions_nodup (order : CompletionOrder (t.pollTargets failed)) :
    ((livePositions order status).map Prod.fst).Nodup := by
  rw [livePositions, map_filterMap]
  refine order.nodup.filterMap ?_
  intro a b _ ha hb
  obtain ⟨p, hp, rfl⟩ := Option.map_eq_some_iff.mp ha
  obtain ⟨q, hq, hqp⟩ := Option.map_eq_some_iff.mp hb
  rw [← (livePosition_eq_some.mp hp).1, ← (livePosition_eq_some.mp hq).1, hqp]

/-- The counting argument: as many answers as there are standbys come from
all of them, so all of them were polled. -/
theorem answered_of_count
    (hcount : (t.standbysExcept failed).card ≤ (livePositions order status).length)
    (hid : id ∈ t.standbysExcept failed) :
    id ∈ t.pollTargets failed ∧ ∃ l, Answered status id l := by
  have hsub : ((livePositions order status).map Prod.fst).toFinset ⊆ t.standbysExcept failed := by
    intro x hx
    obtain ⟨⟨_, l⟩, hmem, rfl⟩ := mem_map.mp (mem_toFinset.mp hx)
    exact pollTargets_subset (mem_livePositions.mp hmem).1
  have hcard : ((livePositions order status).map Prod.fst).toFinset.card
      = (livePositions order status).length := by
    rw [toFinset_card_of_nodup (livePositions_nodup order), length_map]
  rw [← Finset.eq_of_subset_of_card_le hsub (hcard ▸ hcount), mem_toFinset] at hid
  obtain ⟨⟨x, l⟩, hmem, rfl⟩ := mem_map.mp hid
  obtain ⟨hpoll, hans⟩ := mem_livePositions.mp hmem
  exact ⟨hpoll, l, hans⟩

/-! ## The ranking -/

theorem rankPositions_spec {positions : List (String × Nat)}
    (h : t.rankPositions positions = some (c, l)) : (c, l) ∈ positions ∧ ∀ p ∈ positions,
      p.2 ≤ l ∧ (p.2 = l → t.priorityOf p.1 ≤ t.priorityOf c) := by
  refine ⟨mem_reverse.mp (argmax_mem h), fun p hp => ?_⟩
  have hle := le_of_mem_argmax (mem_reverse.mpr hp) h
  rcases (Prod.Lex.toLex_le_toLex ..).mp hle with hlt | ⟨heq, hprio⟩
  · exact ⟨Nat.le_of_lt hlt, fun heq => absurd heq (Nat.ne_of_lt hlt)⟩
  · exact ⟨Nat.le_of_eq heq, fun _ => hprio⟩

/-- What a candidate is worth under `SyncStrict`, before anything is said
about commits: everybody answered, and the candidate answered best. -/
theorem pickLiveCandidate_spec (hmode : t.replicationMode = .syncStrict)
    (h : t.pickLiveCandidate failed order status = some (c, l)) :
    (∀ id ∈ t.standbysExcept failed, id ∈ t.pollTargets failed ∧ ∃ p, Answered status id p)
      ∧ c ∈ t.pollTargets failed ∧ Answered status c l
      ∧ ∀ id ∈ t.standbysExcept failed, ∀ p, Answered status id p →
          p ≤ l ∧ (p = l → t.priorityOf id ≤ t.priorityOf c) := by
  obtain ⟨hcount, hrank⟩ := Option.ite_none_left_eq_some.mp h
  have hcount' := Nat.le_of_not_lt fun hlt => hcount ⟨hmode, hlt⟩
  obtain ⟨hc, hbest⟩ := rankPositions_spec hrank
  obtain ⟨hpoll, hans⟩ := mem_livePositions.mp hc
  refine ⟨fun id hid => answered_of_count hcount' hid, hpoll, hans, ?_⟩
  intro id hid p hp
  have hmem := (answered_of_count hcount' hid).1
  exact hbest (id, p) (mem_livePositions.mpr ⟨hmem, hp⟩)

/-- The order in which the standbys answer decides between equals only. -/
theorem pickLiveCandidate_of_order {order' : CompletionOrder (t.pollTargets failed)}
    (h : t.pickLiveCandidate failed order status = some (c, l)) :
    ∃ c', t.pickLiveCandidate failed order' status = some (c', l)
      ∧ t.priorityOf c' = t.priorityOf c := by
  have hperm : (livePositions order' status).Perm (livePositions order status) :=
    (perm_of_nodup_nodup_toFinset_eq order'.nodup order.nodup
      (order'.complete.trans order.complete.symm)).filterMap _
  obtain ⟨hcount, hrank⟩ := Option.ite_none_left_eq_some.mp h
  obtain ⟨hc, hbest⟩ := rankPositions_spec hrank
  have hc' := hperm.mem_iff.mpr hc
  obtain ⟨p, hrank'⟩ : ∃ p, t.rankPositions (livePositions order' status) = some p := by
    rw [← Option.ne_none_iff_exists', rankPositions, Ne, argmax_eq_none, reverse_eq_nil_iff]
    exact ne_nil_of_mem hc'
  obtain ⟨hp, hbest'⟩ := rankPositions_spec hrank'
  obtain ⟨hle, hprio⟩ := hbest p (hperm.mem_iff.mp hp)
  obtain ⟨hle', hprio'⟩ := hbest' _ hc'
  obtain rfl : p.2 = l := Nat.le_antisymm hle hle'
  refine ⟨p.1, ?_, Nat.le_antisymm (hprio rfl) (hprio' rfl)⟩
  rw [pickLiveCandidate, if_neg (by rwa [hperm.length_eq]), hrank']

/-- `acked` are the end positions of the commits acknowledged to clients and
`received` the most each node ever received; Postgres acknowledges nothing
that no named standby has. -/
theorem syncStrict_candidate_holds_acked {order : CompletionOrder (t.pollTargets failed)}
    (hmode : t.replicationMode = .syncStrict) (hfailed : failed = t.primaryNodeId)
    {acked : Set Nat} {received : String → Nat}
    (hacked : ∀ p ∈ acked, ∃ id ∈ t.namedStandbys, p ≤ received id)
    (hreport : ∀ id p, Answered status id p → received id ≤ p) {c : String} {l : Nat}
    (h : t.pickLiveCandidate failed order status = some (c, l)) :
    (∀ id ∈ t.standbysExcept failed, ∃ p, Answered status id p)
      ∧ c ∈ t.standbysExcept failed ∧ t.nodeRoles.lookup c = some .replica
      ∧ Answered status c l ∧ (∀ p ∈ acked, p ≤ l)
      ∧ ∀ id ∈ t.standbysExcept failed, ∀ p, Answered status id p →
          p ≤ l ∧ (p = l → t.priorityOf id ≤ t.priorityOf c) := by
  obtain ⟨hall, hpoll, hans, hbest⟩ := pickLiveCandidate_spec hmode h
  refine ⟨fun id hid => (hall id hid).2, pollTargets_subset hpoll,
    (mem_pollTargets.mp hpoll).2.1, hans, ?_, hbest⟩
  intro p hp
  obtain ⟨id, hid, hrecv⟩ := hacked p hp
  have hid' : id ∈ t.standbysExcept failed := hfailed ▸ hid
  obtain ⟨q, hq⟩ := (hall id hid').2
  calc p ≤ received id := hrecv
    _ ≤ q := hreport id q hq
    _ ≤ l := (hbest id hid' q hq).1

def threeNodes : ClusterTopology :=
  let node (id addr : String) (priority : Nat) : NodeConfig := ⟨id, addr, addr, priority, ∅⟩
  { empty with
    primaryNodeId := "pg1"
    replicationMode := .syncStrict
    nodeRoles := ((∅ : HashMap String NodeRole).insert "pg1" .primary
      |>.insert "pg2" .replica |>.insert "pg3" .replica)
    nodeConfigs := ((∅ : HashMap String NodeConfig).insert "pg1" (node "pg1" "10.0.0.1" 100)
      |>.insert "pg2" (node "pg2" "10.0.0.2" 90) |>.insert "pg3" (node "pg3" "10.0.0.3" 80)) }

/-- Both standbys answer, with `pg3` ahead at 50. -/
def threeNodesStatus (id : String) : Option AgentStatus :=
  some ⟨true, true, if id = "pg3" then 50 else 40, 30⟩

theorem syncStrict_candidate_holds_acked_threeNodes :
    threeNodes.pickLiveCandidate "pg1" ⟨["pg2", "pg3"], by decide, by decide⟩ threeNodesStatus
        = some ("pg3", 50)
      ∧ ∀ id ∈ threeNodes.standbysExcept "pg1",
          ∃ p, Answered threeNodesStatus id p ∧ p ≤ 50 := by
  have hpick : threeNodes.pickLiveCandidate "pg1" ⟨["pg2", "pg3"], by decide, by decide⟩
      threeNodesStatus = some ("pg3", 50) := by decide
  have hreport (id : String) (p : Nat) (hans : Answered threeNodesStatus id p) :
      (if id = "pg3" then 50 else 40) ≤ p := by
    obtain ⟨_, ⟨⟩, -, -, rfl⟩ := hans
    exact Nat.le_max_left ..
  -- Every position up to 50 may have been acknowledged: `pg3` received it.
  obtain ⟨hall, -, -, -, -, hbest⟩ := syncStrict_candidate_holds_acked rfl rfl
    (fun p (hp : p ∈ Set.Iic 50) => ⟨"pg3", by decide, hp⟩) hreport hpick
  refine ⟨hpick, fun id hid => ?_⟩
  obtain ⟨p, hp⟩ := hall id hid
  exact ⟨p, hp, (hbest id hid p hp).1⟩

theorem pickLiveCandidate_of_order_threeNodes : ∃ c',
    threeNodes.pickLiveCandidate "pg1" ⟨["pg3", "pg2"], by decide, by decide⟩ threeNodesStatus
      = some (c', 50) ∧ threeNodes.priorityOf c' = 80 := by
  have hpick : threeNodes.pickLiveCandidate "pg1" ⟨["pg2", "pg3"], by decide, by decide⟩
      threeNodesStatus = some ("pg3", 50) := by decide
  exact pickLiveCandidate_of_order hpick

end ClusterTopology

end PgCluster
