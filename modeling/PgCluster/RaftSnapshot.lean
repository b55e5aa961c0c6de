import PgCluster.RaftStateMachine

/-!
# Snapshots against replay

A replica may reach a log position by applying every entry itself, in
whatever batches openraft hands it, or by installing a snapshot that
another replica built and applying only what came after. This file runs
both through the functions of `raft/state_machine.rs` and compares them.

A `Delivery` is what openraft asks of a state machine: apply a batch, or
let a fresh machine take over from a snapshot of this one. `deliver` runs
a list of deliveries; the machine it ends with is compared with the one
batch replay of the same entries from `new`. Each normal entry reads a
clock of its own in either run, so the two agree in everything but
`last_changed_at`.

What the watch channel carries is the argument of the last `send`: the
receiver that `new` returns is held by the forwarder of `RaftNode::start`
as long as the node lives.
-/

namespace PgCluster

namespace TopologyStateMachine

variable {δ : Type} (c : Codec StateMachineSnapshot δ) {sm : TopologyStateMachine}

/-! ## The pieces -/

/-- Topology and channel move together. -/
def Published (sm : TopologyStateMachine) : Prop := sm.published = sm.state

instance (sm : TopologyStateMachine) : Decidable sm.Published :=
  inferInstanceAs (Decidable (_ = _))

theorem published_new : new.Published := rfl

theorem Published.applyEntry (h : sm.Published) (e : Entry)
    (now : Int) : (sm.applyEntry e now).Published := by
  unfold TopologyStateMachine.applyEntry Published
  cases e.payload with
  | normal => rfl
  | blank | membership => exact h

theorem Published.replay (h : sm.Published)
    (es : List (Entry × Int)) : (sm.replay es).Published := by
  induction es generalizing sm with
  | nil => exact h
  | cons x _ ih => exact ih (h.applyEntry x.1 x.2)

theorem applyEntries_append (sm : TopologyStateMachine) (es fs : List (Entry × Int)) :
    (sm.applyEntries (es ++ fs)).2
      = (sm.applyEntries es).2 ++ ((sm.replay es).applyEntries fs).2 := by
  induction es generalizing sm with
  | nil => rfl
  | cons x _ ih => exact congrArg (_ :: ·) (ih (sm.applyEntry x.1 x.2))

theorem applyEntries_length (sm : TopologyStateMachine) (es : List (Entry × Int)) :
    (sm.applyEntries es).2.length = es.length := by
  induction es generalizing sm with
  | nil => rfl
  | cons _ _ ih => exact congrArg (· + 1) (ih _)

/-- The response to an entry carries the version right after that entry. -/
theorem applyEntries_getElem? (sm : TopologyStateMachine) (es : List (Entry × Int)) {k : Nat}
    (hk : k < es.length) :
    (sm.applyEntries es).2[k]? = some ⟨(sm.replay (es.take (k + 1))).state.version⟩ := by
  induction es generalizing sm k with
  | nil => exact absurd hk (Nat.not_lt_zero k)
  | cons _ _ ih =>
    cases k with
    | zero => rfl
    | succ => exact ih _ (Nat.lt_of_succ_lt_succ hk)

/-- Two machines that agree still agree after the same entries, whatever
the clocks said. -/
theorem Agree.replay {sm sm' : TopologyStateMachine} (h : Agree sm sm')
    {es fs : List (Entry × Int)} (hfs : fs.map Prod.fst = es.map Prod.fst) :
    Agree (sm.replay es) (sm'.replay fs) := by
  have hall : fs.map Prod.fst = (es.map Prod.fst).filter fun _ => true := by
    rw [hfs, List.filter_true]
  exact replay_agree hall (fun _ _ => rfl) h.state (.inl h.lastLog) (.inl h.membership)

/-- Installing what was built gives the machine back, in every cell. -/
theorem installSnapshotFrom_buildSnapshotData (h : sm.Published) (fresh : TopologyStateMachine) :
    fresh.installSnapshotFrom c (sm.buildSnapshotData c).snapMeta (sm.buildSnapshotData c).data
      = some sm := by
  have hdec : c.decode (sm.buildSnapshotData c).data = some ⟨sm.membership, sm.state⟩ :=
    c.decode_encode _
  rw [installSnapshotFrom, hdec, Option.map_some]
  cases sm with
  | mk state _ _ published =>
    obtain rfl : published = state := h
    rfl

/-! ## Deliveries -/

/-- What is asked of a state machine: a batch of entries, each with the
clock it reads, or a snapshot for a fresh machine that goes on from it. -/
inductive Delivery where
  | batch (es : List (Entry × Int))
  | snapshot

/-- The entries delivered, in order. -/
def delivered : List Delivery → List (Entry × Int)
  | [] => []
  | .batch es :: ds => es ++ delivered ds
  | .snapshot :: ds => delivered ds

/-- How many entries each `apply_entries` call was given. -/
def batchSizes : List Delivery → List Nat
  | [] => []
  | .batch es :: ds => es.length :: batchSizes ds
  | .snapshot :: ds => batchSizes ds

/-- Run the deliveries, and return the machine with the responses of each
`apply_entries` call. `none` is a snapshot that could not be read. -/
def deliver (sm : TopologyStateMachine) :
    List Delivery → Option (TopologyStateMachine × List (List TopologyResponse))
  | [] => some (sm, [])
  | .batch es :: ds =>
    let (sm', responses) := sm.applyEntries es
    (sm'.deliver ds).map fun r => (r.1, responses :: r.2)
  | .snapshot :: ds =>
    let snap := sm.buildSnapshotData c
    (new.installSnapshotFrom c snap.snapMeta snap.data).bind (deliver · ds)

/-- Snapshots change nothing: the deliveries end where one batch of the
delivered entries does, with the same responses. -/
theorem deliver_eq (h : sm.Published) (ds : List Delivery) :
    ∃ responses, sm.deliver c ds = some (sm.replay (delivered ds), responses)
      ∧ responses.map List.length = batchSizes ds
      ∧ responses.flatten = (sm.applyEntries (delivered ds)).2 := by
  induction ds generalizing sm with
  | nil => exact ⟨[], rfl, rfl, rfl⟩
  | cons d ds ih =>
    cases d with
    | batch es =>
      obtain ⟨rs, hrun, hlen, hflat⟩ := ih (h.replay es)
      refine ⟨(sm.applyEntries es).2 :: rs, ?_, ?_, ?_⟩
      · show ((sm.replay es).deliver c ds).map _ = _
        rw [hrun, delivered, replay_append]
        rfl
      · rw [List.map_cons, applyEntries_length, hlen, batchSizes]
      · rw [List.flatten_cons, hflat, delivered, applyEntries_append]
    | snapshot =>
      obtain ⟨rs, hrun, hlen, hflat⟩ := ih h
      refine ⟨rs, ?_, hlen, hflat⟩
      rw [deliver, installSnapshotFrom_buildSnapshotData c h, Option.bind_some, hrun]
      rfl

/-- Snapshot and replay agree. However the entries are cut into batches
and wherever a fresh machine took over from a snapshot, the machine ends in
agreement with one batch of the same entries, under any two sets of clocks.
The channel carries the state, and each `apply_entries` call answered with
one response per entry, in order: the version right after it. -/
theorem snapshot_agrees_with_replay (ds : List Delivery) (whole : List (Entry × Int))
    (hsame : whole.map Prod.fst = (delivered ds).map Prod.fst) :
    ∃ sm responses, new.deliver c ds = some (sm, responses) ∧ Agree sm (new.replay whole)
      ∧ sm.Published ∧ (new.replay whole).Published ∧ responses.map List.length = batchSizes ds
      ∧ ∀ k < whole.length, responses.flatten[k]?
          = some ⟨(new.replay (whole.take (k + 1))).state.version⟩ := by
  obtain ⟨rs, hrun, hlen, hflat⟩ := deliver_eq c published_new ds
  have hagree : Agree new new := ⟨.refl _, rfl, rfl⟩
  refine ⟨_, rs, hrun, hagree.replay hsame, published_new.replay _, published_new.replay _,
    hlen, ?_⟩
  intro k hk
  have hk' : k < (delivered ds).length := by
    have hlens := congrArg List.length hsame
    simp only [List.length_map] at hlens
    exact hlens ▸ hk
  have htake : (whole.take (k + 1)).map Prod.fst = ((delivered ds).take (k + 1)).map Prod.fst := by
    rw [List.map_take, List.map_take, hsame]
  rw [hflat, applyEntries_getElem? _ _ hk', (hagree.replay htake).state.version_eq]

def mixedLog : List Entry :=
  [⟨⟨1, 1, 1⟩, .membership ⟨[{1}], ∅⟩⟩, ⟨⟨1, 1, 2⟩, .blank⟩,
    ⟨⟨1, 1, 3⟩, .normal (.setSyncDegraded true)⟩]

/-- A snapshot after the first two entries, with one clock here and another
for the replay. -/
theorem snapshot_agrees_with_replay_mixedLog : ∃ sm responses,
      new.deliver (Codec.id _) [.batch ((mixedLog.take 1).map (·, 5)),
        .batch (((mixedLog.drop 1).take 1).map (·, 6)), .snapshot,
        .batch ((mixedLog.drop 2).map (·, 7))] = some (sm, responses)
      ∧ Agree sm (new.replay (mixedLog.map (·, 40)))
      ∧ sm.Published ∧ (new.replay (mixedLog.map (·, 40))).Published
      ∧ responses.map List.length = [1, 1, 1] ∧ ∀ k < 3, responses.flatten[k]?
          = some ⟨(new.replay ((mixedLog.map (·, 40)).take (k + 1))).state.version⟩ :=
  snapshot_agrees_with_replay (Codec.id _) _ (mixedLog.map (·, 40)) rfl

end TopologyStateMachine

end PgCluster
