import PgCluster.Machine
import PgCluster.RaftLog

/-!
# Restarting a Raft store

`RaftNode::start` opens the sled log and builds a new state machine over
it; `PgClusterStorage` is that pair, and a restart keeps the first half and
rebuilds the second. The steps are the calls Raft makes on the two halves, each
guarded by what Raft promises about it: batches continue the log, only
entries that were not applied are truncated, entries are applied in log
order, and a purge reaches at most as far as a snapshot that was built.

`recover` is what a restarted store can offer: its current snapshot, if it
has one, and then the retained entries. No snapshot survives a restart, so
everything comes from the log, and `Consistent.recovers_iff` says
precisely which purges that forgives: those that leave every `needed` entry
the process had applied. The invariant behind it, `Consistent`, ties the
machine to a ghost list of the entries applied since the process started.
-/

namespace PgCluster

open TopologyStateMachine SledLogStorage List Option

/-! ## The store and its steps -/

/-- The combined storage of `RaftNode::start`. `applied` and `built` are
ghost: the entries applied since the process started, with the clock each
read, and every snapshot ever built. -/
structure PgClusterStorage (δ : Type) where
  log : SledLogStorage
  sm : TopologyStateMachine
  applied : List (Entry × Int)
  built : List (Snapshot δ)

inductive StorageStep where
  | append (es : List Entry)
  | truncate (logId : LogId)
  | apply (es : List (Entry × Int))
  | buildSnapshot
  | purge (logId : LogId)
  | restart

/-- The indices of a batch go up by one from `prev`, if there is one. -/
def follows : Option Nat → List Entry → Bool
  | _, [] => true
  | prev, e :: es => prev.all (fun n => e.index == n + 1) && follows (some e.index) es

variable {es : List Entry}

theorem follows_spec {prev : Option Nat} (h : follows prev es) :
    es.Pairwise Entry.Before ∧ ∀ n, prev = some n → ∀ e ∈ es, n < e.index := by
  induction es generalizing prev with
  | nil => exact ⟨.nil, fun _ _ _ he => absurd he not_mem_nil⟩
  | cons e _ ih =>
    rw [follows, Bool.and_eq_true] at h
    obtain ⟨hsorted, hgt⟩ := ih h.2
    refine ⟨pairwise_cons.mpr ⟨hgt _ rfl, hsorted⟩, ?_⟩
    rintro n rfl x hx
    have hen : e.index = n + 1 := by simpa using h.1
    rcases mem_cons.mp hx with rfl | hx
    · omega
    · have := hgt _ rfl x hx
      omega

/-- The lower end of what is not applied yet. -/
def afterLog : Option LogId → Bound
  | none => .unbounded
  | some id => .excluded id.index

namespace PgClusterStorage

variable {δ : Type} (c : Codec StateMachineSnapshot δ)

/-- The greatest index the store knows of: in the log, purged or applied. -/
def lastIndex (s : PgClusterStorage δ) : Option Nat :=
  max (s.log.logs.getLast?.map (·.index))
    (max (s.log.purged.map (·.index)) (s.sm.lastLog.map (·.index)))

def restarted (s : PgClusterStorage δ) : PgClusterStorage δ :=
  { s with sm := .new, applied := [] }

/-- One call on the store. `purge` compares indices only, since
`purge_upto` reads nothing else of the id it is given. -/
def step (s : PgClusterStorage δ) : StorageStep → Option (PgClusterStorage δ)
  | .append es =>
    if follows s.lastIndex es then some { s with log := s.log.appendEntries es } else none
  | .truncate logId =>
    if s.sm.lastLog.all (fun id => id.index < logId.index)
    then some { s with log := s.log.truncateSince logId } else none
  | .apply es =>
    if (es.map Prod.fst).isPrefixOf (s.log.getEntriesRange (afterLog s.sm.lastLog) .unbounded)
    then some { s with sm := s.sm.replay es, applied := s.applied ++ es } else none
  | .buildSnapshot => some { s with built := s.sm.buildSnapshotData c :: s.built }
  | .purge logId =>
    if s.built.any fun snap => snap.snapMeta.lastLogId.any (fun id => logId.index ≤ id.index)
    then some { s with log := s.log.purgeUpto logId } else none
  | .restart => some s.restarted

def machine : Machine (PgClusterStorage δ) StorageStep where
  init := ⟨.empty, .new, [], []⟩
  step := step c

/-! ## Recovery -/

/-- What a store offers: its current snapshot installed, if it has one,
then the retained entries after it up to `upto`, replayed under `clock`. -/
def recover (s : PgClusterStorage δ) (clock : Entry → Int) (upto : Option LogId) :
    Option TopologyStateMachine := do
  let base ← match s.sm.getCurrentSnapshotData c with
    | none => some s.sm
    | some snap => s.sm.installSnapshotFrom c snap.snapMeta snap.data
  match upto with
  | none => some base
  | some id =>
    let es := s.log.getEntriesRange (afterLog base.lastLog) (.included id.index)
    some (base.replay (es.map fun e => (e, clock e)))

/-- A restart now loses nothing: whatever the clock reads during the
replay, the restarted store gets back to the machine it had. -/
def Recovers (s : PgClusterStorage δ) : Prop :=
  ∀ clock, ∃ sm, s.restarted.recover c clock s.sm.lastLog = some sm ∧ s.sm.Agree sm

/-- The retained entries a restarted store replays. -/
def retained (s : PgClusterStorage δ) : List Entry :=
  match s.sm.lastLog with
  | none => []
  | some id => s.log.getEntriesRange .unbounded (.included id.index)

/-- A restarted store has no snapshot, so it replays from nothing. -/
theorem recover_restarted (s : PgClusterStorage δ) (clock : Entry → Int) :
    s.restarted.recover c clock s.sm.lastLog
      = some (new.replay (s.retained.map fun e => (e, clock e))) := by
  unfold recover retained
  cases s.sm.lastLog <;> rfl

/-! ## The invariant -/

def appliedEntries (s : PgClusterStorage δ) : List Entry := s.applied.map Prod.fst

/-- The machine is the replay of the applied entries, which are in index
order, and the log holds nothing else up to the last of them. -/
structure Consistent (s : PgClusterStorage δ) : Prop where
  sm : s.sm = TopologyStateMachine.new.replay s.applied
  sorted : s.appliedEntries.Pairwise Entry.Before
  log : ∀ id, s.sm.lastLog = some id → ∀ e ∈ s.log.logs, e.index ≤ id.index → e ∈ s.appliedEntries

variable {c} {s s' : PgClusterStorage δ} {e : Entry}

theorem Consistent.lastLog (h : s.Consistent) :
    s.sm.lastLog = s.appliedEntries.getLast?.map (·.logId) := by
  rw [h.sm, replay_lastLog]
  exact or_none

theorem Consistent.index_le (h : s.Consistent) {id : LogId} (hid : s.sm.lastLog = some id)
    (he : e ∈ s.appliedEntries) : e.index ≤ id.index := by
  rw [h.lastLog] at hid
  obtain ⟨z, hz, rfl⟩ := map_eq_some_iff.mp hid
  exact index_le_getLast h.sorted hz he

theorem Consistent.applied_eq_nil (h : s.Consistent) (hnone : s.sm.lastLog = none) :
    s.appliedEntries = [] := by
  rw [h.lastLog] at hnone
  simpa using hnone

theorem follows_lastIndex (h : follows s.lastIndex es) :
    es.Pairwise Entry.Before ∧ (∀ x ∈ s.log.logs, ∀ e ∈ es, x.index < e.index)
      ∧ ∀ id, s.sm.lastLog = some id → ∀ e ∈ es, id.index < e.index := by
  obtain ⟨hsorted, hgt⟩ := follows_spec h
  -- Every one of the three indices is below the greatest.
  have below {a : Nat} {x y : Option Nat} (hx : x = some a) :
      (∃ n, max x y = some n ∧ a ≤ n) ∧ (∃ n, max y x = some n ∧ a ≤ n) := by
    subst hx
    cases y with
    | none => exact ⟨⟨a, rfl, le_rfl⟩, ⟨a, rfl, le_rfl⟩⟩
    | some b => exact ⟨⟨max a b, rfl, le_max_left ..⟩, ⟨max b a, rfl, le_max_right ..⟩⟩
  refine ⟨hsorted, ?_, ?_⟩
  · intro x hx e he
    obtain ⟨z, hz⟩ := isSome_iff_exists.mp (getLast?_isSome.mpr (ne_nil_of_mem hx))
    obtain ⟨n, hn, _⟩ := (below (a := z.index)
      (y := max (s.log.purged.map (·.index)) (s.sm.lastLog.map (·.index)))
      (by rw [hz]; rfl : s.log.logs.getLast?.map (·.index) = some z.index)).1
    have hxz := index_le_getLast s.log.sorted hz hx
    have hne := hgt n hn e he
    omega
  · intro id hid e he
    obtain ⟨m, hm, _⟩ := (below (a := id.index) (y := s.log.purged.map (·.index))
      (by rw [hid]; rfl : s.sm.lastLog.map (·.index) = some id.index)).2
    obtain ⟨n, hn, _⟩ := (below (y := s.log.logs.getLast?.map (·.index)) hm).2
    have hne := hgt n hn e he
    omega

/-! ### Each step keeps it -/

theorem Consistent.append (h : s.Consistent) (hes : follows s.lastIndex es) :
    Consistent { s with log := s.log.appendEntries es } where
  sm := h.sm
  sorted := h.sorted
  log := by
    intro id hid e he hle
    obtain ⟨hsorted, hlogs, hlast⟩ := follows_lastIndex hes
    rw [appendEntries_logs_of_last hlogs hsorted] at he
    rcases mem_append.mp he with he | he
    · exact h.log id hid e he hle
    · exact absurd (hlast id hid e he) (Nat.not_lt.mpr hle)

theorem Consistent.shrink (h : s.Consistent) {log : SledLogStorage}
    (hlog : ∀ e ∈ log.logs, e ∈ s.log.logs) : Consistent { s with log := log } where
  sm := h.sm
  sorted := h.sorted
  log := fun id hid e he => h.log id hid e (hlog e he)

theorem mem_range_afterLog {l : SledLogStorage} {last : Option LogId} :
    e ∈ l.getEntriesRange (afterLog last) .unbounded ↔
      e ∈ l.logs ∧ ∀ id, last = some id → id.index < e.index := by
  rw [mem_getEntriesRange]
  cases last <;> simp [afterLog, Bound.startsBelow, Bound.endsAbove]

theorem Consistent.apply (h : s.Consistent) {es : List (Entry × Int)} (hes : es.map Prod.fst
      <+: s.log.getEntriesRange (afterLog s.sm.lastLog) .unbounded) :
    Consistent { s with sm := s.sm.replay es, applied := s.applied ++ es } := by
  obtain ⟨rest, hrest⟩ := hes
  have hrange := s.log.getEntriesRange_sorted (afterLog s.sm.lastLog) .unbounded
  rw [← hrest, pairwise_append] at hrange
  have hnew : ∀ e ∈ es.map Prod.fst, ∀ id, s.sm.lastLog = some id → id.index < e.index :=
    fun e he => (mem_range_afterLog.mp (hrest ▸ mem_append_left rest he)).2
  refine ⟨?_, ?_, ?_⟩
  · rw [h.sm, ← replay_append]
  · rw [appliedEntries, map_append, pairwise_append]
    refine ⟨h.sorted, hrange.1, ?_⟩
    intro a ha b hb
    cases hid : s.sm.lastLog with
    | none =>
      have ha' : a ∈ s.appliedEntries := ha
      rw [h.applied_eq_nil hid] at ha'
      cases ha'
    | some id => exact Nat.lt_of_le_of_lt (h.index_le hid ha) (hnew b hb id hid)
  · intro id hid e he hle
    rw [appliedEntries, map_append, mem_append]
    -- Either the entry was covered before, or it is in the applied prefix of
    -- the range, since what is left of the range comes after the new last id.
    by_cases hold : ∃ id', s.sm.lastLog = some id' ∧ e.index ≤ id'.index
    · obtain ⟨id', hid', hle'⟩ := hold
      exact .inl (h.log id' hid' e he hle')
    · have hmem : e ∈ s.log.getEntriesRange (afterLog s.sm.lastLog) .unbounded :=
        mem_range_afterLog.mpr ⟨he, fun id' hid' =>
          Nat.lt_of_not_le fun hle' => hold ⟨id', hid', hle'⟩⟩
      rw [← hrest, mem_append] at hmem
      refine .inr (hmem.resolve_right fun hr => ?_)
      have hlast : (s.sm.replay es).lastLog = some id := hid
      rw [replay_lastLog] at hlast
      rcases or_eq_some_iff.mp hlast with hnew | ⟨-, hsame⟩
      · obtain ⟨z, hz, rfl⟩ := map_eq_some_iff.mp hnew
        exact absurd (hrange.2.2 z (mem_of_getLast? hz) e hr) (Nat.not_lt.mpr hle)
      · exact hold ⟨id, hsame, hle⟩

theorem Consistent.restart (s : PgClusterStorage δ) : s.restarted.Consistent :=
  ⟨rfl, .nil, nofun⟩

theorem Consistent.step (h : s.Consistent) {l : StorageStep} (hs : s.step c l = some s') :
    s'.Consistent := by
  cases l with
  | append =>
    obtain ⟨hes, ⟨⟩⟩ := ite_none_right_eq_some.mp hs
    exact h.append hes
  | truncate =>
    obtain ⟨-, ⟨⟩⟩ := ite_none_right_eq_some.mp hs
    exact h.shrink fun e he => (mem_truncateSince.mp he).1
  | apply =>
    obtain ⟨hes, ⟨⟩⟩ := ite_none_right_eq_some.mp hs
    exact h.apply (List.isPrefixOf_iff_prefix.mp hes)
  | buildSnapshot =>
    cases hs
    exact { h with }
  | purge =>
    obtain ⟨-, ⟨⟩⟩ := ite_none_right_eq_some.mp hs
    exact h.shrink fun e he => (mem_purgeUpto.mp he).1
  | restart =>
    cases hs
    exact Consistent.restart s

theorem consistent_of_reachable (h : (machine c).Reachable s) : s.Consistent :=
  h.invariant (Consistent.restart ⟨.empty, .new, [], []⟩) fun _ _ _ hc _ hs => hc.step hs

/-! ## What a restart gets back -/

/-- A restarted store replays the applied entries that are still in the log. -/
theorem Consistent.retained_eq (h : s.Consistent) :
    s.retained = s.appliedEntries.filter fun e => decide (e ∈ s.log.logs) := by
  unfold retained
  split
  · next hnone => rw [h.applied_eq_nil hnone, filter_nil]
  · next id hid =>
    refine (getEntriesRange_sorted ..).eq_of_mem_iff (h.sorted.filter _) ?_
    intro e
    rw [mem_getEntriesRange, mem_filter, decide_eq_true_iff]
    simp only [Bound.startsBelow, Bound.endsAbove, decide_eq_true_iff, true_and]
    constructor
    · rintro ⟨he, hle⟩
      exact ⟨h.log id hid e he hle, he⟩
    · rintro ⟨ha, he⟩
      exact ⟨he, h.index_le hid ha⟩

theorem Consistent.recovers_iff (h : s.Consistent) :
    s.Recovers c ↔ ∀ e ∈ needed s.appliedEntries, e ∈ s.log.logs := by
  have hfs (clock : Entry → Int) : (s.retained.map fun e => (e, clock e)).map Prod.fst
        = (s.applied.map Prod.fst).filter fun e => decide (e ∈ s.log.logs) := by
    rw [List.map_map, ← appliedEntries, ← h.retained_eq]
    exact List.map_id _
  constructor
  · intro hrec e he
    obtain ⟨_, hsm, hagree⟩ := hrec fun _ => 0
    rw [recover_restarted] at hsm
    cases hsm
    rw [h.sm] at hagree
    refine of_decide_eq_true (needed_of_agree (hfs _) ?_ hagree e he)
    intro a ha b hb hab
    exact eq_of_index_eq h.sorted ha hb (congrArg LogId.index hab)
  · intro hkept clock
    refine ⟨_, recover_restarted .., ?_⟩
    rw [h.sm]
    exact replay_agree (hfs clock)
      (fun e he => decide_eq_true (hkept e he)) rfl (.inl rfl) (.inl rfl)

/-- In every run, a restart loses nothing exactly when the log still holds
every needed entry that the process had applied: the snapshot that allowed
a purge is not there any more to stand in for it. -/
theorem restart_recovers_iff {δ : Type} (c : Codec StateMachineSnapshot δ)
    {s : PgClusterStorage δ} (h : (machine c).Reachable s) :
    s.Recovers c ↔ ∀ e ∈ needed s.appliedEntries, e ∈ s.log.logs :=
  (consistent_of_reachable h).recovers_iff

/-- A membership entry, a later one, and a command; all applied, and a
snapshot built. -/
def sampleRun : List StorageStep :=
  let first : Entry := ⟨⟨1, 1, 0⟩, .membership ⟨[{1}], ∅⟩⟩
  let second : Entry := ⟨⟨1, 1, 1⟩, .membership ⟨[{1, 2}], ∅⟩⟩
  let command : Entry := ⟨⟨1, 1, 2⟩, .normal (.setPrimary "pg2" 0 0)⟩
  [.append [first, second, command], .apply [(first, 5), (second, 6), (command, 7)], .buildSnapshot]

/-- Purging the superseded membership entry is forgiven. -/
theorem restart_recovers_superseded :
    ∃ s, (machine (Codec.id _)).run (sampleRun ++ [.purge ⟨1, 1, 0⟩]) = some s
      ∧ s.Recovers (Codec.id _) := by
  have hrun : ∃ s, (machine (Codec.id _)).run (sampleRun ++ [.purge ⟨1, 1, 0⟩]) = some s
      ∧ ∀ e ∈ needed s.appliedEntries, e ∈ s.log.logs := ⟨_, rfl, by decide⟩
  obtain ⟨s, hs, hkept⟩ := hrun
  exact ⟨s, hs, (restart_recovers_iff _ (Machine.reachable_of_run hs)).mpr hkept⟩

/-- Purging up to the snapshot is not: the restarted store does not even
know that it had applied anything. -/
theorem restart_loses_purged :
    ∃ s, (machine (Codec.id _)).run (sampleRun ++ [.purge ⟨1, 1, 2⟩]) = some s
      ∧ ¬ s.Recovers (Codec.id _) := by
  refine ⟨_, rfl, fun hrec => ?_⟩
  obtain ⟨_, hsm, hagree⟩ := hrec fun _ => 0
  cases hsm
  exact absurd hagree.lastLog (by decide)

end PgClusterStorage

end PgCluster
