import PgCluster.RaftCommands

/-!
# The topology state machine

`raft/state_machine.rs`: applying log entries in order, building a
snapshot, installing one, and offering the current one. All of it is in
memory - `TopologyStateMachine::new` is what a process starts from, and
nothing here reads a disk.

A snapshot carries serialised data. The serialiser is a `Codec`, a pair
of functions with the round trip as a field, over an arbitrary type of
encoded data, so the results hold for whatever bytes `serde_json` writes.

`Agree` compares two machines by what replication has to preserve: the
topology up to the local clock, the last applied log id and the
membership. `replay_agree` is the simulation, between a replay and one that
skips entries; `needed_of_agree` says that no larger skip goes unnoticed.
-/

namespace PgCluster

open List

/-- A log position: the leader that wrote it and the index. -/
structure LogId where
  term : Nat
  nodeId : Nat
  index : Nat
deriving DecidableEq

/-- Voter sets (more than one during a joint change) and member addresses. -/
structure Membership where
  configs : List (Finset Nat)
  nodes : HashMap Nat String
deriving DecidableEq

structure StoredMembership where
  logId : Option LogId
  membership : Membership
deriving DecidableEq

def StoredMembership.empty : StoredMembership := ⟨none, ⟨[], ∅⟩⟩

inductive EntryPayload where
  | blank
  | normal (cmd : TopologyCommand)
  | membership (m : Membership)
deriving DecidableEq

structure Entry where
  logId : LogId
  payload : EntryPayload
deriving DecidableEq

namespace Entry

def index (e : Entry) : Nat := e.logId.index

def isNormal (e : Entry) : Bool :=
  match e.payload with
  | .normal _ => true
  | _ => false

def isMembership (e : Entry) : Bool :=
  match e.payload with
  | .membership _ => true
  | _ => false

end Entry

/-- Returned for each applied entry. -/
structure TopologyResponse where
  appliedVersion : Nat
deriving DecidableEq

/-- The four shared cells of the machine. `published` is the value the
watch channel last carried. -/
structure TopologyStateMachine where
  state : ClusterTopology
  lastLog : Option LogId
  membership : StoredMembership
  published : ClusterTopology
deriving DecidableEq

namespace TopologyStateMachine

/-- A new, empty state machine: what every process starts from. -/
def new : TopologyStateMachine where
  state := .empty
  lastLog := none
  membership := .empty
  published := .empty

/-! ## Applying entries -/

/-- One round of the loop in `apply_entries`; `now` is the clock a normal
entry reads. -/
def applyEntry (sm : TopologyStateMachine) (e : Entry) (now : Int) :
    TopologyStateMachine :=
  let sm := { sm with lastLog := some e.logId }
  match e.payload with
  | .blank => sm
  | .normal cmd =>
    let topo := sm.state.applyCommand now cmd
    { sm with state := topo, published := topo }
  | .membership m => { sm with membership := ⟨some e.logId, m⟩ }

/-- Apply entries, each with the clock it reads, and return one response
per entry. -/
def applyEntries (sm : TopologyStateMachine) :
    List (Entry × Int) → TopologyStateMachine × List TopologyResponse
  | [] => (sm, [])
  | (e, now) :: rest =>
    let sm := sm.applyEntry e now
    let (sm', responses) := sm.applyEntries rest
    (sm', ⟨sm.state.version⟩ :: responses)

/-- The machine after the entries, without the responses. -/
def replay (sm : TopologyStateMachine) (es : List (Entry × Int)) :
    TopologyStateMachine :=
  (sm.applyEntries es).1

variable (sm : TopologyStateMachine)

@[simp] theorem replay_cons (x : Entry × Int) (es : List (Entry × Int)) :
    sm.replay (x :: es) = (sm.applyEntry x.1 x.2).replay es := rfl

theorem replay_append (es fs : List (Entry × Int)) :
    sm.replay (es ++ fs) = (sm.replay es).replay fs := by
  induction es generalizing sm with
  | nil => rfl
  | cons _ _ ih => simp [ih]

@[simp] theorem applyEntry_lastLog (e : Entry) (now : Int) :
    (sm.applyEntry e now).lastLog = some e.logId := by
  unfold applyEntry
  split <;> rfl

theorem applyEntry_state (e : Entry) (now : Int) :
    (sm.applyEntry e now).state = match e.payload with
      | .normal cmd => sm.state.applyCommand now cmd
      | _ => sm.state := by
  unfold applyEntry
  cases e.payload <;> rfl

theorem applyEntry_membership (e : Entry) (now : Int) :
    (sm.applyEntry e now).membership = match e.payload with
      | .membership m => ⟨some e.logId, m⟩
      | _ => sm.membership := by
  unfold applyEntry
  cases e.payload <;> rfl

/-! ## What a replay leaves behind -/

theorem replay_lastLog (es : List (Entry × Int)) : (sm.replay es).lastLog
      = ((es.map Prod.fst).getLast?.map (·.logId)).or sm.lastLog := by
  induction es generalizing sm with
  | nil => rfl
  | cons _ es ih =>
    rw [replay_cons, ih, applyEntry_lastLog, map_cons, getLast?_cons]
    cases (es.map Prod.fst).getLast? <;> rfl

theorem replay_version (es : List (Entry × Int)) : (sm.replay es).state.version
      = sm.state.version + ((es.map Prod.fst).filter Entry.isNormal).length := by
  induction es generalizing sm with
  | nil => rfl
  | cons x _ ih =>
    rw [replay_cons, ih, applyEntry_state, map_cons, filter_cons, Entry.isNormal]
    cases x.1.payload <;> (simp; try omega)

theorem replay_membership_logId (es : List (Entry × Int)) : (sm.replay es).membership.logId
      = (((es.map Prod.fst).filter Entry.isMembership).getLast?.map (·.logId)).or
          sm.membership.logId := by
  induction es generalizing sm with
  | nil => rfl
  | cons x es ih =>
    rw [replay_cons, ih, applyEntry_membership, map_cons, filter_cons, Entry.isMembership]
    cases x.1.payload with
    | blank | normal => rfl
    | membership =>
      rw [if_pos rfl, getLast?_cons]
      cases ((es.map Prod.fst).filter Entry.isMembership).getLast? <;> rfl

end TopologyStateMachine

/-! ## Agreement

Dropping entries from a replay is invisible exactly when none of the
dropped ones is `needed`. -/

/-- The entries a replay cannot do without: every normal entry, the last
entry, and the last membership entry. -/
def needed : List Entry → List Entry
  | [] => []
  | e :: es =>
    if es.isEmpty || e.isNormal || (e.isMembership && !es.any Entry.isMembership)
    then e :: needed es else needed es

theorem mem_needed {l : List Entry} {e : Entry} (h : e ∈ needed l) :
    e ∈ l ∧ (e.isNormal ∨ l.getLast? = some e
      ∨ (l.filter Entry.isMembership).getLast? = some e) := by
  induction l with
  | nil => simp [needed] at h
  | cons x es ih =>
    -- A needed entry of the tail keeps its reason: the last (membership)
    -- entry of the tail is the last of the whole list.
    have tail : e ∈ needed es → e ∈ x :: es ∧ (e.isNormal ∨ (x :: es).getLast? = some e
        ∨ ((x :: es).filter Entry.isMembership).getLast? = some e) := by
      intro he
      obtain ⟨hmem, hwhy⟩ := ih he
      refine ⟨mem_cons_of_mem _ hmem, hwhy.imp_right (Or.imp ?_ ?_)⟩
      · intro hl
        rw [getLast?_cons, hl]
        rfl
      · intro hl
        rw [filter_cons]
        split
        · rw [getLast?_cons, hl]
          rfl
        · exact hl
    rw [needed] at h
    split at h
    · next hwhy =>
      rcases mem_cons.mp h with rfl | he
      · refine ⟨mem_cons_self, ?_⟩
        simp only [Bool.or_eq_true, Bool.and_eq_true, List.isEmpty_iff, Bool.not_eq_true'] at hwhy
        rcases hwhy with (rfl | hn) | ⟨hm, hnone⟩
        · exact .inr (.inl rfl)
        · exact .inl hn
        · have hnil : es.filter Entry.isMembership = [] :=
            filter_eq_nil_iff.mpr fun y hy hym =>
              Bool.false_ne_true (hnone.symm.trans (any_eq_true.mpr ⟨y, hy, hym⟩))
          exact .inr (.inr (by rw [filter_cons, if_pos hm, hnil]; rfl))
      · exact tail he
    · exact tail h

namespace TopologyStateMachine

/-- Equal up to the clock, in everything replication has to preserve. -/
structure Agree (sm sm' : TopologyStateMachine) : Prop where
  state : sm.state.SameButClock sm'.state
  lastLog : sm.lastLog = sm'.lastLog
  membership : sm.membership = sm'.membership

variable {p : Entry → Bool} {es fs : List (Entry × Int)}

/-- The simulation: replaying `es`, and replaying what a filter that keeps
the needed entries leaves of it, under any clocks, brings two machines to
agreement. The last applied ids need to agree beforehand only when there is
no entry to overwrite them, the memberships only when there is no
membership entry. -/
theorem replay_agree (hfs : fs.map Prod.fst = (es.map Prod.fst).filter p)
    (hp : ∀ e ∈ needed (es.map Prod.fst), p e) {sm sm' : TopologyStateMachine}
    (hstate : sm.state.SameButClock sm'.state) (hlast : sm.lastLog = sm'.lastLog ∨ es ≠ [])
    (hmem : sm.membership = sm'.membership ∨ (es.map Prod.fst).any Entry.isMembership) :
    Agree (sm.replay es) (sm'.replay fs) := by
  induction es generalizing sm sm' fs with
  | nil =>
    obtain rfl : fs = [] := by simpa using hfs
    exact ⟨hstate, hlast.resolve_right (by simp), hmem.resolve_right (by simp)⟩
  | cons x es ih =>
    have hp' : ∀ e ∈ needed (es.map Prod.fst), p e := fun e he => hp e (by
      rw [map_cons, needed]
      split
      · exact mem_cons_of_mem _ he
      · exact he)
    rw [map_cons, filter_cons] at hfs
    rw [map_cons, any_cons, Bool.or_eq_true] at hmem
    have hkept (hnot : ¬x.1.isMembership) := hmem.imp_right fun h => h.resolve_left hnot
    by_cases hx : p x.1
    · -- Kept: both machines apply it.
      rw [if_pos hx] at hfs
      obtain ⟨_, _, rfl, hy, hfs⟩ := map_eq_cons_iff.mp hfs
      rw [replay_cons, replay_cons, hy]
      refine ih hfs hp' ?_ (.inl ?_) ?_
      · rw [applyEntry_state, applyEntry_state]
        cases x.1.payload with
        | normal => exact ClusterTopology.applyCommand_sameButClock hstate ..
        | blank | membership => exact hstate
      · rw [applyEntry_lastLog, applyEntry_lastLog]
      · rw [applyEntry_membership, applyEntry_membership]
        cases hpay : x.1.payload with
        | membership => exact .inl rfl
        | blank | normal => exact hkept (by simp [Entry.isMembership, hpay])
    · -- Dropped: something later overwrites whatever it would have written.
      rw [if_neg hx] at hfs
      have hskip : ¬ x.1 ∈ needed ((x :: es).map Prod.fst) := fun h => hx (hp _ h)
      rw [map_cons, needed] at hskip
      split at hskip
      · exact absurd (mem_cons_self) hskip
      next hnot =>
      simp only [Bool.or_eq_true, Bool.and_eq_true, List.isEmpty_iff, Bool.not_eq_true',
        not_or, not_and, Bool.not_eq_false, map_eq_nil_iff] at hnot
      obtain ⟨⟨hne, hnormal⟩, hlater⟩ := hnot
      rw [replay_cons]
      refine ih hfs hp' ?_ (.inr hne) ?_
      · rw [applyEntry_state]
        cases hpay : x.1.payload with
        | normal => simp [Entry.isNormal, hpay] at hnormal
        | blank | membership => exact hstate
      · rw [applyEntry_membership]
        cases hpay : x.1.payload with
        | membership => exact .inr (hlater (by simp [Entry.isMembership, hpay]))
        | blank | normal => exact hkept (by simp [Entry.isMembership, hpay])

/-- The converse, from a new machine: if nothing is lost by the filter,
it kept every needed entry. `hid` says that ids tell the entries apart. -/
theorem needed_of_agree (hfs : fs.map Prod.fst = (es.map Prod.fst).filter p)
    (hid : ∀ a ∈ es.map Prod.fst, ∀ b ∈ es.map Prod.fst, a.logId = b.logId → a = b)
    (h : Agree (new.replay es) (new.replay fs)) : ∀ e ∈ needed (es.map Prod.fst), p e := by
  intro e he
  obtain ⟨hmem, hwhy⟩ := mem_needed he
  -- A last entry with the id of `e` that survived the filter is `e`.
  have survived {l : List Entry} (hl : l.Sublist ((es.map Prod.fst).filter p))
      (hlast : l.getLast?.map (·.logId) = some e.logId) : p e := by
    obtain ⟨z, hz, hze⟩ := Option.map_eq_some_iff.mp hlast
    obtain ⟨hz', hpz⟩ := mem_filter.mp (hl.subset (mem_of_getLast? hz))
    exact hid z hz' e hmem hze ▸ hpz
  rcases hwhy with hn | hl | hl
  · have hver := h.state.version_eq
    rw [replay_version, replay_version, hfs] at hver
    have hsub : (((es.map Prod.fst).filter p).filter Entry.isNormal).Sublist
        ((es.map Prod.fst).filter Entry.isNormal) := (filter_sublist).filter _
    have heq := hsub.eq_of_length (by omega)
    have he' : e ∈ (es.map Prod.fst).filter Entry.isNormal := mem_filter.mpr ⟨hmem, hn⟩
    rw [← heq] at he'
    exact (mem_filter.mp (mem_filter.mp he').1).2
  · have hlog := h.lastLog
    rw [replay_lastLog, replay_lastLog, hfs, hl] at hlog
    refine survived (List.Sublist.refl _) ?_
    simpa [new] using hlog.symm
  · have hlog := congrArg StoredMembership.logId h.membership
    rw [replay_membership_logId, replay_membership_logId, hfs, hl] at hlog
    refine survived (filter_sublist (p := Entry.isMembership)) ?_
    simpa [new, StoredMembership.empty] using hlog.symm

end TopologyStateMachine

/-! ## Snapshots -/

/-- A serialiser that round-trips, over some type of encoded data. -/
structure Codec (α δ : Type) where
  encode : α → δ
  decode : δ → Option α
  decode_encode : ∀ a, decode (encode a) = some a

/-- The codec that stores the value as it is. -/
def Codec.id (α : Type) : Codec α α := ⟨fun a => a, some, fun _ => rfl⟩

structure StateMachineSnapshot where
  membership : StoredMembership
  topology : ClusterTopology
deriving DecidableEq

structure SnapshotMeta where
  lastLogId : Option LogId
  lastMembership : StoredMembership
deriving DecidableEq

structure Snapshot (δ : Type) where
  snapMeta : SnapshotMeta
  data : δ

namespace TopologyStateMachine

variable {δ : Type} (c : Codec StateMachineSnapshot δ)

/-- `build_snapshot_data`: the current state, serialised. The snapshot is
returned to the caller and kept nowhere. -/
def buildSnapshotData (sm : TopologyStateMachine) : Snapshot δ where
  snapMeta := ⟨sm.lastLog, sm.membership⟩
  data := c.encode ⟨sm.membership, sm.state⟩

/-- `install_snapshot_from`: `none` when the data does not decode. -/
def installSnapshotFrom (_sm : TopologyStateMachine) (snapMeta : SnapshotMeta) (data : δ) :
    Option TopologyStateMachine :=
  (c.decode data).map fun snap =>
    { state := snap.topology
      lastLog := snapMeta.lastLogId
      membership := snap.membership
      published := snap.topology }

/-- `get_current_snapshot_data`: built from the cells at the time of the
call, and absent while nothing has been applied. -/
def getCurrentSnapshotData (sm : TopologyStateMachine) : Option (Snapshot δ) :=
  match sm.lastLog with
  | none => none
  | some lastLogId =>
    some { snapMeta := ⟨some lastLogId, sm.membership⟩
           data := c.encode ⟨sm.membership, sm.state⟩ }

end TopologyStateMachine

end PgCluster
