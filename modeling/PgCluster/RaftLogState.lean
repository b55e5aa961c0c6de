import PgCluster.Machine
import PgCluster.RaftLog

/-!
# The state of the log, and what a crash leaves of it

The calls that change the log, in the order openraft makes them (`proper`), and two
things that should hold of it. `get_log_state` should name the last log id, but it has
none to report of a log that is empty because all of it was purged. And the indices in
the log should be an interval that starts after the purged one (`Gapless`), but
`truncate_since` and `purge_upto` remove one key at a time, in index order: a call that
is cut off leaves a hole behind, or a log that starts later than its marker says.
-/

namespace PgCluster

open List

/-! ## Log ids -/

namespace LogId

/-- Log ids are ordered by the leader, and then by the index. -/
def before (a b : LogId) : Bool :=
  a.term < b.term || (a.term = b.term
    && (a.nodeId < b.nodeId || (a.nodeId = b.nodeId && a.index < b.index)))

/-- The greater of two, where there are any. -/
def later : Option LogId → Option LogId → Option LogId
  | some a, some b => some (if a.before b then b else a)
  | some a, none => some a
  | none, b => b

def Below (a b : LogId) : Prop := a.before b = true ∧ a.index < b.index

theorem Below.trans {a b d : LogId} (hab : a.Below b) (hbd : b.Below d) : a.Below d := by
  simp only [Below, before, Bool.or_eq_true, Bool.and_eq_true, decide_eq_true_eq] at *
  omega

theorem Below.asymm {a b : LogId} (hab : a.Below b) : b.before a = false := by
  simp only [Below, before, Bool.or_eq_true, Bool.and_eq_true, decide_eq_true_eq] at hab
  simp only [before, Bool.or_eq_false_iff, Bool.and_eq_false_iff, decide_eq_false_iff_not]
  omega

end LogId

/-- Log ids that follow each other, from the one before. -/
def consecutive : Option LogId → List Entry → Bool
  | _, [] => true
  | last, e :: es => last.all (fun l => l.before e.logId && e.index = l.index + 1)
      && consecutive (some e.logId) es

variable {es : List Entry}

theorem consecutive_spec {last : Option LogId} (h : consecutive last es) :
    (∀ l ∈ last, ∀ e ∈ es, l.Below e.logId) ∧ es.Pairwise fun a b => a.logId.Below b.logId := by
  induction es generalizing last with
  | nil => exact ⟨fun _ _ => nofun, .nil⟩
  | cons e _ ih =>
    rw [consecutive, Bool.and_eq_true] at h
    obtain ⟨hnext, hes⟩ := ih h.2
    have hlast (l : LogId) (hl : l ∈ last) : l.Below e.logId := by
      obtain rfl : last = some l := hl
      have hnew := Bool.and_eq_true_iff.mp h.1
      exact ⟨hnew.1, (of_decide_eq_true hnew.2 : e.index = l.index + 1).ge⟩
    refine ⟨fun l hl => forall_mem_cons.mpr ⟨hlast l hl, fun x hx => ?_⟩,
      pairwise_cons.mpr ⟨hnext _ rfl, hes⟩⟩
    exact (hlast l hl).trans (hnext _ rfl x hx)

/-! ## Calls -/

/-- A call that changes the log. -/
inductive LogOp where
  | append (entries : List Entry)
  | truncate (logId : LogId)
  | purge (logId : LogId)

def lastPurged (ops : List LogOp) : Option LogId :=
  ops.foldl (fun p op => match op with | .purge logId => some logId | _ => p) none

namespace SledLogStorage

variable {st st' : SledLogStorage}

def apply (st : SledLogStorage) : LogOp → SledLogStorage
  | .append es => st.appendEntries es
  | .truncate logId => st.truncateSince logId
  | .purge logId => st.purgeUpto logId

def after (ops : List LogOp) : SledLogStorage := ops.foldl apply empty

def logMachine : Machine SledLogStorage LogOp where
  init := empty
  step st op := some (st.apply op)

theorem runFrom_logMachine (st : SledLogStorage) (ops : List LogOp) :
    logMachine.runFrom st ops = some (ops.foldl apply st) := by
  induction ops generalizing st with
  | nil => rfl
  | cons op _ ih => exact ih (st.apply op)

/-- Appends follow the last log id, truncations stay above what was purged, and
purges are of ids in the log. -/
def proper (st : SledLogStorage) : LogOp → Bool
  | .append es => consecutive ((st.logs.getLast?.map (·.logId)).or st.purged) es
  | .truncate logId => st.purged.all fun p => p.index < logId.index
  | .purge logId => st.logs.any fun e => e.logId = logId

theorem after_keeps {G : SledLogStorage → LogOp → Prop} {I : SledLogStorage → Prop}
    {ops : List LogOp} (h : logMachine.Meets G empty ops) (hinit : I empty)
    (hstep : ∀ st op, I st → G st op → I (st.apply op)) : I (after ops) :=
  h.keeps (fun st op _ hst hop heq => Option.some.inj heq ▸ hstep st op hst hop) hinit
    (runFrom_logMachine empty ops)

/-! ## The reported state -/

structure Increasing (st : SledLogStorage) : Prop where
  logs : st.logs.Pairwise fun a b => a.logId.Below b.logId
  purged : ∀ p ∈ st.purged, ∀ e ∈ st.logs, p.Below e.logId

theorem Increasing.last (h : Increasing st) {z : Entry} (hz : st.logs.getLast? = some z) :
    ∀ e ∈ st.logs, e = z ∨ e.logId.Below z.logId := by
  obtain ⟨_, hys⟩ := getLast?_eq_some_iff.mp hz
  intro e he
  rw [hys] at he
  obtain he | he := mem_append.mp he
  · exact .inr ((pairwise_append.mp (hys ▸ h.logs)).2.2 e he z (by simp))
  · exact .inl (mem_singleton.mp he)

theorem appendEntries_purged (es : List Entry) : (st.appendEntries es).purged = st.purged := by
  induction es generalizing st with
  | nil => rfl
  | cons _ _ ih => exact ih

theorem Increasing.append (h : Increasing st)
    (hes : consecutive ((st.logs.getLast?.map (·.logId)).or st.purged) es) :
    Increasing (st.appendEntries es) := by
  obtain ⟨hlast, hpairwise⟩ := consecutive_spec hes
  have hboth : (∀ x ∈ st.logs, ∀ e ∈ es, x.logId.Below e.logId)
      ∧ ∀ p ∈ st.purged, ∀ e ∈ es, p.Below e.logId := by
    cases hz : st.logs.getLast? with
    | none =>
      rw [hz] at hlast
      rw [getLast?_eq_none_iff.mp hz]
      exact ⟨nofun, hlast⟩
    | some z =>
      rw [hz] at hlast
      refine ⟨fun x hx e he => ?_, fun p hp e he => ?_⟩
      · obtain rfl | hxz := h.last hz x hx
        · exact hlast _ rfl e he
        · exact hxz.trans (hlast _ rfl e he)
      · exact (h.purged p hp z (mem_of_getLast? hz)).trans (hlast _ rfl e he)
  obtain ⟨hlogs, hpurged⟩ := hboth
  have heq : (st.appendEntries es).logs = st.logs ++ es :=
    appendEntries_logs_of_last (fun x hx e he => (hlogs x hx e he).2) (hpairwise.imp And.right)
  refine ⟨?_, ?_⟩
  · rw [heq]
    exact pairwise_append.mpr ⟨h.logs, hpairwise, hlogs⟩
  · rw [appendEntries_purged, heq]
    exact fun p hp => forall_mem_append.mpr ⟨h.purged p hp, hpurged p hp⟩

theorem Increasing.apply (h : Increasing st) {op : LogOp} (hop : st.proper op) :
    Increasing (st.apply op) := by
  cases op with
  | append => exact h.append hop
  | truncate =>
    exact ⟨h.logs.filter _, fun p hp e he => h.purged p hp e (mem_truncateSince.mp he).1⟩
  | purge logId =>
    refine ⟨h.logs.filter _, ?_⟩
    rintro p ⟨⟩ e he
    obtain ⟨he, hlt⟩ := mem_purgeUpto.mp he
    obtain ⟨x, hx, heq⟩ := any_eq_true.mp hop
    rw [← of_decide_eq_true heq] at hlt ⊢
    refine List.Pairwise.forall_of_forall_of_flip
      (R := fun a b : Entry => a.index < b.index → a.logId.Below b.logId)
      (fun a _ hlt => absurd hlt (Nat.lt_irrefl _)) ?_ ?_ hx he hlt
    · refine h.logs.imp ?_
      intro a b hbelow _
      exact hbelow
    · exact h.logs.imp fun hbelow hlt => absurd hlt (Nat.lt_asymm hbelow.2)

theorem purged_after (ops : List LogOp) : (after ops).purged = lastPurged ops := by
  refine (foldl_hom purged fun st op => ?_).symm
  cases op with
  | append => exact (appendEntries_purged _).symm
  | truncate | purge => rfl

/-- Over calls in the order of a Raft log, the state names what was purged last, and
the greater of it and the last entry exactly if there is an entry or nothing was
purged. -/
theorem log_state_reports {ops : List LogOp}
    (hproper : logMachine.Meets (fun st op => st.proper op = true) empty ops) :
    (after ops).getLogState.lastPurgedLogId = lastPurged ops
      ∧ ((after ops).getLogState.lastLogId
          = LogId.later ((after ops).logs.getLast?.map (·.logId)) (lastPurged ops)
        ↔ (after ops).logs ≠ [] ∨ lastPurged ops = none) := by
  have hs : Increasing (after ops) :=
    after_keeps hproper ⟨.nil, nofun⟩ fun st op h hop => h.apply hop
  refine ⟨purged_after ops, ?_⟩
  rw [← purged_after, ← getLast?_isSome]
  simp only [getLogState]
  cases hz : (after ops).logs.getLast? with
  | none => cases (after ops).purged <;> simp [LogId.later]
  | some z =>
    cases hp : (after ops).purged with
    | none => simp [LogId.later]
    | some p =>
      have hbelow := hs.purged p hp z (mem_of_getLast? hz)
      simp [LogId.later, hbelow.asymm]

/-- Entries of one leader, from index 0 on. -/
def entries (n : Nat) : LogOp := .append ((List.range n).map fun i => ⟨⟨1, 1, i⟩, .blank⟩)

theorem log_state_reports_purged : (after [entries 2, .purge ⟨1, 1, 0⟩]).getLogState.lastLogId
      = LogId.later (some ⟨1, 1, 1⟩) (some ⟨1, 1, 0⟩) := by
  have hproper : logMachine.Meets (fun st op => st.proper op = true) empty
      [entries 2, .purge ⟨1, 1, 0⟩] := by decide
  exact (log_state_reports hproper).2.mpr (.inl (by decide))

/-- All of the log is purged, and no last log id is left. -/
theorem purged_log_reports_none :
    logMachine.Meets (fun st op => st.proper op = true) empty [entries 2, .purge ⟨1, 1, 1⟩]
      ∧ (after [entries 2, .purge ⟨1, 1, 1⟩]).getLogState = ⟨some ⟨1, 1, 1⟩, none⟩ :=
  ⟨by decide, by decide⟩

/-! ## Crashes -/

inductive LogWrite where
  | remove (index : Nat)
  | mark (logId : LogId)

/-- The writes of `truncate_since` and `purge_upto`, in program order: the removes in
the order of the scan, and the purge marker last. A batch is atomic. -/
def writes (st : SledLogStorage) : LogOp → List LogWrite
  | .append _ => []
  | .truncate logId =>
      (st.logs.filter fun e => logId.index ≤ e.index).map fun e => .remove e.index
  | .purge logId =>
      (st.logs.filter fun e => e.index ≤ logId.index).map (fun e => .remove e.index)
        ++ [.mark logId]

def write (st : SledLogStorage) : LogWrite → SledLogStorage
  | .remove index => ⟨st.logs.filter (·.index ≠ index), st.purged, st.sorted.filter _⟩
  | .mark logId => { st with purged := some logId }

/-- What is found after a crash in a call of which the first `durable` writes are on
disk. -/
def crashed (st : SledLogStorage) (op : LogOp) (durable : Nat) : SledLogStorage :=
  ((st.writes op).take durable).foldl write st

/-- The first index of a log that starts where its marker says. -/
def Starts (st : SledLogStorage) (first : Nat) : Prop :=
  match st.purged with
  | some p => first = p.index + 1
  | none => first ≤ 1

/-- The log has the indices of an interval. -/
def Spans (st : SledLogStorage) (first n : Nat) : Prop :=
  ∀ i, (∃ e ∈ st.logs, e.index = i) ↔ first ≤ i ∧ i < first + n

/-- No holes, and a start that fits what is recorded as purged. -/
def Gapless (st : SledLogStorage) : Prop := ∃ first n, st.Starts first ∧ st.Spans first n

/-- A log that starts anew starts at 0 or 1. -/
def startsLow (st : SledLogStorage) : LogOp → Bool
  | .append (e :: _) => st.logs ≠ [] || st.purged.isSome || e.index ≤ 1
  | _ => true

theorem mem_insertEntry {x e : Entry} :
    e ∈ (st.insertEntry x).logs ↔ e = x ∨ e ∈ st.logs ∧ e.index ≠ x.index := by
  simp only [insertEntry, mem_append, mem_cons, mem_filter, decide_eq_true_eq]
  grind

theorem Spans.append {first n : Nat} (h : st.Spans first n) {last : LogId}
    (hes : consecutive (some last) es) (hlast : last.index + 1 = first + n) :
    ∃ m, (st.appendEntries es).Spans first m := by
  induction es generalizing st n last with
  | nil => exact ⟨n, h⟩
  | cons e _ ih =>
    rw [consecutive, Bool.and_eq_true] at hes
    have hindex : e.index = last.index + 1 := of_decide_eq_true (Bool.and_eq_true_iff.mp hes.1).2
    have hspans : (st.insertEntry e).Spans first (n + 1) := by
      intro i
      have hi := h i
      simp only [mem_insertEntry]
      grind
    refine ih hspans hes.2 ?_
    show e.index + 1 = _
    omega

theorem Gapless.append (h : st.Gapless)
    (hes : st.proper (.append es)) (hlow : st.startsLow (.append es)) :
    (st.appendEntries es).Gapless := by
  obtain ⟨first, n, hfirst, hspans⟩ := h
  have hstarts : ∀ k, st.Starts k → (st.appendEntries es).Starts k := by
    simp [Starts, appendEntries_purged]
  suffices ∃ k m, st.Starts k ∧ (st.appendEntries es).Spans k m by
    obtain ⟨k, m, hk, hm⟩ := this
    exact ⟨k, m, hstarts k hk, hm⟩
  cases es with
  | nil => exact ⟨first, n, hfirst, hspans⟩
  | cons e =>
    simp only [proper] at hes
    cases hz : st.logs.getLast? with
    | some z =>
      -- the last entry has the last index of the interval
      have hlast : z.logId.index + 1 = first + n := by
        have hin := (hspans z.index).mp ⟨z, mem_of_getLast? hz, rfl⟩
        have hout : ¬ (first ≤ z.index + 1 ∧ z.index + 1 < first + n) := fun hnext => by
          obtain ⟨x, hx, _⟩ := (hspans _).mpr hnext
          have hle := index_le_getLast st.sorted hz hx
          omega
        show z.index + 1 = _
        omega
      rw [hz] at hes
      obtain ⟨m, hm⟩ := hspans.append hes hlast
      exact ⟨first, m, hfirst, hm⟩
    | none =>
      have hnil := getLast?_eq_none_iff.mp hz
      have hempty (k : Nat) : st.Spans k 0 := fun i => by simp [hnil]
      rw [hz] at hes
      cases hp : st.purged with
      | some p =>
        have hstart : st.Starts (p.index + 1) := by simp [Starts, hp]
        rw [hp] at hes
        obtain ⟨m, hm⟩ := (hempty _).append hes rfl
        exact ⟨_, m, hstart, hm⟩
      | none =>
        have hstart : st.Starts e.index := by simpa [startsLow, hnil, hp, Starts] using hlow
        have hone : (st.insertEntry e).Spans e.index 1 := fun i => by
          simp only [mem_insertEntry, hnil]
          grind
        rw [hp, consecutive, Bool.and_eq_true] at hes
        obtain ⟨m, hm⟩ := hone.append hes.2 rfl
        exact ⟨_, m, hstart, hm⟩

theorem Gapless.truncate (h : st.Gapless) (logId : LogId) : (st.truncateSince logId).Gapless := by
  obtain ⟨first, n, hfirst, hspans⟩ := h
  refine ⟨first, min (first + n) logId.index - first, hfirst, fun i => ?_⟩
  have hi := hspans i
  simp only [mem_truncateSince]
  grind

theorem Gapless.purge (h : st.Gapless) {logId : LogId}
    (hlog : st.logs.any (fun e => e.logId = logId)) : (st.purgeUpto logId).Gapless := by
  obtain ⟨first, n, _, hspans⟩ := h
  obtain ⟨x, hx, heq⟩ := any_eq_true.mp hlog
  have hin := (hspans x.index).mp ⟨x, hx, rfl⟩
  have hindex : x.index = logId.index := congrArg LogId.index (of_decide_eq_true heq)
  refine ⟨logId.index + 1, first + n - (logId.index + 1), rfl, fun i => ?_⟩
  have hi := hspans i
  simp only [mem_purgeUpto]
  grind

theorem Gapless.apply (h : st.Gapless) {op : LogOp} (hop : st.proper op)
    (hlow : st.startsLow op) : (st.apply op).Gapless := by
  cases op with
  | append => exact h.append hop hlow
  | truncate logId => exact h.truncate logId
  | purge => exact h.purge hop

theorem foldl_remove (is : List Nat) (st : SledLogStorage) :
    (∀ e, e ∈ ((is.map LogWrite.remove).foldl write st).logs ↔ e ∈ st.logs ∧ e.index ∉ is)
      ∧ ((is.map LogWrite.remove).foldl write st).purged = st.purged := by
  induction is generalizing st with
  | nil => simp
  | cons i _ ih =>
    obtain ⟨hlogs, hpurged⟩ := ih (st.write (.remove i))
    refine ⟨fun e => (hlogs e).trans ?_, hpurged⟩
    simp only [write, mem_filter, decide_eq_true_eq, mem_cons]
    grind

/-- Entries whose indices are an interval are removed in its order. -/
theorem removes_eq (keep : Entry → Bool) {a m : Nat}
    (h : ∀ i, (∃ e ∈ st.logs, keep e = true ∧ e.index = i) ↔ a ≤ i ∧ i < a + m) :
    (st.logs.filter keep).map (fun e => LogWrite.remove e.index)
      = (range' a m).map LogWrite.remove := by
  have hindices : (st.logs.filter keep).map Entry.index = range' a m := by
    refine Pairwise.eq_of_mem_iff (r := (· < ·)) ?_ (pairwise_lt_range' 1) fun i => ?_
    · exact pairwise_map.mpr (st.sorted.filter keep)
    · simp only [mem_map, mem_filter, and_assoc, mem_range'_1, h]
  rw [← hindices, map_map]
  rfl

theorem take_removes (a m k : Nat) : ((range' a m).map LogWrite.remove).take k
    = (range' a (min k m)).map LogWrite.remove := by
  rw [← map_take]
  congr 1
  exact ext_getElem (by simp) (by simp)

/-- An interval is cut out of the log, and its marker is as before. -/
theorem Spans.gapless_cut_iff {first n a k : Nat} (hspans : st.Spans first n)
    (hfirst : st.Starts first) (hlow : first ≤ a) (hhigh : a + k ≤ first + n)
    (hlogs : ∀ e, e ∈ st'.logs ↔ e ∈ st.logs ∧ e.index ∉ range' a k)
    (hpurged : st'.purged = st.purged) :
    st'.Gapless ↔ k = 0 ∨ a + k = first + n ∨ (a = 0 ∧ k = 1 ∧ st.purged = none) := by
  have hmem (i : Nat) : (∃ e ∈ st'.logs, e.index = i)
      ↔ (first ≤ i ∧ i < first + n) ∧ ¬ (a ≤ i ∧ i < a + k) := by
    rw [← hspans i]
    simp only [hlogs, mem_range'_1]
    grind
  have hstarts (i : Nat) : st'.Starts i ↔ st.Starts i := by rw [Starts, hpurged, Starts]
  constructor
  · rintro ⟨first', n', hfirst', hspans'⟩
    by_contra! hcut
    have hin (i : Nat) := (hspans' i).symm.trans (hmem i)
    have hend := hin (a + k)
    have hhole := hin a
    have hbegin := hin first
    have hbegin' := hin first'
    -- The end of the cut is the first index left, and the cut was at the beginning.
    obtain ⟨rfl, rfl⟩ : first' = first + k ∧ a = first := by omega
    rw [hstarts] at hfirst'
    unfold Starts at hfirst hfirst'
    cases hp : st.purged with
    | some p =>
      rw [hp] at hfirst hfirst'
      omega
    | none =>
      rw [hp] at hfirst hfirst'
      exact hcut.2.2 (by omega) (by omega) hp
  · rintro (rfl | hend | ⟨rfl, rfl, hnone⟩)
    · exact ⟨first, n, (hstarts _).mpr hfirst, fun i => (hmem i).trans (by omega)⟩
    · exact ⟨first, a - first, (hstarts _).mpr hfirst, fun i => (hmem i).trans (by omega)⟩
    · refine ⟨1, n - 1, (hstarts _).mpr ?_, fun i => (hmem i).trans (by omega)⟩
      simp [Starts, hnone]

/-- What is on disk of the writes of a call: nothing, all, removes enough to empty the
log, or the first remove of a log at index 0 of which nothing was purged. -/
def Harmless (st : SledLogStorage) (op : LogOp) (durable : Nat) : Prop :=
  durable = 0 ∨ (st.writes op).length ≤ durable ∨ st.logs.length ≤ durable
    ∨ (durable = 1 ∧ st.purged = none ∧ (st.writes op).head? = some (.remove 0))

theorem Spans.length {first n : Nat} (h : st.Spans first n) : st.logs.length = n := by
  have hremoves := st.removes_eq (fun _ => true) (a := first) (m := n) fun i => by simpa using h i
  simpa using congrArg List.length hremoves

theorem Spans.crashed_truncate_iff {first n durable : Nat} (hspans : st.Spans first n)
    (hfirst : st.Starts first) (logId : LogId) :
    (st.crashed (.truncate logId) durable).Gapless ↔ st.Harmless (.truncate logId) durable := by
  obtain ⟨a, ha⟩ : ∃ a, a = min (max first logId.index) (first + n) := ⟨_, rfl⟩
  have hremoves := st.removes_eq (fun e => logId.index ≤ e.index) (a := a) (m := first + n - a)
    fun i => by
      have hi := hspans i
      grind
  obtain ⟨hlogs, hpurged⟩ := foldl_remove (range' a (min durable (first + n - a))) st
  rw [crashed, Harmless, writes, hremoves, take_removes, hspans.length,
    hspans.gapless_cut_iff hfirst (by omega) (by omega) hlogs hpurged]
  simp only [length_map, length_range', head?_map, head?_range']
  grind

theorem Spans.crashed_purge_iff {first n durable : Nat} (hspans : st.Spans first n)
    (hfirst : st.Starts first) {logId : LogId} (hop : st.proper (.purge logId)) :
    (st.crashed (.purge logId) durable).Gapless ↔ st.Harmless (.purge logId) durable := by
  obtain ⟨x, hx, heq⟩ := any_eq_true.mp hop
  have hindex : x.index = logId.index := congrArg LogId.index (of_decide_eq_true heq)
  have hin := (hspans x.index).mp ⟨x, hx, rfl⟩
  obtain ⟨m, hm⟩ : ∃ m, m = logId.index + 1 - first := ⟨_, rfl⟩
  have hremoves := st.removes_eq (fun e => e.index ≤ logId.index) (a := first) (m := m) fun i => by
    have hi := hspans i
    grind
  rw [crashed, Harmless, writes, hremoves, hspans.length]
  by_cases hdurable : durable ≤ m
  · obtain ⟨hlogs, hpurged⟩ := foldl_remove (range' first durable) st
    rw [take_append_of_le_length (by simpa using hdurable), take_removes, min_eq_left hdurable,
      hspans.gapless_cut_iff hfirst le_rfl (by omega) hlogs hpurged]
    simp only [length_append, length_map, length_range', length_singleton, head?_append,
      head?_map, head?_range']
    grind
  · -- The marker is on disk, and says where the rest starts.
    obtain ⟨hlogs, -⟩ := foldl_remove (range' first m) st
    rw [take_of_length_le (by simp; omega), foldl_append]
    refine iff_of_true ?_ (.inr (.inl (by simp; omega)))
    refine ⟨logId.index + 1, first + n - (logId.index + 1), rfl, fun i => ?_⟩
    have hi := hspans i
    simp only [foldl_cons, foldl_nil, write, hlogs, mem_range'_1]
    grind

/-- In every log of proper calls, a crash inside a proper call leaves no hole and the
right start exactly if what is on disk by then is harmless. -/
theorem crash_leaves_no_hole_iff {ops : List LogOp} {op : LogOp} {durable : Nat}
    (hproper : logMachine.Meets
      (fun st op => st.proper op = true ∧ st.startsLow op = true) empty ops)
    (hop : (after ops).proper op = true) :
    ((after ops).crashed op durable).Gapless ↔ (after ops).Harmless op durable := by
  have hs : (after ops).Gapless :=
    after_keeps hproper ⟨0, 0, Nat.zero_le 1, fun i => by simp [empty]⟩
      fun st op h hop => h.apply hop.1 hop.2
  obtain ⟨first, n, hfirst, hspans⟩ := hs
  cases op with
  | append =>
    rw [crashed, writes, take_nil]
    exact iff_of_true ⟨first, n, hfirst, hspans⟩ (.inr (.inl (Nat.zero_le _)))
  | truncate logId => exact hspans.crashed_truncate_iff hfirst logId
  | purge => exact hspans.crashed_purge_iff hfirst hop

theorem crash_leaves_no_hole_purged : ((after [entries 3]).crashed (.purge ⟨1, 1, 1⟩) 3).Gapless
      ∧ ((after [entries 3]).crashed (.purge ⟨1, 1, 1⟩) 3).logs.map Entry.index = [2] :=
  ⟨(crash_leaves_no_hole_iff (by decide) (by decide)).mpr (.inr (.inl (by decide))), by decide⟩

/-- A truncation from index 1 loses power after its first remove, and a purge up to
index 1 before its marker is on disk. -/
theorem crash_leaves_hole :
    logMachine.Meets (fun st op => st.proper op = true ∧ st.startsLow op = true) empty [entries 4]
      ∧ ((after [entries 4]).crashed (.truncate ⟨1, 1, 1⟩) 1).logs.map Entry.index = [0, 2, 3]
      ∧ ¬ ((after [entries 4]).crashed (.truncate ⟨1, 1, 1⟩) 1).Gapless
      ∧ ((after [entries 4]).crashed (.purge ⟨1, 1, 1⟩) 2).logs.map Entry.index = [2, 3]
      ∧ ((after [entries 4]).crashed (.purge ⟨1, 1, 1⟩) 2).purged = none
      ∧ ¬ ((after [entries 4]).crashed (.purge ⟨1, 1, 1⟩) 2).Gapless := by
  refine ⟨by decide, by decide, ?_, by decide, by decide, ?_⟩
  · rintro ⟨first, n, -, hspans⟩
    have hzero := (hspans 0).mp (by decide)
    have htwo := (hspans 2).mp (by decide)
    have hone : ¬ (first ≤ 1 ∧ 1 < first + n) := fun h => absurd ((hspans 1).mpr h) (by decide)
    omega
  · rintro ⟨first, n, hfirst, hspans⟩
    have htwo := (hspans 2).mp (by decide)
    have hone : ¬ (first ≤ 1 ∧ 1 < first + n) := fun h => absurd ((hspans 1).mpr h) (by decide)
    have hlow : first ≤ 1 := hfirst
    omega

end SledLogStorage

end PgCluster
