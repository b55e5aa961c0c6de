import PgCluster.RaftStateMachine

/-!
# The durable Raft log

`SledLogStorage` of `raft/storage.rs`: two sled trees, of which `raft_logs`
maps a log index to an entry and `raft_meta` holds the purge marker. Keys
are big-endian, so a scan of `raft_logs` is in index order; the tree is the
list of its entries in that order, and `sorted` carries the order, and with
it the uniqueness of indices, so that no other list can be a log.

Each operation is followed by the lemmas its callers use; nothing outside
this file looks inside `insertEntry`.
-/

namespace PgCluster

open List

/-! ## Index order -/

/-- `a` comes before `b` in a scan of the log. -/
def Entry.Before (a b : Entry) : Prop := a.index < b.index

instance : Std.Irrefl Entry.Before := ⟨fun a => Nat.lt_irrefl a.index⟩

instance : Std.Antisymm Entry.Before :=
  ⟨fun _ _ hab hba => absurd hba (Nat.lt_asymm hab)⟩

theorem eq_of_index_eq {l : List Entry} (hl : l.Pairwise Entry.Before) {a b : Entry}
    (ha : a ∈ l) (hb : b ∈ l) (h : a.index = b.index) : a = b := by
  refine List.Pairwise.forall_of_forall_of_flip
    (R := fun x y => x.index = y.index → x = y) (fun _ _ _ => rfl) ?_ ?_ ha hb h
  · exact hl.imp fun hlt heq => absurd heq (Nat.ne_of_lt hlt)
  · exact hl.imp fun hlt heq => absurd heq (Nat.ne_of_gt hlt)

theorem index_le_getLast {l : List Entry} (hl : l.Pairwise Entry.Before) {a z : Entry}
    (hz : l.getLast? = some z) (ha : a ∈ l) : a.index ≤ z.index := by
  obtain ⟨_, rfl⟩ := getLast?_eq_some_iff.mp hz
  rcases mem_append.mp ha with hy | hy
  · exact Nat.le_of_lt ((pairwise_append.mp hl).2.2 a hy z (mem_singleton.mpr rfl))
  · rw [mem_singleton.mp hy]

/-! ## The store -/

/-- Both sled trees, without the vote, which nothing here reads. -/
structure SledLogStorage where
  logs : List Entry
  purged : Option LogId
  sorted : logs.Pairwise Entry.Before
deriving DecidableEq

structure LogState where
  lastPurgedLogId : Option LogId
  lastLogId : Option LogId
deriving DecidableEq

/-- One end of a Rust range of indices. -/
inductive Bound where
  | included (n : Nat)
  | excluded (n : Nat)
  | unbounded
deriving DecidableEq

def Bound.startsBelow : Bound → Nat → Bool
  | .included m, n => decide (m ≤ n)
  | .excluded m, n => decide (m < n)
  | .unbounded, _ => true

def Bound.endsAbove : Bound → Nat → Bool
  | .included m, n => decide (n ≤ m)
  | .excluded m, n => decide (n < m)
  | .unbounded, _ => true

namespace SledLogStorage

/-- A newly created database. -/
def empty : SledLogStorage := ⟨[], none, List.Pairwise.nil⟩

def getEntriesRange (st : SledLogStorage) (lo hi : Bound) : List Entry :=
  st.logs.filter fun e => lo.startsBelow e.index && hi.endsAbove e.index

def getLogState (st : SledLogStorage) : LogState where
  lastPurgedLogId := st.purged
  lastLogId := st.logs.getLast?.map (·.logId)

/-- One insert of a batch: the entry takes its index, over an older one. -/
def insertEntry (st : SledLogStorage) (e : Entry) : SledLogStorage where
  logs := st.logs.filter (fun x => decide (x.index < e.index))
    ++ e :: st.logs.filter (fun x => decide (e.index < x.index))
  purged := st.purged
  sorted := by
    rw [List.pairwise_append, List.pairwise_cons]
    refine ⟨st.sorted.filter _, ⟨?_, st.sorted.filter _⟩, ?_⟩
    · intro x hx
      have hex : e.index < x.index := of_decide_eq_true (List.mem_filter.mp hx).2
      exact hex
    · intro a ha b hb
      have hae : a.index < e.index := of_decide_eq_true (List.mem_filter.mp ha).2
      rcases List.mem_cons.mp hb with rfl | hb
      · exact hae
      · have heb : e.index < b.index := of_decide_eq_true (List.mem_filter.mp hb).2
        exact Nat.lt_trans hae heb

/-- `append_entries`: one batch of inserts, flushed. -/
def appendEntries (st : SledLogStorage) (es : List Entry) : SledLogStorage :=
  es.foldl insertEntry st

/-- `truncate_since`: remove the entry at this index and all after it. -/
def truncateSince (st : SledLogStorage) (logId : LogId) : SledLogStorage where
  logs := st.logs.filter fun e => decide (e.index < logId.index)
  purged := st.purged
  sorted := st.sorted.filter _

/-- `purge_upto`: remove every entry up to this index, and record it. -/
def purgeUpto (st : SledLogStorage) (logId : LogId) : SledLogStorage where
  logs := st.logs.filter fun e => decide (logId.index < e.index)
  purged := some logId
  sorted := st.sorted.filter _

/-! ## Membership after each operation -/

variable {st : SledLogStorage} {e : Entry}

theorem mem_getEntriesRange {lo hi : Bound} : e ∈ st.getEntriesRange lo hi ↔
      e ∈ st.logs ∧ lo.startsBelow e.index ∧ hi.endsAbove e.index := by
  simp [getEntriesRange]

theorem getEntriesRange_sorted (st : SledLogStorage) (lo hi : Bound) :
    (st.getEntriesRange lo hi).Pairwise Entry.Before :=
  st.sorted.filter _

theorem mem_truncateSince {logId : LogId} :
    e ∈ (st.truncateSince logId).logs ↔ e ∈ st.logs ∧ e.index < logId.index := by
  simp [truncateSince]

theorem mem_purgeUpto {logId : LogId} :
    e ∈ (st.purgeUpto logId).logs ↔ e ∈ st.logs ∧ logId.index < e.index := by
  simp [purgeUpto]

theorem insertEntry_logs_of_last (h : ∀ x ∈ st.logs, x.index < e.index) :
    (st.insertEntry e).logs = st.logs ++ [e] := by
  have hlow : st.logs.filter (fun x => decide (x.index < e.index)) = st.logs :=
    filter_eq_self.mpr fun x hx => decide_eq_true (h x hx)
  have hhigh : st.logs.filter (fun x => decide (e.index < x.index)) = [] :=
    filter_eq_nil_iff.mpr fun x hx => by simpa using Nat.le_of_lt (h x hx)
  simp only [insertEntry, hlow, hhigh]

theorem appendEntries_logs_of_last {es : List Entry}
    (h : ∀ x ∈ st.logs, ∀ e ∈ es, x.index < e.index) (hes : es.Pairwise Entry.Before) :
    (st.appendEntries es).logs = st.logs ++ es := by
  induction es generalizing st with
  | nil => simp [appendEntries]
  | cons e es ih =>
    have hins := insertEntry_logs_of_last fun x hx => h x hx e (mem_cons_self)
    have hes' := pairwise_cons.mp hes
    have hstep : st.appendEntries (e :: es) = (st.insertEntry e).appendEntries es := rfl
    rw [hstep, ih ?_ hes'.2, hins, append_assoc, singleton_append]
    intro x hx y hy
    rw [hins] at hx
    rcases mem_append.mp hx with hx | hx
    · exact h x hx y (mem_cons_of_mem _ hy)
    · rw [mem_singleton.mp hx]
      exact hes'.1 y hy

end SledLogStorage

end PgCluster
