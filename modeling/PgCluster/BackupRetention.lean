import PgCluster.DesiredState

/-!
# Retention of backups

An instance backs up every day. WAL-G makes a full backup and then deltas up to
`DELTA_STEPS`, and after each backup all but the newest `retain_full` full ones are deleted,
a delta with the full backup it is of. Backups on demand are further steps of the same chain,
so that they bring the next full backup forward.

A chain is a list of backups, the newest first, with times in seconds.
-/

namespace PgCluster.Retention

open List Desired

def backupIntervalSeconds : Nat := 86400

def deltaSteps : Nat := 6

/-- The step is 0 of a full backup, and of a delta its number. -/
structure ChainBackup where
  finish : Nat
  step : Nat

/-- `wal-g delete retain FULL`: everything from the last of the newest full backups on. -/
def keepFull (n : Nat) : List ChainBackup → List ChainBackup
  | [] => []
  | b :: older => if n = 0 then [] else b :: keepFull (if b.step = 0 then n - 1 else n) older

/-- `WalG::delete` without a target. -/
def walgDelete (n : Nat) (kept : List ChainBackup) : List ChainBackup :=
  if n > 0 then keepFull n kept else kept

/-- `wal-g backup-push`: a delta of what is there, unless that is nothing or the deltas of the
last full backup are all made. -/
def backupPush (kept : List ChainBackup) (finish : Nat) : List ChainBackup :=
  ⟨finish, kept.head?.elim 0 fun b => if b.step < deltaSteps then b.step + 1 else 0⟩ :: kept

def runBackup (n : Nat) (kept : List ChainBackup) (finish : Nat) : List ChainBackup :=
  walgDelete n (backupPush kept finish)

/-- What is in the repository after backups that finished at these times. -/
def repository (n : Nat) : List Nat → List ChainBackup
  | [] => []
  | finish :: older => runBackup n (repository n older) finish

/-! ## The schedule -/

/-- A backup that was taken, by the schedule or on demand. -/
structure Taken where
  finish : Nat
  onDemand : Bool

/-- The backups up to `t`, of which `k` are scheduled, one every day from `start` on. -/
structure Schedule (start k t : Nat) (runs : List Taken) : Prop where
  ordered : runs.Pairwise fun newer older => older.finish ≤ newer.finish
  scheduled : (runs.filter (!·.onDemand)).map (·.finish)
    = (range k).reverse.map fun j => start + j * backupIntervalSeconds
  taken : ∀ r ∈ runs, r.finish ≤ t
  next : t < start + k * backupIntervalSeconds

/-- The window of a database, in seconds. -/
def window (b : BackupSettings) : Nat := b.retentionDays * backupIntervalSeconds

/-- Some backup that is kept is as old as the window. -/
def Covered (b : BackupSettings) (t : Nat) (runs : List Taken) : Prop :=
  ∃ k ∈ repository b.retainFull (runs.map (·.finish)), k.finish + window b ≤ t

/-- How many backups are as old as the window. -/
def older (b : BackupSettings) (t : Nat) (runs : List Taken) : Nat :=
  runs.countP (·.finish + window b ≤ t)

/-- How many in the window were made on demand. -/
def onDemandSince (b : BackupSettings) (t : Nat) (runs : List Taken) : Nat :=
  (runs.filter (·.onDemand)).countP (t < ·.finish + window b)

/-- Of so many backups, every seventh is full, from the first. -/
def fullCount (backups : Nat) : Nat := (backups + deltaSteps) / (deltaSteps + 1)

/-! ## What is kept -/

variable {start k t : Nat} {runs : List Taken} {b : BackupSettings}

theorem keepFull_keepFull {m n : Nat} (h : m ≤ n) (chain : List ChainBackup) :
    keepFull m (keepFull n chain) = keepFull m chain := by
  induction chain generalizing m n with
  | nil => rfl
  | cons b older ih =>
    by_cases hm : m = 0
    · by_cases hn : n = 0 <;> simp [keepFull, hm, hn]
    · rw [keepFull, if_neg (by omega), keepFull, keepFull, ih (by split <;> omega)]

/-- The chain of all backups, with every seventh full. -/
def chainOf : List Nat → List ChainBackup
  | [] => []
  | finish :: older => ⟨finish, older.length % (deltaSteps + 1)⟩ :: chainOf older

/-- A backup is full when their number says so, whatever was deleted. -/
theorem backupPush_keepFull {n : Nat} (hn : n ≠ 0) (finish : Nat) (older : List Nat) :
    backupPush (keepFull n (chainOf older)) finish
      = ⟨finish, older.length % (deltaSteps + 1)⟩ :: keepFull n (chainOf older) := by
  cases older with
  | nil => rfl
  | cons _ older =>
    rw [chainOf, keepFull, if_neg hn, backupPush]
    congr 2
    show (if older.length % 7 < 6 then older.length % 7 + 1 else 0) = (older.length + 1) % 7
    split <;> omega

/-- Deleting after every backup leaves what deleting once at the end would. -/
theorem repository_eq {n : Nat} (hn : n ≠ 0) (times : List Nat) :
    repository n times = keepFull n (chainOf times) := by
  induction times with
  | nil => rfl
  | cons finish older ih =>
    rw [repository, runBackup, walgDelete, if_pos (Nat.pos_of_ne_zero hn), ih,
      backupPush_keepFull hn, chainOf, keepFull, keepFull, keepFull_keepFull (by split <;> omega)]

theorem fullCount_succ (n : Nat) :
    fullCount (n + 1) = fullCount n + if n % (deltaSteps + 1) = 0 then 1 else 0 := by
  by_cases h : n % (deltaSteps + 1) = 0
  all_goals
    simp only [h, if_true, if_false]
    simp only [fullCount, deltaSteps] at h ⊢
    omega

/-- Something of that age is left exactly if there are fewer full backups since than are kept. -/
theorem exists_old_keepFull {age : Nat} {times : List Nat}
    (hordered : times.Pairwise fun newer older => older ≤ newer)
    (hold : ∃ f ∈ times, f + age ≤ t) (n : Nat) :
    (∃ b ∈ keepFull n (chainOf times), b.finish + age ≤ t)
      ↔ fullCount times.length < fullCount (times.countP (· + age ≤ t)) + n := by
  induction times generalizing n with
  | nil => cases hold.choose_spec.1
  | cons finish older ih =>
    obtain ⟨hfinish, hordered⟩ := pairwise_cons.mp hordered
    by_cases hn : n = 0
    · have hle := countP_le_length (p := (· + age ≤ t)) (l := finish :: older)
      refine iff_of_false (by simp [chainOf, keepFull, hn]) ?_
      simp only [fullCount, deltaSteps, hn]
      omega
    rw [chainOf, keepFull, if_neg hn, exists_mem_cons_iff]
    by_cases hyoung : t < finish + age
    · -- The newest is in the window: what is old is behind it.
      have hrest : ∃ f ∈ older, f + age ≤ t := by
        obtain ⟨f, hf, hle⟩ := hold
        rcases mem_cons.mp hf with rfl | hf
        · omega
        · exact ⟨f, hf, hle⟩
      rw [or_iff_right (Nat.not_le.mpr hyoung), ih hordered hrest, length_cons, fullCount_succ,
        countP_cons_of_neg (by simpa using hyoung)]
      by_cases hfull : older.length % (deltaSteps + 1) = 0
      · simp only [hfull, if_true]
        omega
      · simp [hfull]
    · have hall : ∀ f ∈ finish :: older, decide (f + age ≤ t) = true :=
        forall_mem_cons.mpr ⟨decide_eq_true (by omega), fun f hf => decide_eq_true (by
          have hle := hfinish f hf
          omega)⟩
      rw [countP_eq_length.mpr hall]
      exact iff_of_true (.inl (Nat.not_lt.mp hyoung)) (by omega)

/-! ## What the schedule gives -/

theorem countP_le_range (c k : Nat) : (range k).countP (c ≤ ·) = k - c := by
  induction k with
  | zero => simp
  | succ k ih =>
    rw [range_succ, countP_append, ih]
    by_cases h : c ≤ k <;> simp [h] <;> omega

theorem Schedule.mem (h : Schedule start k t runs) {j : Nat} (hj : j < k) :
    ∃ r ∈ runs, r.finish = start + j * backupIntervalSeconds := by
  have hmem : start + j * backupIntervalSeconds ∈ (runs.filter (!·.onDemand)).map (·.finish) := by
    rw [h.scheduled]
    exact mem_map.mpr ⟨j, by simpa using hj, rfl⟩
  obtain ⟨r, hr, hfinish⟩ := mem_map.mp hmem
  exact ⟨r, (mem_filter.mp hr).1, hfinish⟩

theorem Schedule.pos (h : Schedule start k t runs) (ht : start + window b ≤ t) :
    b.retentionDays < k := by
  have hnext := h.next
  simp only [window, backupIntervalSeconds] at ht hnext
  omega

/-- There is a scheduled backup for each day of the window. -/
theorem Schedule.length (h : Schedule start k t runs) (ht : start + window b ≤ t) :
    runs.length = older b t runs + b.retentionDays + onDemandSince b t runs := by
  have hlt := h.pos ht
  have hnext := h.next
  obtain ⟨r, hr, hfinish⟩ := h.mem (show k - 1 < k by omega)
  have hlast := h.taken r hr
  simp only [hfinish, backupIntervalSeconds] at hlast hnext
  have hscheduled : (runs.filter (!·.onDemand)).countP (t < ·.finish + window b)
      = b.retentionDays := by
    have hcount := congrArg (countP (t < · + window b)) h.scheduled
    rw [countP_map, countP_map, countP_reverse] at hcount
    have hrange : (range k).countP (t < start + · * backupIntervalSeconds + window b)
        = (range k).countP (k - b.retentionDays ≤ ·) := by
      refine countP_congr fun j hj => ?_
      have hj := mem_range.mp hj
      rw [decide_eq_true_eq, decide_eq_true_eq, window, backupIntervalSeconds]
      omega
    exact (hcount.trans hrange).trans (by rw [countP_le_range]; omega)
  have hsplit := countP_eq_countP_filter_add runs (t < ·.finish + window b) (·.onDemand)
  rw [hscheduled] at hsplit
  rw [length_eq_countP_add_countP (·.finish + window b ≤ t)]
  simp only [decide_eq_true_eq, Nat.not_le, hsplit]
  rw [older, onDemandSince]
  omega

/-- A window that began after the first backup is covered exactly if the backups in it, one for
each of its days and those on demand, bring no more full ones than are to be kept besides one; so
it is as long as those on demand do not fill up more weeks than the window begins. -/
theorem retention_covers_iff (h : Schedule start k t runs) (ht : start + window b ≤ t) :
    (Covered b t runs ↔ fullCount (older b t runs + b.retentionDays + onDemandSince b t runs)
        < fullCount (older b t runs) + b.retainFull)
      ∧ (b.retentionDays + onDemandSince b t runs ≤ (deltaSteps + 1) * (b.retainFull - 1)
        → Covered b t runs) := by
  have hordered : (runs.map (·.finish)).Pairwise fun newer older => older ≤ newer :=
    pairwise_map.mpr h.ordered
  have hfirst : ∃ f ∈ runs.map (·.finish), f + window b ≤ t := by
    obtain ⟨r, hr, hfinish⟩ := h.mem (Nat.zero_lt_of_lt (h.pos ht))
    exact ⟨_, mem_map_of_mem hr, by omega⟩
  have hiff : Covered b t runs
      ↔ fullCount (older b t runs + b.retentionDays + onDemandSince b t runs)
        < fullCount (older b t runs) + b.retainFull := by
    have hkeep : b.retainFull ≠ 0 := Nat.succ_ne_zero _
    rw [Covered, repository_eq hkeep, exists_old_keepFull hordered hfirst, length_map,
      h.length ht, countP_map]
    rfl
  refine ⟨hiff, fun hfew => hiff.mpr ?_⟩
  simp only [fullCount, BackupSettings.retainFull, deltaSteps] at hfew ⊢
  omega

theorem retention_covers_iff_daily :
    Covered ⟨"r", 1⟩ 86400 [⟨86400, false⟩, ⟨50000, true⟩, ⟨0, false⟩] := by
  have h : Schedule 0 2 86400 [⟨86400, false⟩, ⟨50000, true⟩, ⟨0, false⟩] :=
    ⟨by decide, by decide, by decide, by decide⟩
  exact (retention_covers_iff h (by decide)).2 (by decide)

/-- Backups of two days, and thirteen on demand right after the second: two of them are full. -/
def eagerRuns : List Taken :=
  (range 15).reverse.map fun i => ⟨if i = 0 then 0 else 86399 + i, 2 ≤ i⟩

/-- A day after the first backup, none as old as that is left. -/
theorem retention_loses_window : Schedule 0 2 86413 eagerRuns
    ∧ 0 + window ⟨"r", 1⟩ ≤ 86413 ∧ ¬Covered ⟨"r", 1⟩ 86413 eagerRuns := by
  refine ⟨⟨by decide, by decide, by decide, by decide⟩, by decide, ?_⟩
  unfold Covered
  decide

end PgCluster.Retention
