import PgCluster.AgentTasks

/-!
# The window of restore times

The admin accepts a restore to any time from the oldest backup it has a row of to the last
one archived (`backups.rs`). The row's time is the clock as `run_backup` read it when the
backup had ended, in whole seconds (`unix_now`); the agent compares the time WAL-G wrote down
(`newest_before`). Times are nanoseconds since 1970.
-/

namespace PgCluster

open List

/-- A backup with the clock `run_backup` read after it. -/
structure TakenBackup where
  name : String
  finish : Nat
  read : Nat
  finish_le : finish ≤ read

namespace TakenBackup

/-- `unix_now`, as the admin stores it. -/
def completedAt (b : TakenBackup) : Nat := b.read / 1000000000 * 1000000000

def listed (b : TakenBackup) : ListedBackup Nat := ⟨b.name, some b.finish⟩

end TakenBackup

/-- `window`: from the first backup to the last time a node has archived. -/
def restoreWindow (taken : List TakenBackup) (archivedUntil : List Nat) : Option (Nat × Nat) :=
  match (taken.map (·.completedAt)).min?, archivedUntil.max? with
  | some earliest, some latest => if earliest ≤ latest then some (earliest, latest) else none
  | _, _ => none

/-- The check of `restore` on its target time. -/
def acceptsTarget (taken : List TakenBackup) (archivedUntil : List Nat) (target : Nat) : Bool :=
  (restoreWindow taken archivedUntil).any fun (earliest, latest) =>
    !(target < earliest || target > latest)

/-- A fold that keeps its best so far or takes the next one ends with one of the list. -/
theorem foldl_best {α : Type} {f : Option α → α → Option α} {l : List α} (hl : l ≠ [])
    (hf : ∀ best b, f best b = some b ∨ best ≠ none ∧ f best b = best) :
    ∃ m ∈ l, l.foldl f none = some m := by
  induction l using List.reverseRecOn with
  | nil => exact absurd rfl hl
  | append_singleton l b ih =>
    rw [foldl_append, foldl_cons, foldl_nil]
    rcases hf (l.foldl f none) b with hnext | ⟨hsome, hkept⟩
    · exact ⟨b, by simp, hnext⟩
    · obtain ⟨m, hm, hbest⟩ := ih fun hnil => hsome (by rw [hnil]; rfl)
      exact ⟨m, mem_append_left _ hm, hkept.trans hbest⟩

open RestoreCalls

/-- `newest_before` finds a backup that had finished by the target. -/
def FindsBackup (taken : List TakenBackup) (target : Nat) : Prop :=
  ∃ b ∈ taken, newestBefore (taken.map (·.listed)) target = some b.name ∧ b.finish ≤ target

theorem found_of_finish {taken : List TakenBackup} {target : Nat}
    (h : ∃ b ∈ taken, b.finish ≤ target) : FindsBackup taken target := by
  obtain ⟨b, hb, hle⟩ := h
  have hleft : b.listed ∈ (taken.map (·.listed)).filter fun b => b.finishTime.any (· ≤ target) :=
    mem_filter.mpr ⟨mem_map_of_mem hb, decide_eq_true hle⟩
  suffices hbest : ∃ m ∈ (taken.map (·.listed)).filter fun b => b.finishTime.any (· ≤ target),
      newestBefore (taken.map (·.listed)) target = some m.backupName by
    obtain ⟨m, hm, hbest⟩ := hbest
    obtain ⟨hmem, hfinish⟩ := mem_filter.mp hm
    obtain ⟨c, hc, rfl⟩ := mem_map.mp hmem
    exact ⟨c, hc, hbest, of_decide_eq_true hfinish⟩
  simp only [newestBefore, Option.map_eq_some_iff]
  refine (foldl_best (ne_nil_of_mem hleft) fun best b => ?_).imp fun m h =>
    ⟨h.1, m, h.2, rfl⟩
  cases best <;> grind

theorem restoreWindow_eq_some {taken : List TakenBackup} {archivedUntil : List Nat}
    {w : Nat × Nat} (h : restoreWindow taken archivedUntil = some w) :
    (∃ b ∈ taken, b.completedAt = w.1) ∧ w.1 ≤ w.2 := by
  rw [restoreWindow] at h
  split at h
  · next hmin _ =>
    obtain ⟨hle, h⟩ := Option.ite_none_right_eq_some.mp h
    cases h
    exact ⟨mem_map.mp (min?_mem hmin), hle⟩
  · cases h

/-- Every accepted target has a backup exactly if one had finished by the start of the window,
which its whole seconds may put before the end of them all; from a second later on, every target
has one. -/
theorem restore_target_has_backup (taken : List TakenBackup) (archivedUntil : List Nat) :
    ((∀ target, acceptsTarget taken archivedUntil target = true → FindsBackup taken target) ↔
      ∀ w, restoreWindow taken archivedUntil = some w → ∃ b ∈ taken, b.finish ≤ w.1) ∧
    ∀ w target, restoreWindow taken archivedUntil = some w → w.1 + 1000000000 ≤ target →
      FindsBackup taken target := by
  refine ⟨⟨fun h w hw => ?_, fun h target haccepts => ?_⟩, fun w target hw htarget => ?_⟩
  · have hle := (restoreWindow_eq_some hw).2
    obtain ⟨b, hb, -, hfinish⟩ := h w.1 (by simp [acceptsTarget, hw, hle])
    exact ⟨b, hb, hfinish⟩
  · obtain ⟨w, hw, hin⟩ := (Option.any_eq_true _ _).mp haccepts
    obtain ⟨b, hb, hfinish⟩ := h w hw
    simp only [Bool.not_eq_true', Bool.or_eq_false_iff, decide_eq_false_iff_not] at hin
    exact found_of_finish ⟨b, hb, hfinish.trans (Nat.not_lt.mp hin.1)⟩
  · obtain ⟨⟨b, hb, hat⟩, -⟩ := restoreWindow_eq_some hw
    have hfinish := b.finish_le
    rw [TakenBackup.completedAt] at hat
    exact found_of_finish ⟨b, hb, by omega⟩

/-- A backup that finished 0.7 s into a second. -/
def lateBackup : TakenBackup := ⟨"base", 100700000000, 100900000000, by decide⟩

/-- It is recorded at the start of the second, and a restore to then finds none. -/
theorem restore_target_without_backup :
    acceptsTarget [lateBackup] [200000000000] 100000000000 = true
      ∧ newestBefore [lateBackup.listed] 100000000000 = none := by
  decide

end PgCluster
