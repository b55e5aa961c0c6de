import PgCluster.ClusterReports
import PgCluster.TopologyRoles

/-!
# Bounded histories

The two lists of the topology that have a bound: the failovers, of which the last are
kept, and the backups, of which those completed last are. `BackupsChange` says what one
command does to the backups; over a log the rest follows by induction.
-/

namespace PgCluster

open List

namespace ClusterTopology

abbrev CompletedAfter (a b : BackupManifest) : Prop := b.completedAt ≤ a.completedAt

instance : Std.Total CompletedAfter := ⟨fun a b => Int.le_total b.completedAt a.completedAt⟩

instance : IsTrans BackupManifest CompletedAfter := ⟨fun _ _ _ hab hbc => Int.le_trans hbc hab⟩

/-- How a command changes the backups: a manifest that is added joins them, in place of
one completed first if there are too many; one command removes them; and others leave
them alone. -/
inductive BackupsChange (bs : List BackupManifest) : TopologyCommand → List BackupManifest → Prop
  | added (m : BackupManifest) (bs' : List BackupManifest) (hroom : bs.length < backupsMax)
      (hperm : bs'.Perm (bs ++ [m])) : BackupsChange bs (.addBackupManifest m) bs'
  | dropped (m d : BackupManifest) (bs' : List BackupManifest) (hfull : bs.length = backupsMax)
      (hperm : (bs' ++ [d]).Perm (bs ++ [m])) (hfirst : ∀ x ∈ bs ++ [m], CompletedAfter x d) :
      BackupsChange bs (.addBackupManifest m) bs'
  | removed (id : String) : BackupsChange bs (.removeBackupManifest id)
      (bs.filter fun b => b.backupId ≠ id)
  | same (cmd : TopologyCommand) (hadd : ∀ m, cmd ≠ .addBackupManifest m)
      (hremove : ∀ id, cmd ≠ .removeBackupManifest id) : BackupsChange bs cmd bs

def recorded (log : List (Int × TopologyCommand)) : List FailoverEvent :=
  log.filterMap fun e => match e.2 with
    | .recordFailover event => some event
    | _ => none

/-- The manifests that a log adds and whose id it does not remove afterwards. -/
def added (log : List (Int × TopologyCommand)) : List BackupManifest :=
  log.foldl (fun ms e => match e.2 with
    | .addBackupManifest m => ms ++ [m]
    | .removeBackupManifest id => ms.filter fun b => b.backupId ≠ id
    | _ => ms) []

/-- The command adds a manifest to as many as are kept. -/
def dropsBackup (t : ClusterTopology) : TopologyCommand → Bool
  | .addBackupManifest _ => t.backups.length = backupsMax
  | _ => false

variable {t : ClusterTopology} {now : Int} {log : List (Int × TopologyCommand)}

/-- The backups of a topology are in order, and no more than are kept. -/
structure BackupsBounded (t : ClusterTopology) : Prop where
  sorted : t.backups.Pairwise CompletedAfter
  length : t.backups.length ≤ backupsMax

/-- A manifest is added: all are sorted, and the last is dropped if it is one too many. -/
theorem BackupsBounded.add (h : t.BackupsBounded) (m : BackupManifest) :
    let t' := t.applyCommand now (.addBackupManifest m)
    t'.BackupsBounded ∧ BackupsChange t.backups (.addBackupManifest m) t'.backups := by
  let sorted := (t.backups ++ [m]).insertionSort CompletedAfter
  have hperm : sorted.Perm (t.backups ++ [m]) := perm_insertionSort _ _
  have hsorted : sorted.Pairwise CompletedAfter := pairwise_insertionSort _ _
  have hlen : sorted.length = t.backups.length + 1 := by simpa using hperm.length_eq
  show BackupsBounded { t with version := _, lastChangedAt := _, backups := sorted.take backupsMax }
    ∧ BackupsChange t.backups _ (sorted.take backupsMax)
  refine ⟨⟨hsorted.sublist (take_sublist ..), length_take_le ..⟩, ?_⟩
  obtain hroom | hfull := Nat.lt_or_eq_of_le h.length
  · rw [take_of_length_le (by omega)]
    exact .added m sorted hroom hperm
  · -- one too many: what is not taken is the last of the sorted list
    obtain ⟨d, hd⟩ : ∃ d, sorted.drop backupsMax = [d] :=
      length_eq_one_iff.mp (by rw [length_drop]; omega)
    have hsplit : sorted.take backupsMax ++ [d] = sorted := hd ▸ take_append_drop ..
    refine .dropped m d _ hfull (hsplit.symm ▸ hperm) fun x hx => ?_
    rw [← hsplit, pairwise_append] at hsorted
    rw [← hperm.mem_iff, ← hsplit] at hx
    obtain hx | hx := mem_append.mp hx
    · exact hsorted.2.2 x hx d (mem_singleton_self d)
    · rw [mem_singleton.mp hx]

theorem BackupsBounded.apply (h : t.BackupsBounded) (now : Int) (cmd : TopologyCommand) :
    (t.applyCommand now cmd).BackupsBounded
      ∧ BackupsChange t.backups cmd (t.applyCommand now cmd).backups := by
  cases cmd with
  | addBackupManifest m => exact h.add m
  | removeBackupManifest id =>
    exact ⟨⟨h.sorted.filter _, (length_filter_le ..).trans h.length⟩, .removed id⟩
  | _ => exact ⟨⟨h.sorted, h.length⟩, .same _ (fun _ => nofun) fun _ => nofun⟩

theorem after_snoc (t : ClusterTopology) (e : Int × TopologyCommand) :
    t.after (log ++ [e]) = (t.after log).applyCommand e.1 e.2 := by
  rw [after, foldl_append]
  rfl

theorem backupsBounded_after (log : List (Int × TopologyCommand)) :
    (empty.after log).BackupsBounded := by
  induction log using List.reverseRecOn with
  | nil => exact ⟨.nil, Nat.zero_le _⟩
  | append_singleton _ e ih =>
    rw [after_snoc]
    exact (ih.apply e.1 e.2).1

theorem version_after : (empty.after log).version = log.length := by
  induction log using List.reverseRecOn with
  | nil => rfl
  | append_singleton _ e ih =>
    rw [after_snoc, length_append, ← ih]
    cases e.2 <;> rfl

theorem failoverHistory_after : (empty.after log).failoverHistory
    = (recorded log).drop ((recorded log).length - failoverHistoryMax) := by
  induction log using List.reverseRecOn with
  | nil => rfl
  | append_singleton log e ih =>
    obtain ⟨_, cmd⟩ := e
    rw [after_snoc, recorded, filterMap_append, ← recorded]
    cases cmd with
    | recordFailover event =>
      show ((empty.after log).failoverHistory ++ [event]).drop
        (((empty.after log).failoverHistory ++ [event]).length - failoverHistoryMax) = _
      rw [ih]
      exact ClusterReports.history_append _
    | _ => exact ih.trans (by simp)

theorem backups_after (hroom : ∀ pre e, pre ++ [e] <+: log →
    (empty.after pre).dropsBackup e.2 = false) : (empty.after log).backups.Perm (added log) := by
  induction log using List.reverseRecOn with
  | nil => exact .nil
  | append_singleton log e ih =>
    have ih := ih fun pre x h => hroom pre x (h.trans (prefix_append ..))
    have hfits := hroom log e (prefix_refl _)
    have hchange := (backupsBounded_after log).apply e.1 e.2
    rw [after_snoc, added, foldl_append, ← added]
    obtain ⟨now, cmd⟩ := e
    generalize (applyCommand now (empty.after log) cmd).backups = bs at hchange ⊢
    cases hchange.2 with
    | added m _ _ hperm => exact hperm.trans (ih.append_right [m])
    | dropped _ _ _ hfull => exact absurd hfull (of_decide_eq_false hfits)
    | removed => exact ih.filter _
    | same _ hadd hremove => cases cmd <;> first | exact ih | cases hadd _ rfl | cases hremove _ rfl

/-- Over every log from the default topology: the version counts the commands, the
history has the last failovers, and the backups are in order and bounded, change as
`BackupsChange` says, and are all that were added and not removed unless one was
dropped. -/
theorem histories_bounded (log : List (Int × TopologyCommand)) :
    (empty.after log).version = log.length ∧ (empty.after log).failoverHistory
        = (recorded log).drop ((recorded log).length - failoverHistoryMax)
      ∧ (empty.after log).BackupsBounded ∧ (∀ now cmd, BackupsChange (empty.after log).backups cmd
        ((empty.after log).applyCommand now cmd).backups)
      ∧ ((∀ pre e, pre ++ [e] <+: log → (empty.after pre).dropsBackup e.2 = false) →
        (empty.after log).backups.Perm (added log)) :=
  ⟨version_after, failoverHistory_after, backupsBounded_after log,
    fun now cmd => ((backupsBounded_after log).apply now cmd).2, backups_after⟩

end ClusterTopology

end PgCluster
