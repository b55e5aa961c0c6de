import PgCluster.DesiredPolls
import PgCluster.ListUpdates

/-!
# When clients get in

A host lets clients in by the `allowed_cidrs` of its desired state, which are
empty until `access_open` is set in the row of the database. Only the step
`open_access` sets it, and it comes after `first_backup` in the operations it
is a step of. `Guarded` says how far each operation that is under way has come,
and each change keeps it (`upholds_apply`); a backup that has succeeded stays so
(`Grows`), so what a host was sent at any time is covered too.
-/

namespace PgCluster.Desired

open List Option
open PgCluster.Admin (Kind StepName)
open Reading (all_true)

variable {d : AccessRow} {kind : Kind} {database id host : String} {params : OpParams}
  {t t' t'' : Tables} {op : Operation} {name : StepName} {e : StepEnv} {v : Verdict}

namespace Tables

def BackupSucceeded (t : Tables) (operation : Nat) : Prop :=
  ∃ task ∈ t.tasks, task.operation = operation ∧ task.kind = .backup ∧ task.status = .succeeded

/-- The create of the database, or its promotion, has made a backup. -/
def BackedUp (t : Tables) (database : String) : Prop :=
  ∃ op ∈ t.recorded, op.database = database ∧ (op.kind = .create ∨ op.kind = .promoteReplica) ∧
    t.BackupSucceeded op.id

/-! ## What lasts -/

/-- Operations stay on record, and tasks that have succeeded do not change. -/
structure Grows (t t' : Tables) : Prop where
  recorded : ∀ op ∈ t.recorded, op ∈ t'.recorded
  succeeded : ∀ task ∈ t.tasks, task.status = .succeeded → task ∈ t'.tasks

theorem Grows.refl (t : Tables) : Grows t t := ⟨fun _ h => h, fun _ h _ => h⟩

theorem Grows.trans (h : Grows t t') (h' : Grows t' t'') : Grows t t'' where
  recorded op hop := h'.recorded op (h.recorded op hop)
  succeeded task htask hstatus := h'.succeeded task (h.succeeded task htask hstatus) hstatus

theorem Grows.backupSucceeded {operation : Nat} (h : Grows t t')
    (hs : t.BackupSucceeded operation) : t'.BackupSucceeded operation := by
  obtain ⟨task, htask, hop, hkind, hstatus⟩ := hs
  exact ⟨task, h.succeeded task htask hstatus, hop, hkind, hstatus⟩

theorem Grows.backedUp (h : Grows t t') (hb : t.BackedUp database) : t'.BackedUp database := by
  obtain ⟨op, hop, hdatabase, hkind, hs⟩ := hb
  exact ⟨op, h.recorded op hop, hdatabase, hkind, h.backupSucceeded hs⟩

end Tables

/-! ## How far operations have come -/

/-- What of a database's row says who gets in, and when. -/
structure AccessRow where
  id : String
  operations : List Operation
  accessOpen : Bool

def DatabaseRow.access (d : DatabaseRow) : AccessRow := ⟨d.id, d.operations, d.accessOpen⟩

/-- The operations of a database are on record with the steps they have left, and
one that is yet to open access has its first backup before it or behind it. -/
structure AccessRow.Ok (t : Tables) (d : AccessRow) : Prop where
  steps : ∀ op ∈ d.operations, ∃ i, op.steps = op.kind.steps.drop i
  listed : ∀ op ∈ d.operations, ⟨op.id, d.id, op.kind⟩ ∈ t.recorded
  backed : ∀ op ∈ d.operations, .openAccess ∈ op.steps → .firstBackup ∉ op.steps →
    t.BackupSucceeded op.id
  opened : d.accessOpen = true → t.BackedUp d.id

theorem AccessRow.Ok.grows {t t' : Tables} (h : d.Ok t) (hg : t.Grows t') :
    d.Ok t' where
  steps := h.steps
  listed op hop := hg.recorded _ (h.listed op hop)
  backed op hop hopen hbackup := hg.backupSucceeded (h.backed op hop hopen hbackup)
  opened hopen := hg.backedUp (h.opened hopen)

theorem AccessRow.ok_empty {t : Tables} (id : String) : AccessRow.Ok t ⟨id, [], false⟩ where
  steps _ hop := absurd hop not_mem_nil
  listed _ hop := absurd hop not_mem_nil
  backed _ hop := absurd hop not_mem_nil
  opened hopen := absurd hopen Bool.false_ne_true

theorem AccessRow.Ok.fewer {t : Tables} {operations : List Operation} (h : d.Ok t)
    (hops : ∀ op ∈ operations, op ∈ d.operations) :
    AccessRow.Ok t ⟨d.id, operations, d.accessOpen⟩ where
  steps op hop := h.steps op (hops op hop)
  listed op hop := h.listed op (hops op hop)
  backed op hop := h.backed op (hops op hop)
  opened := h.opened

theorem AccessRow.Ok.record {t : Tables} {number : Nat}
    (h : d.Ok t) (hlisted : ⟨number, d.id, kind⟩ ∈ t.recorded) :
    AccessRow.Ok t ⟨d.id, d.operations ++ [⟨number, kind, params, kind.steps⟩], d.accessOpen⟩ := by
  have hcases {P : Operation → Prop} (hold : ∀ op ∈ d.operations, P op)
      (hnew : P ⟨number, kind, params, kind.steps⟩) :
      ∀ op ∈ d.operations ++ [⟨number, kind, params, kind.steps⟩], P op := by
    intro op hop
    rcases mem_append.mp hop with hop | hop
    · exact hold op hop
    · rw [mem_singleton.mp hop]
      exact hnew
  have hbackup : .openAccess ∈ kind.steps → .firstBackup ∈ kind.steps := by cases kind <;> decide
  exact ⟨hcases h.steps ⟨0, rfl⟩, hcases h.listed hlisted,
    hcases h.backed fun hopen hnone => absurd (hbackup hopen) hnone, h.opened⟩

namespace Tables

variable {f : DatabaseRow → DatabaseRow} {spec : DatabaseSpec} {node : Nat}

def access (t : Tables) : List AccessRow := t.databases.map DatabaseRow.access

structure Guarded (t : Tables) : Prop where
  unique : (t.access.map AccessRow.id).Nodup
  rows : ∀ d ∈ t.access, d.Ok t

/-- A change that keeps the guard, and what lasts. -/
structure Upholds (t t' : Tables) : Prop where
  grows : Grows t t'
  guarded : t.Guarded → t'.Guarded

theorem Upholds.trans (h : Upholds t t') (h' : Upholds t' t'') : Upholds t t'' :=
  ⟨h.grows.trans h'.grows, fun hg => h'.guarded (h.guarded hg)⟩

/-- No operation moves, and nobody is let in. -/
structure Still (t t' : Tables) : Prop where
  grows : Grows t t'
  access : t'.access = t.access

theorem Still.refl (t : Tables) : Still t t := ⟨.refl t, rfl⟩

theorem Still.trans (h : Still t t') (h' : Still t' t'') : Still t t'' :=
  ⟨h.grows.trans h'.grows, h'.access.trans h.access⟩

theorem Still.upholds (h : Still t t') : Upholds t t' where
  grows := h.grows
  guarded hg := by
    refine ⟨?_, fun d hd => ?_⟩
    · rw [h.access]
      exact hg.unique
    · rw [h.access] at hd
      exact (hg.rows d hd).grows h.grows

/-! ## Writes -/

theorem still_of_same (hdatabases : t'.databases = t.databases) (htasks : t'.tasks = t.tasks)
    (hrecorded : t'.recorded = t.recorded) : Still t t' := by
  refine ⟨⟨fun op hop => ?_, fun task htask _ => ?_⟩, ?_⟩
  · rw [hrecorded]
    exact hop
  · rw [htasks]
    exact htask
  · rw [Tables.access, hdatabases, ← Tables.access]

namespace Still

theorem bumpIf {p : HostRow → Bool} (h : Still t t') : Still t (t'.bumpIf p) :=
  h.trans (still_of_same rfl rfl rfl)

theorem bumpHost (h : Still t t') : Still t (t'.bumpHost host) := h.bumpIf

theorem bumpHosts (h : Still t t') : Still t (t'.bumpHosts database) := h.bumpIf

theorem bumpEach {ids : List String} (h : Still t t') : Still t (t'.bumpEach ids) := by
  induction ids generalizing t' with
  | nil => exact h
  | cons _ _ ih => exact ih h.bumpHost

theorem updateDb (h : Still t t')
    (hf : ∀ d, (f d).access = d.access) : Still t (t'.updateDb id f) := by
  refine h.trans ⟨⟨fun _ hop => hop, fun _ htask _ => htask⟩, ?_⟩
  exact map_key_map_ite hf

theorem setStatus {status : Admin.DbStatus} (h : Still t t') : Still t (t'.setStatus id status) :=
  h.updateDb fun _ => rfl

theorem storeSecrets {secrets : Admin.DatabaseSecrets} (h : Still t t') :
    Still t (t'.storeSecrets id secrets) :=
  h.updateDb fun _ => rfl

theorem newGeneration (h : Still t t') : Still t (t'.newGeneration id) :=
  .bumpHosts (.updateDb h fun _ => rfl)

variable {p : NodeRow → Bool}

theorem mapNodes {f : NodeRow → NodeRow} (h : Still t t') : Still t (t'.mapNodes p f) :=
  h.trans (still_of_same rfl rfl rfl)

theorem retractNodes (h : Still t t') : Still t (t'.retractNodes p) :=
  h.mapNodes

theorem dropNodes (h : Still t t') : Still t (t'.dropNodes p) :=
  h.trans (still_of_same rfl rfl rfl)

theorem addNode {n : NodeRow} (h : Still t t') (hadd : t'.addNode n = some t'') : Still t t'' := by
  obtain ⟨-, hadd⟩ := ite_none_left_eq_some.mp hadd
  cases hadd
  exact bumpHost (h.trans (still_of_same rfl rfl rfl))

theorem addNodes {d : DatabaseRow} {index : Nat} {bootstrap : Nat → Bootstrap}
    {chosen : List Chosen} (h : Still t t')
    (hadd : Desired.addNodes d index bootstrap chosen t' = some t'') : Still t t'' := by
  induction chosen generalizing t' index with
  | nil =>
    cases hadd
    exact h
  | cons _ _ ih =>
    obtain ⟨_, hc, hrest⟩ := bind_eq_some_iff.mp hadd
    exact ih (h.addNode hc) hrest

theorem endTasks {p : TaskRow → Bool} {status : TaskStatus} (h : Still t t') :
    Still t (t'.endTasks p status) := by
  refine h.trans ⟨⟨fun _ hop => hop, fun task htask hstatus => ?_⟩, rfl⟩
  refine List.mem_map.mpr ⟨task, htask, ?_⟩
  simp [hstatus]

theorem addTask {row : TaskRow} (h : Still t t') : Still t { t' with tasks := t'.tasks ++ [row] } :=
  h.trans ⟨⟨fun _ hop => hop, fun _ htask _ => mem_append_left _ htask⟩, rfl⟩

theorem bumpSource {source : Option ReplicaOf} (h : Still t t') : Still t (match source with
      | some source => t'.bumpHosts source.databaseId
      | none => t') := by
  cases source with
  | none => exact h
  | some => exact h.bumpHosts

end Still

theorem guarded_updateDb (h : t.Guarded) (hg : Grows t t')
    (hdatabases : t'.databases = t.databases.map fun d => if d.id = id then f d else d)
    (hid : ∀ d, (f d).id = d.id)
    (hrow : ∀ d ∈ t.databases, d.id = id → d.access.Ok t → (f d).access.Ok t') : t'.Guarded := by
  refine ⟨?_, fun r hr => ?_⟩
  · have hids : t'.access.map AccessRow.id = t.access.map AccessRow.id := by
      rw [Tables.access, Tables.access, List.map_map, List.map_map, hdatabases]
      exact map_key_map_ite hid
    rw [hids]
    exact h.unique
  · rw [Tables.access, hdatabases, List.map_map] at hr
    obtain ⟨d, hd, rfl⟩ := List.mem_map.mp hr
    have hok : d.access.Ok t := h.rows _ (List.mem_map_of_mem hd)
    by_cases hdid : d.id = id
    · simpa [hdid] using hrow d hd hdid hok
    · simpa [hdid] using hok.grows hg

theorem upholds_fewer (hf : ∀ d, ∃ operations, (f d).access = ⟨d.id, operations, d.accessOpen⟩ ∧
      ∀ op ∈ operations, op ∈ d.operations) : Upholds t (t.updateDb id f) := by
  have hg : Grows t (t.updateDb id f) := ⟨fun _ hop => hop, fun _ htask _ => htask⟩
  refine ⟨hg, fun h => guarded_updateDb h hg rfl (fun d => ?_) fun d hd hdid hok => ?_⟩
  · obtain ⟨operations, haccess, -⟩ := hf d
    exact congrArg AccessRow.id haccess
  · obtain ⟨_, haccess, hops⟩ := hf d
    rw [haccess]
    exact (hok.grows hg).fewer hops

theorem Upholds.record (h : Upholds t t') : Upholds t (t'.record id kind params) := by
  have hg : Grows t' (t'.record id kind params) :=
    ⟨fun _ hop => mem_append_left _ hop, fun _ htask _ => htask⟩
  refine h.trans ⟨hg, fun h => guarded_updateDb h hg rfl (fun _ => rfl) fun d hd hdid hok => ?_⟩
  refine (hok.grows hg).record (mem_append_right _ ?_)
  rw [← hdid]
  exact mem_singleton_self _

theorem upholds_insertDatabase {name : String}
    (h : t.insertDatabase id name spec kind = some t') : Upholds t t' := by
  obtain ⟨hfree, h⟩ := ite_none_left_eq_some.mp h
  have hg : Grows t t' := by
    obtain rfl := Option.some.inj h
    exact ⟨fun _ hop => mem_append_left _ hop, fun _ htask _ => htask⟩
  obtain rfl := Option.some.inj h
  refine ⟨hg, fun h => ⟨?_, fun d hd => ?_⟩⟩
  · have hnew : id ∉ t.access.map AccessRow.id := by
      intro hid
      obtain ⟨r, hr, hrid⟩ := List.mem_map.mp hid
      obtain ⟨d, hd, rfl⟩ := List.mem_map.mp hr
      have hfound : (t.db? id).isSome := by
        rw [db?, find?_isSome]
        exact ⟨d, hd, decide_eq_true hrid⟩
      simp [hfound] at hfree
    simp only [Tables.access, map_append, map_cons, map_nil]
    exact h.unique.append (nodup_singleton _) (disjoint_singleton.mpr hnew)
  · simp only [Tables.access, map_append, map_cons, map_nil] at hd
    rcases mem_append.mp hd with hd | hd
    · exact (h.rows d hd).grows hg
    · rw [mem_singleton.mp hd]
      exact ((AccessRow.ok_empty id).grows hg).record (mem_append_right _ (mem_singleton_self _))

/-! ## Steps -/

section Steps

variable {d : DatabaseRow}

theorem still_runTaskOn {task : TaskSpec}
    (h : runTaskOn t op database task = (t', v)) : Still t t' := by
  unfold runTaskOn at h
  split at h
  · obtain ⟨rfl, -⟩ := Prod.mk.inj h
    exact (Still.refl t).addTask.bumpHosts
  · obtain ⟨rfl, -⟩ := Prod.mk.inj h
    exact .refl t

theorem backupSucceeded_of_done (h : runStep t d op e .firstBackup = some (t', .done)) :
    t'.BackupSucceeded op.id := by
  have h : runTaskOn t op d.id ⟨.backup, .leader, .operation (.label FIRST_BACKUP_LABEL)⟩ =
      (t', .done) := Option.some.inj h
  unfold runTaskOn at h
  split at h
  · obtain ⟨-, hv⟩ := Prod.mk.inj h
    cases hv
  · rename_i row hrow
    obtain ⟨rfl, hv⟩ := Prod.mk.inj h
    have hfound := find?_some hrow
    simp only [Bool.and_eq_true, decide_eq_true_eq] at hfound
    refine ⟨row, mem_of_find?_eq_some hrow, hfound.1, hfound.2, ?_⟩
    cases hstatus : row.status with
    | succeeded => rfl
    | failed | pending =>
      rw [hstatus] at hv
      cases hv

theorem still_replicaTask {kind : TaskName} (h : replicaTask t d op kind = some (t', v)) :
    Still t t' := by
  obtain ⟨_, -, h⟩ := bind_eq_some_iff.mp h
  obtain ⟨n, -, h⟩ := bind_eq_some_iff.mp h
  obtain ⟨_, -, h⟩ := map_eq_some_iff.mp h
  exact still_runTaskOn h

theorem still_changeSecrets {f : Admin.DatabaseSecrets → Option Admin.DatabaseSecrets}
    (h : changeSecrets t d f = some (t', v)) : Still t t' := by
  obtain ⟨_, -, h⟩ := map_eq_some_iff.mp h
  obtain ⟨rfl, -⟩ := Prod.mk.inj h
  exact (Still.refl t).storeSecrets.newGeneration

theorem still_place (h : place t d e = some (t', v)) : Still t t' := by
  unfold place at h
  split at h
  · cases h
    exact .refl t
  · cases h
    exact .refl t
  · obtain ⟨_, -, h⟩ := bind_eq_some_iff.mp h
    obtain ⟨_, hadd, h⟩ := map_eq_some_iff.mp h
    obtain ⟨rfl, -⟩ := Prod.mk.inj h
    exact (Still.refl t).storeSecrets.addNodes hadd

theorem still_placeReplica (h : placeReplica t d e = some (t', v)) : Still t t' := by
  obtain ⟨_, -, h⟩ := bind_eq_some_iff.mp h
  split at h
  · cases h
    exact .refl t
  · cases h
    exact .refl t
  · obtain ⟨_, -, h⟩ := bind_eq_some_iff.mp h
    split at h
    · cases h
      exact (Still.refl t).storeSecrets
    · obtain ⟨_, hadd, h⟩ := map_eq_some_iff.mp h
      obtain ⟨rfl, -⟩ := Prod.mk.inj h
      exact ((Still.refl t).storeSecrets.addNode hadd).bumpHosts
    · cases h

theorem still_runStep (h : runStep t d op e name = some (t', v)) (hname : name ≠ .openAccess) :
    Still t t' := by
  cases name with
  | openAccess => exact absurd rfl hname
  | place => exact still_place h
  | placeReplica => exact still_placeReplica h
  | activate =>
    cases h
    exact (Still.refl t).setStatus
  | settle | waitApplied | waitPeers | waitRemoved | waitOldRemoved | waitVersion | upgradeCheck =>
    cases h
    exact .refl t
  | newGeneration =>
    cases h
    exact (Still.refl t).newGeneration
  | retract =>
    cases h
    exact (Still.refl t).bumpSource.retractNodes.bumpEach
  | finalize =>
    cases h
    exact .setStatus (.updateDb (.dropNodes (.refl t)) fun _ => rfl)
  | retractOld =>
    obtain ⟨old, -, h⟩ := bind_eq_some_iff.mp h
    obtain ⟨n, -, h⟩ := map_eq_some_iff.mp h
    obtain ⟨rfl, -⟩ := Prod.mk.inj h
    exact (Still.refl t).retractNodes.bumpHost.newGeneration
  | dropOld =>
    obtain ⟨_, -, h⟩ := map_eq_some_iff.mp h
    obtain ⟨rfl, -⟩ := Prod.mk.inj h
    exact (Still.refl t).dropNodes
  | promote =>
    cases h
    exact .newGeneration (.mapNodes (.updateDb (.bumpSource (.refl t)) fun _ => rfl))
  | caIssue =>
    obtain ⟨_, -, h⟩ := map_eq_some_iff.mp h
    obtain ⟨rfl, -⟩ := Prod.mk.inj h
    exact (Still.refl t).mapNodes.newGeneration
  | caTrustBoth | caTrustNew | passwordsOffer | passwordsCommit => exact still_changeSecrets h
  | firstBackup | backup | rollingRestart | switchover | setReplicationMode | replaceMember
  | passwordsAlter => exact still_runTaskOn (Option.some.inj h)
  | resizeRestart =>
    simp only [runStep] at h
    split at h
    · exact still_runTaskOn (Option.some.inj h)
    · cases h
      exact .refl t
  | addReplica | detachReplica => exact still_replicaTask h
  | removeReplica =>
    simp only [runStep] at h
    split at h
    · exact still_replicaTask h
    · cases h
      exact .refl t

end Steps

theorem openAccess_step (k : Kind) : ∀ i < k.steps.length, k.steps[i]? = some .openAccess →
    (k = .create ∨ k = .promoteReplica) ∧ .firstBackup ∉ k.steps.drop i := by
  cases k <;> decide

theorem backedUp_of_openAccess (h : d.Ok t)
    (hop : op ∈ d.operations) (hstep : op.steps.head? = some .openAccess) : t.BackedUp d.id := by
  obtain ⟨i, hi⟩ := h.steps op hop
  have hat : op.kind.steps[i]? = some .openAccess := by rw [← hstep, hi, head?_drop]
  obtain ⟨hlt, -⟩ := List.getElem?_eq_some_iff.mp hat
  obtain ⟨hkind, hbackup⟩ := openAccess_step op.kind i hlt hat
  rw [← hi] at hbackup
  exact ⟨_, h.listed op hop, rfl, hkind, h.backed op hop (mem_of_mem_head? hstep) hbackup⟩

theorem ok_popStep (h : d.Ok t)
    (hop : d.operations.head? = some op) (hname : op.steps.head? = some name)
    (hbackup : name = .firstBackup → t.BackupSucceeded op.id) :
    AccessRow.Ok t ⟨d.id, popStep d.operations, d.accessOpen⟩ := by
  obtain ⟨rest, hops⟩ : ∃ rest, d.operations = op :: rest := ⟨_, (cons_head?_tail hop).symm⟩
  have hmem : op ∈ d.operations := mem_of_mem_head? hop
  have hrest : ∀ op' ∈ rest, op' ∈ d.operations := fun op' hop' => by
    rw [hops]
    exact mem_cons_of_mem _ hop'
  obtain ⟨steps, hsteps⟩ : ∃ steps, op.steps = name :: steps :=
    ⟨_, (cons_head?_tail hname).symm⟩
  have htail : op.steps.tail = steps := by rw [hsteps, tail_cons]
  rw [hops, popStep, htail]
  cases steps with
  | nil => exact h.fewer hrest
  | cons next steps =>
    have hcases {P : Operation → Prop} (hnew : P { op with steps := next :: steps })
        (hold : ∀ op' ∈ d.operations, P op') :
        ∀ op' ∈ { op with steps := next :: steps } :: rest, P op' := by
      intro op' hop'
      rcases mem_cons.mp hop' with rfl | hop'
      · exact hnew
      · exact hold op' (hrest op' hop')
    refine ⟨hcases ?_ h.steps, hcases (h.listed op hmem) h.listed,
      hcases (fun hopen hnone => ?_) h.backed, h.opened⟩
    · obtain ⟨i, hi⟩ := h.steps op hmem
      exact ⟨i + 1, by rw [← tail_drop, ← hi, htail]⟩
    · by_cases hfirst : name = .firstBackup
      · exact hbackup hfirst
      · refine h.backed op hmem ?_ ?_
        · rw [hsteps]
          exact mem_cons_of_mem _ hopen
        · rw [hsteps]
          exact not_mem_cons_of_ne_of_not_mem (Ne.symm hfirst) hnone

theorem operations_runStep {d : DatabaseRow} (h : runStep t d op e name = some (t', v)) :
    t'.access.map (fun r => (r.id, r.operations)) = t.access.map fun r => (r.id, r.operations) := by
  by_cases hopen : name = .openAccess
  · subst hopen
    cases h
    rw [(Still.newGeneration (.refl _)).access]
    rw [access, access, List.map_map, List.map_map]
    exact map_key_map_ite fun _ => rfl
  · rw [(still_runStep h hopen).access]

theorem upholds_runStep {d : DatabaseRow}
    (hd : d ∈ t.databases) (hop : d.operations.head? = some op)
    (hname : op.steps.head? = some name) (hrun : runStep t d op e name = some (t', v)) :
    Upholds t t' := by
  by_cases hopen : name = .openAccess
  · subst hopen
    cases hrun
    refine Upholds.trans ?_ (Still.newGeneration (.refl _)).upholds
    have hg : Grows t (t.updateDb d.id fun d => { d with accessOpen := true }) :=
      ⟨fun _ hop => hop, fun _ htask _ => htask⟩
    refine ⟨hg, fun h => guarded_updateDb h hg rfl (fun _ => rfl) fun d' hd' hid hok => ?_⟩
    have hok' := hok.grows hg
    have hbacked : t.BackedUp d.id :=
      backedUp_of_openAccess (h.rows _ (List.mem_map_of_mem hd)) (mem_of_mem_head? hop) hname
    refine { hok' with opened := fun _ => ?_ }
    rw [← hid] at hbacked
    exact hg.backedUp hbacked
  · exact (still_runStep hrun hopen).upholds

theorem grows_finishStep : Grows t (t.finishStep id) := ⟨fun _ hop => hop, fun _ htask _ => htask⟩

theorem guarded_finishStep {d : DatabaseRow} (h : t.Guarded)
    (hd : ∀ d' ∈ t.databases, d'.id = id → d'.operations = d.operations)
    (hop : d.operations.head? = some op) (hname : op.steps.head? = some name)
    (hbackup : name = .firstBackup → t.BackupSucceeded op.id) : (t.finishStep id).Guarded := by
  refine guarded_updateDb h grows_finishStep rfl (fun _ => rfl) fun d' hd' hid hok => ?_
  have hop' : d'.access.operations.head? = some op := by
    rw [← hop, ← hd d' hd' hid]
    rfl
  exact ok_popStep (hok.grows grows_finishStep) hop' hname fun hfirst =>
    grows_finishStep.backupSucceeded (hbackup hfirst)

theorem upholds_failOperation : Upholds t (t.failOperation id op) := by
  refine Upholds.trans (upholds_fewer fun d => ?_) (Still.endTasks (.refl _)).upholds
  exact ⟨d.operations.tail, rfl, fun _ hop => mem_of_mem_tail hop⟩

theorem upholds_stepOnce (h : t.stepOnce id e = some t') : Upholds t t' := by
  obtain ⟨⟨d, op, _⟩, hclaimed, h⟩ := bind_eq_some_iff.mp h
  obtain ⟨_, hd, hclaimed⟩ := bind_eq_some_iff.mp hclaimed
  obtain ⟨_, hop, hclaimed⟩ := bind_eq_some_iff.mp hclaimed
  obtain ⟨_, hname, hclaimed⟩ := map_eq_some_iff.mp hclaimed
  cases hclaimed
  obtain ⟨⟨t₁, v⟩, hrun, rfl⟩ := map_eq_some_iff.mp h
  have hmem : d ∈ t.databases := mem_of_find?_eq_some hd
  have hstep : Upholds t t₁ := upholds_runStep hmem hop hname hrun
  show Upholds t (t₁.settle id op v e.pastDeadline)
  unfold settle
  split
  · exact hstep.trans upholds_failOperation
  · split
    · rename_i hdone
      subst hdone
      refine ⟨hstep.grows.trans grows_finishStep, fun hg => ?_⟩
      refine guarded_finishStep (hstep.guarded hg) (fun d' hd' hid => ?_) hop hname ?_
      · -- The row found is the only one of its ID.
        have hrow : (d'.id, d'.operations) ∈ t.access.map fun r => (r.id, r.operations) := by
          rw [← operations_runStep hrun]
          exact List.mem_map.mpr ⟨_, List.mem_map_of_mem hd', rfl⟩
        obtain ⟨r, hr, hrow⟩ := List.mem_map.mp hrow
        obtain ⟨hrid, hrops⟩ := Prod.mk.inj hrow
        have hsame : r = d.access :=
          inj_on_of_nodup_map hg.unique hr (List.mem_map_of_mem hmem)
            (hrid.trans (hid.trans (id_of_db? hd).symm))
        rw [← hrops, hsame]
        rfl
      · rintro rfl
        exact backupSucceeded_of_done hrun
    · exact hstep

/-! ## Handlers -/

/-- A handler that got its lock and passed its checks. -/
theorem of_lock {α β : Type} {o : Option α} {c : α → Prop} [DecidablePred c] {f : α → Option β}
    {b : β} (h : (o.bind fun d => if c d then none else f d) = some b) : ∃ d, f d = some b := by
  obtain ⟨d, -, h⟩ := bind_eq_some_iff.mp h
  exact ⟨d, (ite_none_left_eq_some.mp h).2⟩

theorem upholds_delete (h : t.delete id = some t') : Upholds t t' := by
  obtain ⟨_, h⟩ := of_lock h
  cases h
  have hclear : Upholds t (t.updateDb id fun d => { d with operations := [] }) :=
    upholds_fewer fun d => ⟨[], rfl, fun _ hop => absurd hop not_mem_nil⟩
  exact .record (hclear.trans (Still.upholds (.setStatus (.endTasks (.refl _)))))

theorem upholds_storeSpec : Upholds t (t.storeSpec id spec kind params) :=
  .record (Still.upholds (.bumpHosts (.updateDb (.refl t) fun _ => rfl)))

theorem upholds_startReplacement {c : Chosen}
    (h : t.startReplacement id node c = some t') : Upholds t t' := by
  obtain ⟨_, h⟩ := of_lock h
  obtain ⟨_, -, h⟩ := bind_eq_some_iff.mp h
  obtain ⟨_, hadd, rfl⟩ := map_eq_some_iff.mp h
  exact .record (Still.upholds (.newGeneration (.addNode (.refl t) hadd)))

theorem upholds_renewCertificate {secrets : NodeSecrets}
    (h : t.renewCertificate id node secrets = some t') : Upholds t t' := by
  obtain ⟨_, h⟩ := of_lock h
  obtain ⟨n, -, rfl⟩ := map_eq_some_iff.mp h
  exact .record (Still.upholds (.bumpHost (.updateDb (.mapNodes (.refl t)) fun _ => rfl)))

theorem upholds_putCertificate {certificate : Admin.ProxyCertificate}
    (h : t.putCertificate id certificate = some t') : Upholds t t' := by
  obtain ⟨_, h⟩ := of_lock h
  obtain ⟨_, -, rfl⟩ := map_eq_some_iff.mp h
  exact .record (Still.upholds (.newGeneration (.storeSecrets (.refl t))))

theorem upholds_apply {c : Change} (h : t.apply c = some t') : Upholds t t' := by
  have hsame {t₁ : Tables} (hdatabases : t₁.databases = t.databases) (htasks : t₁.tasks = t.tasks)
      (hrecorded : t₁.recorded = t.recorded) : Upholds t t₁ :=
    (still_of_same hdatabases htasks hrecorded).upholds
  cases c with
  | step => exact upholds_stepOnce h
  | create => exact upholds_insertDatabase h
  | createReplica =>
    obtain ⟨_, h⟩ := of_lock h
    exact upholds_insertDatabase h
  | promoteReplica =>
    obtain ⟨_, h⟩ := of_lock h
    cases h
    exact .record (Still.upholds (.setStatus (.refl t)))
  | delete => exact upholds_delete h
  | start =>
    obtain ⟨_, h⟩ := of_lock h
    cases h
    exact .record (Still.refl t).upholds
  | changeSpec | resize =>
    obtain ⟨_, h⟩ := of_lock h
    cases h
    exact upholds_storeSpec
  | replace => exact upholds_startReplacement h
  | putCertificate => exact upholds_putCertificate h
  | renewCertificate => exact upholds_renewCertificate h
  | sweep =>
    obtain ⟨d, -, h⟩ := bind_eq_some_iff.mp h
    split at h
    · cases h
      exact Still.upholds (.setStatus (.refl t))
    · obtain ⟨-, rfl⟩ := ite_some_none_eq_some.mp h
      exact Still.upholds (.setStatus (.refl t))
  | createHost | deleteHost | deleteRepository | startRotation | createRepository =>
    obtain ⟨-, h⟩ := ite_none_left_eq_some.mp h
    cases h
    exact hsame rfl rfl rfl
  | taskResult =>
    obtain ⟨_, -, rfl⟩ := map_eq_some_iff.mp h
    exact Still.upholds (.bumpHosts (.endTasks (.refl t)))
  | enroll | report | repositoryCheck | removeUnverified | advanceRotation | endRotation
  | bumpAllHosts =>
    cases h
    exact hsame rfl rfl rfl

end Tables

/-! ## What hosts are sent -/

/-- No instance lets clients in before its database was backed up. -/
def DesiredState.Backed (t : Tables) (d : DesiredState) : Prop :=
  ∀ i ∈ d.instances, i.allowedCidrs ≠ [] → t.BackedUp i.databaseId

def InstanceRow.Admits (row : InstanceRow) (i : Instance) : Prop :=
  i.databaseId = row.databaseId ∧ (i.allowedCidrs ≠ [] → row.accessOpen = true)

theorem admits_toInstance {row : InstanceRow} {database : Admin.DatabaseSecrets}
    {repository : String × RepositoryConfig × RepositoryCredentials}
    {peers replicas : List PeerRow} {tasks : List Task} :
    row.Admits (row.toInstance database repository peers replicas tasks) := by
  refine ⟨rfl, fun hcidrs => ?_⟩
  by_contra hclosed
  exact hcidrs (if_neg hclosed)

theorem all_instanceOf (row : InstanceRow) : (instanceOf row).All row.Admits := by
  refine (all_true _).bind fun database _ => ?_
  refine (all_true _).bind fun repository _ => ?_
  refine (all_true _).bind fun peers _ => ?_
  refine (all_true _).bind fun replicas _ => ?_
  exact (all_true _).bind fun tasks _ => admits_toInstance

variable {phase : PollPhase}

theorem DesiredState.Backed.grows {d : DesiredState} (h : d.Backed t) (hg : t.Grows t') :
    d.Backed t' :=
  fun i hi hcidrs => hg.backedUp (h i hi hcidrs)

/-- Whatever the later statements answer. -/
theorem all_desiredFrom (h : t.Guarded) (generation : Nat) :
    (desiredFrom host generation (t.instanceRows host)).All (DesiredState.Backed t) := by
  refine (all_true _).bind fun checks _ => ?_
  refine (all_true _).bind fun rotation _ => ?_
  refine (Reading.all_each fun row _ => all_instanceOf row).bind fun instances hinstances => ?_
  intro i hi hcidrs
  obtain ⟨_, hrow, hid, hopen⟩ := hinstances i hi
  obtain ⟨n, -, hn⟩ := mem_filterMap.mp hrow
  obtain ⟨d, hd, hn⟩ := bind_eq_some_iff.mp hn
  obtain ⟨r, -, rfl⟩ := map_eq_some_iff.mp hn
  have hbacked : t.BackedUp d.id :=
    (h.rows _ (List.mem_map_of_mem (mem_of_find?_eq_some hd))).opened (hopen hcidrs)
  rw [Tables.id_of_db? hd] at hbacked
  rw [hid]
  exact hbacked

/-- A poll that is under way will not say more. -/
def PollPhase.Backed (t : Tables) : PollPhase → Prop
  | .looking | .starting => True
  | .reading _ rest => rest.All (DesiredState.Backed t)
  | .answered d => d.Backed t

theorem PollPhase.Backed.grows (h : phase.Backed t) (hg : t.Grows t') : phase.Backed t' := by
  cases phase with
  | looking | starting => trivial
  | reading => exact Reading.All.imp h fun _ hd => hd.grows hg
  | answered => exact DesiredState.Backed.grows h hg

theorem backed_advance {poll : Poll} (hguarded : t.Guarded)
    (h : poll.phase.Backed t) (hadvance : t.advance poll = some phase) : phase.Backed t := by
  unfold Tables.advance at hadvance
  split at hadvance
  · obtain ⟨g, -, rfl⟩ := map_eq_some_iff.mp hadvance
    split <;> trivial
  · obtain ⟨g, -, rfl⟩ := map_eq_some_iff.mp hadvance
    exact all_desiredFrom hguarded g
  · rename_i g q _ hphase
    cases hadvance
    rw [hphase] at h
    exact h (t.answer q)
  · rename_i g d hphase
    cases hadvance
    rw [hphase] at h
    exact h
  · cases hadvance
  · cases hadvance

namespace State

variable {s s' : State} {l : Label}

structure Kept (s : State) : Prop where
  guarded : s.tables.Guarded
  polls : ∀ poll ∈ s.polls, poll.phase.Backed s.tables
  received : ∀ h d, s.received h = some d → d.Backed s.tables

theorem Kept.step (h : s.Kept) (hstep : s.step l = some s') : s'.Kept := by
  cases l with
  | change =>
    obtain ⟨t, ht, rfl⟩ := map_eq_some_iff.mp hstep
    have hup : s.tables.Upholds t := Tables.upholds_apply ht
    exact ⟨hup.guarded h.guarded, fun poll hpoll => (h.polls poll hpoll).grows hup.grows,
      fun host d hd => (h.received host d hd).grows hup.grows⟩
  | poll =>
    obtain ⟨-, rfl⟩ := ite_some_none_eq_some.mp hstep
    refine ⟨h.guarded, fun poll hpoll => ?_, h.received⟩
    rcases mem_append.mp hpoll with hpoll | hpoll
    · exact h.polls poll hpoll
    · rw [mem_singleton.mp hpoll]
      trivial
  | advance =>
    obtain ⟨poll, hpoll, hstep⟩ := bind_eq_some_iff.mp hstep
    obtain ⟨_, hphase, rfl⟩ := map_eq_some_iff.mp hstep
    refine ⟨h.guarded, fun poll' hpoll' => ?_, h.received⟩
    rcases mem_or_eq_of_mem_set hpoll' with hpoll' | rfl
    · exact h.polls poll' hpoll'
    · exact backed_advance h.guarded (h.polls poll (mem_of_getElem? hpoll)) hphase
  | receive =>
    obtain ⟨poll, hpoll, hstep⟩ := bind_eq_some_iff.mp hstep
    split at hstep
    · rename_i d hphase
      cases hstep
      have hbacked := h.polls poll (mem_of_getElem? hpoll)
      rw [hphase] at hbacked
      refine ⟨h.guarded, fun poll' hpoll' => h.polls poll' (mem_of_mem_eraseIdx hpoll'),
        fun host d' hd' => ?_⟩
      simp only at hd'
      split at hd'
      · cases hd'
        exact hbacked
      · exact h.received host d' hd'
    · cases hstep
  | drop =>
    obtain ⟨_, -, rfl⟩ := map_eq_some_iff.mp hstep
    exact ⟨h.guarded, fun poll' hpoll' => h.polls poll' (mem_of_mem_eraseIdx hpoll'), h.received⟩

/-- Clients stay out until a backup exists: where access is open, and where a host
is told of addresses to let in, the create or the promotion of the database has
a backup task that succeeded. -/
theorem access_waits_for_backup {s : State} (hs : machine.Reachable s) :
    (∀ d ∈ s.tables.databases, d.accessOpen = true → s.tables.BackedUp d.id) ∧
      (∀ h d, s.tables.build h = some d → d.Backed s.tables) ∧
      (∀ poll ∈ s.polls, ∀ d, poll.phase = .answered d → d.Backed s.tables) ∧
      ∀ h d, s.received h = some d → d.Backed s.tables := by
  have hkept : s.Kept := by
    refine hs.invariant ?_ fun s l s' h _ hstep => h.step hstep
    exact ⟨⟨nodup_nil, nofun⟩, nofun, nofun⟩
  refine ⟨fun d hd hopen => ?_, fun h d hd => ?_, fun poll hpoll d hphase => ?_, hkept.received⟩
  · exact (hkept.guarded.rows _ (List.mem_map_of_mem hd)).opened hopen
  · obtain ⟨r, -, hd⟩ := bind_eq_some_iff.mp hd
    exact (all_desiredFrom hkept.guarded r.generation).eval hd
  · have hbacked := hkept.polls poll hpoll
    rw [hphase] at hbacked
    exact hbacked

def openSpec : DatabaseSpec where
  version := "18"
  ha := false
  resources := ⟨1, 1, 1⟩
  replicationMode := "async"
  allowedCidrs := ["0.0.0.0/0"]
  extensions := []
  owner := ⟨"app", "v"⟩
  backup := ⟨"r", 7⟩
  restore := none
  replicaOf := none
  dataName := none

/-- A step that finds its hosts and what it waits for. -/
def onHost (hosts : List String) : StepEnv where
  pastDeadline := false
  found := .done
  choice := .placed (hosts.map fun host => ⟨host, 6000, ⟨"c", "k"⟩⟩) false
  random := ⟨"ca", "key", ⟨"s", "r", "a", "p"⟩, "b"⟩
  issued _ := ⟨"c", "k"⟩

def oneHost : List Label :=
  [.change (.createHost "h"), .change (.enroll "h"), .change (.report "h" "a"),
    .change (.createRepository "r" "posix" ⟨some "/b", none, none, none, none, false⟩ none "h"),
    .change (.repositoryCheck "r" "h" true)]

/-- The create of a database up to the opening of access. -/
def createSteps : List Label :=
  [.change (.create "d" "app" openSpec), .change (.step "d" (onHost ["h"])),
    .change (.step "d" (onHost [])), .change (.step "d" (onHost [])),
    .change (.taskResult 0 true), .change (.step "d" (onHost [])),
    .change (.step "d" (onHost []))]

def pollOnce (host : String) (statements : Nat) : List Label :=
  .poll host 0 :: List.replicate statements (.advance 0) ++ [.receive 0]

def createRun : List Label := oneHost ++ createSteps ++ pollOnce "h" 9

theorem access_waits_for_backup_createRun :
    ∃ s, machine.run createRun = some s ∧ (∃ d, s.received "h" = some d ∧
      ∃ i ∈ d.instances, i.databaseId = "d" ∧ i.allowedCidrs = ["0.0.0.0/0"]) ∧
      s.tables.BackedUp "d" := by
  have hrun : (machine.run createRun).any (fun s => (s.received "h").any fun d =>
      d.instances.any fun i => i.databaseId = "d" && i.allowedCidrs = ["0.0.0.0/0"]) = true := by
    decide +kernel
  obtain ⟨s, hs, h⟩ := (Option.any_eq_true _ _).mp hrun
  obtain ⟨d, hd, h⟩ := (Option.any_eq_true _ _).mp h
  obtain ⟨i, hi, h⟩ := List.any_eq_true.mp h
  simp only [Bool.and_eq_true, decide_eq_true_eq] at h
  obtain ⟨hid, hcidrs⟩ := h
  refine ⟨s, hs, ⟨d, hd, i, hi, hid, hcidrs⟩, ?_⟩
  have hbacked := (access_waits_for_backup (Machine.reachable_of_run hs)).2.2.2 "h" d hd i hi
    (by rw [hcidrs]; exact cons_ne_nil _ _)
  rw [← hid]
  exact hbacked

end State

end PgCluster.Desired
