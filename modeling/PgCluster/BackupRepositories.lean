import PgCluster.AdminWorld
import PgCluster.ListUpdates
import PgCluster.SerialRuns

/-!
# Backup repositories and the databases that use them

`pgcluster-admin/src/api/backups.rs`, with the handlers that insert databases
(`create` of `api/databases.rs`, `restore`, and `create` of `api/replicas.rs`) and
`repository_check` of `agent.rs`. A database names its repository in its spec, and
no foreign key keeps the repository: `create` looks at it in a statement of its
own, `restore` relies on the source it has read, `delete_repository` counts the
databases first, and a repository that nobody has checked in time is deleted
whatever it is by then.

`create_repository` is two kinds of requests here: the transaction that inserts
the row, and each look at it afterwards (`awaitCheck`), the last of which may
remove it. What other handlers and the reconciler do to a database's status is
`changeStatus`. Placement, capacity and the restore window are the environment's
choice (`fits`), and operations are left out.
-/

namespace PgCluster.Backups

open List
open PgCluster.Admin (DbStatus)

/-! ## Rows -/

inductive RepositoryStatus where
  | verifying | verified | failed
deriving DecidableEq

structure Repository where
  id : String
  name : String
  /-- The host proving it can be written to. -/
  checkHost : String
  status : RepositoryStatus
  error : Option String
deriving DecidableEq

structure Database where
  id : String
  name : String
  status : DbStatus
  ha : Bool
  /-- `spec.backup.repository_id`. -/
  repository : String
  replicaOf : Option String
deriving DecidableEq

structure Tables where
  repositories : List Repository
  databases : List Database

/-- Rows that are locked, and the entries of the two unique indexes on names. -/
inductive Key where
  | repository (id : String)
  | repositoryName (name : String)
  | database (id : String)
  | databaseName (name : String)
deriving DecidableEq

namespace Tables

def repository? (s : Tables) (id : String) : Option Repository :=
  s.repositories.find? (·.id = id)

def checkRepository (s : Tables) (id : String) : Bool :=
  (s.repository? id).any (·.status = .verified)

/-- As `lock` and `spec_of` read it: a deleted database is not found. -/
def live? (s : Tables) (id : String) : Option Database :=
  (s.databases.find? (·.id = id)).filter fun d => d.status ≠ .deleted

def users (s : Tables) (id : String) : Nat :=
  s.databases.countP fun d => d.repository = id && d.status ≠ .deleted

def insertDatabase (d : Database) (s : Tables) : Tables :=
  { s with databases := s.databases ++ [d] }

def setStatus (id : String) (status : DbStatus) (s : Tables) : Tables :=
  { s with
    databases := s.databases.map fun d => if d.id = id then { d with status := status } else d }

def insertRepository (r : Repository) (s : Tables) : Tables :=
  { s with repositories := s.repositories ++ [r] }

def removeRepository (id : String) (s : Tables) : Tables :=
  { s with repositories := s.repositories.filter (·.id ≠ id) }

/-- The answer of the host a repository was given to; only the first counts. -/
def answerCheck (id host : String) (error : Option String) (s : Tables) : Tables :=
  { s with repositories := s.repositories.map fun r =>
      if r.id = id && r.checkHost = host && r.status = .verifying then
        { r with status := if error.isNone then .verified else .failed, error := error }
      else r }

end Tables

/-! ## Programs -/

inductive Request where
  | createDatabase (id name repository : String) (ha fits : Bool)
  | restore (source id name : String) (fits : Bool)
  | createReplica (source id name : String) (fits : Bool)
  /-- The host is the one seen last, if any is online. -/
  | createRepository (id name : String) (host : Option String)
  | awaitCheck (id : String) (late : Bool)
  | deleteRepository (id : String)
  | repositoryCheck (id host : String) (error : Option String)
  | changeStatus (id : String) (status : DbStatus)

abbrev BackupTxn := Txn Tables Key Empty

/-- `INSERT ... ON CONFLICT (name) WHERE status <> 'deleted' DO NOTHING`, and an
error if it did nothing. -/
def insertDatabase (d : Database) : BackupTxn :=
  .lock (.databaseName d.name) fun _ s =>
    if s.databases.any fun e => e.name = d.name && e.status ≠ .deleted then .rollback
    else .lock (.database d.id) fun _ s =>
      if s.databases.any (·.id = d.id) then .rollback else .commit (Tables.insertDatabase d)

def createDatabase (id name repository : String) (ha fits : Bool) : BackupTxn :=
  .read fun s =>
    if s.checkRepository repository && fits then
      insertDatabase ⟨id, name, .provisioning, ha, repository, none⟩
    else .rollback

/-- Restore into a new database, with the source's spec. -/
def restore (source id name : String) (fits : Bool) : BackupTxn :=
  .read fun s =>
    match s.live? source with
    | none => .rollback
    | some d =>
      if fits then
        insertDatabase
          { d with id := id, name := name, status := .provisioning, replicaOf := none }
      else .rollback

def createReplica (source id name : String) (fits : Bool) : BackupTxn :=
  .lock (.database source) fun _ s =>
    match s.live? source with
    | none => .rollback
    | some d =>
      if d.status.serving && d.replicaOf.isNone && d.ha && fits then
        insertDatabase { d with
            id := id, name := name, status := .provisioning, ha := false
            replicaOf := some source }
      else .rollback

/-- The first half of `create_repository`. -/
def createRepository (id name : String) : Option String → BackupTxn
  | none => .rollback
  | some host => .lock (.repositoryName name) fun _ s =>
    if s.repositories.any (·.name = name) then .rollback
    else .lock (.repository id) fun _ s =>
      if s.repositories.any (·.id = id) then .rollback
      else .commit (Tables.insertRepository ⟨id, name, host, .verifying, none⟩)

def removeUnverified (id : String) : BackupTxn :=
  .lock (.repository id) fun _ _ => .commit (Tables.removeRepository id)

/-- One round of the loop of `create_repository`; `late` is past the deadline. -/
def awaitCheck (id : String) (late : Bool) : BackupTxn :=
  .read fun s =>
    match s.repository? id with
    | none => .rollback
    | some r =>
      match r.status with
      | .verified => .rollback
      | .failed => removeUnverified id
      | .verifying => if late then removeUnverified id else .rollback

def deleteRepository (id : String) : BackupTxn :=
  .lock (.repository id) fun _ s =>
    if (s.repository? id).isNone then .rollback
    else .read fun s =>
      if 0 < s.users id then .rollback else .commit (Tables.removeRepository id)

def repositoryCheck (id host : String) (error : Option String) : BackupTxn :=
  .lock (.repository id) fun _ _ => .commit (Tables.answerCheck id host error)

/-- What becomes of a database later; a deleted one stays deleted. -/
def changeStatus (id : String) (status : DbStatus) : BackupTxn :=
  .lock (.database id) fun _ s =>
    if (s.live? id).isNone then .rollback else .commit (Tables.setStatus id status)

def program : Request → BackupTxn
  | .createDatabase id name repository ha fits => createDatabase id name repository ha fits
  | .restore source id name fits => restore source id name fits
  | .createReplica source id name fits => createReplica source id name fits
  | .createRepository id name host => createRepository id name host
  | .awaitCheck id late => awaitCheck id late
  | .deleteRepository id => deleteRepository id
  | .repositoryCheck id host error => repositoryCheck id host error
  | .changeStatus id status => changeStatus id status

def Tables.empty : Tables := ⟨[], []⟩

def machine : Machine (Store Tables Key Empty Request) (TxnLabel Key Request) :=
  storeMachine .empty program

/-! ## Verified repositories -/

def Backed (s : Tables) (d : Database) : Prop :=
  ∃ r ∈ s.repositories, r.id = d.repository ∧ r.status = .verified

/-- Every database that is not deleted is backed, and ids are keys. -/
structure Kept (s : Tables) : Prop where
  repositoryIds : (s.repositories.map (·.id)).Nodup
  databaseIds : (s.databases.map (·.id)).Nodup
  backed : ∀ d ∈ s.databases, d.status ≠ .deleted → Backed s d

/-- What a request has looked at is still so. A replica's source is locked, so its
request needs nothing. -/
def Request.stillHolds (s : Tables) : Request → Bool
  | .createDatabase _ _ repository _ _ => s.checkRepository repository
  | .restore source _ _ _ => (s.live? source).isSome
  | .awaitCheck id _ => !s.checkRepository id
  | .deleteRepository id => s.users id = 0
  | _ => true

/-- Rows that a session has not locked stay as they are, and databases keep their
repository. -/
structure Frame (H : Set Key) (s s' : Tables) : Prop where
  repositories : ∀ r, .repository r.id ∉ H → (r ∈ s'.repositories ↔ r ∈ s.repositories)
  databases : ∀ d, .database d.id ∉ H → (d ∈ s'.databases ↔ d ∈ s.databases)
  specs : ∀ d ∈ s.databases, ∃ e ∈ s'.databases, e.id = d.id ∧ e.repository = d.repository

def contract : Contract Tables Key Empty Request where
  Inv := Kept
  Guar _ _ H s s' := Frame H s s'
  row := Empty.elim
  Cond a s := a.stillHolds s = true
  Fresh _ _ _ _ := True

variable {d : Database} {r : Repository} {s : Tables} {H : Set Key} {id : String}

namespace Tables

theorem backed_of_check (h : s.checkRepository d.repository) : Backed s d := by
  obtain ⟨r, hr, hstatus⟩ := (Option.any_eq_true _ _).mp h
  refine ⟨r, mem_of_find?_eq_some hr, ?_, of_decide_eq_true hstatus⟩
  simpa using find?_some hr

theorem mem_of_live? (h : s.live? id = some d) :
    d ∈ s.databases ∧ d.id = id ∧ d.status ≠ .deleted := by
  obtain ⟨hfind, hlive⟩ := Option.filter_eq_some_iff.mp h
  refine ⟨mem_of_find?_eq_some hfind, ?_, of_decide_eq_true hlive⟩
  simpa using find?_some hfind

theorem check_of_mem (hids : (s.repositories.map (·.id)).Nodup)
    (hr : r ∈ s.repositories) (hstatus : r.status = .verified) : s.checkRepository r.id := by
  rw [checkRepository, repository?, find?_of_nodup_map hids hr]
  exact decide_eq_true hstatus

end Tables

/-! ## Commits -/

section Commits

theorem Kept.insertDatabase (h : Kept s) (hd : Backed s d)
    (hnew : ∀ e ∈ s.databases, e.id ≠ d.id) : Kept (s.insertDatabase d) := by
  refine ⟨h.repositoryIds, nodup_map_append_singleton h.databaseIds hnew, fun e he hlive => ?_⟩
  rcases mem_append.mp he with he | he
  · exact h.backed e he hlive
  · rw [mem_singleton.mp he]
    exact hd

theorem Kept.insertRepository (h : Kept s)
    (hnew : ∀ x ∈ s.repositories, x.id ≠ r.id) : Kept (s.insertRepository r) := by
  refine ⟨nodup_map_append_singleton h.repositoryIds hnew, h.databaseIds, fun d hd hlive => ?_⟩
  obtain ⟨x, hx, hrest⟩ := h.backed d hd hlive
  exact ⟨x, mem_append_left _ hx, hrest⟩

theorem Kept.removeRepository (h : Kept s)
    (hunused : ∀ d ∈ s.databases, d.status ≠ .deleted → d.repository ≠ id) :
    Kept (s.removeRepository id) := by
  refine ⟨(filter_sublist.map _).nodup h.repositoryIds, h.databaseIds, fun d hd hlive => ?_⟩
  obtain ⟨r, hr, hid, hstatus⟩ := h.backed d hd hlive
  refine ⟨r, mem_filter.mpr ⟨hr, decide_eq_true ?_⟩, hid, hstatus⟩
  rw [hid]
  exact hunused d hd hlive

theorem Kept.answerCheck (h : Kept s) (host : String) (error : Option String) :
    Kept (s.answerCheck id host error) := by
  refine ⟨?_, h.databaseIds, fun d hd hlive => ?_⟩
  · refine (congrArg List.Nodup (map_key_map_ite ?_)).mpr h.repositoryIds
    exact fun _ => rfl
  · obtain ⟨r, hr, hid, hstatus⟩ := h.backed d hd hlive
    refine ⟨r, mem_map.mpr ⟨r, hr, if_neg ?_⟩, hid, hstatus⟩
    simp [hstatus]

theorem Kept.setStatus (h : Kept s) (hd : d ∈ s.databases) (hid : d.id = id)
    (hlive : d.status ≠ .deleted) (status : DbStatus) : Kept (s.setStatus id status) := by
  refine ⟨h.repositoryIds, ?_, fun e he hstatus => ?_⟩
  · refine (congrArg List.Nodup (map_key_map_ite ?_)).mpr h.databaseIds
    exact fun _ => rfl
  · obtain ⟨x, hx, rfl⟩ := mem_map.mp he
    split
    · next heq =>
      -- the row was there before, and not deleted
      obtain rfl := inj_on_of_nodup_map h.databaseIds hx hd (heq.trans hid.symm)
      exact h.backed x hd hlive
    · next hne =>
      rw [if_neg hne] at hstatus
      exact h.backed x hx hstatus

theorem Frame.insertDatabase (hlock : .database d.id ∈ H) : Frame H s (s.insertDatabase d) := by
  refine ⟨fun _ _ => .rfl, fun e he => ?_, fun e he => ⟨e, mem_append_left _ he, rfl, rfl⟩⟩
  refine ⟨fun hin => ?_, fun hin => mem_append_left _ hin⟩
  rcases mem_append.mp hin with hin | hin
  · exact hin
  · rw [mem_singleton.mp hin] at he
    exact (he hlock).elim

theorem Frame.insertRepository (hlock : .repository r.id ∈ H) :
    Frame H s (s.insertRepository r) := by
  refine ⟨fun x hx => ?_, fun _ _ => .rfl, fun d hd => ⟨d, hd, rfl, rfl⟩⟩
  refine ⟨fun hin => ?_, fun hin => mem_append_left _ hin⟩
  rcases mem_append.mp hin with hin | hin
  · exact hin
  · rw [mem_singleton.mp hin] at hx
    exact (hx hlock).elim

theorem Frame.removeRepository (hlock : .repository id ∈ H) :
    Frame H s (s.removeRepository id) := by
  refine ⟨fun r hr => ?_, fun _ _ => .rfl, fun d hd => ⟨d, hd, rfl, rfl⟩⟩
  have hne : r.id ≠ id := fun heq => hr (heq ▸ hlock)
  refine ⟨fun hin => (mem_filter.mp hin).1, fun hin => ?_⟩
  exact mem_filter.mpr ⟨hin, decide_eq_true hne⟩

theorem Frame.answerCheck (hlock : .repository id ∈ H) (host : String) (error : Option String) :
    Frame H s (s.answerCheck id host error) := by
  refine ⟨fun r hr => ?_, fun _ _ => .rfl, fun d hd => ⟨d, hd, rfl, rfl⟩⟩
  have hne : r.id ≠ id := fun heq => hr (heq ▸ hlock)
  refine mem_map_of_key_ne (fun x => ?_) (fun x hx => ?_) hne
  · split <;> rfl
  · exact if_neg (by simp [hx])

theorem Frame.setStatus (hlock : .database id ∈ H) (status : DbStatus) :
    Frame H s (s.setStatus id status) := by
  refine ⟨fun _ _ => .rfl, fun d hd => ?_, fun d hd => ⟨_, mem_map_of_mem hd, ?_, ?_⟩⟩
  · have hne : d.id ≠ id := fun heq => hd (heq ▸ hlock)
    refine mem_map_of_key_ne (fun x => ?_) (fun x hx => ?_) hne
    · split <;> rfl
    · exact if_neg hx
  · split <;> rfl
  · split <;> rfl

end Commits

/-! ## Sessions -/

section Sessions

variable {a : Request} {n : Option Empty} {K : Tables → Prop}

/-- The row of a database, where there is one, is the one in `s₀`. -/
def SameDatabase (id : String) (s₀ s : Tables) : Prop :=
  ∀ d : Database, d.id = id → (d ∈ s.databases ↔ d ∈ s₀.databases)

def SameRepository (id : String) (s₀ s : Tables) : Prop :=
  ∀ r : Repository, r.id = id → (r ∈ s.repositories ↔ r ∈ s₀.repositories)

theorem stable_database (hlock : .database id ∈ H) (s₀ : Tables) :
    contract.Stable H (SameDatabase id s₀) := by
  intro a n H' s s' hd _ _ hG h d hid
  have hframe : Frame H' s s' := hG
  refine (hframe.databases d ?_).trans (h d hid)
  rw [hid]
  exact hd _ hlock

theorem stable_repository (hlock : .repository id ∈ H) (s₀ : Tables) :
    contract.Stable H (SameRepository id s₀) := by
  intro a n H' s s' hd _ _ hG h r hid
  have hframe : Frame H' s s' := hG
  refine (hframe.repositories r ?_).trans (h r hid)
  rw [hid]
  exact hd _ hlock

theorem verified_insertDatabase (hK : contract.Stable H K)
    (hbacked : ∀ s, Kept s → K s → a.stillHolds s → Backed s d) :
    contract.Verified a (insertDatabase d) n H K := by
  intro _ _ hs₀
  refine ⟨K, hK, hs₀, fun s _ hs _ => ⟨K, hK.mono (Set.subset_insert _ _), hs, ?_⟩⟩
  dsimp only
  split
  · trivial
  · intro _ _ hs₁
    refine ⟨K, hK.mono (Set.subset_insert _ _), hs₁, fun s₂ _ hs₂ _ => ?_⟩
    have hsub : H ⊆ insert (.database d.id) (insert (.databaseName d.name) H) :=
      (Set.subset_insert _ _).trans (Set.subset_insert _ _)
    refine ⟨fun s => K s ∧ SameDatabase d.id s₂ s,
      (hK.mono hsub).and (stable_database (Set.mem_insert _ _) s₂), ⟨hs₂, fun _ _ => .rfl⟩, ?_⟩
    dsimp only
    split
    · trivial
    · next hnone =>
      intro s hkept hs hcond
      refine ⟨hkept.insertDatabase (hbacked s hkept hs.1 hcond) fun e he hid => hnone ?_,
        .insertDatabase (Set.mem_insert _ _)⟩
      exact any_eq_true.mpr ⟨e, (hs.2 e hid).mp he, decide_eq_true hid⟩

theorem verified_removeRepository (hlock : .repository id ∈ H)
    (hunused : ∀ s, Kept s → a.stillHolds s →
      ∀ d ∈ s.databases, d.status ≠ .deleted → d.repository ≠ id) :
    contract.Verified a (.commit (Tables.removeRepository id)) n H K := by
  intro s hkept _ hcond
  exact ⟨hkept.removeRepository (hunused s hkept hcond), .removeRepository hlock⟩

theorem verified_createDatabase (id name repository : String) (ha fits : Bool) :
    contract.Verified (.createDatabase id name repository ha fits)
      (createDatabase id name repository ha fits) none ∅ fun _ => True := by
  refine contract.verified_read fun s => ?_
  split
  · exact verified_insertDatabase (contract.stable_true _) fun s _ _ hcond =>
      Tables.backed_of_check hcond
  · trivial

theorem stable_spec (H : Set Key) (id repository : String) :
    contract.Stable H fun s => ∃ e ∈ s.databases, e.id = id ∧ e.repository = repository := by
  rintro a n H' s s' _ _ _ hG ⟨e, he, rfl, rfl⟩
  have hframe : Frame H' s s' := hG
  exact hframe.specs e he

theorem verified_restore (source id name : String) (fits : Bool) :
    contract.Verified (.restore source id name fits) (restore source id name fits) none ∅
      fun _ => True := by
  intro s _ _
  cases hlive : s.live? source with
  | none =>
    refine ⟨fun _ => True, contract.stable_true _, trivial, ?_⟩
    dsimp only
    rw [hlive]
    trivial
  | some d =>
    obtain ⟨hd, hid, -⟩ := Tables.mem_of_live? hlive
    refine ⟨_, stable_spec ∅ source d.repository, ⟨d, hd, hid, rfl⟩, ?_⟩
    dsimp only
    rw [hlive]
    dsimp only
    split
    · refine verified_insertDatabase (stable_spec _ _ _) fun s hkept hs hcond => ?_
      -- the source is there still, and names the repository that was read
      obtain ⟨e, he, hesource, hrepository⟩ := hs
      obtain ⟨x, hx⟩ := Option.isSome_iff_exists.mp hcond
      obtain ⟨hmem, hxid, hxlive⟩ := Tables.mem_of_live? hx
      obtain rfl := inj_on_of_nodup_map hkept.databaseIds hmem he (hxid.trans hesource.symm)
      obtain ⟨r, hr, hrid, hstatus⟩ := hkept.backed x hmem hxlive
      exact ⟨r, hr, hrid.trans hrepository, hstatus⟩
    · trivial

theorem verified_createReplica (source id name : String) (fits : Bool) :
    contract.Verified (.createReplica source id name fits) (createReplica source id name fits)
      none ∅ fun _ => True := by
  intro _ _ _
  refine ⟨fun _ => True, contract.stable_true _, trivial, fun s _ _ _ => ?_⟩
  have hstable := stable_database (H := insert (.database source) ∅) (Set.mem_insert _ _) s
  refine ⟨_, hstable, fun _ _ => .rfl, ?_⟩
  dsimp only
  cases hlive : s.live? source with
  | none => trivial
  | some d =>
    obtain ⟨hd, hid, hstatus⟩ := Tables.mem_of_live? hlive
    dsimp only
    split
    · -- the lock keeps the source's row
      refine verified_insertDatabase hstable fun s' hkept hs' _ => ?_
      exact hkept.backed d ((hs' d hid).mpr hd) hstatus
    · trivial

theorem verified_createRepository (id name : String) (host : Option String) :
    contract.Verified (.createRepository id name host) (createRepository id name host) none ∅
      fun _ => True := by
  cases host with
  | none => trivial
  | some =>
    refine contract.verified_lock fun _ s => ?_
    split
    · trivial
    · intro _ _ _
      refine ⟨fun _ => True, contract.stable_true _, trivial, fun s₂ _ _ _ =>
        ⟨_, stable_repository (Set.mem_insert _ _) s₂, fun _ _ => .rfl, ?_⟩⟩
      dsimp only
      split
      · trivial
      · next hnone =>
        intro s hkept hs _
        refine ⟨hkept.insertRepository fun r hr hid => hnone ?_,
          .insertRepository (Set.mem_insert _ _)⟩
        exact any_eq_true.mpr ⟨r, (hs r hid).mp hr, decide_eq_true hid⟩

theorem verified_removeUnverified (id : String) (late : Bool) :
    contract.Verified (.awaitCheck id late) (removeUnverified id) none ∅ fun _ => True := by
  refine contract.verified_lock fun _ _ => ?_
  refine verified_removeRepository (Set.mem_insert _ _) fun s hkept hcond d hd hlive heq => ?_
  obtain ⟨r, hr, hid, hstatus⟩ := hkept.backed d hd hlive
  have hcheck := Tables.check_of_mem hkept.repositoryIds hr hstatus
  rw [hid, heq] at hcheck
  have hcond : (!s.checkRepository id) := hcond
  rw [hcheck] at hcond
  cases hcond

theorem verified_awaitCheck (id : String) (late : Bool) :
    contract.Verified (.awaitCheck id late) (awaitCheck id late) none ∅ fun _ => True := by
  refine contract.verified_read fun s => ?_
  split
  · trivial
  · split
    · trivial
    · exact verified_removeUnverified id late
    · split
      · exact verified_removeUnverified id late
      · trivial

theorem verified_deleteRepository (id : String) :
    contract.Verified (.deleteRepository id) (deleteRepository id) none ∅ fun _ => True := by
  refine contract.verified_lock fun _ s => ?_
  split
  · trivial
  · refine contract.verified_read fun s => ?_
    split
    · trivial
    · refine verified_removeRepository (Set.mem_insert _ _) fun s _ hcond d hd hlive heq => ?_
      have hnone := countP_eq_zero.mp (of_decide_eq_true hcond) d hd
      simp [heq, hlive] at hnone

theorem verified_repositoryCheck (id host : String) (error : Option String) :
    contract.Verified (.repositoryCheck id host error) (repositoryCheck id host error) none ∅
      fun _ => True := by
  refine contract.verified_lock fun _ _ s hkept _ _ => ?_
  exact ⟨hkept.answerCheck host error, .answerCheck (Set.mem_insert _ _) host error⟩

theorem verified_changeStatus (id : String) (status : DbStatus) :
    contract.Verified (.changeStatus id status) (changeStatus id status) none ∅ fun _ => True := by
  intro _ _ _
  refine ⟨fun _ => True, contract.stable_true _, trivial, fun s _ _ _ =>
    ⟨_, stable_database (Set.mem_insert _ _) s, fun _ _ => .rfl, ?_⟩⟩
  dsimp only
  split
  · trivial
  · next hsome =>
    intro _ hkept hs' _
    obtain ⟨d, hd⟩ := Option.ne_none_iff_exists'.mp fun h => hsome (Option.isNone_iff_eq_none.mpr h)
    obtain ⟨hmem, hid, hlive⟩ := Tables.mem_of_live? hd
    exact ⟨hkept.setStatus ((hs' d hid).mpr hmem) hid hlive status,
      .setStatus (Set.mem_insert _ _) status⟩

theorem verified (a : Request) : contract.Verified a (program a) none ∅ fun _ => True := by
  cases a with
  | createDatabase id name repository ha fits =>
    exact verified_createDatabase id name repository ha fits
  | restore source id name fits => exact verified_restore source id name fits
  | createReplica source id name fits => exact verified_createReplica source id name fits
  | createRepository id name host => exact verified_createRepository id name host
  | awaitCheck id late => exact verified_awaitCheck id late
  | deleteRepository id => exact verified_deleteRepository id
  | repositoryCheck id host error => exact verified_repositoryCheck id host error
  | changeStatus id status => exact verified_changeStatus id status

end Sessions

/-! ## Whole runs -/

theorem kept_empty : Kept .empty := by
  refine ⟨nodup_nil, nodup_nil, fun d hd => ?_⟩
  cases hd

/-- Runs in which a request that commits would find again what it has looked at. -/
def ChecksHold (st : Store Tables Key Empty Request) : TxnLabel Key Request → Prop
  | .advance i _ => ∀ t, st.sessions i = some t → ∀ write, t.todo = .commit write →
      t.request.stillHolds st.tables = true
  | _ => True

theorem permits_iff_checksHold {st : Store Tables Key Empty Request} {l : TxnLabel Key Request} :
    contract.Permits st l ↔ ChecksHold st l := by
  cases l with
  | start | crash => rfl
  | advance => exact Contract.permits_iff_cond fun _ _ _ _ => trivial

/-- Databases keep a verified repository, in every committed state of every
interleaving in which what a request has looked at is still so when it commits. -/
theorem repository_kept {st : Store Tables Key Empty Request} (hr : machine.Reaches ChecksHold st) :
    ∀ d ∈ st.tables.databases, d.status ≠ .deleted →
      ∃ r ∈ st.tables.repositories, r.id = d.repository ∧ r.status = .verified := by
  have hgood : contract.Good st :=
    Contract.sound kept_empty verified (hr.mono fun _ _ => permits_iff_checksHold.mpr)
  exact hgood.inv.backed

/-- Requests one after the other find what they look at. -/
theorem checksHold_of_serial {l : List (Request × Option Key)} {s : Tables}
    (h : serial program (fun a s => a.stillHolds s) l .empty = some s) :
    machine.Reaches ChecksHold (Store.idle s) := by
  have hr := Contract.reaches_of_serial (C := contract) (fun _ _ _ => trivial)
    (fun _ _ h => h) .init h
  exact hr.mono fun _ _ => permits_iff_checksHold.mp

/-- A repository is verified, a database `d` created in it, and a replica of `d`;
a second repository fails its check and is removed. -/
theorem repository_kept_used : ∃ st, machine.Reaches ChecksHold st ∧ st.tables.databases.length = 2
      ∧ ∀ d ∈ st.tables.databases, d.status ≠ .deleted →
        ∃ r ∈ st.tables.repositories, r.id = d.repository ∧ r.status = .verified := by
  have hrun : (serial program (fun a s => a.stillHolds s)
      [(.createRepository "r" "first" (some "h1"), none), (.repositoryCheck "r" "h1" none, none),
        (.createDatabase "d" "billing" "r" true true, none), (.changeStatus "d" .active, none),
        (.createReplica "d" "e" "standby" true, none),
        (.createRepository "q" "second" (some "h2"), none),
        (.repositoryCheck "q" "h2" (some "no such bucket"), none), (.awaitCheck "q" false, none)]
      .empty).any fun s => s.databases.length = 2 := by
    decide +kernel
  obtain ⟨s, hs, hlen⟩ := (Option.any_eq_true _ _).mp hrun
  have hr := checksHold_of_serial hs
  exact ⟨_, hr, of_decide_eq_true hlen, repository_kept hr⟩

/-- A request that takes `n` steps, on its own. -/
def whole (i n : Nat) (a : Request) : List (TxnLabel Key Request) :=
  .start i a :: List.replicate n (.advance i none)

/-- A request that takes `n` steps, of which the first `k` come before others. -/
def around (i n k : Nat) (a : Request) (others : List (TxnLabel Key Request)) :
    List (TxnLabel Key Request) :=
  whole i k a ++ others ++ List.replicate (n - k) (.advance i none)

def insertRepository : List (TxnLabel Key Request) :=
  whole 0 5 (.createRepository "r" "first" (some "h1"))

def answerRepository : List (TxnLabel Key Request) := whole 0 3 (.repositoryCheck "r" "h1" none)

def insertBilling : List (TxnLabel Key Request) :=
  whole 0 6 (.createDatabase "d" "billing" "r" true true)

/-- The repository is deleted after a create has checked it. -/
def deletedBehindCheck : List (TxnLabel Key Request) :=
  insertRepository ++ answerRepository ++ around 1 6 1 (.createDatabase "d" "billing" "r" true true)
      (whole 0 4 (.deleteRepository "r"))

/-- A database is created after the delete of its repository has counted none. -/
def createdBehindCount : List (TxnLabel Key Request) :=
  insertRepository ++ answerRepository ++ around 1 4 3 (.deleteRepository "r") insertBilling

/-- The host's answer comes after the last look at the repository. -/
def answeredLate : List (TxnLabel Key Request) :=
  insertRepository ++ around 1 4 1 (.awaitCheck "r" true) (answerRepository ++ insertBilling)

/-- The source goes after a restore has read it, and its repository too. -/
def sourceDeleted : List (TxnLabel Key Request) :=
  insertRepository ++ answerRepository ++ insertBilling
    ++ around 1 6 1 (.restore "d" "e" "copy" true)
      (whole 0 3 (.changeStatus "d" .deleted) ++ whole 0 4 (.deleteRepository "r"))

def Tables.orphaned (s : Tables) : Bool :=
  s.databases.any fun d => d.status ≠ .deleted && s.repositories.all (·.id ≠ d.repository)

def Loses (ls : List (TxnLabel Key Request)) : Prop :=
  ∃ st, machine.run ls = some st ∧ machine.Reachable st
    ∧ ∃ d ∈ st.tables.databases, d.status ≠ .deleted
      ∧ ∀ r ∈ st.tables.repositories, r.id ≠ d.repository

theorem loses_of_orphaned {ls : List (TxnLabel Key Request)}
    (h : (machine.run ls).any (fun st => st.tables.orphaned)) : Loses ls := by
  refine Machine.exists_of_run h fun st horphaned => ?_
  obtain ⟨d, hd, hlost⟩ := any_eq_true.mp horphaned
  rw [Bool.and_eq_true, decide_eq_true_eq] at hlost
  exact ⟨d, hd, hlost.1, fun r hr => of_decide_eq_true (all_eq_true.mp hlost.2 r hr)⟩

theorem repository_lost : Loses deletedBehindCheck ∧ Loses createdBehindCount ∧ Loses answeredLate
      ∧ Loses sourceDeleted :=
  ⟨loses_of_orphaned (by decide +kernel), loses_of_orphaned (by decide +kernel),
    loses_of_orphaned (by decide +kernel), loses_of_orphaned (by decide +kernel)⟩

end PgCluster.Backups
