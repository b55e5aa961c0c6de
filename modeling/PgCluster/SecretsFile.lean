import PgCluster.ListUpdates
import PgCluster.Texts

/-!
# The secrets file of an instance

The host agent writes passwords and repository credentials as lines of a name and a value
(`env_file` of `render.rs`). `pgcluster` reads the file with `credentials::parse` and the agent
with `read_env_file`. Both take a line apart at its first `=`, so a value comes back exactly if it
ends no line. What `BackupTarget::validate` looks at is not what the file is made of.
-/

namespace PgCluster.SecretsFile

open List

/-- What the file has of a backup repository, with what `validate` checks. -/
structure BackupTarget where
  kind : Text
  path : Option Text
  bucket : Option Text
  keyPrefix : Option Text
  encryptionKey : Option Text
  accessKeyId : Option Text
  secretAccessKey : Option Text

structure FilePasswords where
  auth : Text
  replication : Text

structure InstanceSecrets where
  passwords : FilePasswords
  target : BackupTarget
  next : Option FilePasswords

def checkConfValue (value : Text) : Bool := !value.any ['\'', '\\', '\n', '\r'].contains

def BackupTarget.validate (target : BackupTarget) : Bool :=
  if target.kind = "posix".toList then
    target.path.any fun path => path.head? = some '/' && checkConfValue path
  else if target.kind = "s3".toList then
    target.bucket.any (fun bucket => bucket ≠ [] && checkConfValue bucket)
      && target.keyPrefix.all checkConfValue
  else false

namespace InstanceSecrets

/-- The names, with the values of those that are set. -/
def slots (i : InstanceSecrets) : List (Text × Option Text) :=
  [("PGCLUSTER_AUTH_PASSWORD".toList, some i.passwords.auth),
    ("PG_REPLICATION_PASSWORD".toList, some i.passwords.replication),
    ("PGCLUSTER_BACKUP_KEY".toList, i.target.encryptionKey),
    ("AWS_ACCESS_KEY_ID".toList, i.target.accessKeyId),
    ("AWS_SECRET_ACCESS_KEY".toList, i.target.secretAccessKey),
    ("PGCLUSTER_AUTH_PASSWORD_NEXT".toList, i.next.map (·.auth)),
    ("PG_REPLICATION_PASSWORD_NEXT".toList, i.next.map (·.replication))]

/-- The names and values that are meant. -/
def entries (i : InstanceSecrets) : List (Text × Text) :=
  i.slots.filterMap fun (name, value) => value.map (name, ·)

def envFile (i : InstanceSecrets) : Text := i.entries.flatMap fun (name, value) =>
  name ++ '=' :: (value ++ ['\n'])

end InstanceSecrets

/-- `str::lines`: a carriage return before the end of a line is part of it. -/
def lines : Text → List Text
  | [] => []
  | c :: t =>
    if c = '\n' then [] :: lines t
    else if c = '\r' ∧ t.head? = some '\n' then lines t
    else
      match lines t with
      | [] => [[c]]
      | l :: ls => (c :: l) :: ls

/-- `read_env_file` of the agent. -/
def readEnvFile (t : Text) : List (Text × Text) := (lines t).filterMap (Text.splitOnce '=')

/-- `credentials::parse`: of two lines with one name the map has the last. -/
def parse (t : Text) (name : Text) : Option Text :=
  ((readEnvFile t).reverse.find? (·.1 = name)).map Prod.snd

/-! ## What a reader can find -/

theorem not_mem_of_mem_lines (t : Text) : ∀ l ∈ lines t, '\n' ∉ l := by
  fun_induction lines t with
  | case1 => exact forall_mem_nil _
  | case2 _ ih => exact forall_mem_cons.mpr ⟨not_mem_nil, ih⟩
  | case3 _ _ _ _ ih => exact ih
  | case4 c _ hc => exact forall_mem_singleton.mpr (by simpa using Ne.symm hc)
  | case5 c _ hc _ _ _ hlines ih =>
    obtain ⟨hl, hls⟩ := forall_mem_cons.mp (hlines ▸ ih)
    exact forall_mem_cons.mpr ⟨not_mem_cons_of_ne_of_not_mem (Ne.symm hc) hl, hls⟩

theorem not_mem_of_mem_readEnvFile {t : Text} {e : Text × Text} (h : e ∈ readEnvFile t) :
    '\n' ∉ e.2 := by
  obtain ⟨l, hl, he⟩ := mem_filterMap.mp h
  rw [(Text.of_splitOnce he).1] at hl
  exact fun hc => not_mem_of_mem_lines t _ hl (by simp [hc])

theorem mem_of_parse {t name value : Text} (h : parse t name = some value) :
    (name, value) ∈ readEnvFile t := by
  obtain ⟨⟨_, _⟩, hfind, rfl⟩ := Option.map_eq_some_iff.mp h
  obtain rfl : _ = name := by simpa using find?_some hfind
  exact mem_reverse.mp (mem_of_find?_eq_some hfind)

/-! ## What it finds in the file -/

/-- A line without the carriage return of its end. -/
def withoutReturn (l : Text) : Text := if l.getLast? = some '\r' then l.dropLast else l

theorem lines_append {l : Text} (rest : Text) (h : '\n' ∉ l) :
    lines (l ++ '\n' :: rest) = withoutReturn l :: lines rest := by
  induction l with
  | nil => rfl
  | cons c l ih =>
    obtain ⟨hc, hl⟩ := ne_and_not_mem_of_not_mem_cons h
    rw [cons_append, lines, if_neg (Ne.symm hc), ih hl]
    cases l with
    | nil => by_cases hr : c = '\r' <;> simp [withoutReturn, hr]
    | cons d l =>
      rw [if_neg fun hend => (ne_and_not_mem_of_not_mem_cons hl).1 (Option.some.inj hend.2).symm]
      simp only [withoutReturn, getLast?_cons_cons, dropLast_cons_cons]
      split <;> rfl

theorem withoutReturn_append (name value : Text) :
    withoutReturn (name ++ '=' :: value) = name ++ '=' :: withoutReturn value := by
  cases value with
  | nil => simp [withoutReturn]
  | cons =>
    simp only [withoutReturn, getLast?_append_cons, getLast?_cons_cons, dropLast_append_cons,
      dropLast_cons_cons]
    split <;> rfl

theorem withoutReturn_eq_self {l : Text} : withoutReturn l = l ↔ l.getLast? ≠ some '\r' := by
  unfold withoutReturn
  split
  · next h =>
    have hpos := length_pos_of_mem (mem_of_getLast? h)
    refine iff_of_false (fun heq => ?_) (not_not.mpr h)
    have hlength := congrArg length heq
    rw [length_dropLast] at hlength
    omega
  · next h => exact iff_of_true rfl h

/-- A file of lines whose values have no line feed: only carriage returns are lost. -/
theorem readEnvFile_flatMap {entries : List (Text × Text)}
    (hnames : ∀ e ∈ entries, '=' ∉ e.1 ∧ '\n' ∉ e.1) (hvalues : ∀ e ∈ entries, '\n' ∉ e.2) :
    readEnvFile (entries.flatMap fun (name, value) => name ++ '=' :: (value ++ ['\n']))
      = entries.map fun e => (e.1, withoutReturn e.2) := by
  induction entries with
  | nil => rfl
  | cons e entries ih =>
    obtain ⟨hvalue, hvalues⟩ := forall_mem_cons.mp hvalues
    obtain ⟨⟨hequals, hname⟩, hnames⟩ := forall_mem_cons.mp hnames
    have hline := lines_append (l := e.1 ++ '=' :: e.2) (entries.flatMap fun (name, value) =>
      name ++ '=' :: (value ++ ['\n'])) (by simp [hname, hvalue])
    have hrest := ih hnames hvalues
    rw [readEnvFile] at hrest ⊢
    rw [flatMap_cons]
    simp only [append_assoc, cons_append, nil_append] at hline hrest ⊢
    rw [hline, withoutReturn_append, filterMap_cons, Text.splitOnce_append hequals, hrest, map_cons]

namespace InstanceSecrets

theorem map_fst_sublist (slots : List (Text × Option Text)) :
    ((slots.filterMap fun (name, value) => value.map (name, ·)).map Prod.fst).Sublist
      (slots.map Prod.fst) := by
  induction slots with
  | nil => exact .slnil
  | cons slot slots ih =>
    obtain ⟨name, _ | value⟩ := slot
    · exact ih.cons _
    · exact ih.cons_cons _

/-- No name ends a line or itself, and no two are the same. -/
theorem names (i : InstanceSecrets) : (∀ e ∈ i.entries, '=' ∉ e.1 ∧ '\n' ∉ e.1)
    ∧ (i.entries.map Prod.fst).Nodup := by
  have hslots : (∀ name ∈ i.slots.map Prod.fst, '=' ∉ name ∧ '\n' ∉ name)
      ∧ (i.slots.map Prod.fst).Nodup := by
    simp only [slots, map_cons, map_nil]
    decide
  have hsub := map_fst_sublist i.slots
  exact ⟨fun e he => hslots.1 _ (hsub.subset (mem_map_of_mem he)), hslots.2.sublist hsub⟩

/-- No value ends a line. -/
def Unbroken (i : InstanceSecrets) : Prop :=
  ∀ e ∈ i.entries, '\n' ∉ e.2 ∧ e.2.getLast? ≠ some '\r'

variable {i : InstanceSecrets}

theorem Unbroken.readEnvFile_eq (h : i.Unbroken) : readEnvFile i.envFile = i.entries := by
  rw [envFile, readEnvFile_flatMap i.names.1 fun e he => (h e he).1]
  refine (map_congr_left fun e he => ?_).trans (map_id _)
  exact Prod.ext rfl (withoutReturn_eq_self.mpr (h e he).2)

theorem Unbroken.of_mem (h : ∀ e ∈ i.entries, e ∈ readEnvFile i.envFile) : i.Unbroken := by
  have hvalues : ∀ e ∈ i.entries, '\n' ∉ e.2 := fun e he => not_mem_of_mem_readEnvFile (h e he)
  intro e he
  have hread := h e he
  rw [envFile, readEnvFile_flatMap i.names.1 hvalues] at hread
  obtain ⟨e', he', heq⟩ := mem_map.mp hread
  -- The names are distinct, so the entry that gave this one is the one of its name.
  have hname : e'.1 = e.1 := by rw [← heq]
  obtain rfl := inj_on_of_nodup_map i.names.2 he' he hname
  exact ⟨hvalues _ he, withoutReturn_eq_self.mp (congrArg Prod.snd heq)⟩

end InstanceSecrets

/-- The two readers give what was meant, no less and no more, exactly if no value ends a line. -/
theorem secrets_file_read_back_iff (i : InstanceSecrets) :
    (readEnvFile i.envFile = i.entries ↔ i.Unbroken)
      ∧ ((∀ name value, parse i.envFile name = some value ↔ (name, value) ∈ i.entries)
        ↔ i.Unbroken) := by
  refine ⟨⟨fun h => .of_mem fun e he => h ▸ he, fun h => h.readEnvFile_eq⟩, ?_, ?_⟩
  · intro h
    exact .of_mem fun e he => mem_of_parse ((h e.1 e.2).mpr he)
  · intro h name value
    rw [← h.readEnvFile_eq]
    refine ⟨mem_of_parse, fun hmem => ?_⟩
    have hnames : ((readEnvFile i.envFile).reverse.map Prod.fst).Nodup := by
      rw [map_reverse, nodup_reverse, h.readEnvFile_eq]
      exact i.names.2
    rw [parse, find?_of_nodup_map hnames (mem_reverse.mpr hmem)]
    rfl

/-- A repository that `validate` accepts. -/
def localTarget : BackupTarget :=
  ⟨"posix".toList, some "/backups".toList, none, none, none, none, none⟩

/-- Credentials that are set, with an `=` in one of them, and passwords to come. -/
def rotating : InstanceSecrets :=
  ⟨⟨['a'], ['b']⟩, { localTarget with encryptionKey := some ['k', '='], accessKeyId := some [] },
    some ⟨['c'], ['d']⟩⟩

theorem secrets_file_read_back_rotating :
    readEnvFile rotating.envFile = [("PGCLUSTER_AUTH_PASSWORD".toList, ['a']),
      ("PG_REPLICATION_PASSWORD".toList, ['b']), ("PGCLUSTER_BACKUP_KEY".toList, ['k', '=']),
      ("AWS_ACCESS_KEY_ID".toList, []), ("PGCLUSTER_AUTH_PASSWORD_NEXT".toList, ['c']),
      ("PG_REPLICATION_PASSWORD_NEXT".toList, ['d'])]
    ∧ parse rotating.envFile "PG_REPLICATION_PASSWORD_NEXT".toList = some ['d'] := by
  have hunbroken : rotating.Unbroken := by
    unfold InstanceSecrets.Unbroken
    decide
  have hread := secrets_file_read_back_iff rotating
  exact ⟨hread.1.mpr hunbroken, (hread.2.mpr hunbroken _ _).mpr (by decide)⟩

/-- An access key with a line end in it, which nothing rules out. -/
def twoLineTarget : BackupTarget :=
  { localTarget with accessKeyId := some "k\nPG_REPLICATION_PASSWORD=other".toList }

/-- It sets another password. -/
theorem secrets_file_altered : twoLineTarget.validate = true
    ∧ readEnvFile (InstanceSecrets.mk ⟨['a'], ['b']⟩ twoLineTarget none).envFile
      = [("PGCLUSTER_AUTH_PASSWORD".toList, ['a']), ("PG_REPLICATION_PASSWORD".toList, ['b']),
        ("AWS_ACCESS_KEY_ID".toList, ['k']), ("PG_REPLICATION_PASSWORD".toList, "other".toList)]
    ∧ parse (InstanceSecrets.mk ⟨['a'], ['b']⟩ twoLineTarget none).envFile
      "PG_REPLICATION_PASSWORD".toList = some "other".toList := by
  decide +kernel

end PgCluster.SecretsFile
