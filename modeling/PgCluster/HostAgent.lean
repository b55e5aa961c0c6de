import PgCluster.Machine

/-!
# The host agent

`vk-agent/src/host/mod.rs`, with `apply` and `remove` of `instance.rs` as far
as directories, markers and processes go: the process that polls for a
desired state, saves it, and makes the machine match it.

The process may die between any two effects and start again from what is on
disk. What `apply` and `remove` meet is the labels' choice: how far they get
and whether they fail. A desired state is its generation and its instances;
what an instance is to be set up with, repository checks and the admin CA
are left out, and so are the tasks and the watcher, which make and delete no
directory.

Three fields are kept for the results only: `newest` is the last state any
poll has brought, `erased` what `remove` has deleted, and `reconciled` says
that a reconcile of the process has ended.
-/

namespace PgCluster.Host

open List

/-! ## What is asked for -/

/-- A node of a database. Its number stands in its name, so there is no dash
in it. -/
structure NodeId where
  databaseId : String
  node : String
  plain : '-' ∉ node.toList
deriving DecidableEq

/-- Names a directory and systemd units. -/
def NodeId.id (k : NodeId) : String := k.databaseId ++ "-" ++ k.node

theorem NodeId.id_injective {k k' : NodeId} (h : k.id = k'.id) : k = k' := by
  obtain ⟨database, node, hplain⟩ := k
  obtain ⟨database', node', hplain'⟩ := k'
  have hchars :
      database.toList ++ '-' :: node.toList = database'.toList ++ '-' :: node'.toList := by
    simpa [NodeId.id] using congrArg String.toList h
  -- the last dash is where the node's name begins
  have hsplit : ∀ {xs ys xs' ys' : List Char}, '-' ∉ ys → '-' ∉ ys' →
      xs ++ '-' :: ys = xs' ++ '-' :: ys' → xs = xs' ∧ ys = ys' := by
    intro _ _ _ _ hys hys' heq
    rcases append_eq_append_iff.mp heq with ⟨as, rfl, hrest⟩ | ⟨as, rfl, hrest⟩
    · cases as with
      | nil => exact ⟨(append_nil _).symm, by simpa using hrest⟩
      | cons =>
        obtain ⟨-, rfl⟩ := List.cons.inj hrest
        exact (hys (by simp)).elim
    · cases as with
      | nil => exact ⟨append_nil _, (by simpa using hrest : _ = _).symm⟩
      | cons =>
        obtain ⟨-, rfl⟩ := List.cons.inj hrest
        exact (hys' (by simp)).elim
  obtain ⟨hdb, hnode⟩ := hsplit hplain hplain' hchars
  obtain rfl := String.toList_inj.mp hdb
  obtain rfl := String.toList_inj.mp hnode
  rfl

structure Instance where
  key : NodeId
  generation : Int
deriving DecidableEq

def Instance.id (i : Instance) : String := i.key.id

structure DesiredState where
  generation : Int
  instances : List Instance
deriving DecidableEq

def DesiredState.wants (d : DesiredState) (id : String) : Bool := d.instances.any (·.id = id)

variable {s s' : HostState} {pass : Pass} {p : Process} {id : String} {hostId : String}
  {l : HostLabel}

theorem DesiredState.wants_iff {d : DesiredState} : d.wants id ↔ ∃ i ∈ d.instances, i.id = id := by
  simp [wants]

/-! ## What is reported -/

inductive InstanceState where
  | starting | running | seeding | failed
deriving DecidableEq

structure InstanceReport where
  key : NodeId
  observedGeneration : Int
  state : InstanceState
  error : Option String
deriving DecidableEq

abbrev Reports := List InstanceReport

namespace Reports

def names (rs : Reports) (id : String) : Bool := rs.any (·.key.id = id)

def insert (r : InstanceReport) (rs : Reports) : Reports :=
  r :: rs.filter (·.key.id ≠ r.key.id)

/-- `entry(id).or_insert_with(report)`. -/
def orInsert (r : InstanceReport) (rs : Reports) : Reports :=
  if names rs r.key.id then rs else r :: rs

variable {r : InstanceReport} {rs : Reports}

theorem names_insert : names (insert r rs) id ↔ id = r.key.id ∨ names rs id := by
  simp only [names, insert, any_cons, Bool.or_eq_true, decide_eq_true_eq, any_eq_true, mem_filter]
  constructor
  · rintro (h | ⟨x, ⟨hx, -⟩, h⟩)
    · exact .inl h.symm
    · exact .inr ⟨x, hx, h⟩
  · rintro (h | ⟨x, hx, h⟩)
    · exact .inl h.symm
    · by_cases hid : id = r.key.id
      · exact .inl hid.symm
      · exact .inr ⟨x, ⟨hx, by simpa [h] using hid⟩, h⟩

theorem names_orInsert : names (orInsert r rs) id ↔ id = r.key.id ∨ names rs id := by
  unfold orInsert
  split
  · next h =>
    refine ⟨.inr, ?_⟩
    rintro (rfl | h')
    · exact h
    · exact h'
  · rw [names, any_cons, Bool.or_eq_true, decide_eq_true_eq]
    exact or_congr eq_comm .rfl

end Reports

/-- What the next report says. -/
structure Status where
  observedGeneration : Int
  instances : Reports
deriving DecidableEq

/-! ## The disk -/

/-- The file that marks a directory as an instance of a host. -/
structure Applied where
  hostId : String
  generation : Int
deriving DecidableEq

structure Directory where
  id : String
  applied : Option Applied
deriving DecidableEq

def readApplied (dirs : List Directory) (id : String) : Option Applied :=
  (dirs.find? (·.id = id)).bind (·.applied)

/-- The check of `remove`: a directory this host has created. -/
def owns (hostId : String) (dirs : List Directory) (id : String) : Bool :=
  (readApplied dirs id).any (·.hostId = hostId)

def hasDirectory (dirs : List Directory) (id : String) : Bool := dirs.any (·.id = id)

def prepareDirectories (dirs : List Directory) (id : String) : List Directory :=
  if hasDirectory dirs id then dirs else dirs ++ [⟨id, none⟩]

def writeApplied (dirs : List Directory) (id : String) (applied : Option Applied) :
    List Directory :=
  dirs.map fun d => if d.id = id then { d with applied := applied } else d

def removeDirectory (dirs : List Directory) (id : String) : List Directory :=
  dirs.filter (·.id ≠ id)

section Disk

variable {hostId : String} {dirs : List Directory} {id j : String} {a : Applied}

theorem hasDirectory_prepare : hasDirectory (prepareDirectories dirs id) j
    ↔ j = id ∨ hasDirectory dirs j := by
  unfold prepareDirectories
  split
  · next h =>
    refine ⟨.inr, ?_⟩
    rintro (rfl | h')
    · exact h
    · exact h'
  · rw [hasDirectory, any_append, Bool.or_eq_true, any_cons, any_nil,
      Bool.or_false, decide_eq_true_eq]
    exact or_comm.trans (or_congr eq_comm .rfl)

@[simp] theorem hasDirectory_write (a : Option Applied) :
    hasDirectory (writeApplied dirs id a) j = hasDirectory dirs j := by
  rw [hasDirectory, writeApplied, any_map]
  refine congrArg dirs.any (funext fun d => ?_)
  show decide ((if d.id = id then _ else d).id = j) = decide (d.id = j)
  split <;> rfl

theorem hasDirectory_remove : hasDirectory (removeDirectory dirs id) j
    ↔ j ≠ id ∧ hasDirectory dirs j := by
  simp only [hasDirectory, removeDirectory, any_eq_true, mem_filter, decide_eq_true_eq]
  constructor
  · rintro ⟨d, ⟨hd, hne⟩, rfl⟩
    exact ⟨hne, d, hd, rfl⟩
  · rintro ⟨hne, d, hd, rfl⟩
    exact ⟨d, ⟨hd, hne⟩, rfl⟩

theorem readApplied_prepare : readApplied (prepareDirectories dirs id) j = readApplied dirs j := by
  unfold prepareDirectories readApplied
  split
  · rfl
  · rw [find?_append]
    cases dirs.find? (·.id = j) with
    | some => rfl
    | none =>
      by_cases hj : id = j
      · simp [hj]
      · simp [hj]

theorem readApplied_write (a : Option Applied) : readApplied (writeApplied dirs id a) j
    = if j = id ∧ hasDirectory dirs j = true then a else readApplied dirs j := by
  unfold readApplied writeApplied hasDirectory
  induction dirs with
  | nil => simp
  | cons d _ ih =>
    by_cases hd : d.id = j
    · subst hd
      by_cases hid : d.id = id
      · simp [hid]
      · simp [hid]
    · have hd' : (if d.id = id then { d with applied := a } else d).id ≠ j := by split <;> exact hd
      rw [map_cons, find?_cons_of_neg (by simpa using hd'), ih,
        find?_cons_of_neg (by simpa using hd), any_cons, decide_eq_false hd,
        Bool.false_or]

theorem readApplied_remove : readApplied (removeDirectory dirs id) j
    = if j = id then none else readApplied dirs j := by
  unfold readApplied removeDirectory
  induction dirs with
  | nil => simp
  | cons d _ ih =>
    by_cases hid : d.id = id
    · rw [filter_cons_of_neg (by simpa using hid), ih]
      split
      · rfl
      · next hj => rw [find?_cons_of_neg (by simpa [hid] using Ne.symm hj)]
    · rw [filter_cons_of_pos (by simpa using hid)]
      by_cases hj : d.id = j
      · simp [hj, hj ▸ hid]
      · rw [find?_cons_of_neg (by simpa using hj), ih, find?_cons_of_neg (by simpa using hj)]

theorem hasDirectory_of_readApplied (h : readApplied dirs j = some a) : hasDirectory dirs j := by
  obtain ⟨d, hd, -⟩ := Option.bind_eq_some_iff.mp h
  have hid := find?_some hd
  exact any_eq_true.mpr ⟨d, mem_of_find?_eq_some hd, hid⟩

theorem owns_write_none (h : owns hostId (writeApplied dirs id none) j) : owns hostId dirs j := by
  rw [owns, readApplied_write] at h
  split at h
  · cases h
  · exact h

theorem owns_write_some (h : owns hostId (writeApplied dirs id (some a)) j) :
    j = id ∨ owns hostId dirs j := by
  rw [owns, readApplied_write] at h
  split at h
  · next hj => exact .inl hj.1
  · exact .inr h

theorem owns_remove (h : owns hostId (removeDirectory dirs id) j) :
    j ≠ id ∧ owns hostId dirs j := by
  rw [owns, readApplied_remove] at h
  split at h
  · cases h
  · next hj => exact ⟨hj, h⟩

end Disk

/-! ## The process -/

inductive Work where
  | next (rest : List Instance)
  | applying (i : Instance) (observed : Int) (rest : List Instance)
  | removing (rest : List String)
deriving DecidableEq

/-- A reconcile under way. `booting` is the one a process starts with. -/
structure Pass where
  state : DesiredState
  booting : Bool
  work : Work
  reports : Reports
  allOk : Bool
deriving DecidableEq

def Pass.start (state : DesiredState) (booting : Bool) : Pass :=
  ⟨state, booting, .next state.instances, [], true⟩

inductive Phase where
  | polling (needsRetry : Bool)
  | saving (state : DesiredState)
  | reconciling (pass : Pass)
deriving DecidableEq

structure Process where
  desired : Option DesiredState
  status : Status
  phase : Phase
  reconciled : Bool
deriving DecidableEq

/-- `run` up to its loop: the saved state is made true first. -/
def Process.boot (saved : Option DesiredState) : Process where
  desired := saved
  status := ⟨0, []⟩
  phase := match saved with
    | none => .polling false
    | some state => .reconciling (.start state true)
  reconciled := false

/-- A poll that brings nothing: retry, or look whether all still runs. -/
def Process.unchanged (p : Process) (needsRetry healthy : Bool) : Process :=
  match p.desired with
  | some state =>
    if needsRetry || !healthy then { p with phase := .reconciling (.start state false) } else p
  | none => p

/-- The end of a reconcile. A failed removal is not in the status. -/
def Process.finish (p : Process) (pass : Pass) : Process where
  desired := some pass.state
  status :=
    { observedGeneration :=
        if pass.allOk then pass.state.generation else p.status.observedGeneration
      instances := pass.reports }
  phase := .polling (!pass.booting && !pass.allOk)
  reconciled := true

structure Erasure where
  id : String
  newest : Option DesiredState
deriving DecidableEq

structure HostState where
  dirs : List Directory
  /-- Instances whose processes run. -/
  running : List String
  saved : Option DesiredState
  newest : Option DesiredState
  process : Option Process
  erased : List Erasure
deriving DecidableEq

/-- A machine with these directories on it, where the agent has never run. -/
def HostState.fresh (dirs : List Directory) : HostState := ⟨dirs, [], none, none, none, []⟩

inductive ApplyEffect where
  | prepare
  /-- Marks the directory as this host's, if nothing has been applied to it. -/
  | mark
  | run (running : Bool)
deriving DecidableEq

inductive ApplyResult where
  | running | seeding
  | failed (message : String)
deriving DecidableEq

inductive RemoveEffect where
  | stop
  /-- Part of the directory is deleted, and maybe the marker with it. -/
  | erase (markerKept : Bool)
deriving DecidableEq

inductive RemoveResult where
  | removed
  /-- The host did not create the directory. -/
  | left
  | failed
deriving DecidableEq

/-- What happens next. A list of directories comes in any order, or not at
all. -/
inductive HostLabel where
  | boot
  | crash
  | changed (state : DesiredState)
  | unchanged (healthy : Bool)
  | save (ok : Bool)
  | enter
  | apply (effect : ApplyEffect)
  | applied (result : ApplyResult)
  | list (ids : Option (List String))
  | remove (effect : RemoveEffect)
  | removed (result : RemoveResult)
  | finish
deriving DecidableEq

namespace HostState

variable (hostId : String)

def goOn (s : HostState) (p : Process) (pass : Pass) : HostState :=
  { s with process := some { p with phase := .reconciling pass } }

/-- The report is there before anything of the instance is. -/
def enter (s : HostState) (p : Process) (pass : Pass) (i : Instance) (rest : List Instance) :
    HostState :=
  let observed := ((readApplied s.dirs i.id).map (·.generation)).getD 0
  let instances := Reports.orInsert ⟨i.key, observed, .starting, none⟩ p.status.instances
  s.goOn { p with status := { p.status with instances := instances } }
    { pass with work := .applying i observed rest }

/-- A part of `apply`. Nothing runs in a directory without a marker. -/
def applyPart (s : HostState) (id : String) : ApplyEffect → Option HostState
  | .prepare => some { s with dirs := prepareDirectories s.dirs id }
  | .mark =>
    if (readApplied s.dirs id).isNone then
      some { s with dirs := writeApplied s.dirs id (some ⟨hostId, 0⟩) }
    else none
  | .run running =>
    if (readApplied s.dirs id).isSome then
      some { s with running := if running then id :: s.running else s.running.filter (· ≠ id) }
    else none

def endApply (s : HostState) (p : Process) (pass : Pass) (i : Instance) (observed : Int)
    (rest : List Instance) : ApplyResult → Option HostState
  | .running =>
    if (readApplied s.dirs i.id).isSome then
      some ({ s with dirs := writeApplied s.dirs i.id (some ⟨hostId, i.generation⟩) }.goOn p
        { pass with
          work := .next rest
          reports := Reports.insert ⟨i.key, i.generation, .running, none⟩ pass.reports })
    else none
  | .seeding =>
    some (s.goOn p
      { pass with
        work := .next rest
        reports := Reports.insert ⟨i.key, observed, .seeding, none⟩ pass.reports
        allOk := false })
  | .failed message =>
    some (s.goOn p
      { pass with
        work := .next rest
        reports := Reports.insert ⟨i.key, observed, .failed, some message⟩ pass.reports
        allOk := false })

def listed (s : HostState) (p : Process) (pass : Pass) : Option (List String) → Option HostState
  | some ids =>
    if ids.isPerm (s.dirs.map (·.id)) then
      some (s.goOn p { pass with work := .removing (ids.filter fun id => !pass.state.wants id) })
    else none
  | none => some (s.goOn p { pass with work := .removing [], allOk := false })

/-- Data of an instance is deleted, which leaves these directories. -/
def erase (s : HostState) (id : String) (dirs : List Directory) : HostState :=
  { s with dirs := dirs, erased := s.erased ++ [⟨id, s.newest⟩] }

/-- A part of `remove`, on a directory this host has created. -/
def removePart (s : HostState) (id : String) : RemoveEffect → Option HostState
  | .stop =>
    if owns hostId s.dirs id then some { s with running := s.running.filter (· ≠ id) } else none
  | .erase markerKept =>
    if owns hostId s.dirs id then
      some (s.erase id (if markerKept then s.dirs else writeApplied s.dirs id none))
    else none

def endRemove (s : HostState) (p : Process) (pass : Pass) (id : String) (rest : List String) :
    RemoveResult → Option HostState
  | .removed =>
    if owns hostId s.dirs id then
      some ((s.erase id (removeDirectory s.dirs id)).goOn p { pass with work := .removing rest })
    else none
  | .left =>
    if owns hostId s.dirs id then none else some (s.goOn p { pass with work := .removing rest })
  | .failed => some (s.goOn p { pass with work := .removing rest, allOk := false })

def reconcile (s : HostState) (p : Process) (pass : Pass) (l : HostLabel) : Option HostState :=
  match pass.work, l with
  | .next (i :: rest), .enter => some (s.enter p pass i rest)
  | .applying i _ _, .apply effect => s.applyPart hostId i.id effect
  | .applying i observed rest, .applied result => s.endApply hostId p pass i observed rest result
  | .next [], .list ids => s.listed p pass ids
  | .removing (id :: _), .remove effect => s.removePart hostId id effect
  | .removing (id :: rest), .removed result => s.endRemove hostId p pass id rest result
  | .removing [], .finish => some { s with process := some (p.finish pass) }
  | _, _ => none

def step (s : HostState) (l : HostLabel) : Option HostState :=
  match s.process, l with
  | none, .boot => some { s with process := some (.boot s.saved) }
  | some _, .crash => some { s with process := none }
  | some p, l =>
    match p.phase, l with
    | .polling _, .changed state =>
      some { s with newest := some state, process := some { p with phase := .saving state } }
    | .polling needsRetry, .unchanged healthy =>
      some { s with process := some (p.unchanged needsRetry healthy) }
    | .saving state, .save ok =>
      -- a failure to save is logged, and the state made true all the same
      some { s with
        saved := if ok then some state else s.saved
        process := some { p with phase := .reconciling (.start state false) } }
    | .reconciling pass, l => s.reconcile hostId p pass l
    | _, _ => none
  | none, _ => none

end HostState

def hostMachine (hostId : String) (dirs : List Directory) : Machine HostState HostLabel where
  init := .fresh dirs
  step := HostState.step hostId

/-! ## Inversion -/

structure InPass (s : HostState) (p : Process) (pass : Pass) : Prop where
  process : s.process = some p
  phase : p.phase = .reconciling pass

/-- All that the agent does, with what is known where it does it. -/
inductive HostStep (hostId : String) (s : HostState) : HostLabel → HostState → Prop
  | boot : s.process = none → HostStep hostId s .boot { s with process := some (.boot s.saved) }
  | crash (p : Process) : s.process = some p → HostStep hostId s .crash { s with process := none }
  | changed (p : Process) (retry : Bool) (state : DesiredState) : s.process = some p →
      p.phase = .polling retry → HostStep hostId s (.changed state)
        { s with newest := some state, process := some { p with phase := .saving state } }
  | unchanged (p : Process) (retry healthy : Bool) : s.process = some p → p.phase = .polling retry →
      HostStep hostId s (.unchanged healthy) { s with process := some (p.unchanged retry healthy) }
  | save (p : Process) (state : DesiredState) (ok : Bool) : s.process = some p →
      p.phase = .saving state → HostStep hostId s (.save ok)
        { s with
          saved := if ok then some state else s.saved
          process := some { p with phase := .reconciling (.start state false) } }
  | enter (p : Process) (pass : Pass) (i : Instance) (rest : List Instance) : InPass s p pass →
      pass.work = .next (i :: rest) → HostStep hostId s .enter (s.enter p pass i rest)
  | apply (p : Process) (pass : Pass) (i : Instance) (observed : Int) (rest : List Instance)
      (effect : ApplyEffect) (s' : HostState) : InPass s p pass →
      pass.work = .applying i observed rest → s.applyPart hostId i.id effect = some s' →
      HostStep hostId s (.apply effect) s'
  | applied (p : Process) (pass : Pass) (i : Instance) (observed : Int) (rest : List Instance)
      (result : ApplyResult) (s' : HostState) : InPass s p pass →
      pass.work = .applying i observed rest →
      s.endApply hostId p pass i observed rest result = some s' →
      HostStep hostId s (.applied result) s'
  | listed (p : Process) (pass : Pass) (ids : Option (List String)) (s' : HostState) :
      InPass s p pass → pass.work = .next [] → s.listed p pass ids = some s' →
      HostStep hostId s (.list ids) s'
  | remove (p : Process) (pass : Pass) (id : String) (rest : List String)
      (effect : RemoveEffect) (s' : HostState) : InPass s p pass →
      pass.work = .removing (id :: rest) → s.removePart hostId id effect = some s' →
      HostStep hostId s (.remove effect) s'
  | removed (p : Process) (pass : Pass) (id : String) (rest : List String)
      (result : RemoveResult) (s' : HostState) : InPass s p pass →
      pass.work = .removing (id :: rest) → s.endRemove hostId p pass id rest result = some s' →
      HostStep hostId s (.removed result) s'
  | finish (p : Process) (pass : Pass) : InPass s p pass → pass.work = .removing [] →
      HostStep hostId s .finish { s with process := some (p.finish pass) }

theorem HostState.step_cases (h : s.step hostId l = some s') : HostStep hostId s l s' := by
  unfold step at h
  split at h
  · next hnone =>
    cases h
    exact .boot hnone
  · next p hp =>
    cases h
    exact .crash p hp
  · next l p hp hcrash =>
    clear hcrash
    split at h
    · next hphase =>
      cases h
      exact .changed p _ _ hp hphase
    · next hphase =>
      cases h
      exact .unchanged p _ _ hp hphase
    · next hphase =>
      cases h
      exact .save p _ _ hp hphase
    · next l pass hphase =>
      unfold reconcile at h
      split at h
      · next hwork =>
        cases h
        exact .enter p pass _ _ ⟨hp, hphase⟩ hwork
      · next hwork => exact .apply p pass _ _ _ _ _ ⟨hp, hphase⟩ hwork h
      · next hwork => exact .applied p pass _ _ _ _ _ ⟨hp, hphase⟩ hwork h
      · next hwork => exact .listed p pass _ _ ⟨hp, hphase⟩ hwork h
      · next hwork => exact .remove p pass _ _ _ _ ⟨hp, hphase⟩ hwork h
      · next hwork => exact .removed p pass _ _ _ _ ⟨hp, hphase⟩ hwork h
      · next hwork =>
        cases h
        exact .finish p pass ⟨hp, hphase⟩ hwork
      · cases h
    · cases h
  · cases h

/-! ## The shape of a reconcile -/

def Work.toApply : Work → List Instance
  | .next rest => rest
  | .applying i _ rest => i :: rest
  | .removing _ => []

def Work.toRemove : Work → List String
  | .removing rest => rest
  | _ => []

/-- A reconcile applies what is asked for and removes what is not. -/
structure PassOk (pass : Pass) : Prop where
  wanted : ∀ i ∈ pass.work.toApply, i ∈ pass.state.instances
  unwanted : ∀ id ∈ pass.work.toRemove, pass.state.wants id = false

theorem PassOk.start (state : DesiredState) (booting : Bool) : PassOk (.start state booting) :=
  ⟨fun _ h => h, nofun⟩

def HostState.PassesOk (s : HostState) : Prop := ∀ p pass, InPass s p pass → PassOk pass

theorem HostState.PassesOk.goOn (h : PassOk pass) : (s.goOn p pass).PassesOk := by
  rintro _ _ ⟨hp, hphase⟩
  cases hp
  obtain rfl := Phase.reconciling.inj hphase
  exact h

theorem HostState.applyPart_process {effect : ApplyEffect}
    (h : s.applyPart hostId id effect = some s') :
    s'.process = s.process ∧ s'.newest = s.newest ∧ s'.saved = s.saved ∧ s'.erased = s.erased := by
  cases effect with
  | prepare =>
    cases h
    exact ⟨rfl, rfl, rfl, rfl⟩
  | mark | run =>
    obtain ⟨-, rfl⟩ := Option.ite_some_none_eq_some.mp h
    exact ⟨rfl, rfl, rfl, rfl⟩

theorem HostState.removePart_process
    {effect : RemoveEffect} (h : s.removePart hostId id effect = some s') :
    s'.process = s.process ∧ s'.newest = s.newest ∧ s'.saved = s.saved := by
  cases effect with
  | stop | erase =>
    obtain ⟨-, rfl⟩ := Option.ite_some_none_eq_some.mp h
    exact ⟨rfl, rfl, rfl⟩

theorem HostState.endApply_eq
    {i : Instance} {observed : Int} {rest : List Instance} {result : ApplyResult}
    (h : s.endApply hostId p pass i observed rest result = some s') :
    ∃ dirs report allOk, report.key = i.key
      ∧ (dirs = s.dirs ∨ dirs = writeApplied s.dirs i.id (some ⟨hostId, i.generation⟩))
      ∧ s' = { s with dirs := dirs }.goOn p { pass with
          work := .next rest
          reports := Reports.insert report pass.reports
          allOk := allOk } := by
  cases result with
  | running =>
    obtain ⟨-, rfl⟩ := Option.ite_some_none_eq_some.mp h
    exact ⟨_, ⟨i.key, i.generation, .running, none⟩, _, rfl, .inr rfl, rfl⟩
  | seeding =>
    cases h
    exact ⟨_, ⟨i.key, observed, .seeding, none⟩, _, rfl, .inl rfl, rfl⟩
  | failed message =>
    cases h
    exact ⟨_, ⟨i.key, observed, .failed, some message⟩, _, rfl, .inl rfl, rfl⟩

theorem HostState.listed_eq {ids : Option (List String)} (h : s.listed p pass ids = some s') :
    ∃ rest allOk, s' = s.goOn p { pass with work := .removing rest, allOk := allOk }
      ∧ (∀ id ∈ rest, pass.state.wants id = false)
      ∧ (ids.isSome → ∀ id, hasDirectory s.dirs id →
          pass.state.wants id ∨ id ∈ rest) := by
  cases ids with
  | none =>
    cases h
    exact ⟨[], _, rfl, fun _ h => absurd h not_mem_nil, nofun⟩
  | some ids =>
    obtain ⟨hperm, rfl⟩ := Option.ite_some_none_eq_some.mp h
    refine ⟨_, _, rfl, fun id hid => by simpa using (mem_filter.mp hid).2, ?_⟩
    intro _ id hdir
    obtain ⟨d, hd, hid⟩ := any_eq_true.mp hdir
    have hmem : id ∈ ids := by
      refine (isPerm_iff.mp hperm).mem_iff.mpr (mem_map.mpr ⟨d, hd, ?_⟩)
      exact of_decide_eq_true hid
    cases hwants : pass.state.wants id with
    | true => exact .inl rfl
    | false => exact .inr (mem_filter.mpr ⟨hmem, by simp [hwants]⟩)

theorem HostState.endRemove_eq {rest : List String} {result : RemoveResult}
    (h : s.endRemove hostId p pass id rest result = some s') :
    ∃ s₁ allOk, s' = s₁.goOn p { pass with work := .removing rest, allOk := allOk }
      ∧ (result = .removed ∧ owns hostId s.dirs id
          ∧ s₁ = s.erase id (removeDirectory s.dirs id)
        ∨ (result = .left ∧ owns hostId s.dirs id = false ∨ result = .failed) ∧ s₁ = s) := by
  cases result with
  | removed =>
    obtain ⟨hown, h⟩ := Option.ite_none_right_eq_some.mp h
    exact ⟨_, _, (Option.some.inj h).symm, .inl ⟨rfl, hown, rfl⟩⟩
  | left =>
    obtain ⟨hnot, h⟩ := Option.ite_none_left_eq_some.mp h
    exact ⟨s, _, (Option.some.inj h).symm, .inr ⟨.inl ⟨rfl, Bool.eq_false_iff.mpr hnot⟩, rfl⟩⟩
  | failed => exact ⟨s, _, (Option.some.inj h).symm, .inr ⟨.inr rfl, rfl⟩⟩

theorem Process.boot_starts {saved : Option DesiredState}
    (h : (Process.boot saved).phase = .reconciling pass) :
    ∃ state booting, pass = .start state booting := by
  cases saved with
  | none => cases h
  | some state => exact ⟨state, true, (Phase.reconciling.inj h).symm⟩

theorem Process.unchanged_starts {retry healthy : Bool} (hphase : p.phase = .polling retry)
    (h : (p.unchanged retry healthy).phase = .reconciling pass) :
    ∃ state booting, pass = .start state booting := by
  unfold unchanged at h
  split at h
  · split at h
    · exact ⟨_, _, (Phase.reconciling.inj h).symm⟩
    · rw [hphase] at h
      cases h
  · rw [hphase] at h
    cases h

theorem HostStep.passesOk (hok : s.PassesOk) (h : HostStep hostId s l s') : s'.PassesOk := by
  have hsame : s'.process = s.process → s'.PassesOk := fun hp p pass hin =>
    hok p pass ⟨hp ▸ hin.process, hin.phase⟩
  -- a step outside a reconcile, or at its end
  have hstarts : ∀ {q : Process}, s'.process = some q →
      (∀ pass, q.phase = .reconciling pass → ∃ state booting, pass = .start state booting) →
      s'.PassesOk := by
    rintro q hq hphase p pass ⟨hp, hp'⟩
    cases hq.symm.trans hp
    obtain ⟨state, booting, rfl⟩ := hphase pass hp'
    exact .start state booting
  cases h with
  | boot => exact hstarts rfl fun _ => Process.boot_starts
  | crash => exact fun p pass hin => nomatch hin.process
  | changed | finish => exact hstarts rfl fun _ h => by cases h
  | unchanged _ _ _ _ hphase => exact hstarts rfl fun _ => Process.unchanged_starts hphase
  | save => exact hstarts rfl fun _ h => ⟨_, _, (Phase.reconciling.inj h).symm⟩
  | enter p pass _ _ hin hwork =>
    refine .goOn ⟨?_, nofun⟩
    have h := (hok p pass hin).wanted
    rw [hwork] at h
    exact h
  | apply _ _ _ _ _ _ _ _ _ h => exact hsame (HostState.applyPart_process h).1
  | applied p pass _ _ _ _ _ hin hwork h =>
    obtain ⟨_, _, _, -, -, rfl⟩ := HostState.endApply_eq h
    refine .goOn ⟨fun j hj => ?_, nofun⟩
    exact (hok p pass hin).wanted j (by rw [hwork]; exact mem_cons_of_mem _ hj)
  | listed _ _ _ _ _ _ h =>
    obtain ⟨_, _, rfl, hrest, -⟩ := HostState.listed_eq h
    exact .goOn ⟨nofun, hrest⟩
  | remove _ _ _ _ _ _ _ _ h => exact hsame (HostState.removePart_process h).1
  | removed p pass _ _ _ _ hin hwork h =>
    obtain ⟨_, _, rfl, -⟩ := HostState.endRemove_eq h
    refine .goOn ⟨nofun, fun j hj => ?_⟩
    exact (hok p pass hin).unwanted j (by rw [hwork]; exact mem_cons_of_mem _ hj)

end PgCluster.Host
