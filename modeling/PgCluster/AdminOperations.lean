import PgCluster.Transactions

/-!
# Operations and their steps

`pgcluster-admin/src/operations.rs` and the bookkeeping half of
`reconciler.rs`: the rows that record a long-running change, and the
updates a reconciler or an API handler makes to them inside a transaction.

An operation row carries its steps in list order, a step's `seq` being its
position. Operations are told apart by their `seq`, which the source also
gives a UUID. It is drawn from a sequence at the insert; the row lock on
the database is held from before the insert to the commit, so within one
database the order of the numbers is the order of the commits.

Time stays outside: `not_before` only delays a claim and `deadline` reaches
a step as one Boolean, so both are the environment's choice.

`history` is a ghost: what each commit did to the operations, in order.
-/

namespace PgCluster.Admin

open List

/-! ## Kinds and steps -/

inductive Kind where
  | create | update | rollingUpdate | replicationMode | delete | restart | switchover
  | backup | replace | rotateCa | rotatePasswords | resize | upgrade | createReplica
  | promoteReplica
deriving DecidableEq

inductive StepName where
  | place | waitApplied | waitPeers | activate | settle | retract | waitRemoved | finalize
  | firstBackup | backup | openAccess | newGeneration | rollingRestart | resizeRestart
  | upgradeCheck | placeReplica | addReplica | detachReplica | removeReplica | promote
  | waitVersion | switchover | setReplicationMode | replaceMember | retractOld
  | waitOldRemoved | dropOld | caTrustBoth | caIssue | caTrustNew | passwordsOffer
  | passwordsAlter | passwordsCommit
deriving DecidableEq

/-- The name as the rows hold it. -/
def StepName.asStr : StepName → String
  | .place => "place" | .waitApplied => "wait_applied" | .waitPeers => "wait_peers"
  | .activate => "activate" | .settle => "settle" | .retract => "retract"
  | .waitRemoved => "wait_removed" | .finalize => "finalize" | .firstBackup => "first_backup"
  | .backup => "backup" | .openAccess => "open_access" | .newGeneration => "new_generation"
  | .rollingRestart => "rolling_restart" | .resizeRestart => "resize_restart"
  | .upgradeCheck => "upgrade_check" | .placeReplica => "place_replica"
  | .addReplica => "add_replica" | .detachReplica => "detach_replica"
  | .removeReplica => "remove_replica" | .promote => "promote"
  | .waitVersion => "wait_version" | .switchover => "switchover"
  | .setReplicationMode => "set_replication_mode" | .replaceMember => "replace_member"
  | .retractOld => "retract_old" | .waitOldRemoved => "wait_old_removed"
  | .dropOld => "drop_old" | .caTrustBoth => "ca_trust_both" | .caIssue => "ca_issue"
  | .caTrustNew => "ca_trust_new" | .passwordsOffer => "passwords_offer"
  | .passwordsAlter => "passwords_alter" | .passwordsCommit => "passwords_commit"

def Kind.steps : Kind → List StepName
  -- Clients stay out until a restorable backup exists.
  | .create => [.place, .waitApplied, .firstBackup, .openAccess, .waitApplied, .activate]
  | .update => [.waitApplied, .settle]
  -- The second generation installs what needed the restart.
  | .rollingUpdate => [.waitApplied, .rollingRestart, .newGeneration, .waitApplied, .settle]
  | .replicationMode => [.waitApplied, .setReplicationMode, .settle]
  -- A replica leaves its source's cluster first.
  | .delete => [.removeReplica, .retract, .waitRemoved, .finalize]
  | .restart => [.rollingRestart, .settle]
  | .switchover => [.switchover, .settle]
  | .backup => [.backup, .settle]
  | .replace => [.waitPeers, .replaceMember, .retractOld, .waitOldRemoved, .dropOld,
      .waitApplied, .settle]
  -- Trust both, move to the new one, then drop the old.
  | .rotateCa => [.caTrustBoth, .waitApplied, .caIssue, .waitApplied, .caTrustNew,
      .waitApplied, .settle]
  -- Every consumer learns the new passwords before a role changes.
  | .rotatePasswords => [.passwordsOffer, .waitApplied, .passwordsAlter, .passwordsCommit,
      .waitApplied, .settle]
  | .resize => [.waitApplied, .resizeRestart, .settle]
  -- The source's leader adds the standby, and its monitor seeds it.
  | .createReplica => [.placeReplica, .addReplica, .waitApplied, .activate]
  | .promoteReplica => [.detachReplica, .promote, .waitApplied, .firstBackup, .openAccess,
      .waitApplied, .activate]
  | .upgrade => [.upgradeCheck, .rollingRestart, .waitVersion, .settle]

/-- The operations a database is not serving in until they are done. -/
def Kind.provisional : Kind → Bool
  | .create | .createReplica | .promoteReplica => true
  | _ => false

/-- The operations that change what nodes share. -/
def Kind.rotation : Kind → Bool
  | .rotateCa | .rotatePasswords => true
  | _ => false

theorem Kind.steps_ne_nil (k : Kind) : k.steps ≠ [] := by
  cases k <;> exact cons_ne_nil _ _

/-- Where a step of some name can be, by looking at every place. -/
@[elab_as_elim] theorem Kind.of_step {k : Kind} {name : StepName} {motive : Nat → Prop} {i : Nat}
    (h : k.steps[i]? = some name)
    (hall : ∀ i < k.steps.length, k.steps[i]? = some name → motive i) : motive i :=
  hall i (List.getElem?_eq_some_iff.mp h).1 h

/-- Where the steps are that stand in one place, or at the end. -/
theorem Kind.place {k : Kind} {i : Nat} (name : StepName) : k.steps[i]? = some name →
    match name with
    | .place => k = .create ∧ i = 0
    | .activate => k.provisional ∧ i + 1 = k.steps.length
    | .retract => k = .delete ∧ i = 1
    | .finalize => k = .delete ∧ i + 1 = k.steps.length
    | .placeReplica => k = .createReplica ∧ i = 0
    | .retractOld => k = .replace ∧ i = 2
    | .dropOld => k = .replace ∧ i = 4
    | .caTrustBoth => k = .rotateCa ∧ i = 0
    | .caIssue => k = .rotateCa ∧ i = 2
    | .caTrustNew => k = .rotateCa ∧ i = 4
    | .passwordsOffer => k = .rotatePasswords ∧ i = 0
    | .passwordsAlter => k = .rotatePasswords ∧ i = 2
    | .passwordsCommit => k = .rotatePasswords ∧ i = 3
    | _ => True := by
  intro h
  cases name
  all_goals first
    | trivial
    | refine of_step h ?_
      cases k <;> decide

/-! ## Rows -/

inductive OpStatus where
  | pending | running | succeeded | failed
deriving DecidableEq

inductive StepStatus where
  | pending | done | failed
deriving DecidableEq

structure StepRow where
  name : StepName
  status : StepStatus
  attempts : Nat
deriving DecidableEq

/-- What an operation's steps need to know: the nodes of a `replace`. A
node's name is `n` and a number. -/
structure Params where
  oldNode : Option Nat
  newNode : Option Nat
deriving DecidableEq

def Params.none : Params := ⟨.none, .none⟩

structure OpRow where
  seq : Nat
  database : String
  kind : Kind
  params : Params
  status : OpStatus
  error : Option String
  steps : List StepRow
deriving DecidableEq

namespace OpRow

def active (r : OpRow) : Bool := r.status = .pending || r.status = .running

/-- `create_with`: an operation with every step pending. -/
def new (seq : Nat) (database : String) (kind : Kind) (params : Params) : OpRow where
  seq := seq
  database := database
  kind := kind
  params := params
  status := .pending
  error := none
  steps := kind.steps.map fun name => ⟨name, .pending, 0⟩

/-- `SELECT min(p.seq) … WHERE p.status = 'pending'`. -/
def firstPending (r : OpRow) : Option Nat := r.steps.findIdx? (·.status = .pending)

def modifyStep (r : OpRow) (i : Nat) (status : StepStatus → StepStatus) : OpRow :=
  { r with
    steps := r.steps.modify i fun p =>
      { p with status := status p.status, attempts := p.attempts + 1 } }

/-- `finish_step`: the operation succeeds with its last pending step. -/
def finishStep (r : OpRow) (i : Nat) : OpRow :=
  let r := r.modifyStep i fun _ => .done
  if r.steps.any (·.status = .pending) then r else { r with status := .succeeded }

/-- `fail`, as far as the operation's own rows go. -/
def fail (r : OpRow) (i : Nat) (message : String) : OpRow :=
  { r.modifyStep i (fun _ => .failed) with status := .failed, error := some message }

/-- A step that waits is tried again later. -/
def retryStep (r : OpRow) (i : Nat) : OpRow := r.modifyStep i fun status => status

/-- `UPDATE operations SET status = 'failed', error = 'superseded by delete'`. -/
def supersede (r : OpRow) : OpRow :=
  { r with status := .failed, error := some "superseded by delete" }

end OpRow

/-! ## Outcomes -/

inductive Outcome where
  | done
  /-- Try again soon. The message is logged the first time. -/
  | wait (message : String)
  | fail (message : String)
deriving DecidableEq

/-- How a commit left the step it ran. -/
inductive Mark where
  | done | waiting | failed
deriving DecidableEq

structure Claimed where
  op : Nat
  idx : Nat
  name : StepName
  database : String
  kind : Kind
  params : Params
  pastDeadline : Bool
deriving DecidableEq

def Claimed.mark (c : Claimed) : Outcome → Mark
  | .done => .done
  | .wait _ => if c.pastDeadline then .failed else .waiting
  | .fail _ => .failed

/-- The operation row after `step_once` has dealt with an outcome. -/
def Claimed.settle (c : Claimed) (o : Outcome) (r : OpRow) : OpRow :=
  let r := { r with status := .running }
  match o with
  | .done => r.finishStep c.idx
  | .wait _ =>
    if c.pastDeadline then r.fail c.idx ("timed out in step " ++ c.name.asStr)
    else r.retryStep c.idx
  | .fail message => r.fail c.idx message

/-! ## Tables -/

inductive Event where
  | marked (op idx : Nat) (mark : Mark) (before : List OpRow)
  | superseded (op : Nat)
deriving DecidableEq

/-- The operations, the next number of their sequence, and the rest of the
database as `world`. -/
structure Tables (ω : Type) where
  operations : List OpRow
  nextSeq : Nat
  world : ω
  history : List Event

namespace Tables

variable {ω : Type}

def find (s : Tables ω) (op : Nat) : Option OpRow := s.operations.find? (·.seq = op)

def busy (s : Tables ω) (database : String) : Bool :=
  s.operations.any fun r => r.database = database && r.active

/-- The commit of a step: its own writes, its mark, and for a failure what
`fail` does to the rest. -/
def settle (onFail : Claimed → ω → ω) (c : Claimed) (o : Outcome) (w : ω → ω)
    (s : Tables ω) : Tables ω where
  operations := s.operations.map fun r => if r.seq = c.op then c.settle o r else r
  nextSeq := s.nextSeq
  world := if c.mark o = .failed then onFail c (w s.world) else w s.world
  history := s.history ++ [.marked c.op c.idx (c.mark o) s.operations]

/-- `operations::create_with`. -/
def create (database : String) (kind : Kind) (params : Params) (s : Tables ω) : Tables ω :=
  { s with
    operations := s.operations ++ [.new s.nextSeq database kind params]
    nextSeq := s.nextSeq + 1 }

/-- A delete ends what else the database is doing. -/
def supersede (database : String) (s : Tables ω) : Tables ω :=
  { s with
    operations := s.operations.map fun r =>
      if r.database = database && r.active then r.supersede else r
    history := s.history ++ ((s.operations.filter fun r =>
      r.database = database && r.active).map fun r => .superseded r.seq) }

end Tables

/-! ## How far an operation has come -/

namespace OpRow

theorem modifyStep_getElem? (r : OpRow) (i j : Nat) (f : StepStatus → StepStatus) :
    (r.modifyStep i f).steps[j]? = (r.steps[j]?).map fun p =>
          if i = j then { p with status := f p.status, attempts := p.attempts + 1 } else p :=
  getElem?_modify ..

@[simp] theorem modifyStep_length (r : OpRow) (i : Nat) (f : StepStatus → StepStatus) :
    (r.modifyStep i f).steps.length = r.steps.length :=
  length_modify ..

@[simp] theorem modifyStep_names (r : OpRow) (i : Nat) (f : StepStatus → StepStatus) :
    (r.modifyStep i f).steps.map (·.name) = r.steps.map (·.name) := by
  refine ext_getElem? fun j => ?_
  rw [getElem?_map, modifyStep_getElem?, Option.map_map, getElem?_map]
  refine congrFun (congrArg Option.map (funext fun p => ?_)) _
  show StepRow.name (if i = j then _ else _) = p.name
  split <;> rfl

/-- The first `n` steps are done and no other is. While the operation is
active the rest is pending, and there is a rest. -/
structure Progress (r : OpRow) (n : Nat) : Prop where
  done : ∀ i p, r.steps[i]? = some p → (p.status = .done ↔ i < n)
  active : r.active = true →
    n < r.steps.length ∧ ∀ i p, r.steps[i]? = some p → n ≤ i → p.status = .pending
  succeeded : r.status = .succeeded → n = r.steps.length

theorem Progress.new (seq : Nat) (database : String) (kind : Kind) (params : Params) :
    (OpRow.new seq database kind params).Progress 0 := by
  have hpending : ∀ (i : Nat) (p : StepRow),
      (OpRow.new seq database kind params).steps[i]? = some p → p.status = .pending := by
    intro i p hp
    obtain ⟨_, -, rfl⟩ := mem_map.mp (mem_of_getElem? hp)
    rfl
  refine ⟨?_, ?_, nofun⟩
  · intro i p hp
    simp [hpending i p hp]
  · intro _
    refine ⟨?_, fun i p hp _ => hpending i p hp⟩
    show 0 < (kind.steps.map _).length
    rw [length_map]
    exact length_pos_iff.mpr kind.steps_ne_nil

variable {r r' : OpRow} {n i : Nat}

/-- The step to claim is the one right after the done ones. -/
theorem Progress.eq_of_first {p : StepRow} (h : r.Progress n)
    (hactive : r.active) (hp : r.steps[i]? = some p) (hpending : p.status = .pending)
    (hfirst : ∀ j q, j < i → r.steps[j]? = some q → q.status ≠ .pending) : i = n := by
  have hge : n ≤ i := by
    refine Nat.le_of_not_lt fun hlt => ?_
    have hdone := (h.done i p hp).mpr hlt
    rw [hpending] at hdone
    cases hdone
  obtain ⟨hlen, hrest⟩ := h.active hactive
  refine Nat.le_antisymm (Nat.le_of_not_lt fun hlt => ?_) hge
  have hn : r.steps[n]? = some (r.steps[n]) := getElem?_eq_getElem hlen
  exact hfirst n _ hlt hn (hrest n _ hn (Nat.le_refl n))

theorem Progress.congr (h : r.Progress n) (hsteps : r'.steps = r.steps)
    (hactive : r'.active → r.active)
    (hsucc : r'.status = .succeeded → r.status = .succeeded) : r'.Progress n := by
  refine ⟨?_, ?_, ?_⟩
  · rw [hsteps]
    exact h.done
  · rw [hsteps]
    exact fun ha => h.active (hactive ha)
  · rw [hsteps]
    exact fun hs => h.succeeded (hsucc hs)

theorem Progress.finishStep (h : r.Progress n)
    (hactive : r.active) : (r.finishStep n).Progress (n + 1) := by
  obtain ⟨_, hrest⟩ := h.active hactive
  have hdone : ∀ i p, (r.modifyStep n fun _ => .done).steps[i]? = some p →
      (p.status = .done ↔ i < n + 1) := by
    intro i p hp
    rw [modifyStep_getElem?, Option.map_eq_some_iff] at hp
    obtain ⟨q, hq, rfl⟩ := hp
    split
    · next hni => simp [hni]
    · next hni =>
      rw [h.done i q hq]
      omega
  have hpending : ∀ i p, (r.modifyStep n fun _ => .done).steps[i]? = some p → n + 1 ≤ i →
      p.status = .pending := by
    intro i p hp hi
    rw [modifyStep_getElem?, Option.map_eq_some_iff] at hp
    obtain ⟨q, hq, rfl⟩ := hp
    rw [if_neg (by omega)]
    exact hrest i q hq (by omega)
  unfold OpRow.finishStep
  by_cases hany : (r.modifyStep n fun _ => .done).steps.any (·.status = .pending)
  · -- something is left to do
    rw [if_pos hany]
    obtain ⟨p, hmem, hp⟩ := any_eq_true.mp hany
    obtain ⟨i, hi⟩ := mem_iff_getElem?.mp hmem
    refine ⟨hdone, fun _ => ⟨?_, hpending⟩, ?_⟩
    · have hlt := (List.getElem?_eq_some_iff.mp hi).1
      refine Nat.lt_of_not_le fun hle => ?_
      have hd := (hdone i p hi).mpr (by omega)
      simp [hd] at hp
    · intro hs
      have hs : r.status = .succeeded := hs
      rw [OpRow.active, hs] at hactive
      cases hactive
  · rw [if_neg hany]
    refine ⟨hdone, nofun, fun _ => ?_⟩
    show n + 1 = (r.modifyStep n fun _ => .done).steps.length
    refine Nat.le_antisymm (by rw [modifyStep_length]; omega) (Nat.le_of_not_lt fun hlt => ?_)
    have hn := getElem?_eq_getElem hlt
    exact hany (any_eq_true.mpr ⟨_, mem_of_getElem? hn, decide_eq_true (hpending _ _ hn le_rfl)⟩)

theorem Progress.fail (h : r.Progress n) (message : String) : (r.fail n message).Progress n := by
  refine ⟨?_, nofun, nofun⟩
  intro i p hp
  have hp : (r.modifyStep n fun _ => .failed).steps[i]? = some p := hp
  rw [modifyStep_getElem?, Option.map_eq_some_iff] at hp
  obtain ⟨q, hq, rfl⟩ := hp
  split
  · next hni => simp [hni]
  · exact h.done i q hq

theorem Progress.retryStep (h : r.Progress n) : (r.retryStep n).Progress n := by
  have hstatus : ∀ (i : Nat) (p : StepRow), (r.retryStep n).steps[i]? = some p →
      ∃ q, r.steps[i]? = some q ∧ p.status = q.status := by
    intro i p hp
    rw [OpRow.retryStep, modifyStep_getElem?, Option.map_eq_some_iff] at hp
    obtain ⟨q, hq, rfl⟩ := hp
    exact ⟨q, hq, by split <;> rfl⟩
  refine ⟨?_, ?_, ?_⟩
  · intro i p hp
    obtain ⟨q, hq, hpq⟩ := hstatus i p hp
    rw [hpq]
    exact h.done i q hq
  · intro ha
    obtain ⟨hlen, hrest⟩ := h.active ha
    refine ⟨by rw [OpRow.retryStep, modifyStep_length]; exact hlen, ?_⟩
    intro i p hp hi
    obtain ⟨q, hq, hpq⟩ := hstatus i p hp
    rw [hpq]
    exact hrest i q hq hi
  · intro hs
    rw [OpRow.retryStep, modifyStep_length]
    exact h.succeeded hs

/-- One step of `step_once` on the row: a done step moves it on by one. -/
theorem Progress.settle {c : Claimed} (h : r.Progress n)
    (hactive : r.active) (hidx : c.idx = n) (o : Outcome) :
    (c.settle o r).Progress (if c.mark o = .done then n + 1 else n) := by
  subst hidx
  have hrun : { r with status := .running }.Progress c.idx := h.congr rfl (fun _ => hactive) nofun
  cases o with
  | done => exact hrun.finishStep rfl
  | wait =>
    unfold Claimed.settle Claimed.mark
    cases c.pastDeadline with
    | true => exact hrun.fail _
    | false => exact hrun.retryStep
  | fail message => exact hrun.fail message

theorem Progress.supersede (h : r.Progress n) : r.supersede.Progress n :=
  h.congr rfl nofun nofun

end OpRow

end PgCluster.Admin
