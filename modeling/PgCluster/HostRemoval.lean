import Mathlib.Data.List.Pairwise
import PgCluster.HostReports

/-!
# Removals, from both sides

pgcluster-admin and its hosts: the node rows with what `report` writes to
them (`agent.rs`), the desired states that answer polls, the steps of
`reconciler.rs` that retract a node, wait for its host and free the row, and
any number of hosts as in `HostAgent`. Reports queue up in the order sent and
may be lost; so may answers, and a process that dies takes the answer it
waited for with it.

An operation's steps come one after the other, so `wait_removed` follows the
`retract` of its database and `finalize` follows both: a row's `stage` says
how far that has come. Node IDs are not used twice: a database's is random
and its nodes are numbered upwards.
-/

namespace PgCluster.Host

open Reports List

/-! ## The system -/

inductive Stage where
  | live | retracted
  /-- The wait for its removal has ended, with its host online. -/
  | confirmed
  /-- `wait_old_removed` has ended with the host offline. -/
  | givenUp
deriving DecidableEq

structure NodeRow where
  key : NodeId
  host : String
  /-- Its database's generation. -/
  generation : Int
  stage : Stage
  present : Bool
deriving DecidableEq

/-- A host, the answer to its poll that is on its way, and its reports that
are on theirs. -/
structure Link where
  host : HostState
  answer : Option DesiredState
  reports : List Reports

structure System where
  rows : List NodeRow
  /-- `hosts.generation`. -/
  generation : String → Int
  links : String → Link
  used : List NodeId

inductive Label where
  | place (key : NodeId) (host : String)
  | newGeneration (databaseId : String)
  | retract (databaseId : String)
  | retractOld (key : NodeId)
  | waitRemoved (databaseId : String)
  | waitOldRemoved (key : NodeId) (online : Bool)
  | finalize (databaseId : String)
  | dropOld (key : NodeId)
  | desiredState (host : String)
  | answered (host : String)
  | answerLost (host : String)
  | host (host : String) (l : HostLabel)
  | report (host : String)
  | reported (host : String)
  | reportLost (host : String)

namespace System

def init : System := ⟨[], fun _ => 0, fun _ => ⟨.fresh [], none, []⟩, []⟩

def setLink (st : System) (h : String) (k : Link) : System :=
  { st with links := Function.update st.links h k }

/-- `bump_host`, for the hosts of some rows. -/
def bump (st : System) (p : NodeRow → Bool) : String → Int := fun h =>
  if st.rows.any fun r => p r && r.host = h then st.generation h + 1 else st.generation h

def modify (st : System) (p : NodeRow → Bool) (f : NodeRow → NodeRow) : List NodeRow :=
  st.rows.map fun r => if p r then f r else r

def ofDatabase (id : String) (r : NodeRow) : Bool := r.key.databaseId = id

/-- `build_desired_state`: retracted nodes are not in it. -/
def buildDesiredState (st : System) (h : String) : DesiredState where
  generation := st.generation h
  instances := (st.rows.filter fun r => r.host = h && r.stage = .live).map fun r =>
    ⟨r.key, r.generation⟩

/-- What a row is after `retract` or `retract_old`. -/
def retractRow (r : NodeRow) : NodeRow :=
  if r.stage = .live then { r with stage := .retracted } else r

/-- `UPDATE nodes SET present = …`, for every node of the host. -/
def takeReport (st : System) (h : String) (report : Reports) : List NodeRow :=
  st.modify (·.host = h) fun r => { r with present := report.any (·.key = r.key) }

def polled (p : Process) : Int := (p.desired.map (·.generation)).getD 0

def step (st : System) : Label → Option System
  | .place key host =>
    if key ∈ st.used then none
    else some { st with
      rows := st.rows ++ [⟨key, host, 1, .live, false⟩]
      generation := Function.update st.generation host (st.generation host + 1)
      used := key :: st.used }
  | .newGeneration id =>
    some { st with
      rows := st.modify (ofDatabase id) fun r => { r with generation := r.generation + 1 }
      generation := st.bump (ofDatabase id) }
  | .retract id =>
    some { st with
      rows := st.modify (ofDatabase id) retractRow
      generation := st.bump (ofDatabase id) }
  | .retractOld key =>
    some { st with
      rows := st.modify (·.key = key) retractRow
      generation := st.bump (·.key = key) }
  | .waitRemoved id =>
    if st.rows.all fun r => !ofDatabase id r || (r.stage ≠ .live && !r.present) then
      some { st with rows := st.modify (ofDatabase id) fun r => { r with stage := .confirmed } }
    else none
  | .waitOldRemoved key online =>
    if st.rows.all fun r => r.key ≠ key || (r.stage ≠ .live && !(r.present && online)) then
      some { st with rows := st.modify (·.key = key) fun r =>
        { r with stage := if online then .confirmed else .givenUp } }
    else none
  | .finalize id =>
    if st.rows.all fun r => !ofDatabase id r || r.stage = .confirmed then
      some { st with rows := st.rows.filter fun r => !ofDatabase id r }
    else none
  | .dropOld key =>
    if st.rows.all fun r => r.key ≠ key || r.stage = .confirmed || r.stage = .givenUp then
      some { st with rows := st.rows.filter (·.key ≠ key) }
    else none
  | .desiredState h =>
    match (st.links h).host.process, (st.links h).answer with
    | some p, none =>
      match p.phase with
      | .polling _ =>
        if st.generation h ≠ polled p then
          some (st.setLink h { st.links h with answer := some (st.buildDesiredState h) })
        else none
      | _ => none
    | _, _ => none
  | .answered h =>
    match (st.links h).answer with
    | some state =>
      ((st.links h).host.step h (.changed state)).map fun host =>
        st.setLink h { st.links h with host := host, answer := none }
    | none => none
  | .answerLost h => some (st.setLink h { st.links h with answer := none })
  | .host h l =>
    -- a state comes with an answer only, and a process waits for its answer
    match l, (st.links h).answer with
    | .changed _, _ => none
    | .crash, _ | _, none =>
      ((st.links h).host.step h l).map fun host =>
        st.setLink h { st.links h with host := host, answer := none }
    | _, some _ => none
  | .report h =>
    (st.links h).host.process.map fun p =>
      st.setLink h { st.links h with reports := (st.links h).reports ++ [p.status.instances] }
  | .reported h =>
    match (st.links h).reports with
    | report :: rest =>
      some { st.setLink h { st.links h with reports := rest } with
        rows := st.takeReport h report }
    | [] => none
  | .reportLost h =>
    match (st.links h).reports with
    | _ :: rest => some (st.setLink h { st.links h with reports := rest })
    | [] => none

end System

def removalMachine : Machine System Label := ⟨.init, System.step⟩

/-- The host has removed the instance: nothing of it runs, and its directory
is deleted. -/
def Removed (s : HostState) (id : String) : Prop :=
  hasDirectory s.dirs id = false ∧ id ∉ s.running

/-- From the end of the wait until the row is freed, the host has removed the
instance. -/
def RemovalsConfirmed (st : System) : Prop :=
  ∀ r ∈ st.rows, r.stage = .confirmed → Removed (st.links r.host).host r.key.id

/-- A node that its host has set up, in a directory it has marked as its own,
and has reported. -/
def setUp (st : System) (r : NodeRow) : Bool :=
  r.present && owns r.host (st.links r.host).host.dirs r.key.id

/-- A step with which no removal goes wrong, where reports wait for the first
reconcile of the process to end, and only nodes that are set up are
retracted. -/
def confirmable (st : System) : Label → Bool
  | .host h l => removesCleanly (st.links h).host l
  | .report h => (st.links h).host.process.any (·.reconciled)
  | .retract id => st.rows.all fun r =>
    !System.ofDatabase id r || r.stage ≠ .live || setUp st r
  | .retractOld key => st.rows.all fun r => r.key ≠ key || r.stage ≠ .live || setUp st r
  | _ => true

/-! ## The invariant -/

theorem Reports.has_iff {rs : Reports} {k : NodeId} : rs.any (·.key = k) ↔ names rs k.id := by
  simp only [names, any_eq_true, decide_eq_true_eq]
  constructor
  · rintro ⟨r, hr, rfl⟩
    exact ⟨r, hr, rfl⟩
  · rintro ⟨r, hr, hid⟩
    exact ⟨r, hr, NodeId.id_injective hid⟩

/-- The instance is gone from its host and will not come back: no state that
the host has or is about to get asks for it. -/
structure Clean (k : Link) (id : String) : Prop where
  removed : Removed k.host id
  newest : wantedBy k.host.newest id = false
  answer : wantedBy k.answer id = false

/-- The host has been asked for the instance, and every report of it names it
from now on. -/
structure Entered (k : Link) (id : String) : Prop where
  newest : wantedBy k.host.newest id = true
  status : ∀ p, k.host.process = some p → p.reconciled = true →
    Reports.names p.status.instances id = true

/-- A node that is not retracted. Once a report has named it, all later ones
do. -/
structure LiveRow (k : Link) (r : NodeRow) : Prop where
  answer : wantedBy k.host.newest r.key.id = true →
    ∀ state, k.answer = some state → state.wants r.key.id = true
  status : ∀ p, k.host.process = some p → Reports.names p.status.instances r.key.id = true →
    wantedBy k.host.newest r.key.id = true
  ordered : k.reports.Pairwise fun a b =>
    Reports.names a r.key.id = true → Reports.names b r.key.id = true
  queued : ∀ q ∈ k.reports, Reports.names q r.key.id = true → Entered k r.key.id
  present : r.present = true → Entered k r.key.id ∧ ∀ q ∈ k.reports, Reports.names q r.key.id = true

/-- A node that is retracted. What leaves it out, leaves out what is gone. -/
structure GoneRow (k : Link) (r : NodeRow) : Prop where
  marked : hasDirectory k.host.dirs r.key.id = true → owns r.host k.host.dirs r.key.id = true
  wanted : wantedBy k.host.newest r.key.id = true ∨ wantedBy k.answer r.key.id = true →
    owns r.host k.host.dirs r.key.id = true
  absent : r.present = false → Clean k r.key.id
  queued : ∀ q ∈ k.reports, Reports.names q r.key.id = false → Clean k r.key.id
  status : ∀ p, k.host.process = some p → p.reconciled = true →
    Reports.names p.status.instances r.key.id = false → Clean k r.key.id
  confirmed : r.stage = .confirmed → Clean k r.key.id

structure RowOk (k : Link) (r : NodeRow) : Prop where
  live : r.stage = .live → LiveRow k r
  gone : r.stage ≠ .live → GoneRow k r

def Known (k : Link) (id : String) : Prop :=
  wantedBy k.host.newest id = true ∨ wantedBy k.answer id = true
    ∨ (∃ p, k.host.process = some p ∧ Reports.names p.status.instances id = true)
    ∨ ∃ q ∈ k.reports, Reports.names q id = true

structure SystemOk (st : System) : Prop where
  hosts : ∀ h, HostOk h (st.links h).host
  keys : st.rows.Pairwise (·.key ≠ ·.key)
  used : ∀ r ∈ st.rows, r.key ∈ st.used
  known : ∀ h id, Known (st.links h) id → ∃ key ∈ st.used, key.id = id
  rows : ∀ r ∈ st.rows, RowOk (st.links r.host) r

/-! ## One host -/

variable {h id : String} {q : Reports} {rest : List Reports} {k : Link} {r : NodeRow}

section Links

variable {s' : HostState}

theorem Clean.host (hc : Clean k id) (he : HostEffect h k.host s') :
    Clean { k with host := s', answer := none } id := by
  refine ⟨⟨?_, fun hrun => ?_⟩, ?_, rfl⟩
  · refine Bool.eq_false_iff.mpr fun hdir => ?_
    rcases he.directory id hdir with hdir | hwants
    · rw [hc.removed.1] at hdir
      cases hdir
    · rw [hc.newest] at hwants
      cases hwants
  · rcases he.running id hrun with hrun | hwants
    · exact hc.removed.2 hrun
    · rw [hc.newest] at hwants
      cases hwants
  · show wantedBy s'.newest id = false
    rw [he.newest]
    exact hc.newest

theorem Entered.host (hent : Entered k id) (he : HostEffect h k.host s') :
    Entered { k with host := s', answer := none } id := by
  have hnewest : wantedBy s'.newest id := by
    rw [he.newest]
    exact hent.newest
  refine ⟨hnewest, fun p' hp' hrec => ?_⟩
  rcases he.status p' hp' hrec with hended | ⟨p, hp, hrec, hkept⟩
  · exact hended.names id hnewest
  · exact hkept id (hent.status p hp hrec)

theorem LiveRow.host (hr : LiveRow k r) (he : HostEffect h k.host s') :
    LiveRow { k with host := s', answer := none } r := by
  refine ⟨fun _ state hstate => (nomatch hstate), fun p' hp' hnames => ?_, hr.ordered,
    fun q hq hnames => (hr.queued q hq hnames).host he,
    fun hpresent => ⟨(hr.present hpresent).1.host he, (hr.present hpresent).2⟩⟩
  show wantedBy s'.newest r.key.id
  rw [he.newest]
  rcases he.named p' hp' _ hnames with hwants | ⟨p, hp, hnames⟩
  · exact hwants
  · exact hr.status p hp hnames

theorem GoneRow.host (hr : GoneRow k r) (hok : HostOk r.host s')
    (he : HostEffect r.host k.host s') : GoneRow { k with host := s', answer := none } r := by
  have howned : owns r.host k.host.dirs r.key.id →
      hasDirectory s'.dirs r.key.id ∨ wantedBy k.host.newest r.key.id →
      owns r.host s'.dirs r.key.id := by
    intro hown hor
    rcases he.owned _ hown with hown | ⟨hnot, hgone⟩
    · exact hown
    · rcases hor with hdir | hwants
      · rw [hgone] at hdir
        cases hdir
      · rw [hnot] at hwants
        cases hwants
  have hmarked : hasDirectory s'.dirs r.key.id → owns r.host s'.dirs r.key.id := by
    intro hdir
    rcases he.directory _ hdir with hbefore | hwants
    · exact howned (hr.marked hbefore) (.inl hdir)
    · exact howned (hr.wanted (.inl hwants)) (.inl hdir)
  refine ⟨hmarked, ?_, fun h => (hr.absent h).host he, fun q hq h => (hr.queued q hq h).host he,
    ?_, fun h => (hr.confirmed h).host he⟩
  · rintro (hwants | hwants)
    · have hwants : wantedBy s'.newest r.key.id := hwants
      rw [he.newest] at hwants
      exact howned (hr.wanted (.inl hwants)) (.inr hwants)
    · cases hwants
  · intro p' hp' hrec hnot
    rcases he.status p' hp' hrec with hended | ⟨p, hp, hrec, hkept⟩
    · -- the reconcile that has ended has removed it
      have hunwanted : wantedBy s'.newest r.key.id = false := by
        refine Bool.eq_false_iff.mpr fun hwants => ?_
        have hnames : names p'.status.instances r.key.id := hended.names _ hwants
        rw [show names p'.status.instances r.key.id = false from hnot] at hnames
        cases hnames
      have hgone : hasDirectory s'.dirs r.key.id = false := by
        refine Bool.eq_false_iff.mpr fun hdir => ?_
        rcases hended.gone _ hdir with hwants | hother
        · rw [hunwanted] at hwants
          cases hwants
        · rw [hmarked hdir] at hother
          cases hother
      refine ⟨⟨hgone, fun hrun => ?_⟩, hunwanted, rfl⟩
      have hdir := hok.running _ hrun
      rw [hgone] at hdir
      cases hdir
    · refine (hr.status p hp hrec (Bool.eq_false_iff.mpr fun hnames => ?_)).host he
      have hnames : names p'.status.instances r.key.id := hkept _ hnames
      rw [show names p'.status.instances r.key.id = false from hnot] at hnames
      cases hnames

theorem RowOk.host (hr : RowOk k r) (hok : HostOk r.host s') (he : HostEffect r.host k.host s') :
    RowOk { k with host := s', answer := none } r :=
  ⟨fun h => (hr.live h).host he, fun h => (hr.gone h).host hok he⟩

theorem Known.host (hk : Known { k with host := s', answer := none } id)
    (he : HostEffect h k.host s') : Known k id := by
  rcases hk with hwants | hnone | ⟨p', hp', hnames⟩ | hqueued
  · have hwants : wantedBy s'.newest id := hwants
    rw [he.newest] at hwants
    exact .inl hwants
  · cases hnone
  · rcases he.named p' hp' id hnames with hwants | hbefore
    · exact .inl hwants
    · exact .inr (.inr (.inl hbefore))
  · exact .inr (.inr (.inr hqueued))

section

variable (hr : RowOk k r)
include hr

theorem RowOk.answered {state : DesiredState} {p p' : Process}
    (hanswer : k.answer = some state) (hp : k.host.process = some p)
    (hstatus : p'.status = p.status ∧ p'.reconciled = p.reconciled) : RowOk { k with
      host := { k.host with newest := some state, process := some p' }, answer := none } r := by
  refine ⟨fun hlive => ?_, fun hgone => ?_⟩
  · have hr := hr.live hlive
    have hent : Entered k r.key.id → Entered { k with
        host := { k.host with newest := some state, process := some p' }, answer := none }
        r.key.id := by
      intro hent
      refine ⟨hr.answer hent.newest state hanswer, fun p₁ hp₁ hrec => ?_⟩
      cases hp₁
      rw [hstatus.1]
      exact hent.status p hp (hstatus.2 ▸ hrec)
    refine ⟨nofun, fun p₁ hp₁ hnames => ?_, hr.ordered,
      fun q hq hnames => hent (hr.queued q hq hnames),
      fun h => ⟨hent (hr.present h).1, (hr.present h).2⟩⟩
    cases hp₁
    rw [hstatus.1] at hnames
    exact hr.answer (hr.status p hp hnames) state hanswer
  · have hr := hr.gone hgone
    have hclean : Clean k r.key.id → Clean { k with
        host := { k.host with newest := some state, process := some p' }, answer := none }
        r.key.id := by
      intro hc
      refine ⟨hc.removed, ?_, rfl⟩
      have hnot := hc.answer
      rw [hanswer] at hnot
      exact hnot
    refine ⟨hr.marked, ?_, fun h => hclean (hr.absent h),
      fun q hq h => hclean (hr.queued q hq h), fun p₁ hp₁ hrec hnot => ?_,
      fun h => hclean (hr.confirmed h)⟩
    · rintro (hwants | hwants)
      · exact hr.wanted (.inr (hanswer ▸ hwants))
      · cases hwants
    · cases hp₁
      rw [hstatus.1] at hnot
      exact hclean (hr.status p hp (hstatus.2 ▸ hrec) hnot)

/-- An answer is on its way, or is lost. It has the node if the node is not
retracted. -/
theorem RowOk.answer {a : Option DesiredState}
    (hlive : r.stage = .live → ∀ state, a = some state → state.wants r.key.id)
    (hgone : r.stage ≠ .live → wantedBy a r.key.id = false) : RowOk { k with answer := a } r := by
  refine ⟨fun h => ?_, fun h => ?_⟩
  · have hr := hr.live h
    have hent : Entered k r.key.id → Entered { k with answer := a } r.key.id :=
      fun hent => ⟨hent.newest, hent.status⟩
    exact ⟨fun _ => hlive h, hr.status, hr.ordered, fun q hq hn => hent (hr.queued q hq hn),
      fun hp => ⟨hent (hr.present hp).1, (hr.present hp).2⟩⟩
  · have hr := hr.gone h
    have hclean : Clean k r.key.id → Clean { k with answer := a } r.key.id :=
      fun hc => ⟨hc.removed, hc.newest, hgone h⟩
    refine ⟨hr.marked, ?_, fun h => hclean (hr.absent h), fun q hq h => hclean (hr.queued q hq h),
      fun p hp hrec hn => hclean (hr.status p hp hrec hn), fun h => hclean (hr.confirmed h)⟩
    rintro (hwants | hwants)
    · exact hr.wanted (.inl hwants)
    · rw [show wantedBy a r.key.id = false from hgone h] at hwants
      cases hwants

theorem RowOk.answerLost : RowOk { k with answer := none } r :=
  hr.answer nofun fun _ => rfl

theorem RowOk.report {p : Process} (hp : k.host.process = some p) (hrec : p.reconciled) :
    RowOk { k with reports := k.reports ++ [p.status.instances] } r := by
  refine ⟨fun h => ?_, fun h => ?_⟩
  · have hr := hr.live h
    have hent : Entered k r.key.id →
        Entered { k with reports := k.reports ++ [p.status.instances] } r.key.id :=
      fun hent => ⟨hent.newest, hent.status⟩
    refine ⟨hr.answer, hr.status, ?_, fun q hq hnames => ?_, fun hpresent => ?_⟩
    · refine pairwise_append.mpr ⟨hr.ordered, pairwise_singleton .., ?_⟩
      intro q hq _ hq' hnames
      rw [mem_singleton.mp hq']
      exact (hr.queued q hq hnames).status p hp hrec
    · rcases mem_append.mp hq with hq | hq
      · exact hent (hr.queued q hq hnames)
      · rw [mem_singleton.mp hq] at hnames
        refine hent ⟨hr.status p hp hnames, fun p' hp' _ => ?_⟩
        cases hp.symm.trans hp'
        exact hnames
    · obtain ⟨hentered, hall⟩ := hr.present hpresent
      refine ⟨hent hentered, fun q hq => ?_⟩
      rcases mem_append.mp hq with hq | hq
      · exact hall q hq
      · rw [mem_singleton.mp hq]
        exact hentered.status p hp hrec
  · have hr := hr.gone h
    have hclean : Clean k r.key.id →
        Clean { k with reports := k.reports ++ [p.status.instances] } r.key.id :=
      fun hc => ⟨hc.removed, hc.newest, hc.answer⟩
    refine ⟨hr.marked, hr.wanted, fun h => hclean (hr.absent h), fun q hq hnot => ?_,
      fun p hp hrec hn => hclean (hr.status p hp hrec hn), fun h => hclean (hr.confirmed h)⟩
    rcases mem_append.mp hq with hq | hq
    · exact hclean (hr.queued q hq hnot)
    · rw [mem_singleton.mp hq] at hnot
      exact hclean (hr.status p hp hrec hnot)

theorem RowOk.reportLost
    (hreports : k.reports = q :: rest) : RowOk { k with reports := rest } r := by
  have hmem : ∀ q' ∈ rest, q' ∈ k.reports := fun q' h => hreports ▸ mem_cons_of_mem _ h
  refine ⟨fun h => ?_, fun h => ?_⟩
  · have hr := hr.live h
    have hent : Entered k r.key.id → Entered { k with reports := rest } r.key.id :=
      fun hent => ⟨hent.newest, hent.status⟩
    have hordered := hr.ordered
    rw [hreports] at hordered
    exact ⟨hr.answer, hr.status, hordered.of_cons,
      fun q' hq hn => hent (hr.queued q' (hmem q' hq) hn),
      fun hp => ⟨hent (hr.present hp).1, fun q' hq => (hr.present hp).2 q' (hmem q' hq)⟩⟩
  · have hr := hr.gone h
    have hclean : Clean k r.key.id → Clean { k with reports := rest } r.key.id :=
      fun hc => ⟨hc.removed, hc.newest, hc.answer⟩
    exact ⟨hr.marked, hr.wanted, fun h => hclean (hr.absent h),
      fun q' hq hn => hclean (hr.queued q' (hmem q' hq) hn),
      fun p hp hrec hn => hclean (hr.status p hp hrec hn), fun h => hclean (hr.confirmed h)⟩

theorem RowOk.reported (hreports : k.reports = q :: rest) :
    RowOk { k with reports := rest } { r with present := q.any (·.key = r.key) } := by
  have hq : q ∈ k.reports := hreports ▸ mem_cons_self
  have hlost := hr.reportLost hreports
  refine ⟨fun h => ?_, fun h => ?_⟩
  · have hold := hr.live h
    have hr := hlost.live h
    refine { hr with present := fun hpresent => ?_ }
    have hnames := has_iff.mp hpresent
    have hent := hold.queued q hq hnames
    have hordered := hold.ordered
    rw [hreports] at hordered
    refine ⟨⟨hent.newest, hent.status⟩, fun q' hq' => ?_⟩
    exact (pairwise_cons.mp hordered).1 q' hq' hnames
  · have hold := hr.gone h
    have hr := hlost.gone h
    refine { hr with absent := fun habsent => ?_ }
    have hnot : names q r.key.id = false := by
      refine Bool.eq_false_iff.mpr fun hnames => ?_
      rw [show q.any (·.key = r.key) = true from has_iff.mpr hnames] at habsent
      cases habsent
    have hc := hold.queued q hq hnot
    exact ⟨hc.removed, hc.newest, hc.answer⟩

end

theorem LiveRow.retract (hr : LiveRow k r) (hpresent : r.present)
    (hown : owns r.host k.host.dirs r.key.id) : GoneRow k { r with stage := .retracted } := by
  obtain ⟨hent, hall⟩ := hr.present hpresent
  refine ⟨fun _ => hown, fun _ => hown, fun habsent => ?_, fun q hq hnot => ?_,
    fun p hp hrec hnot => ?_, nofun⟩
  · rw [show r.present = false from habsent] at hpresent
    cases hpresent
  · rw [show names q r.key.id = true from hall q hq] at hnot
    cases hnot
  · rw [show names _ r.key.id = true from hent.status p hp hrec] at hnot
    cases hnot

end Links

/-! ## The system -/

section Steps

variable {st st' : System} {r' : NodeRow}

section

variable (hst : SystemOk st)
include hst

theorem SystemOk.update (h : String)
    (hlinks : ∀ h', h' ≠ h → st'.links h' = st.links h') (hused : st'.used = st.used)
    (hhost : HostOk h (st'.links h).host)
    (hknown : ∀ id, Known (st'.links h) id → ∃ key ∈ st.used, key.id = id)
    (f : NodeRow → NodeRow) (hf : ∀ r, (f r).key = r.key ∧ (f r).host = r.host)
    (hrows : st'.rows = st.rows.map f)
    (hok : ∀ r ∈ st.rows, RowOk (st.links r.host) r → RowOk (st'.links r.host) (f r)) :
    SystemOk st' := by
  refine ⟨fun h' => ?_, ?_, fun r' hr' => ?_, fun h' id hk => ?_, fun r' hr' => ?_⟩
  · by_cases hh : h' = h
    · exact hh ▸ hhost
    · rw [hlinks h' hh]
      exact hst.hosts h'
  · rw [hrows]
    refine pairwise_map.mpr (hst.keys.imp fun {a b} hab => ?_)
    rw [(hf a).1, (hf b).1]
    exact hab
  · rw [hrows] at hr'
    obtain ⟨r, hr, rfl⟩ := mem_map.mp hr'
    rw [hused, (hf r).1]
    exact hst.used r hr
  · rw [hused]
    by_cases hh : h' = h
    · exact hknown id (hh ▸ hk)
    · exact hst.known h' id (hlinks h' hh ▸ hk)
  · rw [hrows] at hr'
    obtain ⟨r, hr, rfl⟩ := mem_map.mp hr'
    rw [(hf r).2]
    exact hok r hr (hst.rows r hr)

theorem SystemOk.setLink (hhost : HostOk h k.host)
    (hknown : ∀ id, Known k id → ∃ key ∈ st.used, key.id = id)
    (hok : ∀ r ∈ st.rows, r.host = h → RowOk (st.links h) r → RowOk k r) :
    SystemOk (st.setLink h k) := by
  have hself : (st.setLink h k).links h = k := Function.update_self ..
  have hother : ∀ h', h' ≠ h → (st.setLink h k).links h' = st.links h' := fun h' hne =>
    Function.update_of_ne hne ..
  refine hst.update h hother rfl (by rw [hself]; exact hhost) (by rw [hself]; exact hknown)
    id (fun _ => ⟨rfl, rfl⟩) (map_id _).symm fun r hr hrow => ?_
  by_cases hh : r.host = h
  · rw [hh, hself]
    exact hok r hr hh (hh ▸ hrow)
  · rw [hother _ hh]
    exact hrow

theorem SystemOk.modify (p : NodeRow → Bool) (f : NodeRow → NodeRow)
    (g : String → Int) (hf : ∀ r, (f r).key = r.key ∧ (f r).host = r.host)
    (hok : ∀ r ∈ st.rows, p r → RowOk (st.links r.host) r → RowOk (st.links r.host) (f r)) :
    SystemOk { st with rows := st.modify p f, generation := g } := by
  refine hst.update "" (fun _ _ => rfl) rfl (hst.hosts _) (fun id hk => hst.known _ id hk)
    (fun r => if p r then f r else r) (fun r => ?_) rfl fun r hr hrow => ?_
  · split
    · exact hf r
    · exact ⟨rfl, rfl⟩
  · split
    · next hp => exact hok r hr hp hrow
    · exact hrow

theorem SystemOk.filter (p : NodeRow → Bool) : SystemOk { st with rows := st.rows.filter p } :=
  ⟨hst.hosts, hst.keys.filter _, fun r hr => hst.used r (mem_filter.mp hr).1, hst.known,
    fun r hr => hst.rows r (mem_filter.mp hr).1⟩

/-- Nobody has heard of a new node. -/
theorem SystemOk.place {key : NodeId} {host : String} (hkey : key ∉ st.used)
    (g : String → Int) : SystemOk { st with
      rows := st.rows ++ [⟨key, host, 1, .live, false⟩]
      generation := g
      used := key :: st.used } := by
  have hunknown : ¬ Known (st.links host) key.id := by
    intro hk
    obtain ⟨key', hmem, hid⟩ := hst.known host key.id hk
    exact hkey (NodeId.id_injective hid ▸ hmem)
  refine ⟨hst.hosts, ?_, fun r hr => ?_, fun h id hk => ?_, fun r hr => ?_⟩
  · refine pairwise_append.mpr ⟨hst.keys, pairwise_singleton .., ?_⟩
    rintro r hr _ hr' heq
    obtain rfl := mem_singleton.mp hr'
    have heq : r.key = key := heq
    exact hkey (heq ▸ hst.used r hr)
  · rcases mem_append.mp hr with hr | hr
    · exact mem_cons_of_mem _ (hst.used r hr)
    · obtain rfl := mem_singleton.mp hr
      exact mem_cons_self
  · obtain ⟨key', hmem, hid⟩ := hst.known h id hk
    exact ⟨key', mem_cons_of_mem _ hmem, hid⟩
  · rcases mem_append.mp hr with hr | hr
    · exact hst.rows r hr
    · obtain rfl := mem_singleton.mp hr
      refine ⟨fun _ => ⟨?_, ?_, ?_, ?_, nofun⟩, fun h => (h rfl).elim⟩
      · exact fun hwants => (hunknown (.inl hwants)).elim
      · exact fun p hp hnames => (hunknown (.inr (.inr (.inl ⟨p, hp, hnames⟩)))).elim
      · refine List.Pairwise.imp_of_mem ?_ (pairwise_of_forall fun _ _ => trivial)
        exact fun hq _ _ hnames => (hunknown (.inr (.inr (.inr ⟨_, hq, hnames⟩)))).elim
      · exact fun q hq hnames => (hunknown (.inr (.inr (.inr ⟨q, hq, hnames⟩)))).elim

end

theorem buildDesiredState_wants (hr : r ∈ st.rows) (hlive : r.stage = .live) :
    (st.buildDesiredState r.host).wants r.key.id := by
  refine DesiredState.wants_iff.mpr ⟨⟨r.key, r.generation⟩, ?_, rfl⟩
  refine mem_map.mpr ⟨r, mem_filter.mpr ⟨hr, ?_⟩, rfl⟩
  simp [hlive]

theorem wants_buildDesiredState (hw : (st.buildDesiredState h).wants id) :
    ∃ r ∈ st.rows, r.stage = .live ∧ r.key.id = id := by
  obtain ⟨i, hi, rfl⟩ := DesiredState.wants_iff.mp hw
  obtain ⟨r, hr, rfl⟩ := mem_map.mp hi
  obtain ⟨hr, hp⟩ := mem_filter.mp hr
  simp only [Bool.and_eq_true, decide_eq_true_eq] at hp
  exact ⟨r, hr, hp.2, rfl⟩

theorem SystemOk.row_unique (hst : SystemOk st) (hr : r ∈ st.rows)
    (hr' : r' ∈ st.rows) (hkey : r.key = r'.key) : r = r' := by
  have hsymm : Std.Symm fun a b : NodeRow => a.key ≠ b.key := ⟨fun _ _ hne => hne.symm⟩
  by_contra hne
  exact hst.keys.forall hr hr' hne hkey

theorem SystemOk.retract (hst : SystemOk st) (p : NodeRow → Bool) (g : String → Int)
    (hcond : ∀ r ∈ st.rows, p r → r.stage = .live → setUp st r) :
    SystemOk { st with rows := st.modify p System.retractRow, generation := g } := by
  refine hst.modify p _ g (fun r => ?_) fun r hr hp hrow => ?_
  · unfold System.retractRow
    split <;> exact ⟨rfl, rfl⟩
  · unfold System.retractRow
    split
    · next hlive =>
      have hset := hcond r hr hp hlive
      rw [setUp, Bool.and_eq_true] at hset
      exact ⟨nofun, fun _ => (hrow.live hlive).retract hset.1 hset.2⟩
    · exact hrow

theorem RowOk.confirm (hrow : RowOk k r) (hgone : r.stage ≠ .live)
    (habsent : r.present = false) : RowOk k { r with stage := .confirmed } := by
  have hr := hrow.gone hgone
  exact ⟨nofun, fun _ => { hr with confirmed := fun _ => hr.absent habsent }⟩

theorem RowOk.giveUp (hrow : RowOk k r) (hgone : r.stage ≠ .live) :
    RowOk k { r with stage := .givenUp } := by
  have hr := hrow.gone hgone
  exact ⟨nofun, fun _ => { hr with confirmed := nofun }⟩

theorem SystemOk.answered (hst : SystemOk st)
    (hs : st.step (.answered h) = some st') : SystemOk st' := by
  simp only [System.step] at hs
  split at hs
  · next _ hanswer =>
    obtain ⟨_, hstep, rfl⟩ := Option.map_eq_some_iff.mp hs
    have hhost := (hst.hosts h).step rfl hstep
    cases HostState.step_cases hstep with
    | changed p _ _ hp =>
      refine hst.setLink hhost (fun id hk => hst.known h id ?_) fun r _ _ hrow =>
        hrow.answered hanswer hp ⟨rfl, rfl⟩
      rcases hk with hwants | hnone | ⟨_, hp', hnames⟩ | hqueued
      · exact .inr (.inl (hanswer ▸ hwants))
      · cases hnone
      · cases hp'
        exact .inr (.inr (.inl ⟨p, hp, hnames⟩))
      · exact .inr (.inr (.inr hqueued))
  · cases hs

theorem SystemOk.desiredState (hst : SystemOk st)
    (hs : st.step (.desiredState h) = some st') : SystemOk st' := by
  have hst' : st' = st.setLink h { st.links h with answer := some (st.buildDesiredState h) } := by
    simp only [System.step] at hs
    split at hs
    · split at hs
      · exact (Option.some.inj (Option.ite_none_right_eq_some.mp hs).2).symm
      · cases hs
    · cases hs
  subst hst'
  refine hst.setLink (hst.hosts h) (fun id hk => ?_) fun r hr hhost hrow =>
    hrow.answer (fun hlive state hstate => ?_) fun hgone => ?_
  · rcases hk with hwants | hwants | hrest
    · exact hst.known h id (.inl hwants)
    · obtain ⟨r, hr, -, hid⟩ := wants_buildDesiredState hwants
      exact ⟨r.key, hst.used r hr, hid⟩
    · exact hst.known h id (.inr (.inr hrest))
  · cases hstate
    exact hhost ▸ buildDesiredState_wants hr hlive
  · refine Bool.eq_false_iff.mpr fun hwants => ?_
    obtain ⟨_, hr', hlive, hid⟩ := wants_buildDesiredState hwants
    have heq := hst.row_unique hr' hr (NodeId.id_injective hid)
    exact hgone (heq ▸ hlive)

theorem SystemOk.host (hst : SystemOk st) {l : HostLabel}
    (hcond : removesCleanly (st.links h).host l)
    (hs : st.step (.host h l) = some st') : SystemOk st' := by
  have hstep : (∀ state, l ≠ .changed state) ∧ ∃ s', (st.links h).host.step h l = some s'
      ∧ st' = st.setLink h { st.links h with host := s', answer := none } := by
    simp only [System.step] at hs
    split at hs
    · cases hs
    · obtain ⟨s', hstep, rfl⟩ := Option.map_eq_some_iff.mp hs
      exact ⟨nofun, s', hstep, rfl⟩
    · next hne _ _ =>
      obtain ⟨s', hstep, rfl⟩ := Option.map_eq_some_iff.mp hs
      exact ⟨hne, s', hstep, rfl⟩
    · cases hs
  obtain ⟨hl, _, hstep, rfl⟩ := hstep
  have hok := (hst.hosts h).step hcond hstep
  have he := (hst.hosts h).effect hcond hl hstep
  refine hst.setLink hok (fun id hk => hst.known h id (hk.host he)) fun r _ hhost hrow => ?_
  subst hhost
  exact hrow.host hok he

theorem SystemOk.report (hst : SystemOk st) (hcond : (st.links h).host.process.any (·.reconciled))
    (hs : st.step (.report h) = some st') : SystemOk st' := by
  obtain ⟨p, hp, rfl⟩ := Option.map_eq_some_iff.mp hs
  have hrec : p.reconciled := by
    rw [hp] at hcond
    exact hcond
  refine hst.setLink (hst.hosts h) (fun id hk => hst.known h id ?_) fun r _ _ hrow =>
    hrow.report hp hrec
  rcases hk with hwants | hwants | hstatus | ⟨q, hq, hnames⟩
  · exact .inl hwants
  · exact .inr (.inl hwants)
  · exact .inr (.inr (.inl hstatus))
  · rcases mem_append.mp hq with hq | hq
    · exact .inr (.inr (.inr ⟨q, hq, hnames⟩))
    · rw [mem_singleton.mp hq] at hnames
      exact .inr (.inr (.inl ⟨p, hp, hnames⟩))

theorem Known.tail
    (hreports : k.reports = q :: rest) (hk : Known { k with reports := rest } id) : Known k id := by
  rcases hk with hwants | hwants | hstatus | ⟨q', hq, hnames⟩
  · exact .inl hwants
  · exact .inr (.inl hwants)
  · exact .inr (.inr (.inl hstatus))
  · exact .inr (.inr (.inr ⟨q', hreports ▸ mem_cons_of_mem _ hq, hnames⟩))

theorem SystemOk.reported (hst : SystemOk st)
    (hs : st.step (.reported h) = some st') : SystemOk st' := by
  simp only [System.step] at hs
  split at hs
  · next q rest hreports =>
    cases hs
    have hself : (st.setLink h { st.links h with reports := rest }).links h
        = { st.links h with reports := rest } := Function.update_self ..
    refine hst.update h (fun h' hne => Function.update_of_ne hne ..) rfl
      (by rw [hself]; exact hst.hosts h) ?_
      (fun r => if r.host = h then { r with present := q.any (·.key = r.key) } else r)
      (fun r => ?_) ?_ fun r _ hrow => ?_
    · rw [hself]
      exact fun id hk => hst.known h id (hk.tail hreports)
    · split <;> exact ⟨rfl, rfl⟩
    · simp only [System.takeReport, System.modify, decide_eq_true_eq]
    · split
      · next hhost =>
        subst hhost
        rw [hself]
        exact hrow.reported hreports
      · next hne =>
        rw [show (st.setLink h { st.links h with reports := rest }).links r.host
          = st.links r.host from Function.update_of_ne hne ..]
        exact hrow
  · cases hs

theorem SystemOk.reportLost (hst : SystemOk st)
    (hs : st.step (.reportLost h) = some st') : SystemOk st' := by
  simp only [System.step] at hs
  split at hs
  · next q _ hreports =>
    cases hs
    exact hst.setLink (hst.hosts h) (fun id hk => hst.known h id (hk.tail hreports))
      fun r _ _ hrow => hrow.reportLost hreports
  · cases hs

theorem SystemOk.waitRemoved (hst : SystemOk st)
    (hs : st.step (.waitRemoved id) = some st') : SystemOk st' := by
  obtain ⟨hall, rfl⟩ := Option.ite_some_none_eq_some.mp hs
  refine hst.modify _ _ _ (fun _ => ⟨rfl, rfl⟩) fun r hr hp hrow => ?_
  have hdone := all_eq_true.mp hall r hr
  rw [hp] at hdone
  simp only [Bool.not_true, Bool.false_or, Bool.and_eq_true, decide_eq_true_eq,
    Bool.not_eq_true'] at hdone
  exact hrow.confirm hdone.1 hdone.2

theorem SystemOk.waitOldRemoved (hst : SystemOk st) {key : NodeId} {online : Bool}
    (hs : st.step (.waitOldRemoved key online) = some st') : SystemOk st' := by
  obtain ⟨hall, rfl⟩ := Option.ite_some_none_eq_some.mp hs
  refine hst.modify _ _ _ (fun _ => ⟨rfl, rfl⟩) fun r hr hp hrow => ?_
  have hdone := all_eq_true.mp hall r hr
  have hkey : r.key = key := of_decide_eq_true hp
  simp only [hkey, ne_eq, not_true, decide_false, Bool.false_or, Bool.and_eq_true,
    decide_eq_true_eq] at hdone
  cases online with
  | true => exact hrow.confirm hdone.1 (by simpa using hdone.2)
  | false => exact hrow.giveUp hdone.1

theorem RowOk.of_generation (hrow : RowOk k r) (g : Int) : RowOk k { r with generation := g } := by
  refine ⟨fun h => ?_, fun h => ?_⟩
  · have hr := hrow.live h
    exact { hr with }
  · have hr := hrow.gone h
    exact { hr with }

theorem SystemOk.step {l : Label} (hst : SystemOk st) (hcond : confirmable st l)
    (hs : st.step l = some st') : SystemOk st' := by
  cases l with
  | place =>
    obtain ⟨hkey, hs⟩ := Option.ite_none_left_eq_some.mp hs
    cases hs
    exact hst.place hkey _
  | newGeneration =>
    cases hs
    exact hst.modify _ _ _ (fun _ => ⟨rfl, rfl⟩) fun r _ _ hrow => hrow.of_generation _
  | retract =>
    cases hs
    refine hst.retract _ _ fun r hr hp hlive => ?_
    have hset := all_eq_true.mp hcond r hr
    simpa [hp, hlive] using hset
  | retractOld =>
    cases hs
    refine hst.retract _ _ fun r hr hp hlive => ?_
    have hset := all_eq_true.mp hcond r hr
    simpa [of_decide_eq_true hp, hlive] using hset
  | waitRemoved => exact hst.waitRemoved hs
  | waitOldRemoved => exact hst.waitOldRemoved hs
  | finalize | dropOld =>
    obtain ⟨-, rfl⟩ := Option.ite_some_none_eq_some.mp hs
    exact hst.filter _
  | desiredState => exact hst.desiredState hs
  | answered => exact hst.answered hs
  | answerLost h =>
    cases hs
    refine hst.setLink (hst.hosts h) (fun id hk => hst.known h id ?_) fun r _ _ hrow =>
      hrow.answerLost
    rcases hk with hwants | hnone | hrest
    · exact .inl hwants
    · cases hnone
    · exact .inr (.inr hrest)
  | host => exact hst.host hcond hs
  | report => exact hst.report hcond hs
  | reported => exact hst.reported hs
  | reportLost => exact hst.reportLost hs

end Steps

theorem HostOk.fresh (hostId : String) : HostOk hostId (.fresh []) :=
  ⟨fun _ h => (by cases h), fun _ _ hin => (by cases hin.process),
    fun _ _ hin => (by cases hin.process), fun _ h => (by cases h)⟩

theorem SystemOk.init : SystemOk .init := by
  refine ⟨fun h => .fresh h, .nil, nofun, fun h id hk => ?_, nofun⟩
  rcases hk with hwants | hwants | ⟨p, hp, -⟩ | ⟨q, hq, -⟩
  · cases hwants
  · cases hwants
  · cases hp
  · cases hq

/-- In a run where no removal goes wrong, reports wait for a reconcile and
nodes are set up when they are retracted, an operation that is past its wait
has each of its instances removed. -/
theorem removals_are_confirmed {st : System}
    (h : removalMachine.Reaches (fun st l => confirmable st l = true) st) :
    RemovalsConfirmed st := by
  have hok : SystemOk st := h.invariant SystemOk.init fun _ _ _ hst hcond hs => hst.step hcond hs
  intro r hr hconfirmed
  have hgone : r.stage ≠ .live := by
    rw [hconfirmed]
    nofun
  exact (((hok.rows r hr).gone hgone).confirmed hconfirmed).removed

/-- The host asks for its state and makes it true with these steps. -/
def polls (steps : List HostLabel) : List Label :=
  ([.desiredState "h1", .answered "h1"] : List Label)
    ++ ((.save true :: steps).map (.host "h1") : List Label)

def reports : List Label := [.report "h1", .reported "h1"]

/-- A node is placed, set up and reported, and then retracted. -/
def setUpRun : List Label :=
  ([.place node1.key "h1", .host "h1" .boot] : List Label)
    ++ polls [.enter, .apply .prepare, .apply .mark, .apply (.run true), .applied .running,
      .list (some ["db-n1"]), .finish]
    ++ reports ++ ([.retract "db"] : List Label)

/-- The host removes the node and reports, and the wait ends. -/
def removedRun : List Label :=
  setUpRun ++ polls [.list (some ["db-n1"]), .remove .stop, .removed .removed, .finish]
    ++ reports ++ ([.waitRemoved "db"] : List Label)

theorem removals_are_confirmed_once :
    ∃ st, removalMachine.Reaches (fun st l => confirmable st l = true) st
      ∧ st.rows.map (·.stage) = [.confirmed] ∧ RemovalsConfirmed st := by
  obtain ⟨st, hst, hstage⟩ := removalMachine.exists_run removedRun
    (fun st => st.rows.map (·.stage) = [.confirmed]) (by decide +kernel)
  have hr := Machine.reaches_of_run (G := fun st l => confirmable st l = true)
    (by decide +kernel) hst
  exact ⟨st, hr, hstage, removals_are_confirmed hr⟩

/-- The removal fails. The status that the reconcile ends with has the
instances that are asked for, and so not this one. -/
def failedRemovalRun : List Label :=
  setUpRun ++ polls [.list (some ["db-n1"]), .removed .failed, .finish]
    ++ reports ++ ([.waitRemoved "db"] : List Label)

/-- The agent restarts and reports its empty status before its first
reconcile has ended. -/
def earlyReportRun : List Label :=
  setUpRun ++ ([.host "h1" .crash, .host "h1" .boot] : List Label) ++ reports
    ++ ([.waitRemoved "db"] : List Label)

/-- A node past its wait has its directory, and runs. -/
def unconfirmed (st : System) : Bool :=
  st.rows.any fun r => r.stage = .confirmed && hasDirectory (st.links r.host).host.dirs r.key.id
    && decide (r.key.id ∈ (st.links r.host).host.running)

theorem not_confirmed_of_unconfirmed (st : System) (h : unconfirmed st) :
    ¬ RemovalsConfirmed st := by
  intro hall
  obtain ⟨r, hr, hbad⟩ := any_eq_true.mp h
  simp only [Bool.and_eq_true, decide_eq_true_eq] at hbad
  exact (hall r hr hbad.1.1).2 hbad.2

theorem removal_recorded_while_running :
    (∃ st, removalMachine.run failedRemovalRun = some st ∧ removalMachine.Reachable st
      ∧ ¬ RemovalsConfirmed st)
    ∧ ∃ st, removalMachine.run earlyReportRun = some st ∧ removalMachine.Reachable st
      ∧ ¬ RemovalsConfirmed st :=
  ⟨Machine.exists_of_run (by decide +kernel) not_confirmed_of_unconfirmed,
    Machine.exists_of_run (by decide +kernel) not_confirmed_of_unconfirmed⟩

end PgCluster.Host
