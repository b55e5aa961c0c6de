import PgCluster.HostErase

/-!
# What the host agent's reports leave out

The status that a report is made from names the instances of the state last
made true. In runs whose removals go well (`removesCleanly`), a process that
has ended a reconcile has no directory of its own left that its status does
not name, unless its state asks for it: what a report leaves out is gone.
-/

namespace PgCluster.Host

open HostState List Option

def wantedBy (d : Option DesiredState) (id : String) : Bool := d.any (·.wants id)

def HostState.removingId (s : HostState) : Option String :=
  s.process.bind fun p => match p.phase with
    | .reconciling pass => pass.work.toRemove.head?
    | _ => none

/-- A step with which no removal goes wrong: a start finds the newest state
saved, directories can be listed, and `remove` does not fail, nor delete the
marker of a directory that stays, nor a directory whose processes run. -/
def removesCleanly (s : HostState) : HostLabel → Bool
  | .boot => s.saved = s.newest
  | .list ids => ids.isSome
  | .remove (.erase markerKept) => markerKept
  | .removed .removed => s.removingId.all fun id => id ∉ s.running
  | .removed .failed => false
  | _ => true

structure PassKept (hostId : String) (dirs : List Directory) (pass : Pass) : Prop where
  reported : ∀ i ∈ pass.state.instances,
    i ∈ pass.work.toApply ∨ Reports.names pass.reports i.id = true
  reports : ∀ id, Reports.names pass.reports id = true → pass.state.wants id = true
  listed : ∀ rest, pass.work = .removing rest → ∀ id, hasDirectory dirs id = true →
    pass.state.wants id = true ∨ id ∈ rest ∨ owns hostId dirs id = false

structure HostOk (hostId : String) (s : HostState) : Prop where
  acting : ∀ p, s.process = some p → p.acting = s.newest
  passes : s.PassesOk
  kept : ∀ p pass, InPass s p pass → PassKept hostId s.dirs pass
  running : ∀ id ∈ s.running, hasDirectory s.dirs id = true

section Steps

variable {hostId : String} {s s' : HostState} {l : HostLabel} {pass pass' : Pass} {p q : Process}
  {i : Instance} {dirs dirs' : List Directory} {rest : List String} {id j : String}

theorem PassKept.start (dirs : List Directory) (state : DesiredState) (booting : Bool) :
    PassKept hostId dirs (.start state booting) :=
  ⟨fun _ hi => .inl hi, nofun, nofun⟩

theorem PassKept.all_reported (h : PassKept hostId dirs pass) (hdone : pass.work.toApply = []) :
    ∀ i ∈ pass.state.instances, Reports.names pass.reports i.id := by
  intro i hi
  rcases h.reported i hi with hmem | hnames
  · rw [hdone] at hmem
    cases hmem
  · exact hnames

theorem HostOk.wanted (h : HostOk hostId s) (hin : InPass s p pass)
    (id : String) : wantedBy s.newest id = pass.state.wants id := by
  rw [← h.acting p hin.process, hin.acting]
  rfl

theorem HostOk.wanted_of_mem (h : HostOk hostId s)
    (hin : InPass s p pass) (hi : i ∈ pass.work.toApply) : wantedBy s.newest i.id := by
  rw [h.wanted hin]
  exact DesiredState.wants_iff.mpr ⟨i, (h.passes p pass hin).wanted i hi, rfl⟩

theorem HostOk.goOn (hacting : some pass.state = s.newest)
    (hok : PassOk pass) (hkept : PassKept hostId s.dirs pass)
    (hrunning : ∀ id ∈ s.running, hasDirectory s.dirs id) : HostOk hostId (s.goOn p pass) := by
  refine ⟨fun p' hp' => ?_, .goOn hok, ?_, hrunning⟩
  · cases hp'
    exact hacting
  · rintro _ _ ⟨hp, hphase⟩
    cases hp
    obtain rfl := Phase.reconciling.inj hphase
    exact hkept

theorem PassKept.insert {observed : Int}
    {rest : List Instance} {r : InstanceReport}
    (h : PassKept hostId dirs pass) (hok : PassOk pass)
    (hwork : pass.work = .applying i observed rest) (hstate : pass'.state = pass.state)
    (hwork' : pass'.work = .next rest) (hkey : r.key = i.key)
    (hreports : pass'.reports = Reports.insert r pass.reports) : PassKept hostId dirs' pass' := by
  have hid : r.key.id = i.id := congrArg NodeId.id hkey
  refine ⟨fun j hj => ?_, fun id hnames => ?_, fun rest' h' => ?_⟩
  · rw [hstate] at hj
    rw [hwork', hreports, Reports.names_insert, hid]
    rcases h.reported j hj with hj | hj
    · rw [hwork] at hj
      rcases mem_cons.mp hj with rfl | hj
      · exact .inr (.inl rfl)
      · exact .inl hj
    · exact .inr (.inr hj)
  · rw [hreports, Reports.names_insert, hid] at hnames
    rw [hstate]
    rcases hnames with rfl | hnames
    · exact DesiredState.wants_iff.mpr ⟨i, hok.wanted i (by rw [hwork]; exact mem_cons_self), rfl⟩
    · exact h.reports id hnames
  · rw [hwork'] at h'
    cases h'

theorem PassKept.removing
    (h : PassKept hostId dirs pass) (hdone : pass.work.toApply = []) {allOk : Bool}
    (hlisted : ∀ id, hasDirectory dirs' id →
      pass.state.wants id ∨ id ∈ rest ∨ owns hostId dirs' id = false) :
    PassKept hostId dirs' { pass with work := .removing rest, allOk := allOk } := by
  refine ⟨fun i hi => .inr (h.all_reported hdone i hi), h.reports, ?_⟩
  rintro _ ⟨⟩
  exact hlisted

theorem HostOk.applyPart (h : HostOk hostId s) {effect : ApplyEffect}
    (happly : s.applyPart hostId i.id effect = some s') :
    ∀ id ∈ s'.running, hasDirectory s'.dirs id := by
  cases effect with
  | prepare =>
    cases happly
    exact fun id hid => hasDirectory_prepare.mpr (.inr (h.running id hid))
  | mark =>
    obtain ⟨-, rfl⟩ := ite_some_none_eq_some.mp happly
    exact fun id hid => (hasDirectory_write _).trans (h.running id hid)
  | run running =>
    obtain ⟨happlied, rfl⟩ := ite_some_none_eq_some.mp happly
    intro id hid
    cases running with
    | false => exact h.running id (mem_filter.mp hid).1
    | true =>
      rcases mem_cons.mp hid with rfl | hid
      · obtain ⟨a, ha⟩ := isSome_iff_exists.mp happlied
        exact hasDirectory_of_readApplied ha
      · exact h.running id hid

theorem removePart_dirs {effect : RemoveEffect} (hcond : removesCleanly s (.remove effect))
    (hremove : s.removePart hostId id effect = some s') :
    s'.dirs = s.dirs ∧ ∀ j ∈ s'.running, j ∈ s.running := by
  cases effect with
  | stop =>
    obtain ⟨-, rfl⟩ := ite_some_none_eq_some.mp hremove
    exact ⟨rfl, fun j hj => (mem_filter.mp hj).1⟩
  | erase kept =>
    obtain ⟨-, rfl⟩ := ite_some_none_eq_some.mp hremove
    obtain rfl : kept := hcond
    exact ⟨rfl, fun _ hj => hj⟩

theorem not_running_of_removed
    (hcond : removesCleanly s (.removed .removed)) (hin : InPass s p pass)
    (hwork : pass.work = .removing (id :: rest)) : id ∉ s.running := by
  have hid : s.removingId = some id := by
    rw [removingId, hin.process, bind_some, hin.phase]
    dsimp only
    rw [hwork]
    rfl
  simpa [removesCleanly, hid] using hcond

theorem HostOk.acting_pass (h : HostOk hostId s) (hin : InPass s p pass) :
    some pass.state = s.newest :=
  hin.acting.symm.trans (h.acting p hin.process)

/-- A step that leaves the process where it is. -/
theorem HostOk.same (h : HostOk hostId s) (hpasses : s'.PassesOk)
    (hprocess : s'.process = s.process) (hnewest : s'.newest = s.newest)
    (hkept : ∀ p pass, InPass s p pass → PassKept hostId s'.dirs pass)
    (hrunning : ∀ id ∈ s'.running, hasDirectory s'.dirs id) : HostOk hostId s' := by
  refine ⟨fun p hp => ?_, hpasses, fun p pass hin => ?_, hrunning⟩
  · rw [hnewest]
    exact h.acting p (hprocess ▸ hp)
  · exact hkept p pass ⟨hprocess ▸ hin.process, hin.phase⟩

/-- A step outside a reconcile, or at its end. -/
theorem HostOk.starts (hpasses : s'.PassesOk) (hq : s'.process = some q)
    (hact : q.acting = s'.newest)
    (hphase : ∀ pass, q.phase = .reconciling pass → ∃ state booting, pass = .start state booting)
    (hrunning : ∀ id ∈ s'.running, hasDirectory s'.dirs id) : HostOk hostId s' := by
  refine ⟨fun p hp => ?_, hpasses, ?_, hrunning⟩
  · cases hq.symm.trans hp
    exact hact
  · rintro p pass ⟨hp, hp'⟩
    cases hq.symm.trans hp
    obtain ⟨state, booting, rfl⟩ := hphase pass hp'
    exact .start _ state booting

theorem HostOk.removed (h : HostOk hostId s) {result : RemoveResult}
    (hcond : removesCleanly s (.removed result)) (hpasses : s'.PassesOk) (hin : InPass s p pass)
    (hwork : pass.work = .removing (id :: rest))
    (hremove : s.endRemove hostId p pass id rest result = some s') : HostOk hostId s' := by
  have hkept := h.kept p pass hin
  have hlisted := hkept.listed _ hwork
  obtain ⟨_, _, rfl, ⟨rfl, hown, rfl⟩ | ⟨hleft, rfl⟩⟩ := endRemove_eq hremove
  · refine .goOn (h.acting_pass hin :) (hpasses _ _ ⟨rfl, rfl⟩)
      (hkept.removing (by rw [hwork]; rfl) fun j hdir => ?_) fun j hj => ?_
    · obtain ⟨hne, hdir⟩ := hasDirectory_remove.mp hdir
      rcases hlisted j hdir with hwants | hmem | hnot
      · exact .inl hwants
      · exact .inr (.inl ((mem_cons.mp hmem).resolve_left hne))
      · refine .inr (.inr (Bool.eq_false_iff.mpr fun hown => ?_))
        rw [(owns_remove hown).2] at hnot
        cases hnot
    · refine hasDirectory_remove.mpr ⟨?_, h.running j hj⟩
      rintro rfl
      exact not_running_of_removed hcond hin hwork hj
  · refine .goOn (h.acting_pass hin :) (hpasses _ _ ⟨rfl, rfl⟩)
      (hkept.removing (by rw [hwork]; rfl) fun j hdir => ?_) h.running
    rcases hlisted j hdir with hwants | hmem | hother
    · exact .inl hwants
    · rcases mem_cons.mp hmem with rfl | hmem
      · rcases hleft with ⟨-, hnot⟩ | rfl
        · exact .inr (.inr hnot)
        · cases hcond
      · exact .inr (.inl hmem)
    · exact .inr (.inr hother)

theorem HostOk.step (h : HostOk hostId s) (hcond : removesCleanly s l)
    (hs : s.step hostId l = some s') : HostOk hostId s' := by
  have hstep := step_cases hs
  have hpasses := hstep.passesOk h.passes
  cases hstep with
  | boot =>
    refine .starts hpasses rfl ?_ (fun _ => Process.boot_starts) h.running
    rw [acting_boot]
    exact of_decide_eq_true hcond
  | crash =>
    refine ⟨fun p hp => ?_, hpasses, fun p pass hin => ?_, h.running⟩
    · cases hp
    · cases hin.process
  | changed => exact .starts hpasses rfl rfl (fun _ h => by cases h) h.running
  | unchanged p _ _ hp hphase =>
    refine .starts hpasses rfl ?_ (fun _ => Process.unchanged_starts hphase) h.running
    rw [acting_unchanged hphase]
    exact h.acting p hp
  | save p _ _ hp hphase =>
    have hbefore := h.acting p hp
    rw [Process.acting, hphase] at hbefore
    exact .starts hpasses rfl hbefore (fun _ h => ⟨_, _, (Phase.reconciling.inj h).symm⟩) h.running
  | enter p pass _ _ hin hwork =>
    have hkept := h.kept p pass hin
    refine .goOn (h.acting_pass hin :) (hpasses _ _ ⟨rfl, rfl⟩)
      ⟨fun j hj => ?_, hkept.reports, fun _ hrest => by cases hrest⟩ h.running
    have hj := hkept.reported j hj
    rw [hwork] at hj
    exact hj
  | apply p pass _ _ _ _ _ hin hwork happly =>
    obtain ⟨hprocess, hnewest, -, -⟩ := applyPart_process happly
    refine h.same hpasses hprocess hnewest (fun p' pass' hin' => ?_) (h.applyPart happly)
    cases hin.process.symm.trans hin'.process
    obtain rfl := Phase.reconciling.inj (hin.phase.symm.trans hin'.phase)
    have hkept := h.kept p pass hin
    refine ⟨hkept.reported, hkept.reports, fun rest' hrest => ?_⟩
    rw [hwork] at hrest
    cases hrest
  | applied p pass _ _ _ _ _ hin hwork happly =>
    obtain ⟨_, _, _, hkey, hdirs, rfl⟩ := endApply_eq happly
    refine .goOn (h.acting_pass hin :) (hpasses _ _ ⟨rfl, rfl⟩)
      ((h.kept p pass hin).insert (h.passes p pass hin) hwork rfl rfl hkey rfl) ?_
    rcases hdirs with rfl | rfl
    · exact h.running
    · exact fun id hid => (hasDirectory_write _).trans (h.running id hid)
  | listed p pass _ _ hin hwork hlist =>
    obtain ⟨_, _, rfl, -, hlisted⟩ := listed_eq hlist
    refine .goOn (h.acting_pass hin :) (hpasses _ _ ⟨rfl, rfl⟩)
      ((h.kept p pass hin).removing (by rw [hwork]; rfl) fun id hdir => ?_) h.running
    exact (hlisted hcond id hdir).imp_right .inl
  | remove _ _ _ _ _ _ _ _ hremove =>
    obtain ⟨hprocess, hnewest, -⟩ := removePart_process hremove
    obtain ⟨hdirs, hrunning⟩ := removePart_dirs hcond hremove
    refine h.same hpasses hprocess hnewest ?_ fun j hj => ?_
    · rw [hdirs]
      exact h.kept
    · rw [hdirs]
      exact h.running j (hrunning j hj)
  | removed p pass _ _ _ _ hin hwork hremove => exact h.removed hcond hpasses hin hwork hremove
  | finish p pass hin =>
    exact .starts hpasses rfl (h.acting_pass hin) (fun _ h => by cases h) h.running

/-! ## What a step does to one instance -/

/-- A reconcile has ended: the status names what is wanted, and what is not
wanted and this host's is gone. -/
structure Ended (hostId : String) (s : HostState) (p : Process) : Prop where
  names : ∀ id, wantedBy s.newest id = true → Reports.names p.status.instances id = true
  gone : ∀ id, hasDirectory s.dirs id = true →
    wantedBy s.newest id = true ∨ owns hostId s.dirs id = false

/-- The part of a step that the rows of pgcluster-admin can tell. -/
structure HostEffect (hostId : String) (s s' : HostState) : Prop where
  newest : s'.newest = s.newest
  directory : ∀ id, hasDirectory s'.dirs id = true →
    hasDirectory s.dirs id = true ∨ wantedBy s.newest id = true
  running : ∀ id ∈ s'.running, id ∈ s.running ∨ wantedBy s.newest id = true
  owned : ∀ id, owns hostId s.dirs id = true → owns hostId s'.dirs id = true
    ∨ wantedBy s.newest id = false ∧ hasDirectory s'.dirs id = false
  named : ∀ p', s'.process = some p' → ∀ id, Reports.names p'.status.instances id = true →
    wantedBy s.newest id = true
      ∨ ∃ p, s.process = some p ∧ Reports.names p.status.instances id = true
  status : ∀ p', s'.process = some p' → p'.reconciled = true → Ended hostId s' p'
    ∨ ∃ p, s.process = some p ∧ p.reconciled = true
      ∧ ∀ id, Reports.names p.status.instances id = true →
        Reports.names p'.status.instances id = true

theorem HostEffect.of_status (hp : s.process = some p) (hq : s'.process = some q)
    (hsame : q.status = p.status ∧ q.reconciled = p.reconciled) (hnewest : s'.newest = s.newest)
    (hdir : ∀ id, hasDirectory s'.dirs id → hasDirectory s.dirs id ∨ wantedBy s.newest id)
    (hrun : ∀ id ∈ s'.running, id ∈ s.running ∨ wantedBy s.newest id)
    (hown : ∀ id, owns hostId s.dirs id → owns hostId s'.dirs id
      ∨ wantedBy s.newest id = false ∧ hasDirectory s'.dirs id = false) :
    HostEffect hostId s s' := by
  refine ⟨hnewest, hdir, hrun, hown, fun p' hp' id hnames => ?_, fun p' hp' hrec => ?_⟩
  · cases hq.symm.trans hp'
    rw [hsame.1] at hnames
    exact .inr ⟨p, hp, hnames⟩
  · cases hq.symm.trans hp'
    refine .inr ⟨p, hp, hsame.2 ▸ hrec, fun id hnames => ?_⟩
    rw [hsame.1]
    exact hnames

theorem HostEffect.of_dirs (hp : s.process = some p) (hq : s'.process = some q)
    (hsame : q.status = p.status ∧ q.reconciled = p.reconciled) (hnewest : s'.newest = s.newest)
    (hdirs : s'.dirs = s.dirs) (hrunning : ∀ id ∈ s'.running, id ∈ s.running) :
    HostEffect hostId s s' := by
  refine .of_status hp hq hsame hnewest ?_ (fun id hid => .inl (hrunning id hid)) ?_
  · rw [hdirs]
    exact fun id hid => .inl hid
  · rw [hdirs]
    exact fun id hid => .inl hid

theorem unchanged_status (p : Process) (retry healthy : Bool) :
    (p.unchanged retry healthy).status = p.status
      ∧ (p.unchanged retry healthy).reconciled = p.reconciled := by
  unfold Process.unchanged
  split
  · split <;> exact ⟨rfl, rfl⟩
  · exact ⟨rfl, rfl⟩

/-- Marking a directory anew takes it from nobody. -/
theorem owns_write {generation : Int} (h : owns hostId dirs j) :
    owns hostId (writeApplied dirs id (some ⟨hostId, generation⟩)) j := by
  rw [owns, readApplied_write]
  split
  · simp
  · exact h

theorem HostOk.apply_effect {effect : ApplyEffect}
    (hp : s.process = some p) (hi : wantedBy s.newest i.id)
    (happly : s.applyPart hostId i.id effect = some s') : HostEffect hostId s s' := by
  obtain ⟨hprocess, -, -, -⟩ := applyPart_process happly
  have hp' := hprocess.trans hp
  cases effect with
  | prepare =>
    cases happly
    refine .of_status hp hp' ⟨rfl, rfl⟩ rfl (fun id hid => ?_) (fun _ h => .inl h) ?_
    · rcases hasDirectory_prepare.mp hid with rfl | hid
      · exact .inr hi
      · exact .inl hid
    · refine fun id hown => .inl ?_
      rw [owns, readApplied_prepare]
      exact hown
  | mark =>
    obtain ⟨-, rfl⟩ := ite_some_none_eq_some.mp happly
    refine .of_status hp hp' ⟨rfl, rfl⟩ rfl (fun id hid => .inl ?_) (fun _ h => .inl h)
      fun id hown => .inl (owns_write hown)
    exact (hasDirectory_write _).symm.trans hid
  | run running =>
    obtain ⟨-, rfl⟩ := ite_some_none_eq_some.mp happly
    refine .of_status hp hp' ⟨rfl, rfl⟩ rfl (fun _ h => .inl h) (fun id hid => ?_) fun _ h => .inl h
    cases running with
    | false => exact .inl (mem_filter.mp hid).1
    | true =>
      rcases mem_cons.mp hid with rfl | hid
      · exact .inr hi
      · exact .inl hid

theorem HostOk.effect (h : HostOk hostId s) (hcond : removesCleanly s l)
    (hl : ∀ state, l ≠ .changed state) (hs : s.step hostId l = some s') :
    HostEffect hostId s s' := by
  cases step_cases hs with
  | boot =>
    refine ⟨rfl, fun _ h => .inl h, fun _ h => .inl h, fun _ h => .inl h, ?_, ?_⟩
    · intro p' hp' id hnames
      cases hp'
      cases hnames
    · intro p' hp' hrec
      cases hp'
      cases hrec
  | crash =>
    exact ⟨rfl, fun _ h => .inl h, fun _ h => .inl h, fun _ h => .inl h,
      nofun, nofun⟩
  | changed _ _ state => exact (hl state rfl).elim
  | unchanged p retry healthy hp =>
    exact .of_dirs hp rfl (unchanged_status p retry healthy) rfl rfl fun _ h => h
  | save _ _ _ hp => exact .of_dirs hp rfl ⟨rfl, rfl⟩ rfl rfl fun _ h => h
  | enter p _ i _ hin hwork =>
    have hi : wantedBy s.newest i.id :=
      h.wanted_of_mem hin (by rw [hwork]; exact mem_cons_self)
    refine ⟨rfl, fun _ h => .inl h, fun _ h => .inl h, fun _ h => .inl h, ?_, ?_⟩
    · intro p' hp' id hnames
      cases hp'
      rcases Reports.names_orInsert.mp hnames with rfl | hnames
      · exact .inl hi
      · exact .inr ⟨p, hin.process, hnames⟩
    · intro p' hp' hrec
      cases hp'
      exact .inr ⟨p, hin.process, hrec, fun id hnames => Reports.names_orInsert.mpr (.inr hnames)⟩
  | apply _ _ _ _ _ _ _ hin hwork happly =>
    exact HostOk.apply_effect hin.process
      (h.wanted_of_mem hin (by rw [hwork]; exact mem_cons_self)) happly
  | applied _ _ _ _ _ _ _ hin _ happly =>
    obtain ⟨_, _, _, -, rfl | rfl, rfl⟩ := endApply_eq happly
    · exact .of_dirs hin.process rfl ⟨rfl, rfl⟩ rfl rfl fun _ h => h
    · refine .of_status hin.process rfl ⟨rfl, rfl⟩ rfl (fun id hid => .inl ?_)
        (fun _ h => .inl h) fun id hown => .inl (owns_write hown)
      exact (hasDirectory_write _).symm.trans hid
  | listed _ _ _ _ hin _ hlist =>
    obtain ⟨_, _, rfl, -⟩ := listed_eq hlist
    exact .of_dirs hin.process rfl ⟨rfl, rfl⟩ rfl rfl fun _ h => h
  | remove _ _ _ _ _ _ hin _ hremove =>
    obtain ⟨hprocess, hnewest, -⟩ := removePart_process hremove
    obtain ⟨hdirs, hrunning⟩ := removePart_dirs hcond hremove
    exact .of_dirs hin.process (hprocess.trans hin.process) ⟨rfl, rfl⟩ hnewest hdirs hrunning
  | removed p pass id _ _ _ hin hwork hremove =>
    obtain ⟨_, _, rfl, ⟨-, -, rfl⟩ | ⟨-, rfl⟩⟩ := endRemove_eq hremove
    · have hid : wantedBy s.newest id = false := by
        rw [h.wanted hin]
        exact (h.passes p pass hin).unwanted id (by rw [hwork]; exact mem_cons_self)
      refine .of_status hin.process rfl ⟨rfl, rfl⟩ rfl
        (fun j hj => .inl (hasDirectory_remove.mp hj).2) (fun _ h => .inl h) fun j hown => ?_
      by_cases hj : j = id
      · subst hj
        refine .inr ⟨hid, Bool.eq_false_iff.mpr fun hdir => ?_⟩
        exact (hasDirectory_remove.mp hdir).1 rfl
      · refine .inl ?_
        show Option.any _ (readApplied (removeDirectory s.dirs id) j)
        rw [readApplied_remove, if_neg hj]
        exact hown
    · exact .of_dirs hin.process rfl ⟨rfl, rfl⟩ rfl rfl fun _ h => h
  | finish p pass hin hwork =>
    have hkept := h.kept p pass hin
    refine ⟨rfl, fun _ h => .inl h, fun _ h => .inl h, fun _ h => .inl h, ?_, ?_⟩
    · intro p' hp' id hnames
      cases hp'
      refine .inl ?_
      rw [h.wanted hin]
      exact hkept.reports id hnames
    · intro _ hp' _
      cases hp'
      refine .inl ⟨fun id hwants => ?_, fun id hdir => ?_⟩
      · rw [show wantedBy _ id = _ from h.wanted hin id] at hwants
        obtain ⟨i, hi, rfl⟩ := DesiredState.wants_iff.mp hwants
        exact hkept.all_reported (by rw [hwork]; rfl) i hi
      · rw [show wantedBy _ id = _ from h.wanted hin id]
        rcases hkept.listed _ hwork id hdir with hwants | hmem | hnot
        · exact .inl hwants
        · cases hmem
        · exact .inr hnot

end Steps

end PgCluster.Host
