import PgCluster.HostAgent

/-!
# What the host agent erases

A reconcile erases the directories that the state it makes true does not
have. Within one life of the process that state is the newest one received;
a process that starts goes by the saved one. Saving may have failed, or the
process may have died before it, and then the reconcile it starts with
erases an instance that the newest state has.

In runs in which every start finds a saved state that has all instances on
disk which the newest has, nothing is erased that the newest state asks for.
-/

namespace PgCluster.Host

section Asked

variable {hostId : String} {s s' : HostState} {l : HostLabel} {p : Process} {id j : String}

/-- The state has every instance on disk that the newest received state has. -/
def Covers (hostId : String) (s : HostState) (state : DesiredState) : Prop :=
  ∀ newest, s.newest = some newest → ∀ i ∈ newest.instances,
    owns hostId s.dirs i.id = true → state.wants i.id = true

def Process.acting (p : Process) : Option DesiredState :=
  match p.phase with
  | .polling _ => p.desired
  | .saving state => some state
  | .reconciling pass => some pass.state

def ErasedUnasked (s : HostState) : Prop :=
  ∀ e ∈ s.erased, ∀ newest, e.newest = some newest → newest.wants e.id = false

structure Asked (hostId : String) (s : HostState) : Prop where
  erased : ErasedUnasked s
  covers : ∀ p, s.process = some p → ∀ state, p.acting = some state → Covers hostId s state
  passes : s.PassesOk

theorem InPass.acting {pass : Pass} (h : InPass s p pass) : p.acting = some pass.state := by
  rw [Process.acting, h.phase]

@[simp] theorem acting_boot (saved : Option DesiredState) :
    (Process.boot saved).acting = saved := by
  cases saved <;> rfl

theorem acting_unchanged {retry : Bool} (hphase : p.phase = .polling retry)
    (healthy : Bool) : (p.unchanged retry healthy).acting = p.acting := by
  have hbefore : p.acting = p.desired := by rw [Process.acting, hphase]
  unfold Process.unchanged
  split
  · next _ hdesired =>
    split
    · rw [hbefore, hdesired]
      rfl
    · rfl
  · rfl

theorem Covers.of_owns {state : DesiredState} (h : Covers hostId s state)
    (hnewest : s'.newest = s.newest) (howns : ∀ id, owns hostId s'.dirs id →
      owns hostId s.dirs id ∨ state.wants id) : Covers hostId s' state := by
  intro newest hn i hi hown
  rcases howns i.id hown with hown | hok
  · exact h newest (hnewest ▸ hn) i hi hown
  · exact hok

theorem applyPart_owns {effect : ApplyEffect}
    (h : s.applyPart hostId id effect = some s')
    (hown : owns hostId s'.dirs j) : owns hostId s.dirs j ∨ j = id := by
  cases effect with
  | prepare =>
    cases h
    rw [owns, readApplied_prepare] at hown
    exact .inl hown
  | mark =>
    obtain ⟨-, rfl⟩ := Option.ite_some_none_eq_some.mp h
    exact (owns_write_some hown).symm
  | run =>
    obtain ⟨-, rfl⟩ := Option.ite_some_none_eq_some.mp h
    exact .inl hown

theorem Asked.unasked (h : Asked hostId s) {pass : Pass}
    {rest : List String} (hin : InPass s p pass) (hwork : pass.work = .removing (id :: rest))
    (hown : owns hostId s.dirs id) :
    ∀ newest, s.newest = some newest → newest.wants id = false := by
  intro newest hn
  refine Bool.eq_false_iff.mpr fun hwants => ?_
  obtain ⟨i, hi, rfl⟩ := DesiredState.wants_iff.mp hwants
  have hnot := (h.passes p pass hin).unwanted i.id (by rw [hwork]; exact List.mem_cons_self)
  rw [h.covers p hin.process _ hin.acting newest hn i hi hown] at hnot
  cases hnot

theorem ErasedUnasked.snoc (h : ErasedUnasked s)
    (hid : ∀ newest, s.newest = some newest → newest.wants id = false)
    (herased : s'.erased = s.erased ++ [⟨id, s.newest⟩]) : ErasedUnasked s' := by
  intro e he
  rw [herased] at he
  rcases List.mem_append.mp he with he | he
  · exact h e he
  · obtain rfl := List.mem_singleton.mp he
    exact hid

/-- Where the process starts, the saved state, if there is one, has every
instance on disk that the newest received state has. -/
def startsCovered (hostId : String) (s : HostState) : HostLabel → Bool
  | .boot => s.saved.all fun saved => s.newest.all fun newest => newest.instances.all fun i =>
    !owns hostId s.dirs i.id || saved.wants i.id
  | _ => true

theorem covers_of_startsCovered (h : startsCovered hostId s .boot) {saved : DesiredState}
    (hsaved : s.saved = some saved) : Covers hostId s saved := by
  intro _ hn i hi hown
  simp only [startsCovered, hsaved, hn, Option.all_some, List.all_eq_true, Bool.or_eq_true,
    Bool.not_eq_true'] at h
  rcases h i hi with hnot | hok
  · rw [hown] at hnot
    cases hnot
  · exact hok

theorem Asked.step (h : Asked hostId s) (hcond : startsCovered hostId s l)
    (hs : s.step hostId l = some s') : Asked hostId s' := by
  have hstep := HostState.step_cases hs
  have hpasses := hstep.passesOk h.passes
  -- a step that keeps the directories and goes on by the same state
  have hsame : ∀ {p q}, s.process = some p → s'.process = some q → s'.erased = s.erased →
      s'.newest = s.newest → s'.dirs = s.dirs → q.acting = p.acting → Asked hostId s' := by
    intro p q hp hq herased hnewest hdirs hact
    refine ⟨?_, fun p' hp' state hstate => ?_, hpasses⟩
    · rw [ErasedUnasked, herased]
      exact h.erased
    · cases hq.symm.trans hp'
      rw [hact] at hstate
      refine (h.covers p hp state hstate).of_owns hnewest fun id hown => .inl ?_
      rw [← hdirs]
      exact hown
  -- one that stays in the reconcile
  have hgoOn : ∀ {p pass s₁ pass₁}, InPass s p pass → s' = s₁.goOn p pass₁ →
      pass₁.state = pass.state → s₁.newest = s.newest → ErasedUnasked s₁ →
      (∀ id, owns hostId s₁.dirs id →
        owns hostId s.dirs id ∨ pass.state.wants id) → Asked hostId s' := by
    rintro p pass _ pass₁ hin rfl hstate hnewest herased howns
    refine ⟨herased, fun p' hp' state hact => ?_, hpasses⟩
    cases hp'
    obtain rfl : pass₁.state = state := Option.some.inj hact
    rw [hstate]
    exact (h.covers p hin.process _ hin.acting).of_owns hnewest howns
  have hwants : ∀ {p pass i observed rest}, InPass s p pass →
      pass.work = .applying i observed rest → pass.state.wants i.id := by
    intro p pass i _ _ hin hwork
    refine DesiredState.wants_iff.mpr ⟨i, (h.passes p pass hin).wanted i ?_, rfl⟩
    rw [hwork]
    exact List.mem_cons_self
  cases hstep with
  | boot =>
    refine ⟨h.erased, fun p' hp' state hact => ?_, hpasses⟩
    cases hp'
    rw [acting_boot] at hact
    exact covers_of_startsCovered hcond hact
  | crash => exact ⟨h.erased, nofun, hpasses⟩
  | changed _ _ state =>
    refine ⟨h.erased, fun p' hp' state' hact => ?_, hpasses⟩
    cases hp'
    obtain rfl : state = state' := Option.some.inj hact
    rintro _ ⟨⟩ i hi -
    exact DesiredState.wants_iff.mpr ⟨i, hi, rfl⟩
  | unchanged _ _ healthy hp hphase =>
    exact hsame hp rfl rfl rfl rfl (acting_unchanged hphase healthy)
  | save _ _ _ hp hphase =>
    refine hsame hp rfl rfl rfl rfl ?_
    rw [Process.acting, Process.acting, hphase]
    rfl
  | enter _ _ _ _ hin | finish _ _ hin => exact hsame hin.process rfl rfl rfl rfl hin.acting.symm
  | apply p _ _ _ _ _ _ hin hwork happly =>
    obtain ⟨hprocess, hnewest, -, herased⟩ := HostState.applyPart_process happly
    refine ⟨?_, fun p' hp' state hact => ?_, hpasses⟩
    · rw [ErasedUnasked, herased]
      exact h.erased
    · rw [hprocess] at hp'
      cases hin.process.symm.trans hp'
      cases hin.acting.symm.trans hact
      refine (h.covers p hin.process _ hact).of_owns hnewest fun id hown => ?_
      rcases applyPart_owns happly hown with hown | rfl
      · exact .inl hown
      · exact .inr (hwants hin hwork)
  | applied _ _ _ _ _ _ _ hin hwork happly =>
    obtain ⟨_, _, _, -, hdirs, heq⟩ := HostState.endApply_eq happly
    refine hgoOn hin heq rfl rfl h.erased fun id hown => ?_
    rcases hdirs with rfl | rfl
    · exact .inl hown
    · rcases owns_write_some hown with rfl | hown
      · exact .inr (hwants hin hwork)
      · exact .inl hown
  | listed _ _ _ _ hin _ hlist =>
    obtain ⟨_, _, heq, -⟩ := HostState.listed_eq hlist
    exact hgoOn hin heq rfl rfl h.erased fun _ hown => .inl hown
  | remove _ _ _ _ effect _ hin hwork hremove =>
    obtain ⟨hprocess, hnewest, -⟩ := HostState.removePart_process hremove
    have hcovers : (∀ j, owns hostId s'.dirs j → owns hostId s.dirs j) →
        ErasedUnasked s' → Asked hostId s' := by
      refine fun howns herased => ⟨herased, fun p' hp' state hact => ?_, hpasses⟩
      rw [hprocess] at hp'
      exact (h.covers p' hp' state hact).of_owns hnewest fun j hown => .inl (howns j hown)
    cases effect with
    | stop =>
      obtain ⟨-, rfl⟩ := Option.ite_some_none_eq_some.mp hremove
      exact hcovers (fun _ hown => hown) h.erased
    | erase kept =>
      obtain ⟨hown, rfl⟩ := Option.ite_some_none_eq_some.mp hremove
      refine hcovers (fun j hj => ?_) (h.erased.snoc (h.unasked hin hwork hown) rfl)
      cases kept with
      | true => exact hj
      | false => exact owns_write_none hj
  | removed _ _ _ _ _ _ hin hwork hremove =>
    obtain ⟨_, _, heq, ⟨-, hown, rfl⟩ | ⟨-, rfl⟩⟩ := HostState.endRemove_eq hremove
    · exact hgoOn hin heq rfl rfl (h.erased.snoc (h.unasked hin hwork hown) rfl)
        fun j hj => .inl (owns_remove hj).2
    · exact hgoOn hin heq rfl rfl h.erased fun _ hown => .inl hown

end Asked

/-! ## Whole runs -/

/-- Whatever is erased, the newest state received so far did not ask for: in
every run in which every start finds a saved state that covers the newest. -/
theorem erases_only_unasked (hostId : String) (dirs : List Directory) {s : HostState}
    (hr : (hostMachine hostId dirs).Reaches (fun s l => startsCovered hostId s l = true) s) :
    ErasedUnasked s := by
  have h : Asked hostId s := hr.invariant
    ⟨nofun, nofun, fun _ _ hin => (nomatch hin.process)⟩
    fun _ _ _ hI hG hs => hI.step hG hs
  exact h.erased

def node1 : Instance := ⟨⟨"db", "n1", by decide⟩, 1⟩

/-- A state comes, is saved or not, and its instances are set up. -/
def receives (state : DesiredState) (saved : Bool) : List HostLabel :=
  ([.changed state, .save saved] : List HostLabel) ++ (state.instances.flatMap fun _ =>
      [.enter, .apply .prepare, .apply .mark, .apply (.run true), .applied .running] :
      List HostLabel)

/-- A node is set up, the process restarts, and the node is removed when a
state comes that does not have it. -/
def removalRun : List HostLabel :=
  (.boot :: receives ⟨1, [node1]⟩ true : List HostLabel)
    ++ ([.list (some ["db-n1"]), .finish, .crash, .boot] : List HostLabel)
    ++ ([.enter, .applied .running, .list (some ["db-n1"]), .finish] : List HostLabel)
    ++ receives ⟨2, []⟩ true
    ++ ([.list (some ["db-n1"]), .remove .stop, .removed .removed, .finish] : List HostLabel)

theorem erases_only_unasked_removal :
    ∃ s, (hostMachine "h1" []).Reaches (fun s l => startsCovered "h1" s l = true) s
      ∧ s.erased = [⟨"db-n1", some ⟨2, []⟩⟩] ∧ ErasedUnasked s := by
  obtain ⟨s, hs, herased⟩ := (hostMachine "h1" []).exists_run removalRun
    (fun s => s.erased = [⟨"db-n1", some ⟨2, []⟩⟩]) (by decide +kernel)
  have hr := Machine.reaches_of_run (G := fun s l => startsCovered "h1" s l = true)
    (by decide +kernel) hs
  exact ⟨s, hr, herased, erases_only_unasked "h1" [] hr⟩

/-- The state with the node could not be saved. After a restart the agent
goes by the state before, and erases the node. -/
def unsavedRun : List HostLabel :=
  (.boot :: receives ⟨1, []⟩ true : List HostLabel)
    ++ ([.list (some []), .finish] : List HostLabel) ++ receives ⟨2, [node1]⟩ false
    ++ ([.list (some ["db-n1"]), .finish, .crash, .boot] : List HostLabel)
    ++ ([.list (some ["db-n1"]), .remove .stop, .removed .removed] : List HostLabel)

theorem unsaved_state_erases_node :
    ∃ s, (hostMachine "h1" []).Reachable s ∧ ¬ ErasedUnasked s := by
  obtain ⟨s, hs, herased⟩ := (hostMachine "h1" []).exists_run unsavedRun
    (fun s => s.erased = [⟨"db-n1", some ⟨2, [node1]⟩⟩]) (by decide +kernel)
  refine ⟨s, Machine.reachable_of_run hs, fun h => ?_⟩
  have hnot := h ⟨"db-n1", some ⟨2, [node1]⟩⟩
    (by rw [herased]; exact List.mem_singleton_self _) _ rfl
  revert hnot
  decide

end PgCluster.Host
