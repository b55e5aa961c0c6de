import PgCluster.CaHosts

/-!
# No host is locked out

The steps of the instance, and the result. A phase that goes wrong does so in
one of three ways, and each has its part in the condition: what the row says
of a host is not so, or a host comes in between the check and the next phase,
or another instance keeps to the phase before.
-/

namespace PgCluster.AdminCa

open View List Option
open Instance (apply load)

/-! ## Steps of the instance -/

section Instances

variable {w w' : View} {inst inst' : Instance} {x : Host} {r : Rotation}

theorem HostOk.view (h : HostOk w x) (hrelies : ∀ a, w'.Needs a → x.Relies a)
    (hnew : ∀ r', w'.row = some r' → (∃ r, w.row = some r ∧ r.new = r'.new) ∨ r'.new = w.fresh)
    (hfresh : w.fresh ≤ w'.fresh) (hcerts : ∀ c ∈ x.certs, w'.Accepts c)
    (henrolling : ∀ ca, x.enrolling.ca = some ca →
      ca = w'.base ∧ ∀ inst, w'.inst = some inst → inst.ca = w'.base) : HostOk w' x := by
  refine ⟨hrelies, fun r' hr' id hid hmem b hb => ?_,
    ⟨fun id hid c hc => Nat.lt_of_lt_of_le (h.fresh.1 id hid c hc) hfresh,
      fun b hb c hc => Nat.lt_of_lt_of_le (h.fresh.2 b hb c hc) hfresh⟩, hcerts, henrolling⟩
  rcases hnew r' hr' with ⟨r, hr, hsame⟩ | hfresh
  · rw [← hsame] at hmem ⊢
    exact h.new r hr id hid hmem b hb
  · -- nobody trusts a CA that has just been made
    have hlt := h.fresh.1 id hid r'.new hmem
    exact (Nat.lt_irrefl _ (hfresh ▸ hlt)).elim

theorem WorldOk.remember (hw : WorldOk w) (hok : InstanceOk w.row w.dir inst') :
    WorldOk { w with inst := some inst' } := by
  refine { hw with inst := fun k hk => ?_ }
  cases hk
  exact hok

theorem WorldOk.crash (hw : WorldOk w) : WorldOk { w with inst := none } :=
  { hw with inst := nofun }

theorem HostOk.crash (h : HostOk w x) : HostOk { w with inst := none } x := by
  refine h.view (fun a ha => h.relies a ?_) (fun r hr => .inl ⟨r, hr, rfl⟩) (Nat.le_refl _)
    (fun c hc => ⟨(h.certs c hc).signers, nofun, nofun⟩)
    fun ca hca => ⟨(h.enrolling ca hca).1, nofun⟩
  rcases ha with ha | ⟨_, hinst, -⟩
  · exact .inl ha
  · cases hinst

theorem HostOk.instance (h : HostOk w x) (hrelies : x.Relies inst.ca)
    (hcerts : ∀ c ∈ x.certs, c ∈ inst.trusted
      ∧ ∀ r, inst.advancing = .applied r → r.phase = .trim → c = r.new)
    (henrolling : ∀ ca, x.enrolling.ca = some ca → inst.ca = w.base) :
    HostOk { w with inst := some inst } x := by
  refine h.view (fun a ha => ?_) (fun r hr => .inl ⟨r, hr, rfl⟩) (Nat.le_refl _)
    (fun c hc => ⟨(h.certs c hc).signers, fun k hk => ?_, fun k r hk => ?_⟩)
    fun ca hca => ⟨(h.enrolling ca hca).1, fun k hk => ?_⟩
  · rcases ha with ha | ⟨k, hk, rfl⟩
    · exact h.relies a (.inl ha)
    · cases hk
      exact hrelies
  · cases hk
    exact (hcerts c hc).1
  · cases hk
    exact (hcerts c hc).2 r
  · cases hk
    exact henrolling ca hca

theorem HostOk.remember (h : HostOk w x) (hinst : w.inst = some inst) (hca : inst'.ca = inst.ca)
    (htrusted : ∀ c ∈ w.signers, c ∈ inst.trusted → c ∈ inst'.trusted)
    (happlied : ∀ r, inst'.advancing = .applied r → inst.advancing = .applied r) :
    HostOk { w with inst := some inst' } x := by
  refine h.instance (h.relies _ (.inr ⟨inst, hinst, hca⟩)) (fun c hc => ?_)
    fun ca hca' => hca.trans ((h.enrolling ca hca').2 inst hinst)
  have hc := h.certs c hc
  exact ⟨htrusted c hc.signers (hc.trusted inst hinst), fun r happ =>
    hc.applied inst r hinst (happlied r happ)⟩

theorem HostOk.boot (h : HostOk w x) (hca : inst.ca = w.base) (htrusted : inst.trusted = w.signers)
    (hidle : inst.advancing = .idle) : HostOk { w with inst := some inst } x := by
  refine h.instance (h.relies _ (.inl hca)) (fun c hc => ⟨?_, fun r happ => ?_⟩) fun _ _ => hca
  · rw [htrusted]
    exact (h.certs c hc).signers
  · rw [hidle] at happ
    cases happ

/-- While a rotation runs, nothing depends on what `ca_dir` has. -/
theorem HostOk.store (h : HostOk w x) (hr : w.row = some r) (dir : Ca) :
    HostOk { w with dir := dir } x := by
  have hbase : ({ w with dir := dir } : View).base = w.base := by simp only [base, hr, baseOf]
  have hsigners : ({ w with dir := dir } : View).signers = w.signers := by
    simp only [signers, hr, signersOf]
  refine h.view (fun a ha => h.relies a ?_) (fun r hr => .inl ⟨r, hr, rfl⟩) (Nat.le_refl _)
    (fun c hc => ⟨?_, (h.certs c hc).trusted, (h.certs c hc).applied⟩) fun ca hca => ?_
  · rcases ha with ha | ha
    · exact .inl (ha.trans hbase)
    · exact .inr ha
  · rw [hsigners]
    exact (h.certs c hc).signers
  · rw [hbase]
    exact h.enrolling ca hca

theorem WorldOk.insert (hw : WorldOk w) (hrow : w.row = none) (hinst : w.inst = some inst)
    (starts : List Start) : WorldOk ⟨some ⟨.trust, inst.ca, w.fresh⟩, w.dir,
      some { inst with starts := starts }, w.fresh + 1⟩ := by
  have hok := hw.inst inst hinst
  have hca : inst.ca = w.dir := by
    rcases hok.ca with hca | ⟨r, hr, -⟩
    · rw [hrow] at hca
      exact hca
    · rw [hrow] at hr
      cases hr
  have hlt : inst.ca < w.fresh := hca ▸ hw.fresh.1
  refine ⟨fun r hr _ => ?_, fun r hr htrim => ?_, fun r hr => ?_,
    ⟨Nat.lt_succ_of_lt hw.fresh.1, fun r hr => ?_⟩, fun k hk => ?_⟩
  · cases hr
    exact hca.symm
  · cases hr
    cases htrim
  · cases hr
    exact Nat.ne_of_lt hlt
  · cases hr
    exact ⟨Nat.lt_succ_of_lt hlt, Nat.lt_succ_self _⟩
  · cases hk
    have hidle : ∀ r, inst.advancing ≠ .looked r ∧ inst.advancing ≠ .checked r
        ∧ inst.advancing ≠ .applied r := by
      refine fun r => ⟨fun h => ?_, fun h => ?_, fun h => ?_⟩
      · exact nomatch hrow.symm.trans (hok.looked r h)
      · exact nomatch hrow.symm.trans (hok.checked r h)
      · obtain ⟨-, -, _, hr, -⟩ := hok.applied r h
        exact nomatch hrow.symm.trans hr
    exact ⟨hok.presented, hok.signs, .inl rfl, fun r h => ((hidle r).1 h).elim,
      fun r h => ((hidle r).2.1 h).elim, fun r h => ((hidle r).2.2 h).elim⟩

theorem HostOk.insert (hw : WorldOk w) (h : HostOk w x) (hrow : w.row = none)
    (hinst : w.inst = some inst) (starts : List Start) : HostOk
      ⟨some ⟨.trust, inst.ca, w.fresh⟩, w.dir, some { inst with starts := starts }, w.fresh + 1⟩
      x := by
  have hca : inst.ca = w.base := by
    rcases (hw.inst inst hinst).ca with hca | ⟨r, hr, -⟩
    · exact hca
    · rw [hrow] at hr
      cases hr
  refine h.view (fun a ha => h.relies a ?_) (fun r hr => ?_) (Nat.le_succ _) (fun c hc => ?_)
    fun ca hca' => ⟨(h.enrolling ca hca').1.trans hca.symm, fun k hk => ?_⟩
  · rcases ha with ha | ⟨k, hk, rfl⟩
    · exact .inl (ha.trans hca)
    · cases hk
      exact .inl hca
  · cases hr
    exact .inr rfl
  · have hc := h.certs c hc
    refine ⟨?_, fun k hk => ?_, fun k r hk => ?_⟩
    · have hbase : c = w.base := by
        have hmem := hc.signers
        simp only [signers, hrow, signersOf, mem_singleton] at hmem
        simpa only [base, hrow, baseOf] using hmem
      simp [signers, signersOf, hbase, hca]
    · cases hk
      exact hc.trusted inst hinst
    · cases hk
      exact hc.applied inst r hinst
  · cases hk
    rfl

theorem trusts_of_settled (hx : x.Shaped) (hsettled : settled r x)
    (hwaiting : waitingFor [x] r = []) (hphase : r.phase = .trust) {id : Identity}
    (hid : x.identity = some id) : id.trusts = r.bundle := by
  simp only [settled, hphase, Bool.and_eq_true, hid, all_some, decide_eq_true_eq] at hsettled
  simp only [waitingFor, hphase, hx.enrolled id hid, Bool.true_and, map_eq_nil_iff,
    filter_eq_nil_iff, mem_singleton, forall_eq, decide_eq_true_eq, not_not] at hwaiting
  exact Option.some.inj (hsettled.2.symm.trans hwaiting)

theorem certs_of_settled (hx : x.Shaped) (hsettled : settled r x)
    (hwaiting : waitingFor [x] r = []) (hphase : r.phase = .issue) {c : Ca} (hc : c ∈ x.certs) :
    c = r.new := by
  simp only [settled, hphase, Bool.and_eq_true, decide_eq_true_eq, List.all_eq_true] at hsettled
  obtain ⟨hidle, hcerts⟩ := hsettled
  have hid : x.identity ≠ none := by
    intro hnone
    rcases mem_certs.mp hc with ⟨id, hid, -⟩ | ⟨r, hr, -⟩ | hcert
    · exact nomatch hnone.symm.trans hid
    · exact nomatch (hx.absent hnone).2.symm.trans hr
    · rw [hidle] at hcert
      cases hcert
  obtain ⟨id, hid⟩ := ne_none_iff_exists'.mp hid
  simp only [waitingFor, hphase, hx.enrolled id hid, Bool.true_and, map_eq_nil_iff,
    filter_eq_nil_iff, mem_singleton, forall_eq, decide_eq_true_eq, not_not] at hwaiting
  exact Option.some.inj ((hcerts c hc).symm.trans hwaiting)

/-- The listeners go ahead to a phase that is yet to be written. -/
theorem InstanceOk.issue (hr : w.row = some r) (hphase : r.phase = .trust) :
    InstanceOk w.row w.dir { inst.apply { r with phase := .issue } with
      advancing := .applied { r with phase := .issue } } := by
  refine ⟨rfl, mem_cons_of_mem _ (mem_singleton_self _), .inr ⟨r, hr, hphase, rfl⟩,
    nofun, nofun, fun r' hr' => ?_⟩
  obtain rfl := Advancing.applied.inj hr'
  exact ⟨rfl, nofun, .trust, by rw [hr, ← hphase], .issue⟩

theorem InstanceOk.trim (hr : w.row = some r) (hphase : r.phase = .issue) {dir : Ca}
    {advancing : Advancing} (hadvancing : advancing = .idle
      ∨ advancing = .applied { r with phase := .trim } ∧ dir = r.new) :
    InstanceOk w.row dir { inst.apply { r with phase := .trim } with advancing := advancing } := by
  refine ⟨rfl, mem_singleton_self _, .inl ?_, fun r' hr' => ?_, fun r' hr' => ?_, fun r' hr' => ?_⟩
  · simp only [baseOf, hr, hphase, apply]
  · rcases hadvancing with rfl | ⟨rfl, -⟩ <;> cases hr'
  · rcases hadvancing with rfl | ⟨rfl, -⟩ <;> cases hr'
  · rcases hadvancing with rfl | ⟨rfl, hdir⟩
    · cases hr'
    · obtain rfl := Advancing.applied.inj hr'
      exact ⟨rfl, fun _ => hdir, .issue, by rw [hr, ← hphase], .trim⟩

theorem HostOk.issue (h : HostOk w x) (hx : x.Shaped) (hr : w.row = some r)
    (hphase : r.phase = .trust) (hsettled : settled r x) (hwaiting : waitingFor [x] r = [])
    (hca : inst.ca = r.new) (htrusted : inst.trusted = [r.old, r.new])
    (hissue : ∀ r', inst.advancing = .applied r' → r'.phase = .issue) :
    HostOk { w with inst := some inst } x := by
  have hnew : x.Relies r.new := by
    have hmem : ∀ id, x.identity = some id → r.new ∈ id.trusts := by
      intro id hid
      rw [trusts_of_settled hx hsettled hwaiting hphase hid]
      simp [Rotation.bundle, hphase]
    refine ⟨hmem, fun b hb => ?_⟩
    cases hid : x.identity with
    | none => exact ((hx.absent hid).1 b hb).elim
    | some id => exact h.new r hr id hid (hmem id hid) b hb
  have hidle : x.enrolling = .idle := by
    simp only [settled, Bool.and_eq_true, decide_eq_true_eq] at hsettled
    exact hsettled.1
  refine h.instance (hca ▸ hnew) (fun c hc => ⟨?_, fun r' happ htrim => ?_⟩) fun ca hca => ?_
  · have hsigners := (h.certs c hc).signers
    simp only [signers, signersOf, hr, hphase] at hsigners
    rw [htrusted]
    exact hsigners
  · rw [hissue r' happ] at htrim
    cases htrim
  · rw [hidle] at hca
    cases hca

theorem HostOk.trim (h : HostOk w x) (hx : x.Shaped) (hr : w.row = some r)
    (hphase : r.phase = .issue) (hsettled : settled r x) (hwaiting : waitingFor [x] r = [])
    (hca : inst.ca = r.new) (htrusted : inst.trusted = [r.new])
    (happlied : ∀ r', inst.advancing = .applied r' → r'.new = r.new) :
    HostOk { w with inst := some inst } x := by
  have hbase : inst.ca = w.base := by
    rw [hca]
    simp only [base, baseOf, hr, hphase]
  refine h.instance (h.relies _ (.inl hbase)) (fun c hc => ?_) fun _ _ => hbase
  obtain rfl := certs_of_settled hx hsettled hwaiting hphase hc
  refine ⟨?_, fun r' happ _ => (happlied r' happ).symm⟩
  rw [htrusted]
  exact mem_singleton_self _

theorem HostOk.writePhase (hw : WorldOk w) (h : HostOk w x) (hinst : w.inst = some inst)
    (happ : inst.advancing = .applied r) :
    HostOk { w with row := some r, inst := some { inst with advancing := .idle } } x := by
  obtain ⟨hca, -, _, hrow, hnext⟩ := (hw.inst inst hinst).applied r happ
  have hbase : ({ w with row := some r, inst := some { inst with advancing := .idle } } : View).base
      = inst.ca := by
    rw [hca]
    cases hphase : r.phase with
    | trust => rw [hphase] at hnext; cases hnext
    | issue | trim => simp only [base, baseOf, hphase]
  have hneeds : w.Needs inst.ca := .inr ⟨inst, hinst, rfl⟩
  refine h.view (fun a ha => ?_) (fun r' hr' => .inl ⟨_, hrow, ?_⟩) (Nat.le_refl _)
    (fun c hc => ⟨?_, fun k hk => ?_, fun k r' hk happ => ?_⟩) fun ca hca' => ⟨?_, fun k hk => ?_⟩
  · rcases ha with rfl | ⟨k, hk, rfl⟩
    · rw [hbase]
      exact h.relies _ hneeds
    · cases hk
      exact h.relies _ hneeds
  · cases hr'
    rfl
  · have hc := h.certs c hc
    cases hphase : r.phase with
    | trust => rw [hphase] at hnext; cases hnext
    | issue =>
      rw [hphase] at hnext
      cases hnext
      have hsigners := hc.signers
      simp only [signers, signersOf, hrow] at hsigners
      simp only [signers, signersOf, hphase]
      exact hsigners
    | trim => simp [signers, signersOf, hphase, hc.applied inst r hinst happ hphase]
  · cases hk
    exact (h.certs c hc).trusted inst hinst
  · cases hk
    cases happ
  · rw [hbase, (h.enrolling ca hca').1]
    exact ((h.enrolling ca hca').2 inst hinst).symm
  · cases hk
    exact hbase.symm

theorem WorldOk.writePhase (hw : WorldOk w) (hinst : w.inst = some inst)
    (happ : inst.advancing = .applied r) :
    WorldOk { w with row := some r, inst := some { inst with advancing := .idle } } := by
  have hok := hw.inst inst hinst
  obtain ⟨hca, hdir, phase, hrow, hnext⟩ := hok.applied r happ
  refine ⟨fun r' hr' htrust => ?_, fun r' hr' htrim => ?_, fun r' hr' => ?_,
    ⟨hw.fresh.1, fun r' hr' => ?_⟩, fun k hk => ?_⟩
  · cases hr'
    rw [htrust] at hnext
    cases hnext
  · cases hr'
    exact hdir htrim
  · cases hr'
    exact hw.distinct { r with phase := phase } hrow
  · cases hr'
    exact hw.fresh.2 { r with phase := phase } hrow
  · cases hk
    refine .of_idle rfl hok.presented hok.signs (.inl (hca.trans ?_))
    cases hphase : r.phase with
    | trust => rw [hphase] at hnext; cases hnext
    | issue | trim => simp only [baseOf, hphase]

theorem HostOk.endRotation (hw : WorldOk w) (h : HostOk w x) (hinst : w.inst = some inst)
    (hr : w.row = some r) (htrim : r.phase = .trim) :
    HostOk { w with row := none, inst := some { inst with advancing := .idle } } x := by
  have hdir := hw.trim r hr htrim
  have hbase : w.dir = w.base := by simp only [base, baseOf, hr, htrim, hdir]
  have hkept : HostOk { w with inst := some { inst with advancing := .idle } } x :=
    h.remember hinst rfl (fun _ _ h => h) fun _ h => by cases h
  refine hkept.view (fun a ha => hkept.relies a ?_) (fun _ h => by cases h) (Nat.le_refl _)
    (fun c hc => ⟨?_, (hkept.certs c hc).trusted, (hkept.certs c hc).applied⟩) fun ca hca => ?_
  · rcases ha with rfl | ha
    · exact .inl hbase
    · exact .inr ha
  · have hsigners := (h.certs c hc).signers
    simp only [signers, signersOf, hr, htrim, mem_singleton] at hsigners
    simp only [signers, signersOf, mem_singleton]
    exact hsigners.trans hdir.symm
  · obtain ⟨hca, hk⟩ := hkept.enrolling ca hca
    exact ⟨hca.trans hbase.symm, fun k hk' => (hk k hk').trans hbase.symm⟩

theorem WorldOk.endRotation (hw : WorldOk w) (hinst : w.inst = some inst)
    (hr : w.row = some r) (htrim : r.phase = .trim) :
    WorldOk { w with row := none, inst := some { inst with advancing := .idle } } := by
  have hok := hw.inst inst hinst
  refine ⟨nofun, nofun, nofun, ⟨hw.fresh.1, nofun⟩, fun k hk => ?_⟩
  cases hk
  refine .of_idle rfl hok.presented hok.signs (.inl ?_)
  rcases hok.ca with hca | ⟨_, hr', htrust, -⟩
  · simp only [baseOf, hr, htrim] at hca
    exact hca.trans (hw.trim r hr htrim).symm
  · cases hr.symm.trans hr'
    rw [htrim] at htrust
    cases htrust

end Instances

/-! ## Runs -/

structure RotationOk (st : State) : Prop where
  others : ∀ i, i ≠ 0 → st.instances i = none
  world : WorldOk st.view
  shaped : ∀ x ∈ st.hosts, x.Shaped
  hosts : ∀ x ∈ st.hosts, HostOk st.view x

section Runs

variable {st st' : State} {inst inst' : Instance} {r : Rotation}

theorem RotationOk.others_setInstance (hst : RotationOk st) :
    ∀ i, i ≠ 0 → (st.setInstance 0 inst).instances i = none := by
  intro i hi
  simp only [State.setInstance, Function.update_of_ne hi]
  exact hst.others i hi

theorem RotationOk.eq_zero (hst : RotationOk st) {i : Nat} (hi : st.instances i = some inst) :
    i = 0 := by
  by_contra hne
  rw [hst.others i hne] at hi
  cases hi

theorem RotationOk.memory (hst : RotationOk st) (hok : InstanceOk st.row (st.dirs 0) inst')
    (hhosts : ∀ x ∈ st.hosts, HostOk { st.view with inst := some inst' } x) :
    RotationOk (st.setInstance 0 inst') :=
  ⟨hst.others_setInstance, hst.world.remember hok, hst.shaped, hhosts⟩

theorem RotationOk.stored (hst : RotationOk st) (hr : st.row = some r)
    (hphase : r.phase ≠ .trust) (hok : InstanceOk st.row r.new inst')
    (hhosts : ∀ x ∈ st.hosts, HostOk { st.view with inst := some inst' } x) :
    RotationOk ((st.setInstance 0 inst').store 0 r.new) := by
  have hworld : WorldOk { st.view with dir := r.new, inst := some inst' } := by
    refine ⟨fun r' hr' htrust => ?_, fun r' hr' _ => ?_, hst.world.distinct,
      ⟨(hst.world.fresh.2 r hr).2, hst.world.fresh.2⟩, fun k hk => ?_⟩
    · cases hr.symm.trans hr'
      exact (hphase htrust).elim
    · cases hr.symm.trans hr'
      rfl
    · cases hk
      exact hok
  exact ⟨hst.others_setInstance, hworld, hst.shaped, fun x hx => (hhosts x hx).store hr r.new⟩

theorem waitingFor_of_mem {hosts : List Host} {x : Host} (hx : x ∈ hosts)
    (h : waitingFor hosts r = []) : waitingFor [x] r = [] := by
  simp only [waitingFor, map_eq_nil_iff, filter_eq_nil_iff, mem_singleton, forall_eq] at h ⊢
  exact h x hx

section

variable (hst : RotationOk st)
include hst

theorem RotationOk.applyNext (hinst : st.instances 0 = some inst)
    (hchecked : inst.advancing = .checked r) {stored : Bool}
    (hcond : (st.hosts.all (settled r) && decide (waitingFor st.hosts r = [])))
    (hs : st.applyNext 0 inst r stored = some st') : RotationOk st' := by
  have hr : st.view.row = some r := (hst.world.inst inst hinst).checked r hchecked
  simp only [Bool.and_eq_true, List.all_eq_true, decide_eq_true_eq] at hcond
  obtain ⟨hsettled, hwaiting⟩ := hcond
  cases hphase : r.phase with
  | trust =>
    simp only [State.applyNext, hphase, Option.some.injEq] at hs
    subst hs
    refine hst.memory (InstanceOk.issue hr hphase) fun x hx => ?_
    refine (hst.hosts x hx).issue (hst.shaped x hx) hr hphase (hsettled x hx)
      (waitingFor_of_mem hx hwaiting) rfl rfl fun r' hr' => ?_
    obtain rfl := Advancing.applied.inj hr'
    rfl
  | issue =>
    have hhost : ∀ x ∈ st.hosts, ∀ advancing : Advancing,
        (∀ r', advancing = .applied r' → r'.new = r.new) → HostOk { st.view with
          inst := some ({ inst.apply { r with phase := .trim } with advancing := advancing }) } x :=
      fun x hx advancing happ => (hst.hosts x hx).trim (hst.shaped x hx) hr hphase
        (hsettled x hx) (waitingFor_of_mem hx hwaiting) rfl rfl happ
    simp only [State.applyNext, hphase, Option.some.injEq] at hs
    cases stored with
    | false =>
      subst hs
      exact hst.memory (InstanceOk.trim (w := st.view) hr hphase (.inl rfl)) fun x hx =>
        hhost x hx .idle nofun
    | true =>
      subst hs
      refine hst.stored hr (by rw [hphase]; nofun)
        (.trim hr hphase (.inr ⟨rfl, rfl⟩)) fun x hx => hhost x hx _ fun r' hr' => ?_
      obtain rfl := Advancing.applied.inj hr'
      rfl
  | trim =>
    simp only [State.applyNext, hphase] at hs
    cases hs

theorem RotationOk.boot : RotationOk (st.boot 0) := by
  have hworld := hst.world
  unfold State.boot
  split
  · next hrow =>
    refine hst.memory (.of_idle rfl rfl (mem_singleton_self _) (.inl ?_)) fun x hx =>
      (hst.hosts x hx).boot ?_ ?_ rfl
    · rw [hrow]
      rfl
    · rw [base, show st.view.row = none from hrow]
      rfl
    · rw [signers, show st.view.row = none from hrow]
      rfl
  · next r hrow =>
    have hca : ((load (st.dirs 0)).apply r).ca = st.view.base := by
      cases hphase : r.phase with
      | trust =>
        simp only [apply, base, baseOf, State.view, hrow, hphase, load]
        exact hworld.trust r hrow hphase
      | issue | trim => simp only [apply, base, baseOf, State.view, hrow, hphase]
    have htrusted : ((load (st.dirs 0)).apply r).trusted = st.view.signers := by
      cases hphase : r.phase <;> simp only [apply, signers, signersOf, State.view, hrow, hphase]
    have hok : ∀ dir, baseOf st.row dir = st.view.base →
        InstanceOk st.row dir ((load (st.dirs 0)).apply r) := fun dir hdir =>
      .of_idle rfl rfl (by rw [hca, htrusted]; exact base_mem_signers) (.inl (hca.trans hdir.symm))
    have hhosts : ∀ x ∈ st.hosts, HostOk
        { st.view with inst := some ((load (st.dirs 0)).apply r) } x :=
      fun x hx => (hst.hosts x hx).boot hca htrusted rfl
    split
    · next htrim =>
      refine hst.stored hrow (fun htrust => ?_) (hok _ ?_) hhosts
      · rw [htrim] at htrust
        cases htrust
      · simp only [base, baseOf, State.view, hrow]
    · exact hst.memory (hok _ rfl) hhosts

theorem RotationOk.keep (hinst : st.instances 0 = some inst)
    (hlisteners : inst'.ca = inst.ca ∧ inst'.presented = inst.presented
      ∧ inst'.trusted = inst.trusted) (hlooked : ∀ r, inst'.advancing = .looked r → st.row = some r)
    (hchecked : ∀ r, inst'.advancing = .checked r → st.row = some r)
    (happlied : ∀ r, inst'.advancing = .applied r → inst.advancing = .applied r) :
    RotationOk (st.setInstance 0 inst') := by
  obtain ⟨hca, hpresented, htrusted⟩ := hlisteners
  have hok : InstanceOk st.row (st.dirs 0) inst := hst.world.inst inst hinst
  refine hst.memory ⟨?_, ?_, ?_, hlooked, hchecked, fun r hr => ?_⟩ fun x hx =>
    (hst.hosts x hx).remember hinst hca (fun _ _ h => htrusted ▸ h) happlied
  · rw [hpresented, hca]
    exact hok.presented
  · rw [hca, htrusted]
    exact hok.signs
  · rw [hca]
    exact hok.ca
  · rw [hca]
    exact hok.applied r (happlied r hr)

theorem RotationOk.startApply (hinst : st.instances 0 = some inst)
    (hr : st.row = some r) (starts : List Start) :
    RotationOk (st.setInstance 0 { inst.apply ⟨.trust, r.old, r.new⟩ with starts := starts }) := by
  have hok : InstanceOk st.row (st.dirs 0) inst := hst.world.inst inst hinst
  have hboth : ∀ c ∈ st.view.signers, c ∈ [r.old, r.new] := by
    intro c hc
    simp only [signers, signersOf, State.view, hr] at hc
    split at hc
    · exact mem_cons_of_mem _ hc
    · exact hc
  refine hst.memory ⟨rfl, ?_, hok.ca, hok.looked, hok.checked, hok.applied⟩ fun x hx =>
    (hst.hosts x hx).remember hinst rfl (fun c hc _ => hboth c hc) fun _ h => h
  rcases hok.ca with hca | ⟨_, hr', -, hca⟩
  · exact hboth _ (hca ▸ base_mem_signers)
  · cases hr.symm.trans hr'
    exact mem_cons_of_mem _ (mem_singleton.mpr hca)

theorem RotationOk.startInsert (hinst : st.instances 0 = some inst)
    (hrow : st.row = none) (starts : List Start) :
    RotationOk { st.setInstance 0 { inst with starts := starts } with
      row := some ⟨.trust, inst.ca, st.fresh⟩
      fresh := st.fresh + 1 } :=
  ⟨hst.others_setInstance, hst.world.insert hrow hinst starts, hst.shaped,
    fun x hx => (hst.hosts x hx).insert hst.world hrow hinst starts⟩

theorem RotationOk.crash :
    RotationOk { st with instances := Function.update st.instances 0 none } :=
  ⟨fun i hi => (Function.update_of_ne hi ..).trans (hst.others i hi), hst.world.crash, hst.shaped,
    fun x hx => (hst.hosts x hx).crash⟩

end

theorem Host.Shaped.register (name : String) : (Host.register name).Shaped :=
  ⟨nofun, fun _ => ⟨fun _ hb => not_mem_nil hb, rfl⟩, nofun, nofun, nofun⟩

theorem HostOk.register (w : View) (name : String) : HostOk w (.register name) :=
  ⟨fun _ _ => ⟨nofun, fun _ hb => (not_mem_nil hb).elim⟩, fun _ _ => nofun,
    ⟨nofun, fun _ hb => (not_mem_nil hb).elim⟩, fun _ hc => (not_mem_nil hc).elim, nofun⟩

theorem RotationOk.host (hst : RotationOk st) {name : String} {i : Nat} {act : HostAct}
    (hcond : orderly st (.host name i act))
    (hs : st.step (.host name i act) = some st') : RotationOk st' := by
  simp only [State.step] at hs
  split at hs
  · next x hfind =>
    obtain ⟨x', hact, rfl⟩ := map_eq_some_iff.mp hs
    have hx : x ∈ st.hosts := mem_of_find?_eq_some hfind
    have hname : x.name = name := by simpa using find?_some hfind
    have hacted := Host.act_cases hact
    have hk : ∀ inst, st.instances i = some inst → st.view.inst = some inst := by
      intro inst hi
      obtain rfl := hst.eq_zero hi
      exact hi
    have hrestart : act = .restart → x.saved = x.newest := by
      rintro rfl
      have hsaved := List.all_eq_true.mp hcond x hx
      simpa [hname] using hsaved
    have hfetch : act = .fetchCa → ∀ inst, st.instances i = some inst → inst.ca = st.view.base := by
      rintro rfl inst hi
      rcases (hst.world.inst inst (hk inst hi)).ca with hca | ⟨r, hr, htrust, hca⟩
      · exact hca
      · -- the instance would be ahead of the row
        simp only [orderly, show st.row = some r from hr, all_some, htrust, ne_eq,
          not_true, decide_false, Bool.false_or, hi, decide_eq_true_eq] at hcond
        exact (hst.world.distinct r hr (hcond.symm.trans hca)).elim
    have hmap : ∀ {P : Host → Prop}, (∀ y ∈ st.hosts, P y) → P x' →
        ∀ y ∈ st.hosts.map fun y => if y.name = name then x' else y, P y := by
      intro P hall hP y hy
      obtain ⟨z, hz, rfl⟩ := List.mem_map.mp hy
      split
      · exact hP
      · exact hall z hz
    have hshaped := hst.shaped x hx
    exact ⟨hst.others, hst.world, hmap hst.shaped (hshaped.acted hrestart hacted),
      hmap hst.hosts ((hst.hosts x hx).acted hst.world hshaped hk hfetch hrestart hacted)⟩
  · cases hs

/-- Only instance 0 takes a step. -/
theorem RotationOk.single (hst : RotationOk st) {i : Nat} {f : Instance → Option State}
    (hbind : (st.instances i).bind f = some st') :
    ∃ inst, st.instances 0 = some inst ∧ i = 0 ∧ f inst = some st' := by
  obtain ⟨inst, hinst, hs⟩ := bind_eq_some_iff.mp hbind
  obtain rfl := hst.eq_zero hinst
  exact ⟨inst, hinst, rfl, hs⟩

section

variable (hst : RotationOk st) {i : Nat}
include hst

theorem RotationOk.step_startInsert {ca : Ca} (hcond : orderly st (.startInsert i ca))
    (hs : st.step (.startInsert i ca) = some st') : RotationOk st' := by
  obtain ⟨inst, hinst, rfl, hs⟩ := hst.single hs
  obtain ⟨-, hs⟩ := ite_none_right_eq_some.mp hs
  have hok := hst.world.inst inst hinst
  split at hs
  · next hrow =>
    cases hs
    simp only [orderly, hinst, all_some, decide_eq_true_eq] at hcond
    subst hcond
    exact hst.startInsert hinst hrow _
  · cases hs
    exact hst.keep hinst ⟨rfl, rfl, rfl⟩ hok.looked hok.checked fun _ h => h

theorem RotationOk.step_check (hs : st.step (.check i) = some st') : RotationOk st' := by
  obtain ⟨inst, hinst, rfl, hs⟩ := hst.single hs
  simp only [State.instanceStep] at hs
  split at hs
  · next r hlooked =>
    cases hs
    have hrow := (hst.world.inst inst hinst).looked r hlooked
    refine hst.keep hinst ⟨rfl, rfl, rfl⟩ (fun r' hr' => ?_) (fun r' hr' => ?_) fun r' hr' => ?_
    · split at hr' <;> cases hr'
    · split at hr'
      · obtain rfl := Advancing.checked.inj hr'
        exact hrow
      · cases hr'
    · split at hr' <;> cases hr'
  · cases hs

theorem RotationOk.step_writePhase (hs : st.step (.writePhase i) = some st') : RotationOk st' := by
  obtain ⟨inst, hinst, rfl, hs⟩ := hst.single hs
  simp only [State.instanceStep] at hs
  split at hs
  · next r happ =>
    obtain ⟨-, -, _, hrow, -⟩ := (hst.world.inst inst hinst).applied r happ
    rw [show st.row = _ from hrow] at hs
    cases hs
    exact ⟨hst.others_setInstance, hst.world.writePhase hinst happ, hst.shaped, fun x hx =>
      (hst.hosts x hx).writePhase hst.world hinst happ⟩
  · cases hs

theorem RotationOk.step_endRotation (hs : st.step (.endRotation i) = some st') :
    RotationOk st' := by
  obtain ⟨inst, hinst, rfl, hs⟩ := hst.single hs
  simp only [State.instanceStep] at hs
  split at hs
  · next r hchecked =>
    obtain ⟨htrim, rfl⟩ := ite_some_none_eq_some.mp hs
    have hrow := (hst.world.inst inst hinst).checked r hchecked
    exact ⟨hst.others_setInstance, hst.world.endRotation hinst hrow htrim, hst.shaped, fun x hx =>
      (hst.hosts x hx).endRotation hst.world hinst hrow htrim⟩
  · cases hs

end

theorem RotationOk.step (hst : RotationOk st) {l : Label} (hcond : orderly st l)
    (hs : st.step l = some st') : RotationOk st' := by
  cases l with
  | register name =>
    obtain ⟨-, hs⟩ := ite_none_left_eq_some.mp hs
    cases hs
    exact ⟨hst.others, hst.world, forall_mem_cons.mpr ⟨.register name, hst.shaped⟩,
      forall_mem_cons.mpr ⟨.register st.view name, hst.hosts⟩⟩
  | delete =>
    cases hs
    exact ⟨hst.others, hst.world, fun x hx => hst.shaped x (mem_filter.mp hx).1,
      fun x hx => hst.hosts x (mem_filter.mp hx).1⟩
  | boot i =>
    obtain ⟨-, rfl⟩ := ite_some_none_eq_some.mp hs
    obtain rfl : i = 0 := of_decide_eq_true hcond
    exact hst.boot
  | host => exact hst.host hcond hs
  | crash =>
    obtain ⟨inst, hinst, rfl, hs⟩ := hst.single hs
    cases hs
    exact hst.crash
  | startLook =>
    obtain ⟨inst, hinst, rfl, hs⟩ := hst.single hs
    obtain ⟨-, rfl⟩ := ite_some_none_eq_some.mp hs
    have hok := hst.world.inst inst hinst
    exact hst.keep hinst ⟨rfl, rfl, rfl⟩ hok.looked hok.checked fun _ h => h
  | startInsert => exact hst.step_startInsert hcond hs
  | startApply =>
    obtain ⟨inst, hinst, rfl, hs⟩ := hst.single hs
    obtain ⟨-, rfl⟩ := ite_some_none_eq_some.mp hs
    obtain ⟨r, hr, hsame⟩ := (Option.any_eq_true _ _).mp hcond
    simp only [Bool.and_eq_true, decide_eq_true_eq] at hsame
    obtain ⟨rfl, rfl⟩ := hsame
    exact hst.startApply hinst hr _
  | startFailed =>
    obtain ⟨inst, hinst, rfl, hs⟩ := hst.single hs
    cases hs
    have hok := hst.world.inst inst hinst
    exact hst.keep hinst ⟨rfl, rfl, rfl⟩ hok.looked hok.checked fun _ h => h
  | look =>
    obtain ⟨inst, hinst, rfl, hs⟩ := hst.single hs
    simp only [State.instanceStep] at hs
    split at hs
    · next r hrow _ =>
      cases hs
      refine hst.keep hinst ⟨rfl, rfl, rfl⟩ (fun r' hr' => ?_) nofun nofun
      obtain rfl := Advancing.looked.inj hr'
      exact hrow
    · cases hs
  | check => exact hst.step_check hs
  | applyNext =>
    obtain ⟨inst, hinst, rfl, hs⟩ := hst.single hs
    simp only [State.instanceStep] at hs
    split at hs
    · next r hchecked =>
      simp only [orderly, hinst, all_some, hchecked] at hcond
      exact hst.applyNext hinst hchecked hcond hs
    · cases hs
  | writePhase => exact hst.step_writePhase hs
  | endRotation => exact hst.step_endRotation hs
  | advanceFailed =>
    obtain ⟨_, hinst, rfl, hs⟩ := hst.single hs
    cases hs
    exact hst.keep hinst ⟨rfl, rfl, rfl⟩ nofun nofun nofun

end Runs

theorem RotationOk.init : RotationOk .init := by
  refine ⟨fun _ _ => rfl, ⟨fun r hr => ?_, fun r hr => ?_, fun r hr => ?_,
    ⟨Nat.one_pos, fun r hr => ?_⟩, fun inst hinst => ?_⟩, fun x hx => ?_, fun x hx => ?_⟩
  · cases hr
  · cases hr
  · cases hr
  · cases hr
  · cases hinst
  · cases hx
  · cases hx

/-- In an orderly run, no enrolled host is locked out in any phase of any
rotation. -/
theorem no_host_locked_out {st : State}
    (h : rotationMachine.Reaches (fun st l => orderly st l = true) st) : NoneLockedOut st := by
  have hst : RotationOk st := h.invariant RotationOk.init
    fun _ _ _ hst hcond hs => hst.step hcond hs
  intro i inst hinst x hx _ id hid
  obtain rfl := hst.eq_zero hinst
  have hhost := hst.hosts x hx
  refine ⟨?_, ?_⟩
  · rw [(hst.world.inst inst hinst).presented]
    exact (hhost.relies _ (.inr ⟨inst, hinst, rfl⟩)).trusts id hid
  · exact (hhost.certs id.cert (mem_certs.mpr (.inl ⟨id, hid, rfl⟩))).trusted inst hinst

def enrolls (ca : Ca) (i : Nat) : List Label :=
  .register "h1" :: ([.newToken ca, .fetchCa, .connect, .sign, .commit, .enrolled].map
    (.host "h1" i))

def starts (old new : Ca) : List Label := [.startLook 0, .startInsert 0 old, .startApply 0 old new]

def follows (bundle : Bundle) : List Label :=
  [.desiredState, .received true, .publish true, .report, .reported bundle].map (.host "h1" 0)

def advances : List Label := [.look 0, .check 0, .applyNext 0 true, .writePhase 0]

def renews : List Label := [.renew, .record, .renewed true].map (.host "h1" 0)

/-- A whole rotation, with a restart on either side. -/
def rotationRun : List Label :=
  (.boot 0 :: enrolls 0 0 : List Label) ++ starts 0 1 ++ follows [1, 0]
    ++ ([.host "h1" 0 .restart, .crash 0, .boot 0, .host "h1" 0 (.publish true)] : List Label)
    ++ advances ++ follows [1, 0] ++ renews ++ advances ++ follows [1]
    ++ ([.look 0, .check 0, .endRotation 0, .crash 0, .boot 0] : List Label)

theorem no_host_locked_out_rotated :
    ∃ st, rotationMachine.Reaches (fun st l => orderly st l = true) st ∧ st.row = none
      ∧ st.hosts.map (·.identity) = [some ⟨[1], 1⟩]
      ∧ st.instances 0 = some (.load 1) ∧ NoneLockedOut st := by
  obtain ⟨st, hst, h⟩ := rotationMachine.exists_run rotationRun
    (fun st => st.row = none ∧ st.hosts.map (·.identity) = [some ⟨[1], 1⟩]
      ∧ st.instances 0 = some (.load 1)) (by decide +kernel)
  have hr := Machine.reaches_of_run (G := fun st l => orderly st l = true) (by decide +kernel) hst
  exact ⟨st, hr, h.1, h.2.1, h.2.2, no_host_locked_out hr⟩

/-- The second instance does not hear of the rotation, and does not take the
certificate that the first has issued. -/
def twoInstancesRun : List Label :=
  ([.boot 0, .boot 1] : List Label) ++ enrolls 0 0 ++ starts 0 1 ++ follows [1, 0] ++ advances
    ++ renews

/-- The response to a renewal is lost once it is recorded. -/
def lostResponseRun : List Label :=
  (.boot 0 :: enrolls 0 0 : List Label) ++ starts 0 1 ++ follows [1, 0] ++ advances
    ++ ([.renew, .record, .renewFailed].map (.host "h1" 0) : List Label) ++ advances

/-- A host enrols after the check of a phase and before its end. -/
def lateEnrolmentRun : List Label :=
  (.boot 0 :: starts 0 1 : List Label) ++ ([.look 0, .check 0] : List Label) ++ enrolls 0 0
    ++ ([.applyNext 0 true] : List Label)

def lockedOut (st : State) (i : Nat) : Bool :=
  (st.instances i).any fun inst => st.hosts.any fun h => h.enrolled && h.identity.any fun id =>
    inst.presented ∉ id.trusts || id.cert ∉ inst.trusted

theorem not_noneLockedOut (i : Nat) (st : State) (h : lockedOut st i) : ¬ NoneLockedOut st := by
  intro hall
  obtain ⟨inst, hinst, h⟩ := (Option.any_eq_true _ _).mp h
  obtain ⟨x, hx, h⟩ := List.any_eq_true.mp h
  obtain ⟨henrolled, h⟩ := Bool.and_eq_true_iff.mp h
  obtain ⟨id, hid, h⟩ := (Option.any_eq_true _ _).mp h
  obtain ⟨htrusts, hcert⟩ := hall i inst hinst x hx henrolled id hid
  simp [htrusts, hcert] at h

theorem rotation_locks_host_out :
    (∃ st, rotationMachine.run twoInstancesRun = some st ∧ rotationMachine.Reachable st
      ∧ ¬ NoneLockedOut st)
    ∧ (∃ st, rotationMachine.run lostResponseRun = some st ∧ rotationMachine.Reachable st
      ∧ ¬ NoneLockedOut st)
    ∧ ∃ st, rotationMachine.run lateEnrolmentRun = some st ∧ rotationMachine.Reachable st
      ∧ ¬ NoneLockedOut st :=
  ⟨Machine.exists_of_run (by decide +kernel) (not_noneLockedOut 1),
    Machine.exists_of_run (by decide +kernel) (not_noneLockedOut 0),
    Machine.exists_of_run (by decide +kernel) (not_noneLockedOut 0)⟩

end PgCluster.AdminCa
