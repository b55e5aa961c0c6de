import PgCluster.CaRotation

/-!
# What a host needs during a rotation

With one instance, a rotation comes down to the row, the CA in `ca_dir` and
what the instance has in memory, which may be one phase ahead of the row.
`View.base` is the CA that a restart would present. The invariant says of each
host that it relies on that CA and on the one presented now, whatever answers
are still to come, and that its certificates are taken on either side of a
restart. This file has the host's side: an act of a host keeps it.
-/

namespace PgCluster.AdminCa

open Option

/-! ## What hosts are measured against -/

structure View where
  row : Option Rotation
  dir : Ca
  inst : Option Instance
  fresh : Ca

def State.view (st : State) : View := ⟨st.row, st.dirs 0, st.instances 0, st.fresh⟩

/-- The CA presented after a restart. -/
def baseOf (row : Option Rotation) (dir : Ca) : Ca :=
  match row with
  | none => dir
  | some r => match r.phase with
    | .trust => r.old
    | _ => r.new

/-- Whose client certificates are taken after a restart. -/
def signersOf (row : Option Rotation) (dir : Ca) : List Ca :=
  match row with
  | none => [dir]
  | some r => match r.phase with
    | .trim => [r.new]
    | _ => [r.old, r.new]

namespace View

def base (w : View) : Ca := baseOf w.row w.dir

def signers (w : View) : List Ca := signersOf w.row w.dir

/-- A CA that is presented, now or after a restart. -/
def Needs (w : View) (a : Ca) : Prop := a = w.base ∨ ∃ inst, w.inst = some inst ∧ a = inst.ca

/-- A client certificate of this CA is taken now and after a restart, and by
the phase to come once it is applied. -/
structure Accepts (w : View) (c : Ca) : Prop where
  signers : c ∈ w.signers
  trusted : ∀ inst, w.inst = some inst → c ∈ inst.trusted
  applied : ∀ inst r, w.inst = some inst → inst.advancing = .applied r → r.phase = .trim → c = r.new

end View

inductive Next : Phase → Phase → Prop
  | issue : Next .trust .issue
  | trim : Next .issue .trim

structure InstanceOk (row : Option Rotation) (dir : Ca) (inst : Instance) : Prop where
  presented : inst.presented = inst.ca
  signs : inst.ca ∈ inst.trusted
  ca : inst.ca = baseOf row dir ∨ ∃ r, row = some r ∧ r.phase = .trust ∧ inst.ca = r.new
  looked : ∀ r, inst.advancing = .looked r → row = some r
  checked : ∀ r, inst.advancing = .checked r → row = some r
  applied : ∀ r, inst.advancing = .applied r → inst.ca = r.new ∧ (r.phase = .trim → dir = r.new)
    ∧ ∃ phase, row = some { r with phase := phase } ∧ Next phase r.phase

theorem InstanceOk.of_idle {row : Option Rotation} {dir : Ca} {inst : Instance}
    (hidle : inst.advancing = .idle) (hpresented : inst.presented = inst.ca)
    (hsigns : inst.ca ∈ inst.trusted)
    (hca : inst.ca = baseOf row dir ∨ ∃ r, row = some r ∧ r.phase = .trust ∧ inst.ca = r.new) :
    InstanceOk row dir inst where
  presented := hpresented
  signs := hsigns
  ca := hca
  looked r hr := by
    rw [hidle] at hr
    cases hr
  checked r hr := by
    rw [hidle] at hr
    cases hr
  applied r hr := by
    rw [hidle] at hr
    cases hr

structure WorldOk (w : View) : Prop where
  trust : ∀ r, w.row = some r → r.phase = .trust → w.dir = r.old
  trim : ∀ r, w.row = some r → r.phase = .trim → w.dir = r.new
  distinct : ∀ r, w.row = some r → r.old ≠ r.new
  fresh : w.dir < w.fresh ∧ ∀ r, w.row = some r → r.old < w.fresh ∧ r.new < w.fresh
  inst : ∀ inst, w.inst = some inst → InstanceOk w.row w.dir inst

/-! ## Hosts -/

/-- The bundles that a host is about to trust, or would after a restart. -/
def Host.pending (x : Host) : List Bundle :=
  (x.answer.bind id).toList ++ x.publishing.toList ++ x.newest.toList

def Enrolling.ca : Enrolling → Option Ca
  | .idle => none
  | .fetched ca | .connected ca _ | .signed ca _ | .committed ca _ => some ca

/-- The host trusts the CA, and will after what is to come. -/
structure Host.Relies (x : Host) (a : Ca) : Prop where
  trusts : ∀ id, x.identity = some id → a ∈ id.trusts
  pending : ∀ b ∈ x.pending, a ∈ b

/-- What holds of a host wherever the rotation is. -/
structure Host.Shaped (x : Host) : Prop where
  publishing : ∀ b, x.publishing = some b → x.newest = some b ∧ x.answer = none
  absent : x.identity = none → (∀ b, b ∉ x.pending) ∧ x.renewal = none
  enrolled : ∀ id, x.identity = some id → x.enrolled = true
  committed : ∀ ca cert, x.enrolling = .committed ca cert → x.enrolled = true
  enrolling : ∀ ca, x.enrolling.ca = some ca → x.identity = none

structure HostOk (w : View) (x : Host) : Prop where
  relies : ∀ a, w.Needs a → x.Relies a
  new : ∀ r, w.row = some r → ∀ id, x.identity = some id → r.new ∈ id.trusts →
    ∀ b ∈ x.pending, r.new ∈ b
  fresh : (∀ id, x.identity = some id → ∀ c ∈ id.trusts, c < w.fresh)
    ∧ ∀ b ∈ x.pending, ∀ c ∈ b, c < w.fresh
  certs : ∀ c ∈ x.certs, w.Accepts c
  enrolling : ∀ ca, x.enrolling.ca = some ca →
    ca = w.base ∧ ∀ inst, w.inst = some inst → inst.ca = w.base

variable {w : View} {inst : Instance} {x x' : Host}

section Views

theorem WorldOk.base_lt (hw : WorldOk w) : w.base < w.fresh := by
  unfold View.base baseOf
  split
  · exact hw.fresh.1
  · next r hr =>
    split
    · exact (hw.fresh.2 r hr).1
    · exact (hw.fresh.2 r hr).2

theorem View.base_mem_signers : w.base ∈ w.signers := by
  unfold base signers baseOf signersOf
  split
  · exact List.mem_singleton_self _
  · next r _ => cases r.phase <;> simp

theorem WorldOk.accepts (hw : WorldOk w) (hinst : w.inst = some inst) : w.Accepts inst.ca := by
  have hok := hw.inst inst hinst
  refine ⟨?_, fun k hk => ?_, fun k r hk happlied _ => ?_⟩
  · rcases hok.ca with hca | ⟨r, hr, htrust, hca⟩
    · rw [hca]
      exact View.base_mem_signers
    · simp [View.signers, signersOf, hr, htrust, hca]
  · cases hinst.symm.trans hk
    exact hok.signs
  · cases hinst.symm.trans hk
    exact (hok.applied r happlied).1

theorem mem_bundle {r : Rotation} {c : Ca} (hc : c ∈ r.bundle) : c = r.new ∨ c = r.old := by
  cases hphase : r.phase <;> simp only [Rotation.bundle, hphase, List.mem_cons,
    List.not_mem_nil, or_false] at hc
  · exact hc
  · exact hc
  · exact .inl hc

theorem WorldOk.bundle (hw : WorldOk w) {r : Rotation} (hr : w.row = some r) {a : Ca}
    (ha : w.Needs a) : a ∈ r.bundle := by
  have hbase : w.base ∈ r.bundle := by
    cases hphase : r.phase <;> simp [View.base, baseOf, Rotation.bundle, hr, hphase]
  rcases ha with rfl | ⟨inst, hinst, rfl⟩
  · exact hbase
  · rcases (hw.inst inst hinst).ca with hca | ⟨_, hr', htrust, hca⟩
    · rw [hca]
      exact hbase
    · cases hr.symm.trans hr'
      simp [Rotation.bundle, htrust, hca]

theorem mem_certs {c : Ca} : c ∈ x.certs ↔ (∃ id, x.identity = some id ∧ id.cert = c)
    ∨ (∃ r, x.renewal = some r ∧ r.cert = c) ∨ x.enrolling.cert = some c := by
  simp [Host.certs]

theorem mem_pending {b : Bundle} : b ∈ x.pending ↔
    x.answer = some (some b) ∨ x.publishing = some b ∨ x.newest = some b := by
  simp [Host.pending, bind_eq_some_iff]

end Views

/-! ## One act of a host -/

inductive Host.Acted (row : Option Rotation) (k : Option Instance) (x : Host) :
    HostAct → Host → Prop
  | newToken (ca : Ca) : Acted row k x (.newToken ca) { x with token := some ca }
  | fetchCa (inst : Instance) : k = some inst → x.identity = none →
      Acted row k x .fetchCa { x with enrolling := .fetched inst.ca }
  | connect (ca : Ca) (i : Nat) : x.enrolling = .fetched ca →
      Acted row k x .connect { x with enrolling := .connected ca i }
  | sign (ca : Ca) (i : Nat) (inst : Instance) : x.enrolling = .connected ca i → k = some inst →
      Acted row k x .sign { x with enrolling := .signed ca inst.ca }
  | commit (ca cert : Ca) : x.enrolling = .signed ca cert → Acted row k x .commit
      { x with
        token := none, enrolled := true, certificateCa := some cert
        enrolling := .committed ca cert }
  | enrolled (ca cert : Ca) : x.enrolling = .committed ca cert → Acted row k x .enrolled
      { x with identity := some ⟨[ca], cert⟩, enrolling := .idle }
  | enrollFailed : Acted row k x .enrollFailed { x with enrolling := .idle }
  | desiredState (id : Identity) : x.identity = some id → x.publishing = none →
      Acted row k x .desiredState { x with answer := some (row.map Rotation.bundle) }
  | pollFailed : Acted row k x .pollFailed { x with answer := none }
  | received (ok : Bool) (bundle : Option Bundle) : x.answer = some bundle →
      Acted row k x (.received ok)
        { x with
          answer := none, publishing := bundle, newest := bundle
          saved := if ok then bundle else x.saved }
  | publish (ok : Bool) (bundle : Bundle) (id : Identity) : x.publishing = some bundle →
      x.identity = some id → Acted row k x (.publish ok)
        { x with
          publishing := none
          identity := some { id with trusts := if ok then bundle else id.trusts } }
  | renew (id : Identity) (inst : Instance) : x.identity = some id → k = some inst →
      Acted row k x .renew { x with renewal := some ⟨inst.ca, false⟩ }
  | record (cert : Ca) : x.renewal = some ⟨cert, false⟩ → Acted row k x .record
      { x with certificateCa := some cert, renewal := some ⟨cert, true⟩ }
  | renewed (ok : Bool) (cert : Ca) (id : Identity) : x.renewal = some ⟨cert, true⟩ →
      x.identity = some id → Acted row k x (.renewed ok)
        { x with
          renewal := none
          identity := some { id with cert := if ok then cert else id.cert } }
  | renewFailed : Acted row k x .renewFailed x.dropRenewal
  | recordLate (cert : Ca) : Acted row k x (.recordLate cert)
      { x with certificateCa := some cert, late := x.late.erase cert }
  | report (id : Identity) : x.identity = some id →
      Acted row k x .report { x with reports := id.trusts :: x.reports }
  | reported (bundle : Bundle) : Acted row k x (.reported bundle)
      { x with caFingerprint := some bundle, reports := x.reports.erase bundle }
  | restart (id : Identity) : x.identity = some id → Acted row k x .restart
      { x.dropRenewal with answer := none, publishing := x.saved }
  | reinstall : Acted row k x .reinstall { x.dropRenewal with
        identity := none, enrolling := .idle, answer := none, publishing := none
        newest := none, saved := none }

section Acts

variable {row : Option Rotation} {i : Nat} {k : Option Instance} {act : HostAct}

theorem Host.act_cases (hs : x.act row i k act = some x') : x.Acted row k act x' := by
  cases act <;> simp only [Host.act] at hs
  case newToken | enrollFailed | pollFailed | renewFailed | reinstall =>
    cases hs
    constructor
  case recordLate | reported =>
    obtain ⟨-, rfl⟩ := ite_some_none_eq_some.mp hs
    constructor
  case report | restart =>
    obtain ⟨_, hid, rfl⟩ := map_eq_some_iff.mp hs
    constructor
    exact hid
  case fetchCa =>
    split at hs
    · next hnone _ =>
      obtain ⟨-, rfl⟩ := ite_some_none_eq_some.mp hs
      exact .fetchCa _ rfl hnone
    · cases hs
  case connect =>
    split at hs
    · next h =>
      obtain ⟨-, rfl⟩ := ite_some_none_eq_some.mp hs
      exact .connect _ _ h
    · cases hs
  case sign =>
    split at hs
    · next h =>
      obtain ⟨-, rfl⟩ := ite_some_none_eq_some.mp hs
      exact .sign _ _ _ h rfl
    · cases hs
  case commit | enrolled | record =>
    split at hs
    · next h =>
      cases hs
      constructor
      exact h
    · cases hs
  case desiredState =>
    split at hs
    · next hid _ hpublishing _ =>
      cases hs
      exact .desiredState _ hid hpublishing
    · cases hs
  case received =>
    split at hs
    · next h =>
      cases hs
      exact .received _ _ h
    · cases hs
  case publish =>
    split at hs
    · next h hid =>
      cases hs
      exact .publish _ _ _ h hid
    · cases hs
  case renew =>
    split at hs
    · next hid _ _ _ =>
      cases hs
      exact .renew _ _ hid rfl
    · cases hs
  case renewed =>
    split at hs
    · next h hid =>
      cases hs
      exact .renewed _ _ _ h hid
    · cases hs

/-- The certificate is one that the host has already, or one that the
instance has just signed. -/
def Host.Signed (k : Option Instance) (x : Host) (c : Ca) : Prop :=
  c ∈ x.certs ∨ ∃ inst, k = some inst ∧ c = inst.ca

/-- An act that brings nothing new but a certificate. -/
structure Host.Brings (k : Option Instance) (x x' : Host) : Prop where
  identity : ∀ id', x'.identity = some id' →
    ∃ id, x.identity = some id ∧ id.trusts = id'.trusts ∧ x.Signed k id'.cert
  renewal : ∀ r, x'.renewal = some r → x.Signed k r.cert
  enrolling : ∀ ca, x'.enrolling.ca = some ca → x.enrolling.ca = some ca
  cert : ∀ c, x'.enrolling.cert = some c → x.Signed k c
  pending : ∀ b ∈ x'.pending, b ∈ x.pending

theorem Host.Brings.refl (x : Host) : x.Brings k x :=
  ⟨fun id h => ⟨id, h, rfl, .inl (mem_certs.mpr (.inl ⟨id, h, rfl⟩))⟩,
    fun r h => .inl (mem_certs.mpr (.inr (.inl ⟨r, h, rfl⟩))), fun _ h => h,
    fun _ h => .inl (mem_certs.mpr (.inr (.inr h))), fun _ h => h⟩

theorem Host.Shaped.acted (hx : x.Shaped) (hrestart : act = .restart → x.saved = x.newest)
    (hs : x.Acted row k act x') : x'.Shaped := by
  have hsome : ∀ id {P : Prop}, x.identity = some id → x.identity = none → P := by
    intro id P hid hnone
    rw [hid] at hnone
    cases hnone
  cases hs with
  | newToken | recordLate | report | reported => exact { hx with }
  | fetchCa _ _ hnone => exact { hx with committed := nofun, enrolling := fun _ _ => hnone }
  | connect ca _ h | sign ca _ _ h =>
    have hnone := hx.enrolling ca (by rw [h]; rfl)
    exact { hx with committed := nofun, enrolling := fun _ _ => hnone }
  | commit ca _ h =>
    have hnone := hx.enrolling ca (by rw [h]; rfl)
    exact ⟨hx.publishing, hx.absent, fun _ _ => rfl, fun _ _ _ => rfl, fun _ _ => hnone⟩
  | enrolled ca cert h =>
    exact ⟨hx.publishing, nofun, fun _ _ => hx.committed ca cert h, nofun, nofun⟩
  | enrollFailed => exact ⟨hx.publishing, hx.absent, hx.enrolled, nofun, nofun⟩
  | desiredState id hid hnone =>
    refine { hx with publishing := fun b hb => ?_, absent := hsome id hid }
    rw [hnone] at hb
    cases hb
  | pollFailed =>
    refine ⟨fun b hb => ⟨(hx.publishing b hb).1, rfl⟩, fun hnone => ⟨fun b hb => ?_, ?_⟩,
      hx.enrolled, hx.committed, hx.enrolling⟩
    · rcases mem_pending.mp hb with hb | hb
      · cases hb
      · exact (hx.absent hnone).1 b (mem_pending.mpr (.inr hb))
    · exact (hx.absent hnone).2
  | received _ _ hanswer =>
    refine ⟨fun b hb => ⟨hb, rfl⟩, fun hnone => ⟨fun b hb => ?_, (hx.absent hnone).2⟩,
      hx.enrolled, hx.committed, hx.enrolling⟩
    refine (hx.absent hnone).1 b (mem_pending.mpr (.inl ?_))
    rcases mem_pending.mp hb with hb | hb | hb
    · cases hb
    · exact hanswer.trans (congrArg some hb)
    · exact hanswer.trans (congrArg some hb)
  | publish _ _ id _ hid =>
    exact ⟨nofun, nofun, fun _ _ => hx.enrolled id hid, hx.committed,
      fun ca hca => hsome id hid (hx.enrolling ca hca)⟩
  | renewed _ _ id _ hid =>
    exact ⟨hx.publishing, nofun, fun _ _ => hx.enrolled id hid, hx.committed,
      fun ca hca => hsome id hid (hx.enrolling ca hca)⟩
  | renew id _ hid => exact { hx with absent := hsome id hid }
  | record _ hrenewal =>
    refine { hx with absent := fun hnone => ?_ }
    rw [(hx.absent hnone).2] at hrenewal
    cases hrenewal
  | renewFailed => exact { hx with absent := fun hnone => ⟨(hx.absent hnone).1, rfl⟩ }
  | restart id hid =>
    refine ⟨fun b hb => ⟨?_, rfl⟩, hsome id hid, hx.enrolled, hx.committed, hx.enrolling⟩
    exact (hrestart rfl).symm.trans hb
  | reinstall =>
    refine ⟨nofun, fun _ => ⟨fun b hb => ?_, rfl⟩, nofun, nofun, nofun⟩
    rcases mem_pending.mp hb with hb | hb | hb <;> cases hb

theorem HostOk.brings (hw : WorldOk w) (h : HostOk w x)
    (hk : ∀ inst, k = some inst → w.inst = some inst) (hb : x.Brings k x') : HostOk w x' := by
  have hsigned : ∀ c, x.Signed k c → w.Accepts c := by
    rintro c (hc | ⟨inst, hinst, rfl⟩)
    · exact h.certs c hc
    · exact hw.accepts (hk inst hinst)
  refine ⟨fun a ha => ⟨fun id' hid' => ?_, fun b hmem => ?_⟩, fun r hr id' hid' hnew b hmem => ?_,
    ⟨fun id' hid' => ?_, fun b hmem => h.fresh.2 b (hb.pending b hmem)⟩, fun c hc => ?_,
    fun ca hca => h.enrolling ca (hb.enrolling ca hca)⟩
  · obtain ⟨id, hid, htrusts, -⟩ := hb.identity id' hid'
    rw [← htrusts]
    exact (h.relies a ha).trusts id hid
  · exact (h.relies a ha).pending b (hb.pending b hmem)
  · obtain ⟨id, hid, htrusts, -⟩ := hb.identity id' hid'
    rw [← htrusts] at hnew
    exact h.new r hr id hid hnew b (hb.pending b hmem)
  · obtain ⟨id, hid, htrusts, -⟩ := hb.identity id' hid'
    rw [← htrusts]
    exact h.fresh.1 id hid
  · rcases mem_certs.mp hc with ⟨id', hid', rfl⟩ | ⟨r, hr, rfl⟩ | hc
    · obtain ⟨-, -, -, hcert⟩ := hb.identity id' hid'
      exact hsigned _ hcert
    · exact hsigned _ (hb.renewal r hr)
    · exact hsigned c (hb.cert c hc)

theorem HostOk.publish (h : HostOk w x) (hx : x.Shaped) {bundle : Bundle} {id : Identity}
    (hpublishing : x.publishing = some bundle) (hid : x.identity = some id) (ok : Bool) :
    HostOk w { x with
      publishing := none
      identity := some { id with trusts := if ok then bundle else id.trusts } } := by
  obtain ⟨hnewest, hanswer⟩ := hx.publishing bundle hpublishing
  have hbundle : bundle ∈ x.pending := mem_pending.mpr (.inr (.inl hpublishing))
  have hcoming : ∀ b, (b ∈ ({ x with publishing := none } : Host).pending) → b = bundle := by
    intro b hb
    rcases mem_pending.mp hb with hb | hb | hb
    · have hb : x.answer = some (some b) := hb
      rw [hanswer] at hb
      cases hb
    · cases hb
    · exact Option.some.inj (hb.symm.trans hnewest)
  refine ⟨fun a ha => ⟨fun id' hid' => ?_, fun b hb => ?_⟩, fun r hr id' hid' hnew b hb => ?_,
    ⟨fun id' hid' => ?_, fun b hb => ?_⟩, fun c hc => h.certs c ?_, h.enrolling⟩
  · cases hid'
    cases ok with
    | true => exact (h.relies a ha).pending bundle hbundle
    | false => exact (h.relies a ha).trusts id hid
  · rw [hcoming b hb]
    exact (h.relies a ha).pending bundle hbundle
  · cases hid'
    rw [hcoming b hb]
    cases ok with
    | true => exact hnew
    | false => exact h.new r hr id hid hnew bundle hbundle
  · cases hid'
    cases ok with
    | true => exact h.fresh.2 bundle hbundle
    | false => exact h.fresh.1 id hid
  · rw [hcoming b hb]
    exact h.fresh.2 bundle hbundle
  · rcases mem_certs.mp hc with ⟨_, hid', rfl⟩ | hc
    · cases hid'
      exact mem_certs.mpr (.inl ⟨id, hid, rfl⟩)
    · exact mem_certs.mpr (.inr hc)

theorem HostOk.answered (hw : WorldOk w) (h : HostOk w x) :
    HostOk w { x with answer := some (w.row.map Rotation.bundle) } := by
  have hcoming : ∀ b, b ∈ ({ x with answer := some (w.row.map Rotation.bundle) } : Host).pending →
      b ∈ x.pending ∨ ∃ r, w.row = some r ∧ b = r.bundle := by
    intro b hb
    rcases mem_pending.mp hb with hb | hb
    · obtain ⟨r, hr, rfl⟩ := map_eq_some_iff.mp (Option.some.inj hb)
      exact .inr ⟨r, hr, rfl⟩
    · exact .inl (mem_pending.mpr (.inr hb))
  refine ⟨fun a ha => ⟨(h.relies a ha).trusts, fun b hb => ?_⟩, fun r hr id hid hnew b hb => ?_,
    ⟨h.fresh.1, fun b hb => ?_⟩, h.certs, h.enrolling⟩
  · rcases hcoming b hb with hb | ⟨r, hr, rfl⟩
    · exact (h.relies a ha).pending b hb
    · exact hw.bundle hr ha
  · rcases hcoming b hb with hb | ⟨_, hr', rfl⟩
    · exact h.new r hr id hid hnew b hb
    · cases hr.symm.trans hr'
      cases hphase : r.phase <;> simp [Rotation.bundle, hphase]
  · rcases hcoming b hb with hb | ⟨r, hr, rfl⟩
    · exact h.fresh.2 b hb
    · intro c hc
      rcases mem_bundle hc with rfl | rfl
      · exact (hw.fresh.2 r hr).2
      · exact (hw.fresh.2 r hr).1

theorem HostOk.enrolled (hw : WorldOk w) (h : HostOk w x) (hx : x.Shaped) {ca cert : Ca}
    (henrolling : x.enrolling = .committed ca cert) (hnone : x.identity = none) :
    HostOk w { x with identity := some ⟨[ca], cert⟩, enrolling := .idle } := by
  obtain ⟨hbase, hca⟩ := h.enrolling ca (by rw [henrolling]; rfl)
  have hpending := (hx.absent hnone).1
  refine ⟨fun a ha => ⟨fun id hid => ?_, fun b hb => (hpending b hb).elim⟩,
    fun _ _ _ _ _ b hb => (hpending b hb).elim,
    ⟨fun id hid c hc => ?_, fun b hb => (hpending b hb).elim⟩, fun c hc => h.certs c ?_, nofun⟩
  · cases hid
    rcases ha with rfl | ⟨inst, hinst, rfl⟩
    · exact List.mem_singleton.mpr hbase.symm
    · exact List.mem_singleton.mpr ((hca inst hinst).trans hbase.symm)
  · cases hid
    rw [List.mem_singleton.mp hc, hbase]
    exact hw.base_lt
  · rcases mem_certs.mp hc with ⟨_, hid, rfl⟩ | hc | hbad
    · cases hid
      exact mem_certs.mpr (.inr (.inr (by rw [henrolling]; rfl)))
    · exact mem_certs.mpr (.inr (.inl hc))
    · cases hbad

/-- One act of a host keeps what is known of it, where a CA is fetched while
the instance is not ahead of the row, and a restart finds the newest state. -/
theorem HostOk.acted (hw : WorldOk w) (h : HostOk w x) (hx : x.Shaped)
    (hk : ∀ inst, k = some inst → w.inst = some inst)
    (hfetch : act = .fetchCa → ∀ inst, k = some inst → inst.ca = w.base)
    (hrestart : act = .restart → x.saved = x.newest)
    (hs : x.Acted w.row k act x') : HostOk w x' := by
  obtain ⟨hidentity, hrenewal, henrolling, hcert, hpending⟩ := Host.Brings.refl (k := k) x
  cases hs with
  | newToken | recordLate | report | reported =>
    exact h.brings hw hk ⟨hidentity, hrenewal, henrolling, hcert, hpending⟩
  | fetchCa inst hinst =>
    have hca := hfetch rfl inst hinst
    have hkept : HostOk w { x with enrolling := .idle } :=
      h.brings hw hk ⟨hidentity, hrenewal, nofun, nofun, hpending⟩
    refine ⟨fun a ha => ⟨(hkept.relies a ha).trusts, (hkept.relies a ha).pending⟩, hkept.new,
      hkept.fresh, hkept.certs, fun ca hca' => ?_⟩
    cases hca'
    refine ⟨hca, fun inst' hinst' => ?_⟩
    cases (hk inst hinst).symm.trans hinst'
    exact hca
  | connect _ _ hfetched =>
    exact h.brings hw hk
      ⟨hidentity, hrenewal, by rw [hfetched]; exact fun _ h => h, nofun, hpending⟩
  | sign _ _ inst hconnected hinst =>
    refine h.brings hw hk
      ⟨hidentity, hrenewal, by rw [hconnected]; exact fun _ h => h, fun c hc => ?_, hpending⟩
    exact .inr ⟨inst, hinst, (Option.some.inj hc).symm⟩
  | commit _ _ hsigned =>
    rw [hsigned] at henrolling hcert
    exact h.brings hw hk ⟨hidentity, hrenewal, by rw [hsigned]; exact henrolling, hcert, hpending⟩
  | enrolled ca _ hcommitted =>
    exact h.enrolled hw hx hcommitted (hx.enrolling ca (by rw [hcommitted]; rfl))
  | enrollFailed => exact h.brings hw hk ⟨hidentity, hrenewal, nofun, nofun, hpending⟩
  | desiredState => exact h.answered hw
  | pollFailed =>
    refine h.brings hw hk ⟨hidentity, hrenewal, henrolling, hcert, fun b hb => ?_⟩
    rcases mem_pending.mp hb with hb | hb
    · cases hb
    · exact mem_pending.mpr (.inr hb)
  | received _ _ hanswer =>
    refine h.brings hw hk ⟨hidentity, hrenewal, henrolling, hcert, fun b hb => ?_⟩
    rcases mem_pending.mp hb with hb | hb | hb
    · cases hb
    · exact mem_pending.mpr (.inl (hanswer.trans (congrArg some hb)))
    · exact mem_pending.mpr (.inl (hanswer.trans (congrArg some hb)))
  | publish ok _ _ hpublishing hid => exact h.publish hx hpublishing hid ok
  | renew _ inst _ hinst =>
    refine h.brings hw hk ⟨hidentity, fun r hr => ?_, henrolling, hcert, hpending⟩
    cases hr
    exact .inr ⟨inst, hinst, rfl⟩
  | record cert hsigned =>
    refine h.brings hw hk ⟨hidentity, fun r hr => ?_, henrolling, hcert, hpending⟩
    cases hr
    exact hrenewal ⟨cert, false⟩ hsigned
  | renewed ok _ id hsigned hid =>
    refine h.brings hw hk ⟨fun id' hid' => ⟨id, hid, ?_⟩, nofun, henrolling, hcert, hpending⟩
    cases hid'
    obtain ⟨_, _, -, hheld⟩ := hidentity id hid
    cases ok with
    | true => exact ⟨rfl, hrenewal _ hsigned⟩
    | false => exact ⟨rfl, hheld⟩
  | renewFailed => exact h.brings hw hk ⟨hidentity, nofun, henrolling, hcert, hpending⟩
  | restart =>
    refine h.brings hw hk ⟨hidentity, nofun, henrolling, hcert, fun b hb => ?_⟩
    rcases mem_pending.mp hb with hb | hb | hb
    · cases hb
    · exact mem_pending.mpr (.inr (.inr ((hrestart rfl).symm.trans hb)))
    · exact mem_pending.mpr (.inr (.inr hb))
  | reinstall =>
    refine h.brings hw hk ⟨nofun, nofun, nofun, nofun, fun b hb => ?_⟩
    rcases mem_pending.mp hb with hb | hb | hb <;> cases hb

end Acts

end PgCluster.AdminCa
