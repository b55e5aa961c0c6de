import PgCluster.AdminLifecycle

/-!
# Databases that serve

A database is to serve once an `activate` step of one of its operations is
done. Its status is also set by the sweep, which only moves between the two
statuses of a serving database, and by failures: an operation of a kind that
does not bring a database up leaves it `degraded`.

Changes of the spec are accepted while a database is still being brought up,
and queue behind its creation. If the creation fails and a change behind it
fails too, the database is `degraded` without ever having been activated
(`Tables.failedBehind`). That is the one way around the activation.
-/

namespace PgCluster.Admin

open Claimed

/-! ## Rows -/

/-- The operations of a database that is up, or comes up meanwhile. -/
def Kind.ordinary (k : Kind) : Bool := !k.provisional && k ≠ .delete

/-- The operations that a database begins with. -/
def Kind.creates : Kind → Bool
  | .create | .createReplica => true
  | _ => false

variable {ω : Type} {X : Extension World Env Call} {F : Fleet} {H : Set Key} {c : Claimed}
  {o : Outcome} {r x y : OpRow} {k kind : Kind} {params : Params}

namespace OpRow

def activated (r : OpRow) : Bool := r.steps.any fun p => p.name = .activate && p.status = .done

def broke (r : OpRow) : Bool := r.steps.any (·.status = .failed)

theorem activated_iff : r.activated ↔ ∃ p ∈ r.steps, p.name = .activate ∧ p.status = .done := by
  simp [activated]

theorem broke_iff : r.broke ↔ ∃ p ∈ r.steps, p.status = .failed := by
  simp [broke]

end OpRow

def activates (ops : List OpRow) : Bool := ops.any (·.activated)

/-- The creation has failed, and so has an operation that was queued behind it. -/
def failsBehind (ops : List OpRow) : Bool :=
  ops.any fun r => r.kind.creates && r.broke
    && ops.any fun y => y.kind.ordinary && y.broke && r.seq < y.seq

namespace Tables

variable (s : Tables ω) (id : String)

def opsOf : List OpRow := s.operations.filter (·.database = id)

/-- An `activate` step of one of the database's operations has completed. -/
def activated : Bool := activates (s.opsOf id)

/-- The creation of the database has failed, and so has an operation that was
queued behind it. -/
def failedBehind : Bool := failsBehind (s.opsOf id)

variable {s id}

theorem mem_opsOf : r ∈ s.opsOf id ↔ r ∈ s.operations ∧ r.database = id := by
  simp [opsOf]

theorem activated_iff : s.activated id ↔ ∃ r ∈ s.operations, r.database = id ∧ r.activated := by
  simp [activated, activates, mem_opsOf, and_assoc]

theorem failedBehind_iff : s.failedBehind id ↔ ∃ r ∈ s.operations,
    (r.database = id ∧ r.kind.creates ∧ r.broke)
      ∧ ∃ y ∈ s.operations, (y.database = id ∧ y.kind.ordinary ∧ y.broke) ∧ r.seq < y.seq := by
  simp [failedBehind, failsBehind, mem_opsOf, and_assoc]

end Tables

theorem Kind.ordinary_iff : k.ordinary ↔ k.provisional = false ∧ k ≠ .delete := by
  simp [Kind.ordinary]

theorem Kind.ordinary_of_serving (h : k.statusOnFail.serving) : k.ordinary := by
  cases k <;> first | rfl | cases h

theorem Kind.statusOnFail_ordinary (h : k.ordinary) : k.statusOnFail = .degraded := by
  cases k <;> first | rfl | cases h

theorem Kind.creates_or_promotes (h : k.provisional) : k.creates ∨ k = .promoteReplica := by
  cases k <;> first | exact .inl rfl | exact .inr rfl | cases h

theorem Kind.provisional_last (h : k.provisional) :
    ∀ i < k.steps.length, ¬ i + 1 < k.steps.length → k.steps[i]? = some .activate := by
  cases k <;> first | decide | cases h

/-! ## What stays in the rows -/

section Rows

variable {s s' : Tables ω} {r' : OpRow} {p : StepRow}

theorem RowEvolves.step_mem (h : RowEvolves H r r') (hp : p ∈ r.steps)
    (hne : p.status ≠ .pending) : ∃ p' ∈ r'.steps, p'.name = p.name ∧ p'.status = p.status := by
  obtain ⟨i, hi⟩ := List.mem_iff_getElem?.mp hp
  obtain ⟨p', hp', hname, hstay, -⟩ := h.steps i p hi
  exact ⟨p', List.mem_of_getElem? hp', hname, hstay hne⟩

theorem RowEvolves.activated (h : RowEvolves H r r') (hr : r.activated) : r'.activated := by
  obtain ⟨p, hp, hname, hdone⟩ := OpRow.activated_iff.mp hr
  obtain ⟨p', hp', hname', hstatus⟩ := h.step_mem hp (by rw [hdone]; nofun)
  exact OpRow.activated_iff.mpr ⟨p', hp', hname'.trans hname, hstatus.trans hdone⟩

theorem RowEvolves.broke (h : RowEvolves H r r') (hr : r.broke) : r'.broke := by
  obtain ⟨p, hp, hfailed⟩ := OpRow.broke_iff.mp hr
  obtain ⟨p', hp', -, hstatus⟩ := h.step_mem hp (by rw [hfailed]; nofun)
  exact OpRow.broke_iff.mpr ⟨p', hp', hstatus.trans hfailed⟩

variable {id : String}

theorem Evolves.activated (h : Evolves H s s') (hs : s.activated id) : s'.activated id := by
  obtain ⟨r, hr, hdb, hact⟩ := Tables.activated_iff.mp hs
  obtain ⟨r', hr', hrow⟩ := h.old r hr
  exact Tables.activated_iff.mpr ⟨r', hr', hrow.database.trans hdb, hrow.activated hact⟩

theorem Evolves.failedBehind (h : Evolves H s s') (hnot : s'.failedBehind id = false) :
    s.failedBehind id = false := by
  refine Bool.eq_false_iff.mpr fun hs => Bool.eq_false_iff.mp hnot ?_
  obtain ⟨r, hr, ⟨hdb, hkind, hbroke⟩, y, hy, ⟨hydb, hykind, hybroke⟩, hlt⟩ :=
    Tables.failedBehind_iff.mp hs
  obtain ⟨r', hr', hrow⟩ := h.old r hr
  obtain ⟨y', hy', hyrow⟩ := h.old y hy
  refine Tables.failedBehind_iff.mpr ⟨r', hr', ⟨hrow.database.trans hdb, ?_, hrow.broke hbroke⟩,
    y', hy', ⟨hyrow.database.trans hydb, ?_, hyrow.broke hybroke⟩, ?_⟩
  · rw [hrow.kind, hkind]
  · rw [hyrow.kind, hykind]
  · rw [hrow.seq, hyrow.seq]
    exact hlt

theorem Claimed.settle_step (hp : r.steps[c.idx]? = some p) :
    ∃ p' ∈ (c.settle o r).steps, p'.name = p.name ∧ (c.mark o = .done → p'.status = .done)
      ∧ (c.mark o = .failed → p'.status = .failed) := by
  have hmod : ∀ (q : OpRow) (f : StepStatus → StepStatus), q.steps = r.steps →
      { p with status := f p.status, attempts := p.attempts + 1 }
        ∈ (q.modifyStep c.idx f).steps := by
    intro q f hq
    refine List.mem_of_getElem? (i := c.idx) ?_
    rw [OpRow.modifyStep_getElem?, hq, hp, Option.map_some, if_pos rfl]
  cases o with
  | done =>
    refine ⟨{ p with status := .done, attempts := p.attempts + 1 }, ?_, rfl, fun _ => rfl, nofun⟩
    unfold settle OpRow.finishStep
    dsimp only
    split <;> exact hmod { r with status := .running } (fun _ => .done) rfl
  | fail => exact ⟨_, hmod { r with status := .running } (fun _ => .failed) rfl, rfl, nofun,
      fun _ => rfl⟩
  | wait =>
    unfold settle mark
    cases c.pastDeadline with
    | true => exact ⟨_, hmod { r with status := .running } (fun _ => .failed) rfl, rfl, nofun,
        fun _ => rfl⟩
    | false => exact ⟨_, hmod { r with status := .running } (fun status => status) rfl, rfl,
        nofun, nofun⟩

theorem Claimed.settle_active (r : OpRow) (hmark : c.mark o ≠ .failed) :
    (c.settle o r).active ∨ (c.settle o r).status = .succeeded := by
  cases o with
  | done =>
    unfold settle OpRow.finishStep
    dsimp only
    split
    · exact .inl rfl
    · exact .inr rfl
  | fail => exact (hmark rfl).elim
  | wait =>
    unfold settle
    cases hlate : c.pastDeadline with
    | true => exact (hmark (if_pos hlate)).elim
    | false => exact .inl rfl

end Rows

/-! ## The invariant -/

/-- An operation that brings the database up was recorded earlier, and is
still active or has failed. -/
def Tables.Awaits {ω : Type} (s : Tables ω) (y : OpRow) : Prop :=
  ∃ r ∈ s.operations, (r.database = y.database ∧ r.kind.provisional = true)
    ∧ r.seq < y.seq ∧ (r.active = true ∨ r.broke = true)

structure Activation (s : Tables World) : Prop where
  lifecycle : Lifecycle s
  serving : ∀ id d, s.world.db? id = some d → d.status.serving = true →
    s.failedBehind id = false → s.activated id = true
  provisioning : ∀ id d, s.world.db? id = some d → d.status = .provisioning →
    ∃ r ∈ s.operations, r.database = id ∧ r.active = true ∧ r.kind.provisional = true
  promoted : ∀ r ∈ s.operations, r.kind = .promoteReplica → s.failedBehind r.database = false →
    s.activated r.database = true
  queued : ∀ y ∈ s.operations, y.active = true → y.kind.ordinary = true → ∀ d,
    s.world.db? y.database = some d → d.status.serving = true ∨ s.Awaits y

/-! ## Steps -/

section Steps

variable {a : Request Env Call} {e : Env} {s : Tables World} {w : World → World}

theorem Running.evolves (hrun : Running c s) (hledger : Ledger s) :
    Evolves Set.univ s (s.settle onFail c o w) := by
  obtain ⟨r, hc, hr⟩ := hrun
  exact .settle hledger hc hr (Set.mem_univ _) (Set.mem_univ _) onFail o w

/-- An active operation after a commit: it is still active, or it was the one
that ran and has failed or done its last step. -/
theorem active_of_settle (hledger : Ledger s) (hrun : Running c s)
    (hr : r ∈ s.operations) (hactive : r.active) :
    ∃ r' ∈ (s.settle onFail c o w).operations, RowEvolves Set.univ r r'
      ∧ (r'.active ∨ r.seq = c.op ∧ r.kind = c.kind ∧ (c.mark o = .failed ∧ r'.broke
        ∨ c.mark o = .done ∧ ¬ c.idx + 1 < c.kind.steps.length)) := by
  obtain ⟨y, hy⟩ := hrun.own hledger
  refine ⟨_, List.mem_map_of_mem hr, ?_⟩
  by_cases hseq : r.seq = c.op
  · obtain rfl := hledger.row_unique hr hy.mem (hseq.trans hy.seq.symm)
    rw [if_pos hseq]
    refine ⟨.settle hy.toClaims hactive (Set.mem_univ _) (Set.mem_univ _) o, ?_⟩
    obtain ⟨p, hp, -⟩ := hy.step
    obtain ⟨p', hp', -, -, hfailed⟩ := settle_step hp
    by_cases hmark : c.mark o = .failed
    · exact .inr ⟨hseq, hy.kind, .inl ⟨hmark, OpRow.broke_iff.mpr ⟨p', hp', hfailed hmark⟩⟩⟩
    rcases settle_active r hmark with hstill | hended
    · exact .inl hstill
    · have hlast := (hy.progress' o).succeeded hended
      rw [hy.length'] at hlast
      have hlt := (List.getElem?_eq_some_iff.mp hy.name).1
      split at hlast
      · next hdone => exact .inr ⟨hseq, hy.kind, .inr ⟨hdone, by omega⟩⟩
      · omega
  · rw [if_neg hseq]
    exact ⟨.refl _ r, .inl hactive⟩

/-- The operation that brings the database up is still active, has failed, or
has just activated the database. -/
theorem provisional_of_settle (hledger : Ledger s) (hrun : Running c s)
    (hr : r ∈ s.operations) (hactive : r.active) (hprov : r.kind.provisional) :
    ∃ r' ∈ (s.settle onFail c o w).operations, RowEvolves Set.univ r r'
      ∧ (r'.active ∨ r.seq = c.op ∧ (c.mark o = .failed ∧ r'.broke
        ∨ c.mark o = .done ∧ c.name = .activate)) := by
  obtain ⟨r', hr', hrow, hon⟩ := active_of_settle hledger hrun hr hactive
  refine ⟨r', hr', hrow, hon.imp_right fun ⟨hseq, hkind, hend⟩ => ⟨hseq, hend.imp_right ?_⟩⟩
  rintro ⟨hdone, hlast⟩
  have hname := hrun.name hledger
  have hlt := (List.getElem?_eq_some_iff.mp hname).1
  rw [hkind] at hprov
  exact ⟨hdone, Option.some.inj (hname.symm.trans (Kind.provisional_last hprov _ hlt hlast))⟩

theorem activated_settle (hrun : Running c s) (hdone : c.mark o = .done)
    (hname : c.name = .activate) : (s.settle onFail c o w).activated c.database := by
  obtain ⟨r, hc, -⟩ := hrun
  obtain ⟨p, hp, hpname⟩ := hc.step
  obtain ⟨p', hp', hname', hstatus, -⟩ := settle_step hp
  refine Tables.activated_iff.mpr ⟨c.settle o r, ?_, ?_, OpRow.activated_iff.mpr
    ⟨p', hp', hname'.trans (hpname.trans hname), hstatus hdone⟩⟩
  · exact List.mem_map.mpr ⟨r, hc.mem, if_pos hc.seq⟩
  · obtain ⟨_, _, _, heq⟩ := c.settle_eq o r
    rw [heq]
    exact hc.database

/-- A database that an ordinary operation fails in was activated, unless its
creation had failed before. -/
theorem Activation.activated_of_failed (hs : Activation s) (hledger : Ledger s)
    (hrun : Running c s) (hmark : c.mark o = .failed) (hkind : c.kind.ordinary)
    (hnot : (s.settle onFail c o w).failedBehind c.database = false) :
    (s.settle onFail c o w).activated c.database := by
  have hev : Evolves Set.univ s (s.settle onFail c o w) := hrun.evolves hledger
  have hbefore := hev.failedBehind hnot
  obtain ⟨d, hd, -⟩ := hs.lifecycle.running hrun
  obtain ⟨y, hc, hactive⟩ := hrun
  rw [← hc.kind] at hkind
  rcases hs.queued y hc.mem hactive hkind d (hc.database ▸ hd) with
    hserving | ⟨r, hr, ⟨hdb, hprov⟩, hlt, hon⟩
  · exact hev.activated (hs.serving _ d hd hserving hbefore)
  rw [hc.database] at hdb
  rw [hc.seq] at hlt
  have hbroke : r.broke := hon.resolve_left fun h => by
    rw [hc.alone r hr hdb hlt] at h
    cases h
  rcases Kind.creates_or_promotes hprov with hcreates | hpromotes
  · -- both failures are on record now
    refine absurd (Tables.failedBehind_iff.mpr ?_) (Bool.eq_false_iff.mp hnot)
    obtain ⟨r', hr', hrow⟩ := hev.old r hr
    obtain ⟨p, hp, -⟩ := hc.step
    obtain ⟨p', hp', -, -, hfailed⟩ := settle_step hp
    obtain ⟨_, _, _, heq⟩ := c.settle_eq o y
    refine ⟨r', hr', ⟨hrow.database.trans hdb, hrow.kind ▸ hcreates, hrow.broke hbroke⟩,
      c.settle o y, List.mem_map.mpr ⟨y, hc.mem, if_pos hc.seq⟩, ⟨?_, ?_, ?_⟩, ?_⟩
    · rw [heq]
      exact hc.database
    · rw [(c.settle_names o y).2, hkind]
    · exact OpRow.broke_iff.mpr ⟨p', hp', hfailed hmark⟩
    · rw [hrow.seq, c.settle_seq, hc.seq]
      exact hlt
  · exact hev.activated (hdb ▸ hs.promoted r hr hpromotes (hdb.symm ▸ hbefore))

theorem old_of_settle (hledger : Ledger s) (hrun : Running c s)
    (hx : x ∈ (s.settle onFail c o w).operations) :
    ∃ y ∈ s.operations, RowEvolves Set.univ y x := by
  have hev : Evolves Set.univ s (s.settle onFail c o w) := hrun.evolves hledger
  obtain ⟨r, hc, hr⟩ := hrun
  refine (hev.new x hx).resolve_right fun ⟨hle, _⟩ => ?_
  exact Nat.not_lt_of_le hle ((hledger.settle hc hr onFail o w).fresh x hx)

/-- What an operation waits for is still active or has failed, or the step has
activated the database. -/
theorem Tables.Awaits.settle (h : s.Awaits y) (hledger : Ledger s)
    (hrun : Running c s) (hseq : y.seq = x.seq) (hdb : y.database = x.database) :
    (s.settle onFail c o w).Awaits x
      ∨ y.database = c.database ∧ c.mark o = .done ∧ c.name = .activate := by
  obtain ⟨r, hr, ⟨hrdb, hprov⟩, hlt, hon⟩ := h
  have hstill : ∀ r' ∈ (s.settle onFail c o w).operations, RowEvolves Set.univ r r' →
      r'.active ∨ r'.broke → (s.settle onFail c o w).Awaits x := by
    intro r' hr' hrow hon'
    refine ⟨r', hr', ⟨hrow.database.trans (hrdb.trans hdb), hrow.kind ▸ hprov⟩, ?_, hon'⟩
    rw [hrow.seq, ← hseq]
    exact hlt
  rcases hon with hactive | hbroke
  · obtain ⟨r', hr', hrow, hactive' | ⟨hrseq, ⟨-, hbroke'⟩ | hact⟩⟩ :=
      provisional_of_settle hledger hrun hr hactive hprov
    · exact .inl (hstill r' hr' hrow (.inl hactive'))
    · exact .inl (hstill r' hr' hrow (.inr hbroke'))
    · obtain ⟨y, hc, -⟩ := hrun
      obtain rfl := hledger.row_unique hr hc.mem (hrseq.trans hc.seq.symm)
      exact .inr ⟨hrdb.symm.trans hc.database, hact⟩
  · obtain ⟨r', hr', hrow⟩ := (hrun.evolves hledger).old r hr
    exact .inl (hstill r' hr' hrow (.inr (hrow.broke hbroke)))

/-- Only a delete or what brings a database up ends its serving, and neither
runs while it serves. -/
theorem StatusChange.serving {old new : DbStatus} (h : StatusChange c o old new)
    (hfits : StatusFits c.kind old) (hname : c.kind.steps[c.idx]? = some c.name)
    (hserving : old.serving) : new.serving := by
  obtain ⟨hdeleting, -, hprov, -⟩ := DbStatus.ne_of_serving hserving
  cases h with
  | failed =>
    rw [Kind.statusOnFail_ordinary]
    · rfl
    · refine Kind.ordinary_iff.mpr ⟨Bool.eq_false_iff.mpr fun h => ?_, fun h => ?_⟩
      · exact hprov (hfits.provisioning h)
      · exact hdeleting (hfits.deleting h)
  | activated => rfl
  | finalized _ hfin =>
    exact (hdeleting (hfits.deleting (Kind.place .finalize (hfin ▸ hname)).1)).elim
  | kept => exact hserving

theorem Activation.settle (hs : Activation s) (hledger : Ledger s) (hrun : Running c s)
    (h : StepCommit X F a e c H s o w) : Activation (s.settle onFail c o w) := by
  have hev : Evolves Set.univ s (s.settle onFail c o w) := hrun.evolves hledger
  obtain ⟨f, hf, hrows⟩ := h.settle
  obtain ⟨d, hd, hfits⟩ := hs.lifecycle.running hrun
  have hname := hrun.name hledger
  have hup := World.Updates.of_update hrows hf.id hd
  refine ⟨hs.lifecycle.settle hledger hrun h, ?_, ?_, ?_, ?_⟩
  · intro id d' hd' hserving hnot
    rcases hup.cases hd' with ⟨rfl, rfl⟩ | ⟨-, hd'⟩
    · have hchange := hf.status d
      generalize (f d).status = status at hserving hchange
      cases hchange with
      | failed hmark =>
        exact hs.activated_of_failed hledger hrun hmark (Kind.ordinary_of_serving hserving) hnot
      | activated hdone hact => exact activated_settle hrun hdone hact
      | finalized => cases hserving
      | kept => exact hev.activated (hs.serving _ d hd hserving (hev.failedBehind hnot))
    · exact hev.activated (hs.serving id d' hd' hserving (hev.failedBehind hnot))
  · intro id d' hd' hstatus
    rcases hup.cases hd' with ⟨rfl, rfl⟩ | ⟨hid, hd'⟩
    · have hchange := hf.status d
      generalize (f d).status = status at hstatus hchange
      cases hchange with
      | failed =>
        rcases c.kind.statusOnFail_cases with h | h <;> rw [h] at hstatus <;> cases hstatus
      | activated | finalized => cases hstatus
      | kept hok hnext =>
        obtain ⟨r, hr, hdb, hactive, hprov⟩ := hs.provisioning _ d hd hstatus
        obtain ⟨r', hr', hrow, hon⟩ := provisional_of_settle hledger hrun hr hactive hprov
        refine ⟨r', hr', hrow.database.trans hdb, hon.resolve_right ?_, hrow.kind ▸ hprov⟩
        rintro ⟨-, ⟨hmark, -⟩ | ⟨hdone, hact⟩⟩
        · exact hok hmark
        · exact hnext hdone hact
    · obtain ⟨r, hr, hdb, hactive, hprov⟩ := hs.provisioning id d' hd' hstatus
      obtain ⟨r', hr', hrow, hon⟩ := provisional_of_settle hledger hrun hr hactive hprov
      refine ⟨r', hr', hrow.database.trans hdb, hon.resolve_right fun ⟨hseq, _⟩ => hid ?_,
        hrow.kind ▸ hprov⟩
      obtain ⟨y, hc, -⟩ := hrun
      obtain rfl := hledger.row_unique hr hc.mem (hseq.trans hc.seq.symm)
      exact hdb.symm.trans hc.database
  · intro x hx hkind hnot
    obtain ⟨y, hy, hrow⟩ := old_of_settle hledger hrun hx
    rw [hrow.database] at hnot ⊢
    exact hev.activated (hs.promoted y hy (hrow.kind ▸ hkind) (hev.failedBehind hnot))
  · intro x hx hactive hkind d' hd'
    obtain ⟨y, hy, hya, hseq, hdb, hykind, -⟩ := active_settle hledger hrun hx hactive
    rw [← hykind] at hkind
    rw [← hdb] at hd'
    rcases hup.cases hd' with ⟨hj, rfl⟩ | ⟨hj, hd'⟩
    · have hchange := hf.status d
      rcases hs.queued y hy hya hkind d (hj ▸ hd) with hserving | hawaits
      · exact .inl (hchange.serving hfits hname hserving)
      rcases hawaits.settle hledger hrun hseq hdb with hawaits | ⟨-, hdone, hact⟩
      · exact .inr hawaits
      · refine .inl ?_
        generalize (f d).status = status at hchange
        cases hchange with
        | failed hmark =>
          rw [hdone] at hmark
          cases hmark
        | activated => rfl
        | finalized _ hfin =>
          rw [hact] at hfin
          cases hfin
        | kept _ hnext => exact (hnext hdone hact).elim
    · refine (hs.queued y hy hya hkind d' hd').imp_right fun hawaits => ?_
      exact (hawaits.settle hledger hrun hseq hdb).resolve_right fun h => hj h.1

end Steps

/-! ## Handlers -/

section Commits

variable {s : Tables ω} {r : ApiResult} {w : ω → ω}

theorem mem_commit (hy : y ∈ s.operations)
    (hnot : r.supersede → y.database ≠ r.target) : y ∈ (r.commit w s).operations := by
  refine mem_commit_iff.mpr (.inl ⟨y, hy, (if_neg fun h => ?_).symm⟩)
  simp only [Bool.and_eq_true, decide_eq_true_eq] at h
  exact hnot h.1 h.2.1

theorem new_mem_commit (h : r.create = some (kind, params)) :
    OpRow.new s.nextSeq r.target kind params ∈ (r.commit w s).operations :=
  mem_commit_iff.mpr (.inr ⟨kind, params, h, rfl⟩)

theorem old_of_commit (hx : x ∈ (r.commit w s).operations) :
    (∃ y ∈ s.operations, RowEvolves Set.univ y x ∧ x.steps = y.steps)
      ∨ ∃ kind params, r.create = some (kind, params)
          ∧ x = .new s.nextSeq r.target kind params := by
  refine (mem_commit_iff.mp hx).imp_left ?_
  rintro ⟨y, hy, rfl⟩
  refine ⟨y, hy, ?_, ?_⟩
  · unfold ApiResult.old
    cases r.supersede with
    | false => exact .refl _ y
    | true => exact .supersede (Set.mem_univ _) y
  · unfold ApiResult.old
    split <;> rfl

end Commits

section Handlers

variable {call : Call} {s : Tables World} {r : ApiResult} {w : World → World} {d : DatabaseRow}

/-- What an operation waits for stays, if it is not superseded itself. -/
theorem Tables.Awaits.commit (h : s.Awaits y)
    (hnot : r.supersede → y.database ≠ r.target) : (r.commit w s).Awaits y := by
  obtain ⟨x, hx, ⟨hdb, hprov⟩, hlt, hon⟩ := h
  exact ⟨x, mem_commit hx (hdb ▸ hnot), ⟨hdb, hprov⟩, hlt, hon⟩

theorem Activation.commit_insert (hs : Activation s) (hledger : Ledger s)
    (hnew : NewDatabase call H s d kind) :
    Activation (ApiResult.commit ⟨d.id, false, some (kind, params)⟩ (World.insert d) s) := by
  have hev := Engine.evolves_commit (s := s) (r := ⟨d.id, false, some (kind, params)⟩)
    (Set.mem_univ (Key.database d.id)) (World.insert d)
  have hkind := hnew.kind_provisional
  refine ⟨hs.lifecycle.commit_insert hledger hnew, ?_, ?_, ?_, ?_⟩
  · intro id d' hd' hserving hnot
    rw [commit_world, World.db?_insert hnew.fresh] at hd'
    split at hd'
    · cases hd'
      rw [hnew.status] at hserving
      cases hserving
    · exact hev.activated (hs.serving id d' hd' hserving (hev.failedBehind hnot))
  · intro id d' hd' hstatus
    rw [commit_world, World.db?_insert hnew.fresh] at hd'
    split at hd'
    · next hid => exact ⟨_, new_mem_commit rfl, hid.symm, rfl, hkind⟩
    · obtain ⟨y, hy, hrest⟩ := hs.provisioning id d' hd' hstatus
      exact ⟨y, mem_commit hy nofun, hrest⟩
  · intro x hx hpromotes hnot
    rcases old_of_commit hx with ⟨y, hy, hrow, -⟩ | ⟨k, p, hcreate, rfl⟩
    · rw [hrow.database] at hnot ⊢
      exact hev.activated (hs.promoted y hy (hrow.kind ▸ hpromotes) (hev.failedBehind hnot))
    · cases hcreate
      rcases hnew.source with ⟨rfl, -⟩ | ⟨rfl, -⟩ <;> cases hpromotes
  · intro x hx hactive hordinary d' hd'
    rcases active_commit hx hactive with ⟨hold, -⟩ | ⟨k, p, hcreate, rfl⟩
    · obtain ⟨_, hd₀, -⟩ := hs.lifecycle.rows x hold hactive
      rw [commit_world, (World.db?_insert_of_some hnew.fresh hd₀).2, ← hd₀] at hd'
      exact (hs.queued x hold hactive hordinary d' hd').imp_right (·.commit nofun)
    · cases hcreate
      have hprov : kind.provisional = false := (Kind.ordinary_iff.mp hordinary).1
      rw [hkind] at hprov
      cases hprov

theorem Activation.commit_update (hs : Activation s) (hledger : Ledger s)
    {f : DatabaseRow → DatabaseRow} (h : HandlerEffect s r w d f) : Activation (r.commit w s) := by
  have hev : Evolves Set.univ s (r.commit w s) := Engine.evolves_commit (Set.mem_univ _) _
  have hup := h.updates
  have hchange := h.status
  refine ⟨hs.lifecycle.commit_update hledger h, ?_, ?_, ?_, ?_⟩
  · intro id d' hd' hserving hnot
    rcases hup.cases hd' with ⟨rfl, rfl⟩ | ⟨-, hd'⟩
    · refine hev.activated (hs.serving _ d h.row ?_ (hev.failedBehind hnot))
      generalize (f d).status = status at hserving hchange
      cases hchange with
      | promoted | deleted => cases hserving
      | queued => exact hserving
      | swept _ _ hserves => exact hserves
    · exact hev.activated (hs.serving id d' hd' hserving (hev.failedBehind hnot))
  · intro id d' hd' hstatus
    rcases hup.cases hd' with ⟨rfl, rfl⟩ | ⟨hid, hd'⟩
    · generalize (f d).status = status at hstatus hchange
      cases hchange with
      | promoted hcreate => exact ⟨_, new_mem_commit hcreate, rfl, rfl, rfl⟩
      | deleted => cases hstatus
      | queued _ _ _ hsuper =>
        obtain ⟨y, hy, hrest⟩ := hs.provisioning _ d h.row hstatus
        refine ⟨y, mem_commit hy fun h => ?_, hrest⟩
        rw [hsuper] at h
        cases h
      | swept _ _ _ hserves =>
        rw [hstatus] at hserves
        cases hserves
    · obtain ⟨y, hy, hdb, hrest⟩ := hs.provisioning id d' hd' hstatus
      exact ⟨y, mem_commit hy fun _ => hdb ▸ hid, hdb, hrest⟩
  · intro x hx hpromotes hnot
    rcases old_of_commit hx with ⟨y, hy, hrow, -⟩ | ⟨kind, params, hcreate, rfl⟩
    · rw [hrow.database] at hnot ⊢
      exact hev.activated (hs.promoted y hy (hrow.kind ▸ hpromotes) (hev.failedBehind hnot))
    · -- a promotion starts from a database that serves
      obtain rfl : kind = .promoteReplica := hpromotes
      refine hev.activated (hs.serving _ d h.row ?_ (hev.failedBehind hnot))
      generalize (f d).status = status at hchange
      cases hchange with
      | promoted _ _ _ hserves => exact hserves
      | deleted hdel =>
        rw [hcreate] at hdel
        cases hdel
      | queued _ _ hkind _ hprov =>
        rw [hcreate] at hkind
        cases hkind
        cases hprov
      | swept hnone =>
        rw [hcreate] at hnone
        cases hnone
  · intro x hx hactive hordinary d' hd'
    rcases active_commit hx hactive with ⟨hold, hnot⟩ | ⟨_, _, hcreate, rfl⟩
    · rcases hup.cases hd' with ⟨hid, rfl⟩ | ⟨-, hd'⟩
      · refine (hs.queued x hold hactive hordinary d (hid ▸ h.row)).imp (fun hserving => ?_)
          (·.commit hnot)
        generalize (f d).status = status at hchange
        cases hchange with
        | promoted _ _ hidle => exact (not_busy hidle hold hactive hid).elim
        | deleted _ hsuper => exact (hnot hsuper hid).elim
        | queued => exact hserving
        | swept _ _ _ hserves => exact hserves
      · exact (hs.queued x hold hactive hordinary d' hd').imp_right (·.commit hnot)
    · cases hup.self.symm.trans hd'
      obtain ⟨hprov, hdel⟩ := Kind.ordinary_iff.mp hordinary
      generalize (f d).status = status at hchange
      cases hchange with
      | promoted hpromotes =>
        rw [hcreate] at hpromotes
        cases hpromotes
        cases hprov
      | deleted hdeletes =>
        rw [hcreate] at hdeletes
        cases hdeletes
        exact (hdel rfl).elim
      | queued _ _ _ hsuper _ _ hserves =>
        refine hserves.imp_right fun hstatus => ?_
        -- what brings the database up was recorded before
        obtain ⟨y, hy, hdb, hya, hyprov⟩ := hs.provisioning _ d h.row hstatus
        refine ⟨y, mem_commit hy fun h => ?_, ⟨hdb, hyprov⟩, hledger.fresh y hy, .inl hya⟩
        rw [hsuper] at h
        cases h
      | swept hnone =>
        rw [hcreate] at hnone
        cases hnone

theorem Activation.commit (hs : Activation s) (hledger : Ledger s)
    (h : HandlerCommit X F call H s r w) : Activation (r.commit w s) := by
  rcases h.effect hs.lifecycle with ⟨d, _, hnew, rfl, rfl⟩ | ⟨-, d, f, heffect⟩
  · exact hs.commit_insert hledger hnew
  · exact hs.commit_update hledger heffect

end Handlers

/-! ## Whole runs -/

theorem activation_empty : Activation ⟨[], 0, World.empty, []⟩ := by
  refine ⟨lifecycle_empty, ?_, ?_, ?_, ?_⟩
  · intro id d hd
    cases hd
  · intro _ _ hd
    cases hd
  · intro r hr
    cases hr
  · intro r hr
    cases hr

/-- Only activated databases serve. In every committed state of every
interleaving of handlers, reconcilers and sweeps, a database that is `active`
or `degraded` has had an `activate` step completed, unless its creation has
failed and an operation queued behind it too. -/
theorem serving_activated (F : Fleet) {st : Store (Tables World) Key Claimed (Request Env Call)}
    (hr : ((adminEngine F).machine World.empty).Reachable st) :
    ∀ d ∈ st.tables.world.databases, d.status = .active ∨ d.status = .degraded →
      st.tables.failedBehind d.id = false → st.tables.activated d.id = true := by
  have hs : Activation st.tables := holds_of_commits activation_empty (fun _ h => h.lifecycle)
    Activation.settle Activation.commit hr
  intro d hd hstatus hnot
  refine hs.serving d.id d (hs.lifecycle.unique.db? hd) ?_ hnot
  rcases hstatus with h | h <;> rw [h] <;> rfl

/-- The hosts are online and do not answer. -/
def silent : Env := { calm "" with outcome := some (.wait "no answer yet") }

/-- A database `s` is brought up, and a change of its spec times out. -/
theorem serving_activated_degraded :
    ∃ st, ((adminEngine fourHosts).machine World.empty).Reachable st
      ∧ ∃ d ∈ st.tables.world.databases, d.status = .degraded
        ∧ st.tables.failedBehind d.id = false ∧ st.tables.activated d.id = true := by
  obtain ⟨_, hr, d, hd, hdegraded, hcreated⟩ := exists_serial fourHosts
    (bringUp ++ [(.api ⟨calm "", .update "s"⟩, none), (.reconcile true silent, some (.step 1 0))])
    (fun s => ∃ d ∈ s.world.databases, d.status = .degraded ∧ s.failedBehind d.id = false)
    (by decide +kernel)
  exact ⟨_, hr, d, hd, hdegraded, hcreated,
    serving_activated fourHosts hr d hd (.inr hdegraded) hcreated⟩

/-- While `s` waits for its hosts after it was placed, its spec is changed. The
hosts do not answer in time for either operation, and `s` is `degraded`; the
sweep that finds the hosts well makes it `active`. -/
theorem degraded_before_activation :
    (∃ st, ((adminEngine fourHosts).machine World.empty).Reachable st
      ∧ ∃ d ∈ st.tables.world.databases, d.status = .degraded ∧ st.tables.activated d.id = false)
    ∧ ∃ st, ((adminEngine fourHosts).machine World.empty).Reachable st
      ∧ ∃ d ∈ st.tables.world.databases, d.status = .active ∧ st.tables.activated d.id = false := by
  have hend (l : List (Request Env Call × Option Key)) (status : DbStatus) :=
    exists_serial fourHosts (.cons (.api ⟨calm "s", .create "s" true ⟨1, 1, 1⟩ []⟩, none)
      (runSteps (calm "s") 0 1)
      ++ (.api ⟨calm "", .update "s"⟩, none) :: (.reconcile true silent, some (.step 0 1))
      :: (.reconcile true silent, some (.step 1 0)) :: l)
    (fun s => ∃ d ∈ s.world.databases, d.status = status ∧ s.activated d.id = false)
  obtain ⟨_, hdegraded⟩ := hend [] .degraded (by decide +kernel)
  obtain ⟨_, hactive⟩ := hend [(.api ⟨calm "", .sweep "s" false⟩, none)] .active (by decide +kernel)
  exact ⟨⟨_, hdegraded⟩, _, hactive⟩

end PgCluster.Admin
