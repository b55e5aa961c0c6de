import PgCluster.AdminEffects
import PgCluster.SerialRuns

/-!
# The lives of databases

What the status of a database says about its operations, and the other way
round (`Lifecycle`): while a delete is active the database is `deleting` and
does nothing else, a database being brought up is `provisioning`, and one
with replicas is neither being brought up nor deleted.

Every commit of a step or a handler keeps it, and the frame. That a replica
does not outlive its source is one of its parts.
-/

namespace PgCluster.Admin

open World

/-! ## The invariant -/

/-- The status of a database while an operation of this kind is active. -/
structure StatusFits (kind : Kind) (status : DbStatus) : Prop where
  live : status ≠ .deleted
  deleting : kind = .delete → status = .deleting
  provisioning : kind.provisional = true → status = .provisioning

/-- A database that may have replicas. -/
structure SourceLives (s : Tables World) (source : String) : Prop where
  row : ∃ t, s.world.db? source = some t ∧ t.status ≠ .deleting ∧ t.status ≠ .deleted
  settled : ∀ r ∈ s.operations, r.active = true → r.database = source →
    r.kind ≠ .create ∧ r.kind ≠ .createReplica

structure Lifecycle (s : Tables World) : Prop where
  unique : s.world.Unique
  sized : ∀ id d, s.world.db? id = some d → d.resources.positive = true
  placed : s.world.Placed
  rows : ∀ r ∈ s.operations, r.active = true →
    ∃ d, s.world.db? r.database = some d ∧ StatusFits r.kind d.status
  alone : ∀ r ∈ s.operations, ∀ e ∈ s.operations, r.active = true → e.active = true →
    e.database = r.database → r.kind = .delete → e = r
  first : ∀ r ∈ s.operations, ∀ e ∈ s.operations, r.active = true → e.active = true →
    e.database = r.database → r.kind.provisional = true → r.seq ≤ e.seq
  sources : ∀ id, s.world.hasReplicas id = true → SourceLives s id

/-! ## Steps -/

variable {X : Extension World Env Call} {F : Fleet} {H : Set Key} {s : Tables World}
  {w : World → World} {y : OpRow} {j : String}

section Steps

variable {a : Request Env Call} {e : Env} {c : Claimed} {o : Outcome}

theorem Lifecycle.running (hl : Lifecycle s) (hrun : Running c s) :
    ∃ d, s.world.db? c.database = some d ∧ StatusFits c.kind d.status := by
  obtain ⟨r, hc, hactive⟩ := hrun
  rw [← hc.database, ← hc.kind]
  exact hl.rows r hc.mem hactive

/-- Another active operation of the database comes later, and neither is a
delete or the other one brings the database up. -/
theorem Lifecycle.others (hl : Lifecycle s) (hrun : Running c s)
    (hy : y ∈ s.operations) (hactive : y.active) (hdb : y.database = c.database)
    (hseq : y.seq ≠ c.op) : c.kind ≠ .delete ∧ y.kind ≠ .delete ∧ y.kind.provisional = false := by
  obtain ⟨r, hc, hr⟩ := hrun
  have hdb' : y.database = r.database := hdb.trans hc.database.symm
  have hlt : r.seq < y.seq := by
    rw [hc.seq]
    refine lt_of_le_of_ne (Nat.le_of_not_lt fun hlt => ?_) (Ne.symm hseq)
    rw [hc.alone y hy hdb hlt] at hactive
    cases hactive
  refine ⟨fun hk => ?_, fun hk => ?_, Bool.eq_false_iff.mpr fun hk => ?_⟩
  · obtain rfl := hl.alone r hc.mem y hy hr hactive hdb' (hc.kind.trans hk)
    exact lt_irrefl _ hlt
  · obtain rfl := hl.alone y hy r hc.mem hactive hr hdb'.symm hk
    exact lt_irrefl _ hlt
  · exact Nat.not_le_of_lt hlt (hl.first y hy r hc.mem hactive hr hdb'.symm hk)

theorem StepCommit.hasReplicas (h : StepCommit X F a e c H s o w) (hl : Lifecycle s)
    (hrun : Running c s) (hj : (s.settle onFail c o w).world.hasReplicas j) :
    s.world.hasReplicas j := by
  obtain ⟨f, hf, hrows⟩ := h.settle
  obtain ⟨d, hd, hfits⟩ := hl.running hrun
  rw [hasReplicas_congr hrows] at hj
  refine hasReplicas_update (fun d₀ hof _ _ hd₀ => ?_) hl.unique hj
  cases hd.symm.trans hd₀
  exact ⟨hf.replica hof, hfits.live⟩

theorem Lifecycle.settle (hl : Lifecycle s) (hledger : Ledger s) (hrun : Running c s)
    (h : StepCommit X F a e c H s o w) : Lifecycle (s.settle onFail c o w) := by
  obtain ⟨f, hf, hrows⟩ := h.settle
  obtain ⟨d, hd, hfits⟩ := hl.running hrun
  have hname := hrun.name hledger
  have hrow := Updates.of_update hrows hf.id hd
  -- a delete only ends a database whose delete is the operation that runs
  have hlive : (f d).status = .deleted → c.kind = .delete := by
    intro hdel
    rcases hf.deleted d hdel with hd | hfin
    · exact (hfits.live hd).elim
    · exact (Kind.place .finalize (hfin ▸ hname)).1
  refine ⟨?_, ?_, ?_, ?_, ?_, ?_, ?_⟩
  · show List.Pairwise _ _
    rw [hrows]
    exact hl.unique.update hf.id
  · intro j d' hd'
    rcases hrow.cases hd' with ⟨-, rfl⟩ | ⟨-, hd'⟩
    · rw [hf.resources]
      exact hl.sized _ d hd
    · exact hl.sized j d' hd'
  · have hplaced := h.placed_of hl.placed (fun hnone => by rw [hnone] at hd; cases hd)
    show (if c.mark o = .failed then _ else _ : World).Placed
    split
    · rw [onFail_eq]
      exact hplaced.setStatus _ _
    · exact hplaced
  · -- what is active now was active before, in a status that fits
    intro x hx hactive
    obtain ⟨y, hy, hya, _, hdb, hkind, hown⟩ := active_settle hledger hrun hx hactive
    obtain ⟨d₀, hd₀, hfits₀⟩ := hl.rows y hy hya
    rw [← hdb, ← hkind]
    by_cases hj : y.database = c.database
    · rw [hj] at hd₀ ⊢
      cases hd.symm.trans hd₀
      refine ⟨f d, hrow.self, ?_⟩
      by_cases hyc : y.seq = c.op
      · obtain ⟨hok, hmore⟩ := hown hyc
        rcases hf.kept hok with ⟨hdone, hlast⟩ | hsame
        · have hlt := hmore hdone
          rcases hlast with hact | hfin
          · have hlast := (Kind.place .activate (hact ▸ hname)).2
            omega
          · have hlast := (Kind.place .finalize (hfin ▸ hname)).2
            omega
        · rw [hsame]
          exact hfits₀
      · obtain ⟨hc, hydel, hyprov⟩ := hl.others hrun hy hya hj hyc
        refine ⟨fun hdel => hc (hlive hdel), fun h => (hydel h).elim, fun h => ?_⟩
        rw [hyprov] at h
        cases h
    · exact ⟨d₀, (hrow.other _ hj).trans hd₀, hfits₀⟩
  · intro x hx z hz hxa hza hdb hkind
    obtain ⟨x₀, hx₀, hx₀a, hxseq, hxdb, hxkind, -⟩ := active_settle hledger hrun hx hxa
    obtain ⟨z₀, hz₀, hz₀a, hzseq, hzdb, -, -⟩ := active_settle hledger hrun hz hza
    have hsame := hl.alone x₀ hx₀ z₀ hz₀ hx₀a hz₀a (by rw [hxdb, hzdb, hdb]) (hxkind.trans hkind)
    obtain ⟨r, hc, hr⟩ := hrun
    refine (hledger.settle hc hr onFail o w).row_unique hz hx ?_
    rw [← hxseq, ← hzseq, hsame]
  · intro x hx z hz hxa hza hdb hkind
    obtain ⟨x₀, hx₀, hx₀a, hxseq, hxdb, hxkind, -⟩ := active_settle hledger hrun hx hxa
    obtain ⟨z₀, hz₀, hz₀a, hzseq, hzdb, -, -⟩ := active_settle hledger hrun hz hza
    rw [← hxseq, ← hzseq]
    exact hl.first x₀ hx₀ z₀ hz₀ hx₀a hz₀a (by rw [hxdb, hzdb, hdb]) (hxkind ▸ hkind)
  · intro j hj
    have hbefore := h.hasReplicas hl hrun hj
    obtain ⟨⟨t, ht, hdeleting, hdeleted⟩, hsettled⟩ := hl.sources j hbefore
    refine ⟨?_, fun x hx hactive hdb => ?_⟩
    · by_cases hjc : j = c.database
      · subst hjc
        cases hd.symm.trans ht
        refine ⟨f d, hrow.self, fun h => hdeleting (hf.deleting d h), fun h => hdeleting ?_⟩
        exact hfits.deleting (hlive h)
      · exact ⟨t, (hrow.other j hjc).trans ht, hdeleting, hdeleted⟩
    · obtain ⟨y, hy, hya, -, hydb, hykind, -⟩ := active_settle hledger hrun hx hactive
      rw [← hykind]
      exact hsettled y hy hya (hydb.trans hdb)

theorem Frame.settle (hl : Lifecycle s) (hrun : Running c s) (hdb : .database c.database ∈ H)
    (h : StepCommit X F a e c H s o w) : Frame H s (s.settle onFail c o w) := by
  obtain ⟨f, hf, hrows⟩ := h.settle
  obtain ⟨d, hd, hfits⟩ := hl.running hrun
  refine .of_update hdb hl.unique hf.id ?_ hrows fun j hj => ?_
  · intro _ j hd₀ hof _
    cases hd.symm.trans hd₀
    exact ⟨hf.replica hof, hfits.live⟩
  · refine Eq.trans ?_ (h.nodesOf hj s.world)
    exact congrArg (List.filter _) (StepCommit.settle_nodes c o w)

end Steps

/-! ## Handlers -/

section Handlers

variable {call : Call} {r : ApiResult} {d : DatabaseRow} {kind : Kind}
  {f : DatabaseRow → DatabaseRow} {id source : String} {params : Params}

theorem not_busy {ω : Type} {s : Tables ω} (h : s.busy id = false)
    (hy : y ∈ s.operations) (hactive : y.active) : y.database ≠ id := by
  intro hdb
  rw [Tables.busy, List.any_eq_false] at h
  exact h y hy (by simp [hdb, hactive])

/-- An operation a handler may record for a database that is there: `d` is its
row before, `status` its status after. -/
structure Recordable (s : Tables World) (r : ApiResult) (d : DatabaseRow) (status : DbStatus)
    (kind : Kind) : Prop where
  fits : StatusFits kind status
  notNew : kind ≠ .create ∧ kind ≠ .createReplica
  supersedes : kind = .delete ∨ d.status = .deleting → r.supersede = true
  idle : kind.provisional = true → s.busy r.target = false
  apart : kind.rotation = true → d.replicaOf = none ∧ s.world.hasReplicas r.target = false

/-- How a handler's commit changes the status of a database that is there. -/
inductive StatusRequest (s : Tables World) (r : ApiResult) (old : DbStatus) : DbStatus → Prop
  | promoted : r.create = some (.promoteReplica, .none) → r.supersede = false →
      s.busy r.target = false → old.serving = true → StatusRequest s r old .provisioning
  | deleted : r.create = some (.delete, .none) → r.supersede = true →
      StatusRequest s r old .deleting
  | queued (kind : Kind) (params : Params) : r.create = some (kind, params) →
      r.supersede = false → kind.provisional = false → kind ≠ .delete →
      old.serving = true ∨ old = .provisioning → StatusRequest s r old old
  | swept {new : DbStatus} : r.create = none → r.supersede = false → old.serving = true →
      new.serving = true → StatusRequest s r old new

/-- What a handler that changes one row owes the lifecycle. -/
structure HandlerEffect (s : Tables World) (r : ApiResult) (w : World → World)
    (d : DatabaseRow) (f : DatabaseRow → DatabaseRow) : Prop where
  row : s.world.db? r.target = some d
  live : d.status ≠ .deleted
  id : ∀ d, (f d).id = d.id
  replicaOf : ∀ d, (f d).replicaOf = d.replicaOf
  resources : (f d).resources.positive = true
  rows : (w s.world).databases = (s.world.update r.target f).databases
  nodes : ∀ j, j ≠ r.target → (w s.world).nodesOf j = s.world.nodesOf j
  placed : (w s.world).Placed
  old : ∀ y ∈ s.operations, y.active = true → y.database = r.target → r.supersede = false →
    StatusFits y.kind d.status → StatusFits y.kind (f d).status
  new : ∀ kind params, r.create = some (kind, params) → Recordable s r d (f d).status kind
  shared : (f d).secrets.map (·.shared) = d.secrets.map (·.shared)
  source : s.world.hasReplicas r.target = true → (f d).status ≠ .deleting ∧ (f d).status ≠ .deleted
  ha : ∀ d, (f d).ha = d.ha
  status : StatusRequest s r d.status (f d).status

theorem HandlerEffect.updates (h : HandlerEffect s r w d f) :
    s.world.Updates (r.commit w s).world r.target d f := by
  rw [commit_world]
  exact .of_update h.rows h.id h.row

theorem HandlerEffect.hasReplicas (h : HandlerEffect s r w d f)
    (hl : Lifecycle s) (hj : (w s.world).hasReplicas j) : s.world.hasReplicas j := by
  rw [hasReplicas_congr h.rows] at hj
  refine hasReplicas_update (fun d₀ hof _ _ hd₀ => ?_) hl.unique hj
  cases h.row.symm.trans hd₀
  exact ⟨h.replicaOf d ▸ hof, h.live⟩

theorem Lifecycle.commit_update (hl : Lifecycle s) (hledger : Ledger s)
    (h : HandlerEffect s r w d f) : Lifecycle (r.commit w s) := by
  have hrow := h.updates
  refine ⟨?_, ?_, ?_, ?_, ?_, ?_, ?_⟩
  · show List.Pairwise _ _
    rw [commit_world, h.rows]
    exact hl.unique.update h.id
  · intro j d' hd'
    rcases hrow.cases hd' with ⟨-, rfl⟩ | ⟨-, hd'⟩
    · exact h.resources
    · exact hl.sized j d' hd'
  · rw [commit_world]
    exact h.placed
  · intro x hx hactive
    rcases active_commit hx hactive with ⟨hold, hsuper⟩ | ⟨kind, params, hcreate, rfl⟩
    · obtain ⟨d₀, hd₀, hfits⟩ := hl.rows x hold hactive
      by_cases hj : x.database = r.target
      · rw [hj] at hd₀ ⊢
        cases h.row.symm.trans hd₀
        exact ⟨f d, hrow.self, h.old x hold hactive hj
          (Bool.eq_false_iff.mpr fun hs => hsuper hs hj) hfits⟩
      · exact ⟨d₀, (hrow.other _ hj).trans hd₀, hfits⟩
    · exact ⟨f d, hrow.self, (h.new kind params hcreate).fits⟩
  · intro x hx z hz hxa hza hdb hkind
    rcases active_commit hx hxa with ⟨hxold, hxsuper⟩ | ⟨kx, px, hcx, rfl⟩ <;>
      rcases active_commit hz hza with ⟨hzold, hzsuper⟩ | ⟨kz, pz, hcz, rfl⟩
    · exact hl.alone x hxold z hzold hxa hza hdb hkind
    · -- a delete that is active refuses what is not a delete itself
      obtain ⟨_, hd₀, hfits⟩ := hl.rows x hxold hxa
      have hdb : x.database = r.target := hdb.symm
      rw [hdb] at hd₀
      cases h.row.symm.trans hd₀
      exact (hxsuper ((h.new kz pz hcz).supersedes (.inr (hfits.deleting hkind))) hdb).elim
    · exact (hzsuper ((h.new kx px hcx).supersedes (.inl hkind)) hdb).elim
    · obtain ⟨rfl, rfl⟩ : kx = kz ∧ px = pz := by
        rw [hcx] at hcz
        cases hcz
        exact ⟨rfl, rfl⟩
      rfl
  · intro x hx z hz hxa hza hdb hkind
    rcases active_commit hx hxa with ⟨hxold, -⟩ | ⟨kx, px, hcx, rfl⟩ <;>
      rcases active_commit hz hza with ⟨hzold, -⟩ | ⟨_, _, _, rfl⟩
    · exact hl.first x hxold z hzold hxa hza hdb hkind
    · exact (hledger.fresh x hxold).le
    · exact (not_busy ((h.new kx px hcx).idle hkind) hzold hza hdb).elim
    · exact le_rfl
  · intro j hj
    rw [commit_world] at hj
    have hbefore := h.hasReplicas hl hj
    obtain ⟨⟨t, ht, hlive⟩, hsettled⟩ := hl.sources j hbefore
    refine ⟨?_, fun x hx hactive hdb => ?_⟩
    · by_cases hjt : j = r.target
      · subst hjt
        exact ⟨f d, hrow.self, h.source hbefore⟩
      · exact ⟨t, (hrow.other j hjt).trans ht, hlive⟩
    · rcases active_commit hx hactive with ⟨hold, -⟩ | ⟨kind, params, hcreate, rfl⟩
      · exact hsettled x hold hactive hdb
      · exact (h.new kind params hcreate).notNew

theorem StatusFits.ordinary {status : DbStatus} (hlive : status ≠ .deleted)
    (hdel : kind ≠ .delete) (hprov : kind.provisional = false) : StatusFits kind status := by
  refine ⟨hlive, fun h => (hdel h).elim, fun h => ?_⟩
  rw [hprov] at h
  cases h

/-- A serving database runs nothing that needs another status. -/
theorem StatusFits.of_serving {status status' : DbStatus}
    (h : StatusFits kind status) (hserving : status.serving)
    (hlive : status' ≠ .deleted) : StatusFits kind status' := by
  obtain ⟨hdel, -, hprov, -⟩ := DbStatus.ne_of_serving hserving
  exact ⟨hlive, fun hk => (hdel (h.deleting hk)).elim, fun hk => (hprov (h.provisioning hk)).elim⟩

theorem HandlerEffect.ordinary (hl : Lifecycle s) (hrow : LockedRow H s id d)
    (hdeleting : d.status ≠ .deleting) (hdel : kind ≠ .delete) (hprov : kind.provisional = false)
    (hrot : kind.rotation → d.replicaOf = none ∧ s.world.hasReplicas id = false)
    (hserves : d.status.serving ∨ d.status = .provisioning)
    (hid : ∀ d, (f d).id = d.id) (hof : ∀ d, (f d).replicaOf = d.replicaOf)
    (hha : ∀ d, (f d).ha = d.ha) (hstatus : ∀ d, (f d).status = d.status)
    (hsized : (f d).resources.positive)
    (hshared : (f d).secrets.map (·.shared) = d.secrets.map (·.shared))
    (hrows : (w s.world).databases = (s.world.update id f).databases)
    (hnodes : ∀ j, j ≠ id → (w s.world).nodesOf j = s.world.nodesOf j)
    (hplaced : (w s.world).Placed) : HandlerEffect s ⟨id, false, some (kind, params)⟩ w d f := by
  refine ⟨hrow.row, hrow.live, hid, hof, hsized, hrows, hnodes, hplaced, ?_, ?_, hshared, ?_, hha,
    ?_⟩
  · intro y _ _ _ _ hfits
    rw [hstatus]
    exact hfits
  · rintro kind params ⟨⟩
    rw [hstatus]
    refine ⟨.ordinary hrow.live hdel hprov, ⟨?_, ?_⟩, ?_, fun h => ?_, hrot⟩
    · rintro rfl
      cases hprov
    · rintro rfl
      cases hprov
    · rintro (h | h)
      · exact (hdel h).elim
      · exact (hdeleting h).elim
    · rw [hprov] at h
      cases h
  · intro hreplicas
    rw [hstatus]
    obtain ⟨⟨t, ht, hlive⟩, -⟩ := hl.sources id hreplicas
    cases hrow.row.symm.trans ht
    exact hlive
  · rw [hstatus]
    exact .queued kind params rfl rfl hprov hdel hserves

theorem HandlerCommit.effect (h : HandlerCommit X F call H s r w) (hl : Lifecycle s) :
    (∃ d kind, NewDatabase call H s d kind ∧ r = ⟨d.id, false, some (kind, .none)⟩ ∧ w = insert d)
      ∨ .database r.target ∈ H ∧ ∃ d f, HandlerEffect s r w d f := by
  cases h with
  | inserted d kind hnew => exact .inl ⟨d, kind, hnew, rfl, rfl⟩
  | promoted id d hrow hdeleting hidle hserving =>
    refine .inr ⟨hrow.locked, d, fun d => { d with status := .provisioning }, hrow.row,
      hrow.live, fun _ => rfl, fun _ => rfl, hl.sized id d hrow.row, rfl,
      fun _ _ => rfl, hl.placed.setStatus _ _, ?_, ?_, rfl, fun _ => ⟨nofun, nofun⟩,
      fun _ => rfl, .promoted rfl rfl hidle hserving⟩
    · intro y hy hactive hdb
      exact (not_busy hidle hy hactive hdb).elim
    · rintro kind params ⟨⟩
      refine ⟨⟨nofun, nofun, fun _ => rfl⟩, ⟨nofun, nofun⟩, ?_, fun _ => hidle, nofun⟩
      rintro (h | h)
      · cases h
      · exact (hdeleting h).elim
  | deleted id d hrow _ hnone =>
    refine .inr ⟨hrow.locked, d, fun d => { d with status := .deleting }, hrow.row,
      hrow.live, fun _ => rfl, fun _ => rfl, hl.sized id d hrow.row, rfl,
      fun _ _ => rfl, hl.placed.setStatus _ _, ?_, ?_, rfl, ?_, fun _ => rfl,
      .deleted rfl rfl⟩
    · intro y _ _ _ hsuper
      cases hsuper
    · rintro _ _ ⟨⟩
      exact ⟨⟨nofun, fun _ => rfl, nofun⟩, ⟨nofun, nofun⟩, fun _ => rfl, nofun, nofun⟩
    · intro hsome
      rw [hnone] at hsome
      cases hsome
  | started id d _ hrow hdeleting hprov hdel hrot _ hserves =>
    exact .inr ⟨hrow.locked, d, fun d => d, .ordinary hl hrow hdeleting hdel hprov hrot hserves
      (fun _ => rfl) (fun _ => rfl) (fun _ => rfl) (fun _ => rfl) (hl.sized id d hrow.row) rfl
      (by rw [update_id]) (fun _ _ => rfl) hl.placed⟩
  | certified id d secrets _ hrow hdeleting hsecrets hserving =>
    refine .inr ⟨hrow.locked, d, fun d => { d with secrets := some _ }, .ordinary hl hrow
      hdeleting nofun rfl nofun (.inl hserving) (fun _ => rfl) (fun _ => rfl) (fun _ => rfl)
      (fun _ => rfl) (hl.sized id d hrow.row) ?_ rfl (fun _ _ => rfl)
      (hl.placed.storeSecrets _ _)⟩
    -- the certificate is not one of the secrets a replica shares
    rw [hsecrets]
    rfl
  | resized _ d resources _ hrow hdeleting hpositive _ _ _ hserving =>
    refine .inr ⟨hrow.locked, d, fun d => { d with resources := resources }, .ordinary hl hrow
      hdeleting nofun rfl nofun (.inl hserving) (fun _ => rfl) (fun _ => rfl) (fun _ => rfl)
      (fun _ => rfl) hpositive rfl rfl (fun _ _ => rfl) ?_⟩
    exact hl.placed.of_update (f := fun d => { d with resources := resources })
      (fun _ => rfl) rfl (fun _ h => h) fun n hn => ⟨n, hn, rfl⟩
  | replaced id d _ _ _ _ hrow hdeleting hsecrets _ _ _ hserving =>
    refine .inr ⟨hrow.locked, d, fun d => d, .ordinary hl hrow hdeleting nofun rfl nofun
      (.inl hserving) (fun _ => rfl) (fun _ => rfl) (fun _ => rfl) (fun _ => rfl)
      (hl.sized id d hrow.row) rfl
      (by rw [update_id]; rfl) (fun j hj => nodesOf_addNodes ?_ hj)
      (hl.placed.addNodes ?_ ⟨d, hrow.row, hsecrets⟩)⟩
    all_goals simp
  | swept id d status hrow hserving hserving' =>
    have hlive := (DbStatus.ne_of_serving hserving').2.1
    refine .inr ⟨hrow.locked, d, fun d => { d with status := status }, hrow.row,
      hrow.live, fun _ => rfl, fun _ => rfl, hl.sized id d hrow.row, rfl,
      fun _ _ => rfl, hl.placed.setStatus _ _, ?_, nofun, rfl, fun _ => ⟨?_, hlive⟩,
      fun _ => rfl, .swept rfl rfl hserving hserving'⟩
    · intro y _ _ _ _ hfits
      exact hfits.of_serving hserving hlive
    · exact (DbStatus.ne_of_serving hserving').1

theorem NewDatabase.kind_provisional (h : NewDatabase call H s d kind) : kind.provisional := by
  rcases h.source with ⟨rfl, -⟩ | ⟨rfl, -⟩ <;> rfl

theorem NewDatabase.replicaOf (h : NewDatabase call H s d kind)
    (hof : d.replicaOf = some source) : ∃ t, LockedRow H s source t ∧ t.status.serving := by
  rcases h.source with ⟨-, hnot⟩ | ⟨-, _, t, _, -, hof', hrow, hserving, -⟩
  · rw [hnot] at hof
    cases hof
  · cases hof'.symm.trans hof
    exact ⟨t, hrow, hserving⟩

theorem Lifecycle.commit_insert (hl : Lifecycle s) (hledger : Ledger s)
    (hnew : NewDatabase call H s d kind) :
    Lifecycle (ApiResult.commit ⟨d.id, false, some (kind, params)⟩ (insert d) s) := by
  have hnone := hnew.fresh
  have hkind := hnew.kind_provisional
  have hself : (s.world.insert d).db? d.id = some d := by rw [db?_insert hnone, if_pos rfl]
  have hother : ∀ j d₀, s.world.db? j = some d₀ → j ≠ d.id
      ∧ (s.world.insert d).db? j = some d₀ := fun _ _ => db?_insert_of_some hnone
  -- no operation was active for a database that did not exist
  have hidle : ∀ y ∈ s.operations, y.active → y.database ≠ d.id := by
    intro y hy hactive
    obtain ⟨d₀, hd₀, -⟩ := hl.rows y hy hactive
    exact (hother _ _ hd₀).1
  refine ⟨?_, ?_, ?_, ?_, ?_, ?_, ?_⟩
  · rw [commit_world]
    exact hl.unique.insert hnone
  · intro j d' hd'
    rw [commit_world, db?_insert hnone] at hd'
    split at hd'
    · cases hd'
      exact hnew.sized
    · exact hl.sized j d' hd'
  · rw [commit_world]
    intro n hn
    obtain ⟨d₀, hd₀, hsecrets⟩ := hl.placed n hn
    exact ⟨d₀, (hother _ _ hd₀).2, hsecrets⟩
  · intro x hx hactive
    rw [commit_world]
    rcases active_commit hx hactive with ⟨hold, -⟩ | ⟨k, p, hcreate, rfl⟩
    · obtain ⟨d₀, hd₀, hfits⟩ := hl.rows x hold hactive
      exact ⟨d₀, (hother _ _ hd₀).2, hfits⟩
    · cases hcreate
      refine ⟨d, hself, ?_⟩
      rw [hnew.status]
      refine ⟨nofun, ?_, fun _ => rfl⟩
      intro hdel
      have hdel : kind = .delete := hdel
      rw [hdel] at hkind
      cases hkind
  · intro x hx z hz hxa hza hdb hdel
    rcases active_commit hx hxa with ⟨hxold, -⟩ | ⟨k, p, hcx, rfl⟩
    · rcases active_commit hz hza with ⟨hzold, -⟩ | ⟨k, p, hcz, rfl⟩
      · exact hl.alone x hxold z hzold hxa hza hdb hdel
      · exact (hidle x hxold hxa hdb.symm).elim
    · cases hcx
      have hdel : kind = .delete := hdel
      rw [hdel] at hkind
      cases hkind
  · intro x hx z hz hxa hza hdb hprov
    rcases active_commit hz hza with ⟨hzold, -⟩ | ⟨k, p, _, rfl⟩
    · rcases active_commit hx hxa with ⟨hxold, -⟩ | ⟨k, p, hcx, rfl⟩
      · exact hl.first x hxold z hzold hxa hza hdb hprov
      · exact (hidle z hzold hza hdb).elim
    · rcases active_commit hx hxa with ⟨hxold, -⟩ | ⟨_, _, _, rfl⟩
      · exact (hledger.fresh x hxold).le
      · exact le_rfl
  · intro j hj
    rcases hasReplicas_insert hj with hj | hof
    · obtain ⟨⟨t, ht, hok⟩, hsettled⟩ := hl.sources j hj
      obtain ⟨hne, ht'⟩ := hother _ _ ht
      refine ⟨⟨t, by rw [commit_world, ht'], hok⟩, fun x hx hactive hdb => ?_⟩
      rcases active_commit hx hactive with ⟨hold, -⟩ | ⟨k, p, -, rfl⟩
      · exact hsettled x hold hactive hdb
      · exact (hne hdb.symm).elim
    · obtain ⟨t, ⟨-, ht, -⟩, hserving⟩ := hnew.replicaOf hof
      obtain ⟨hne, ht'⟩ := hother _ _ ht
      obtain ⟨hdeleting, hdeleted, hprov, -⟩ := DbStatus.ne_of_serving hserving
      refine ⟨⟨t, by rw [commit_world, ht'], hdeleting, hdeleted⟩, fun x hx hactive hdb => ?_⟩
      rcases active_commit hx hactive with ⟨hold, -⟩ | ⟨k, p, -, rfl⟩
      · obtain ⟨_, ht', hfits⟩ := hl.rows x hold hactive
        rw [hdb] at ht'
        cases ht.symm.trans ht'
        exact ⟨fun h => hprov (hfits.provisioning (h ▸ rfl)),
          fun h => hprov (hfits.provisioning (h ▸ rfl))⟩
      · exact (hne hdb.symm).elim

theorem Lifecycle.commit (hl : Lifecycle s) (hledger : Ledger s)
    (h : HandlerCommit X F call H s r w) : Lifecycle (r.commit w s) := by
  rcases h.effect hl with ⟨d, _, hnew, rfl, rfl⟩ | ⟨-, d, f, heffect⟩
  · exact hl.commit_insert hledger hnew
  · exact hl.commit_update hledger heffect

theorem Frame.commit (hl : Lifecycle s) (h : HandlerCommit X F call H s r w) :
    Frame H s (r.commit w s) := by
  rcases h.effect hl with ⟨d, _, hnew, rfl, rfl⟩ | ⟨hlocked, d, f, heffect⟩
  · refine ⟨fun j hj => ?_, fun j hj => by rw [commit_world]; rfl, fun j hj h => ?_⟩
    · rw [commit_world, db?_insert hnew.fresh, if_neg]
      rintro rfl
      exact hj hnew.locked
    · refine (hasReplicas_insert h).resolve_right fun hof => ?_
      -- a new replica's source is locked
      obtain ⟨t, hrow, -⟩ := hnew.replicaOf hof
      exact hj hrow.locked
  · refine .of_update hlocked hl.unique heffect.id ?_ (by rw [commit_world, heffect.rows])
      fun j hj => by rw [commit_world, heffect.nodes j hj]
    intro _ _ hd₀ hof _
    cases heffect.row.symm.trans hd₀
    exact ⟨heffect.replicaOf d ▸ hof, heffect.live⟩

end Handlers

/-! ## Whole runs -/

theorem HandlerCommit.locked {call : Call}
    {H : Set Key} {r : ApiResult} {w : World → World} (hl : Lifecycle s)
    (h : HandlerCommit X F call H s r w) : .database r.target ∈ H := by
  rcases h.effect hl with ⟨d, _, hnew, rfl, rfl⟩ | ⟨hlocked, -⟩
  · exact hnew.locked
  · exact hlocked

/-- pgcluster-admin keeps a contract over the lifecycle if every commit of a
step and of a handler does. -/
theorem verified_of_commits (hX : X.Framed) (hlife : ∀ s, X.Inv s → Lifecycle s)
    (hstep : ∀ late e c o w H s, Ledger s → X.Inv s → Running c s →
      X.Cond (.reconcile late e) s → .database c.database ∈ H →
      StepCommit X F (.reconcile late e) e c H s o w → X.Inv (s.settle onFail c o w)
        ∧ X.Guar (.reconcile late e) (some c) H s (s.settle onFail c o w))
    (hapi : ∀ call r w H s, Ledger s → X.Inv s → X.Cond (.api call) s →
      HandlerCommit X F call H s r w →
      X.Inv (r.commit w s) ∧ X.Guar (.api call) none H s (r.commit w s)) (a : Request Env Call) :
    X.contract.Verified a ((adminEngine F).program a) none ∅ fun _ => True := by
  refine Engine.verified ?_ ?_ a
  · intro late e c s₁ o w H s _ hcomes hledger hinv hrun hcond
    have hdb : Key.database c.database
        ∈ ({.database c.database, .step c.op c.idx} : Set Key) := .inl rfl
    exact hstep late e c o w H s hledger hinv hrun hcond (hcomes.holds hdb)
      (stepCommit_of_comes hX hdb hcomes)
  · intro call _ r w H s hcomes hledger hinv hcond
    have hcommit := handlerCommit_of_comes hX (fun s hs => (hlife s hs).sized) hcomes
    rw [Set.insert_eq_of_mem (hcommit.locked (hlife s hinv))]
    exact hapi call r w H s hledger hinv hcond hcommit

/-- An invariant with the frame, and no condition on the runs. -/
def framed (Inv : Tables World → Prop) : Extension World Env Call where
  Inv := Inv
  Guar _ _ H s s' := Frame H s s'
  Cond _ _ := True
  Fresh _ _ _ _ := True

/-- An invariant over the lifecycle that every commit keeps holds in every
committed state of every interleaving of handlers and reconcilers. -/
theorem holds_of_commits {Inv : Tables World → Prop} (hempty : Inv ⟨[], 0, empty, []⟩)
    (hlife : ∀ s, Inv s → Lifecycle s)
    (hstep : ∀ {a e c o w H s}, Inv s → Ledger s → Running c s →
      StepCommit (framed Inv) F a e c H s o w → Inv (s.settle onFail c o w))
    (hapi : ∀ {call r w H s}, Inv s → Ledger s →
      HandlerCommit (framed Inv) F call H s r w → Inv (r.commit w s))
    {st : Store (Tables World) Key Claimed (Request Env Call)}
    (hr : ((adminEngine F).machine empty).Reachable st) : Inv st.tables := by
  have hgood : (framed Inv).contract.Good st := by
    refine Contract.sound ⟨Engine.ledger_empty _, hempty⟩
      (verified_of_commits (fun _ _ _ _ _ h => h) hlife ?_ ?_) (hr.mono fun st l _ =>
        Contract.permits_any (fun _ _ => trivial) (fun _ _ _ _ => trivial) st l)
    · intro _ e c o w H s hledger hs hrun _ hdb h
      exact ⟨hstep hs hledger hrun h, .settle (hlife s hs) hrun hdb h⟩
    · intro _ r w H s hledger hs _ h
      exact ⟨hapi hs hledger h, .commit (hlife s hs) h⟩
  exact hgood.inv.2

theorem lifecycle_empty : Lifecycle ⟨[], 0, empty, []⟩ := by
  refine ⟨.nil, ?_, ?_, ?_, ?_, ?_, ?_⟩
  · intro id d h
    cases h
  · intro n hn
    cases hn
  · intro r hr
    cases hr
  · intro r hr
    cases hr
  · intro r hr
    cases hr
  · intro _ h
    cases h

/-- A replica never outlives its source. In every committed state of every
interleaving of handlers and reconcilers, a database that is a replica and
not deleted has a source whose row is there, and neither deleting nor
deleted. -/
theorem replica_never_outlives_source (F : Fleet)
    {st : Store (Tables World) Key Claimed (Request Env Call)}
    (hr : ((adminEngine F).machine World.empty).Reachable st) :
    ∀ d ∈ st.tables.world.databases, ∀ source, d.replicaOf = some source →
      d.status ≠ .deleted → ∃ t ∈ st.tables.world.databases,
        t.id = source ∧ t.status ≠ .deleting ∧ t.status ≠ .deleted := by
  have hl : Lifecycle st.tables :=
    holds_of_commits lifecycle_empty (fun _ h => h) Lifecycle.settle Lifecycle.commit hr
  intro d hd source hof hlive
  obtain ⟨⟨t, ht, hdeleting, hdeleted⟩, -⟩ :=
    hl.sources source (hasReplicas_iff.mpr ⟨d, hd, hof, hlive⟩)
  exact ⟨t, db?_mem ht, db?_id ht, hdeleting, hdeleted⟩

/-! ### Runs -/

/-- Requests served one after the other from an empty database, and what they leave. -/
theorem exists_serial (F : Fleet) (l : List (Request Env Call × Option Key))
    (P : Tables World → Prop) [DecidablePred P]
    (h : (serial (adminEngine F).program (fun _ _ => true) l ⟨[], 0, empty, []⟩).any fun s => P s) :
    ∃ s, ((adminEngine F).machine empty).Reachable (Store.idle s) ∧ P s := by
  simp only [Option.any_eq_true, decide_eq_true_eq] at h
  obtain ⟨s, hs, hP⟩ := h
  have hr := Contract.reaches_of_serial (C := (framed Lifecycle).contract) (fun _ _ _ => trivial)
    (fun _ _ _ => trivial) .init hs
  exact ⟨s, hr.reachable, hP⟩

/-- Hosts `h1` to `h4` of one size, each a failure domain of its own. -/
def fourHosts : Fleet where
  config := ⟨1, 0, 0, 5000, 6000, by norm_num, by norm_num, by decide⟩
  hosts := ["h1", "h2", "h3", "h4"].map fun id => ⟨id, id, none, some ⟨4, 5, 10⟩⟩
  describe _ := ""
  ids := by decide
  sizes := by
    intro h hh c hc d
    obtain ⟨id, -, rfl⟩ := List.mem_map.mp hh
    cases hc
    cases d <;> norm_num [Resources.amount]

/-- All four are online, whatever is asked of them is done, and random
material is made from one string. -/
def calm (random : String) : Env where
  online := ["h1", "h2", "h3", "h4"]
  draining := []
  outcome := some .done
  random := ⟨"ca " ++ random, "key " ++ random, ⟨random, random, random, random⟩, random⟩

/-- The first `n` steps of an operation. -/
def runSteps (e : Env) (op n : Nat) : List (Request Env Call × Option Key) :=
  (List.range n).map fun i => (.reconcile false e, some (.step op i))

/-- A three-node database `s`, brought up by operation 0. -/
def bringUp : List (Request Env Call × Option Key) :=
  (.api ⟨calm "s", .create "s" true ⟨1, 1, 1⟩ []⟩, none) :: runSteps (calm "s") 0 6

/-- An update of `s` is operation 1. Two reconcilers try for its first step, and
the one that was passed over runs the second. -/
def bothTry : List (TxnLabel Key (Request Env Call)) :=
  ([.start 1 (.reconcile false (calm "")), .start 2 (.reconcile false (calm "")),
    .advance 1 none, .advance 2 none, .advance 1 (some (.step 1 0)), .advance 2 none] :
      List (TxnLabel Key (Request Env Call)))
    ++ (List.replicate 5 (.advance 1 none) : List (TxnLabel Key (Request Env Call)))
    ++ ([.advance 2 none, .start 2 (.reconcile false (calm ""))] :
      List (TxnLabel Key (Request Env Call)))
    ++ (List.replicate 7 (.advance 2 (some (.step 1 1))) : List (TxnLabel Key (Request Env Call)))

/-- Both steps are done, each once, and the update has succeeded. -/
theorem one_operation_at_a_time_bothTry :
    ∃ st, ((adminEngine fourHosts).machine World.empty).Reachable st
      ∧ doneMarks st.tables.history 1 = [0, 1]
      ∧ st.tables.operations.map (·.status) = [.succeeded, .succeeded]
      ∧ ∀ r ∈ st.tables.operations, r.status = .succeeded → ∀ p ∈ r.steps, p.status = .done := by
  obtain ⟨_, hr, hrun⟩ := exists_serial fourHosts
    (bringUp ++ [(.api ⟨calm "", .update "s"⟩, none)])
    (fun s => (((adminEngine fourHosts).machine empty).runFrom (Store.idle s) bothTry).any
      fun st => doneMarks st.tables.history 1 = [0, 1]
        ∧ st.tables.operations.map (·.status) = [.succeeded, .succeeded]) (by decide +kernel)
  simp only [Option.any_eq_true, decide_eq_true_eq] at hrun
  obtain ⟨st, hst, hmarks, hstatus⟩ := hrun
  have hreach := hr.runFrom (Machine.meets_true _ _) hst
  obtain ⟨-, -, -, -, hdone, -⟩ := (adminEngine fourHosts).one_operation_at_a_time empty hreach
  exact ⟨st, hreach, hmarks, hstatus, hdone⟩

/-- A replica `r` of `s` is created and placed, and a delete of `s` refused. -/
theorem replica_never_outlives_source_refused :
    ∃ st, ((adminEngine fourHosts).machine World.empty).Reachable st
      ∧ ∃ d ∈ st.tables.world.databases, d.replicaOf = some "s" ∧ d.status ≠ .deleted
        ∧ ∃ t ∈ st.tables.world.databases,
            t.id = "s" ∧ t.status ≠ .deleting ∧ t.status ≠ .deleted := by
  obtain ⟨_, hr, d, hd, hof, -, hlive⟩ := exists_serial fourHosts
    (bringUp ++ (.api ⟨calm "r", .createReplica "s" "r" none⟩, none)
      :: runSteps (calm "r") 1 1 ++ [(.api ⟨calm "", .delete "s"⟩, none)])
    (fun s => ∃ d ∈ s.world.databases, d.replicaOf = some "s" ∧ d.secrets.isSome
      ∧ d.status ≠ .deleted) (by decide +kernel)
  exact ⟨_, hr, d, hd, hof, hlive, replica_never_outlives_source fourHosts hr d hd "s" hof hlive⟩

end PgCluster.Admin
