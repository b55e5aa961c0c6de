import PgCluster.AdminLifecycle

/-!
# What replicas share with their sources

A replica's data holds its source's CA and passwords, so `place_replica`
copies them and `start` refuses to rotate the secrets of a database that has
replicas. `replicas::create` has no such check the other way round: it lets
a replica in while a rotation of its source is pending or running, and if
the replica is placed first, the rotation leaves it behind.

In runs that create replicas only of databases with no rotation pending or
running, the secrets stay equal (`Sharing`). The copy is made without a lock
on the source's row: it is good because nobody changes what a database with
replicas shares (`SharedKept`).
-/

namespace PgCluster.Admin

open World Option

def Tables.rotating (s : Tables World) (id : String) : Bool :=
  s.operations.any fun r => r.database = id && r.active && r.kind.rotation

/-- A replica that is placed and not deleted has its source's CA certificate
and passwords, unless a rotation of the source is pending or running. -/
def SharesSecrets (s : Tables World) : Prop :=
  ∀ d ∈ s.world.databases, ∀ source, d.replicaOf = some source → d.status ≠ .deleted →
    (∃ n ∈ s.world.nodes, n.database = d.id) → s.rotating source = false →
    ∃ a b, d.secrets = some a ∧ s.world.secrets? source = some b ∧ a.shared = b.shared

/-- What `replicas::create` does not check: no rotation of the source is
pending or running. -/
def quietSource : Request Env Call → Tables World → Bool
  | .api ⟨_, .createReplica source _ _⟩, s => !s.rotating source
  | _, _ => true

structure Sharing (s : Tables World) : Prop where
  lifecycle : Lifecycle s
  quiet : ∀ source, s.world.hasReplicas source = true → s.rotating source = false
  own : ∀ r ∈ s.operations, r.active = true → (r.kind.rotation = true ∨ r.kind = .create) →
    ∀ d, s.world.db? r.database = some d → d.replicaOf = none
  same : ∀ id d source secrets, s.world.db? id = some d → d.replicaOf = some source →
    d.status ≠ .deleted → d.secrets = some secrets →
    (s.world.secrets? source).map (·.shared) = some secrets.shared

def SharedKept (s s' : Tables World) : Prop :=
  ∀ source, s.world.hasReplicas source = true →
    (s'.world.secrets? source).map (·.shared) = (s.world.secrets? source).map (·.shared)

def sharing : Extension World Env Call where
  Inv := Sharing
  Guar _ _ H s s' := Frame H s s' ∧ SharedKept s s'
  Cond a s := quietSource a s = true
  Fresh _ _ _ _ := True

theorem sharing_framed : sharing.Framed := fun _ _ _ _ _ h => h.1

/-! ## Rotations -/

variable {F : Fleet} {H : Set Key} {s : Tables World} {w : World → World} {d : DatabaseRow}

theorem rotating_iff {id : String} : s.rotating id
    ↔ ∃ r ∈ s.operations, r.database = id ∧ r.active ∧ r.kind.rotation := by
  simp [Tables.rotating, and_assoc]

theorem Kind.rotation_of_step {k : Kind} {i : Nat} {name : StepName}
    (h : k.steps[i]? = some name) (hname : name ∈ rotationSteps) : k.rotation := by
  have hall : ∀ i < k.steps.length, ∀ name ∈ rotationSteps, k.steps[i]? = some name →
      k.rotation := by
    cases k <;> decide
  exact hall i (List.getElem?_eq_some_iff.mp h).1 name hname h

section Steps

variable {a : Request Env Call} {e : Env} {c : Claimed} {s' : Tables World} {o : Outcome}

theorem hasReplicas_of_row {v : World} {id source : String}
    (hd : v.db? id = some d) (hof : d.replicaOf = some source) (hlive : d.status ≠ .deleted) :
    v.hasReplicas source :=
  hasReplicas_iff.mpr ⟨d, db?_mem hd, hof, hlive⟩

theorem later_shared {id source : String} (hk : .database id ∈ H)
    (h : sharing.contract.Later H s s') (hd : s.world.db? id = some d)
    (hof : d.replicaOf = some source) (hlive : d.status ≠ .deleted) :
    (s'.world.secrets? source).map (·.shared) = (s.world.secrets? source).map (·.shared) := by
  refine (Contract.Stable.later (K := fun t => t.world.db? id = some d
    ∧ (t.world.secrets? source).map (·.shared) = (s.world.secrets? source).map (·.shared))
    ?_ h ⟨hd, rfl⟩).2
  rintro a n _ t _ hdis - - hG ⟨hrow, hsame⟩
  refine ⟨(hG.2.1.rows id (hdis _ hk)).trans hrow, ?_⟩
  rw [hG.2.2 source (hasReplicas_of_row hrow hof hlive), hsame]

/-- A step does not change what a database with replicas shares: those that
change secrets belong to operations such a database cannot have. -/
theorem SharedKept.settle (hs : Sharing s) (hledger : Ledger s) (hrun : Running c s)
    (h : StepCommit sharing F a e c H s o w) : SharedKept s (s.settle onFail c o w) := by
  obtain ⟨f, hf, hrows⟩ := h.settle
  obtain ⟨d, hd, hfits⟩ := hs.lifecycle.running hrun
  have hname := hrun.name hledger
  intro source hreplicas
  by_cases hc : source = c.database
  · subst hc
    obtain ⟨⟨t, ht, hdeleting, -⟩, hsettled⟩ := hs.lifecycle.sources _ hreplicas
    cases hd.symm.trans ht
    obtain ⟨r, hclaims, hactive⟩ := hrun
    have hkind := hsettled r hclaims.mem hactive hclaims.database
    rw [hclaims.kind] at hkind
    rw [secrets?, secrets?, (Updates.of_update hrows hf.id hd).self, hd, bind_some, bind_some]
    rcases hf.secrets d with hsame | hfin | hrot | hplace | ⟨hplace, -⟩
    · rw [hsame]
    · exact (hdeleting (hfits.deleting (Kind.place .finalize (hfin.1 ▸ hname)).1)).elim
    · have hrotating := rotating_iff.mpr ⟨r, hclaims.mem, hclaims.database, hactive,
        hclaims.kind ▸ Kind.rotation_of_step hname hrot⟩
      rw [hs.quiet _ hreplicas] at hrotating
      cases hrotating
    · exact (hkind.1 (Kind.place .place (hplace ▸ hname)).1).elim
    · exact (hkind.2 (Kind.place .placeReplica (hplace ▸ hname)).1).elim
  · rw [secrets?, secrets?, db?_congr hrows, db?_update_ne hf.id hc]

theorem CopiedFrom.shared {source : String} {secrets : DatabaseSecrets}
    (h : CopiedFrom sharing c H s d source secrets) (hk : .database c.database ∈ H)
    (hlive : d.status ≠ .deleted) :
    (s.world.secrets? source).map (·.shared) = some secrets.shared := by
  obtain ⟨_, hsecrets, hl, -, hd₂⟩ := h.readFrom
  rw [later_shared hk hl hd₂ h.replica hlive, hsecrets]
  rfl

theorem Sharing.settle (hs : Sharing s) (hledger : Ledger s) (hrun : Running c s)
    (hdb : .database c.database ∈ H) (h : StepCommit sharing F a e c H s o w) :
    Sharing (s.settle onFail c o w) := by
  have hkept := SharedKept.settle hs hledger hrun h
  have hlife := hs.lifecycle.settle hledger hrun h
  obtain ⟨f, hf, hrows⟩ := h.settle
  obtain ⟨d, hd, hfits⟩ := hs.lifecycle.running hrun
  have hname := hrun.name hledger
  have hrow := Updates.of_update hrows hf.id hd
  refine ⟨hlife, ?_, ?_, ?_⟩
  · intro source hreplicas
    refine Bool.eq_false_iff.mpr fun hrot => ?_
    obtain ⟨x, hx, hxdb, hactive, hkind⟩ := rotating_iff.mp hrot
    obtain ⟨y, hy, hya, -, hydb, hykind, -⟩ := active_settle hledger hrun hx hactive
    have hbefore := rotating_iff.mpr ⟨y, hy, hydb.trans hxdb, hya, hykind ▸ hkind⟩
    rw [hs.quiet source (h.hasReplicas hs.lifecycle hrun hreplicas)] at hbefore
    cases hbefore
  · intro x hx hactive hkind d' hd'
    obtain ⟨y, hy, hya, -, hydb, hykind, -⟩ := active_settle hledger hrun hx hactive
    rw [← hykind] at hkind
    rw [← hydb] at hd'
    rcases hrow.cases hd' with ⟨hj, rfl⟩ | ⟨-, hd'⟩
    · have hnone := hs.own y hy hya hkind d (hj ▸ hd)
      rcases hf.replicaOf d with h | h
      · rw [h, hnone]
      · exact h
    · exact hs.own y hy hya hkind d' hd'
  · intro id d' source secrets hd' hof hlive hsecrets
    rcases hrow.cases hd' with ⟨rfl, rfl⟩ | ⟨-, hd'⟩
    · have hof₀ := hf.replica hof
      rw [hkept source (hasReplicas_of_row hd hof₀ hfits.live)]
      have hown : c.kind.rotation ∨ c.kind = .create → False := by
        intro hkind
        obtain ⟨r, hc, hactive⟩ := hrun
        rw [hs.own r hc.mem hactive (hc.kind ▸ hkind) d (hc.database ▸ hd)] at hof₀
        cases hof₀
      rcases hf.secrets d with hsame | hfin | hrot | hplace | ⟨hplace, _, _, _, g, hcopy, hnew⟩
      · exact hs.same _ d source secrets hd hof₀ hfits.live (hsame ▸ hsecrets)
      · rw [hfin.2] at hsecrets
        cases hsecrets
      · exact (hown (.inl (Kind.rotation_of_step hname hrot))).elim
      · exact (hown (.inr (Kind.place .place (hplace ▸ hname)).1)).elim
      · cases hd.symm.trans hcopy.row
        cases hof₀.symm.trans hcopy.replica
        rw [hcopy.shared hdb hfits.live]
        rw [hnew] at hsecrets
        cases hsecrets
        rfl
    · rw [hkept source (hasReplicas_of_row hd' hof hlive)]
      exact hs.same id d' source secrets hd' hof hlive hsecrets

end Steps

section Handlers

variable {call : Call} {r : ApiResult}

theorem Sharing.commit_insert (hs : Sharing s) (hledger : Ledger s) {kind : Kind}
    (hnew : NewDatabase call H s d kind) (hcond : quietSource (.api call) s) :
    Sharing (ApiResult.commit ⟨d.id, false, some (kind, .none)⟩ (insert d) s)
      ∧ SharedKept s (ApiResult.commit ⟨d.id, false, some (kind, .none)⟩ (insert d) s) := by
  have hnone := hnew.fresh
  have hother : ∀ j d₀, s.world.db? j = some d₀ → (s.world.insert d).db? j = some d₀ :=
    fun _ _ hd₀ => (db?_insert_of_some hnone hd₀).2
  have hkept : ∀ source, s.world.hasReplicas source →
      ((s.world.insert d).secrets? source).map (·.shared)
        = (s.world.secrets? source).map (·.shared) := by
    intro source hreplicas
    obtain ⟨⟨t, ht, -⟩, -⟩ := hs.lifecycle.sources source hreplicas
    rw [secrets?, secrets?, hother _ _ ht, ht]
  refine ⟨⟨hs.lifecycle.commit_insert hledger hnew, ?_, ?_, ?_⟩, ?_⟩
  · intro source hreplicas
    refine Bool.eq_false_iff.mpr fun hrot => ?_
    obtain ⟨x, hx, hxdb, hactive, hkind⟩ := rotating_iff.mp hrot
    rcases active_commit hx hactive with ⟨hold, -⟩ | ⟨k, p, hcreate, rfl⟩
    · have hbefore := rotating_iff.mpr ⟨x, hold, hxdb, hactive, hkind⟩
      rcases hasReplicas_insert hreplicas with hreplicas | hof
      · rw [hs.quiet source hreplicas] at hbefore
        cases hbefore
      · -- the new replica's source is quiet by the condition
        rcases hnew.source with ⟨-, hnot⟩ | ⟨-, source', t, _, hcall, hof', -⟩
        · rw [hnot] at hof
          cases hof
        · obtain rfl := Option.some.inj (hof'.symm.trans hof)
          obtain ⟨_, request⟩ := call
          obtain rfl : request = _ := hcall
          have hquiet : (!s.rotating source') := hcond
          rw [hbefore] at hquiet
          cases hquiet
    · cases hcreate
      rcases hnew.source with ⟨rfl, -⟩ | ⟨rfl, -⟩ <;> cases hkind
  · intro x hx hactive hkind d' hd'
    rw [commit_world] at hd'
    rcases active_commit hx hactive with ⟨hold, -⟩ | ⟨k, p, hcreate, rfl⟩
    · obtain ⟨d₀, hd₀, -⟩ := hs.lifecycle.rows x hold hactive
      rw [hother _ _ hd₀] at hd'
      obtain rfl := Option.some.inj hd'
      exact hs.own x hold hactive hkind d₀ hd₀
    · cases hcreate
      have hd' : (s.world.insert d).db? d.id = some d' := hd'
      rw [db?_insert hnone, if_pos rfl] at hd'
      obtain rfl := Option.some.inj hd'
      rcases hnew.source with ⟨-, hnot⟩ | ⟨hk, -⟩
      · exact hnot
      · subst hk
        rcases hkind with h | h <;> cases h
  · intro id d' source secrets hd' hof hlive hsecrets
    rw [commit_world] at hd' ⊢
    rw [db?_insert hnone] at hd'
    split at hd'
    · obtain rfl := Option.some.inj hd'
      rw [hnew.secrets] at hsecrets
      cases hsecrets
    · rw [hkept source (hasReplicas_of_row hd' hof hlive)]
      exact hs.same id d' source secrets hd' hof hlive hsecrets
  · intro source hreplicas
    rw [commit_world]
    exact hkept source hreplicas

theorem Sharing.commit_update (hs : Sharing s) (hledger : Ledger s)
    {f : DatabaseRow → DatabaseRow} (h : HandlerEffect s r w d f) :
    Sharing (r.commit w s) ∧ SharedKept s (r.commit w s) := by
  have hrow := h.updates
  have hkept : ∀ j, ((r.commit w s).world.secrets? j).map (·.shared)
      = (s.world.secrets? j).map (·.shared) := by
    intro j
    by_cases hj : j = r.target
    · subst hj
      rw [secrets?, secrets?, hrow.self, h.row]
      exact h.shared
    · rw [secrets?, secrets?, hrow.other j hj]
  refine ⟨⟨hs.lifecycle.commit_update hledger h, ?_, ?_, ?_⟩, fun source _ => hkept source⟩
  · intro source hreplicas
    rw [commit_world] at hreplicas
    have hbefore := h.hasReplicas hs.lifecycle hreplicas
    refine Bool.eq_false_iff.mpr fun hrot => ?_
    obtain ⟨x, hx, hxdb, hactive, hkind⟩ := rotating_iff.mp hrot
    rcases active_commit hx hactive with ⟨hold, -⟩ | ⟨kind, params, hcreate, rfl⟩
    · have hwas := rotating_iff.mpr ⟨x, hold, hxdb, hactive, hkind⟩
      rw [hs.quiet source hbefore] at hwas
      cases hwas
    · obtain rfl : r.target = source := hxdb
      rw [((h.new kind params hcreate).apart hkind).2] at hbefore
      cases hbefore
  · intro x hx hactive hkind d' hd'
    rcases active_commit hx hactive with ⟨hold, -⟩ | ⟨kind, params, hcreate, rfl⟩
    · rcases hrow.cases hd' with ⟨hj, rfl⟩ | ⟨-, hd'⟩
      · rw [h.replicaOf]
        exact hs.own x hold hactive hkind d (hj ▸ h.row)
      · exact hs.own x hold hactive hkind d' hd'
    · cases hrow.self.symm.trans hd'
      rw [h.replicaOf]
      rcases hkind with hrot | hcr
      · exact ((h.new kind params hcreate).apart hrot).1
      · exact ((h.new kind params hcreate).notNew.1 hcr).elim
  · intro id d' source secrets hd' hof hlive hsecrets
    rw [hkept]
    rcases hrow.cases hd' with ⟨rfl, rfl⟩ | ⟨-, hd'⟩
    · rw [h.replicaOf] at hof
      have hshared := h.shared
      rw [hsecrets, map_some, eq_comm, map_eq_some_iff] at hshared
      obtain ⟨old, hold, heq⟩ := hshared
      rw [hs.same _ d source old h.row hof h.live hold, heq]
    · exact hs.same id d' source secrets hd' hof hlive hsecrets

theorem Sharing.commit (hs : Sharing s) (hledger : Ledger s)
    (hcond : quietSource (.api call) s) (h : HandlerCommit sharing F call H s r w) :
    Sharing (r.commit w s) ∧ SharedKept s (r.commit w s) := by
  rcases h.effect hs.lifecycle with ⟨d, _, hnew, rfl, rfl⟩ | ⟨-, d, f, heffect⟩
  · exact hs.commit_insert hledger hnew hcond
  · exact hs.commit_update hledger heffect

end Handlers

/-! ## Whole runs -/

theorem sharing_verified (F : Fleet) (a : Request Env Call) :
    sharing.contract.Verified a ((adminEngine F).program a) none ∅ fun _ => True := by
  refine verified_of_commits sharing_framed (fun _ h => h.lifecycle) ?_ ?_ a
  · intro _ e c o w H s hledger hs hrun _ hdb h
    exact ⟨hs.settle hledger hrun hdb h, .settle hs.lifecycle hrun hdb h,
      SharedKept.settle hs hledger hrun h⟩
  · intro _ r w H s hledger hs hcond h
    obtain ⟨hinv, hkept⟩ := hs.commit hledger hcond h
    exact ⟨hinv, .commit hs.lifecycle h, hkept⟩

theorem Sharing.sharesSecrets (hs : Sharing s) : SharesSecrets s := by
  intro d hd source hof hlive hplaced _
  obtain ⟨n, hn, hdb⟩ := hplaced
  have hrow := hs.lifecycle.unique.db? hd
  obtain ⟨_, hd', hsome⟩ := hs.lifecycle.placed n hn
  rw [hdb] at hd'
  cases hrow.symm.trans hd'
  obtain ⟨a, ha⟩ := ne_none_iff_exists'.mp hsome
  have hsame := hs.same _ d source a hrow hof hlive ha
  obtain ⟨b, hb, heq⟩ := map_eq_some_iff.mp hsame
  exact ⟨a, b, ha, hb, heq.symm⟩

theorem sharing_empty : Sharing ⟨[], 0, empty, []⟩ := by
  refine ⟨lifecycle_empty, ?_, ?_, ?_⟩
  · intro source h
    cases h
  · intro r hr
    cases hr
  · intro _ _ _ _ hd
    cases hd

/-- A step of a run that creates replicas only of quiet sources: where a
`createReplica` commits, no rotation of its source is pending or running. -/
def CreatesQuietly (st : Store (Tables World) Key Claimed (Request Env Call)) :
    TxnLabel Key (Request Env Call) → Prop
  | .advance i _ => ∀ t, st.sessions i = some t → ∀ write, t.todo = .commit write →
      quietSource t.request st.tables = true
  | _ => True

theorem permits_iff_createsQuietly {st : Store (Tables World) Key Claimed (Request Env Call)}
    {l : TxnLabel Key (Request Env Call)} :
    sharing.contract.Permits st l ↔ CreatesQuietly st l := by
  cases l with
  | start | crash => rfl
  | advance => exact Contract.permits_iff_cond fun _ _ _ _ => trivial

/-- A replica shares its source's secrets, in every state of every run that
creates replicas only of databases with no rotation pending or running. -/
theorem replica_shares_secrets (F : Fleet)
    {st : Store (Tables World) Key Claimed (Request Env Call)}
    (hr : ((adminEngine F).machine World.empty).Reaches CreatesQuietly st) :
    SharesSecrets st.tables := by
  have hgood : sharing.contract.Good st :=
    Contract.sound ⟨Engine.ledger_empty _, sharing_empty⟩
      (sharing_verified F) (hr.mono fun _ _ => permits_iff_createsQuietly.mpr)
  exact hgood.inv.2.sharesSecrets

/-- Requests one after the other, with every `createReplica` where it may be. -/
theorem createsQuietly_of_serial {l : List (Request Env Call × Option Key)}
    (h : serial (adminEngine F).program quietSource l ⟨[], 0, empty, []⟩ = some s) :
    ((adminEngine F).machine empty).Reaches CreatesQuietly (Store.idle s) := by
  have hr := Contract.reaches_of_serial (C := sharing.contract) (fun _ _ _ => trivial)
    (fun _ _ h => h) .init h
  exact hr.mono fun _ _ => permits_iff_createsQuietly.mp

/-- Is there a placed replica of `source`, while no rotation of it is pending
or running? -/
def placedReplica (source : String) (s : Tables World) (p : DatabaseRow → Bool) : Bool :=
  !s.rotating source && s.world.databases.any fun d =>
    d.replicaOf = some source && d.status ≠ .deleted && s.world.nodes.any (·.database = d.id) && p d

theorem placedReplica_iff {source : String} {p : DatabaseRow → Bool} :
    placedReplica source s p ↔ s.rotating source = false
      ∧ ∃ d ∈ s.world.databases, d.replicaOf = some source ∧ d.status ≠ .deleted
          ∧ (∃ n ∈ s.world.nodes, n.database = d.id) ∧ p d := by
  simp [placedReplica, and_assoc]

/-- A replica `r` of `s`, placed and brought up with nothing else going on. -/
theorem replica_shares_secrets_placed :
    ∃ st, ((adminEngine fourHosts).machine World.empty).Reaches CreatesQuietly st
      ∧ placedReplica "s" st.tables (·.status = .active) = true ∧ SharesSecrets st.tables := by
  have hrun : (serial (adminEngine fourHosts).program quietSource
      (bringUp ++ (.api ⟨calm "r", .createReplica "s" "r" none⟩, none)
        :: runSteps (calm "r") 1 4) ⟨[], 0, World.empty, []⟩).any fun s =>
          placedReplica "s" s (·.status = .active) := by
    decide +kernel
  obtain ⟨s, hs, hplaced⟩ := (Option.any_eq_true _ _).mp hrun
  have hr := createsQuietly_of_serial hs
  exact ⟨_, hr, hplaced, replica_shares_secrets fourHosts hr⟩

/-- The rotation of `s` is asked for first, then the replica, which is placed
before the rotation has begun. When both have succeeded, the replica still
has the CA that `s` had. -/
theorem rotation_leaves_replica_behind :
    ∃ st, ((adminEngine fourHosts).machine World.empty).Reachable st
      ∧ ¬ SharesSecrets st.tables := by
  obtain ⟨s, hr, hplaced⟩ := exists_serial fourHosts (bringUp
      ++ (.api ⟨calm "", .rotateCa "s"⟩, none)
        :: (.api ⟨calm "r", .createReplica "s" "r" none⟩, none)
        :: runSteps (calm "r") 2 4 ++ runSteps (calm "new") 1 7)
    (fun s => placedReplica "s" s fun d =>
      d.secrets.map (·.shared) ≠ (s.world.secrets? "s").map (·.shared)) (by decide +kernel)
  refine ⟨_, hr, fun hshares => ?_⟩
  obtain ⟨hquiet, d, hd, hof, hlive, hnode, hdiffer⟩ := placedReplica_iff.mp hplaced
  obtain ⟨a, b, ha, hb, heq⟩ := hshares d hd "s" hof hlive hnode hquiet
  rw [ha, show s.world.secrets? "s" = some b from hb, map_some, map_some, heq] at hdiffer
  simp at hdiffer

end PgCluster.Admin
