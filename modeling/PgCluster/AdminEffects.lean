import PgCluster.AdminCommits

/-!
# The effects of commits

What a commit makes of the operations that are active, of the row of the
database it is about, and of the nodes: the parts of an inversion that an
invariant can use without looking at each step or handler.
-/

namespace PgCluster.Admin

open ApiResult List

/-! ## Active operations -/

section Active

variable {ω : Type} {s : Tables ω} {c : Claimed} {x : OpRow} {r : ApiResult}

/-- The operation of the step that runs, which has come as far as the step. -/
structure OwnRow (c : Claimed) (s : Tables ω) (y : OpRow) : Prop
    extends Claims c s.operations y where
  active : y.active = true
  progress : y.Progress c.idx
  names : y.steps.map (·.name) = y.kind.steps

theorem Running.own (h : Running c s) (hl : Ledger s) : ∃ y, OwnRow c s y := by
  obtain ⟨y, hc, hactive⟩ := h
  obtain ⟨n, hn, -⟩ := hl.progress y hc.mem
  obtain ⟨p, hp, -⟩ := hc.step
  obtain rfl := hn.eq_of_first hactive hp (hc.pending p hp) hc.first
  exact ⟨y, hc, hactive, hn, hl.names y hc.mem⟩

namespace OwnRow

variable {y : OpRow} (h : OwnRow c s y) (o : Outcome)
include h

theorem running : Running c s := ⟨y, h.toClaims, h.active⟩

theorem name : c.kind.steps[c.idx]? = some c.name := by
  obtain ⟨p, hp, hname⟩ := h.step
  rw [← h.kind, ← h.names, getElem?_map, hp, ← hname]
  rfl

theorem database' : (c.settle o y).database = c.database := by
  obtain ⟨_, _, _, heq⟩ := c.settle_eq o y
  rw [heq]
  exact h.database

theorem params' : (c.settle o y).params = c.params := by
  obtain ⟨_, _, _, heq⟩ := c.settle_eq o y
  rw [heq]
  exact h.params

theorem kind' : (c.settle o y).kind = c.kind := by
  rw [(c.settle_names o y).2, h.kind]

theorem names' : (c.settle o y).steps.map (·.name) = (c.settle o y).kind.steps := by
  rw [(c.settle_names o y).1, (c.settle_names o y).2, h.names]

theorem length' : (c.settle o y).steps.length = c.kind.steps.length := by
  rw [← length_map (·.name), h.names' o, h.kind' o]

theorem progress' : (c.settle o y).Progress (if c.mark o = .done then c.idx + 1 else c.idx) :=
  h.progress.settle h.active rfl o

omit h in
theorem not_failed (hactive : (c.settle o y).active) : c.mark o ≠ .failed := by
  intro hfailed
  cases o with
  | done => cases hfailed
  | fail => cases hactive
  | wait =>
    unfold Claimed.mark at hfailed
    unfold Claimed.settle at hactive
    cases hlate : c.pastDeadline with
    | true =>
      rw [hlate] at hactive
      cases hactive
    | false =>
      rw [hlate] at hfailed
      cases hfailed

variable {onFail : Claimed → ω → ω} {w : ω → ω}

theorem mem' : c.settle o y ∈ (s.settle onFail c o w).operations :=
  mem_map.mpr ⟨y, h.mem, if_pos h.seq⟩

theorem mem_settle (hl : Ledger s) {o : Outcome} (hx : x ∈ (s.settle onFail c o w).operations) :
    (x ∈ s.operations ∧ x.seq ≠ c.op) ∨ x = c.settle o y := by
  obtain ⟨z, hz, rfl⟩ := mem_map.mp hx
  by_cases hseq : z.seq = c.op
  · obtain rfl := hl.row_unique hz h.mem (hseq.trans h.seq.symm)
    exact .inr (if_pos hseq)
  · rw [if_neg hseq]
    exact .inl ⟨hz, hseq⟩

end OwnRow

theorem Running.name (h : Running c s) (hl : Ledger s) : c.kind.steps[c.idx]? = some c.name :=
  (h.own hl).elim fun _ hy => hy.name

/-- An operation that is active after a step was active before. The step's
own is so only if the step did not fail and was not the last. -/
theorem active_settle (hl : Ledger s) (hrun : Running c s) {onFail : Claimed → ω → ω}
    {o : Outcome} {w : ω → ω} (hx : x ∈ (s.settle onFail c o w).operations) (hactive : x.active) :
    ∃ y ∈ s.operations, y.active ∧ y.seq = x.seq ∧ y.database = x.database ∧ y.kind = x.kind
      ∧ (y.seq = c.op → c.mark o ≠ .failed
          ∧ (c.mark o = .done → c.idx + 1 < c.kind.steps.length)) := by
  obtain ⟨y, hy⟩ := hrun.own hl
  rcases hy.mem_settle hl hx with ⟨hold, hseq⟩ | rfl
  · exact ⟨x, hold, hactive, rfl, rfl, rfl, fun h => (hseq h).elim⟩
  · refine ⟨y, hy.mem, hy.active, (c.settle_seq o y).symm,
      hy.database.trans (hy.database' o).symm, hy.kind.trans (hy.kind' o).symm,
      fun _ => ⟨OwnRow.not_failed o hactive, fun hdone => ?_⟩⟩
    have hlt := ((hy.progress' o).active hactive).1
    rw [if_pos hdone, hy.length'] at hlt
    exact hlt

/-- What a handler's commit makes of an operation that is there. -/
def ApiResult.old (r : ApiResult) (y : OpRow) : OpRow :=
  if r.supersede && (y.database = r.target && y.active) then y.supersede else y

/-- What it records. -/
def ApiResult.new (r : ApiResult) (seq : Nat) : List OpRow :=
  (r.create.map fun (kind, params) => .new seq r.target kind params).toList

theorem commit_operations (r : ApiResult) (w : ω → ω) (s : Tables ω) :
    (r.commit w s).operations = s.operations.map r.old ++ r.new s.nextSeq := by
  obtain ⟨target, supersede, create⟩ := r
  cases supersede with
  | true =>
    cases create <;> simp [commit, old, new, Tables.supersede, Tables.create]
  | false =>
    have hsame : old ⟨target, false, create⟩ = id := rfl
    rw [hsame, map_id]
    cases create <;> simp [commit, new, Tables.create]

theorem mem_commit_iff {w : ω → ω} :
    x ∈ (r.commit w s).operations ↔ (∃ y ∈ s.operations, x = r.old y)
      ∨ ∃ kind params, r.create = some (kind, params)
          ∧ x = .new s.nextSeq r.target kind params := by
  rw [commit_operations, mem_append, mem_map]
  refine or_congr (exists_congr fun y => and_congr_right fun _ => eq_comm) ?_
  simp [new, eq_comm]

/-- An operation that is active after a handler's commit was active before
and is not superseded, or is the one it has recorded. -/
theorem active_commit {w : ω → ω} (hx : x ∈ (r.commit w s).operations) (hactive : x.active) :
    (x ∈ s.operations ∧ (r.supersede → x.database ≠ r.target))
      ∨ ∃ kind params, r.create = some (kind, params)
          ∧ x = .new s.nextSeq r.target kind params := by
  refine (mem_commit_iff.mp hx).imp_left ?_
  rintro ⟨y, hy, rfl⟩
  unfold old at hactive ⊢
  split at hactive
  · cases hactive
  · next hnot =>
    rw [if_neg hnot]
    refine ⟨hy, fun hsuper hdb => hnot ?_⟩
    simp [hsuper, hdb, hactive]

@[simp] theorem commit_world (r : ApiResult) (w : ω → ω) (s : Tables ω) :
    (r.commit w s).world = w s.world := by
  obtain ⟨_, supersede, create⟩ := r
  cases supersede <;> cases create <;> rfl

end Active

variable {j id : String} {k : Kind} {i : Nat} {d : DatabaseRow} {f : DatabaseRow → DatabaseRow}

/-! ## Rows and nodes -/

def World.Placed (w : World) : Prop :=
  ∀ n ∈ w.nodes, ∃ d, w.db? n.database = some d ∧ d.secrets ≠ none

namespace World

variable {w v : World} {rows : List NodeRow} {p : NodeRow → Bool}

theorem db?_congr (h : v.databases = w.databases) (j : String) : v.db? j = w.db? j :=
  congrArg (List.find? _) h

/-- The rows of `v` are those of `w`, but for the row `d`. -/
structure Updates (w v : World) (id : String) (d : DatabaseRow) (f : DatabaseRow → DatabaseRow) :
    Prop where
  self : v.db? id = some (f d)
  other : ∀ j, j ≠ id → v.db? j = w.db? j

theorem Updates.of_update (h : v.databases = (w.update id f).databases)
    (hf : ∀ d, (f d).id = d.id) (hd : w.db? id = some d) : w.Updates v id d f := by
  refine ⟨?_, fun j hj => (db?_congr h j).trans (db?_update_ne hf hj)⟩
  rw [db?_congr h, db?_update_self hf, hd]
  rfl

theorem Updates.cases {d' : DatabaseRow} (h : w.Updates v id d f) (hd : v.db? j = some d') :
    j = id ∧ d' = f d ∨ j ≠ id ∧ w.db? j = some d' := by
  by_cases hj : j = id
  · subst hj
    exact .inl ⟨rfl, Option.some.inj (hd.symm.trans h.self)⟩
  · exact .inr ⟨hj, h.other j hj ▸ hd⟩

theorem hasReplicas_congr (h : v.databases = w.databases) (j : String) :
    v.hasReplicas j = w.hasReplicas j :=
  congrArg (List.any · _) h

theorem Placed.of_update (h : w.Placed) (hf : ∀ d, (f d).id = d.id)
    (hv : v.databases = (w.update id f).databases)
    (hsecrets : ∀ d, d.secrets ≠ none → (f d).secrets ≠ none)
    (hnodes : ∀ n ∈ v.nodes, ∃ m ∈ w.nodes, m.database = n.database) : v.Placed := by
  intro n hn
  obtain ⟨m, hm, hdb⟩ := hnodes n hn
  obtain ⟨d, hd, hsome⟩ := h m hm
  rw [db?_congr hv, db?_update hf, ← hdb, hd]
  refine ⟨_, rfl, ?_⟩
  beta_reduce
  split
  · exact hsecrets d hsome
  · exact hsome

theorem Placed.setStatus (h : w.Placed) (id : String) (status : DbStatus) :
    (w.setStatus id status).Placed :=
  h.of_update (f := fun d => { d with status := status }) (fun _ => rfl) rfl (fun _ h => h)
    fun n hn => ⟨n, hn, rfl⟩

theorem Placed.storeSecrets (h : w.Placed) (id : String) (secrets : DatabaseSecrets) :
    (w.storeSecrets id secrets).Placed :=
  h.of_update (f := fun d => { d with secrets := some secrets }) (fun _ => rfl) rfl
    (fun _ _ => Option.some_ne_none _) fun n hn => ⟨n, hn, rfl⟩

theorem Placed.addNodes (h : w.Placed) (hrows : ∀ n ∈ rows, n.database = id)
    (hrow : ∃ d, w.db? id = some d ∧ d.secrets ≠ none) : (w.addNodes rows).Placed := by
  intro n hn
  rcases mem_append.mp hn with hn | hn
  · exact h n hn
  · rw [hrows n hn]
    exact hrow

theorem nodesOf_addNodes (hrows : ∀ n ∈ rows, n.database = id) (hj : j ≠ id) :
    (w.addNodes rows).nodesOf j = w.nodesOf j := by
  show (w.nodes ++ rows).filter _ = _
  rw [filter_append, append_right_eq_self.mpr]
  · rfl
  · refine filter_eq_nil_iff.mpr fun n hn => ?_
    simpa [hrows n hn] using Ne.symm hj

theorem nodesOf_retract (hp : ∀ n, p n → n.database = id) (hj : j ≠ id) :
    (w.retract p).nodesOf j = w.nodesOf j := by
  show (w.nodes.map _).filter _ = w.nodes.filter _
  induction w.nodes with
  | nil => rfl
  | cons n _ ih =>
    rw [map_cons, filter_cons, filter_cons, ih]
    cases hn : p n with
    | false => rfl
    | true => simp [hp n hn, Ne.symm hj]

theorem nodesOf_dropNodes (hp : ∀ n, p n → n.database = id) (hj : j ≠ id) :
    (w.dropNodes p).nodesOf j = w.nodesOf j := by
  show (w.nodes.filter _).filter _ = w.nodes.filter _
  rw [filter_filter]
  refine filter_congr fun n _ => ?_
  cases hn : p n with
  | false => simp
  | true => simp [hp n hn, Ne.symm hj]

end World

/-! ## Steps -/

section Steps

variable (X : Extension World Env Call) (c : Claimed) (H : Set Key) (s : Tables World)

def SecretsChange (old new : Option DatabaseSecrets) : Prop :=
  new = old ∨ c.name = .finalize ∧ new = none ∨ c.name ∈ rotationSteps ∨ c.name = .place
    ∨ c.name = .placeReplica ∧ ∃ d source secrets random,
        CopiedFrom X c H s d source secrets ∧ new = some (secrets.forReplica random)

/-- What a step makes of its database's row. -/
structure StepEffect (o : Outcome) (f : DatabaseRow → DatabaseRow) : Prop where
  id : ∀ d, (f d).id = d.id
  ha : ∀ d, (f d).ha = d.ha
  resources : ∀ d, (f d).resources = d.resources
  replicaOf : ∀ d, (f d).replicaOf = d.replicaOf ∨ (f d).replicaOf = none
  status : ∀ d, (f d).status = d.status ∧ (o = .done → c.name ≠ .activate) ∨ o = .done
    ∧ (c.name = .activate ∧ (f d).status = .active ∨ c.name = .finalize ∧ (f d).status = .deleted)
  secrets : ∀ d, SecretsChange X c H s d.secrets (f d).secrets

variable {X c H s} {F : Fleet} {a : Request Env Call} {e : Env} {o : Outcome} {w : World → World}

theorem StepEffect.same (hname : o = .done → c.name ≠ .activate)
    (hid : ∀ d, (f d).id = d.id) (hha : ∀ d, (f d).ha = d.ha)
    (hres : ∀ d, (f d).resources = d.resources) (hof : ∀ d, (f d).replicaOf = d.replicaOf)
    (hstatus : ∀ d, (f d).status = d.status)
    (hsecrets : ∀ d, SecretsChange X c H s d.secrets (f d).secrets) : StepEffect X c H s o f :=
  ⟨hid, hha, hres, fun d => .inl (hof d), fun d => .inl ⟨hstatus d, hname⟩, hsecrets⟩

theorem World.update_id (v : World) (id : String) : v.update id (fun d => d) = v := by
  refine congrArg (World.mk · v.nodes) ?_
  refine (map_congr_left fun d _ => ?_).trans (map_id _)
  exact ite_self d

theorem World.update_update (v : World)
    (hf : ∀ d, (f d).id = d.id) (g : DatabaseRow → DatabaseRow) :
    (v.update id f).update id g = v.update id fun d => g (f d) := by
  refine congrArg (World.mk · v.nodes) ?_
  refine (map_map ..).trans (map_congr_left fun d _ => ?_)
  by_cases hd : d.id = id
  · simp [hf, hd]
  · simp [hd]

theorem StepCommit.row (h : StepCommit X F a e c H s o w) :
    ∃ f, StepEffect X c H s o f ∧ ∀ v, (w v).databases = (v.update c.database f).databases := by
  have hid : (o = .done → c.name ≠ .activate) → StepEffect X c H s o fun d => d := fun hname =>
    .same hname (fun _ => rfl) (fun _ => rfl) (fun _ => rfl) (fun _ => rfl) (fun _ => rfl)
      fun _ => .inl rfl
  have hsecrets : ∀ secrets, c.name ≠ .activate →
      (∀ old, SecretsChange X c H s old (some secrets)) →
      StepEffect X c H s o fun d => { d with secrets := some secrets } :=
    fun _ hname h => .same (fun _ => hname) (fun _ => rfl) (fun _ => rfl) (fun _ => rfl)
      (fun _ => rfl) (fun _ => rfl) fun _ => h _
  cases h with
  | quiet _ hquiet =>
    refine ⟨_, hid fun ho hname => ?_, fun v => by rw [v.update_id]⟩
    exact hquiet ho (hname ▸ by decide)
  | retracted _ _ hname =>
    refine ⟨_, hid fun _ => ?_, fun v => by rw [v.update_id]; rfl⟩
    rcases hname with hname | ⟨hname, -⟩ <;> simp [hname]
  | dropped _ _ hname => exact ⟨_, hid fun _ => by simp [hname], fun v => by rw [v.update_id]; rfl⟩
  | secrets secrets hname =>
    refine ⟨_, hsecrets secrets (fun hact => ?_) fun _ => .inr (.inr (.inl hname)), fun _ => rfl⟩
    rw [hact] at hname
    exact absurd hname (by decide)
  | placed _ _ secrets _ hname _ _ _ _ hw =>
    exact ⟨_, hsecrets secrets (by simp [hname]) fun _ => .inr (.inr (.inr (.inl hname))),
      fun v => by rw [hw v]; rfl⟩
  | replicaPlaced d source secrets _ _ _ hname _ hcopied _ _ hw =>
    exact ⟨_, hsecrets (secrets.forReplica e.random) (by simp [hname]) fun _ =>
        .inr (.inr (.inr (.inr ⟨hname, d, source, secrets, _, hcopied, rfl⟩))),
      fun v => by rw [hw v]; rfl⟩
  | activate hname =>
    exact ⟨fun d => { d with status := .active }, ⟨fun _ => rfl, fun _ => rfl, fun _ => rfl,
      fun _ => .inl rfl, fun _ => .inr ⟨rfl, .inl ⟨hname, rfl⟩⟩, fun _ => .inl rfl⟩,
      fun _ => rfl⟩
  | promote hname =>
    exact ⟨fun d => { d with replicaOf := none }, ⟨fun _ => rfl, fun _ => rfl, fun _ => rfl,
      fun _ => .inr rfl, fun _ => .inl ⟨rfl, fun _ => by simp [hname]⟩, fun _ => .inl rfl⟩,
      fun _ => rfl⟩
  | finalize hname =>
    refine ⟨fun d => { d with secrets := none, status := .deleted },
      ⟨fun _ => rfl, fun _ => rfl, fun _ => rfl, fun _ => .inl rfl,
        fun _ => .inr ⟨rfl, .inr ⟨hname, rfl⟩⟩, fun _ => .inr (.inl ⟨hname, rfl⟩)⟩, fun v => ?_⟩
    rw [World.finalize, World.setStatus, World.update_update]
    · rfl
    · exact fun _ => rfl

theorem StepCommit.nodesOf (h : StepCommit X F a e c H s o w)
    (hj : j ≠ c.database) (v : World) : (w v).nodesOf j = v.nodesOf j := by
  cases h with
  | quiet | activate | promote | secrets => rfl
  | retracted _ hp => exact World.nodesOf_retract hp hj
  | dropped _ hp => exact World.nodesOf_dropNodes hp hj
  | finalize => exact World.nodesOf_dropNodes (fun n hn => of_decide_eq_true hn) hj
  | placed _ _ _ _ _ _ _ _ hrows hw | replicaPlaced _ _ _ _ _ _ _ _ _ _ hrows hw =>
    rw [hw v]
    exact World.nodesOf_addNodes hrows.database hj

theorem StepCommit.placed_of (h : StepCommit X F a e c H s o w) {v : World} (hp : v.Placed)
    (hrow : v.db? c.database ≠ none) : (w v).Placed := by
  have hadd : ∀ secrets rows, (∀ n ∈ rows, n.database = c.database) →
      ((v.storeSecrets c.database secrets).addNodes rows).Placed := by
    intro secrets _ hrows
    refine (hp.storeSecrets c.database secrets).addNodes hrows ?_
    obtain ⟨d, hd⟩ := Option.ne_none_iff_exists'.mp hrow
    rw [World.storeSecrets, World.db?_update_self, hd]
    · exact ⟨_, rfl, Option.some_ne_none _⟩
    · exact fun _ => rfl
  cases h with
  | quiet => exact hp
  | activate => exact hp.setStatus _ _
  | promote =>
    exact hp.of_update (f := fun d => { d with replicaOf := none }) (fun _ => rfl) rfl
      (fun _ h => h) fun n hn => ⟨n, hn, rfl⟩
  | secrets => exact hp.storeSecrets _ _
  | placed _ _ _ _ _ _ _ _ hrows hw | replicaPlaced _ _ _ _ _ _ _ _ _ _ hrows hw =>
    exact hw v ▸ hadd _ _ hrows.database
  | retracted =>
    intro n hn
    obtain ⟨m, hm, rfl⟩ := mem_map.mp hn
    obtain ⟨d, hd⟩ := hp m hm
    refine ⟨d, ?_⟩
    split <;> exact hd
  | dropped => exact fun n hn => hp n (mem_filter.mp hn).1
  | finalize =>
    intro n hn
    obtain ⟨hmem, hne⟩ := mem_filter.mp hn
    have hne : n.database ≠ c.database := by simpa using hne
    obtain ⟨d, hd⟩ := hp n hmem
    refine ⟨d, ?_⟩
    rw [World.finalize, World.setStatus, World.db?_update_ne, World.db?_update_ne]
    · exact hd
    all_goals first | exact hne | exact fun _ => rfl

def Kind.statusOnFail : Kind → DbStatus
  | .create | .delete | .createReplica | .promoteReplica => .error
  | _ => .degraded

theorem Kind.statusOnFail_cases (k : Kind) :
    k.statusOnFail = .error ∨ k.statusOnFail = .degraded := by
  cases k <;> first | exact .inl rfl | exact .inr rfl

theorem onFail_eq (c : Claimed) : onFail c = World.setStatus c.database c.kind.statusOnFail := rfl

/-- How the commit of a step changes its database's status. -/
inductive StatusChange (c : Claimed) (o : Outcome) (old : DbStatus) : DbStatus → Prop
  | failed : c.mark o = .failed → StatusChange c o old c.kind.statusOnFail
  | activated : c.mark o = .done → c.name = .activate → StatusChange c o old .active
  | finalized : c.mark o = .done → c.name = .finalize → StatusChange c o old .deleted
  | kept : c.mark o ≠ .failed → (c.mark o = .done → c.name ≠ .activate) → StatusChange c o old old

/-- What the commit of a step makes of its database's row, the failure of
its operation included. -/
structure SettleEffect (X : Extension World Env Call) (c : Claimed) (H : Set Key)
    (s : Tables World) (o : Outcome) (f : DatabaseRow → DatabaseRow) : Prop where
  id : ∀ d, (f d).id = d.id
  ha : ∀ d, (f d).ha = d.ha
  status : ∀ d, StatusChange c o d.status (f d).status
  resources : ∀ d, (f d).resources = d.resources
  replicaOf : ∀ d, (f d).replicaOf = d.replicaOf ∨ (f d).replicaOf = none
  kept : c.mark o ≠ .failed →
    c.mark o = .done ∧ (c.name = .activate ∨ c.name = .finalize) ∨ ∀ d, (f d).status = d.status
  deleted : ∀ d, (f d).status = .deleted → d.status = .deleted ∨ c.name = .finalize
  deleting : ∀ d, (f d).status = .deleting → d.status = .deleting
  secrets : ∀ d, SecretsChange X c H s d.secrets (f d).secrets

theorem SettleEffect.replica (h : SettleEffect X c H s o f)
    (hof : (f d).replicaOf = some j) : d.replicaOf = some j := by
  rcases h.replicaOf d with hsame | hnone
  · exact hsame ▸ hof
  · rw [hnone] at hof
    cases hof

theorem Claimed.mark_eq_done {c : Claimed} : c.mark o = .done ↔ o = .done := by
  cases o with
  | done | fail => simp [Claimed.mark]
  | wait => cases h : c.pastDeadline <;> simp [Claimed.mark, h]

theorem StepEffect.settle (h : StepEffect X c H s o f)
    (hok : c.mark o ≠ .failed) : SettleEffect X c H s o f := by
  refine ⟨h.id, h.ha, fun d => ?_, h.resources, h.replicaOf, fun _ => ?_, fun d hd => ?_,
    fun d hd => ?_, h.secrets⟩
  · rcases h.status d with ⟨hsame, hname⟩ | ⟨ho, ⟨hact, hs⟩ | ⟨hfin, hs⟩⟩
    · rw [hsame]
      exact .kept hok fun hdone => hname (Claimed.mark_eq_done.mp hdone)
    · rw [hs]
      exact .activated (Claimed.mark_eq_done.mpr ho) hact
    · rw [hs]
      exact .finalized (Claimed.mark_eq_done.mpr ho) hfin
  · by_cases hname : o = .done ∧ (c.name = .activate ∨ c.name = .finalize)
    · exact .inl ⟨by rw [hname.1]; rfl, hname.2⟩
    · refine .inr fun d => ?_
      rcases h.status d with ⟨hsame, -⟩ | ⟨ho, ⟨hact, -⟩ | ⟨hfin, -⟩⟩
      · exact hsame
      · exact (hname ⟨ho, .inl hact⟩).elim
      · exact (hname ⟨ho, .inr hfin⟩).elim
  · rcases h.status d with ⟨hsame, -⟩ | ⟨-, ⟨-, hact⟩ | ⟨hfin, -⟩⟩
    · exact .inl (hsame ▸ hd)
    · rw [hact] at hd
      cases hd
    · exact .inr hfin
  · rcases h.status d with ⟨hsame, -⟩ | ⟨-, ⟨-, hact⟩ | ⟨-, hdel⟩⟩
    · exact hsame ▸ hd
    · rw [hact] at hd
      cases hd
    · rw [hdel] at hd
      cases hd

theorem StepCommit.settle (h : StepCommit X F a e c H s o w) : ∃ f, SettleEffect X c H s o f
      ∧ (s.settle onFail c o w).world.databases = (s.world.update c.database f).databases := by
  obtain ⟨f, hf, hrows⟩ := h.row
  by_cases hfailed : c.mark o = .failed
  · -- the failure sets the status last
    refine ⟨fun d => { f d with status := c.kind.statusOnFail },
      ⟨hf.id, hf.ha, fun _ => .failed hfailed, hf.resources, hf.replicaOf,
        fun h => (h hfailed).elim, ?_, ?_, hf.secrets⟩, ?_⟩
    · intro d hd
      have hd : c.kind.statusOnFail = .deleted := hd
      rcases c.kind.statusOnFail_cases with h | h <;> rw [h] at hd <;> cases hd
    · intro d hd
      have hd : c.kind.statusOnFail = .deleting := hd
      rcases c.kind.statusOnFail_cases with h | h <;> rw [h] at hd <;> cases hd
    · show (if c.mark o = .failed then _ else _ : World).databases = _
      rw [if_pos hfailed, onFail_eq, World.setStatus, ← World.update_update s.world hf.id
        fun d => { d with status := c.kind.statusOnFail }]
      exact congrArg (List.map _) (hrows s.world)
  · refine ⟨f, hf.settle hfailed, ?_⟩
    show (if c.mark o = .failed then _ else _ : World).databases = _
    rw [if_neg hfailed]
    exact hrows s.world

theorem StepCommit.settle_nodes (c : Claimed) (o : Outcome) (w : World → World) :
    (s.settle onFail c o w).world.nodes = (w s.world).nodes := by
  show (if c.mark o = .failed then _ else _ : World).nodes = _
  split <;> rfl

end Steps

end PgCluster.Admin
