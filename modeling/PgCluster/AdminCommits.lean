import Mathlib.Data.List.MinMax
import PgCluster.AdminFrame

/-!
# What steps and handlers commit

One inversion for all steps (`StepCommit`) and one for all handlers
(`HandlerCommit`): the writes, and what is known of the rows they are made
on. What was read of locked rows holds where the commit is made; of loads
and of another database's secrets, which no lock covers, it is on record
which state they were read from.
-/

namespace PgCluster.Admin

open World DbStatus List

variable {d : DatabaseRow} {v : World} {H₀ : Set Key} {s₁ : Tables World} {w : World → World}

section Steps

variable (X : Extension World Env Call) (F : Fleet) (a : Request Env Call) (e : Env)
  (c : Claimed) (H : Set Key) (s : Tables World)

def rotationSteps : List StepName :=
  [.caTrustBoth, .caIssue, .caTrustNew, .passwordsOffer, .passwordsCommit]

/-- The steps that write to databases or nodes when they are done. -/
def writingSteps : List StepName :=
  [.place, .placeReplica, .activate, .retract, .finalize, .retractOld, .dropOld, .promote]

/-- New rows for nodes of a database, on the first of the chosen hosts. -/
structure PlacedOn (database : String) (chosen : List HostLoad) (rows : List NodeRow) : Prop where
  hosts : (rows.map (·.host)).Sublist (chosen.map (·.host.id))
  database : ∀ r ∈ rows, r.database = database
  live : ∀ r ∈ rows, r.retracted = false
  numbers : (rows.map (·.node)).Nodup

/-- The nodes that the operation of a `replace` step is to remove. -/
def OldNode (p : NodeRow → Bool) : Prop :=
  ∃ old, c.params.oldNode = some old ∧ ∀ n, p n = true ↔ n.database = c.database ∧ n.node = old

/-- Hosts with room for a node of this size, by loads that `s₀` had: the
hosts have been locked since, and `Fresh` says how old the loads were then. -/
structure Chosen (size : Resources) (avoid : List String) (chosen : List HostLoad) : Prop where
  room : ∀ h ∈ chosen, h.hasRoom F.config size = true ∧ h.domain ∉ avoid
  apart : chosen.Pairwise fun x y => x.domain ≠ y.domain
  locked : .hosts ∈ H
  loads : ∃ s₀ s₁, X.Fresh a .hosts s₀ s₁ ∧ X.contract.Later H s₁ s
    ∧ ∀ h ∈ chosen, h ∈ F.hostLoads e s₀.world

/-- Secrets read from a replica's source while the replica's row was locked;
the source's was not. -/
structure CopiedFrom (d : DatabaseRow) (source : String) (secrets : DatabaseSecrets) : Prop where
  row : s.world.db? c.database = some d
  replica : d.replicaOf = some source
  readFrom : ∃ s₂, s₂.world.secrets? source = some secrets ∧ X.contract.Later H s₂ s
    ∧ X.contract.Inv s₂ ∧ s₂.world.db? c.database = some d

/-- What a step commits on `s`, with the rows `H` locked. -/
inductive StepCommit : Outcome → (World → World) → Prop
  | quiet (o : Outcome) : (o = .done → c.name ∉ writingSteps) → StepCommit o fun w => w
  | activate : c.name = .activate → StepCommit .done (World.setStatus c.database .active)
  | finalize : c.name = .finalize → StepCommit .done (World.finalize c.database)
  | promote : c.name = .promote → StepCommit .done (World.promote c.database)
  | secrets (secrets : DatabaseSecrets) : c.name ∈ rotationSteps →
      StepCommit .done (World.storeSecrets c.database secrets)
  | placed {o : Outcome} {write : World → World} (d : DatabaseRow) (chosen : List HostLoad)
      (secrets : DatabaseSecrets) (rows : List NodeRow) : c.name = .place →
      (∀ message, o ≠ .wait message) → s.world.db? c.database = some d →
      Chosen X F a e H s d.resources [] chosen →
      PlacedOn c.database chosen rows →
      (∀ w, write w = (World.storeSecrets c.database secrets w).addNodes rows) →
      chosen.length = (if d.ha then HA_NODES else 1) →
      (o = .done → rows.map (·.host) = chosen.map (·.host.id)) →
      StepCommit o write
  | replicaPlaced {o : Outcome} {write : World → World} (d : DatabaseRow) (source : String)
      (secrets : DatabaseSecrets) (chosen : List HostLoad) (avoid : List String)
      (rows : List NodeRow) : c.name = .placeReplica → (∀ message, o ≠ .wait message) →
      CopiedFrom X c H s d source secrets →
      Chosen X F a e H s d.resources avoid chosen → PlacedOn c.database chosen rows →
      (∀ w, write w
        = (World.storeSecrets c.database (secrets.forReplica e.random) w).addNodes rows) →
      StepCommit o write
  | retracted (p : NodeRow → Bool) : (∀ n, p n = true → n.database = c.database) →
      c.name = .retract ∨ c.name = .retractOld ∧ OldNode c p →
      StepCommit .done (World.retract p)
  | dropped (p : NodeRow → Bool) : (∀ n, p n = true → n.database = c.database) →
      c.name = .dropOld → OldNode c p → StepCommit .done (World.dropNodes p)

variable {X F a e c H s} {s₀ : Tables World} {o : Outcome}

theorem placeNodes_numbers (w : World) (database : String) (chosen : List HostLoad) :
    ∀ number, (∀ r ∈ (placeNodes F w database number chosen).1, number ≤ r.node)
      ∧ ((placeNodes F w database number chosen).1.map (·.node)).Nodup := by
  induction chosen with
  | nil => exact fun _ => ⟨nofun, .nil⟩
  | cons _ _ ih =>
    intro number
    rw [placeNodes]
    split
    · exact ⟨nofun, .nil⟩
    · obtain ⟨hle, hnodup⟩ := ih (number + 1)
      refine ⟨?_, ?_⟩
      · rintro r (_ | ⟨_, hr⟩)
        · exact le_rfl
        · exact Nat.le_of_succ_le (hle r hr)
      · refine nodup_cons.mpr ⟨fun hmem => ?_, hnodup⟩
        obtain ⟨r, hr, hnumber⟩ := mem_map.mp hmem
        exact Nat.not_succ_le_self _ (hnumber ▸ hle r hr)

theorem placeNodes_hosts (w : World) (database : String) (chosen : List HostLoad) :
    ∀ number, (placeNodes F w database number chosen).2 = none →
      (placeNodes F w database number chosen).1.map (·.host) = chosen.map (·.host.id) := by
  induction chosen with
  | nil => exact fun _ _ => rfl
  | cons h _ ih =>
    intro number
    rw [placeNodes]
    split
    · intro hfull
      cases hfull
    · intro hfull
      exact congrArg (h.host.id :: ·) (ih (number + 1) hfull)

theorem placeNodes_placedOn (w : World) (database : String) (chosen : List HostLoad) :
    ∀ number, PlacedOn database chosen (placeNodes F w database number chosen).1 := by
  induction chosen with
  | nil => exact fun _ => ⟨.slnil, nofun, nofun, .nil⟩
  | cons h hs ih =>
    intro number
    have hnumbers := (placeNodes_numbers (F := F) w database (h :: hs) number).2
    revert hnumbers
    rw [placeNodes]
    split
    · exact fun hnumbers => ⟨nil_sublist _, nofun, nofun, hnumbers⟩
    · intro hnumbers
      obtain ⟨hhosts, hdb, hlive, -⟩ := ih (number + 1)
      refine ⟨hhosts.cons_cons _, ?_, ?_, hnumbers⟩
      · rintro r (_ | ⟨_, hr⟩)
        · rfl
        · exact hdb r hr
      · rintro r (_ | ⟨_, hr⟩)
        · rfl
        · exact hlive r hr

theorem comes_await (hname : c.name ∉ writingSteps)
    (h : (await e).Comes X.contract a H₀ s₁ o w H s) : StepCommit X F a e c H s o w := by
  unfold await at h
  split at h
  · exact h.elim
  · obtain ⟨rfl, rfl, -, -⟩ := h
    exact .quiet _ fun _ => hname

theorem comes_changeSecrets {f : DatabaseSecrets → Option DatabaseSecrets}
    (hname : c.name ∈ rotationSteps) (h : (changeSecrets c f).Comes X.contract a H₀ s₁ o w H s) :
    StepCommit X F a e c H s o w := by
  obtain ⟨_, -, -, h⟩ := h
  beta_reduce at h
  split at h
  · exact h.elim
  · obtain ⟨rfl, rfl, -, -⟩ := h
    exact .secrets _ hname

theorem Chosen.of_place {avoid : List String} {count : Nat}
    {chosen : List HostLoad} (hlocked : .hosts ∈ H)
    (hplace : F.place (candidates F e s₀.world d avoid) count d.resources = .placed chosen)
    (hfresh : X.Fresh a .hosts s₀ s₁) (hl : X.contract.Later H s₁ s) :
    Chosen X F a e H s d.resources avoid chosen := by
  obtain ⟨hroom, hapart, -⟩ := F.place_placed hplace
  refine ⟨fun h hh => ⟨(hroom h hh).2, ?_⟩, hapart, hlocked, s₀, s₁, hfresh, hl, fun h hh => ?_⟩
  · have hcand := (mem_filter.mp (hroom h hh).1).2
    simp only [Bool.and_eq_true, Bool.not_eq_true', contains_eq_mem,
      decide_eq_false_iff_not] at hcand
    exact hcand.1
  · exact (mem_filter.mp (mem_filter.mp (hroom h hh).1).1).1

theorem comes_insertNodes {rows : List NodeRow} {result : Outcome} {write : World → World}
    (h : (insertNodes v rows result write).Comes X.contract a H₀ s₁ o w H s) :
    o = result ∧ H = H₀ ∧ X.contract.Later H₀ s₁ s ∧ ∀ v, w v = (write v).addNodes rows := by
  unfold insertNodes at h
  split at h
  · exact h.elim
  · obtain ⟨ho, rfl, rfl, hl⟩ := h
    exact ⟨ho, rfl, hl, fun _ => rfl⟩

theorem comes_place (hX : X.Framed) (hdb : .database c.database ∈ H₀) (hname : c.name = .place)
    (h : (place F e c).Comes X.contract a H₀ s₁ o w H s) : StepCommit X F a e c H s o w := by
  obtain ⟨_, -, -, h⟩ := h
  beta_reduce at h
  split at h
  · exact h.elim
  next d hd =>
  obtain ⟨_, s₄, hl₃, -, hl₄, -, hfresh, h⟩ := h
  beta_reduce at h
  split at h
  · obtain ⟨rfl, rfl, -, -⟩ := h
    exact .quiet _ nofun
  · obtain ⟨rfl, rfl, -, -⟩ := h
    exact .quiet _ nofun
  next chosen hplace =>
  have hdb' := Set.mem_insert_of_mem (.hosts : Key) hdb
  -- the two ways on, with and without a source's key, end alike
  have hon : ∀ {key : Option String} {s₅ : Tables World},
      X.contract.Later (insert .hosts H₀) s₄ s₅ →
      (placeOn F e c key chosen).Comes X.contract a (insert .hosts H₀) s₅ o w H s →
      StepCommit X F a e c H s o w := by
    intro _ s₅ hl₅ h
    obtain ⟨s₆, hl₆, -, h⟩ := h
    obtain ⟨ho, rfl, hl, hw⟩ := comes_insertNodes h
    have hlast := (hl₅.trans hl₆).trans hl
    refine .placed d chosen _ _ hname ?_ ?_ ?_ (placeNodes_placedOn s₆.world c.database chosen 1) hw
      (F.place_placed hplace).2.2 ?_
    · rintro _ rfl
      cases hfull : (placeNodes F s₆.world c.database 1 chosen).2 <;> simp [hfull] at ho
    · rw [later_db? hX hdb' hlast, later_db? hX hdb hl₄, later_db? hX hdb hl₃, hd]
    · exact .of_place (Set.mem_insert _ _) hplace hfresh hlast
    · rintro rfl
      refine placeNodes_hosts _ _ _ _ ?_
      cases hfull : (placeNodes F s₆.world c.database 1 chosen).2 with
      | none => rfl
      | some => simp [hfull] at ho
  split at h
  · exact hon .refl h
  · obtain ⟨_, hl₅, -, h⟩ := h
    beta_reduce at h
    split at h
    · exact h.elim
    · exact hon hl₅ h

theorem comes_placeReplica (hX : X.Framed) (hdb : .database c.database ∈ H₀)
    (hname : c.name = .placeReplica) (h : (placeReplica F e c).Comes X.contract a H₀ s₁ o w H s) :
    StepCommit X F a e c H s o w := by
  obtain ⟨_, -, -, h⟩ := h
  beta_reduce at h
  split at h
  · exact h.elim
  next d hd =>
  split at h
  · exact h.elim
  next source hof =>
  obtain ⟨_, hl₃, -, _, _, hl₄, -, hl₅, -, hfresh, h⟩ := h
  dsimp only at h
  have hdb' := Set.mem_insert_of_mem (.hosts : Key) hdb
  split at h
  · obtain ⟨rfl, rfl, -, -⟩ := h
    exact .quiet _ nofun
  · obtain ⟨rfl, rfl, -, -⟩ := h
    exact .quiet _ nofun
  · exact h.elim
  next host rest hplace =>
  obtain ⟨s₆, hl₆, hI₆, h⟩ := h
  beta_reduce at h
  split at h
  · exact h.elim
  next secrets hsecrets =>
  obtain ⟨_, hl₇, -, h⟩ := h
  have hd₆ : s₆.world.db? c.database = some d := by
    rw [later_db? hX hdb' hl₆, later_db? hX hdb hl₅, later_db? hX hdb hl₄, later_db? hX hdb hl₃, hd]
  dsimp only at h
  have hcopied : ∀ {s' : Tables World}, X.contract.Later (insert .hosts H₀) s₆ s' →
      CopiedFrom X c (insert .hosts H₀) s' d source secrets := fun hl =>
    ⟨by rw [later_db? hX hdb' hl, hd₆], hof, s₆, hsecrets, hl, hI₆, hd₆⟩
  split at h
  · -- no port is left: the secrets stay, and the step fails
    obtain ⟨rfl, rfl, rfl, hl⟩ := h
    have hlast := hl₇.trans hl
    refine .replicaPlaced d source secrets (host :: rest) _ [] hname nofun (hcopied hlast)
      (.of_place (Set.mem_insert _ _) hplace hfresh (hl₆.trans hlast))
      ⟨nil_sublist _, nofun, nofun, .nil⟩ fun v => ?_
    exact congrArg (mk _) (append_nil _).symm
  · obtain ⟨rfl, rfl, hl, hw⟩ := comes_insertNodes h
    have hlast := hl₇.trans hl
    refine .replicaPlaced d source secrets (host :: rest) _ _ hname nofun (hcopied hlast)
      (.of_place (Set.mem_insert _ _) hplace hfresh (hl₆.trans hlast)) ⟨?_, ?_, ?_, ?_⟩ hw
    · exact (nil_sublist _).cons_cons _
    · simp
    · simp
    · exact nodup_singleton _

theorem comes_retractOld (hname : c.name = .retractOld)
    (h : (retractOld c).Comes X.contract a H₀ s₁ o w H s) : StepCommit X F a e c H s o w := by
  unfold retractOld at h
  split at h
  · exact h.elim
  next old hold =>
  obtain ⟨_, -, -, h⟩ := h
  dsimp only at h
  split at h
  · obtain ⟨rfl, rfl, -, -⟩ := h
    refine .retracted _ (fun n hn => ?_) (.inr ⟨hname, old, hold, fun n => ?_⟩)
    · simp only [Bool.and_eq_true, decide_eq_true_eq] at hn
      exact hn.1
    · simp only [Bool.and_eq_true, decide_eq_true_eq]
  · exact h.elim

theorem comes_dropOld (hname : c.name = .dropOld)
    (h : (dropOld c).Comes X.contract a H₀ s₁ o w H s) : StepCommit X F a e c H s o w := by
  unfold dropOld at h
  split at h
  · exact h.elim
  next old hold =>
  obtain ⟨rfl, rfl, -, -⟩ := h
  refine .dropped _ (fun n hn => ?_) hname ⟨old, hold, fun n => ?_⟩
  · simp only [Bool.and_eq_true, decide_eq_true_eq] at hn
    exact hn.1
  · simp only [Bool.and_eq_true, decide_eq_true_eq]

theorem comes_replicaTask (hname : c.name ∉ writingSteps)
    (h : (replicaTask e c).Comes X.contract a H₀ s₁ o w H s) : StepCommit X F a e c H s o w := by
  obtain ⟨_, -, -, h⟩ := h
  beta_reduce at h
  split at h
  · exact h.elim
  · exact comes_await hname h

theorem comes_removeReplica (hname : c.name ∉ writingSteps)
    (h : (removeReplica e c).Comes X.contract a H₀ s₁ o w H s) : StepCommit X F a e c H s o w := by
  obtain ⟨_, -, -, h⟩ := h
  beta_reduce at h
  split at h
  · exact h.elim
  · split at h
    · obtain ⟨rfl, rfl, -, -⟩ := h
      exact .quiet _ fun _ => hname
    · exact comes_replicaTask hname h

theorem stepCommit_of_comes (hX : X.Framed) (hdb : .database c.database ∈ H₀)
    (h : (runStep F e c).Comes X.contract a H₀ s₁ o w H s) : StepCommit X F a e c H s o w := by
  unfold runStep at h
  split at h
  case h_1 hname => exact comes_place hX hdb hname h
  case h_2 hname => exact comes_placeReplica hX hdb hname h
  case h_3 hname =>
      obtain ⟨rfl, rfl, -, -⟩ := h
      exact .activate hname
  case h_4 hname | h_5 hname | h_6 hname =>
      -- nothing of what these write is modelled
      obtain ⟨rfl, rfl, -, -⟩ := h
      exact .quiet _ fun _ => by rw [hname]; decide
  case h_7 hname =>
      obtain ⟨rfl, rfl, -, -⟩ := h
      exact .retracted _ (fun n hn => by simpa using hn) (.inl hname)
  case h_8 hname =>
      obtain ⟨rfl, rfl, -, -⟩ := h
      exact .finalize hname
  case h_9 hname => exact comes_retractOld hname h
  case h_10 hname => exact comes_dropOld hname h
  case h_11 hname | h_12 hname => exact comes_replicaTask (by rw [hname]; decide) h
  case h_13 hname => exact comes_removeReplica (by rw [hname]; decide) h
  case h_14 hname =>
      obtain ⟨rfl, rfl, -, -⟩ := h
      exact .promote hname
  case h_15 hname | h_16 hname | h_17 hname | h_18 hname | h_19 hname =>
      exact comes_changeSecrets (by simp [rotationSteps, hname]) h
  -- the steps that wait for hosts and tasks
  all_goals
    next hname => exact comes_await (by rw [hname]; decide) h

end Steps

section Handlers

variable (X : Extension World Env Call) (F : Fleet) (call : Call) (H : Set Key) (s : Tables World)

structure LockedRow (id : String) (d : DatabaseRow) : Prop where
  locked : .database id ∈ H
  row : s.world.db? id = some d
  live : d.status ≠ .deleted

/-- The row of a new database. A replica's source is locked and serves. -/
structure NewDatabase (d : DatabaseRow) (kind : Kind) : Prop where
  locked : .database d.id ∈ H
  fresh : s.world.db? d.id = none
  status : d.status = .provisioning
  secrets : d.secrets = none
  sized : d.resources.positive = true
  source : kind = .create ∧ d.replicaOf = none ∨ kind = .createReplica ∧ ∃ source t host,
    call.request = .createReplica source d.id host ∧ d.replicaOf = some source
      ∧ LockedRow H s source t ∧ t.status.serving = true ∧ t.replicaOf = none ∧ d.ha = false

/-- A node that may take the place of `node`: no live node has its number or,
`node` apart, is in the failure domain of its host. -/
structure Replaces (id : String) (node number : Nat) (h : HostLoad) : Prop where
  old : ∃ n ∈ s.world.liveNodes id, n.node = node
  number : ∀ n ∈ s.world.liveNodes id, n.node < number
  apart : ∀ n ∈ s.world.liveNodes id, n.node ≠ node → F.domainOf n.host ≠ some h.domain

/-- What a handler commits on `s`, with the rows `H` locked. -/
inductive HandlerCommit : ApiResult → (World → World) → Prop
  | inserted (d : DatabaseRow) (kind : Kind) : NewDatabase call H s d kind →
      HandlerCommit ⟨d.id, false, some (kind, .none)⟩ (World.insert d)
  | promoted (id : String) (d : DatabaseRow) : LockedRow H s id d → d.status ≠ .deleting →
      s.busy id = false → d.status.serving = true →
      HandlerCommit ⟨id, false, some (.promoteReplica, .none)⟩ (World.setStatus id .provisioning)
  | deleted (id : String) (d : DatabaseRow) : LockedRow H s id d → d.status ≠ .deleting →
      s.world.hasReplicas id = false →
      HandlerCommit ⟨id, true, some (.delete, .none)⟩ (World.setStatus id .deleting)
  | started (id : String) (d : DatabaseRow) (kind : Kind) : LockedRow H s id d →
      d.status ≠ .deleting → kind.provisional = false → kind ≠ .delete →
      (kind.rotation = true → d.replicaOf = none ∧ s.world.hasReplicas id = false) →
      kind ≠ .replace → d.status.serving = true ∨ d.status = .provisioning →
      HandlerCommit ⟨id, false, some (kind, .none)⟩ fun w => w
  | certified (id : String) (d : DatabaseRow) (secrets : DatabaseSecrets)
      (certificate : ProxyCertificate) : LockedRow H s id d → d.status ≠ .deleting →
      d.secrets = some secrets → d.status.serving = true →
      HandlerCommit ⟨id, false, some (.update, .none)⟩
        (World.storeSecrets id { secrets with proxyCertificate := some certificate })
  | resized (id : String) (d : DatabaseRow) (resources : Resources) :
      call.request = .resize id resources → LockedRow H s id d → d.status ≠ .deleting →
      resources.positive = true → d.resources.storageGb ≤ resources.storageGb → .hosts ∈ H →
      (∃ s₀ s₁, X.Fresh (.api call) .hosts s₀ s₁ ∧ X.contract.Later H s₁ s
        ∧ ∀ h ∈ F.hostLoads call.env s₀.world, (∃ n ∈ s.world.liveNodes id, n.host = h.host.id) →
          (h.free F.config).any (fits · (growth d.resources resources)) = true) →
      d.status.serving = true →
      HandlerCommit ⟨id, false, some (.resize, .none)⟩
        (World.update id fun d => { d with resources := resources })
  | replaced (id : String) (d : DatabaseRow) (node number : Nat) (h : HostLoad) (port : Nat) :
      LockedRow H s id d → d.status ≠ .deleting → d.secrets ≠ none → s.busy id = false →
      Chosen X F (.api call) call.env H s d.resources [] [h] →
      (∀ n ∈ s.world.liveNodes id, n.host ≠ h.host.id) →
      d.status.serving = true → Replaces F s id node number h →
      HandlerCommit ⟨id, false, some (.replace, ⟨some node, some number⟩)⟩
        (World.addNodes [⟨id, number, h.host.id, port, false⟩])
  | swept (id : String) (d : DatabaseRow) (status : DbStatus) : LockedRow H s id d →
      d.status.serving = true → status.serving = true →
      HandlerCommit ⟨id, false, none⟩ (World.setStatus id status)

variable {X F call H s} {s' : Tables World} {r : ApiResult} {id source wanted : String}
  {kind : Kind} {resources : Resources} {hosts : List String} {node : Nat}

theorem DbStatus.ne_of_serving {status : DbStatus} (h : status.serving) :
    status ≠ .deleting ∧ status ≠ .deleted ∧ status ≠ .provisioning ∧ status ≠ .error := by
  cases status <;> simp_all [serving]

theorem World.live?_eq_some (h : v.live? id = some d) :
    v.db? id = some d ∧ d.status ≠ .deleted := by
  obtain ⟨hd, hstatus⟩ := Option.filter_eq_some_iff.mp h
  exact ⟨hd, by simpa using hstatus⟩

theorem World.liveNodes_eq (v : World) (id : String) :
    v.liveNodes id = (v.nodesOf id).filter fun n => !n.retracted := by
  rw [liveNodes, nodesOf, filter_filter]
  exact filter_congr fun n _ => Bool.and_comm _ _

/-- Contracts under which no database has a size of zero. -/
def Extension.Sized (X : Extension World Env Call) : Prop :=
  ∀ s, X.Inv s → ∀ id d, s.world.db? id = some d → d.resources.positive = true

theorem comes_ofSource {next : Body World ApiResult}
    (h : (ofSource source id next).Comes X.contract (.api call) H₀ s₁ r w H s) :
    ∃ s₂, next.Comes X.contract (.api call) H₀ s₂ r w H s := by
  obtain ⟨s₂, -, -, h⟩ := h
  beta_reduce at h
  split at h
  · exact ⟨s₂, h⟩
  · exact h.elim

variable (hX : X.Framed)
include hX

/-- A handler that has locked its database's row knows the row it commits on. -/
theorem comes_lockDatabase {next : DatabaseRow → Body World ApiResult}
    (h : (lockDatabase id next).Comes X.contract (.api call) H₀ s₁ r w H s) :
    ∃ d s₂, LockedRow H s id d ∧ X.contract.Inv s₂ ∧ s₂.world.db? id = some d
      ∧ (next d).Comes X.contract (.api call) (insert (.database id) H₀) s₂ r w H s := by
  obtain ⟨_, s₂, -, -, -, hI, -, h⟩ := h
  beta_reduce at h
  split at h
  · exact h.elim
  next d hd =>
  obtain ⟨hrow, hlive⟩ := live?_eq_some hd
  have hmem : Key.database id ∈ insert (Key.database id) H₀ := Set.mem_insert _ _
  refine ⟨d, s₂, ⟨h.holds hmem, ?_, hlive⟩, hI, hrow, h⟩
  rw [later_db? hX hmem h.later, hrow]

theorem comes_insertDatabase
    (h : (insertDatabase d kind).Comes X.contract (.api call) H₀ s₁ r w H s) :
    r = ⟨d.id, false, some (kind, .none)⟩ ∧ w = insert d ∧ .database d.id ∈ H
      ∧ s.world.db? d.id = none := by
  obtain ⟨_, _, -, -, -, -, -, h⟩ := h
  obtain ⟨hnone, h⟩ := h.of_guard
  have hmem : Key.database d.id ∈ insert (Key.database d.id) H₀ := Set.mem_insert _ _
  obtain ⟨rfl, rfl, rfl, hl⟩ := h
  refine ⟨rfl, rfl, hmem, ?_⟩
  rw [later_db? hX hmem hl]
  simpa using hnone

theorem comes_create {ha : Bool}
    (h : (create F call.env id ha resources hosts).Comes X.contract (.api call) H₀ s₁ r w H s) :
    HandlerCommit X F call H s r w := by
  unfold create at h
  obtain ⟨hchecks, h⟩ := h.of_guard
  obtain ⟨_, -, -, h⟩ := h
  beta_reduce at h
  split at h
  · obtain ⟨rfl, rfl, hlocked, hnone⟩ := comes_insertDatabase hX h
    refine .inserted _ _ ⟨hlocked, hnone, rfl, rfl, ?_, .inl ⟨rfl, rfl⟩⟩
    simp only [Bool.or_eq_true, Bool.not_eq_true', not_or, Bool.not_eq_false] at hchecks
    exact hchecks.1
  · exact h.elim

theorem comes_restore (hsized : X.Sized)
    (h : (restore source id hosts).Comes X.contract (.api call) H₀ s₁ r w H s) :
    HandlerCommit X F call H s r w := by
  obtain ⟨s₂, -, hI, h⟩ := h
  beta_reduce at h
  split at h
  · exact h.elim
  next d hd =>
  obtain ⟨rfl, rfl, hlocked, hnone⟩ := comes_insertDatabase hX h
  exact .inserted _ _ ⟨hlocked, hnone, rfl, rfl,
    hsized s₂ hI.2 source d (live?_eq_some hd).1, .inl ⟨rfl, rfl⟩⟩

theorem comes_createReplica (hsized : X.Sized)
    {host : Option String} (hcall : call.request = .createReplica source id host)
    (h : (createReplica F call.env source id host).Comes X.contract (.api call) H₀ s₁ r w H s) :
    HandlerCommit X F call H s r w := by
  obtain ⟨d, s₂, hrow, hI, hd, h⟩ := comes_lockDatabase hX h
  obtain ⟨hchecks, h⟩ := h.of_guard
  simp only [Bool.or_eq_true, Bool.not_eq_true', not_or, Bool.not_eq_false,
    Option.isSome_iff_ne_none, not_not] at hchecks
  obtain ⟨_, -, -, h⟩ := h
  beta_reduce at h
  split at h
  · obtain ⟨rfl, rfl, hlocked, hnone⟩ := comes_insertDatabase hX h
    exact .inserted _ _ ⟨hlocked, hnone, rfl, rfl, hsized s₂ hI.2 source d hd,
      .inr ⟨rfl, source, d, host, hcall, rfl, hrow, hchecks.1.1.1, hchecks.1.1.2, rfl⟩⟩
  · exact h.elim

theorem comes_delete (h : (delete id).Comes X.contract (.api call) H₀ s₁ r w H s) :
    HandlerCommit X F call H s r w := by
  obtain ⟨d, _, hrow, -, -, h⟩ := comes_lockDatabase hX h
  obtain ⟨hstatus, h⟩ := h.of_guard
  obtain ⟨_, -, -, h⟩ := h
  obtain ⟨hnone, h⟩ := h.of_guard
  obtain ⟨rfl, rfl, rfl, hl⟩ := h
  exact .deleted id d hrow hstatus
    (later_hasReplicas hX hrow.locked hl (Bool.eq_false_iff.mpr hnone))

theorem comes_promoteReplica
    (h : (promoteReplica source id).Comes X.contract (.api call) H₀ s₁ r w H s) :
    HandlerCommit X F call H s r w := by
  obtain ⟨_, h⟩ := comes_ofSource h
  obtain ⟨d, _, hrow, -, -, h⟩ := comes_lockDatabase hX h
  obtain ⟨hserving, h⟩ := h.of_guard
  rw [Bool.not_eq_true', Bool.not_eq_false] at hserving
  obtain ⟨_, -, -, h⟩ := h
  obtain ⟨hidle, h⟩ := h.of_guard
  obtain ⟨rfl, rfl, rfl, hl⟩ := h
  exact .promoted id d hrow (ne_of_serving hserving).1
    (later_busy hrow.locked hl (Bool.eq_false_iff.mpr hidle)) hserving

theorem comes_start (hprov : kind.provisional = false)
    (hdel : kind ≠ .delete) (hrepl : kind ≠ .replace)
    (h : (start id kind).Comes X.contract (.api call) H₀ s₁ r w H s) :
    HandlerCommit X F call H s r w := by
  obtain ⟨d, _, hrow, -, -, h⟩ := comes_lockDatabase hX h
  obtain ⟨hchecks, h⟩ := h.of_guard
  simp only [Bool.or_eq_true, Bool.not_eq_true', not_or, Bool.not_eq_false,
    Option.isSome_iff_ne_none, not_not] at hchecks
  have hstatus := (ne_of_serving hchecks.1).1
  split at h
  · obtain ⟨_, -, -, h⟩ := h
    obtain ⟨hnone, h⟩ := h.of_guard
    obtain ⟨rfl, rfl, rfl, hl⟩ := h
    exact .started id d kind hrow hstatus hprov hdel (fun _ =>
      ⟨hchecks.2, later_hasReplicas hX hrow.locked hl (Bool.eq_false_iff.mpr hnone)⟩) hrepl
      (.inl hchecks.1)
  · next hkind =>
    obtain ⟨rfl, rfl, rfl, -⟩ := h
    refine .started id d kind hrow hstatus hprov hdel (fun hrot => (hkind ?_).elim) hrepl
      (.inl hchecks.1)
    cases kind <;> first | rfl | cases hrot

theorem comes_changeSpec (hprov : kind.provisional = false)
    (hdel : kind ≠ .delete) (hrot : kind.rotation = false) (hrepl : kind ≠ .replace)
    (h : (changeSpec id kind).Comes X.contract (.api call) H₀ s₁ r w H s) :
    HandlerCommit X F call H s r w := by
  obtain ⟨d, _, hrow, -, -, h⟩ := comes_lockDatabase hX h
  obtain ⟨hchecks, h⟩ := h.of_guard
  simp only [Bool.or_eq_true, decide_eq_true_eq, not_or] at hchecks
  obtain ⟨rfl, rfl, rfl, -⟩ := h
  refine .started id d kind hrow hchecks.1.2 hprov hdel (fun h => ?_) hrepl ?_
  · rw [hrot] at h
    cases h
  · have hlive := hrow.live
    have herror := hchecks.2
    have hdeleting := hchecks.1.2
    cases hstatus : d.status <;> simp_all [serving]

theorem comes_putCertificate {certificate : ProxyCertificate}
    (h : (putCertificate id certificate).Comes X.contract (.api call) H₀ s₁ r w H s) :
    HandlerCommit X F call H s r w := by
  obtain ⟨d, _, hrow, -, hd, h⟩ := comes_lockDatabase hX h
  obtain ⟨hchecks, h⟩ := h.of_guard
  simp only [Bool.or_eq_true, Bool.not_eq_true', not_or, Bool.not_eq_false] at hchecks
  obtain ⟨_, hl₃, -, h⟩ := h
  beta_reduce at h
  split at h
  · exact h.elim
  next secrets hsecrets =>
  obtain ⟨rfl, rfl, rfl, -⟩ := h
  refine .certified id d secrets certificate hrow (ne_of_serving hchecks.1).1 ?_ hchecks.1
  rw [secrets?, later_db? hX hrow.locked hl₃, hd] at hsecrets
  exact hsecrets

theorem comes_renewCertificate
    (h : (renewCertificate id node).Comes X.contract (.api call) H₀ s₁ r w H s) :
    HandlerCommit X F call H s r w := by
  obtain ⟨d, _, hrow, -, -, h⟩ := comes_lockDatabase hX h
  obtain ⟨hchecks, h⟩ := h.of_guard
  simp only [Bool.or_eq_true, Bool.not_eq_true', not_or, Bool.not_eq_false] at hchecks
  obtain ⟨_, -, -, h⟩ := h
  beta_reduce at h
  split at h
  · exact h.elim
  obtain ⟨_, -, -, h⟩ := h
  beta_reduce at h
  split at h
  · obtain ⟨rfl, rfl, rfl, -⟩ := h
    exact .started id d .update hrow (ne_of_serving hchecks.1).1 rfl nofun nofun nofun
      (.inl hchecks.1)
  · exact h.elim

theorem comes_sweep {problem : Bool}
    (h : (sweep id problem).Comes X.contract (.api call) H₀ s₁ r w H s) :
    HandlerCommit X F call H s r w := by
  obtain ⟨_, s₂, -, -, -, -, -, h⟩ := h
  have hmem : Key.database id ∈ insert (Key.database id) H₀ := Set.mem_insert _ _
  have hrow : ∀ {d : DatabaseRow}, s₂.world.db? id = some d → d.status.serving →
      H = insert (Key.database id) H₀ → X.contract.Later (insert (Key.database id) H₀) s₂ s →
      LockedRow H s id d := by
    rintro d hd hserving rfl hl
    exact ⟨hmem, by rw [later_db? hX hmem hl, hd], (ne_of_serving hserving).2.1⟩
  beta_reduce at h
  split at h
  · next d hd =>
    split at h
    · next hactive =>
      obtain ⟨rfl, rfl, hH, hl⟩ := h
      have hserving : d.status.serving := by simp [serving, hactive]
      exact .swept id d _ (hrow hd hserving hH hl) hserving rfl
    · exact h.elim
  · next d hd =>
    split at h
    · next hdegraded =>
      obtain ⟨rfl, rfl, hH, hl⟩ := h
      have hserving : d.status.serving := by simp [serving, hdegraded]
      exact .swept id d _ (hrow hd hserving hH hl) hserving rfl
    · exact h.elim
  · exact h.elim

theorem later_liveNodes (hk : .database id ∈ H)
    (h : X.contract.Later H s s') : s'.world.liveNodes id = s.world.liveNodes id := by
  rw [liveNodes_eq, liveNodes_eq, later_nodesOf hX hk h]

theorem comes_resize (hcall : call.request = .resize id resources)
    (h : (resize F call.env id resources).Comes X.contract (.api call) H₀ s₁ r w H s) :
    HandlerCommit X F call H s r w := by
  unfold resize at h
  obtain ⟨hpositive, h⟩ := h.of_guard
  obtain ⟨d, _, hrow, -, -, h⟩ := comes_lockDatabase hX h
  obtain ⟨hchecks, h⟩ := h.of_guard
  simp only [Bool.or_eq_true, Bool.not_eq_true', not_or, Bool.not_eq_false] at hchecks
  obtain ⟨_, -, -, h⟩ := h
  obtain ⟨hstorage, h⟩ := h.of_guard
  simp only [Bool.or_eq_true, decide_eq_true_eq, not_or, not_lt] at hstorage
  obtain ⟨_, -, -, s₅, s₆, hl₅, -, hl₆, -, hfresh, h⟩ := h
  dsimp only at h
  split at h
  · next hfits =>
    obtain ⟨rfl, rfl, rfl, hl⟩ := h
    have hmem := Set.mem_insert (Key.database id) H₀
    refine .resized id d resources hcall hrow (ne_of_serving hchecks.1).1
      (by simpa using hpositive) hstorage.2 (Set.mem_insert _ _) ⟨s₅, s₆, hfresh, hl, ?_⟩
      hchecks.1
    rintro h hload ⟨n, hn, hhost⟩
    rw [later_liveNodes hX hrow.locked hl, later_liveNodes hX hmem (hl₅.trans hl₆)] at hn
    have hok := all_eq_true.mp hfits h hload
    rw [Bool.or_eq_true, Bool.not_eq_true', contains_eq_mem, decide_eq_false_iff_not] at hok
    rcases hok with habsent | hok
    · exact (habsent (hhost ▸ mem_map_of_mem hn)).elim
    · exact hok
  · exact h.elim

theorem comes_startReplacement
    (h : (startReplacement F call.env id node wanted).Comes X.contract (.api call) H₀ s₁ r w H
      s) : HandlerCommit X F call H s r w := by
  obtain ⟨d, _, hrow, -, -, h⟩ := comes_lockDatabase hX h
  obtain ⟨hchecks, h⟩ := h.of_guard
  simp only [Bool.or_eq_true, Bool.not_eq_true', not_or, Bool.not_eq_false] at hchecks
  obtain ⟨_, -, -, h⟩ := h
  obtain ⟨hidle, h⟩ := h.of_guard
  obtain ⟨s₄, hl₄, -, h⟩ := h
  obtain ⟨hold, h⟩ := h.of_guard
  obtain ⟨s₅, s₆, hl₅, -, hl₆, -, hfresh, h⟩ := h
  beta_reduce at h
  split at h
  · exact h.elim
  next load hfound =>
  obtain ⟨hplace, h⟩ := h.of_guard
  simp only [Bool.or_eq_true, Bool.not_eq_true', not_or, Bool.not_eq_false, Bool.not_eq_true,
    any_eq_false, decide_eq_true_eq] at hplace
  obtain ⟨_, hl₇, -, h⟩ := h
  obtain ⟨hsecrets, h⟩ := h.of_guard
  obtain ⟨_, hl₈, -, h⟩ := h
  dsimp only at h
  split at h
  · exact h.elim
  next port _ =>
  split at h
  · exact h.elim
  obtain ⟨rfl, rfl, rfl, hl⟩ := h
  have hmem := Set.mem_insert (Key.database id) H₀
  have hlast := (hl₇.trans hl₈).trans hl
  have hnodes : s.world.liveNodes id = s₄.world.liveNodes id := by
    rw [later_liveNodes hX hrow.locked hlast, later_liveNodes hX hmem (hl₅.trans hl₆)]
  refine .replaced id d node _ load port hrow (ne_of_serving hchecks.1.1).1 ?_ ?_ ?_ ?_
    hchecks.1.1 ?_
  · have hd := hrow.row
    rw [later_db? hX hrow.locked (hl₈.trans hl)] at hd
    rw [secrets?, hd] at hsecrets
    simpa using hsecrets
  · exact later_busy hrow.locked hlast (later_busy hmem ((hl₄.trans hl₅).trans hl₆)
      (Bool.eq_false_iff.mpr hidle))
  · refine ⟨?_, pairwise_singleton .., Set.mem_insert _ _, s₅, s₆, hfresh, hlast, ?_⟩
    · simpa using hplace.2
    · simpa using mem_of_find?_eq_some hfound
  · rw [hnodes]
    exact hplace.1.2
  · refine ⟨?_, ?_, ?_⟩ <;> rw [hnodes]
    · simpa using hold
    · exact fun n hn => Nat.lt_succ_of_le (le_max_of_le' 0 (mem_map_of_mem hn) le_rfl)
    · intro n hn hne hdomain
      have hother := hplace.1.1.2 n hn
      simp [hne, hdomain] at hother

theorem handlerCommit_of_comes (hsized : X.Sized)
    (h : (handler F call).Comes X.contract (.api call) H₀ s₁ r w H s) :
    HandlerCommit X F call H s r w := by
  unfold handler at h
  split at h
  case h_1 => exact comes_create hX h
  case h_2 => exact comes_restore hX hsized h
  case h_3 hcall => exact comes_createReplica hX hsized hcall h
  case h_4 => exact comes_promoteReplica hX h
  case h_5 =>
      obtain ⟨s₂, h⟩ := comes_ofSource h
      exact comes_delete hX h
  case h_6 => exact comes_delete hX h
  case h_8 =>
      obtain ⟨_, -, -, h⟩ := h
      beta_reduce at h
      split at h
      · exact comes_start hX (by decide) (by decide) (by decide) h
      · exact h.elim
  case h_7 | h_9 | h_10 | h_11 | h_12 => exact comes_start hX (by decide) (by decide) (by decide) h
  case h_13 | h_14 | h_15 =>
      exact comes_changeSpec hX (by decide) (by decide) (by decide) (by decide) h
  case h_16 hcall => exact comes_resize hX hcall h
  case h_17 => exact comes_startReplacement hX h
  case h_18 => exact comes_putCertificate hX h
  case h_19 => exact comes_renewCertificate hX h
  case h_20 => exact comes_sweep hX h

end Handlers

end PgCluster.Admin
