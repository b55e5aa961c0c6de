import PgCluster.AdminBodies
import PgCluster.AdminHandlers
import PgCluster.ListUpdates

/-!
# What a commit leaves alone

How the writes to databases and nodes show in the rows, and the part of the
contract every model of the database shares: a row, the nodes of a database
and its gaining a replica are up to who holds the database's lock (`Frame`).
`Framed` contracts keep at least that, so what a session has read under a
lock it can still rely on when it commits.
-/

namespace PgCluster.Admin

open List
open Contract.Stable (later)

/-! ## Rows after a write -/

namespace World

variable {w : World} {id j : String} {d e : DatabaseRow} {f : DatabaseRow → DatabaseRow}

def Unique (w : World) : Prop := w.databases.Pairwise (·.id ≠ ·.id)

def nodesOf (w : World) (id : String) : List NodeRow := w.nodes.filter (·.database = id)

theorem db?_id (h : w.db? id = some d) : d.id = id := by
  simpa using find?_some h

theorem db?_mem (h : w.db? id = some d) : d ∈ w.databases :=
  mem_of_find?_eq_some h

theorem Unique.db? (hu : w.Unique) (h : d ∈ w.databases) : w.db? d.id = some d :=
  find?_of_nodup_map (pairwise_map.mpr hu) h

theorem update_row_id (hf : ∀ d, (f d).id = d.id) (d : DatabaseRow) :
    (if d.id = id then f d else d).id = d.id := by
  split
  · exact hf d
  · rfl

theorem db?_update (hf : ∀ d, (f d).id = d.id) (j : String) :
    (w.update id f).db? j = (w.db? j).map fun d => if d.id = id then f d else d := by
  show (w.databases.map _).find? _ = _
  rw [find?_map]
  refine congrArg (Option.map _) (congrArg (List.find? · w.databases) (funext fun d => ?_))
  show decide ((if d.id = id then f d else d).id = j) = decide (d.id = j)
  rw [update_row_id hf]

theorem db?_update_self (hf : ∀ d, (f d).id = d.id) :
    (w.update id f).db? id = (w.db? id).map f := by
  rw [db?_update hf]
  cases h : w.db? id with
  | none => rfl
  | some => exact congrArg some (if_pos (db?_id h))

theorem db?_update_ne (hf : ∀ d, (f d).id = d.id) (hj : j ≠ id) :
    (w.update id f).db? j = w.db? j := by
  rw [db?_update hf]
  cases h : w.db? j with
  | none => rfl
  | some => exact congrArg some (if_neg (db?_id h ▸ hj))

theorem db?_insert (hnone : w.db? d.id = none) (j : String) :
    (w.insert d).db? j = if j = d.id then some d else w.db? j := by
  show (w.databases ++ [d]).find? _ = _
  rw [find?_append]
  split
  · next h =>
    subst h
    rw [show w.databases.find? _ = none from hnone]
    simp
  · next h =>
    rw [find?_cons_of_neg (by simpa using Ne.symm h)]
    exact Option.or_none

theorem db?_insert_of_some (hnone : w.db? d.id = none) (h : w.db? j = some e) :
    j ≠ d.id ∧ (w.insert d).db? j = some e := by
  have hj : j ≠ d.id := by
    rintro rfl
    rw [hnone] at h
    cases h
  exact ⟨hj, by rw [db?_insert hnone, if_neg hj, h]⟩

theorem Unique.update (hu : w.Unique) (hf : ∀ d, (f d).id = d.id) : (w.update id f).Unique := by
  refine pairwise_map.mpr (hu.imp fun {a b} hab => ?_)
  rw [update_row_id hf, update_row_id hf]
  exact hab

theorem Unique.insert (hu : w.Unique) (hnone : w.db? d.id = none) : (w.insert d).Unique := by
  refine pairwise_append.mpr ⟨hu, pairwise_singleton .., ?_⟩
  intro e he _ hd'
  rw [mem_singleton.mp hd']
  have hne := find?_eq_none.mp hnone e he
  simpa using hne

theorem hasReplicas_iff : w.hasReplicas id
    ↔ ∃ d ∈ w.databases, d.replicaOf = some id ∧ d.status ≠ .deleted := by
  simp [hasReplicas]

theorem hasReplicas_insert (h : (w.insert d).hasReplicas j) :
    w.hasReplicas j ∨ d.replicaOf = some j := by
  obtain ⟨e, he, hof, hlive⟩ := hasReplicas_iff.mp h
  rcases mem_append.mp he with he | he
  · exact .inl (hasReplicas_iff.mpr ⟨e, he, hof, hlive⟩)
  · exact .inr (mem_singleton.mp he ▸ hof)

theorem hasReplicas_update (hf : ∀ d, (f d).replicaOf = some j → (f d).status ≠ .deleted →
    d.id = id → w.db? id = some d → d.replicaOf = some j ∧ d.status ≠ .deleted) (hu : w.Unique)
    (h : (w.update id f).hasReplicas j) : w.hasReplicas j := by
  obtain ⟨_, hd', hof, hstatus⟩ := hasReplicas_iff.mp h
  obtain ⟨d, hd, rfl⟩ := mem_map.mp hd'
  split at hof
  · next hid =>
    rw [if_pos hid] at hstatus
    exact hasReplicas_iff.mpr ⟨d, hd, hf d hof hstatus hid (hid ▸ hu.db? hd)⟩
  · next hid =>
    rw [if_neg hid] at hstatus
    exact hasReplicas_iff.mpr ⟨d, hd, hof, hstatus⟩

end World

/-! ## The frame -/

/-- A commit under the locks `H`. -/
structure Frame (H : Set Key) (s s' : Tables World) : Prop where
  rows : ∀ id, .database id ∉ H → s'.world.db? id = s.world.db? id
  nodes : ∀ id, .database id ∉ H → s'.world.nodesOf id = s.world.nodesOf id
  replicas : ∀ id, .database id ∉ H → s'.world.hasReplicas id = true → s.world.hasReplicas id = true

theorem Frame.of_update {H : Set Key} {s s' : Tables World} {id : String}
    {f : DatabaseRow → DatabaseRow} (hdb : .database id ∈ H) (hu : s.world.Unique)
    (hf : ∀ d, (f d).id = d.id) (hof : ∀ d j, s.world.db? id = some d → (f d).replicaOf = some j →
      (f d).status ≠ .deleted → d.replicaOf = some j ∧ d.status ≠ .deleted)
    (hrows : s'.world.databases = (s.world.update id f).databases)
    (hnodes : ∀ j, j ≠ id → s'.world.nodesOf j = s.world.nodesOf j) : Frame H s s' := by
  have hne : ∀ j, Key.database j ∉ H → j ≠ id := fun j hj h => hj (h ▸ hdb)
  refine ⟨fun j hj => ?_, fun j hj => hnodes j (hne j hj), fun j hj h => ?_⟩
  · have hsame : s'.world.db? j = (s.world.update id f).db? j := congrArg (List.find? _) hrows
    rw [hsame, World.db?_update_ne hf (hne j hj)]
  · have hsame : (s.world.update id f).hasReplicas j := by
      rw [← h]
      exact congrArg (List.any · _) hrows.symm
    exact World.hasReplicas_update (fun d h₁ h₂ _ hd => hof d j hd h₁ h₂) hu hsame

def Extension.Framed (X : Extension World Env Call) : Prop :=
  ∀ a n H s s', X.Guar a n H s s' → Frame H s s'

section Later

variable {X : Extension World Env Call} {H : Set Key} {s s' : Tables World} {id : String}

theorem later_db? (hX : X.Framed) (hk : .database id ∈ H) (h : X.contract.Later H s s') :
    s'.world.db? id = s.world.db? id := by
  refine later (K := fun t => t.world.db? id = s.world.db? id) ?_ h rfl
  intro a n _ t _ hd _ _ hG ht
  exact ((hX _ _ _ _ _ hG.2).rows id (hd _ hk)).trans ht

theorem later_nodesOf (hX : X.Framed) (hk : .database id ∈ H) (h : X.contract.Later H s s') :
    s'.world.nodesOf id = s.world.nodesOf id := by
  refine later (K := fun t => t.world.nodesOf id = s.world.nodesOf id) ?_ h rfl
  intro a n _ t _ hd _ _ hG ht
  exact ((hX _ _ _ _ _ hG.2).nodes id (hd _ hk)).trans ht

theorem later_hasReplicas (hX : X.Framed) (hk : .database id ∈ H)
    (h : X.contract.Later H s s') (hnone : s.world.hasReplicas id = false) :
    s'.world.hasReplicas id = false := by
  refine later (K := fun t => t.world.hasReplicas id = false) ?_ h hnone
  intro a n _ t _ hd _ _ hG ht
  refine Bool.eq_false_iff.mpr fun htrue => ?_
  rw [(hX _ _ _ _ _ hG.2).replicas id (hd _ hk) htrue] at ht
  cases ht

/-- Nobody else records an operation for a locked database. -/
theorem later_busy (hk : .database id ∈ H) (h : X.contract.Later H s s')
    (hidle : s.busy id = false) : s'.busy id = false := by
  refine later (K := fun t => t.busy id = false) ?_ h hidle
  intro a n _ t _ hd _ _ hG ht
  rw [Tables.busy, any_eq_false] at ht ⊢
  intro r hr hbusy
  rw [Bool.and_eq_true, decide_eq_true_eq] at hbusy
  rcases hG.1.new r hr with ⟨r₀, hr₀, hrow⟩ | ⟨-, hnew⟩
  · obtain rfl : r = r₀ := hrow.unlocked fun hin => hd _ hk (hbusy.1 ▸ hrow.database ▸ hin)
    exact ht r hr₀ (by simpa using hbusy)
  · exact hd _ hk (hbusy.1 ▸ hnew)

end Later

end PgCluster.Admin
