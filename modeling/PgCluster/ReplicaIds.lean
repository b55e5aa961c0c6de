import Mathlib.Data.List.Nodup
import PgCluster.Machine

/-!
# The node ids of replicas

A replica's `node_id` is `r` and a number, one more than there are databases whose spec names
the source, deleted ones included. A promotion takes a database out of that count, and the
last number is given out again.
-/

namespace PgCluster.Replicas

open List

/-- A database that was created as a replica of the source. -/
structure Replica where
  number : Nat
  /-- Whether its spec still has its `replica_of`. -/
  attached : Bool
  deleted : Bool
deriving DecidableEq

structure Source where
  replicas : List Replica
  /-- What the request has counted that has locked the source's row. -/
  counted : Option Nat
deriving DecidableEq

/-- A create-replica request up to its count, and its end; and the steps of operations that
let a replica go. -/
inductive Label where
  | count
  | insert
  | rollBack
  | promote (i : Nat)
  | delete (i : Nat)
deriving DecidableEq

namespace Source

def step (s : Source) : Label → Option Source
  | .count =>
    if s.counted = none then some { s with counted := s.replicas.countP (·.attached) } else none
  | .insert => s.counted.map fun n => ⟨s.replicas ++ [⟨n + 1, true, false⟩], none⟩
  | .rollBack => some { s with counted := none }
  | .promote i =>
    some { s with replicas := s.replicas.modify i fun r => { r with attached := false } }
  | .delete i => some { s with replicas := s.replicas.modify i fun r => { r with deleted := true } }

def machine : Machine Source Label := ⟨⟨[], none⟩, step⟩

def numbers (s : Source) : List Nat :=
  (s.replicas.filter fun r => r.attached && !r.deleted).map (·.number)

/-- All that were created still count, and have the numbers from one on. -/
structure Counted (s : Source) : Prop where
  numbers : s.replicas.map (·.number) = List.range' 1 s.replicas.length
  attached : ∀ r ∈ s.replicas, r.attached = true
  counted : ∀ n, s.counted = some n → n = s.replicas.length

theorem Counted.step {s s' : Source} {l : Label} (h : s.Counted) (hl : ∀ i, l ≠ .promote i)
    (hs : s.step l = some s') : s'.Counted := by
  cases l with
  | count =>
    obtain ⟨-, rfl⟩ := Option.ite_some_none_eq_some.mp hs
    refine ⟨h.numbers, h.attached, fun n hn => ?_⟩
    rw [← Option.some.inj hn, countP_eq_length]
    exact h.attached
  | insert =>
    obtain ⟨n, hn, rfl⟩ := Option.map_eq_some_iff.mp hs
    obtain rfl := h.counted n hn
    refine ⟨?_, forall_mem_append.mpr ⟨h.attached, by simp⟩, nofun⟩
    rw [map_append, h.numbers, length_append]
    simp [range'_concat, Nat.add_comm]
  | rollBack =>
    cases hs
    exact ⟨h.numbers, h.attached, nofun⟩
  | promote i => exact absurd rfl (hl i)
  | delete =>
    cases hs
    refine ⟨?_, fun r hr => ?_, fun n hn => (h.counted n hn).trans (length_modify ..).symm⟩
    · rw [length_modify, ← h.numbers]
      apply ext_getElem?
      intro j
      grind
    · obtain ⟨_, _⟩ := mem_iff_getElem?.mp hr
      have hattached := h.attached
      grind

/-- As long as no replica is promoted, no two that are not deleted have the same id. -/
theorem replica_ids_unique {s : Source}
    (hr : machine.Reaches (fun _ l => ∀ i, l ≠ .promote i) s) : s.numbers.Nodup := by
  have h : s.Counted := hr.invariant ⟨rfl, nofun, nofun⟩ fun _ _ _ => Counted.step
  refine .sublist (filter_sublist.map _) ?_
  rw [h.numbers]
  exact nodup_range'

theorem replica_ids_unique_two :
    (Source.numbers ⟨[⟨1, true, false⟩, ⟨2, true, false⟩], none⟩).Nodup :=
  replica_ids_unique (.step (l := .insert) (.step (l := .count) (.step (l := .insert)
    (.step (l := .count) .init nofun rfl) nofun rfl) nofun rfl) nofun rfl)

/-- The first of two replicas is promoted before a third is created. -/
theorem replica_ids_collide : (machine.run
    [.count, .insert, .count, .insert, .promote 0, .count, .insert]).map numbers = some [2, 2] := by
  decide

end Source

end PgCluster.Replicas
