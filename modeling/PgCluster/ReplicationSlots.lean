import Mathlib.Data.List.Basic

/-!
# The audit of replication slots

`drop_orphaned_slots` of `failover/slots.rs` asks Postgres for the slots to drop. The
query compares `confirmed_flush_lsn`, which only a logical slot has: for the physical
slots that pgcluster creates it is `NULL`, the comparison is not true, and no slot is
ever found.
-/

namespace PgCluster

/-! ## SQL -/

/-- Three-valued conjunction; `none` is `NULL`. -/
def sqlAnd : Option Bool → Option Bool → Option Bool
  | some false, _ | _, some false => some false
  | some true, some true => some true
  | _, _ => none

/-- `LIKE`, with the pattern first. -/
def like : List Char → List Char → Bool
  | [], text => text.isEmpty
  | '%' :: pattern, text => text.tails.any fun rest => like pattern rest
  | '_' :: pattern, text => text ≠ [] && like pattern text.tail
  | '\\' :: c :: pattern, text => text.head? = some c && like pattern text.tail
  | c :: pattern, text => text.head? = some c && like pattern text.tail

/-! ## The query -/

/-- A row of `pg_replication_slots`. -/
structure SlotRow where
  slotName : String
  active : Bool
  restartLsn : Option Nat
  confirmedFlushLsn : Option Nat
deriving DecidableEq

def i64Max : Nat := 9223372036854775807

namespace SlotRow

/-- The slot is one that `pg_create_physical_replication_slot` has made. -/
def physical (r : SlotRow) : Bool := r.restartLsn.isSome && r.confirmedFlushLsn.isNone

/-- The condition of the query, at the position `current` of the WAL. -/
def condition (r : SlotRow) (current : Nat) (pattern : String) (maxLag : Nat) : Option Bool :=
  sqlAnd (sqlAnd (some (r.active == false)) (some (like pattern.toList r.slotName.toList)))
    (r.confirmedFlushLsn.map fun (lsn : Nat) => decide ((maxLag : Int) < (current : Int) - lsn))

/-- A slot that nobody uses and that holds back more WAL than is allowed. -/
def orphaned (r : SlotRow) (current : Nat) (slotPrefix : String) (maxLagBytes : Nat) : Bool :=
  r.slotName.toList.take slotPrefix.length = slotPrefix.toList && !r.active
    && r.restartLsn.any fun (lsn : Nat) => (maxLagBytes : Int) < (current : Int) - lsn

end SlotRow

/-- The drops that `drop_orphaned_slots` tries, each with whether it succeeded. -/
def dropAttempts (rows : List SlotRow) (current : Nat) (slotPrefix : String) (maxLagBytes : Nat)
    (drops : String → Bool) : List (String × Bool) :=
  (rows.filter fun r =>
      r.condition current (slotPrefix ++ "%") (min maxLagBytes i64Max) = some true).map
    fun r => (r.slotName, drops r.slotName)

/-- The names that were dropped. -/
def dropOrphanedSlots (rows : List SlotRow) (current : Nat) (slotPrefix : String)
    (maxLagBytes : Nat) (drops : String → Bool) : List String :=
  ((dropAttempts rows current slotPrefix maxLagBytes drops).filter (·.2)).map (·.1)

variable {rows : List SlotRow} {current maxLagBytes : Nat} {slotPrefix : String}
  {drops : String → Bool}

theorem sqlAnd_eq_true {a b : Option Bool} :
    sqlAnd a b = some true ↔ a = some true ∧ b = some true := by
  rcases a with _ | _ | _ <;> rcases b with _ | _ | _ <;> simp [sqlAnd]

/-- A comparison with `NULL` is not true. -/
theorem SlotRow.condition_of_physical {r : SlotRow} (h : r.physical) (pattern : String)
    (maxLag : Nat) : r.condition current pattern maxLag ≠ some true := by
  have hnull : r.confirmedFlushLsn = none := by simpa [physical] using (Bool.and_eq_true_iff.mp h).2
  rw [condition, hnull, Option.map_none, Ne, sqlAnd_eq_true]
  exact fun hboth => nomatch hboth.2

/-- Among physical slots the drops that are tried are those of the orphans exactly when
there are none: none are ever tried. -/
theorem orphans_dropped_iff (hphysical : ∀ r ∈ rows, r.physical = true) :
    (∀ r ∈ rows, (r.slotName ∈ (dropAttempts rows current slotPrefix maxLagBytes drops).map (·.1)
        ↔ r.orphaned current slotPrefix maxLagBytes = true))
      ↔ ∀ r ∈ rows, r.orphaned current slotPrefix maxLagBytes = false := by
  have hnone : dropAttempts rows current slotPrefix maxLagBytes drops = [] := by
    rw [dropAttempts, List.map_eq_nil_iff, List.filter_eq_nil_iff]
    exact fun r hr => by simpa using SlotRow.condition_of_physical (hphysical r hr) _ _
  refine forall₂_congr fun r hr => ?_
  rw [hnone]
  simp

/-- A slot that is not in use and keeps up. -/
def idleSlot : SlotRow := ⟨"pgcluster_pg3", false, some 4000000000, none⟩

theorem orphans_dropped_iff_kept :
    idleSlot.slotName ∈ (dropAttempts [idleSlot] 4000000000 "pgcluster_" 1073741824
        fun _ => true).map (·.1)
      ↔ idleSlot.orphaned 4000000000 "pgcluster_" 1073741824 = true :=
  (orphans_dropped_iff (by decide)).mpr (by decide) idleSlot (by decide)

/-- A slot that is not in use, four gigabytes behind. -/
def orphanSlot : SlotRow := ⟨"pgcluster_pg2", false, some 0, none⟩

/-- It stays. -/
theorem orphan_kept :
    orphanSlot.physical = true ∧ orphanSlot.orphaned 4000000000 "pgcluster_" 1073741824 = true
      ∧ dropAttempts [orphanSlot] 4000000000 "pgcluster_" 1073741824 (fun _ => true) = []
      ∧ dropOrphanedSlots [orphanSlot] 4000000000 "pgcluster_" 1073741824 (fun _ => true)
        = [] := by
  decide

end PgCluster
