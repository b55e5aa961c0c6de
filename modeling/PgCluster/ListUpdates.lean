import Mathlib.Algebra.GroupWithZero.Nat
import Mathlib.Data.List.Count
import Mathlib.Data.List.Nodup
import Mathlib.Data.List.Perm.Basic

/-!
# Lists that change in one place

The parties of a system are often a list, and a step replaces one member or
adds one at the end. What is at a place afterwards, and how many members pass
a test. The counts are equations without subtraction, so that `omega` can
chain them.
-/

namespace PgCluster

open List

variable {α : Type} {p : α → Bool} {l : List α} {i j n : Nat} {a b x : α} {κ : Type} {key : α → κ}

/-- What is at a place of the changed list: the new member, or what was there. -/
theorem getElem?_set_cases (h : (l.set i a)[j]? = some x) :
    (i = j ∧ x = a) ∨ (i ≠ j ∧ l[j]? = some x) := by
  by_cases hij : i = j
  · subst hij
    obtain ⟨_, hx⟩ := List.getElem?_eq_some_iff.mp h
    rw [getElem_set_self] at hx
    exact .inl ⟨rfl, hx.symm⟩
  · rw [getElem?_set_ne hij] at h
    exact .inr ⟨hij, h⟩

theorem getElem?_append_singleton_cases (h : (l ++ [a])[j]? = some x) :
    (j = l.length ∧ x = a) ∨ l[j]? = some x := by
  rcases Nat.lt_trichotomy j l.length with hlt | rfl | _
  · rw [getElem?_append_left hlt] at h
    exact .inr h
  · rw [getElem?_concat_length] at h
    exact .inl ⟨rfl, (Option.some.inj h).symm⟩
  · have hlen : (l ++ [a]).length ≤ j := by
      rw [length_append, length_singleton]
      omega
    rw [getElem?_eq_none hlen] at h
    cases h

/-- Changing members that a test fails, and still fails, does not show. -/
theorem filter_map_eq_filter {f : α → α} (h : ∀ a ∈ l, f a = a ∨ (p a = false ∧ p (f a) = false)) :
    (l.map f).filter p = l.filter p := by
  induction l with
  | nil => rfl
  | cons a _ ih =>
    have htail := ih fun b hb => h b (mem_cons_of_mem _ hb)
    obtain heq | ⟨hpa, hpfa⟩ := h a mem_cons_self
    · rw [map_cons, heq, filter_cons, filter_cons, htail]
    · rw [map_cons, filter_cons_of_neg (by rw [hpfa]; exact Bool.false_ne_true),
        filter_cons_of_neg (by rw [hpa]; exact Bool.false_ne_true), htail]

/-- A member is what a look-up under its key finds, where keys are unique. -/
theorem find?_of_nodup_map [DecidableEq κ] (h : (l.map key).Nodup)
    (ha : a ∈ l) : l.find? (fun b => key b = key a) = some a := by
  cases hfound : l.find? fun b => key b = key a with
  | none =>
    have hnone := find?_eq_none.mp hfound a ha
    simp at hnone
  | some b =>
    have hkey : key b = key a := by simpa using find?_some hfound
    exact congrArg some (inj_on_of_nodup_map h (mem_of_find?_eq_some hfound) ha hkey)

theorem nodup_map_append_singleton (h : (l.map key).Nodup)
    (hnew : ∀ b ∈ l, key b ≠ key a) : ((l ++ [a]).map key).Nodup := by
  rw [map_append, map_singleton]
  refine List.Nodup.append h (nodup_singleton _) ?_
  rw [disjoint_singleton]
  intro hin
  obtain ⟨b, hb, hkey⟩ := mem_map.mp hin
  exact hnew b hb hkey

/-- A change of some members that keeps their keys keeps all keys. -/
theorem map_key_map_ite {p : α → Prop} [DecidablePred p] {f : α → α}
    (hf : ∀ b, key (f b) = key b) :
    (l.map fun b => if p b then f b else b).map key = l.map key := by
  rw [map_map]
  refine map_congr_left fun b _ => ?_
  show key (if p b then f b else b) = key b
  split
  · exact hf b
  · rfl

theorem mem_map_of_key_ne {k : κ} {f : α → α}
    (hkey : ∀ b, key (f b) = key b) (hf : ∀ b, key b ≠ k → f b = b) (ha : key a ≠ k) :
    a ∈ l.map f ↔ a ∈ l := by
  refine ⟨fun h => ?_, fun h => mem_map.mpr ⟨a, h, hf a ha⟩⟩
  obtain ⟨b, hb, rfl⟩ := mem_map.mp h
  rw [hkey] at ha
  rw [hf b ha]
  exact hb

/-! ## Counting -/

/-- One for a member that passes the test. -/
def one (p : α → Bool) (a : α) : Nat := if p a then 1 else 0

@[simp] theorem one_of_true (h : p a) : one p a = 1 := if_pos h

@[simp] theorem one_of_false (h : p a = false) : one p a = 0 := by
  simp [one, h]

theorem one_eq_toNat (p : α → Bool) (a : α) : one p a = (p a).toNat := by
  cases h : p a <;> simp [one, h]

theorem countP_set_add (h : l[i]? = some a) :
    (l.set i b).countP p + one p a = l.countP p + one p b := by
  obtain ⟨hi, rfl⟩ := List.getElem?_eq_some_iff.mp h
  have hle : (if p l[i] = true then 1 else 0) ≤ l.countP p := boole_getElem_le_countP hi
  rw [countP_set hi, one, one]
  omega

theorem countP_append_singleton : (l ++ [a]).countP p = l.countP p + one p a := by
  rw [countP_append, countP_singleton, one]

theorem countP_eraseIdx_add (h : l[i]? = some a) :
    (l.eraseIdx i).countP p + one p a = l.countP p := by
  obtain ⟨hi, rfl⟩ := List.getElem?_eq_some_iff.mp h
  have hperm := (getElem_cons_eraseIdx_perm hi).countP_eq p
  rwa [countP_cons] at hperm

theorem sum_map_set_add (f : α → Nat) (h : l[i]? = some a) :
    ((l.set i b).map f).sum + f a = (l.map f).sum + f b := by
  induction l generalizing i with
  | nil => cases h
  | cons x _ ih =>
    cases i with
    | zero =>
      obtain rfl : x = a := Option.some.inj h
      simp only [set_cons_zero, map_cons, sum_cons]
      omega
    | succ i =>
      have htail := ih h
      simp only [set_cons_succ, map_cons, sum_cons]
      omega

theorem one_le_countP (h : l[i]? = some a) : one p a ≤ l.countP p := by
  obtain ⟨hi, rfl⟩ := List.getElem?_eq_some_iff.mp h
  exact boole_getElem_le_countP hi

theorem index_unique_of_countP_le_one (hle : l.countP p ≤ 1) (hi : l[i]? = some a)
    (ha : p a) (hj : l[j]? = some b) (hb : p b) : i = j := by
  by_contra hij
  have herase := countP_eraseIdx_add (p := p) hi
  rw [one_of_true ha] at herase
  have hzero : (l.eraseIdx i).countP p = 0 := by omega
  have hmem : b ∈ l.eraseIdx i := mem_eraseIdx_iff_getElem?.mpr ⟨j, fun h => hij h.symm, hj⟩
  exact countP_eq_zero.mp hzero b hmem hb

/-- A sum to which only members that pass the test contribute, and no more than
`n` each. -/
theorem sum_map_le_mul_countP {f : α → Nat} (h : ∀ a ∈ l, f a ≤ n * one p a) :
    (l.map f).sum ≤ n * l.countP p := by
  induction l with
  | nil => exact Nat.zero_le _
  | cons a _ ih =>
    have htail := ih fun b hb => h b (mem_cons_of_mem _ hb)
    have hhead := h a mem_cons_self
    rw [map_cons, sum_cons, countP_cons, ← one, Nat.mul_add]
    omega

end PgCluster
