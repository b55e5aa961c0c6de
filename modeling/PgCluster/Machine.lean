import Mathlib.Data.List.Basic

/-!
# Guarded step machines

The transition systems of this development are *executable*: a step
function `σ → ι → Option σ` that refuses (`none`) a label it has no
transition for. A run is the fold of a label list; reachability is the
inductive closure, relative to a per-step condition `G` on the state
before the step and the label taken there.

The condition is a parameter because most results have the shape "in
every run whose steps all meet `G`, …": `Reaches M G` is the reachable
part of the runs that keep to `G`, and `Reaches M fun _ _ => True` is
plain reachability. `Reaches.invariant` packages the induction once;
`reaches_of_run` turns an evaluated run into a reachability fact, which
is how the concrete runs of this development enter the proofs.
-/

namespace PgCluster

/-- A start state and a partial step function. -/
structure Machine (σ ι : Type) where
  init : σ
  step : σ → ι → Option σ

namespace Machine

variable {σ ι : Type} {M : Machine σ ι} {G H : σ → ι → Prop} {s s' : σ} {l : ι} {ls : List ι}
  {I D P : σ → Prop}

/-- Take the labels of a list in order, from `s`. -/
def runFrom (M : Machine σ ι) (s : σ) (ls : List ι) : Option σ :=
  ls.foldlM M.step s

def run (M : Machine σ ι) (ls : List ι) : Option σ :=
  M.runFrom M.init ls

/-- The states of the runs whose every step meets `G`. -/
inductive Reaches (M : Machine σ ι) (G : σ → ι → Prop) : σ → Prop
  | init : Reaches M G M.init
  | step {s s' : σ} {l : ι} : Reaches M G s → G s l → M.step s l = some s' → Reaches M G s'

/-- Plain reachability: no condition on the steps. -/
abbrev Reachable (M : Machine σ ι) : σ → Prop :=
  Reaches M fun _ _ => True

/-- The invariant rule: what holds initially and is kept by every step
that meets the condition holds in every state of such runs. -/
theorem Reaches.invariant (hr : Reaches M G s) (hinit : I M.init)
    (hstep : ∀ s l s', I s → G s l → M.step s l = some s' → I s') : I s := by
  induction hr with
  | init => exact hinit
  | step _ hG hs ih => exact hstep _ _ _ ih hG hs

theorem Reaches.mono (hr : Reaches M G s) (h : ∀ s l, G s l → H s l) : Reaches M H s := by
  induction hr with
  | init => exact .init
  | step _ hG hs ih => exact .step ih (h _ _ hG) hs

theorem Reaches.reachable (hr : Reaches M G s) : M.Reachable s :=
  hr.mono fun _ _ _ => trivial

@[simp] theorem runFrom_cons (s : σ) (l : ι) (ls : List ι) :
    M.runFrom s (l :: ls) = (M.step s l).bind fun s' => M.runFrom s' ls := rfl

theorem runFrom_cons_of_step (h : M.step s l = some s') (ls : List ι) :
    M.runFrom s (l :: ls) = M.runFrom s' ls := by
  rw [runFrom_cons, h, Option.bind_some]

theorem runFrom_append (s : σ) (ls ls' : List ι) :
    M.runFrom s (ls ++ ls') = (M.runFrom s ls).bind fun s' => M.runFrom s' ls' :=
  List.foldlM_append

/-- Every step of the run of `ls` from `s` meets `G`. -/
def Meets (M : Machine σ ι) (G : σ → ι → Prop) : σ → List ι → Prop
  | _, [] => True
  | s, l :: ls => G s l ∧ match M.step s l with
      | some s' => Meets M G s' ls
      | none => True

instance instDecidableMeets [h : ∀ s l, Decidable (G s l)] :
    ∀ s ls, Decidable (M.Meets G s ls)
  | _, [] => inferInstanceAs (Decidable True)
  | s, l :: ls => @instDecidableAnd _ _ (h s l) <|
      match M.step s l with
      | some s' => instDecidableMeets s' ls
      | none => inferInstanceAs (Decidable True)

theorem Reaches.runFrom (hr : Reaches M G s) (hG : M.Meets G s ls)
    (h : M.runFrom s ls = some s') : Reaches M G s' := by
  induction ls generalizing s with
  | nil => exact Option.some.inj h ▸ hr
  | cons _ _ ih =>
    rw [runFrom_cons, Option.bind_eq_some_iff] at h
    obtain ⟨t, ht, h'⟩ := h
    rw [Meets, ht] at hG
    exact ih (hr.step hG.1 ht) hG.2 h'

theorem reaches_of_run (hG : M.Meets G M.init ls) (h : M.run ls = some s) : Reaches M G s :=
  Reaches.runFrom .init hG h

theorem meets_true (s : σ) (ls : List ι) : M.Meets (fun _ _ => True) s ls := by
  induction ls generalizing s with
  | nil => trivial
  | cons _ _ ih =>
    refine ⟨trivial, ?_⟩
    split
    · exact ih _
    · trivial

theorem reachable_of_run (h : M.run ls = some s) : M.Reachable s :=
  reaches_of_run (meets_true _ ls) h

theorem meets_of_forall {p : ι → Prop} (h : ∀ l ∈ ls, p l) (s : σ) : M.Meets (fun _ => p) s ls := by
  induction ls generalizing s with
  | nil => trivial
  | cons l _ ih =>
    refine ⟨h l List.mem_cons_self, ?_⟩
    split
    · exact ih (fun l hl => h l (List.mem_cons_of_mem _ hl)) _
    · trivial

theorem Meets.and (hG : M.Meets G s ls) (hH : M.Meets H s ls) :
    M.Meets (fun s l => G s l ∧ H s l) s ls := by
  induction ls generalizing s with
  | nil => trivial
  | cons l _ ih =>
    rw [Meets] at hG hH ⊢
    refine ⟨⟨hG.1, hH.1⟩, ?_⟩
    cases hs : M.step s l with
    | none => trivial
    | some =>
      rw [hs] at hG hH
      exact ih hG.2 hH.2

/-- What every step that meets the condition keeps is kept by a run of such
steps. -/
theorem Meets.keeps (hG : M.Meets G s ls)
    (hstep : ∀ s l s', I s → G s l → M.step s l = some s' → I s') (hs : I s)
    (h : M.runFrom s ls = some s') : I s' := by
  induction ls generalizing s with
  | nil => exact Option.some.inj h ▸ hs
  | cons l _ ih =>
    rw [runFrom_cons, Option.bind_eq_some_iff] at h
    obtain ⟨t, ht, h⟩ := h
    rw [Meets, ht] at hG
    exact ih hG.2 (hstep s l t hs hG.1 ht) h

theorem runFrom_keeps (hstep : ∀ s l s', I s → M.step s l = some s' → I s') (hs : I s)
    (h : M.runFrom s ls = some s') : I s' :=
  (meets_true s ls).keeps (fun s l s' hs _ => hstep s l s' hs) hs h

/-- The ranking rule: while `D` has not come, `I` holds and each step of the run
lowers the rank, so `D` comes within as many steps as the rank says. -/
theorem runFrom_of_rank {rank : σ → Nat}
    (hstep : ∀ s, ∀ l ∈ ls, ∀ s', I s → M.step s l = some s' → D s' ∨ (I s' ∧ rank s' < rank s))
    (hkeep : ∀ s l s', D s → M.step s l = some s' → D s') (hpos : ∀ s, I s → 0 < rank s)
    (hs : I s) (h : M.runFrom s ls = some s') (hlen : rank s ≤ ls.length) : D s' := by
  induction ls generalizing s with
  | nil =>
    have hrank := hpos s hs
    rw [List.length_nil] at hlen
    omega
  | cons l _ ih =>
    rw [runFrom_cons, Option.bind_eq_some_iff] at h
    obtain ⟨t, ht, h⟩ := h
    rcases hstep s l List.mem_cons_self t hs ht with hD | ⟨hI, _⟩
    · exact runFrom_keeps hkeep hD h
    · rw [List.length_cons] at hlen
      exact ih (fun s l hl => hstep s l (List.mem_cons_of_mem _ hl)) hI h (by omega)

/-- A run that is evaluated, and what its last state is like. -/
theorem exists_run (M : Machine σ ι) (ls : List ι) (P : σ → Prop) [DecidablePred P]
    (h : (M.run ls).any fun s => P s) : ∃ s, M.run ls = some s ∧ P s := by
  simpa only [Option.any_eq_true, decide_eq_true_eq] using h

theorem exists_of_run {p : σ → Bool} (h : (M.run ls).any p) (hp : ∀ s, p s → P s) :
    ∃ s, M.run ls = some s ∧ M.Reachable s ∧ P s := by
  obtain ⟨s, hs, hps⟩ := (Option.any_eq_true _ _).mp h
  exact ⟨s, hs, reachable_of_run hs, hp s hps⟩

end Machine

end PgCluster
