import Mathlib.Tactic.Basic

/-!
# Sequential code with errors

Straight-line code of the source that updates shared state and returns
early on an error is written in `ExceptT ε (StateM σ)`, where an error keeps
the state it happened in. `exec` runs such code, and the simp lemmas below
push it through the constructs the source uses: the sequencing of `?`, an
early return, an effect, and a block whose error is caught.
-/

namespace PgCluster

variable {ε σ α β : Type} {m : ExceptT ε (StateM σ) α} {f : α → ExceptT ε (StateM σ) β} {s s' : σ}

/-- Run from a state, to a result and the state it left. -/
def exec (m : ExceptT ε (StateM σ) α) (s : σ) : Except ε α × σ := m.run.run s

theorem exec_bind (m : ExceptT ε (StateM σ) α) (f : α → ExceptT ε (StateM σ) β) (s : σ) :
    exec (m >>= f) s = match exec m s with
      | (.ok a, s') => exec (f a) s'
      | (.error e, s') => (.error e, s') := by
  have hrun : exec (m >>= f) s = exec (ExceptT.mk (ExceptT.bindCont f (exec m s).1)) (exec m s).2 :=
    rfl
  rw [hrun]
  obtain ⟨⟨⟩, _⟩ := exec m s <;> rfl

theorem exec_tryCatch (m : ExceptT ε (StateM σ) α) (handler : ε → ExceptT ε (StateM σ) α) (s : σ) :
    exec (tryCatch m handler) s = match exec m s with
      | (.ok a, s') => (.ok a, s')
      | (.error e, s') => exec (handler e) s' := by
  have hrun : exec (tryCatch m handler) s = exec (ExceptT.mk (match (exec m s).1 with
      | .ok a => pure (Except.ok a)
      | .error e => (handler e).run)) (exec m s).2 := rfl
  rw [hrun]
  obtain ⟨⟨⟩, _⟩ := exec m s <;> rfl

theorem exec_bind_ok {a : α} (h : exec m s = (.ok a, s')) : exec (m >>= f) s = exec (f a) s' := by
  rw [exec_bind, h]

theorem exec_bind_error {e : ε} (h : exec m s = (.error e, s')) :
    exec (m >>= f) s = (.error e, s') := by
  rw [exec_bind, h]

end PgCluster
