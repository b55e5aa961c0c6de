import Mathlib.Data.List.Basic

/-!
# Reading a state in several statements

A reader asks one question after another, and may give up. The state it asks
may change between two of its questions. What it comes to when nothing changes
in between is `eval`. What holds of its result whatever the answers are is `All`.
-/

namespace PgCluster

/-- A reader by what it does next: questions `Q`, with answers `A q`. -/
inductive Reading (Q : Type) (A : Q → Type) (β : Type) where
  | done (b : β)
  | fail
  | ask (q : Q) (next : A q → Reading Q A β)

namespace Reading

variable {Q : Type} {A : Q → Type} {α β : Type} {a : ∀ q, A q}

protected def bind (f : α → Reading Q A β) : Reading Q A α → Reading Q A β
  | .done x => f x
  | .fail => .fail
  | .ask q next => .ask q fun x => (next x).bind f

instance : Monad (Reading Q A) where
  pure := .done
  bind r f := r.bind f

def question (q : Q) : Reading Q A (A q) := .ask q .done

/-- Go on with a value that is there, or give up. -/
def need : Option α → Reading Q A α
  | some x => .done x
  | none => .fail

/-- The same for each member of a list, in order. -/
def each (f : α → Reading Q A β) : List α → Reading Q A (List β)
  | [] => .done []
  | x :: xs => do
      let b ← f x
      let bs ← each f xs
      return b :: bs

/-- What the reader comes to, with these answers. -/
def eval (a : ∀ q, A q) : Reading Q A β → Option β
  | .done b => some b
  | .fail => none
  | .ask q next => (next (a q)).eval a

/-- Whatever the answers are, the result is one of these. -/
def All (P : β → Prop) : Reading Q A β → Prop
  | .done b => P b
  | .fail => True
  | .ask _ next => ∀ x, (next x).All P

/-! ## Whatever the answers are -/

variable {P P' : β → Prop} {r : Reading Q A β} {f : α → Reading Q A β}

theorem All.imp (h : r.All P) (hP : ∀ b, P b → P' b) : r.All P' := by
  induction r with
  | done b => exact hP b h
  | fail => trivial
  | ask _ _ ih => exact fun x => ih x (h x)

theorem All.eval {b : β} (h : r.All P) (hb : r.eval a = some b) : P b := by
  induction r with
  | done =>
    cases hb
    exact h
  | fail => cases hb
  | ask q _ ih => exact ih (a q) (h (a q)) hb

theorem All.bind {P' : α → Prop} {r : Reading Q A α} (h : r.All P')
    (hf : ∀ x, P' x → (f x).All P) : (r >>= f).All P := by
  induction r with
  | done x => exact hf x h
  | fail => trivial
  | ask _ _ ih => exact fun x => ih x (h x)

theorem all_true (r : Reading Q A β) : r.All fun _ => True := by
  induction r with
  | done | fail => trivial
  | ask _ _ ih => exact ih

theorem all_each {R : α → β → Prop} {l : List α}
    (h : ∀ x ∈ l, (f x).All (R x)) : (each f l).All fun bs => ∀ b ∈ bs, ∃ x ∈ l, R x b := by
  induction l with
  | nil => exact nofun
  | cons x _ ih =>
    refine (h x List.mem_cons_self).bind fun b hb => ?_
    refine (ih fun y hy => h y (List.mem_cons_of_mem _ hy)).bind fun bs hbs => ?_
    intro c hc
    rcases List.mem_cons.mp hc with rfl | hc
    · exact ⟨x, List.mem_cons_self, hb⟩
    · obtain ⟨y, hy, hyc⟩ := hbs c hc
      exact ⟨y, List.mem_cons_of_mem _ hy, hyc⟩

end Reading

end PgCluster
