import PgCluster.Transactions

/-!
# Transactions that run alone

`Txn.alone` runs a whole transaction with nobody else about, and `serial` a
list of them one after the other. Such a run is a run of the store: it
starts and ends in an idle store, and as nothing changes while a statement
waits, its snapshots are never old.
-/

namespace PgCluster

open Store (idle advance)

variable {σ κ ν α : Type}

/-- What a transaction leaves behind when it runs alone on `s`; a claim locks
the row `pick`. `none` if it cannot. -/
def Txn.alone (pick : Option κ) (s : σ) : Txn σ κ ν → Option σ
  | .commit write => some (write s)
  | .rollback => some s
  | .read next => (next s).alone pick s
  | .note _ next => next.alone pick s
  | .lock _ next => (next s s).alone pick s
  | .claim cand recheck next =>
    match pick with
    | none => (next s none).alone none s
    | some k => if cand s k && recheck s k then (next s (some k)).alone (some k) s else none

/-- Requests one after the other, each allowed to start where it does. -/
def serial (program : α → Txn σ κ ν) (ok : α → σ → Bool) : List (α × Option κ) → σ → Option σ
  | [], s => some s
  | (a, pick) :: rest, s =>
    if ok a s then ((program a).alone pick s).bind (serial program ok rest) else none

namespace Contract

variable [DecidableEq κ] {C : Contract σ κ ν α} {init : σ} {program : α → Txn σ κ ν} {i : Nat}
  {s s' : σ} {st : Store σ κ ν α} {t t' : Session σ κ ν α}

/-- Only session `i` is there, and only it has locked anything. -/
structure Solo (i : Nat) (t : Session σ κ ν α) (s : σ) (st : Store σ κ ν α) : Prop where
  tables : st.tables = s
  locks : ∀ k, st.locks k = none ∨ st.locks k = some i
  sessions : ∀ j, st.sessions j = if j = i then some t else none

omit [DecidableEq κ] in
theorem Solo.session (h : Solo i t s st) : st.sessions i = some t := by
  rw [h.sessions, if_pos rfl]

omit [DecidableEq κ] in
theorem Solo.free (h : Solo i t s st) (k : κ) : st.free i k := by
  rw [Store.free, Bool.or_eq_true, decide_eq_true_eq, decide_eq_true_eq]
  exact h.locks k

omit [DecidableEq κ] in
theorem Solo.goOn
    (h : Solo i t s st) : Solo i t' s (st.setSession i t') := by
  refine ⟨h.tables, h.locks, fun j => ?_⟩
  rw [Store.setSession_sessions, h.sessions]
  split <;> rfl

theorem Solo.grant (h : Solo i t s st) (k : κ) : Solo i t s (st.grant i k) := by
  refine ⟨h.tables, fun k' => ?_, h.sessions⟩
  show (if k' = k then some i else st.locks k') = none
    ∨ (if k' = k then some i else st.locks k') = some i
  split
  · exact .inr rfl
  · exact h.locks k'

omit [DecidableEq κ] in
theorem Solo.finish (h : Solo i t s st) (s' : σ) : { st.finish i with tables := s' } = idle s' := by
  have hlocks : (st.finish i).locks = fun _ => none := by
    funext k
    show (if st.locks k = some i then none else st.locks k) = none
    rcases h.locks k with hk | hk
    · simp [hk]
    · exact if_pos hk
  have hsessions : (st.finish i).sessions = fun _ => none := by
    funext j
    rw [Store.finish_sessions, h.sessions]
    split <;> rfl
  rw [idle, ← hlocks, ← hsessions]

variable (hfresh : ∀ a k s, C.Fresh a k s s)
include hfresh

theorem Solo.alone {a : α} {pick : Option κ} (hcond : C.Cond a s)
    (t : Txn σ κ ν) : ∀ {n : Option ν} {st : Store σ κ ν α}, Solo i ⟨a, n, none, t⟩ s st →
      (storeMachine init program).Reaches C.Permits st → t.alone pick s = some s' →
      (storeMachine init program).Reaches C.Permits (idle s') := by
  -- the step of the session, permitted because nothing has changed
  have hadvance : ∀ {st st' : Store σ κ ν α} {n : Option ν} {snap : Option σ} {t : Txn σ κ ν},
      (storeMachine init program).Reaches C.Permits st → Solo i ⟨a, n, snap, t⟩ s st →
      (∀ s₀, snap = some s₀ → s₀ = s) → st.advance i pick = some st' →
      (storeMachine init program).Reaches C.Permits st' := by
    intro st _ n snap t hr hsolo hsnap hs
    refine hr.step (l := .advance i pick) ?_ hs
    intro u hu
    cases hsolo.session.symm.trans hu
    cases t with
    | commit => exact hsolo.tables ▸ hcond
    | lock k =>
      cases snap with
      | none => trivial
      | some s₀ =>
        obtain rfl := hsnap s₀ rfl
        exact hsolo.tables ▸ hfresh a k _
    | rollback | read | note | claim => trivial
  induction t with
  | commit write =>
    intro n st hsolo hr h
    cases h
    have hstep : st.advance i pick = some { st.finish i with tables := write st.tables } := by
      rw [advance, hsolo.session]
    have hend := hadvance hr hsolo nofun hstep
    rwa [hsolo.finish, hsolo.tables] at hend
  | rollback =>
    intro n st hsolo hr h
    cases h
    have hstep : st.advance i pick = some { st.finish i with tables := st.tables } := by
      rw [advance, hsolo.session]
      rfl
    have hend := hadvance hr hsolo nofun hstep
    rwa [hsolo.finish, hsolo.tables] at hend
  | read next ih =>
    intro n st hsolo hr h
    have hstep : st.advance i pick = some (st.setSession i ⟨a, n, none, next s⟩) := by
      rw [advance, hsolo.session]
      exact hsolo.tables ▸ rfl
    exact ih s hsolo.goOn (hadvance hr hsolo nofun hstep) h
  | note m next ih =>
    intro n st hsolo hr h
    have hstep : st.advance i pick = some (st.setSession i ⟨a, some m, none, next⟩) := by
      rw [advance, hsolo.session]
    exact ih hsolo.goOn (hadvance hr hsolo nofun hstep) h
  | lock k next ih =>
    intro n st hsolo hr h
    have hwait : st.advance i pick = some (st.setSession i ⟨a, n, some s, .lock k next⟩) := by
      rw [advance, hsolo.session]
      exact hsolo.tables ▸ rfl
    have hsolo' : Solo i ⟨a, n, some s, .lock k next⟩ s _ := hsolo.goOn
    have hr' := hadvance hr hsolo nofun hwait
    generalize st.setSession i _ = st' at hsolo' hr'
    have hgranted : st'.advance i pick
        = some ((st'.grant i k).setSession i ⟨a, n, none, next s s⟩) := by
      rw [advance, hsolo'.session]
      dsimp only
      rw [if_pos (hsolo'.free k), hsolo'.tables]
    exact ih s s (hsolo'.grant k).goOn
      (hadvance hr' hsolo' (fun _ h => (Option.some.inj h).symm) hgranted) h
  | claim cand recheck next ih =>
    intro n st hsolo hr h
    have hwait : st.advance i pick
        = some (st.setSession i ⟨a, n, some s, .claim cand recheck next⟩) := by
      rw [advance, hsolo.session]
      exact hsolo.tables ▸ rfl
    have hsolo' : Solo i ⟨a, n, some s, .claim cand recheck next⟩ s _ := hsolo.goOn
    have hr' := hadvance hr hsolo nofun hwait
    generalize st.setSession i _ = st' at hsolo' hr'
    cases pick with
    | none =>
      have hnone : st'.advance i none = some (st'.setSession i ⟨a, n, none, next s none⟩) := by
        rw [advance, hsolo'.session]
      exact ih s none hsolo'.goOn
        (hadvance hr' hsolo' (fun _ h => (Option.some.inj h).symm) hnone) h
    | some k =>
      obtain ⟨hpick, h⟩ := Option.ite_none_right_eq_some.mp h
      have hsome : st'.advance i (some k)
          = some ((st'.grant i k).setSession i ⟨a, n, none, next s (some k)⟩) := by
        rw [advance, hsolo'.session]
        dsimp only
        rw [hsolo'.tables, hsolo'.free k, hpick]
        rfl
      exact ih s (some k) (hsolo'.grant k).goOn
        (hadvance hr' hsolo' (fun _ h => (Option.some.inj h).symm) hsome) h

theorem reaches_of_serial {ok : α → σ → Bool} (hok : ∀ a s, ok a s → C.Cond a s)
    {l : List (α × Option κ)} : ∀ {s s' : σ},
      (storeMachine init program).Reaches C.Permits (idle s) → serial program ok l s = some s' →
      (storeMachine init program).Reaches C.Permits (idle s') := by
  induction l with
  | nil =>
    intro s s' hr h
    exact Option.some.inj h ▸ hr
  | cons p _ ih =>
    intro s _ hr h
    obtain ⟨hallowed, h⟩ := Option.ite_none_right_eq_some.mp h
    obtain ⟨_, halone, hrest⟩ := Option.bind_eq_some_iff.mp h
    have hstart : (storeMachine init program).Reaches C.Permits
        ((idle s).setSession 0 ⟨p.1, none, none, program p.1⟩) :=
      hr.step (l := .start 0 p.1) trivial rfl
    have hsolo : Solo 0 ⟨p.1, none, none, program p.1⟩ s
        ((idle s : Store σ κ ν α).setSession 0 ⟨p.1, none, none, program p.1⟩) :=
      ⟨rfl, fun _ => .inl rfl, fun _ => rfl⟩
    exact ih (Solo.alone hfresh (hok _ _ hallowed) _ hsolo hstart halone) hrest

end Contract

end PgCluster
