import Mathlib.Algebra.Order.BigOperators.Group.List
import Mathlib.Algebra.Order.Ring.Nat
import PgCluster.AdminReconciler
import PgCluster.ListUpdates

/-!
# The order in which steps are claimed

`step_once` with its clock. A step can be claimed when it is the first pending
one of its operation, no earlier operation of its database is open, and its
`not_before` has come; of those the one with the earliest `not_before` is
taken. A step that waits is put off by `WAIT_RETRY`, and one that waits past
its operation's deadline fails. A step whose run returns an error is rolled
back: it is left exactly as it was, `not_before` and all, and the deadline is
not looked at.

The rows are those of `AdminOperations`, with their times beside them, and
what becomes of a row is what it becomes there. Which of two steps with the
same `not_before` is taken, and what running it comes to, is up to the label.
`tried` is a ghost: the steps that were run.
-/

namespace PgCluster.Admin

open List Option

/-! ## Rows with their times -/

/-- `WAIT_RETRY`, in seconds. -/
def WAIT_RETRY : Int := 1

structure TimedOp where
  row : OpRow
  notBefore : Nat → Int
  deadline : Int

/-- What `run_step` came to: an outcome, or an error. -/
inductive StepResult where
  | ok (o : Outcome)
  | error
deriving DecidableEq

namespace TimedOp

def next (o : TimedOp) : Option Nat := if o.row.active then o.row.firstPending else none

def claimed (o : TimedOp) (now : Int) (idx : Nat) : Option Claimed :=
  (o.row.steps[idx]?).map fun p =>
    ⟨o.row.seq, idx, p.name, o.row.database, o.row.kind, o.row.params, o.deadline < now⟩

/-- The operation after `step_once` has dealt with an outcome of a step. -/
def settle (o : TimedOp) (now : Int) (idx : Nat) (outcome : Outcome) : TimedOp :=
  match o.claimed now idx with
  | none => o
  | some c =>
    { o with
      row := c.settle outcome o.row
      notBefore := if c.mark outcome = .waiting then
        Function.update o.notBefore idx (now + WAIT_RETRY) else o.notBefore }

end TimedOp

/-! ## What becomes of an operation -/

variable {o : TimedOp} {now nb : Int} {idx : Nat} {outcome : Outcome}

namespace OpRow

variable {r : OpRow}

def pendingSteps (r : OpRow) : Nat := r.steps.countP (·.status = .pending)

def Pending (r : OpRow) (idx : Nat) : Prop := ∃ p, r.steps[idx]? = some p ∧ p.status = .pending

theorem pending_of_firstPending (h : r.firstPending = some idx) : r.Pending idx := by
  obtain ⟨hlt, hpending, -⟩ := findIdx?_eq_some_iff_getElem.mp h
  exact ⟨r.steps[idx], getElem?_eq_getElem hlt, of_decide_eq_true hpending⟩

theorem firstPending_retryStep : (r.retryStep idx).firstPending = r.firstPending := by
  have hstatus : (r.retryStep idx).steps.map (·.status) = r.steps.map (·.status) := by
    refine ext_getElem? fun j => ?_
    rw [getElem?_map, getElem?_map, retryStep, modifyStep_getElem?]
    cases r.steps[j]? with
    | none => rfl
    | some =>
      rw [map_some, map_some, map_some]
      split_ifs <;> rfl
  have hmap (r : OpRow) : r.firstPending = (r.steps.map (·.status)).findIdx? (· = .pending) := by
    rw [findIdx?_map]
    rfl
  rw [hmap, hmap r, hstatus]

theorem pendingSteps_done {p : StepRow} (hp : r.steps[idx]? = some p)
    (hpending : p.status = .pending) :
    (r.modifyStep idx fun _ => .done).pendingSteps + 1 = r.pendingSteps := by
  have hset : (r.modifyStep idx fun _ => .done).steps =
      r.steps.set idx { p with status := .done, attempts := p.attempts + 1 } := by
    rw [modifyStep, modify_eq_set_getElem?, hp]
    rfl
  have hcount := countP_set_add (p := fun p : StepRow => decide (p.status = .pending))
    (b := { p with status := .done, attempts := p.attempts + 1 }) hp
  rw [one_of_true (by simp [hpending]), one_of_false (by simp)] at hcount
  rw [pendingSteps, hset, pendingSteps]
  omega

end OpRow

namespace TimedOp

theorem next_eq_some : o.next = some idx ↔ o.row.active ∧ o.row.firstPending = some idx := by
  rw [next, ite_none_right_eq_some]

theorem next_of_status (h : o.row.status = .failed ∨ o.row.status = .succeeded) :
    o.next = none := by
  rcases h with h | h <;> simp [next, OpRow.active, h]

/-- What an outcome does to an operation: it ends, or goes on to what is pending
but for the step, or its step is put off. -/
inductive Settled (o : TimedOp) (now : Int) (idx : Nat) (o' : TimedOp) : Prop where
  | ended (hended : o'.next = none)
  | went (hnotBefore : o'.notBefore = o.notBefore)
      (hcount : o'.row.pendingSteps + 1 = o.row.pendingSteps)
      (hpending : ∀ j, o'.row.Pending j → o.row.Pending j)
  | waits (hnext : o'.next = some idx) (hnotBefore : o'.notBefore idx = now + WAIT_RETRY)

theorem settled_done (hnext : o.next = some idx) :
    Settled o now idx (o.settle now idx .done) := by
  obtain ⟨p, hp, hpending⟩ := OpRow.pending_of_firstPending (next_eq_some.mp hnext).2
  have hsteps : (o.settle now idx .done).row.steps =
      (o.row.modifyStep idx fun _ => .done).steps := by
    rw [settle, claimed, hp]
    simp only [map_some, Claimed.settle, OpRow.finishStep]
    split_ifs <;> rfl
  refine .went ?_ ?_ ?_
  · rw [settle, claimed, hp]
    rfl
  · rw [OpRow.pendingSteps, hsteps]
    exact OpRow.pendingSteps_done hp hpending
  · rintro j ⟨_, hp', hpending'⟩
    rw [hsteps, OpRow.modifyStep_getElem?, map_eq_some_iff] at hp'
    obtain ⟨p₀, hp₀, rfl⟩ := hp'
    refine ⟨p₀, hp₀, ?_⟩
    split_ifs at hpending'
    exact hpending'

theorem status_settle_fail {p : StepRow} (hp : o.row.steps[idx]? = some p)
    (hfail : (∃ message, outcome = .fail message) ∨
      (∃ message, outcome = .wait message) ∧ o.deadline < now) :
    (o.settle now idx outcome).row.status = .failed := by
  rcases hfail with ⟨_, rfl⟩ | ⟨⟨_, rfl⟩, hlate⟩
  · rw [settle, claimed, hp]
    rfl
  · rw [settle, claimed, hp]
    simp [Claimed.settle, hlate, OpRow.fail]

theorem settled_wait {message : String} (hnext : o.next = some idx) (hlate : ¬ o.deadline < now) :
    Settled o now idx (o.settle now idx (.wait message)) := by
  obtain ⟨_, hfirst⟩ := next_eq_some.mp hnext
  obtain ⟨p, hp, _⟩ := OpRow.pending_of_firstPending hfirst
  refine .waits ?_ ?_
  · rw [settle, claimed, hp, next_eq_some]
    simp only [map_some, Claimed.settle, hlate, decide_false, Bool.false_eq_true, if_false]
    exact ⟨rfl, by rw [OpRow.firstPending_retryStep]; exact hfirst⟩
  · rw [settle, claimed, hp]
    simp [Claimed.mark, hlate]

theorem settled_settle (hnext : o.next = some idx) :
    Settled o now idx (o.settle now idx outcome) := by
  obtain ⟨p, hp, -⟩ := OpRow.pending_of_firstPending (next_eq_some.mp hnext).2
  cases outcome with
  | done => exact settled_done hnext
  | fail message =>
    exact .ended (next_of_status (.inl (status_settle_fail hp (.inl ⟨message, rfl⟩))))
  | wait message =>
    by_cases hlate : o.deadline < now
    · exact .ended (next_of_status (.inl (status_settle_fail hp (.inr ⟨⟨message, rfl⟩, hlate⟩))))
    · exact settled_wait hnext hlate

theorem settle_frame : (o.settle now idx outcome).row.seq = o.row.seq ∧
    (o.settle now idx outcome).row.database = o.row.database := by
  unfold settle
  split
  · exact ⟨rfl, rfl⟩
  · cases outcome with
    | done =>
      simp only [Claimed.settle, OpRow.finishStep]
      split_ifs <;> exact ⟨rfl, rfl⟩
    | wait =>
      simp only [Claimed.settle]
      split_ifs <;> exact ⟨rfl, rfl⟩
    | fail => exact ⟨rfl, rfl⟩

/-! ## The rank of an operation -/

def Ahead (nb : Int) (o : TimedOp) : Prop := ∃ idx, o.next = some idx ∧ o.notBefore idx ≤ nb

/-- How many steps an operation can have run before a step due at `nb` has its
turn: none when its next step is later. -/
def rank (nb : Int) (o : TimedOp) : Nat :=
  match o.next with
  | none => 0
  | some idx => if o.notBefore idx ≤ nb then o.row.pendingSteps else 0

theorem rank_le : o.rank nb ≤ o.row.pendingSteps := by
  unfold rank
  split
  · exact Nat.zero_le _
  · split_ifs
    · exact le_rfl
    · exact Nat.zero_le _

theorem rank_of_next (hnext : o.next = some idx) (hnb : o.notBefore idx ≤ nb) :
    o.rank nb = o.row.pendingSteps := by
  simp only [rank, hnext, if_pos hnb]

theorem rank_of_not_ahead (h : ¬ o.Ahead nb) : o.rank nb = 0 := by
  unfold rank
  split
  · rfl
  · rename_i idx hnext
    exact if_neg fun hnb => h ⟨idx, hnext, hnb⟩

theorem pendingSteps_pos (hnext : o.next = some idx) : 0 < o.row.pendingSteps := by
  obtain ⟨p, hp, hpending⟩ := OpRow.pending_of_firstPending (next_eq_some.mp hnext).2
  have hone := one_le_countP (p := fun p : StepRow => decide (p.status = .pending)) hp
  rwa [one_of_true (by simp [hpending])] at hone

theorem rank_settle_lt (hnext : o.next = some idx) (hnb : o.notBefore idx ≤ nb)
    (hnow : nb ≤ now) : (o.settle now idx outcome).rank nb < o.rank nb := by
  rw [rank_of_next hnext hnb]
  have hpos := pendingSteps_pos hnext
  have hsettled : Settled o now idx (o.settle now idx outcome) := settled_settle hnext
  cases hsettled with
  | ended hended =>
    have hnot : ¬ (o.settle now idx outcome).Ahead nb := by
      rintro ⟨j, hj, -⟩
      rw [hended] at hj
      cases hj
    rw [rank_of_not_ahead hnot]
    exact hpos
  | went =>
    have hle : (o.settle now idx outcome).rank nb ≤ _ := rank_le
    omega
  | waits hnext' hnotBefore =>
    have hnot : ¬ (o.settle now idx outcome).Ahead nb := by
      rintro ⟨j, hj, hle⟩
      cases hnext'.symm.trans hj
      rw [hnotBefore, WAIT_RETRY] at hle
      omega
    rw [rank_of_not_ahead hnot]
    exact hpos

end TimedOp

structure TimedQueue where
  ops : List TimedOp
  now : Int
  tried : List (Nat × Nat)

/-- A call of `step_once`: when, which step it claims (an operation's `seq` and
the step's), and what running it comes to. -/
structure StepCall where
  now : Int
  claims : Option (Nat × Nat)
  result : StepResult
deriving DecidableEq

namespace TimedQueue

def first (q : TimedQueue) (o : TimedOp) : Bool :=
  !q.ops.any fun e =>
    e.row.database = o.row.database && e.row.active && e.row.seq < o.row.seq

def runnable (q : TimedQueue) (now : Int) (o : TimedOp) : Bool :=
  q.first o && o.next.any fun idx => o.notBefore idx ≤ now

/-- `ORDER BY s.not_before LIMIT 1`. -/
def claimable (q : TimedQueue) (now : Int) (o : TimedOp) (idx : Nat) : Bool :=
  q.runnable now o && o.next = some idx &&
    q.ops.all fun e => !q.runnable now e || e.next.all fun j => o.notBefore idx ≤ e.notBefore j

def settleAt (q : TimedQueue) (now : Int) (op idx : Nat) : StepResult → List TimedOp
  | .error => q.ops
  | .ok outcome => q.ops.map fun e => if e.row.seq = op then e.settle now idx outcome else e

def stepOnce (q : TimedQueue) (call : StepCall) : Option TimedQueue :=
  if call.now < q.now then none
  else
    match call.claims with
    | none =>
      if q.ops.any (q.runnable call.now) then none else some { q with now := call.now }
    | some (op, idx) =>
      (q.ops.find? fun o => o.row.seq = op).bind fun o =>
        if q.claimable call.now o idx then
          some ⟨q.settleAt call.now op idx call.result, call.now, (op, idx) :: q.tried⟩
        else none

def machine (q : TimedQueue) : Machine TimedQueue StepCall := ⟨q, stepOnce⟩

inductive Moves (q : TimedQueue) (call : StepCall) (q' : TimedQueue) : Prop where
  | idle (hclaims : call.claims = none) (hidle : ∀ o ∈ q.ops, q.runnable call.now o = false)
      (hq' : q' = { q with now := call.now })
  | run (o : TimedOp) (idx : Nat) (ho : o ∈ q.ops) (hclaims : call.claims = some (o.row.seq, idx))
      (hrunnable : q.runnable call.now o = true) (hnext : o.next = some idx)
      (hleast : ∀ e ∈ q.ops, q.runnable call.now e = true → ∀ j, e.next = some j →
        o.notBefore idx ≤ e.notBefore j)
      (hq' : q' = ⟨q.settleAt call.now o.row.seq idx call.result, call.now,
        (o.row.seq, idx) :: q.tried⟩)

variable {q q' : TimedQueue} {call : StepCall} {e : TimedOp} {i op : Nat} {key : Nat × Nat}
  {stuck : Nat × Nat → Bool} {tried : List (Nat × Nat)}

theorem moves_of_step (h : q.stepOnce call = some q') : q.now ≤ call.now ∧ Moves q call q' := by
  obtain ⟨hnow, h⟩ := ite_none_left_eq_some.mp h
  refine ⟨not_lt.mp hnow, ?_⟩
  split at h
  · rename_i hclaims
    obtain ⟨hidle, h⟩ := ite_none_left_eq_some.mp h
    refine .idle hclaims (fun o ho => ?_) (Option.some.inj h).symm
    rw [List.any_eq_true] at hidle
    exact (Bool.not_eq_true _).mp fun hrun => hidle ⟨o, ho, hrun⟩
  · rename_i op idx hclaims
    obtain ⟨o, ho, h⟩ := bind_eq_some_iff.mp h
    obtain ⟨hclaim, h⟩ := ite_none_right_eq_some.mp h
    obtain rfl : o.row.seq = op := by simpa using find?_some ho
    rw [claimable, Bool.and_eq_true, Bool.and_eq_true, decide_eq_true_eq,
      List.all_eq_true] at hclaim
    obtain ⟨⟨hrunnable, hnext⟩, hleast⟩ := hclaim
    refine .run o idx (mem_of_find?_eq_some ho) hclaims hrunnable hnext ?_ (Option.some.inj h).symm
    intro e he hrun j hj
    have hall := hleast e he
    rw [hrun, hj] at hall
    exact of_decide_eq_true hall

theorem eq_of_seq (h : (q.ops.map fun o => o.row.seq).Nodup) (ho : o ∈ q.ops) (he : e ∈ q.ops)
    (hseq : o.row.seq = e.row.seq) : o = e :=
  inj_on_of_nodup_map h ho he hseq

/-! ## Every other step has its turn -/

/-- Operations are told apart by their numbers, and each has the steps of its
kind. -/
structure WellFormed (q : TimedQueue) : Prop where
  seqs : (q.ops.map fun o => o.row.seq).Nodup
  steps : ∀ o ∈ q.ops, o.row.steps.map (·.name) = o.row.kind.steps

/-- Nothing stands in the way of a step due at `nb`: an operation that is not
behind it can be claimed now, and none of its pending steps is one that errs. -/
structure Clear (q : TimedQueue) (stuck : Nat × Nat → Bool) (nb : Int) : Prop where
  first : ∀ e ∈ q.ops, e.Ahead nb → q.first e = true
  sound : ∀ e ∈ q.ops, e.Ahead nb → ∀ j, e.row.Pending j → stuck (e.row.seq, j) = false

/-- How many steps can have their turn before one that is due at `nb`. -/
def rank (nb : Int) (q : TimedQueue) : Nat := (q.ops.map (TimedOp.rank nb)).sum

/-- A step due at `nb` still has its turn to come. -/
structure Awaits (stuck : Nat × Nat → Bool) (nb : Int) (key : Nat × Nat) (q : TimedQueue) :
    Prop where
  seqs : (q.ops.map fun o => o.row.seq).Nodup
  due : nb ≤ q.now
  step : ∃ o ∈ q.ops, o.row.seq = key.1 ∧ o.next = some key.2 ∧ o.notBefore key.2 = nb ∧
    q.first o = true
  sound : ∀ e ∈ q.ops, e.Ahead nb → ∀ j, e.row.Pending j → stuck (e.row.seq, j) = false

theorem map_seq_settleAt {result : StepResult} :
    (q.settleAt now op idx result).map (fun o => o.row.seq) = q.ops.map fun o => o.row.seq := by
  cases result with
  | error => rfl
  | ok => exact map_key_map_ite fun _ => TimedOp.settle_frame.1

theorem mem_settleAt (h : e ∈ q.settleAt now op idx (.ok outcome)) :
    (∃ o ∈ q.ops, o.row.seq = op ∧ e = o.settle now idx outcome) ∨
      (e ∈ q.ops ∧ e.row.seq ≠ op) := by
  obtain ⟨o, ho, rfl⟩ := List.mem_map.mp h
  by_cases hseq : o.row.seq = op
  · rw [if_pos hseq]
    exact .inl ⟨o, ho, hseq, rfl⟩
  · rw [if_neg hseq]
    exact .inr ⟨ho, hseq⟩

theorem first_of_active {ops : List TimedOp} (hfirst : q.first o)
    (hops : ∀ e ∈ ops, e.row.active → ∃ e₀ ∈ q.ops, e₀.row.active ∧
      e₀.row.database = e.row.database ∧ e₀.row.seq = e.row.seq) :
    first ⟨ops, now, tried⟩ o := by
  rw [first, Bool.not_eq_true', List.any_eq_false] at hfirst ⊢
  intro e he hearlier
  simp only [Bool.and_eq_true, decide_eq_true_eq] at hearlier hfirst
  obtain ⟨⟨hdatabase, hactive⟩, hseq⟩ := hearlier
  obtain ⟨e₀, he₀, hactive₀, hdatabase₀, hseq₀⟩ := hops e he hactive
  exact hfirst e₀ he₀ ⟨⟨hdatabase₀.trans hdatabase, hactive₀⟩, hseq₀ ▸ hseq⟩

/-- What is claimed before the step that waits is not behind it. -/
theorem Awaits.le_of_claimed (h : q.Awaits stuck nb key)
    (hnow : q.now ≤ now) (hleast : ∀ e ∈ q.ops, q.runnable now e → ∀ j, e.next = some j →
      o.notBefore idx ≤ e.notBefore j) : o.notBefore idx ≤ nb := by
  obtain ⟨k, hk, -, hnext, hnb, hfirst⟩ := h.step
  have hrunnable : q.runnable now k := by
    rw [runnable, hfirst, hnext, any_some, hnb, Bool.true_and, decide_eq_true_eq]
    exact h.due.trans hnow
  exact hnb ▸ hleast k hk hrunnable key.2 hnext

theorem rank_settleAt_lt (ho : o ∈ q.ops) (hnext : o.next = some idx)
    (hseqs : (q.ops.map fun o => o.row.seq).Nodup) (hle : o.notBefore idx ≤ nb) (hnow : nb ≤ now) :
    rank nb ⟨q.settleAt now o.row.seq idx (.ok outcome), now, tried⟩ < q.rank nb := by
  have hlt : (o.settle now idx outcome).rank nb < o.rank nb := TimedOp.rank_settle_lt hnext hle hnow
  rw [rank, settleAt, List.map_map, rank]
  refine sum_lt_sum _ _ (fun e he => ?_) ⟨o, ho, ?_⟩
  · simp only [Function.comp_apply]
    split_ifs with hseq
    · rw [eq_of_seq hseqs he ho hseq]
      exact hlt.le
    · exact le_rfl
  · simp only [Function.comp_apply, if_true]
    exact hlt

theorem Awaits.settle (h : q.Awaits stuck nb key)
    (hnow : q.now ≤ now) (ho : o ∈ q.ops) (honext : o.next = some idx)
    (hle : o.notBefore idx ≤ nb) (hkey : (o.row.seq, idx) ≠ key) :
    Awaits stuck nb key ⟨q.settleAt now o.row.seq idx (.ok outcome), now, tried⟩ where
  seqs := by
    rw [map_seq_settleAt]
    exact h.seqs
  due := h.due.trans hnow
  step := by
    obtain ⟨k, hk, hseq, hnext, hnb, hfirst⟩ := h.step
    have hne : k.row.seq ≠ o.row.seq := by
      -- The operation of the step has no other step that could be claimed.
      intro heq
      obtain rfl := eq_of_seq h.seqs hk ho heq
      have hidx : idx = key.2 := Option.some.inj (honext.symm.trans hnext)
      exact hkey (by rw [hseq, hidx])
    refine ⟨k, List.mem_map.mpr ⟨k, hk, if_neg hne⟩, hseq, hnext, hnb, first_of_active hfirst ?_⟩
    intro e he hactive
    rcases mem_settleAt he with ⟨o', ho', hseq', rfl⟩ | ⟨he, -⟩
    · obtain rfl := eq_of_seq h.seqs ho' ho hseq'
      exact ⟨o', ho, (TimedOp.next_eq_some.mp honext).1, TimedOp.settle_frame.2.symm,
        TimedOp.settle_frame.1.symm⟩
    · exact ⟨e, he, hactive, rfl, rfl⟩
  sound := by
    intro e he hahead j hpending
    rcases mem_settleAt he with ⟨o', ho', hseq', rfl⟩ | ⟨he, -⟩
    · obtain rfl := eq_of_seq h.seqs ho' ho hseq'
      rw [TimedOp.settle_frame.1]
      obtain ⟨i, hi, hinb⟩ := hahead
      have hsettled : TimedOp.Settled o' now idx (o'.settle now idx outcome) :=
        TimedOp.settled_settle honext
      cases hsettled with
      | ended hended =>
        rw [hended] at hi
        cases hi
      | went _ _ hsub => exact h.sound o' ho ⟨idx, honext, hle⟩ j (hsub j hpending)
      | waits hnext' hnotBefore =>
        cases hnext'.symm.trans hi
        have hdue := h.due
        rw [hnotBefore, WAIT_RETRY] at hinb
        omega
    · exact h.sound e he hahead j hpending

/-- The step is tried, or waits on with one step less before it. -/
theorem Awaits.move (h : q.Awaits stuck nb key)
    (herror : call.result = .error → call.claims.all stuck)
    (hnow : q.now ≤ call.now) (hmove : Moves q call q') :
    key ∈ q'.tried ∨ (q'.Awaits stuck nb key ∧ q'.rank nb < q.rank nb) := by
  obtain ⟨k, hk, _, hnext, hnb, hfirst⟩ := h.step
  cases hmove with
  | idle _ hidle =>
    have hrunnable : q.runnable call.now k := by
      rw [runnable, hfirst, hnext, any_some, hnb, Bool.true_and, decide_eq_true_eq]
      exact h.due.trans hnow
    rw [hidle k hk] at hrunnable
    cases hrunnable
  | run o idx ho hclaims _ honext hleast hq' =>
    have hle : o.notBefore idx ≤ nb := h.le_of_claimed hnow hleast
    have hahead : o.Ahead nb := ⟨idx, honext, hle⟩
    by_cases hkey : (o.row.seq, idx) = key
    · refine .inl ?_
      rw [hq', ← hkey]
      exact mem_cons_self
    · refine .inr ?_
      have hsound := h.sound o ho hahead idx
        (OpRow.pending_of_firstPending (TimedOp.next_eq_some.mp honext).2)
      obtain ⟨outcome, hresult⟩ : ∃ outcome, call.result = .ok outcome := by
        cases hresult : call.result with
        | ok outcome => exact ⟨outcome, rfl⟩
        | error =>
          have hstuck := herror hresult
          rw [hclaims, all_some, hsound] at hstuck
          cases hstuck
      rw [hq', hresult]
      exact ⟨h.settle hnow ho honext hle hkey,
        rank_settleAt_lt ho honext h.seqs hle (h.due.trans hnow)⟩

theorem Awaits.rank_pos (h : q.Awaits stuck nb key) : 0 < q.rank nb := by
  obtain ⟨k, hk, -, hnext, hnb, -⟩ := h.step
  have hrank : k.rank nb = k.row.pendingSteps := TimedOp.rank_of_next hnext hnb.le
  have hpos := TimedOp.pendingSteps_pos hnext
  have hle : k.rank nb ≤ q.rank nb := le_sum_of_mem (List.mem_map.mpr ⟨k, hk, rfl⟩)
  omega

theorem Kind.length_steps_le (kind : Kind) : kind.steps.length ≤ 7 := by
  cases kind <;> decide

/-- At most seven steps for each operation that can be claimed now. -/
theorem rank_le_runnable (hq : q.WellFormed) (hclear : q.Clear stuck nb) (hnb : nb ≤ q.now) :
    q.rank nb ≤ 7 * q.ops.countP (q.runnable q.now) := by
  have hone : ∀ e ∈ q.ops, e.rank nb ≤ 7 * one (q.runnable q.now) e := by
    intro e he
    by_cases hahead : e.Ahead nb
    · obtain ⟨idx, hnext, hle⟩ := hahead
      have hrunnable : q.runnable q.now e := by
        rw [runnable, hclear.first e he ⟨idx, hnext, hle⟩, hnext, any_some, Bool.true_and,
          decide_eq_true_eq]
        exact hle.trans hnb
      have hlen : e.row.steps.length ≤ 7 := by
        have hnames := congrArg List.length (hq.steps e he)
        rw [length_map] at hnames
        rw [hnames]
        exact Kind.length_steps_le _
      have hcount : e.row.pendingSteps ≤ e.row.steps.length := countP_le_length
      rw [one_of_true hrunnable]
      exact (TimedOp.rank_le.trans hcount).trans hlen
    · rw [TimedOp.rank_of_not_ahead hahead]
      exact Nat.zero_le _
  exact sum_map_le_mul_countP hone

theorem nodup_of_run {calls : List StepCall} (hq : q.WellFormed)
    (hrun : q.machine.run calls = some q') : (q'.ops.map fun o => o.row.seq).Nodup := by
  refine Machine.runFrom_keeps (I := fun q => (q.ops.map fun o => o.row.seq).Nodup) ?_ hq.seqs hrun
  intro _ _ _ hseqs hstep
  cases (moves_of_step hstep).2 with
  | idle _ _ hq' =>
    rw [hq']
    exact hseqs
  | run _ _ _ _ _ _ _ hq' =>
    rw [hq', map_seq_settleAt]
    exact hseqs

theorem mem_tried_of_step (hkey : key ∈ q.tried)
    (hstep : q.stepOnce call = some q') : key ∈ q'.tried := by
  cases (moves_of_step hstep).2 with
  | idle _ _ hq' =>
    rw [hq']
    exact hkey
  | run _ _ _ _ _ _ _ hq' =>
    rw [hq']
    exact mem_cons_of_mem _ hkey

/-- A step that cannot go on after its deadline, and says so by its outcome,
fails its operation. -/
theorem failed_of_late (hseqs : (q.ops.map fun o => o.row.seq).Nodup) (ho : o ∈ q.ops)
    (hstep : q.stepOnce call = some q') (hclaims : call.claims = some (o.row.seq, idx))
    (hlate : o.deadline < call.now) (hresult : call.result = .ok outcome)
    (houtcome : outcome ≠ .done) (he : e ∈ q'.ops) (hseq : e.row.seq = o.row.seq) :
    e.row.status = .failed := by
  cases (moves_of_step hstep).2 with
  | idle hnone =>
    rw [hnone] at hclaims
    cases hclaims
  | run _ _ ho₁ hclaims₁ _ hnext _ hq' =>
    obtain ⟨hseq₁, rfl⟩ := Prod.mk.inj (Option.some.inj (hclaims₁.symm.trans hclaims))
    obtain rfl := eq_of_seq hseqs ho₁ ho hseq₁
    rw [hq', hresult] at he
    rcases mem_settleAt he with ⟨_, ho₂, hseq₂, rfl⟩ | ⟨-, hne⟩
    · obtain rfl := eq_of_seq hseqs ho₂ ho hseq₂
      obtain ⟨p, hp, -⟩ := OpRow.pending_of_firstPending (TimedOp.next_eq_some.mp hnext).2
      refine TimedOp.status_settle_fail hp ?_
      cases outcome with
      | done => exact absurd rfl houtcome
      | wait message => exact .inr ⟨⟨message, rfl⟩, hlate⟩
      | fail message => exact .inl ⟨message, rfl⟩
    · exact absurd hseq hne

/-- The rollback leaves an operation as it was, and a step of another does not
touch it. -/
theorem mem_of_errors {calls : List StepCall} (ho : o ∈ q.ops)
    (herrors : ∀ call ∈ calls, ∀ idx, call.claims = some (o.row.seq, idx) → call.result = .error)
    (hrun : q.machine.run calls = some q') : o ∈ q'.ops := by
  refine (Machine.reaches_of_run (Machine.meets_of_forall herrors _) hrun).invariant
    (I := fun q => o ∈ q.ops) ho fun q call _ ho herror hstep => ?_
  cases (moves_of_step hstep).2 with
  | idle _ _ hq' =>
    rw [hq']
    exact ho
  | run o' idx _ hclaims _ _ _ hq' =>
    rw [hq']
    by_cases hseq : o'.row.seq = o.row.seq
    · rw [herror idx (hseq ▸ hclaims)]
      exact ho
    · cases call.result with
      | error => exact ho
      | ok => exact mem_map.mpr ⟨o, ho, if_neg fun h => hseq h.symm⟩

/-- In a run of `step_once` calls where only the `stuck` steps may return an error,
and whatever is not behind a runnable step that is not stuck is runnable too
and has no stuck step: after seven calls for each runnable step, every one that
is not stuck was tried. A step tried after its deadline that waits or fails has
its operation marked failed. An operation whose steps return an error whenever
they are tried is left as it is, whatever its deadline. -/
theorem stuck_step_starves_nobody {calls : List StepCall} (hq : q.WellFormed)
    (hclear : ∀ o ∈ q.ops, q.runnable q.now o = true → ∀ idx, o.next = some idx →
      stuck (o.row.seq, idx) = false → q.Clear stuck (o.notBefore idx))
    (herror : ∀ call ∈ calls, call.result = .error → call.claims.all stuck = true)
    (hrun : q.machine.run calls = some q') :
    (7 * q.ops.countP (q.runnable q.now) ≤ calls.length →
      ∀ o ∈ q.ops, q.runnable q.now o = true → ∀ idx, o.next = some idx →
        stuck (o.row.seq, idx) = false → (o.row.seq, idx) ∈ q'.tried) ∧
    (∀ call q'' o idx outcome, q.machine.step q' call = some q'' → o ∈ q'.ops →
      call.claims = some (o.row.seq, idx) → o.deadline < call.now →
      call.result = .ok outcome → outcome ≠ .done →
      ∀ e ∈ q''.ops, e.row.seq = o.row.seq → e.row.status = .failed) ∧
    ∀ o ∈ q.ops, (∀ call ∈ calls, ∀ idx, call.claims = some (o.row.seq, idx) →
      call.result = .error) → o ∈ q'.ops := by
  refine ⟨?_, ?_, fun o ho herrors => mem_of_errors ho herrors hrun⟩
  · intro hlen o ho hrunnable idx hnext hfree
    have hboth := hrunnable
    rw [runnable, hnext, any_some, Bool.and_eq_true, decide_eq_true_eq] at hboth
    obtain ⟨hfirst, hdue⟩ := hboth
    have hclear' := hclear o ho hrunnable idx hnext hfree
    refine Machine.runFrom_of_rank (I := Awaits stuck (o.notBefore idx) (o.row.seq, idx))
      ?_ (fun _ _ _ => mem_tried_of_step)
      (fun _ h => h.rank_pos) ⟨hq.seqs, hdue, ⟨o, ho, rfl, hnext, rfl, hfirst⟩, hclear'.sound⟩ hrun
      ((rank_le_runnable hq hclear' hdue).trans hlen)
    intro _ call hcall _ hawaits hstep
    obtain ⟨hnow, hmove⟩ := moves_of_step hstep
    exact hawaits.move (herror call hcall) hnow hmove
  · intro _ _ _ _ _ hstep ho hclaims hlate hresult houtcome _ he hseq
    exact failed_of_late (nodup_of_run hq hrun) ho hstep hclaims hlate hresult houtcome he hseq

/-! ## Runs -/

/-- `create_with` at some time: every step may be tried from then on. -/
def recorded (seq : Nat) (database : String) (kind : Kind) (time timeout : Int) : TimedOp :=
  ⟨.new seq database kind .none, fun _ => time, time + timeout⟩

/-- An update of one database, and the creation of another, recorded after it,
whose first step errs. -/
def stuckLast : TimedQueue :=
  ⟨[recorded 1 "orders" .update 0 600, recorded 2 "billing" .create 1 21600], 2, []⟩

def billing : Nat × Nat → Bool := fun key => key.1 = 2

theorem stuckLast_clear : ∀ o ∈ stuckLast.ops, stuckLast.runnable stuckLast.now o →
    ∀ idx, o.next = some idx → billing (o.row.seq, idx) = false →
      stuckLast.Clear billing (o.notBefore idx) := by
  intro _ ho _ _ _ hfree
  have hahead : ∀ e ∈ stuckLast.ops, e.Ahead 0 → e = recorded 1 "orders" .update 0 600 := by
    rintro e he ⟨j, hj, hle⟩
    rcases mem_cons.mp he with rfl | he
    · rfl
    · rw [mem_singleton.mp he] at hle
      exact absurd (show (1 : Int) ≤ 0 from hle) (by decide)
  rcases mem_cons.mp ho with rfl | ho
  · refine ⟨fun e he h => ?_, fun e he h j hj => ?_⟩
    · rw [hahead e he h]
      decide
    · rw [hahead e he h]
      rfl
  · rw [mem_singleton.mp ho] at hfree
    cases hfree

theorem stuck_step_starves_nobody_stuckLast :
    ∃ q', stuckLast.machine.run (⟨2, some (1, 0), .ok (.wait "waiting")⟩ ::
        List.replicate 13 ⟨2, some (2, 0), .error⟩) = some q' ∧ (1, 0) ∈ q'.tried := by
  have hrun : (stuckLast.machine.run (⟨2, some (1, 0), .ok (.wait "waiting")⟩ ::
      List.replicate 13 ⟨2, some (2, 0), .error⟩)).isSome = true := by
    decide +kernel
  obtain ⟨q', hq'⟩ := isSome_iff_exists.mp hrun
  have hturn := stuck_step_starves_nobody ⟨by decide, by decide⟩ stuckLast_clear (by decide) hq'
  exact ⟨q', hq', hturn.1 (by decide +kernel) (recorded 1 "orders" .update 0 600)
    mem_cons_self (by decide +kernel) 0 rfl rfl⟩

theorem stepOnce_error (hfind : (q.ops.find? fun o => o.row.seq = op) = some o)
    (hclaim : q.claimable q.now o idx) :
    q.stepOnce ⟨q.now, some (op, idx), .error⟩ = some { q with tried := (op, idx) :: q.tried } := by
  simp only [stepOnce, lt_irrefl, if_false, hfind, bind_some, hclaim, if_true, settleAt]

/-- It is claimed again, any number of times. -/
theorem run_replicate_error (hfind : (q.ops.find? fun o => o.row.seq = op) = some o)
    (hclaim : q.claimable q.now o idx) (n : Nat) :
    q.machine.run (List.replicate n ⟨q.now, some (op, idx), .error⟩) =
      some { q with tried := List.replicate n (op, idx) ++ q.tried } := by
  have hfrom (tried : List (Nat × Nat)) : q.machine.runFrom { q with tried := tried }
      (List.replicate n ⟨q.now, some (op, idx), .error⟩) =
        some { q with tried := List.replicate n (op, idx) ++ tried } := by
    induction n generalizing tried with
    | zero => rfl
    | succ _ ih =>
      have hstep : q.machine.step { q with tried := tried } ⟨q.now, some (op, idx), .error⟩ =
          some { q with tried := (op, idx) :: tried } :=
        stepOnce_error (q := { q with tried := tried }) hfind hclaim
      rw [replicate_succ, Machine.runFrom_cons_of_step hstep, ih]
      simp [replicate_succ', append_assoc]
  exact hfrom q.tried

/-- The creation of a database, recorded first and long past its deadline, and an
update of another. -/
def stuckFirst : TimedQueue :=
  ⟨[recorded 1 "billing" .create 0 21600, recorded 2 "orders" .update 21601 600], 21602, []⟩

/-- The first step of the creation errs. It is claimed by every call, the update is
never tried, and the creation does not fail. -/
theorem stuck_step_starves_others :
    stuckFirst.WellFormed ∧ stuckFirst.ops.countP (stuckFirst.runnable stuckFirst.now) = 2 ∧
      ∀ n, ∃ q', stuckFirst.machine.run
          (List.replicate n ⟨21602, some (1, 0), .error⟩) = some q' ∧
        (2, 0) ∉ q'.tried ∧
        ∃ o ∈ q'.ops, o.row.seq = 1 ∧ o.deadline < 21602 ∧ o.row.status = .pending := by
  refine ⟨⟨by decide, by decide⟩, by decide +kernel, fun n => ?_⟩
  have hfind : (stuckFirst.ops.find? fun o => o.row.seq = 1) =
      some (recorded 1 "billing" .create 0 21600) := rfl
  have hclaim : stuckFirst.claimable stuckFirst.now (recorded 1 "billing" .create 0 21600) 0 =
      true := by decide +kernel
  have hrun := run_replicate_error hfind hclaim n
  refine ⟨_, hrun, ?_, recorded 1 "billing" .create 0 21600, mem_cons_self, rfl, by decide, rfl⟩
  intro htried
  rw [mem_append, mem_replicate] at htried
  rcases htried with ⟨-, hkey⟩ | hkey <;> cases hkey

end TimedQueue

end PgCluster.Admin
