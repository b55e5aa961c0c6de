import PgCluster.AgentRebuild

/-!
# Which crashes of a rebuild are harmless

The agent takes a rebuild, is killed after some of its effects and comes back
any number of times. `At.run` follows the procedure and says what the
directory is at each point, `Recovering.run` follows the restarts, and
`progresses_to_point` goes the other way: every point before the signal is
reached by some run. Together they make `safePoint` exact.
-/

namespace PgCluster

open Leftover List Option

/-! ## Runs of one procedure -/

/-- Steps of the agent, its supervisor, Postgres and the clock: everything
but requests that change the node. -/
def AgentLabel.quiet : AgentLabel → Bool
  | .promote | .demote _ _ | .stopPostgres | .rebuild _ _ => false
  | _ => true

namespace AgentNode

def serving (n : LocalNode) : AgentNode where
  toLocalNode := n
  now := 0
  process := some ⟨.new 0, [], false⟩
  fenced := false
  starts := []

/-- `serving` with one rebuild under way. -/
def rebuilding (n : LocalNode) (rest : List AgentEffect) (starts : List PgStart) : AgentNode :=
  { serving n with
    process := some ⟨.new 0, [{ rest := rest, lifecycle := true }], false⟩
    starts := starts }

variable {cfg : AgentConfig} {n n' n₀ : LocalNode} {e : AgentEffect} {rest es : List AgentEffect}
  {starts : List PgStart} {p : Progress} {s s' : AgentNode} {dir₀ : DataDir} {k : Nat}

theorem step_rebuild {r : Rebuild} {sees : Bool} (hmanage : cfg.managePostgres)
    (haccepts : r.accepts sees n.dir.hasData) (hsees : sees → n.running) :
    step cfg (serving n) (.rebuild r sees) = some (rebuilding n (r.effects sees) []) := by
  have hguard : (cfg.managePostgres && lifecycleFree ⟨.new 0, [], false⟩
      && r.accepts sees n.dir.hasData && (!sees || n.running)) := by
    cases sees <;> simp_all [lifecycleFree]
  exact if_pos hguard

def restAfter (rest : List AgentEffect) : Progress → List AgentEffect
  | .done => rest.tail
  | .fail => []
  | .create _ | .erase _ => rest

def startsAfter (n : LocalNode) (e : AgentEffect) (starts : List PgStart) (p : Progress) :
    List PgStart :=
  if e = .start ∧ p = .done then starts ++ [⟨false, n.dir.isStandby⟩] else starts

theorem step_rebuilding :
    step cfg (rebuilding n (e :: es) starts) (.task 0 p) = (e.advance n p).map fun n' =>
        rebuilding n' (restAfter (e :: es) p) (startsAfter n e starts p) := by
  cases p <;> rfl

theorem step_rebuilding_cases (h : step cfg (rebuilding n rest starts) (.task 0 p) = some s) :
    ∃ e es n', rest = e :: es ∧ e.advance n p = some n' ∧
      s = rebuilding n' (restAfter (e :: es) p) (startsAfter n e starts p) := by
  cases rest with
  | nil => cases h
  | cons e es =>
    rw [step_rebuilding] at h
    obtain ⟨n', hadv, rfl⟩ := map_eq_some_iff.mp h
    exact ⟨e, es, n', rfl, hadv, rfl⟩

section Forward

variable {effects : List AgentEffect} {ps : List Progress}

/-- A node in the course of a rebuild: `k` effects are done, and the procedure
goes on or has failed. -/
def At (dir₀ : DataDir) (effects : List AgentEffect) (k : Nat) (s : AgentNode) : Prop :=
  ∃ n rest starts, s = rebuilding n rest starts ∧ (rest = effects.drop k ∨ rest = []) ∧
    Reached dir₀ (leaves (effects.take k)) (effects.drop k) n.dir ∧
    ∀ st ∈ starts, st.standby

theorem leaves_take_succ (hdrop : effects.drop k = e :: es) :
    leaves (effects.take (k + 1)) = (leaves (effects.take k)).after e := by
  have hget : effects[k]? = some e := by rw [← head?_drop, hdrop, head?_cons]
  rw [take_add_one, hget, leaves, foldl_append]
  rfl

theorem drop_succ (hdrop : effects.drop k = e :: es) : effects.drop (k + 1) = es := by
  rw [← drop_drop, hdrop, drop_one, tail_cons]

theorem At.step (ho : Ordered .original effects) (h : At dir₀ effects k s)
 (hs : AgentNode.step cfg s (.task 0 p) = some s') :
    At dir₀ effects (k + if p = .done then 1 else 0) s' := by
  obtain ⟨n, _, starts, rfl, hrest, hreached, hstarts⟩ := h
  obtain ⟨e, es, n', rfl, hadv, rfl⟩ := step_rebuilding_cases hs
  obtain hdrop : effects.drop k = e :: es := by
    rcases hrest with hrest | hnil
    · exact hrest.symm
    · cases hnil
  have hordered : Ordered (leaves (effects.take k)) (e :: es) := by
    rw [← take_append_drop k effects, hdrop] at ho
    exact ho.append.2
  rw [hdrop] at hreached
  by_cases hp : p = .done
  · subst hp
    have hholds := hreached.done hordered hadv
    rw [← leaves_take_succ hdrop] at hholds
    have hnext : Ordered (leaves (effects.take (k + 1))) (effects.drop (k + 1)) := by
      rw [leaves_take_succ hdrop, drop_succ hdrop]
      exact hordered.1
    refine ⟨n', es, startsAfter n e starts .done, rfl, .inl (drop_succ hdrop).symm,
      hholds.reached hnext, ?_⟩
    intro st hst
    unfold startsAfter at hst
    split at hst
    · rename_i hstart
      obtain ⟨rfl, -⟩ := hstart
      rcases mem_append.mp hst with hold | hnew
      · exact hstarts st hold
      · -- Postgres is started only once the signal is there.
        have hstandby : leaves (effects.take k) = .standby := hordered.2
        rw [hstandby] at hreached
        rw [mem_singleton.mp hnew]
        exact hreached
    · exact hstarts st hst
  · have hunderWay := hreached.underWay hadv hp
    rw [← hdrop] at hunderWay
    have hsame : startsAfter n e starts p = starts := if_neg fun hstart => hp hstart.2
    simp only [if_neg hp, Nat.add_zero, hsame]
    refine ⟨n', restAfter (e :: es) p, starts, rfl, ?_, hunderWay, hstarts⟩
    cases p with
    | done => exact absurd rfl hp
    | fail => exact .inr rfl
    | create | erase => exact .inl hdrop.symm

/-- The run lemma: after any progress of the procedure the directory is as
the effects that are done leave it. -/
theorem At.run (ho : Ordered .original effects) (h : At dir₀ effects k s)
    (hs : (machine cfg n₀).runFrom s (ps.map (.task 0)) = some s') :
    At dir₀ effects (k + ps.count .done) s' := by
  induction ps generalizing s k with
  | nil =>
    cases hs
    exact h
  | cons p ps ih =>
    obtain ⟨t, ht, hs⟩ := bind_eq_some_iff.mp hs
    have hnext := ih (h.step ho ht) hs
    have hcount : k + (p :: ps).count .done
        = k + (if p = .done then 1 else 0) + ps.count .done := by
      rw [count_cons]
      by_cases hp : p = .done
      · simp only [hp, beq_self_eq_true, if_true]
        omega
      · simp [hp]
    rw [hcount]
    exact hnext

end Forward

/-! ## After the crash -/

/-- The agent is gone or only bringing Postgres back. -/
structure Recovering (dir : DataDir) (s : AgentNode) : Prop where
  dir_eq : s.dir = dir
  tasks : ∀ q, s.process = some q → ∀ t ∈ q.tasks,
    t.cleanup = [] ∧ (t.rest = [] ∨ (t.rest = [.start] ∧ dir.hasData))
  starts : ∀ st ∈ s.starts, st.standby

section Recovering

variable {dir : DataDir} {l : AgentLabel} {ls : List AgentLabel}

theorem Recovering.task {q : AgentProcess} {i : Nat} (h : Recovering dir s)
    (hdir : dir.hasData → dir.isStandby) (hq : s.process = some q)
    (hs : s.advanceTask q i p = some s') : Recovering dir s' := by
  obtain ⟨t, e, es, m, ht, hrest, hadv, rfl⟩ := advanceTask_cases hs
  obtain ⟨hcleanup, hstart⟩ := h.tasks q hq t (mem_of_getElem? ht)
  obtain ⟨rfl, rfl, hdata⟩ : e = .start ∧ es = [] ∧ dir.hasData := by
    rcases hstart with hnil | ⟨hstart, hdata⟩
    · rw [hrest] at hnil
      cases hnil
    · rw [hrest] at hstart
      obtain ⟨rfl, rfl⟩ := List.cons.inj hstart
      exact ⟨rfl, rfl, hdata⟩
  have hsame : m.dir = s.dir ∧ (t.next p).rest = [] ∧ (t.next p).cleanup = [] := by
    cases p with
    | done =>
      obtain ⟨-, ⟨⟩⟩ := ite_none_left_eq_some.mp hadv
      simp [AgentTask.next, hrest, hcleanup]
    | fail =>
      cases hadv
      simp [AgentTask.next, hcleanup]
    | create | erase => cases hadv
  refine ⟨hsame.1.trans h.dir_eq, ?_, ?_⟩
  · rintro _ ⟨⟩ u hu
    rcases mem_or_eq_of_mem_set hu with hold | rfl
    · exact h.tasks q hq u hold
    · exact ⟨hsame.2.2, .inl hsame.2.1⟩
  · intro st hst
    split at hst
    · rcases mem_append.mp hst with hold | hnew
      · exact h.starts st hold
      · rw [mem_singleton.mp hnew, h.dir_eq]
        exact hdir hdata
    · exact h.starts st hst

theorem Recovering.step (h : Recovering dir s) (hdir : dir.hasData → dir.isStandby)
    (hquiet : l.quiet) (hs : AgentNode.step cfg s l = some s') : Recovering dir s' := by
  have hprocess (hs : (s.process.bind fun q => processStep cfg s q l) = some s') :
      Recovering dir s' := by
    obtain ⟨q, hq, hs⟩ := bind_eq_some_iff.mp hs
    cases l with
    | kill =>
      cases hs
      exact { h with tasks := nofun }
    | watchdog | heartbeat =>
      cases hs
      refine ⟨h.dir_eq, ?_, h.starts⟩
      rintro _ ⟨⟩
      exact h.tasks q hq
    | fenceStop ok =>
      obtain ⟨-, hs⟩ := ite_none_right_eq_some.mp hs
      cases ok <;>
      · cases hs
        refine ⟨h.dir_eq, ?_, h.starts⟩
        rintro _ ⟨⟩
        exact h.tasks q hq
    | exit =>
      obtain ⟨-, ⟨⟩⟩ := ite_none_right_eq_some.mp hs
      exact { h with tasks := nofun }
    | task => exact h.task hdir hq hs
    | promote | demote | stopPostgres | rebuild => cases hquiet
    | advance | restart | pgExit => cases hs
  cases l with
  | advance =>
    cases hs
    exact { h with }
  | pgExit =>
    obtain ⟨-, ⟨⟩⟩ := ite_none_right_eq_some.mp hs
    exact { h with }
  | restart =>
    obtain ⟨-, ⟨⟩⟩ := ite_none_right_eq_some.mp hs
    refine ⟨h.dir_eq, ?_, h.starts⟩
    rintro _ ⟨⟩ t ht
    unfold startUp at ht
    split at ht
    · rename_i hstart
      simp only [Bool.and_eq_true, h.dir_eq] at hstart
      rw [mem_singleton.mp ht]
      exact ⟨rfl, .inr ⟨rfl, hstart.1.2⟩⟩
    · cases ht
  | _ => exact hprocess hs

theorem Recovering.run (h : Recovering dir s) (hdir : dir.hasData → dir.isStandby)
    (hquiet : ls.all AgentLabel.quiet) (hs : (machine cfg n₀).runFrom s ls = some s') :
    Recovering dir s' := by
  induction ls generalizing s with
  | nil =>
    cases hs
    exact h
  | cons _ _ ih =>
    rw [all_cons, Bool.and_eq_true] at hquiet
    obtain ⟨t, ht, hs⟩ := bind_eq_some_iff.mp hs
    exact ih (h.step hdir hquiet.1 ht) hquiet.2 hs

end Recovering

/-! ## Reaching a point -/

section Reaching

variable {left : Leftover} {tool : FillTool}

/-- A run of the procedure from one point to another. -/
def Progresses (cfg : AgentConfig) (starts : List PgStart) (n : LocalNode)
    (rest : List AgentEffect) (k : Nat) (n' : LocalNode) (rest' : List AgentEffect) : Prop :=
  ∃ ps : List Progress, ps.count .done = k ∧
    (machine cfg n).runFrom (rebuilding n rest starts) (ps.map (.task 0))
      = some (rebuilding n' rest' starts)

variable {rest' rest'' done : List AgentEffect} {n'' : LocalNode} {j : Nat}

theorem progresses_refl : Progresses cfg starts n rest 0 n rest := ⟨[], rfl, rfl⟩

theorem Progresses.trans (h : Progresses cfg starts n rest j n' rest')
    (h' : Progresses cfg starts n' rest' k n'' rest'') :
    Progresses cfg starts n rest (j + k) n'' rest'' := by
  obtain ⟨ps, hj, hs⟩ := h
  obtain ⟨ps', hk, hs'⟩ := h'
  refine ⟨ps ++ ps', by rw [count_append, hj, hk], ?_⟩
  rw [map_append, Machine.runFrom_append, hs]
  exact hs'

theorem progresses_done (hadv : e.advance n .done = some n') (he : e ≠ .start) :
    Progresses cfg starts n (e :: es) 1 n' es := by
  refine ⟨[.done], rfl, ?_⟩
  have hsame : startsAfter n e starts .done = starts := if_neg fun hstart => he hstart.1
  have hstep : step cfg (rebuilding n (e :: es) starts) (.task 0 .done)
      = some (rebuilding n' es starts) := by
    rw [step_rebuilding, hadv, map_some, hsame]
    rfl
  exact Machine.runFrom_cons_of_step hstep []

theorem progresses_underWay (hadv : e.advance n p = some n')
    (hp : (∃ file, p = .create file) ∨ ∃ file, p = .erase file) :
    Progresses cfg starts n (e :: es) 0 n' (e :: es) := by
  have hcases : [p].count .done = 0 ∧ startsAfter n e starts p = starts ∧
      restAfter (e :: es) p = e :: es := by
    rcases hp with ⟨_, rfl⟩ | ⟨_, rfl⟩ <;> simp [startsAfter, restAfter]
  obtain ⟨hcount, hstarts, hrest⟩ := hcases
  refine ⟨[p], hcount, ?_⟩
  have hstep : step cfg (rebuilding n (e :: es) starts) (.task 0 p)
      = some (rebuilding n' (e :: es) starts) := by
    rw [step_rebuilding, hadv, map_some, hstarts, hrest]
  exact Machine.runFrom_cons_of_step hstep []

theorem progresses_clear (dir : DataDir) (postgres : Option PgRole) :
    Progresses cfg starts ⟨dir, postgres⟩ (.clearContents :: es) 0 ⟨∅, postgres⟩
      (.clearContents :: es) := by
  induction dir using Finset.induction_on with
  | empty => exact progresses_refl
  | insert file dir hnew ih =>
    have hadv : AgentEffect.clearContents.advance ⟨insert file dir, postgres⟩ (.erase file)
        = some ⟨dir, postgres⟩ := by
      simp [AgentEffect.advance, Finset.erase_insert hnew]
    exact (progresses_underWay hadv (.inr ⟨file, rfl⟩)).trans ih

/-- Filling the directory can always get as far as data without a signal. -/
theorem progresses_fill (n : LocalNode) :
    ∃ n', Progresses cfg starts n (.fill tool :: es) 0 n' (.fill tool :: es) ∧
      n'.dir.hasData ∧ n'.dir.isStandby = false := by
  refine ⟨⟨(insert "PG_VERSION" n.dir).erase "standby.signal", n.postgres⟩, ?_, ?_, ?_⟩
  · have hcreate : (AgentEffect.fill tool).advance n (.create "PG_VERSION")
        = some ⟨insert "PG_VERSION" n.dir, n.postgres⟩ := rfl
    have herase : (AgentEffect.fill tool).advance ⟨insert "PG_VERSION" n.dir, n.postgres⟩
        (.erase "standby.signal")
        = some ⟨(insert "PG_VERSION" n.dir).erase "standby.signal", n.postgres⟩ := rfl
    exact (progresses_underWay hcreate (.inl ⟨_, rfl⟩)).trans
      (progresses_underWay herase (.inr ⟨_, rfl⟩))
  · simp [DataDir.hasData]
  · simp [DataDir.isStandby]

theorem progresses_effect (ho : Ordered left (e :: es)) (h : left.Holds dir₀ n.dir)
    (hstop : e ≠ .stopFast) (hstart : e ≠ .start) :
    ∃ n', Progresses cfg starts n (e :: es) 1 n' es ∧ (left.after e).Holds dir₀ n'.dir := by
  obtain ⟨-, ho⟩ := ho
  cases e with
  | stopFast => exact absurd rfl hstop
  | start => exact absurd rfl hstart
  | clearContents =>
    refine ⟨⟨∅, n.postgres⟩, ?_, rfl⟩
    have hdone : AgentEffect.clearContents.advance ⟨∅, n.postgres⟩ .done
        = some ⟨∅, n.postgres⟩ := rfl
    exact (progresses_clear n.dir n.postgres).trans (progresses_done hdone nofun)
  | fill tool =>
    obtain ⟨n', hfill, hdata, hbare⟩ : ∃ n', Progresses cfg starts n (.fill tool :: es) 0 n'
        (.fill tool :: es) ∧ n'.dir.hasData ∧ n'.dir.isStandby = false := progresses_fill n
    refine ⟨n', hfill.trans (progresses_done ?_ nofun), hdata, hbare⟩
    simp [AgentEffect.advance, hdata, hbare]
  | write => exact ⟨_, progresses_done rfl nofun, h.write ho⟩
  | remove => exact ho.elim
  | outside => exact ⟨n, progresses_done rfl nofun, h⟩

theorem progresses_prefix (ho : Ordered left (done ++ rest))
    (h : left.Holds dir₀ n.dir) (hstop : .stopFast ∉ done) (hstart : .start ∉ done) :
    ∃ n', Progresses cfg starts n (done ++ rest) done.length n' rest ∧
      (done.foldl after left).Holds dir₀ n'.dir := by
  induction done generalizing left n with
  | nil => exact ⟨n, progresses_refl, h⟩
  | cons _ _ ih =>
    rw [mem_cons, not_or] at hstop hstart
    obtain ⟨m, hm, hholds⟩ := progresses_effect ho h (Ne.symm hstop.1) (Ne.symm hstart.1)
    obtain ⟨n', hn', hleft⟩ := ih ho.1 hholds hstop.2 hstart.2
    refine ⟨n', ?_, hleft⟩
    rw [length_cons, Nat.add_comm]
    exact hm.trans hn'

/-- A crash that may find data without a signal. -/
theorem progresses_exposed (ho : Ordered left rest) (h : left.Holds dir₀ n.dir)
    (hexposed : left.safe dir₀ rest = false) :
    ∃ n', Progresses cfg starts n rest 0 n' rest ∧ n'.dir.hasData ∧ n'.dir.isStandby = false := by
  unfold safe at hexposed
  split at hexposed
  · rename_i _ hhead
    obtain ⟨es, rfl⟩ := head?_eq_some_iff.mp hhead
    exact progresses_fill n
  · rename_i hhead
    obtain ⟨_, rfl⟩ := head?_eq_some_iff.mp hhead
    obtain rfl : left = .original := ho.2
    obtain rfl : n.dir = dir₀ := h
    have hdata : "PG_VERSION" ∈ n.dir := by simpa [DataDir.hasData] using hexposed
    cases hsignal : n.dir.isStandby with
    | false => exact ⟨n, progresses_refl, decide_eq_true hdata, hsignal⟩
    | true =>
      have herase : AgentEffect.clearContents.advance n (.erase "standby.signal")
          = some { n with dir := n.dir.erase "standby.signal" } :=
        if_pos (of_decide_eq_true hsignal)
      refine ⟨_, progresses_underWay herase (.inr ⟨_, rfl⟩), ?_, ?_⟩
      · simp [DataDir.hasData, hdata]
      · simp [DataDir.isStandby]
  · cases left with
    | original =>
      obtain rfl : n.dir = dir₀ := h
      have hboth : n.dir.hasData ∧ n.dir.isStandby = false := by simpa [safeBetween] using hexposed
      exact ⟨n, progresses_refl, hboth⟩
    | empty | standby => cases hexposed
    | bare => exact ⟨n, progresses_refl, h⟩

end Reaching

/-! ## Which crashes are harmless -/

section Crash

variable {r : Rebuild} {sees : Bool}

/-- The agent is killed with `k` effects of a rebuild done, and comes back any
number of times: Postgres is never started without `standby.signal`. -/
def CrashSafe (cfg : AgentConfig) (n : LocalNode) (r : Rebuild) (sees : Bool) (k : Nat) : Prop :=
  ∀ (ps : List Progress) (ls : List AgentLabel) (s : AgentNode),
    ps.count .done = k → ls.all AgentLabel.quiet →
    (machine cfg n).runFrom (serving n) (.rebuild r sees :: (ps.map (.task 0) ++ .kill :: ls))
      = some s →
    ∀ st ∈ s.starts, st.standby

theorem effects_true (r : Rebuild) : r.effects true = .stopFast :: r.effects false := by
  cases r <;> rfl

theorem stopFast_notMem_configureStandby (conninfo slotName : String) :
    .stopFast ∉ configureStandby conninfo slotName := by
  unfold configureStandby
  split_ifs <;> simp

theorem stopFast_notMem_effects (r : Rebuild) (hstandby : r.asStandby) :
    .stopFast ∉ r.effects false := by
  cases r with
  | seed => simp [Rebuild.effects, seed, stopIf, stopFast_notMem_configureStandby]
  | rewind => simp [Rebuild.effects, rewind, stopIf, stopFast_notMem_configureStandby]
  | restore =>
    obtain ⟨_, hreq⟩ := isSome_iff_exists.mp hstandby
    simp only [Rebuild.effects, restore, hreq]
    split_ifs <;> simp [stopIf, stopFast_notMem_configureStandby]

theorem start_mem_effects (r : Rebuild) (sees : Bool) : .start ∈ r.effects sees := by
  cases r <;> simp [Rebuild.effects, seed, rewind, restore]

theorem progresses_to_point (hstandby : r.asStandby) (hsees : sees → n.running)
    (hleft : leaves ((r.effects sees).take k) ≠ .standby) :
    ∃ n', Progresses cfg [] n (r.effects sees) k n' ((r.effects sees).drop k) ∧
      (leaves ((r.effects sees).take k)).Holds n.dir n'.dir := by
  have hordered : Ordered .original (r.effects sees) := ordered_rebuild hstandby
  have hsplit := hordered
  rw [← take_append_drop k (r.effects sees)] at hsplit
  have hstart : .start ∉ (r.effects sees).take k := hsplit.append.1.start_notMem hleft
  have hk : k ≤ (r.effects sees).length := by
    by_contra hlt
    rw [take_of_length_le (by omega)] at hstart
    exact hstart (start_mem_effects r sees)
  have hfresh := stopFast_notMem_effects r hstandby
  cases sees with
  | false =>
    have hstop : .stopFast ∉ (r.effects false).take k := fun h => hfresh (mem_of_mem_take h)
    obtain ⟨n', hn', hholds⟩ := progresses_prefix hsplit rfl hstop hstart
    rw [take_append_drop, length_take_of_le hk] at hn'
    exact ⟨n', hn', hholds⟩
  | true =>
    cases k with
    | zero => exact ⟨n, progresses_refl, rfl⟩
    | succ k =>
      -- The stop comes first, and what follows has no other.
      rw [effects_true] at hsplit hk hstart hleft ⊢
      simp only [take_succ_cons, drop_succ_cons, cons_append] at hsplit hstart ⊢
      have hdown : AgentEffect.stopFast.advance n .done = some { n with postgres := none } :=
        if_pos (hsees rfl)
      have hstop : .stopFast ∉ (r.effects false).take k := fun h => hfresh (mem_of_mem_take h)
      have hrest : .start ∉ (r.effects false).take k := fun h => hstart (mem_cons_of_mem _ h)
      obtain ⟨n', hn', hholds⟩ := progresses_prefix (n := { n with postgres := none })
        hsplit.1 rfl hstop hrest
      rw [take_append_drop, length_take_of_le (Nat.le_of_succ_le_succ hk)] at hn'
      refine ⟨n', ?_, hholds⟩
      rw [Nat.add_comm]
      exact (progresses_done hdown nofun).trans hn'

def crashed (n : LocalNode) (starts : List PgStart) : AgentNode :=
  { serving n with process := none, starts := starts }

/-- `crashed` with an agent that has just come up. -/
def bringingBack (n : LocalNode) (rest : List AgentEffect) (starts : List PgStart) : AgentNode :=
  { crashed n starts with process := some ⟨.new 0, [{ rest := rest }], false⟩ }

theorem restart_exposed {dir : DataDir} (hmanage : cfg.managePostgres) (hdata : dir.hasData)
    (hbare : dir.isStandby = false) :
    ∃ s, (machine cfg n).runFrom (crashed ⟨dir, none⟩ starts) [.restart false, .task 0 .done]
        = some s ∧ ⟨false, false⟩ ∈ s.starts := by
  have hup : (machine cfg n).step (crashed ⟨dir, none⟩ starts) (.restart false)
      = some (bringingBack ⟨dir, none⟩ [.start] starts) := by
    simp [machine, step, bringingBack, crashed, startUp, serving, hmanage, hdata]
  have hstart : (machine cfg n).step (bringingBack ⟨dir, none⟩ [.start] starts) (.task 0 .done)
      = some (bringingBack ⟨dir, some dir.role⟩ [] (starts ++ [⟨false, dir.isStandby⟩])) := rfl
  refine ⟨_, (Machine.runFrom_cons_of_step hup _).trans
    (Machine.runFrom_cons_of_step hstart []), ?_⟩
  simp [bringingBack, crashed, hbare]

theorem crash_exposed (hmanage : cfg.managePostgres) (hdata : n.dir.hasData)
    (hbare : n.dir.isStandby = false) : ∃ ls s, ls.all AgentLabel.quiet ∧
      (machine cfg n).runFrom (rebuilding n rest starts) (.kill :: ls) = some s ∧
      ⟨false, false⟩ ∈ s.starts := by
  obtain ⟨dir, postgres⟩ := n
  obtain ⟨s, hs, hmem⟩ : ∃ s, (machine cfg ⟨dir, postgres⟩).runFrom (crashed ⟨dir, none⟩ starts)
      [.restart false, .task 0 .done] = some s ∧ ⟨false, false⟩ ∈ s.starts :=
    restart_exposed hmanage hdata hbare
  cases postgres with
  | none => exact ⟨[.restart false, .task 0 .done], s, rfl, hs, hmem⟩
  | some =>
    -- Postgres has to go down before an agent starts it.
    exact ⟨.pgExit :: [.restart false, .task 0 .done], s, rfl, hs, hmem⟩

/-- A crash in the course of a rebuild as a standby is harmless exactly at the
safe points: before the directory is touched, if there was no data or the
signal was there; while it is emptied, if there was no data; once it is empty
and until it is filled; and from the signal on. -/
theorem rebuild_crash_safe_iff (hmanage : cfg.managePostgres) (hstandby : r.asStandby)
    (haccepts : r.accepts sees n.dir.hasData) (hsees : sees → n.running) (k : Nat) :
    CrashSafe cfg n r sees k ↔ safePoint n.dir (r.effects sees) k := by
  have hordered : Ordered .original (r.effects sees) := ordered_rebuild hstandby
  have hbegin := step_rebuild hmanage haccepts hsees
  constructor
  · intro hsafe
    by_contra hpoint
    have hexposed : (leaves ((r.effects sees).take k)).safe n.dir ((r.effects sees).drop k)
        = false := by simpa [safePoint] using hpoint
    have hsplit := hordered
    rw [← take_append_drop k (r.effects sees)] at hsplit
    have hleft : leaves ((r.effects sees).take k) ≠ .standby := by
      intro hleft
      have hrest : Ordered .standby ((r.effects sees).drop k) := by
        rw [← hleft]
        exact hsplit.append.2
      rw [hleft, hrest.safe_standby] at hexposed
      cases hexposed
    obtain ⟨m, hm, hholds⟩ := progresses_to_point hstandby hsees hleft
    obtain ⟨_, hm', hdata, hbare⟩ := progresses_exposed hsplit.append.2 hholds hexposed
    obtain ⟨ps, hcount, hps⟩ := hm.trans hm'
    obtain ⟨ls, s, hquiet, hls, hmem⟩ := crash_exposed hmanage hdata hbare
    have hrun : (machine cfg n).runFrom (serving n)
        (.rebuild r sees :: (ps.map (.task 0) ++ .kill :: ls)) = some s := by
      rw [Machine.runFrom_cons_of_step hbegin, Machine.runFrom_append, hps]
      exact hls
    exact absurd (hsafe ps ls s hcount hquiet hrun _ hmem) nofun
  · intro hpoint _ _ _ hcount hquiet hrun
    rw [Machine.runFrom_cons_of_step hbegin, Machine.runFrom_append] at hrun
    obtain ⟨t, ht, hrun⟩ := bind_eq_some_iff.mp hrun
    have hstart : At n.dir (r.effects sees) 0 (rebuilding n (r.effects sees) []) := by
      refine ⟨n, _, [], rfl, .inl rfl, ?_, nofun⟩
      exact Holds.reached rfl hordered
    have hat := hstart.run hordered ht
    rw [Nat.zero_add, hcount] at hat
    obtain ⟨m, _, starts, rfl, -, hreached, hstarts⟩ := hat
    rw [Machine.runFrom_cons] at hrun
    obtain ⟨t, hkill, hrun⟩ := bind_eq_some_iff.mp hrun
    cases hkill
    have hrecovering : Recovering m.dir (crashed m starts) := ⟨rfl, nofun, hstarts⟩
    exact (hrecovering.run (hreached.of_safe hpoint) hquiet hrun).starts

def divergedPrimary : LocalNode := ⟨{"PG_VERSION"}, some .primary⟩

def rewindToPrimary : Rebuild :=
  .rewind ⟨"10.0.0.2", 5432, "replicator", "secret", "pgcluster_pg1", false⟩

theorem rewind_crash_safe_after_signal :
    safePoint divergedPrimary.dir (rewindToPrimary.effects true) 3 ∧
      CrashSafe {} divergedPrimary rewindToPrimary true 3 := by
  have hpoint : safePoint divergedPrimary.dir (rewindToPrimary.effects true) 3 := by decide
  exact ⟨hpoint, (rebuild_crash_safe_iff rfl rfl rfl (fun _ => rfl) 3).mpr hpoint⟩

/-- The agent is killed when `pg_rewind` has succeeded and before it writes
`standby.signal`. The next one starts Postgres as a primary. -/
theorem rewind_crash_starts_primary : ¬ CrashSafe {} divergedPrimary rewindToPrimary true 2 := by
  intro hsafe
  have hrun : ∃ s, (machine {} divergedPrimary).runFrom (serving divergedPrimary)
      [.rebuild rewindToPrimary true, .task 0 .done, .task 0 .done, .kill, .restart false,
        .task 0 .done] = some s ∧ ⟨false, false⟩ ∈ s.starts := ⟨_, rfl, by decide⟩
  obtain ⟨s, hs, hmem⟩ := hrun
  have hstandby := hsafe [.done, .done] [.restart false, .task 0 .done] s rfl rfl hs _ hmem
  cases hstandby

end Crash

end AgentNode

end PgCluster
