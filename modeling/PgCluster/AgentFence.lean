import PgCluster.AgentNode
import PgCluster.ListUpdates

/-!
# How long a fence holds

The fence stops Postgres and ends the agent process. Nothing about it is
written down, and the next process starts whatever the data directory holds
before it has heard from anyone. Here is what does keep Postgres from coming
up as a writable primary between a fence and the next heartbeat: conditions
on the steps taken in between, and the proof that a run whose steps meet them
has no such start.

The proof follows the one task that can start Postgres. `Keeps` says of the
effects it has left that whenever Postgres runs or is about to be started,
`standby.signal` is there, and does so by looking only at those two facts.
-/

namespace PgCluster

open AgentTask List Option

/-! ## Effects that keep the signal -/

/-- From a node where Postgres runs (or not) and `standby.signal` exists (or
not), the effects start Postgres only as a standby, and wherever they stop a
running Postgres has its signal. -/
def Keeps (running signal : Bool) : List AgentEffect → Prop
  | [] => running → signal
  | e :: es => (running → signal) ∧ match e with
      | .stopFast => running → Keeps false signal es
      | .clearContents | .fill _ => running = false ∧ Keeps false false es
      | .write file => Keeps running (signal || file == "standby.signal") es
      | .remove file => Keeps running (signal && file != "standby.signal") es
      | .start => signal ∧ Keeps true signal es
      | .outside _ => Keeps running signal es

variable {running signal : Bool} {e : AgentEffect} {es : List AgentEffect} {n n' : LocalNode}
  {p : Progress}

namespace Keeps

variable {running' signal' : Bool}

theorem signal_of_running (h : Keeps running signal es) : running → signal := by
  cases es with
  | nil => exact h
  | cons => exact h.1

theorem mono (h : Keeps running signal es) (hrunning : running' → running)
    (hsignal : signal → signal') : Keeps running' signal' es := by
  induction es generalizing running signal running' signal' with
  | nil => exact fun hr => hsignal (h (hrunning hr))
  | cons e _ ih =>
    refine ⟨fun hr => hsignal (h.1 (hrunning hr)), ?_⟩
    cases e with
    | stopFast => exact fun hr => ih (h.2 (hrunning hr)) id hsignal
    | clearContents | fill => exact ⟨by simpa [h.2.1] using hrunning, h.2.2⟩
    | write =>
      refine ih h.2 hrunning ?_
      simp only [Bool.or_eq_true]
      exact Or.imp_left hsignal
    | remove =>
      refine ih h.2 hrunning ?_
      simp only [Bool.and_eq_true]
      exact And.imp_left hsignal
    | start => exact ⟨hsignal h.2.1, ih h.2.2 id hsignal⟩
    | outside => exact ih h.2 hrunning hsignal

theorem done (h : Keeps n.running n.dir.isStandby (e :: es))
    (hdone : e.advance n .done = some n') : Keeps n'.running n'.dir.isStandby es := by
  obtain ⟨-, h⟩ := h
  cases e with
  | stopFast =>
    obtain ⟨hrunning, ⟨⟩⟩ := ite_none_right_eq_some.mp hdone
    exact h hrunning
  | clearContents =>
    obtain ⟨hempty, ⟨⟩⟩ := ite_none_right_eq_some.mp hdone
    simp only [hempty, h.1, DataDir.isStandby, Finset.notMem_empty, decide_false]
    exact h.2
  | fill =>
    obtain ⟨hfilled, ⟨⟩⟩ := ite_none_right_eq_some.mp hdone
    simp only [Bool.and_eq_true, Bool.not_eq_true'] at hfilled
    rw [hfilled.2, h.1]
    exact h.2
  | write =>
    cases hdone
    refine h.mono id ?_
    simp only [DataDir.isStandby, Bool.or_eq_true, decide_eq_true_eq, beq_iff_eq, Finset.mem_insert]
    rintro (hsignal | rfl)
    · exact .inr hsignal
    · exact .inl rfl
  | remove =>
    cases hdone
    refine h.mono id ?_
    simp only [DataDir.isStandby, Bool.and_eq_true, decide_eq_true_eq, bne_iff_ne, Finset.mem_erase]
    exact fun hkept => ⟨hkept.2.symm, hkept.1⟩
  | start =>
    obtain ⟨-, ⟨⟩⟩ := ite_none_left_eq_some.mp hdone
    exact h.2
  | outside =>
    cases hdone
    exact h

theorem emptying (h : Keeps running signal (.clearContents :: es)) :
    Keeps running signal' (.clearContents :: es) := by
  obtain ⟨-, hdown, hrest⟩ := h
  exact ⟨by simp [hdown], hdown, hrest⟩

theorem filling {tool : FillTool} (h : Keeps running signal (.fill tool :: es)) :
    Keeps running signal' (.fill tool :: es) := by
  obtain ⟨-, hdown, hrest⟩ := h
  exact ⟨by simp [hdown], hdown, hrest⟩

/-- An effect under way: only emptying and filling the directory have
intermediate states, and Postgres is down then. -/
theorem underWay (h : Keeps n.running n.dir.isStandby (e :: es))
    (hadv : e.advance n p = some n') (hp : p ≠ .done) :
    Keeps n'.running n'.dir.isStandby (e :: es) := by
  cases p with
  | done => exact absurd rfl hp
  | fail =>
    cases hadv
    exact h
  | create =>
    cases e with
    | fill =>
      cases hadv
      exact h.filling
    | _ => cases hadv
  | erase =>
    cases e with
    | clearContents =>
      obtain ⟨-, ⟨⟩⟩ := ite_none_right_eq_some.mp hadv
      exact h.emptying
    | fill =>
      cases hadv
      exact h.filling
    | _ => cases hadv

end Keeps

variable {sees : Bool}

/-- Once `standby.signal` is written, the files that follow do not matter. -/
theorem keeps_configureStandby {conninfo slotName : String}
    (hnow : running → signal) (h : Keeps running true es) :
    Keeps running signal (configureStandby conninfo slotName ++ es) := by
  refine ⟨hnow, ?_⟩
  split_ifs <;> simp [Keeps, h]

theorem keeps_stopIf (hnow : running → signal)
    (h : Keeps false signal es) : Keeps running signal (stopIf running ++ es) := by
  cases running with
  | false => exact h
  | true => exact ⟨hnow, fun _ => h⟩

/-- A rebuild as a standby that saw whether Postgres runs keeps the signal. -/
theorem keeps_rebuild {r : Rebuild} (hstandby : r.asStandby)
    (hnow : running → signal) : Keeps running signal (r.effects running) := by
  have hstart : Keeps false true [.outside .setOwnerOnly, .start] := by simp [Keeps]
  cases r with
  | seed =>
    simp only [Rebuild.effects, seed, append_assoc]
    refine keeps_stopIf hnow ⟨nofun, rfl, nofun, rfl, ?_⟩
    exact keeps_configureStandby nofun hstart
  | rewind =>
    simp only [Rebuild.effects, rewind, append_assoc]
    refine keeps_stopIf hnow ⟨nofun, rfl, ?_⟩
    exact keeps_configureStandby nofun hstart.2
  | restore =>
    obtain ⟨standby, hreq⟩ := isSome_iff_exists.mp hstandby
    have hfetch : Keeps false false (.fill .backupFetch :: .write "postgresql.auto.conf" ::
        (configureStandby standby.conninfo standby.slotName ++ [.outside .setOwnerOnly, .start])) :=
      ⟨nofun, rfl, nofun, keeps_configureStandby nofun hstart⟩
    simp only [Rebuild.effects, restore, hreq, append_assoc]
    refine keeps_stopIf hnow ⟨nofun, rfl, nofun, ?_⟩
    split_ifs
    · exact ⟨nofun, hfetch⟩
    · exact hfetch

/-! ## Tasks that cannot start Postgres -/

def AgentEffect.harmless : AgentEffect → Bool
  | .write _ | .outside _ => true
  | .remove file => file != "standby.signal"
  | .stopFast | .clearContents | .fill _ | .start => false

/-- A finished task, or one that neither stops nor starts Postgres and only
adds to the directory: what `demote` does. -/
def AgentTask.harmless (t : AgentTask) : Bool := (t.rest ++ t.cleanup).all AgentEffect.harmless

section Harmless

variable {t : AgentTask}

theorem AgentEffect.harmless_advance (he : e.harmless) (hadv : e.advance n p = some n') :
    n'.running = n.running ∧ (n.dir.isStandby → n'.dir.isStandby) := by
  cases p with
  | fail =>
    cases hadv
    exact ⟨rfl, id⟩
  | done =>
    cases e with
    | write =>
      cases hadv
      refine ⟨rfl, ?_⟩
      simp only [DataDir.isStandby, decide_eq_true_eq]
      exact Finset.mem_insert_of_mem
    | remove =>
      cases hadv
      refine ⟨rfl, ?_⟩
      simp only [AgentEffect.harmless, bne_iff_ne] at he
      simp only [DataDir.isStandby, decide_eq_true_eq]
      exact Finset.mem_erase_of_ne_of_mem he.symm
    | outside =>
      cases hadv
      exact ⟨rfl, id⟩
    | _ => cases he
  | create =>
    cases e with
    | fill => cases he
    | _ => cases hadv
  | erase =>
    cases e with
    | fill | clearContents => cases he
    | _ => cases hadv

theorem AgentTask.harmless_next (ht : t.harmless) : (t.next p).harmless := by
  simp only [harmless, all_append, Bool.and_eq_true, List.all_eq_true] at ht ⊢
  obtain ⟨hrest, hcleanup⟩ := ht
  cases p with
  | done => exact ⟨fun e he => hrest e (mem_of_mem_tail he), hcleanup⟩
  | fail => exact ⟨hcleanup, by simp [next]⟩
  | create | erase => exact ⟨hrest, hcleanup⟩

theorem demoteTask_harmless (conninfo slotName : String) :
    (AgentNode.demoteTask conninfo slotName).harmless := by
  simp only [AgentNode.demoteTask, configureStandby, harmless]
  split_ifs <;> simp [AgentEffect.harmless]

end Harmless

/-! ## Steps that respect a fence -/

namespace AgentNode

/-- No task that could stop or start Postgres is under way. -/
def idle (s : AgentNode) : Bool := s.process.all fun p => p.tasks.all AgentTask.harmless

/-- What a step has to respect. The fence finds no task under way that could
start Postgres. Until the next heartbeat, an agent that comes up finds
`standby.signal` wherever it finds data, no Promote is served, and stops and
rebuilds come one at a time, the rebuilds as a standby and with a right idea
of whether Postgres runs. -/
def orderly (s : AgentNode) : AgentLabel → Bool
  | .fenceStop _ => s.idle
  | .restart _ => !s.fenced || !s.dir.hasData || s.dir.isStandby
  | .promote => !s.fenced
  | .stopPostgres => !s.fenced || s.idle
  | .rebuild r sees => !s.fenced || (s.idle && r.asStandby && sees == s.running)
  | _ => true

/-- Every task but one is harmless, and that one has the effects `es` left. -/
def Only (es : List AgentEffect) (tasks : List AgentTask) : Prop :=
  ∃ i, ∀ (j : Nat) (t : AgentTask), tasks[j]? = some t →
    t.harmless ∨ (j = i ∧ t.rest = es ∧ t.cleanup = [])

/-- What holds of a fenced node: some effects that keep the signal are all
that is left of the tasks that are not harmless. -/
def Held (s : AgentNode) : Prop :=
  ∃ es, Keeps s.running s.dir.isStandby es ∧ ∀ p, s.process = some p → Only es p.tasks

structure Sound (s : AgentNode) : Prop where
  starts : ∀ st ∈ s.starts, st.fenced → st.standby
  held : s.fenced → s.Held

section Only

variable {es' : List AgentEffect} {tasks : List AgentTask} {t : AgentTask} {i : Nat}

theorem only_of_idle (h : tasks.all harmless) : Only es tasks := by
  refine ⟨0, fun j t ht => .inl ?_⟩
  exact List.all_eq_true.mp h t (mem_of_getElem? ht)

theorem Only.append_harmless (h : Only es tasks) (ht : t.harmless) : Only es (tasks ++ [t]) := by
  obtain ⟨i, hi⟩ := h
  refine ⟨i, fun j u hu => ?_⟩
  rcases getElem?_append_singleton_cases hu with ⟨-, rfl⟩ | hold
  · exact .inl ht
  · exact hi j u hold

theorem only_append (h : tasks.all harmless) (ht : t.cleanup = []) :
    Only t.rest (tasks ++ [t]) := by
  refine ⟨tasks.length, fun j u hu => ?_⟩
  rcases getElem?_append_singleton_cases hu with ⟨rfl, rfl⟩ | hold
  · exact .inr ⟨rfl, rfl, ht⟩
  · exact .inl (List.all_eq_true.mp h u (mem_of_getElem? hold))

theorem Only.set_harmless (h : Only es tasks) (ht : t.harmless) : Only es (tasks.set i t) := by
  obtain ⟨k, hk⟩ := h
  refine ⟨k, fun j u hu => ?_⟩
  rcases getElem?_set_cases hu with ⟨-, rfl⟩ | ⟨-, hold⟩
  · exact .inl ht
  · exact hk j u hold

theorem Only.set_next (h : ∀ (j : Nat) (u : AgentTask), tasks[j]? = some u →
      u.harmless ∨ (j = i ∧ u.rest = es ∧ u.cleanup = [])) (ht : t.cleanup = []) :
    Only t.rest (tasks.set i t) := by
  refine ⟨i, fun j u hu => ?_⟩
  rcases getElem?_set_cases hu with ⟨rfl, rfl⟩ | ⟨hij, hold⟩
  · exact .inr ⟨rfl, rfl, ht⟩
  · rcases h j u hold with hu | ⟨rfl, -⟩
    · exact .inl hu
    · exact absurd rfl hij

end Only

/-! ## Every step keeps it -/

variable {cfg : AgentConfig} {s s' : AgentNode} {p : AgentProcess} {l : AgentLabel} {i : Nat}
  {prog : Progress}

theorem keeps_next {t : AgentTask} {e : AgentEffect} {n n' : LocalNode}
    (h : Keeps n.running n.dir.isStandby t.rest) (hrest : t.rest = e :: es)
    (hcleanup : t.cleanup = []) (hadv : e.advance n prog = some n') :
    Keeps n'.running n'.dir.isStandby (t.next prog).rest ∧ (t.next prog).cleanup = [] := by
  rw [hrest] at h
  cases prog with
  | done =>
    simp only [AgentTask.next, hrest, tail_cons]
    exact ⟨h.done hadv, hcleanup⟩
  | fail =>
    have hnow := (h.underWay hadv nofun).signal_of_running
    simp only [AgentTask.next, hcleanup]
    exact ⟨hnow, trivial⟩
  | create | erase =>
    simp only [AgentTask.next, hrest]
    exact ⟨h.underWay hadv nofun, hcleanup⟩

theorem Held.advanceTask (hs : s.Held) (hp : s.process = some p)
    (h : s.advanceTask p i prog = some s') :
    s'.Held ∧ ∀ st ∈ s'.starts, st ∈ s.starts ∨ st.standby := by
  obtain ⟨t, e, _, n, ht, hrest, hadv, rfl⟩ := advanceTask_cases h
  obtain ⟨left, hkeeps, honly⟩ := hs
  have honly' := honly p hp
  obtain ⟨k, hk⟩ := honly p hp
  rcases hk i t ht with hharmless | ⟨rfl, rfl, hcleanup⟩
  · have he : e.harmless := by
      simp only [harmless, hrest, cons_append, all_cons, Bool.and_eq_true] at hharmless
      exact hharmless.1
    obtain ⟨hrunning, hsignal⟩ := AgentEffect.harmless_advance he hadv
    refine ⟨⟨left, hkeeps.mono (by rw [hrunning]; exact id) hsignal, ?_⟩, ?_⟩
    · rintro _ ⟨⟩
      exact honly'.set_harmless (harmless_next hharmless)
    · intro st hst
      rw [if_neg (by rintro ⟨rfl, -⟩; cases he)] at hst
      exact .inl hst
  · obtain ⟨hnext, hcleanup'⟩ := keeps_next hkeeps hrest hcleanup hadv
    refine ⟨⟨_, hnext, ?_⟩, ?_⟩
    · rintro _ ⟨⟩
      exact Only.set_next hk hcleanup'
    · intro _ hst
      split at hst
      · rename_i hstart
        obtain ⟨rfl, rfl⟩ := hstart
        rw [hrest] at hkeeps
        rcases mem_append.mp hst with hold | hnew
        · exact .inl hold
        · rw [mem_singleton.mp hnew]
          exact .inr hkeeps.2.1
      · exact .inl hst

theorem keeps_stopTask (hnow : running → signal) : Keeps running signal (stopTask cfg).rest := by
  refine ⟨hnow, fun hrunning => ?_⟩
  have hsignal : signal := hnow hrunning
  split_ifs
  · exact ⟨nofun, hsignal, fun _ => hsignal⟩
  · exact nofun

/-- A fence that finds no other task leaves a node with Postgres down and
nothing to start it. -/
theorem held_fenceStop (hidle : p.tasks.all harmless) : Held { s with
      postgres := none, fenced := true, process := some { p with fencing := true } } := by
  refine ⟨[], nofun, ?_⟩
  rintro _ ⟨⟩
  exact only_of_idle hidle

/-- The tasks of the process are what a fenced node may be left with. -/
theorem held_of_only (hkeeps : Keeps s.running s.dir.isStandby es)
    (hp : s.process = some p) (honly : Only es p.tasks) : s.Held := by
  refine ⟨es, hkeeps, fun q hq => ?_⟩
  rw [hp] at hq
  cases hq
  exact honly

theorem Held.processStep (hs : s.Held) (hp : s.process = some p) (hfenced : s.fenced)
    (ho : s.orderly l) (h : AgentNode.processStep cfg s p l = some s') :
    s'.Held ∧ ∀ st ∈ s'.starts, st ∈ s.starts ∨ st.standby := by
  obtain ⟨es, hkeeps, honly⟩ := hs
  have hnow : s.running → s.dir.isStandby := hkeeps.signal_of_running
  have hidle : s.idle → p.tasks.all harmless := by simp [idle, hp]
  cases l with
  | kill =>
    cases h
    exact ⟨⟨es, hkeeps, nofun⟩, fun st hst => .inl hst⟩
  | watchdog | heartbeat =>
    cases h
    exact ⟨held_of_only hkeeps rfl (honly p hp), fun st hst => .inl hst⟩
  | fenceStop ok =>
    obtain ⟨-, h⟩ := ite_none_right_eq_some.mp h
    cases ok with
    | false =>
      cases h
      exact ⟨held_of_only hkeeps rfl (honly p hp), fun st hst => .inl hst⟩
    | true =>
      cases h
      exact ⟨held_fenceStop (hidle ho), fun st hst => .inl hst⟩
  | exit =>
    obtain ⟨-, ⟨⟩⟩ := ite_none_right_eq_some.mp h
    exact ⟨⟨es, hkeeps, nofun⟩, fun st hst => .inl hst⟩
  | promote => simp [orderly, hfenced] at ho
  | demote conninfo slotName =>
    cases h
    have hafter := (honly p hp).append_harmless (demoteTask_harmless conninfo slotName)
    exact ⟨held_of_only hkeeps rfl hafter, fun st hst => .inl hst⟩
  | stopPostgres =>
    cases h
    have hquiet : s.idle := by simpa [orderly, hfenced] using ho
    have hafter := only_append (t := stopTask cfg) (hidle hquiet) rfl
    exact ⟨held_of_only (keeps_stopTask hnow) rfl hafter, fun st hst => .inl hst⟩
  | rebuild r sees =>
    obtain ⟨-, ⟨⟩⟩ := ite_none_right_eq_some.mp h
    have hrebuild : (s.idle ∧ r.asStandby) ∧ sees = s.running := by
      simpa [orderly, hfenced] using ho
    obtain ⟨⟨hquiet, hstandby⟩, rfl⟩ := hrebuild
    have hafter := only_append (t := { rest := r.effects s.running, lifecycle := true })
      (hidle hquiet) rfl
    exact ⟨held_of_only (keeps_rebuild hstandby hnow) rfl hafter, fun st hst => .inl hst⟩
  | task => exact Held.advanceTask ⟨es, hkeeps, honly⟩ hp h
  | advance | restart | pgExit => cases h

/-- A step of the process of a node that is not fenced: only the fence
changes that. -/
theorem processStep_unfenced (hp : s.process = some p) (hfenced : s.fenced = false)
    (ho : s.orderly l) (h : AgentNode.processStep cfg s p l = some s') :
    (s'.fenced → s'.Held) ∧ ∀ st ∈ s'.starts, st ∈ s.starts ∨ st.fenced = false := by
  have hsame (s'' : AgentNode) (hf : s''.fenced = false) (hst : s''.starts = s.starts) :
      (s''.fenced → s''.Held) ∧ ∀ st ∈ s''.starts, st ∈ s.starts ∨ st.fenced = false := by
    refine ⟨by simp [hf], fun st hmem => .inl ?_⟩
    rwa [hst] at hmem
  cases l with
  | kill | watchdog | demote | stopPostgres =>
    cases h
    exact hsame _ hfenced rfl
  | heartbeat =>
    cases h
    exact hsame _ rfl rfl
  | exit | promote | rebuild =>
    obtain ⟨-, ⟨⟩⟩ := ite_none_right_eq_some.mp h
    exact hsame _ hfenced rfl
  | fenceStop ok =>
    obtain ⟨-, h⟩ := ite_none_right_eq_some.mp h
    cases ok with
    | false =>
      cases h
      exact hsame _ hfenced rfl
    | true =>
      cases h
      have hidle : p.tasks.all harmless := by simpa [orderly, idle, hp] using ho
      exact ⟨fun _ => held_fenceStop hidle, fun st hst => .inl hst⟩
  | task =>
    obtain ⟨t, e, _, n, -, -, -, rfl⟩ := advanceTask_cases h
    refine ⟨by simp [hfenced], fun st hst => ?_⟩
    split at hst
    · rcases mem_append.mp hst with hold | hnew
      · exact .inl hold
      · rw [mem_singleton.mp hnew]
        exact .inr hfenced
    · exact .inl hst
  | advance | restart | pgExit => cases h

/-- What comes up with the process keeps the signal, if it was there with the
data. -/
theorem held_startUp (hs : s.Held) (ho : s.dir.hasData → s.dir.isStandby) :
    Held { s with process := some (startUp cfg s sees) } := by
  obtain ⟨_, hkeeps, -⟩ := hs
  have hnow : s.running → s.dir.isStandby := hkeeps.signal_of_running
  by_cases hstart : cfg.managePostgres && s.dir.hasData && !sees
  · have hsignal : s.dir.isStandby := by
      simp only [Bool.and_eq_true] at hstart
      exact ho hstart.1.2
    refine ⟨[.start], ⟨hnow, hsignal, fun _ => hsignal⟩, ?_⟩
    rintro _ ⟨⟩
    have honly : Only [.start] ([] ++ [({ rest := [.start] } : AgentTask)]) := only_append rfl rfl
    simp only [startUp, if_pos hstart]
    exact honly
  · refine ⟨[], hnow, ?_⟩
    rintro _ ⟨⟩
    simp only [startUp, if_neg hstart]
    exact only_of_idle rfl

theorem Sound.step (hs : s.Sound) (ho : s.orderly l) (h : AgentNode.step cfg s l = some s') :
    s'.Sound := by
  have hprocess (h : (s.process.bind fun p => AgentNode.processStep cfg s p l) = some s') :
      s'.Sound := by
    obtain ⟨p, hp, h⟩ := bind_eq_some_iff.mp h
    cases hfenced : s.fenced with
    | true =>
      obtain ⟨hheld, hstarts⟩ := (hs.held hfenced).processStep hp hfenced ho h
      refine ⟨fun st hst hf => ?_, fun _ => hheld⟩
      rcases hstarts st hst with hold | hnew
      · exact hs.starts st hold hf
      · exact hnew
    | false =>
      obtain ⟨hheld, hstarts⟩ := processStep_unfenced hp hfenced ho h
      refine ⟨fun st hst hf => ?_, hheld⟩
      rcases hstarts st hst with hold | hnew
      · exact hs.starts st hold hf
      · simp [hnew] at hf
  cases l with
  | advance =>
    cases h
    exact ⟨hs.starts, hs.held⟩
  | pgExit =>
    obtain ⟨-, ⟨⟩⟩ := ite_none_right_eq_some.mp h
    refine ⟨hs.starts, fun hfenced => ?_⟩
    obtain ⟨es, hkeeps, honly⟩ := hs.held hfenced
    exact ⟨es, hkeeps.mono nofun id, honly⟩
  | restart =>
    obtain ⟨-, ⟨⟩⟩ := ite_none_right_eq_some.mp h
    refine ⟨hs.starts, fun hfenced => held_startUp (hs.held hfenced) ?_⟩
    have hfenced' : s.fenced := hfenced
    intro hdata
    simpa [orderly, hfenced', hdata] using ho
  | _ => exact hprocess h

/-- In every run that respects the fence, from any node, Postgres does not
come up as a writable primary between a fence and the next heartbeat. -/
theorem fence_holds {n : LocalNode} (hr : (machine cfg n).Reaches (fun s l => s.orderly l) s) :
    ∀ st ∈ s.starts, st.fenced → st.standby := by
  have hsound : s.Sound := by
    refine hr.invariant ⟨nofun, nofun⟩ ?_
    intro _ _ _ hs ho h
    exact hs.step ho h
  exact hsound.starts

/-- The agent comes up and starts Postgres, hears nothing until the fence is
due, fences, and is brought back by its supervisor. -/
def fencedAndRestarted : List AgentLabel :=
  [.restart false, .task 0 .done, .advance 11000, .watchdog, .advance 30000, .fenceStop true,
    .exit, .restart false, .task 0 .done]

theorem fence_holds_on_standby :
    ∃ s, (machine {} ⟨{"PG_VERSION", "standby.signal"}, none⟩).Reaches (fun s l => s.orderly l) s ∧
      s.fenced ∧ s.starts = [⟨false, true⟩, ⟨true, true⟩] ∧
      ∀ st ∈ s.starts, st.fenced → st.standby := by
  have hrun : ∃ s, (machine {} ⟨{"PG_VERSION", "standby.signal"}, none⟩).run fencedAndRestarted
      = some s ∧ s.fenced ∧ s.starts = [⟨false, true⟩, ⟨true, true⟩] := ⟨_, rfl, by decide⟩
  obtain ⟨s, hs, hfenced, hstarts⟩ := hrun
  have hr : (machine {} ⟨{"PG_VERSION", "standby.signal"}, none⟩).Reaches
      (fun s l => s.orderly l) s := Machine.reaches_of_run (by decide) hs
  exact ⟨s, hr, hfenced, hstarts, fence_holds hr⟩

/-- A fenced primary is started again as a primary when its agent is brought
back, with no heartbeat in between. -/
theorem fence_forgotten_by_restart :
    ∃ s, (machine {} ⟨{"PG_VERSION"}, none⟩).Reachable s ∧ s.fenced ∧
      ⟨true, false⟩ ∈ s.starts := by
  have hrun : ∃ s, (machine {} ⟨{"PG_VERSION"}, none⟩).run fencedAndRestarted = some s ∧
      s.fenced ∧ ⟨true, false⟩ ∈ s.starts := ⟨_, rfl, by decide⟩
  obtain ⟨s, hs, hfenced, hstarts⟩ := hrun
  exact ⟨s, Machine.reachable_of_run hs, hfenced, hstarts⟩

end AgentNode

end PgCluster
