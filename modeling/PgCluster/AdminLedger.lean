import Mathlib.Data.List.Pairwise
import PgCluster.AdminOperations

/-!
# The ledger of operations

What the operation rows and the history of commits satisfy together
(`Ledger`), and what one commit may do to the rows, given the locks its
session holds (`Evolves`): rows of a database change only under that
database's row lock, a step row only under its own, nothing that has ended
changes again, and new rows come after all old ones.

`Claims` is what a reconciler knows of the step it has locked: the step is
pending, nothing before it in the operation is, and no earlier operation of
the database is active. All but the first was read from the claim's
snapshot (`Seen`), which may be old; `Seen.evolves` and `Claims.evolves` say
that other sessions cannot make it false.
-/

namespace PgCluster.Admin

open List

/-- The rows a session locks. -/
inductive Key where
  | database (id : String)
  | step (op idx : Nat)
  | hosts
deriving DecidableEq

/-! ## The invariant -/

/-- The positions of an operation's steps that were marked done, in order. -/
def doneMarks (history : List Event) (op : Nat) : List Nat :=
  history.filterMap fun
    | .marked o i .done _ => if o = op then some i else none
    | _ => none

theorem doneMarks_append (h h' : List Event) (op : Nat) :
    doneMarks (h ++ h') op = doneMarks h op ++ doneMarks h' op :=
  filterMap_append

/-- What the claim query saw of the step `c`, its status apart: `r` is its
operation's row among `rows`. -/
structure Seen (c : Claimed) (rows : List OpRow) (r : OpRow) : Prop where
  mem : r ∈ rows
  seq : r.seq = c.op
  database : r.database = c.database
  kind : r.kind = c.kind
  params : r.params = c.params
  step : ∃ p, r.steps[c.idx]? = some p ∧ p.name = c.name
  first : ∀ j q, j < c.idx → r.steps[j]? = some q → q.status ≠ .pending
  alone : ∀ e ∈ rows, e.database = c.database → e.seq < c.op → e.active = false

/-- What a reconciler knows of the step it has locked. -/
structure Claims (c : Claimed) (rows : List OpRow) (r : OpRow) : Prop extends Seen c rows r where
  pending : ∀ p, r.steps[c.idx]? = some p → p.status = .pending

/-- The operation is active, the step is its next one, and no earlier
operation of the database is active. -/
def Due (rows : List OpRow) (op idx : Nat) : Prop :=
  ∃ c r, c.op = op ∧ c.idx = idx ∧ Claims c rows r ∧ r.active = true

structure Ledger {ω : Type} (s : Tables ω) : Prop where
  ordered : s.operations.Pairwise (·.seq < ·.seq)
  fresh : ∀ r ∈ s.operations, r.seq < s.nextSeq
  names : ∀ r ∈ s.operations, r.steps.map (·.name) = r.kind.steps
  progress : ∀ r ∈ s.operations, ∃ n, r.Progress n ∧ doneMarks s.history r.seq = List.range n
  marks : ∀ op i m before, .marked op i m before ∈ s.history → op < s.nextSeq ∧ Due before op i
  ended : ∀ op, .superseded op ∈ s.history → ∃ r ∈ s.operations, r.seq = op ∧ r.active = false
  order : s.history.Pairwise fun a b =>
    ∀ op i m before, a = .superseded op → b ≠ .marked op i m before

variable {H : Set Key} {ω : Type} {c : Claimed} {r e : OpRow} {s s' : Tables ω} {database : String}

theorem Ledger.row_unique (h : Ledger s)
    (hr : r ∈ s.operations) (he : e ∈ s.operations) (hseq : r.seq = e.seq) : r = e := by
  have hdiffer : s.operations.Pairwise fun a b => a.seq ≠ b.seq :=
    h.ordered.imp fun hlt => Nat.ne_of_lt hlt
  have : Std.Symm fun a b : OpRow => a.seq ≠ b.seq := ⟨fun _ _ hne => hne.symm⟩
  by_contra hne
  exact hdiffer.forall hr he hne hseq

/-! ## What a commit may do -/

/-- One row across a commit under the locks `H`. -/
structure RowEvolves (H : Set Key) (r r' : OpRow) : Prop where
  seq : r'.seq = r.seq
  database : r'.database = r.database
  kind : r'.kind = r.kind
  params : r'.params = r.params
  ended : r.active = false → r' = r
  unlocked : .database r.database ∉ H → r' = r
  steps : ∀ i p, r.steps[i]? = some p → ∃ p', r'.steps[i]? = some p' ∧ p'.name = p.name
    ∧ (p.status ≠ .pending → p'.status = p.status) ∧ (.step r.seq i ∉ H → p' = p)

theorem RowEvolves.refl (H : Set Key) (r : OpRow) : RowEvolves H r r :=
  ⟨rfl, rfl, rfl, rfl, fun _ => rfl, fun _ => rfl,
    fun _ p hp => ⟨p, hp, rfl, fun _ => rfl, fun _ => rfl⟩⟩

theorem RowEvolves.trans {r r' r'' : OpRow} (h : RowEvolves H r r')
    (h' : RowEvolves H r' r'') : RowEvolves H r r'' := by
  refine ⟨h'.seq.trans h.seq, h'.database.trans h.database, h'.kind.trans h.kind,
    h'.params.trans h.params, ?_, ?_, ?_⟩
  · intro ha
    obtain rfl := h.ended ha
    exact h'.ended ha
  · intro hk
    obtain rfl := h.unlocked hk
    exact h'.unlocked hk
  · intro i p hp
    obtain ⟨p', hp', hname, hstay, hfree⟩ := h.steps i p hp
    obtain ⟨p'', hp'', hname', hstay', hfree'⟩ := h'.steps i p' hp'
    refine ⟨p'', hp'', hname'.trans hname, ?_, ?_⟩
    · intro hne
      have hpp := hstay hne
      exact (hstay' (hpp ▸ hne)).trans hpp
    · intro hk
      obtain rfl := hfree hk
      exact hfree' (h.seq ▸ hk)

structure Evolves {ω : Type} (H : Set Key) (s s' : Tables ω) : Prop where
  old : ∀ r ∈ s.operations, ∃ r' ∈ s'.operations, RowEvolves H r r'
  new : ∀ r' ∈ s'.operations, (∃ r ∈ s.operations, RowEvolves H r r')
    ∨ (s.nextSeq ≤ r'.seq ∧ .database r'.database ∈ H)
  next : s.nextSeq ≤ s'.nextSeq

theorem Evolves.of_eq (H : Set Key)
    (hops : s'.operations = s.operations) (hnext : s'.nextSeq = s.nextSeq) : Evolves H s s' :=
  ⟨fun r hr => ⟨r, hops ▸ hr, .refl H r⟩, fun r' hr' => .inl ⟨r', hops ▸ hr', .refl H r'⟩, hnext.ge⟩

theorem Evolves.trans {s s' s'' : Tables ω} (h : Evolves H s s')
    (h' : Evolves H s' s'') : Evolves H s s'' := by
  refine ⟨?_, ?_, h.next.trans h'.next⟩
  · intro r hr
    obtain ⟨r', hr', hrr⟩ := h.old r hr
    obtain ⟨r'', hr'', hrr'⟩ := h'.old r' hr'
    exact ⟨r'', hr'', hrr.trans hrr'⟩
  · intro r'' hr''
    rcases h'.new r'' hr'' with ⟨r', hr', hrow'⟩ | ⟨hge, hk⟩
    · rcases h.new r' hr' with ⟨r, hr, hrow⟩ | ⟨hge, hk⟩
      · exact .inl ⟨r, hr, hrow.trans hrow'⟩
      · exact .inr ⟨hrow'.seq ▸ hge, hrow'.database ▸ hk⟩
    · exact .inr ⟨h.next.trans hge, hk⟩

/-- What was seen stays true whatever anyone commits: what has ended stays
ended, and new operations come later. -/
theorem Seen.evolves (hc : Seen c s.operations r) (hl : Ledger s) (he : Evolves H s s') :
    ∃ r', Seen c s'.operations r' ∧ RowEvolves H r r' := by
  obtain ⟨r', hr', hrow⟩ := he.old r hc.mem
  obtain ⟨p, hp, hname⟩ := hc.step
  refine ⟨r', ⟨hr', hrow.seq.trans hc.seq, hrow.database.trans hc.database,
    hrow.kind.trans hc.kind, hrow.params.trans hc.params, ?_, ?_, ?_⟩, hrow⟩
  · obtain ⟨p', hp', hname', -, -⟩ := hrow.steps _ p hp
    exact ⟨p', hp', hname'.trans hname⟩
  · intro j q hj hq
    have hlt : j < r.steps.length := hj.trans (List.getElem?_eq_some_iff.mp hp).1
    have hq₀ := getElem?_eq_getElem hlt
    obtain ⟨_, hq', -, hstay, -⟩ := hrow.steps j _ hq₀
    cases hq.symm.trans hq'
    have hne := hc.first j _ hj hq₀
    rw [hstay hne]
    exact hne
  · intro e hes hdb hlt
    rcases he.new e hes with ⟨e₀, he₀, hee⟩ | ⟨_, -⟩
    · have hidle := hc.alone e₀ he₀ (hee.database.symm.trans hdb) (hee.seq ▸ hlt)
      rw [hee.ended hidle]
      exact hidle
    · have := hl.fresh r hc.mem
      rw [hc.seq] at this
      omega

/-- Other sessions do not hold the claimed step's row, so it stays pending.
With the database's row locked too, the operation's row stands still. -/
theorem Claims.evolves (hc : Claims c s.operations r) (hl : Ledger s) (he : Evolves H s s')
    (hstep : .step c.op c.idx ∉ H) :
    ∃ r', Claims c s'.operations r' ∧ (.database c.database ∉ H → r' = r) := by
  obtain ⟨r', hc', hrow⟩ := hc.toSeen.evolves hl he
  refine ⟨r', ⟨hc', ?_⟩, fun hk => hrow.unlocked (hc.database ▸ hk)⟩
  intro _ hp'
  obtain ⟨p, hp, -⟩ := hc.step
  obtain ⟨q, hq, -, -, hfree⟩ := hrow.steps _ p hp
  cases hp'.symm.trans hq
  obtain rfl := hfree (hc.seq ▸ hstep)
  exact hc.pending _ hp

/-! ## The three updates -/

/-- Settling a step touches the status, the error and the one step row. -/
theorem Claimed.settle_eq (c : Claimed) (o : Outcome) (r : OpRow) : ∃ status error f, c.settle o r
      = { r with status := status, error := error, steps := (r.modifyStep c.idx f).steps } := by
  cases o with
  | done =>
    unfold Claimed.settle OpRow.finishStep
    dsimp only
    split <;> exact ⟨_, _, fun _ => .done, rfl⟩
  | wait =>
    unfold Claimed.settle
    dsimp only
    split
    · exact ⟨_, _, fun _ => .failed, rfl⟩
    · exact ⟨_, _, fun status => status, rfl⟩
  | fail => exact ⟨_, _, fun _ => .failed, rfl⟩

theorem Claimed.settle_names (c : Claimed) (o : Outcome) (r : OpRow) :
    (c.settle o r).steps.map (·.name) = r.steps.map (·.name) ∧ (c.settle o r).kind = r.kind := by
  obtain ⟨_, _, f, h⟩ := c.settle_eq o r
  rw [h]
  exact ⟨r.modifyStep_names c.idx f, rfl⟩

@[simp] theorem Claimed.settle_seq (c : Claimed) (o : Outcome) (r : OpRow) :
    (c.settle o r).seq = r.seq := by
  obtain ⟨_, _, _, h⟩ := c.settle_eq o r
  rw [h]

theorem RowEvolves.settle {rows : List OpRow}
    (hc : Claims c rows r) (hactive : r.active) (hdb : .database c.database ∈ H)
    (hstep : .step c.op c.idx ∈ H) (o : Outcome) : RowEvolves H r (c.settle o r) := by
  obtain ⟨_, _, f, heq⟩ := c.settle_eq o r
  rw [heq]
  refine ⟨rfl, rfl, rfl, rfl, ?_, ?_, ?_⟩
  · intro h
    rw [hactive] at h
    cases h
  · intro h
    exact absurd (hc.database ▸ hdb) h
  · intro i p hp
    refine ⟨_, (r.modifyStep_getElem? c.idx i f).trans (congrArg _ hp), ?_, ?_, ?_⟩
    · split <;> rfl
    · intro hne
      split
      · next hi =>
        subst hi
        exact absurd (hc.pending p hp) hne
      · rfl
    · intro hk
      refine if_neg fun hi => hk ?_
      exact hi ▸ hc.seq ▸ hstep

theorem RowEvolves.supersede (hdb : .database database ∈ H) (e : OpRow) :
    RowEvolves H e (if e.database = database && e.active then e.supersede else e) := by
  split
  · next h =>
    rw [Bool.and_eq_true, decide_eq_true_eq] at h
    refine ⟨rfl, rfl, rfl, rfl, ?_, ?_, ?_⟩
    · intro hidle
      rw [h.2] at hidle
      cases hidle
    · intro hk
      exact absurd (h.1 ▸ hdb) hk
    · intro i p hp
      exact ⟨p, hp, rfl, fun _ => rfl, fun _ => rfl⟩
  · exact .refl H e

section Updates

variable {ω : Type} {s : Tables ω} {H : Set Key}

theorem Evolves.settle (hl : Ledger s) (hc : Claims c s.operations r) (hactive : r.active)
    (hdb : .database c.database ∈ H) (hstep : .step c.op c.idx ∈ H)
    (onFail : Claimed → ω → ω) (o : Outcome) (w : ω → ω) : Evolves H s (s.settle onFail c o w) := by
  have hrow : ∀ e ∈ s.operations, RowEvolves H e (if e.seq = c.op then c.settle o e else e) := by
    intro e he
    split
    · next hseq =>
      obtain rfl := hl.row_unique he hc.mem (hseq.trans hc.seq.symm)
      exact .settle hc hactive hdb hstep o
    · exact .refl H e
  refine ⟨fun e he => ⟨_, mem_map_of_mem he, hrow e he⟩, ?_, le_rfl⟩
  intro _ he'
  obtain ⟨e, he, rfl⟩ := mem_map.mp he'
  exact .inl ⟨e, he, hrow e he⟩

theorem Evolves.create (hdb : .database database ∈ H) (kind : Kind)
    (params : Params) : Evolves H s (s.create database kind params) := by
  refine ⟨fun r hr => ⟨r, mem_append_left _ hr, .refl H r⟩, ?_, Nat.le_succ _⟩
  intro r' hr'
  rcases mem_append.mp hr' with hr | hnew
  · exact .inl ⟨r', hr, .refl H r'⟩
  · obtain rfl := mem_singleton.mp hnew
    exact .inr ⟨le_rfl, hdb⟩

theorem Evolves.supersede (hdb : .database database ∈ H) : Evolves H s (s.supersede database) := by
  refine ⟨fun e he => ⟨_, mem_map_of_mem he, .supersede hdb e⟩, ?_, le_rfl⟩
  intro _ he'
  obtain ⟨e, he, rfl⟩ := mem_map.mp he'
  exact .inl ⟨e, he, .supersede hdb e⟩

theorem Ledger.of_eq (h : Ledger s) (hops : s'.operations = s.operations)
    (hnext : s'.nextSeq = s.nextSeq) (hhist : s'.history = s.history) : Ledger s' := by
  obtain ⟨ops, next, _, history⟩ := s'
  obtain rfl : ops = s.operations := hops
  obtain rfl : next = s.nextSeq := hnext
  obtain rfl : history = s.history := hhist
  exact { h with }

theorem Ledger.settle (h : Ledger s)
    (hc : Claims c s.operations r) (hactive : r.active) (onFail : Claimed → ω → ω)
    (o : Outcome) (w : ω → ω) : Ledger (s.settle onFail c o w) := by
  have hseq : ∀ e : OpRow, (if e.seq = c.op then c.settle o e else e).seq = e.seq := by
    intro e
    split
    · exact c.settle_seq o e
    · rfl
  -- an operation that was superseded is not the one that runs
  have hnot : .superseded c.op ∉ s.history := by
    intro hmem
    obtain ⟨e, he, hes, hidle⟩ := h.ended _ hmem
    obtain rfl := h.row_unique he hc.mem (hes.trans hc.seq.symm)
    rw [hactive] at hidle
    cases hidle
  refine ⟨?_, ?_, ?_, ?_, ?_, ?_, ?_⟩
  · refine pairwise_map.mpr (h.ordered.imp ?_)
    intro a b hab
    rw [hseq, hseq]
    exact hab
  · intro e' he'
    obtain ⟨e, he, rfl⟩ := mem_map.mp he'
    rw [hseq]
    exact h.fresh e he
  · intro e' he'
    obtain ⟨e, he, rfl⟩ := mem_map.mp he'
    split
    · rw [(c.settle_names o e).1, (c.settle_names o e).2]
      exact h.names e he
    · exact h.names e he
  · intro _ he'
    obtain ⟨e, he, rfl⟩ := mem_map.mp he'
    obtain ⟨n, hn, hmarks⟩ := h.progress e he
    show ∃ n, _ ∧ doneMarks (s.history ++ [_]) _ = _
    rw [hseq, doneMarks_append, hmarks]
    by_cases hes : e.seq = c.op
    · obtain rfl := h.row_unique he hc.mem (hes.trans hc.seq.symm)
      obtain ⟨p, hp, -⟩ := hc.step
      have hidx := hn.eq_of_first hactive hp (hc.pending p hp) hc.first
      rw [if_pos hes]
      refine ⟨_, hn.settle hactive hidx o, ?_⟩
      cases hm : c.mark o <;> simp [doneMarks, hes, hidx, range_succ]
    · rw [if_neg hes]
      refine ⟨n, hn, ?_⟩
      cases hm : c.mark o <;> simp [doneMarks, Ne.symm hes]
  · intro op i m before hmem
    rcases mem_append.mp hmem with hold | hnew
    · exact h.marks op i m before hold
    · cases mem_singleton.mp hnew
      exact ⟨hc.seq ▸ h.fresh r hc.mem, c, r, rfl, rfl, hc, hactive⟩
  · intro op hmem
    rcases mem_append.mp hmem with hold | hnew
    · obtain ⟨e, he, hes, hidle⟩ := h.ended op hold
      refine ⟨e, mem_map.mpr ⟨e, he, if_neg ?_⟩, hes, hidle⟩
      rintro hce
      exact hnot ((hes.symm.trans hce) ▸ hold)
    · cases mem_singleton.mp hnew
  · refine pairwise_append.mpr ⟨h.order, pairwise_singleton .., ?_⟩
    rintro _ ha _ hb _ _ _ _ rfl rfl
    cases mem_singleton.mp hb
    exact hnot ha

theorem Ledger.create (h : Ledger s) (database : String) (kind : Kind) (params : Params) :
    Ledger (s.create database kind params) := by
  refine ⟨?_, ?_, ?_, ?_, ?_, ?_, h.order⟩
  · refine pairwise_append.mpr ⟨h.ordered, pairwise_singleton .., ?_⟩
    intro a ha b hb
    rw [mem_singleton.mp hb]
    exact h.fresh a ha
  · intro r hr
    rcases mem_append.mp hr with hr | hr
    · exact Nat.lt_succ_of_lt (h.fresh r hr)
    · rw [mem_singleton.mp hr]
      exact Nat.lt_succ_self _
  · intro r hr
    rcases mem_append.mp hr with hr | hr
    · exact h.names r hr
    · rw [mem_singleton.mp hr]
      show (kind.steps.map _).map _ = kind.steps
      rw [map_map]
      exact map_id _
  · intro r hr
    rcases mem_append.mp hr with hr | hr
    · exact h.progress r hr
    · rw [mem_singleton.mp hr]
      refine ⟨0, .new .., ?_⟩
      -- nothing was ever marked under a number not yet drawn
      refine filterMap_eq_nil_iff.mpr fun e he => ?_
      cases e with
      | superseded => rfl
      | marked op i m before =>
        cases m with
        | done =>
          have hlt := (h.marks op i _ before he).1
          exact if_neg (Nat.ne_of_lt hlt)
        | waiting | failed => rfl
  · intro op i m before hmem
    obtain ⟨hlt, hdue⟩ := h.marks op i m before hmem
    exact ⟨Nat.lt_succ_of_lt hlt, hdue⟩
  · intro op hmem
    obtain ⟨r, hr, hrest⟩ := h.ended op hmem
    exact ⟨r, mem_append_left _ hr, hrest⟩

theorem Ledger.supersede (h : Ledger s) (database : String) : Ledger (s.supersede database) := by
  have hseq : ∀ e : OpRow,
      (if e.database = database && e.active then e.supersede else e).seq = e.seq := by
    intro e
    split <;> rfl
  have hsuper : ∀ e ∈ (s.operations.filter fun r => r.database = database && r.active).map
      fun r => Event.superseded r.seq, ∃ op, e = .superseded op := by
    intro e he
    obtain ⟨r, -, rfl⟩ := mem_map.mp he
    exact ⟨_, rfl⟩
  refine ⟨?_, ?_, ?_, ?_, ?_, ?_, ?_⟩
  · refine pairwise_map.mpr (h.ordered.imp ?_)
    intro a b hab
    rw [hseq, hseq]
    exact hab
  · intro e' he'
    obtain ⟨e, he, rfl⟩ := mem_map.mp he'
    rw [hseq]
    exact h.fresh e he
  · intro e' he'
    obtain ⟨e, he, rfl⟩ := mem_map.mp he'
    split <;> exact h.names e he
  · intro _ he'
    obtain ⟨e, he, rfl⟩ := mem_map.mp he'
    obtain ⟨n, hn, hmarks⟩ := h.progress e he
    refine ⟨n, ?_, ?_⟩
    · split
      · exact hn.supersede
      · exact hn
    · show doneMarks (s.history ++ _) _ = _
      rw [hseq, doneMarks_append, hmarks, append_right_eq_self]
      refine filterMap_eq_nil_iff.mpr fun e he => ?_
      obtain ⟨op, rfl⟩ := hsuper e he
      rfl
  · intro op i m before hmem
    rcases mem_append.mp hmem with hold | hnew
    · exact h.marks op i m before hold
    · obtain ⟨op', hop⟩ := hsuper _ hnew
      cases hop
  · intro op hmem
    rcases mem_append.mp hmem with hold | hnew
    · obtain ⟨e, he, hes, hidle⟩ := h.ended op hold
      refine ⟨e, mem_map.mpr ⟨e, he, if_neg ?_⟩, hes, hidle⟩
      simp [hidle]
    · obtain ⟨e, he, hes⟩ := mem_map.mp hnew
      obtain ⟨hrow, hyes⟩ := mem_filter.mp he
      cases hes
      exact ⟨e.supersede, mem_map.mpr ⟨e, hrow, if_pos hyes⟩, rfl, rfl⟩
  · refine pairwise_append.mpr ⟨h.order, ?_, ?_⟩
    · refine pairwise_of_forall_mem_list fun a _ b hb op i m before _ hbm => ?_
      obtain ⟨op', rfl⟩ := hsuper b hb
      cases hbm
    · rintro _ - _ hb _ _ _ _ - rfl
      obtain ⟨_, hop⟩ := hsuper _ hb
      cases hop

end Updates

end PgCluster.Admin
