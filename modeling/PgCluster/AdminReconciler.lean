import Mathlib.Data.Set.Insert
import PgCluster.AdminLedger

/-!
# Running operations

`reconciler.rs` `step_once` and the API handlers that record operations, as
transactions. What a step or a handler does to the rest of the database is
a `Body`: plain statements, further locks, and at the end a result with the
writes that go with it. The bodies are a parameter (`Engine`), so what is
proved here holds whatever the steps do.

`step_once` claims a step with `FOR UPDATE OF s SKIP LOCKED`, takes the row
lock of the step's database, and looks at the operation once more before it
runs anything. A handler's transaction ends with a lock on the database it
records an operation for: most have taken it first thing, and the insert
takes it in any case, through the foreign key.

An `Extension` adds an invariant and a guarantee of its own to those of the
ledger. `Extension.contract` is the two together; `verified_stepOnce`,
`verified_finishWith` and `verified_commit` reduce its programs to what
their bodies do.
-/

namespace PgCluster.Admin

open Contract List

/-- What runs inside a transaction: statements, then a result and writes,
or an error that rolls everything back. -/
inductive Body (ω ρ : Type) where
  | done (result : ρ) (write : ω → ω)
  | error
  | read (next : Tables ω → Body ω ρ)
  | lock (k : Key) (next : Tables ω → Tables ω → Body ω ρ)

/-- Transactions of the metadata database. The note of a session is the
step it executes. -/
abbrev AdminTxn (ω : Type) := Txn (Tables ω) Key Claimed

def Body.toTxn {ω ρ : Type} (finish : ρ → (ω → ω) → AdminTxn ω) : Body ω ρ → AdminTxn ω
  | .done result write => finish result write
  | .error => .rollback
  | .read next => .read fun s => (next s).toTxn finish
  | .lock k next => .lock k fun s₀ s => (next s₀ s).toTxn finish

/-- What a body can come to, whatever it reads on the way. -/
inductive Body.Returns {ω ρ : Type} : Body ω ρ → ρ → (ω → ω) → Prop
  | done {result : ρ} {write : ω → ω} : Returns (.done result write) result write
  | read {next : Tables ω → Body ω ρ} {result : ρ} {write : ω → ω} (s : Tables ω) :
      Returns (next s) result write → Returns (.read next) result write
  | lock {k : Key} {next : Tables ω → Tables ω → Body ω ρ} {result : ρ} {write : ω → ω}
      (s₀ s : Tables ω) : Returns (next s₀ s) result write → Returns (.lock k next) result write

/-- What a handler records: operations of `target` are superseded or not,
and one may be created. -/
structure ApiResult where
  target : String
  supersede : Bool
  create : Option (Kind × Params)

def ApiResult.commit {ω : Type} (r : ApiResult) (w : ω → ω) (s : Tables ω) : Tables ω :=
  let s := { s with world := w s.world }
  let s := if r.supersede then s.supersede r.target else s
  match r.create with
  | some (kind, params) => s.create r.target kind params
  | none => s

/-- The parts `step_once` and the handlers leave open: `ε` is what the
environment decides in one run of a step, `α` the requests. -/
structure Engine (ω ε α : Type) where
  runStep : ε → Claimed → Body ω Outcome
  onFail : Claimed → ω → ω
  api : α → Body ω ApiResult

inductive Request (ε α : Type) where
  | reconcile (pastDeadline : Bool) (e : ε)
  | api (a : α)

/-! ## Programs -/

/-- The claim query, on the statement's snapshot. -/
def claimable {ω : Type} (s : Tables ω) : Key → Bool
  | .step op idx => s.operations.any fun r =>
    r.seq = op && r.active && r.firstPending = some idx
      && !s.operations.any fun e => e.database = r.database && e.active && e.seq < r.seq
  | _ => false

/-- What `SKIP LOCKED` checks again on the row it locks. -/
def stillPending {ω : Type} (s : Tables ω) : Key → Bool
  | .step op idx => s.operations.any fun r =>
    r.seq = op && (r.steps[idx]?).any (·.status = .pending)
  | _ => false

/-- The columns the claim query returns. -/
def claimedStep {ω : Type} (s : Tables ω) (pastDeadline : Bool) : Key → Option Claimed
  | .step op idx =>
    (s.find op).bind fun r => (r.steps[idx]?).map fun p =>
      ⟨op, idx, p.name, r.database, r.kind, r.params, pastDeadline⟩
  | _ => none

namespace Engine

variable {ω ε α : Type} (eng : Engine ω ε α)

/-- The end of `step_once`: everything the step did, and its mark. -/
def finishWith (c : Claimed) (o : Outcome) (w : ω → ω) : AdminTxn ω :=
  .commit fun s => s.settle eng.onFail c o w

/-- `step_once` with a step claimed. -/
def runClaimed (e : ε) (c : Claimed) : AdminTxn ω :=
  -- API handlers take this lock too, so a step never races a delete.
  .lock (.database c.database) fun _ _ => .read fun s =>
    if s.operations.any fun r => r.seq = c.op && r.active then
      .note c ((eng.runStep e c).toTxn (eng.finishWith c))
    else .rollback

def stepOnce (pastDeadline : Bool) (e : ε) : AdminTxn ω :=
  .claim claimable stillPending fun s₀ k =>
    (k.bind (claimedStep s₀ pastDeadline)).elim .rollback (eng.runClaimed e)

def handle (a : α) : AdminTxn ω :=
  (eng.api a).toTxn fun r w => .lock (.database r.target) fun _ _ => .commit (r.commit w)

def program : Request ε α → AdminTxn ω
  | .reconcile pastDeadline e => eng.stepOnce pastDeadline e
  | .api a => eng.handle a

/-- Any number of reconcilers and handlers on one database. -/
def machine (world : ω) : Machine (Store (Tables ω) Key Claimed (Request ε α))
    (TxnLabel Key (Request ε α)) :=
  storeMachine ⟨[], 0, world, []⟩ eng.program

end Engine

/-! ## The contract -/

/-- What a model of the rest of the database adds to the ledger's contract. -/
structure Extension (ω ε α : Type) where
  Inv : Tables ω → Prop
  Guar : Request ε α → Option Claimed → Set Key → Tables ω → Tables ω → Prop
  Cond : Request ε α → Tables ω → Prop
  Fresh : Request ε α → Key → Tables ω → Tables ω → Prop

def Extension.contract {ω ε α : Type} (X : Extension ω ε α) :
    Contract (Tables ω) Key Claimed (Request ε α) where
  Inv s := Ledger s ∧ X.Inv s
  Guar a n H s s' := Evolves H s s' ∧ X.Guar a n H s s'
  row c := .database c.database
  Cond := X.Cond
  Fresh := X.Fresh

/-- The executing session's operation is active, and its step is the next. -/
def Running {ω : Type} (c : Claimed) (s : Tables ω) : Prop :=
  ∃ r, Claims c s.operations r ∧ r.active = true

variable {c : Claimed} {H : Set Key}

namespace Engine

variable {ω ε α : Type} {eng : Engine ω ε α} {X : Extension ω ε α} {s s₀ : Tables ω}

theorem stable_claims (hstep : .step c.op c.idx ∈ H) :
    X.contract.Stable H fun s => ∃ r, Claims c s.operations r := by
  rintro a n _ s _ hd hI - hG ⟨r, hc⟩
  obtain ⟨r', hc', -⟩ := hc.evolves hI.1 hG.1 (hd _ hstep)
  exact ⟨r', hc'⟩

theorem stable_running (hdb : .database c.database ∈ H)
    (hstep : .step c.op c.idx ∈ H) : X.contract.Stable H (Running c) := by
  rintro a n _ s _ hd hI - hG ⟨r, hc, hactive⟩
  obtain ⟨r', hc', hsame⟩ := hc.evolves hI.1 hG.1 (hd _ hstep)
  obtain rfl := hsame (hd _ hdb)
  exact ⟨r', hc', hactive⟩

theorem seen_of_claimable {k : Key} {late : Bool}
    (hl : Ledger s₀) (hcand : claimable s₀ k) (hc : claimedStep s₀ late k = some c) :
    k = .step c.op c.idx ∧ ∃ r, Seen c s₀.operations r := by
  cases k with
  | database | hosts => cases hcand
  | step op =>
    obtain ⟨r, hfind, hstep⟩ := Option.bind_eq_some_iff.mp hc
    obtain ⟨p, hp, rfl⟩ := Option.map_eq_some_iff.mp hstep
    obtain ⟨_, hr', hquery⟩ := any_eq_true.mp hcand
    simp only [Bool.and_eq_true, decide_eq_true_eq, Bool.not_eq_true', any_eq_false,
      not_and] at hquery
    obtain ⟨⟨⟨hseq', -⟩, hfirst⟩, halone⟩ := hquery
    have hseq : r.seq = op := by simpa using find?_some hfind
    obtain rfl := hl.row_unique (mem_of_find?_eq_some hfind) hr' (hseq.trans hseq'.symm)
    obtain ⟨hlt, -, hbefore⟩ := findIdx?_eq_some_iff_getElem.mp hfirst
    refine ⟨rfl, r, hr', hseq, rfl, rfl, rfl, ⟨p, hp, rfl⟩, ?_, ?_⟩
    · intro j q hj hq
      obtain ⟨-, rfl⟩ := List.getElem?_eq_some_iff.mp hq
      exact fun hqp => hbefore j hj (decide_eq_true hqp)
    · intro e he hdb hlt
      refine Bool.eq_false_iff.mpr fun hactive => ?_
      exact halone e he ⟨hdb, hactive⟩ (hseq ▸ hlt)

theorem claims_of_stillPending {r : OpRow} (hl : Ledger s)
    (hc : Seen c s.operations r) (hstill : stillPending s (.step c.op c.idx)) :
    Claims c s.operations r := by
  refine ⟨hc, fun p hp => ?_⟩
  obtain ⟨_, hr', hpending⟩ := any_eq_true.mp hstill
  rw [Bool.and_eq_true, decide_eq_true_eq] at hpending
  obtain rfl := hl.row_unique hr' hc.mem (hpending.1.trans hc.seq.symm)
  simpa [hp] using hpending.2

variable {late : Bool} {e : ε} {a : α} {K : Tables ω → Prop} {w : ω → ω} {r : ApiResult}

/-- The wait for the database's row, and the second look at the operation. -/
theorem verified_runClaimed (hbody : X.contract.Verified (.reconcile late e)
      ((eng.runStep e c).toTxn (eng.finishWith c)) (some c)
      {.database c.database, .step c.op c.idx} (Running c)) :
    X.contract.Verified (.reconcile late e) (eng.runClaimed e c) none
      {.step c.op c.idx} fun s => ∃ r, Claims c s.operations r := by
  have hstep : Key.step c.op c.idx ∈ ({.step c.op c.idx} : Set Key) := rfl
  have hstep' : Key.step c.op c.idx ∈ ({.database c.database, .step c.op c.idx} : Set Key) :=
    .inr rfl
  have hdb : Key.database c.database ∈ ({.database c.database, .step c.op c.idx} : Set Key) :=
    .inl rfl
  intro _ _ hK₀
  refine ⟨_, stable_claims hstep, hK₀, fun s₁ _ hK₁ _ => ⟨_, stable_claims hstep', hK₁, ?_⟩⟩
  intro s hI hK
  obtain ⟨r, hc⟩ := hK
  beta_reduce
  by_cases hlook : (s.operations.any fun r => r.seq = c.op && r.active)
  · rw [if_pos hlook]
    obtain ⟨r', hr', hactive⟩ := any_eq_true.mp hlook
    rw [Bool.and_eq_true, decide_eq_true_eq] at hactive
    obtain rfl := hI.1.row_unique hr' hc.mem (hactive.1.trans hc.seq.symm)
    exact ⟨_, stable_running hdb hstep', ⟨r', hc, hactive.2⟩, hdb, hbody⟩
  · rw [if_neg hlook]
    exact ⟨fun _ => True, stable_true _ _, trivial, trivial⟩

/-- `step_once` keeps the contract if every step does, from the moment it
holds both rows and has looked at the operation again. -/
theorem verified_stepOnce (hbody : ∀ c, X.contract.Verified (.reconcile late e)
      ((eng.runStep e c).toTxn (eng.finishWith c)) (some c)
      {.database c.database, .step c.op c.idx} (Running c)) :
    X.contract.Verified (.reconcile late e) (eng.stepOnce late e) none ∅ fun _ => True := by
  intro s₀ hI₀ _
  -- while the claim looks for a row nobody has locked, what it saw stays true
  refine ⟨fun s => ∀ c, (∃ r, Seen c s₀.operations r) → ∃ r, Seen c s.operations r, ?_,
    fun _ h => h, fun s _ _ => ⟨fun _ => True, stable_true _ _, trivial, trivial⟩, ?_⟩
  · intro a n _ s _ _ hI _ hG hK c hc
    obtain ⟨r, hr⟩ := hK c hc
    obtain ⟨r', hr', -⟩ := hr.evolves hI.1 hG.1
    exact ⟨r', hr'⟩
  · intro s k hI hK hcand hstill
    show ∃ K', _ ∧ _ ∧ Verified _ _ ((claimedStep s₀ late k).elim _ _) _ _ _
    cases hclaimed : claimedStep s₀ late k with
    | none => exact ⟨fun _ => True, stable_true _ _, trivial, trivial⟩
    | some c =>
      obtain ⟨rfl, hseen⟩ := seen_of_claimable hI₀.1 hcand hclaimed
      obtain ⟨r, hr⟩ := hK c hseen
      have hrows : insert (Key.step c.op c.idx) (∅ : Set Key) = {.step c.op c.idx} :=
        insert_empty_eq _
      rw [hrows]
      exact ⟨_, stable_claims rfl, ⟨r, claims_of_stillPending hI.1 hr hstill⟩,
        verified_runClaimed (hbody c)⟩

/-- The commit of a step: the ledger's part is in order, so only the
extension's is left. -/
theorem verified_finishWith {o : Outcome} (hdb : .database c.database ∈ H)
    (hstep : .step c.op c.idx ∈ H) (hK : ∀ s, K s → Running c s)
    (hX : ∀ s, Ledger s → X.Inv s → K s → X.Cond (.reconcile late e) s →
      X.Inv (s.settle eng.onFail c o w)
        ∧ X.Guar (.reconcile late e) (some c) H s (s.settle eng.onFail c o w)) :
    X.contract.Verified (.reconcile late e) (eng.finishWith c o w) (some c) H K := by
  intro s hI hKs hcond
  obtain ⟨r, hc, hactive⟩ := hK s hKs
  obtain ⟨hinv, hguar⟩ := hX s hI.1 hI.2 hKs hcond
  exact ⟨⟨hI.1.settle hc hactive _ o w, hinv⟩, .settle hI.1 hc hactive hdb hstep _ o w, hguar⟩

/-- What the three writes of a handler keep, its commit keeps. -/
theorem commit_rule {P : Tables ω → Prop} (hworld : P { s with world := w s.world })
    (hsupersede : ∀ t, P t → P (t.supersede r.target))
    (hcreate : ∀ t kind params, P t → P (t.create r.target kind params)) : P (r.commit w s) := by
  obtain ⟨target, supersede, create⟩ := r
  have hsuper : P (if supersede then Tables.supersede target { s with world := w s.world }
      else { s with world := w s.world }) := by
    cases supersede with
    | true => exact hsupersede _ hworld
    | false => exact hworld
  cases create with
  | none => exact hsuper
  | some kp => exact hcreate _ kp.1 kp.2 hsuper

theorem ledger_commit (h : Ledger s) (r : ApiResult) (w : ω → ω) : Ledger (r.commit w s) :=
  commit_rule (h.of_eq rfl rfl rfl) (fun _ h => h.supersede _) fun _ _ _ h => h.create _ _ _

theorem evolves_commit (hdb : .database r.target ∈ H) (w : ω → ω) : Evolves H s (r.commit w s) :=
  commit_rule (.of_eq H rfl rfl) (fun _ h => h.trans (.supersede hdb))
    fun _ kind params h => h.trans (.create hdb kind params)

/-- The commit of a handler, likewise. -/
theorem verified_commit (hdb : .database r.target ∈ H)
    (hX : ∀ s, Ledger s → X.Inv s → K s → X.Cond (.api a) s →
      X.Inv (r.commit w s) ∧ X.Guar (.api a) none H s (r.commit w s)) :
    X.contract.Verified (.api a) (.commit (r.commit w)) none H K := by
  intro s hI hKs hcond
  obtain ⟨hinv, hguar⟩ := hX s hI.1 hI.2 hKs hcond
  exact ⟨⟨ledger_commit hI.1 r w, hinv⟩, evolves_commit hdb w, hguar⟩

/-! ## Whatever the steps do -/

/-- What a session commits: a reconciler settles the step it executes, with
an outcome and the writes of that step's body, and a handler what it
records. -/
def Shape (eng : Engine ω ε α) (a : Request ε α) (n : Option Claimed) (s s' : Tables ω) :
    Prop :=
  match a with
  | .reconcile _ e => ∃ c o w, n = some c ∧ (eng.runStep e c).Returns o w
      ∧ s' = s.settle eng.onFail c o w
  | .api a => ∃ r w, (eng.api a).Returns r w ∧ s' = r.commit w s

/-- No more than the ledger, with the shape of every commit on record. -/
def plain (eng : Engine ω ε α) : Extension ω ε α where
  Inv _ := True
  Guar a n _ s s' := eng.Shape a n s s'
  Cond _ _ := True
  Fresh _ _ _ _ := True

theorem verified_anyStep (body : Body ω Outcome) :
    ∀ H : Set Key, .database c.database ∈ H → .step c.op c.idx ∈ H →
      (∀ o w, body.Returns o w → (eng.runStep e c).Returns o w) →
      eng.plain.contract.Verified (.reconcile late e)
        (body.toTxn (eng.finishWith c)) (some c) H (Running c) := by
  induction body with
  | done o w =>
    intro H hdb hstep hret
    exact verified_finishWith hdb hstep (fun _ h => h) fun _ _ _ _ _ =>
      ⟨trivial, c, o, w, rfl, hret o w .done, rfl⟩
  | error => exact fun _ _ _ _ => trivial
  | read _ ih =>
    intro H hdb hstep hret s _ hs
    exact ⟨_, stable_running hdb hstep, hs, ih s H hdb hstep fun o w h => hret o w (.read s h)⟩
  | lock k _ ih =>
    intro H hdb hstep hret s₀ _ hs₀
    refine ⟨_, stable_running hdb hstep, hs₀, fun s _ hs _ => ?_⟩
    have hdb' := Set.mem_insert_of_mem k hdb
    have hstep' := Set.mem_insert_of_mem k hstep
    exact ⟨_, stable_running hdb' hstep', hs,
      ih s₀ s _ hdb' hstep' fun o w h => hret o w (.lock s₀ s h)⟩

theorem verified_anyHandler (body : Body ω ApiResult) : ∀ H : Set Key,
    (∀ r w, body.Returns r w → (eng.api a).Returns r w) → eng.plain.contract.Verified (.api a)
      (body.toTxn fun r w => .lock (.database r.target) fun _ _ => .commit (r.commit w))
      none H fun _ => True := by
  induction body with
  | done r w =>
    intro H hret
    refine verified_lock _ fun _ _ => ?_
    exact verified_commit (Set.mem_insert _ _) fun _ _ _ _ _ => ⟨trivial, r, w, hret r w .done, rfl⟩
  | error => exact fun _ _ => trivial
  | read _ ih =>
    intro H hret
    exact verified_read _ fun s => ih s H fun r w h => hret r w (.read s h)
  | lock _ _ ih =>
    intro H hret
    exact verified_lock _ fun s₀ s => ih s₀ s _ fun r w h => hret r w (.lock s₀ s h)

theorem verified_any (a : Request ε α) :
    eng.plain.contract.Verified a (eng.program a) none ∅ fun _ => True := by
  cases a with
  | reconcile =>
    exact verified_stepOnce fun c => verified_anyStep _ _ (.inl rfl) (.inr rfl) fun _ _ h => h
  | api => exact verified_anyHandler _ _ fun _ _ h => h

theorem permits_plain {st : Store (Tables ω) Key Claimed (Request ε α)}
    (l : TxnLabel Key (Request ε α)) : eng.plain.contract.Permits st l :=
  permits_any (fun _ _ => trivial) (fun _ _ _ _ => trivial) st l

theorem ledger_empty (world : ω) : Ledger (⟨[], 0, world, []⟩ : Tables ω) :=
  ⟨.nil, forall_mem_nil _, forall_mem_nil _, forall_mem_nil _,
    fun _ _ _ _ h => (not_mem_nil h).elim, fun _ h => (not_mem_nil h).elim, .nil⟩

/-- One operation at a time, each step once. In every state that any number
of reconcilers and handlers reach, crashing at any point:

* two sessions that execute steps of one database are one session;
* the done marks of an operation are its first steps, in order, each once,
  and those are the steps its row has as done;
* a step was committed, whether as done, waiting or failed, only while its
  operation was active, as the next step of it, and with no earlier
  operation of the database active;
* nothing was committed for an operation after a delete superseded it;
* an operation has succeeded only with every step done;
* and a session changes what is committed in one place, where a reconciler
  marks the step it executes and writes what that step's body returned. -/
theorem one_operation_at_a_time (eng : Engine ω ε α) (world : ω)
    {st : Store (Tables ω) Key Claimed (Request ε α)} (hr : (eng.machine world).Reachable st) :
    (∀ i j t u c d, st.sessions i = some t → st.sessions j = some u → t.note = some c →
        u.note = some d → c.database = d.database → i = j)
      ∧ (∀ r ∈ st.tables.operations, ∃ n, doneMarks st.tables.history r.seq = List.range n
          ∧ ∀ k p, r.steps[k]? = some p → (p.status = .done ↔ k < n))
      ∧ (∀ op idx m before, .marked op idx m before ∈ st.tables.history → Due before op idx)
      ∧ (∀ (pre post : List Event) op, st.tables.history = pre ++ .superseded op :: post →
          ∀ idx m before, .marked op idx m before ∉ post)
      ∧ (∀ r ∈ st.tables.operations, r.status = .succeeded → ∀ p ∈ r.steps, p.status = .done)
      ∧ ∀ l st', (eng.machine world).step st l = some st' → st'.tables = st.tables
          ∨ ∃ i t, st.sessions i = some t ∧ eng.Shape t.request t.note st.tables st'.tables := by
  have hgood : eng.plain.contract.Good st :=
    sound ⟨ledger_empty world, trivial⟩ verified_any (hr.mono fun _ l _ => permits_plain l)
  have hl : Ledger st.tables := hgood.inv.1
  refine ⟨?_, ?_, ?_, ?_, ?_, ?_⟩
  · intro i j t u c d ht hu hc hd hdb
    exact hgood.note_unique ht hu hc hd (congrArg Key.database hdb)
  · intro r hr
    obtain ⟨n, hn, hmarks⟩ := hl.progress r hr
    exact ⟨n, hmarks, hn.done⟩
  · intro op idx m before hmem
    exact (hl.marks op idx m before hmem).2
  · intro _ _ op hsplit idx m before hmem
    have horder := hl.order
    rw [hsplit, pairwise_append] at horder
    exact rel_of_pairwise_cons horder.2.1 hmem op idx m before rfl rfl
  · intro r hr hsucc p hp
    obtain ⟨n, hn, -⟩ := hl.progress r hr
    obtain ⟨k, hk⟩ := mem_iff_getElem?.mp hp
    refine (hn.done k p hk).mpr ?_
    rw [hn.succeeded hsucc]
    exact (List.getElem?_eq_some_iff.mp hk).1
  · intro l _ hs
    rcases (hgood.step verified_any (permits_plain l) hs).2 with h | ⟨i, t, ht, hG⟩
    · exact .inl h
    · exact .inr ⟨i, t, ht, hG.2⟩

end Engine

end PgCluster.Admin
