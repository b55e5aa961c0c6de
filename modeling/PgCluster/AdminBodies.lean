import PgCluster.AdminReconciler

/-!
# What bodies come to

`Body.Comes` follows a body from a state to the one it commits on: through
the states its statements read, each a later one as far as other sessions
are concerned, to its result, its writes and the rows it has locked by then.
`Extension.verified` reduces a contract to what is true where a body comes
to its end, so that no proof about a particular body deals with stability.
-/

namespace PgCluster.Admin

open Contract (stable_later)

variable {ω ε α ρ : Type}

/-- From `s`, holding `H`, the body may come to commit `result` and `write` on
`s'`, holding `H'`. -/
def Body.Comes (C : Contract (Tables ω) Key Claimed (Request ε α)) (a : Request ε α) :
    Body ω ρ → Set Key → Tables ω → ρ → (ω → ω) → Set Key → Tables ω → Prop
  | .done result write, H, s, result', write', H', s' =>
    result' = result ∧ write' = write ∧ H' = H ∧ C.Later H s s'
  | .error, _, _, _, _, _, _ => False
  | .read next, H, s, result', write', H', s' =>
    ∃ s₁, C.Later H s s₁ ∧ C.Inv s₁ ∧ (next s₁).Comes C a H s₁ result' write' H' s'
  | .lock k next, H, s, result', write', H', s' =>
    ∃ s₀ s₁, C.Later H s s₀ ∧ C.Inv s₀ ∧ C.Later H s₀ s₁ ∧ C.Inv s₁ ∧ C.Fresh a k s₀ s₁
      ∧ (next s₀ s₁).Comes C a (insert k H) s₁ result' write' H' s'

section Comes

variable {C : Contract (Tables ω) Key Claimed (Request ε α)} {a : Request ε α}
  {body : Body ω ρ} {H H' : Set Key} {s s₁ s' : Tables ω} {result : ρ} {write : ω → ω}

theorem Body.Comes.of_later (hl : C.Later H s s₁)
    (h : body.Comes C a H s₁ result write H' s') : body.Comes C a H s result write H' s' := by
  cases body with
  | done =>
    obtain ⟨hr, hw, hH, hl'⟩ := h
    exact ⟨hr, hw, hH, hl.trans hl'⟩
  | error => exact h.elim
  | read =>
    obtain ⟨s₂, hl', hrest⟩ := h
    exact ⟨s₂, hl.trans hl', hrest⟩
  | lock =>
    obtain ⟨s₀, s₂, hl', hrest⟩ := h
    exact ⟨s₀, s₂, hl.trans hl', hrest⟩

theorem Body.Comes.holds (h : body.Comes C a H s result write H' s') : H ⊆ H' := by
  induction body generalizing H s with
  | done =>
    obtain ⟨-, -, rfl, -⟩ := h
    exact fun _ hk => hk
  | error => exact h.elim
  | read _ ih =>
    obtain ⟨s₁, -, -, hrest⟩ := h
    exact ih s₁ hrest
  | lock k _ ih =>
    obtain ⟨s₀, s₁, -, -, -, -, -, hrest⟩ := h
    exact fun k' hk => ih s₀ s₁ hrest (Set.mem_insert_of_mem k hk)

theorem Body.Comes.later (h : body.Comes C a H s result write H' s') : C.Later H s s' := by
  induction body generalizing H s with
  | done =>
    obtain ⟨-, -, -, hl⟩ := h
    exact hl
  | error => exact h.elim
  | read _ ih =>
    obtain ⟨s₁, hl, -, hrest⟩ := h
    exact hl.trans (ih s₁ hrest)
  | lock k _ ih =>
    obtain ⟨s₀, s₁, hl, -, hl', -, -, hrest⟩ := h
    exact (hl.trans hl').trans ((ih s₀ s₁ hrest).mono (Set.subset_insert k H))

/-- A body that refuses a request goes on where it does not. -/
theorem Body.Comes.of_guard {p : Prop} [Decidable p]
    (h : (if p then .error else body).Comes C a H s result write H' s') :
    ¬p ∧ body.Comes C a H s result write H' s' := by
  split at h
  · exact h.elim
  next hnot => exact ⟨hnot, h⟩

end Comes

namespace Engine

variable {eng : Engine ω ε α} {X : Extension ω ε α} {late : Bool} {e : ε} {c : Claimed}

theorem verified_step_of_comes (body : Body ω Outcome) : ∀ {H : Set Key} {K : Tables ω → Prop},
    .database c.database ∈ H → .step c.op c.idx ∈ H → (∀ s, K s → Running c s) →
    (∀ s₁ o w H' s, K s₁ → body.Comes X.contract (.reconcile late e) H s₁ o w H' s →
      Ledger s → X.Inv s → Running c s → X.Cond (.reconcile late e) s →
      X.Inv (s.settle eng.onFail c o w)
        ∧ X.Guar (.reconcile late e) (some c) H' s (s.settle eng.onFail c o w)) →
    X.contract.Verified (.reconcile late e) (body.toTxn (eng.finishWith c)) (some c) H K := by
  induction body with
  | done o w =>
    intro H K hdb hstep hK hcomes
    exact verified_finishWith hdb hstep hK fun s hl hX hs hcond =>
      hcomes s o w H s hs ⟨rfl, rfl, rfl, .refl⟩ hl hX (hK s hs) hcond
  | error => exact fun _ _ _ _ => trivial
  | read _ ih =>
    intro H K hdb hstep hK hcomes s hI hs
    refine ⟨fun s' => X.contract.Later H s s' ∧ Running c s',
      (stable_later _ H s).and (stable_running hdb hstep), ⟨.refl, hK s hs⟩,
      ih s hdb hstep (fun _ h => h.2) ?_⟩
    intro s₁ o w H' s' h₁ hrest
    exact hcomes s o w H' s' hs ⟨s, .refl, hI, hrest.of_later h₁.1⟩
  | lock k _ ih =>
    intro H K hdb hstep hK hcomes s₀ hI₀ hs₀
    refine ⟨fun s' => X.contract.Later H s₀ s' ∧ Running c s',
      (stable_later _ H s₀).and (stable_running hdb hstep), ⟨.refl, hK s₀ hs₀⟩, ?_⟩
    intro s hI hs hfresh
    have hdb' := Set.mem_insert_of_mem k hdb
    have hstep' := Set.mem_insert_of_mem k hstep
    refine ⟨fun s' => X.contract.Later (insert k H) s s' ∧ Running c s',
      (stable_later _ _ s).and (stable_running hdb' hstep'), ⟨.refl, hs.2⟩,
      ih s₀ s hdb' hstep' (fun _ h => h.2) ?_⟩
    intro _ o w H' s' h₁ hrest
    exact hcomes s₀ o w H' s' hs₀ ⟨s₀, s, .refl, hI₀, hs.1, hI, hfresh, hrest.of_later h₁.1⟩

/-- A handler's body, likewise. At the end it holds the row of the database
it records an operation for. -/
theorem verified_api_of_comes {a : α} (body : Body ω ApiResult) :
    ∀ {H : Set Key} {K : Tables ω → Prop},
    (∀ s₁ r w H' s, K s₁ → body.Comes X.contract (.api a) H s₁ r w H' s →
      Ledger s → X.Inv s → X.Cond (.api a) s → X.Inv (r.commit w s)
        ∧ X.Guar (.api a) none (insert (.database r.target) H') s (r.commit w s)) →
    X.contract.Verified (.api a)
      (body.toTxn fun r w => .lock (.database r.target) fun _ _ => .commit (r.commit w))
      none H K := by
  induction body with
  | done r w =>
    intro H K hcomes s₀ _ hs₀
    refine ⟨_, stable_later _ H s₀, .refl, fun s₁ _ h₁ _ => ⟨_, stable_later _ _ s₁, .refl, ?_⟩⟩
    refine verified_commit (Set.mem_insert _ _) fun s hl hX hs hcond => ?_
    exact hcomes s₀ r w H s hs₀
      ⟨rfl, rfl, rfl, h₁.trans (hs.mono (Set.subset_insert _ _))⟩ hl hX hcond
  | error => exact fun _ => trivial
  | read _ ih =>
    intro H K hcomes s hI hs
    refine ⟨_, stable_later _ H s, .refl, ih s ?_⟩
    intro s₁ r w H' s' h₁ hrest
    exact hcomes s r w H' s' hs ⟨s, .refl, hI, hrest.of_later h₁⟩
  | lock _ _ ih =>
    intro H K hcomes s₀ hI₀ hs₀
    refine ⟨_, stable_later _ H s₀, .refl, fun s hI hs hfresh =>
      ⟨_, stable_later _ _ s, .refl, ih s₀ s ?_⟩⟩
    intro _ r w H' s' h₁ hrest
    exact hcomes s₀ r w H' s' hs₀ ⟨s₀, s, .refl, hI₀, hs, hI, hfresh, hrest.of_later h₁⟩

/-- An engine keeps a contract if every end its steps and its handlers come
to does. -/
theorem verified (hstep : ∀ late e c s₁ o w H s, Running c s₁ →
      (eng.runStep e c).Comes X.contract (.reconcile late e)
        {.database c.database, .step c.op c.idx} s₁ o w H s →
      Ledger s → X.Inv s → Running c s → X.Cond (.reconcile late e) s →
      X.Inv (s.settle eng.onFail c o w)
        ∧ X.Guar (.reconcile late e) (some c) H s (s.settle eng.onFail c o w))
    (hapi : ∀ a s₁ r w H s, (eng.api a).Comes X.contract (.api a) ∅ s₁ r w H s →
      Ledger s → X.Inv s → X.Cond (.api a) s →
      X.Inv (r.commit w s) ∧ X.Guar (.api a) none (insert (.database r.target) H) s (r.commit w s))
    (a : Request ε α) : X.contract.Verified a (eng.program a) none ∅ fun _ => True := by
  cases a with
  | reconcile late e =>
    refine verified_stepOnce fun c => ?_
    exact verified_step_of_comes _ (.inl rfl) (.inr rfl) (fun _ h => h) (hstep late e c)
  | api a => exact verified_api_of_comes _ fun s₁ r w H s _ => hapi a s₁ r w H s

end Engine

end PgCluster.Admin
