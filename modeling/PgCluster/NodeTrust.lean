import PgCluster.SecretRotation

/-!
# Nodes that trust each other

What a node has been sent is not gone once it is sent something newer: it may
be on its way, received or applied. So the invariant is about all of it. Any
certificate that some node has, or is about to get, is trusted by any bundle
that some node has, or is about to get. The steps of a rotation keep it one
after the other, because each wait leaves only what was sent since the step
before.
-/

namespace PgCluster.Secrets

open List Option
open Admin (DatabaseSecrets NextPasswords RandomMaterial Kind StepName)

/-! ## What a node has -/

variable {s : Sent} {sent : Node → Sent} {n n' : Node} {pending : List Nat} {a : NodeAct}
  {nodes nodes' : List Node} {generation : Nat} {op : Operation} {queue : List Operation}

theorem mem_held {n : Node} : s ∈ n.held ↔
    n.building = some s ∨ n.answer = some s ∨ n.desired = some s ∨ n.applied = some s := by
  simp [Node.held]

/-- What a node gets is in the order it was sent, and it reports what it has
applied. -/
structure Node.Ordered (generation : Nat) (n : Node) : Prop where
  applied : ∀ a, n.applied = some a → ∃ d, n.desired = some d ∧ a.generation ≤ d.generation
  desired : ∀ d, n.desired = some d → d.generation ≤ generation
    ∧ ∀ s, n.building = some s ∨ n.answer = some s → d.generation ≤ s.generation
  coming : ∀ s, n.building = some s ∨ n.answer = some s → s.generation ≤ generation
  one : n.building = none ∨ n.answer = none
  observed : n.observed ≤ n.appliedGeneration
  reports : ∀ r ∈ n.reports, r.1 ≤ n.appliedGeneration

section Acts

variable {sent : Sent} {g g' : Nat}

theorem appliedGeneration_of_some (h : n.applied = some s) :
    n.appliedGeneration = s.generation := by
  simp only [Node.appliedGeneration, h, map_some, getD_some]

theorem Node.Ordered.mono (h : n.Ordered g) (hg : g ≤ g') : n.Ordered g' :=
  ⟨h.applied, fun d hd => ⟨Nat.le_trans (h.desired d hd).1 hg, (h.desired d hd).2⟩,
    fun s hs => Nat.le_trans (h.coming s hs) hg, h.one, h.observed, h.reports⟩

theorem Node.Ordered.applied_le (h : n.Ordered g) (hs : n.desired = some s) :
    n.appliedGeneration ≤ s.generation := by
  cases happlied : n.applied with
  | none => simp [Node.appliedGeneration, happlied]
  | some a =>
    obtain ⟨d, hd, hle⟩ := h.applied a happlied
    rw [appliedGeneration_of_some happlied]
    exact Option.some.inj (hd.symm.trans hs) ▸ hle

theorem Node.Ordered.observed_le (h : n.Ordered g) (hs : s ∈ n.held) :
    n.observed ≤ s.generation := by
  refine Nat.le_trans h.observed ?_
  cases happlied : n.applied with
  | none => simp [Node.appliedGeneration, happlied]
  | some a =>
    obtain ⟨d, hd, -⟩ := h.applied a happlied
    rcases mem_held.mp hs with hs | hs | hs | hs
    · exact Nat.le_trans (h.applied_le hd) ((h.desired d hd).2 s (.inl hs))
    · exact Nat.le_trans (h.applied_le hd) ((h.desired d hd).2 s (.inr hs))
    · exact h.applied_le hs
    · exact Nat.le_of_eq (appliedGeneration_of_some hs)

theorem Node.Ordered.newest (h : n.Ordered g) (hs : s ∈ n.held) : s.generation ≤ g := by
  rcases mem_held.mp hs with hs | hs | hs | hs
  · exact h.coming s (.inl hs)
  · exact h.coming s (.inr hs)
  · exact (h.desired s hs).1
  · obtain ⟨d, hd, hle⟩ := h.applied s hs
    exact Nat.le_trans hle (h.desired d hd).1

/-- Nothing that was coming arrives. -/
theorem Node.Ordered.forget (h : n.Ordered g) (saved : Option Sent) :
    Ordered g { n with building := none, answer := none, saved := saved } := by
  refine ⟨h.applied, fun d hd => ⟨(h.desired d hd).1, ?_⟩, ?_, .inl rfl, h.observed, h.reports⟩
  · rintro s (hs | hs) <;> cases hs
  · rintro s (hs | hs) <;> cases hs

theorem Node.Ordered.act (h : n.Ordered sent.generation)
    (hrestart : a = .restart → n.saved = n.desired)
    (hs : n.act sent pending a = some n') : n'.Ordered sent.generation := by
  cases a with
  | build =>
    obtain ⟨⟨-, -, hanswer⟩, rfl⟩ := ite_some_none_eq_some.mp hs
    refine ⟨h.applied, fun d hd => ⟨(h.desired d hd).1, ?_⟩, ?_, .inr hanswer, h.observed,
      h.reports⟩
    · rintro s (hs | hs)
      · exact Option.some.inj hs ▸ (h.desired d hd).1
      · exact (h.desired d hd).2 s (.inr hs)
    · rintro s (hs | hs)
      · exact Option.some.inj hs ▸ le_rfl
      · exact h.coming s (.inr hs)
  | readTasks =>
    obtain ⟨s, hbuilding, rfl⟩ := map_eq_some_iff.mp hs
    refine ⟨h.applied, fun d hd => ⟨(h.desired d hd).1, ?_⟩, ?_, .inl rfl, h.observed, h.reports⟩
    · rintro s' (hs' | hs')
      · cases hs'
      · exact Option.some.inj hs' ▸ (h.desired d hd).2 s (.inl hbuilding)
    · rintro s' (hs' | hs')
      · cases hs'
      · exact Option.some.inj hs' ▸ h.coming s (.inl hbuilding)
  | pollFailed =>
    cases hs
    exact h.forget _
  | receive =>
    obtain ⟨s, hanswer, rfl⟩ := map_eq_some_iff.mp hs
    have hbuilding : n.building = none := h.one.resolve_right (by rw [hanswer]; nofun)
    have hcoming : ∀ s' : Sent, ¬ (n.building = some s' ∨ none = some s') := by
      rintro s' (hs' | hs')
      · exact nomatch hbuilding.symm.trans hs'
      · cases hs'
    refine ⟨fun a ha => ⟨s, rfl, ?_⟩, fun d hd => ⟨?_, fun s' hs' => (hcoming s' hs').elim⟩,
      fun s' hs' => (hcoming s' hs').elim, .inr rfl, h.observed, h.reports⟩
    · obtain ⟨d, hd, hle⟩ := h.applied a ha
      exact Nat.le_trans hle ((h.desired d hd).2 s (.inr hanswer))
    · exact Option.some.inj hd ▸ h.coming s (.inr hanswer)
  | apply =>
    obtain ⟨s, hdesired, rfl⟩ := map_eq_some_iff.mp hs
    have hle := h.applied_le hdesired
    refine ⟨fun a ha => ⟨s, hdesired, ?_⟩, h.desired, h.coming, h.one,
      Nat.le_trans h.observed hle, fun r hr => Nat.le_trans (h.reports r hr) hle⟩
    exact Option.some.inj ha ▸ le_rfl
  | report =>
    cases hs
    exact { h with reports := forall_mem_cons.mpr ⟨le_rfl, h.reports⟩ }
  | reported =>
    obtain ⟨hmem, rfl⟩ := ite_some_none_eq_some.mp hs
    exact { h with
      observed := h.reports _ hmem
      reports := fun r hr => h.reports r (mem_of_mem_erase hr) }
  | restart =>
    cases hs
    rw [hrestart rfl]
    exact h.forget _
  | seen | retract =>
    cases hs
    exact { h with }

end Acts

/-- Without its tasks, which are read later. -/
def Sent.bare (s : Sent) : Sent := { s with tasks := [] }

/-- A node that has nothing but what another has, and what that one is sent. -/
structure Node.Comes (sent : Sent) (n n' : Node) : Prop where
  cert : n'.cert = n.cert
  live : n'.retracted = false → n.retracted = false
  held : ∀ s ∈ n'.held, s = sent ∨ ∃ s₀ ∈ n.held, s₀.bare = s.bare

section Comes

variable {sent : Sent}

theorem Node.Comes.of_mem (hcert : n'.cert = n.cert)
    (hlive : n'.retracted = false → n.retracted = false)
    (h : ∀ s ∈ n'.held, s ∈ n.held) : Node.Comes sent n n' :=
  ⟨hcert, hlive, fun s hs => .inr ⟨s, h s hs, rfl⟩⟩

theorem Node.Comes.refl : Node.Comes sent n n := .of_mem rfl id fun _ => id

theorem Node.Comes.forget (saved : Option Sent) :
    Node.Comes sent n { n with building := none, answer := none, saved := saved } := by
  refine .of_mem rfl id fun s hs => mem_held.mpr ?_
  rcases mem_held.mp hs with hs | hs | hs
  · cases hs
  · cases hs
  · exact .inr (.inr hs)

theorem Node.comes_of_act (hrestart : a = .restart → n.saved = n.desired)
    (hs : n.act sent pending a = some n') : Node.Comes sent n n' := by
  cases a with
  | build =>
    obtain ⟨-, rfl⟩ := ite_some_none_eq_some.mp hs
    refine ⟨rfl, id, fun s hs => ?_⟩
    rcases mem_held.mp hs with hs | hs
    · exact .inl (Option.some.inj hs).symm
    · exact .inr ⟨s, mem_held.mpr (.inr hs), rfl⟩
  | readTasks =>
    obtain ⟨s₀, hbuilding, rfl⟩ := map_eq_some_iff.mp hs
    refine ⟨rfl, id, fun s hs => .inr ?_⟩
    rcases mem_held.mp hs with hs | hs | hs
    · cases hs
    · cases hs
      exact ⟨s₀, mem_held.mpr (.inl hbuilding), rfl⟩
    · exact ⟨s, mem_held.mpr (.inr (.inr hs)), rfl⟩
  | pollFailed =>
    cases hs
    exact .forget _
  | receive =>
    obtain ⟨s₀, hanswer, rfl⟩ := map_eq_some_iff.mp hs
    refine .of_mem rfl id fun s hs => mem_held.mpr ?_
    rcases mem_held.mp hs with hs | hs | hs | hs
    · exact .inl hs
    · cases hs
    · exact .inr (.inl (hanswer.trans hs))
    · exact .inr (.inr (.inr hs))
  | apply =>
    obtain ⟨_, hdesired, rfl⟩ := map_eq_some_iff.mp hs
    refine .of_mem rfl id fun s hs => mem_held.mpr ?_
    rcases mem_held.mp hs with hs | hs | hs | hs
    · exact .inl hs
    · exact .inr (.inl hs)
    · exact .inr (.inr (.inl hs))
    · exact .inr (.inr (.inl (hdesired.trans hs)))
  | restart =>
    cases hs
    rw [hrestart rfl]
    exact .forget _
  | reported =>
    obtain ⟨-, rfl⟩ := ite_some_none_eq_some.mp hs
    exact .of_mem rfl id fun _ => id
  | report | seen =>
    cases hs
    exact .of_mem rfl id fun _ => id
  | retract =>
    cases hs
    exact .of_mem rfl nofun fun _ => id

end Comes

/-! ## What all nodes have -/

def Rows (nodes : List Node) (P : String → Prop) : Prop :=
  ∀ n ∈ nodes, n.retracted = false → P n.cert

/-- Everything that a node has, or is about to get. -/
def Held (nodes : List Node) (P : Sent → Prop) : Prop :=
  ∀ n ∈ nodes, n.retracted = false → ∀ s ∈ n.held, P s.bare

/-- By the bundle in the secrets, and by those sent before. -/
structure Trusted (bundle : List String) (nodes : List Node) (cert : String) : Prop where
  now : cert ∈ bundle
  before : Held nodes (cert ∈ ·.bundle)

section Nodes

variable {P Q : Sent → Prop} {R : String → Prop} {cert : String} {bundle : List String}
  {target : Nat} {ha : Bool}

theorem Held.mono (h : Held nodes P) (himp : ∀ s, P s → Q s) : Held nodes Q :=
  fun n hn hlive s hs => himp _ (h n hn hlive s hs)

def AllCome (sent : Node → Sent) (nodes nodes' : List Node) : Prop :=
  ∀ n' ∈ nodes', ∃ n ∈ nodes, Node.Comes (sent n) n n'

theorem Rows.come (h : Rows nodes R) (hcome : AllCome sent nodes nodes') : Rows nodes' R := by
  intro n' hn' hlive
  obtain ⟨n, hn, hc⟩ := hcome n' hn'
  exact hc.cert ▸ h n hn (hc.live hlive)

theorem Held.come (h : Held nodes P) (hcome : AllCome sent nodes nodes')
    (hsent : ∀ n ∈ nodes, n.retracted = false → P (sent n).bare) : Held nodes' P := by
  intro n' hn' hlive s hs
  obtain ⟨n, hn, hc⟩ := hcome n' hn'
  rcases hc.held s hs with rfl | ⟨s₀, hs₀, hbare⟩
  · exact hsent n hn (hc.live hlive)
  · exact hbare ▸ h n hn (hc.live hlive) s₀ hs₀

/-- Once the wait is over, nothing older is left. -/
theorem held_of_waitApplied {st : State} (hordered : ∀ n ∈ st.nodes, n.Ordered generation)
    (hwait : st.waitApplied target)
    (haway : ∀ n ∈ st.nodes, n.retracted = false → (st.ha && n.away) →
      ∀ s ∈ n.held, target ≤ s.generation)
    (h : Held st.nodes fun s => target ≤ s.generation → P s) : Held st.nodes P := by
  intro n hn hlive s hs
  refine h n hn hlive s hs ?_
  have hwait := List.all_eq_true.mp hwait n hn
  simp only [hlive, Bool.false_or, Bool.or_eq_true] at hwait
  rcases hwait with hskipped | hseen
  · exact haway n hn hlive hskipped s hs
  · simp only [Bool.and_eq_true, decide_eq_true_eq] at hseen
    have hle : n.observed ≤ s.generation := (hordered n hn).observed_le hs
    exact Nat.le_trans hseen.1 hle

/-- Nothing of a generation yet to come. -/
theorem held_vacuous (hordered : ∀ n ∈ nodes, n.Ordered generation) :
    Held nodes fun s => generation + 1 ≤ s.generation → P s := by
  intro n hn _ s hs hle
  exact absurd ((hordered n hn).newest hs) (Nat.not_le_of_lt hle)

end Nodes

/-! ## How far a rotation is -/

/-- What the steps of a rotation so far have left. -/
def Progress (ca : String) (nodes : List Node) (op : Operation) : Prop :=
  match op.seq with
  | 1 => Held nodes fun s => op.target ≤ s.generation → ca ∈ s.bundle
  | 2 => Held nodes fun s => ca ∈ s.bundle
  | 3 => Rows nodes (· = ca) ∧ Held nodes fun s => op.target ≤ s.generation → s.cert = ca
  | 4 => Rows nodes (· = ca) ∧ Held nodes fun s => s.cert = ca
  | _ => True

/-- Operations that have yet to begin. -/
def Waiting (generation : Nat) (queue : List Operation) : Prop :=
  ∀ op ∈ queue, op.seq = 0 ∧ op.target ≤ generation

def Queued (generation : Nat) (ca : String) (nodes : List Node) : List Operation → Prop
  | [] => True
  | op :: queue => (op.kind = .rotateCa → Progress ca nodes op) ∧ op.target ≤ generation
      ∧ Waiting generation queue

structure TrustOk (st : State) : Prop where
  ordered : ∀ n ∈ st.nodes, n.Ordered st.generation
  rows : Rows st.nodes (Trusted st.secrets.caBundle st.nodes)
  held : Held st.nodes fun s => Trusted st.secrets.caBundle st.nodes s.cert
  queued : Queued st.generation st.secrets.caCertPem st.nodes st.operations

section Queue

variable {generation' : Nat} {ca : String}

theorem Waiting.mono (h : Waiting generation queue) (hle : generation ≤ generation') :
    Waiting generation' queue :=
  fun op hop => ⟨(h op hop).1, Nat.le_trans (h op hop).2 hle⟩

theorem Waiting.queued (h : Waiting generation queue) : Queued generation ca nodes queue := by
  cases queue with
  | nil => trivial
  | cons =>
    obtain ⟨⟨hseq, htarget⟩, h⟩ := forall_mem_cons.mp h
    refine ⟨fun _ => ?_, htarget, h⟩
    simp only [Progress, hseq]

theorem Queued.start (h : Queued generation ca nodes queue) (hseq : op.seq = 0)
    (htarget : op.target ≤ generation) : Queued generation ca nodes (queue ++ [op]) := by
  have hnew : Waiting generation [op] := fun o ho => mem_singleton.mp ho ▸ ⟨hseq, htarget⟩
  cases queue with
  | nil => exact hnew.queued
  | cons => exact ⟨h.1, h.2.1, forall_mem_append.mpr ⟨h.2.2, hnew⟩⟩

theorem Queued.come
    (h : Queued generation ca nodes queue) (hcome : AllCome sent nodes nodes')
    (hbundle : ∀ n, ca ∈ (sent n).bundle) (hcert : ∀ n, (sent n).cert = n.cert) :
    Queued generation ca nodes' queue := by
  cases queue with
  | nil => trivial
  | cons =>
    refine ⟨fun hkind => ?_, h.2⟩
    have hp := h.1 hkind
    unfold Progress at hp ⊢
    split at hp
    · exact hp.come hcome fun n _ _ _ => hbundle n
    · exact hp.come hcome fun n _ _ => hbundle n
    · exact ⟨hp.1.come hcome, hp.2.come hcome fun n hn hlive _ => (hcert n).trans (hp.1 n hn hlive)⟩
    · exact ⟨hp.1.come hcome, hp.2.come hcome fun n hn hlive => (hcert n).trans (hp.1 n hn hlive)⟩
    · trivial

end Queue

/-! ## Steps -/

section Steps

variable {st st' : State} {random : RandomMaterial}

theorem TrustOk.finishStep (hordered : ∀ n ∈ st.nodes, n.Ordered st.generation)
    (hrows : Rows st.nodes (Trusted st.secrets.caBundle st.nodes))
    (hheld : Held st.nodes fun s => Trusted st.secrets.caBundle st.nodes s.cert)
    (hwaiting : Waiting st.generation queue) (htarget : op.target ≤ st.generation)
    (hprogress : op.kind = .rotateCa →
      Progress st.secrets.caCertPem st.nodes { op with seq := op.seq + 1 }) :
    TrustOk (st.finishStep op queue) := by
  refine ⟨hordered, hrows, hheld, ?_⟩
  unfold State.finishStep
  split
  · exact ⟨hprogress, htarget, hwaiting⟩
  · exact hwaiting.queued

theorem TrustOk.newGeneration (hordered : ∀ n ∈ st.nodes, n.Ordered st.generation)
    (hrows : Rows st.nodes (Trusted st.secrets.caBundle st.nodes))
    (hheld : Held st.nodes fun s => Trusted st.secrets.caBundle st.nodes s.cert)
    (hwaiting : Waiting st.generation queue)
    (hprogress : op.kind = .rotateCa → Progress st.secrets.caCertPem st.nodes
      { op with seq := op.seq + 1, target := st.generation + 1 }) :
    TrustOk (st.newGeneration op queue) :=
  .finishStep (fun n hn => (hordered n hn).mono (Nat.le_succ _)) hrows hheld
    (hwaiting.mono (Nat.le_succ _)) le_rfl hprogress

theorem Trusted.grow {bundle bundle' : List String} {nodes : List Node} {cert : String}
    (h : Trusted bundle nodes cert) (hsub : bundle ⊆ bundle') : Trusted bundle' nodes cert :=
  ⟨hsub h.now, h.before⟩

theorem TrustOk.caTrustBoth (h : TrustOk st) (hwaiting : Waiting st.generation queue)
    (hseq : op.seq = 0) (hnone : st.secrets.previousCaCertPem = none) :
    TrustOk ({ st with secrets := st.secrets.caTrustBoth random }.newGeneration op queue) := by
  have hsub : st.secrets.caBundle ⊆ (st.secrets.caTrustBoth random).caBundle := by
    simp [DatabaseSecrets.caBundle, DatabaseSecrets.caTrustBoth, hnone]
  refine .newGeneration h.ordered (fun n hn hlive => (h.rows n hn hlive).grow hsub)
    (h.held.mono fun _ hs => hs.grow hsub) hwaiting fun _ => ?_
  simp only [Progress, hseq]
  exact held_vacuous h.ordered

theorem mem_reissue {n' : Node} (h : n' ∈ st.reissue) : n' ∈ st.nodes ∧ n'.retracted
    ∨ ∃ n ∈ st.nodes, n.retracted = false ∧ n' = { n with cert := st.secrets.caCertPem } := by
  obtain ⟨n, hn, rfl⟩ := List.mem_map.mp h
  split
  · next hretracted => exact .inl ⟨hn, hretracted⟩
  · next hretracted => exact .inr ⟨n, hn, Bool.eq_false_iff.mpr hretracted, rfl⟩

theorem held_reissue {P : Sent → Prop} (h : Held st.nodes P) : Held st.reissue P := by
  intro n' hn' hlive
  rcases mem_reissue hn' with ⟨hn, -⟩ | ⟨n, hn, -, rfl⟩
  · exact h n' hn hlive
  · exact h n hn hlive

theorem rows_reissue : Rows st.reissue (· = st.secrets.caCertPem) := by
  intro _ hn' hlive
  rcases mem_reissue hn' with ⟨-, hretracted⟩ | ⟨n, -, -, rfl⟩
  · exact nomatch hretracted.symm.trans hlive
  · rfl

theorem ordered_reissue (h : ∀ n ∈ st.nodes, n.Ordered st.generation) :
    ∀ n ∈ st.reissue, n.Ordered st.generation := by
  intro n' hn'
  rcases mem_reissue hn' with ⟨hn, -⟩ | ⟨n, hn, -, rfl⟩
  · exact h n' hn
  · have h := h n hn
    exact { h with }

theorem TrustOk.caIssue (h : TrustOk st) (hwaiting : Waiting st.generation queue)
    (hseq : op.seq = 2) (hprogress : Progress st.secrets.caCertPem st.nodes op) :
    TrustOk ({ st with nodes := st.reissue }.newGeneration op queue) := by
  simp only [Progress, hseq] at hprogress
  refine .newGeneration (ordered_reissue h.ordered) (fun n hn hlive => ?_)
    (held_reissue (h.held.mono fun _ hs => ⟨hs.now, held_reissue hs.before⟩)) hwaiting
    fun _ => ?_
  · rw [rows_reissue n hn hlive]
    exact ⟨mem_cons_self, held_reissue hprogress⟩
  · simp only [Progress, hseq]
    exact ⟨rows_reissue, held_vacuous (ordered_reissue h.ordered)⟩

theorem TrustOk.caTrustNew (h : TrustOk st) (hwaiting : Waiting st.generation queue)
    (hseq : op.seq = 4) (hprogress : Progress st.secrets.caCertPem st.nodes op) :
    TrustOk ({ st with secrets := st.secrets.caTrustNew }.newGeneration op queue) := by
  simp only [Progress, hseq] at hprogress
  have hnow : ∀ {cert : String}, cert = st.secrets.caCertPem →
      cert ∈ st.secrets.caTrustNew.caBundle := fun heq => heq ▸ mem_cons_self
  refine .newGeneration h.ordered
    (fun n hn hlive => ⟨hnow (hprogress.1 n hn hlive), (h.rows n hn hlive).before⟩)
    (fun n hn hlive s hs => ⟨hnow (hprogress.2 n hn hlive s hs), (h.held n hn hlive s hs).before⟩)
    hwaiting fun _ => ?_
  simp only [Progress, hseq]

/-- Each wait of a rotation makes the step before it good. -/
theorem Progress.waited (hordered : ∀ n ∈ st.nodes, n.Ordered st.generation)
    (hkind : op.kind = .rotateCa) (hname : op.step? = some .waitApplied)
    (hwait : st.waitApplied op.target)
    (haway : ∀ n ∈ st.nodes, n.retracted = false → (st.ha && n.away) →
      ∀ s ∈ n.held, op.target ≤ s.generation) (h : Progress st.secrets.caCertPem st.nodes op) :
    Progress st.secrets.caCertPem st.nodes { op with seq := op.seq + 1 } := by
  have hseq : op.seq = 1 ∨ op.seq = 3 ∨ op.seq = 5 := by
    have hname : Kind.rotateCa.steps[op.seq]? = some .waitApplied := hkind ▸ hname
    refine Kind.of_step hname ?_
    decide
  unfold Progress at h ⊢
  rcases hseq with hseq | hseq | hseq <;> simp only [hseq] at h ⊢
  · exact held_of_waitApplied hordered hwait haway h
  · exact ⟨h.1, held_of_waitApplied hordered hwait haway h.2⟩

theorem TrustOk.failStep (h : TrustOk st) (hwaiting : Waiting st.generation queue) :
    TrustOk (st.failStep op queue) := by
  unfold State.failStep State.setTask
  cases op.task with
  | none => exact { h with queued := hwaiting.queued }
  | some =>
    dsimp only
    split
    · exact { h with queued := hwaiting.queued }
    · exact { h with queued := hwaiting.queued }

theorem TrustOk.runStep (h : TrustOk st) (hops : st.operations = op :: queue)
    (hcond : keepsTrust st (.step random))
    (hs : st.runStep op queue random = some st') : TrustOk st' := by
  have hqueued := h.queued
  rw [hops] at hqueued
  obtain ⟨hprogress, htarget, hwaiting⟩ := hqueued
  have hfinish : (op.kind = .rotateCa → Progress st.secrets.caCertPem st.nodes
      { op with seq := op.seq + 1 }) → TrustOk (st.finishStep op queue) :=
    .finishStep h.ordered h.rows h.held hwaiting htarget
  unfold State.runStep at hs
  unfold keepsTrust State.next? at hcond
  simp only [hops, head?_cons, bind_some] at hcond
  split at hs
  · next hname =>
    obtain ⟨-, hseq⟩ := Kind.place .caTrustBoth hname
    simp only [hname, map_some, decide_eq_true_eq] at hcond
    cases hs
    exact h.caTrustBoth hwaiting hseq hcond
  · next hname =>
    obtain ⟨hkind, hseq⟩ := Kind.place .caIssue hname
    cases hs
    exact h.caIssue hwaiting hseq (hprogress hkind)
  · next hname =>
    obtain ⟨hkind, hseq⟩ := Kind.place .caTrustNew hname
    cases hs
    exact h.caTrustNew hwaiting hseq (hprogress hkind)
  · next hname =>
    have hkind := (Kind.place .passwordsOffer hname).1
    cases hs
    exact .newGeneration h.ordered h.rows h.held hwaiting fun hca => nomatch hkind.symm.trans hca
  · next hname =>
    have hkind := (Kind.place .passwordsAlter hname).1
    split at hs
    · cases hs
      refine ⟨h.ordered, h.rows, h.held, fun hca => ?_, htarget, hwaiting⟩
      exact nomatch hkind.symm.trans hca
    · split at hs
      · cases hs
        exact hfinish fun hca => nomatch hkind.symm.trans hca
      · cases hs
        exact h.failStep hwaiting
      · cases hs
  · next hname =>
    have hkind := (Kind.place .passwordsCommit hname).1
    obtain ⟨_, hcommit, rfl⟩ := map_eq_some_iff.mp hs
    obtain ⟨next, -, rfl⟩ := map_eq_some_iff.mp hcommit
    exact .newGeneration h.ordered h.rows h.held hwaiting fun hca => nomatch hkind.symm.trans hca
  · next hname =>
    obtain ⟨hwait, rfl⟩ := ite_some_none_eq_some.mp hs
    refine hfinish fun hca => (hprogress hca).waited h.ordered hca hname hwait ?_
    simp only [hname, map_some, hca, ne_eq, not_true_eq_false, decide_false,
      Bool.false_or, List.all_eq_true, Bool.or_eq_true, Bool.not_eq_true',
      decide_eq_true_eq] at hcond
    intro n hn hlive haway
    rcases hcond n hn with (hretracted | hhere) | hheld
    · exact nomatch hretracted.symm.trans hlive
    · exact nomatch hhere.symm.trans haway
    · exact hheld
  · next hname =>
    cases hs
    refine hfinish fun hca => ?_
    have hseq : op.seq = 6 := by
      have hname : Kind.rotateCa.steps[op.seq]? = some .settle := hca ▸ hname
      refine Kind.of_step hname ?_
      decide
    simp only [Progress, hseq]
  · cases hs

theorem TrustOk.node (h : TrustOk st) {name : String} {a : NodeAct} {n n' : Node}
    (hfind : st.nodes.find? (·.name = name) = some n)
    (hrestart : a = .restart → n.saved = n.desired)
    (hs : n.act (st.sent n) st.pendingTasks a = some n') :
    TrustOk { st with nodes := st.nodes.map fun m => if m.name = name then n' else m } := by
  have hmem := mem_of_find?_eq_some hfind
  have hcome : AllCome st.sent st.nodes
      (st.nodes.map fun m => if m.name = name then n' else m) := by
    intro m' hm'
    obtain ⟨m, hm, rfl⟩ := List.mem_map.mp hm'
    split
    · exact ⟨n, hmem, Node.comes_of_act hrestart hs⟩
    · exact ⟨m, hm, .refl⟩
  have htrusted : ∀ {cert : String}, Trusted st.secrets.caBundle st.nodes cert →
      Trusted st.secrets.caBundle (st.nodes.map fun m => if m.name = name then n' else m) cert :=
    fun ht => ⟨ht.now, ht.before.come hcome fun _ _ _ => ht.now⟩
  refine ⟨fun m' hm' => ?_, fun m' hm' hlive => htrusted (h.rows.come hcome m' hm' hlive),
    (h.held.come hcome h.rows).mono fun _ => htrusted,
    h.queued.come hcome (fun _ => mem_cons_self) fun _ => rfl⟩
  obtain ⟨m, hm, rfl⟩ := List.mem_map.mp hm'
  split
  · exact (h.ordered n hmem).act hrestart hs
  · exact h.ordered m hm

theorem TrustOk.setTask (h : TrustOk st) (t : Nat) (status : TaskStatus) :
    TrustOk (st.setTask t status) := by
  unfold State.setTask
  split
  · exact { h with }
  · exact h

theorem TrustOk.step {l : Label} (h : TrustOk st) (hcond : keepsTrust st l)
    (hs : st.step l = some st') : TrustOk st' := by
  cases l with
  | start =>
    obtain ⟨-, rfl⟩ := ite_some_none_eq_some.mp hs
    exact { h with queued := h.queued.start rfl le_rfl }
  | step =>
    simp only [State.step] at hs
    split at hs
    · next hops => exact h.runStep hops hcond hs
    · cases hs
  | fail =>
    simp only [State.step] at hs
    split at hs
    · next _ _ hops =>
      cases hs
      have hqueued := h.queued
      rw [hops] at hqueued
      exact h.failStep hqueued.2.2
    · cases hs
  | node name =>
    simp only [State.step] at hs
    split at hs
    · next n hfind =>
      obtain ⟨_, hact, rfl⟩ := map_eq_some_iff.mp hs
      refine h.node hfind (fun hrestart => ?_) hact
      subst hrestart
      have hcond := List.all_eq_true.mp hcond n (mem_of_find?_eq_some hfind)
      have hname : n.name = name := by simpa using find?_some hfind
      simpa [hname] using hcond
    · cases hs
  | runTask =>
    simp only [State.step] at hs
    split at hs
    · obtain ⟨-, hs⟩ := ite_none_right_eq_some.mp hs
      obtain ⟨_, -, rfl⟩ := map_eq_some_iff.mp hs
      exact { h with }
    · cases hs
  | alter =>
    obtain ⟨-, hs⟩ := ite_none_right_eq_some.mp hs
    obtain ⟨_, -, rfl⟩ := map_eq_some_iff.mp hs
    exact { h with }
  | alterFailed a | alterDone a =>
    obtain ⟨-, rfl⟩ := ite_some_none_eq_some.mp hs
    have herased : TrustOk { st with alters := st.alters.erase a } :=
      { h with }
    split
    · exact herased.setTask _ _
    · exact herased

theorem TrustOk.init (random : RandomMaterial) (ha : Bool) (names : List String) :
    TrustOk (init random ha names) := by
  have hnew : ∀ n ∈ (Secrets.init random ha names).nodes, ∃ name,
      n = Node.new random.caCertPem name := by
    intro n hn
    obtain ⟨name, -, rfl⟩ := List.mem_map.mp hn
    exact ⟨name, rfl⟩
  have hheld : ∀ {P}, Held (Secrets.init random ha names).nodes P := by
    intro P n hn _ s hs
    obtain ⟨name, rfl⟩ := hnew n hn
    cases hs
  refine ⟨fun n hn => ?_, fun n hn _ => ?_, hheld, trivial⟩
  · obtain ⟨name, rfl⟩ := hnew n hn
    exact ⟨nofun, nofun, nofun, .inl rfl, le_rfl, nofun⟩
  · obtain ⟨_, rfl⟩ := hnew n hn
    exact ⟨mem_cons_self, hheld⟩

theorem TrustOk.trusting (h : TrustOk st) : NodesTrustEachOther st :=
  fun n hn hlive m hm hlive' a ha b hb =>
    (h.held n hn hlive a (mem_held.mpr (.inr (.inr (.inr ha))))).before m hm hlive' b
      (mem_held.mpr (.inr (.inr (.inr hb))))

end Steps

/-! ## Runs -/

/-- Whatever operations run, fail and follow each other, no node refuses
another, as long as no rotation of the CA begins in the middle of another, or
goes on past a node that is behind. -/
theorem nodes_trust_each_other (random : RandomMaterial) (ha : Bool) (names : List String)
    {st : State}
    (h : (secretsMachine random ha names).Reaches (fun st l => keepsTrust st l = true) st) :
    NodesTrustEachOther st :=
  TrustOk.trusting (h.invariant (TrustOk.init random ha names)
    fun _ _ _ hst hcond hs => hst.step hcond hs)

/-- Every node gets the newest state and applies it. -/
def allApply (generation : Nat) : List Label :=
  polls "a" ++ polls "b" ++ applies "b" generation ++ applies "a" generation

def rotationRun : List Label :=
  allApply 1 ++ ([.start .rotateCa, .step (material 1)] : List Label) ++ allApply 2
    ++ ([.step (material 2), .step (material 3)] : List Label) ++ allApply 3
    ++ ([.step (material 4), .step (material 5)] : List Label) ++ allApply 4
    ++ ([.step (material 6), .step (material 7)] : List Label)

theorem nodes_trust_each_other_rotated :
    ∃ st, (secretsMachine (material 0) true ["a", "b"]).Reaches
        (fun st l => keepsTrust st l = true) st ∧ st.operations = []
      ∧ st.nodes.map (·.applied.map fun s => (s.cert, s.bundle))
        = [some ("ca 1", ["ca 1"]), some ("ca 1", ["ca 1"])]
      ∧ NodesTrustEachOther st := by
  obtain ⟨st, hst, hidle, happlied⟩ :=
    (secretsMachine (material 0) true ["a", "b"]).exists_run rotationRun (fun st =>
      st.operations = [] ∧ st.nodes.map (·.applied.map fun s => (s.cert, s.bundle))
        = [some ("ca 1", ["ca 1"]), some ("ca 1", ["ca 1"])]) (by decide +kernel)
  have hr := Machine.reaches_of_run (G := fun st l => keepsTrust st l = true)
    (by decide +kernel) hst
  exact ⟨st, hr, hidle, happlied, nodes_trust_each_other _ _ _ hr⟩

/-- A rotation fails at its first wait, and the next one forgets the CA that
has signed every certificate. -/
def secondRotationRun : List Label :=
  allApply 1
    ++ ([.start .rotateCa, .step (material 1), .fail, .start .rotateCa, .step (material 2)] :
      List Label)
    ++ allApply 3

/-- A wait passes over a node whose host is offline. -/
def nodeAwayRun : List Label :=
  allApply 1 ++ ([.node "b" (.seen true), .start .rotateCa, .step (material 1)] : List Label)
    ++ polls "a" ++ applies "a" 2 ++ ([.step (material 2), .step (material 3)] : List Label)
    ++ polls "a" ++ applies "a" 3

/-- An agent has not saved what it has applied, and applies an older state
when it is back. -/
def olderStateRun : List Label :=
  allApply 1 ++ ([.start .rotateCa, .step (material 1)] : List Label)
    ++ ([.build, .readTasks, .receive false].map (.node "b") : List Label) ++ applies "b" 2
    ++ polls "a" ++ applies "a" 2 ++ ([.step (material 2), .step (material 3)] : List Label)
    ++ polls "a" ++ applies "a" 3 ++ ([.node "b" .restart, .node "b" .apply] : List Label)

/-- A node whose certificate another does not trust. -/
def refused (st : State) : Bool :=
  st.nodes.any fun n => st.nodes.any fun m => !n.retracted && !m.retracted
    && n.applied.any fun a => m.applied.any fun b => a.cert ∉ b.bundle

theorem not_trusting_of_refused (st : State) (h : refused st) : ¬ NodesTrustEachOther st := by
  intro htrust
  obtain ⟨n, hn, h⟩ := List.any_eq_true.mp h
  obtain ⟨m, hm, h⟩ := List.any_eq_true.mp h
  simp only [Bool.and_eq_true, Bool.not_eq_true', Option.any_eq_true, decide_eq_true_eq] at h
  obtain ⟨⟨hlive, hlive'⟩, a, ha, b, hb, hcert⟩ := h
  exact hcert (htrust n hn hlive m hm hlive' a ha b hb)

theorem rotation_breaks_trust :
    (∃ st, (secretsMachine (material 0) true ["a", "b"]).run secondRotationRun = some st
      ∧ (secretsMachine (material 0) true ["a", "b"]).Reachable st ∧ ¬ NodesTrustEachOther st)
    ∧ (∃ st, (secretsMachine (material 0) true ["a", "b"]).run nodeAwayRun = some st
      ∧ (secretsMachine (material 0) true ["a", "b"]).Reachable st ∧ ¬ NodesTrustEachOther st)
    ∧ ∃ st, (secretsMachine (material 0) true ["a", "b"]).run olderStateRun = some st
      ∧ (secretsMachine (material 0) true ["a", "b"]).Reachable st ∧ ¬ NodesTrustEachOther st :=
  ⟨Machine.exists_of_run (by decide +kernel) not_trusting_of_refused,
    Machine.exists_of_run (by decide +kernel) not_trusting_of_refused,
    Machine.exists_of_run (by decide +kernel) not_trusting_of_refused⟩

end PgCluster.Secrets
