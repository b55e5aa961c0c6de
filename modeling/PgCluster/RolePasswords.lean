import PgCluster.SecretRotation

/-!
# The roles' passwords

Who can still move a role? A run of the task, and any host that has the task
or is about to get it. The invariant is about them all: each would move the
roles to the passwords on offer or, once these are committed, to the current
ones. So they may come in any order, and as often as they like.
-/

namespace PgCluster.Secrets

open List Option
open Admin (DatabaseSecrets NextPasswords RandomMaterial Kind StepName)

/-! ## What a host may move the roles to -/

def Offered (secrets : DatabaseSecrets) (p : NextPasswords) : Prop :=
  secrets.next = some p ∨ secrets.next = none ∧ rolesOf p = current secrets

variable {secrets secrets' : DatabaseSecrets} {stored stored' : Roles} {n n' : Node}
  {p q : NextPasswords} {a : Alter} {op : Operation} {queue : List Operation}

theorem Offered.eq_next {p next : NextPasswords}
    (h : Offered secrets p) (hnext : secrets.next = some next) : p = next := by
  rcases h with h | ⟨hnone, -⟩
  · exact Option.some.inj (h.symm.trans hnext)
  · exact nomatch hnone.symm.trans hnext

theorem Offered.rolesOf_eq
    (hp : Offered secrets p) (hq : Offered secrets q) : rolesOf p = rolesOf q := by
  rcases hq with hq | ⟨hnone, hq⟩
  · rw [hp.eq_next hq]
  · rcases hp with hp | ⟨-, hp⟩
    · exact nomatch hnone.symm.trans hp
    · exact hp.trans hq.symm

theorem mem_offers : p ∈ n.offers ↔ (∃ s, n.building = some s ∧ s.next = some p)
      ∨ ∃ s, (n.answer = some s ∨ n.desired = some s ∨ n.saved = some s)
        ∧ s.tasks ≠ [] ∧ s.next = some p := by
  simp only [Node.offers, mem_append, mem_toList, bind_eq_some_iff,
    mem_flatMap, mem_filterMap, mem_cons, not_mem_nil, or_false, id,
    exists_eq_right, mem_ite_nil_left, ne_eq, @eq_comm _ (some _)]

/-- An act brings a host no passwords but those on offer. -/
theorem offers_of_act {sent : Sent} {pending : List Nat} {a : NodeAct}
    (hs : n.act sent pending a = some n') (hp : p ∈ n'.offers) :
    p ∈ n.offers ∨ sent.next = some p := by
  cases a with
  | build =>
    obtain ⟨-, rfl⟩ := ite_some_none_eq_some.mp hs
    rcases mem_offers.mp hp with ⟨s, hs, hnext⟩ | hp
    · exact .inr (Option.some.inj hs ▸ hnext)
    · exact .inl (mem_offers.mpr (.inr hp))
  | readTasks =>
    obtain ⟨s₀, hbuilding, rfl⟩ := map_eq_some_iff.mp hs
    refine .inl (mem_offers.mpr ?_)
    rcases mem_offers.mp hp with ⟨s, hs, -⟩ | ⟨s, hs | hs, htasks, hnext⟩
    · cases hs
    · cases hs
      exact .inl ⟨s₀, hbuilding, hnext⟩
    · exact .inr ⟨s, .inr hs, htasks, hnext⟩
  | pollFailed =>
    cases hs
    refine .inl (mem_offers.mpr ?_)
    rcases mem_offers.mp hp with ⟨s, hs, -⟩ | ⟨s, hs | hs, hp⟩
    · cases hs
    · cases hs
    · exact .inr ⟨s, .inr hs, hp⟩
  | receive ok =>
    obtain ⟨s₀, hanswer, rfl⟩ := map_eq_some_iff.mp hs
    refine .inl (mem_offers.mpr ?_)
    rcases mem_offers.mp hp with hbuilding | ⟨s, hs | hs | hs, hoffer⟩
    · exact .inl hbuilding
    · cases hs
    · exact .inr ⟨s, .inl (hanswer.trans hs), hoffer⟩
    · cases ok with
      | true => exact .inr ⟨s, .inl (hanswer.trans hs), hoffer⟩
      | false => exact .inr ⟨s, .inr (.inr hs), hoffer⟩
  | apply =>
    obtain ⟨_, -, rfl⟩ := map_eq_some_iff.mp hs
    exact .inl hp
  | restart =>
    cases hs
    refine .inl (mem_offers.mpr ?_)
    rcases mem_offers.mp hp with ⟨s, hs, -⟩ | ⟨s, hs | hs | hs, hp⟩
    · cases hs
    · cases hs
    · exact .inr ⟨s, .inr (.inr hs), hp⟩
    · exact .inr ⟨s, .inr (.inr hs), hp⟩
  | reported =>
    obtain ⟨-, rfl⟩ := ite_some_none_eq_some.mp hs
    exact .inl hp
  | report | seen | retract =>
    cases hs
    exact .inl hp

/-! ## How far a run of the task is -/

structure Alter.Moved (a : Alter) (stored : Roles) : Prop where
  replication : 1 ≤ a.moved → stored.replication = a.next.replicationPassword
  auth : 2 ≤ a.moved → stored.auth = a.next.authPassword
  superuser : 3 ≤ a.moved → stored.superuser = a.next.superuserPassword

theorem Alter.Moved.stored_eq {a : Alter} (h : a.Moved stored)
    (hmoved : a.moved = 3) : stored = rolesOf a.next := by
  have hreplication := h.replication (by omega)
  have hauth := h.auth (by omega)
  have hsuperuser := h.superuser (by omega)
  cases stored
  simp only [rolesOf, Roles.mk.injEq]
  exact ⟨hsuperuser, hreplication, hauth⟩

section Moves

variable {b : Alter}

/-- A role at a time, and to the same passwords as any other run. -/
theorem Alter.Moved.move (hb : b.Moved stored) (hmove : a.move stored = some stored')
    (hsame : rolesOf b.next = rolesOf a.next) : b.Moved stored' := by
  obtain ⟨hsuperuser, hreplication, hauth⟩ := Roles.mk.inj hsame
  unfold Alter.move at hmove
  split at hmove
  · cases hmove
    exact ⟨fun _ => hreplication.symm, hb.auth, hb.superuser⟩
  · cases hmove
    exact ⟨hb.replication, fun _ => hauth.symm, hb.superuser⟩
  · cases hmove
    exact ⟨hb.replication, hb.auth, fun _ => hsuperuser.symm⟩
  · cases hmove

theorem Alter.Moved.moved (ha : a.Moved stored) (hmove : a.move stored = some stored') :
    ({ a with moved := a.moved + 1 } : Alter).Moved stored' := by
  unfold Alter.move at hmove
  split at hmove
  · next hmoved =>
    cases hmove
    refine ⟨fun _ => rfl, fun h => ?_, fun h => ?_⟩
    · simp only [hmoved] at h
      omega
    · simp only [hmoved] at h
      omega
  · next hmoved =>
    cases hmove
    refine ⟨fun _ => ha.replication (by omega), fun _ => rfl, fun h => ?_⟩
    simp only [hmoved] at h
    omega
  · next hmoved =>
    cases hmove
    exact ⟨fun _ => ha.replication (by omega), fun _ => ha.auth (by omega), fun _ => rfl⟩
  · cases hmove

end Moves

/-! ## The roles -/

theorem PasswordsKnown.of_current
    (h : stored = current secrets) : PasswordsKnown secrets stored := by
  subst h
  exact ⟨.inl rfl, .inl rfl, .inl rfl⟩

structure RolesOk (secrets : DatabaseSecrets) (nodes : List Node) (stored : Roles)
    (alters : List Alter) : Prop where
  known : PasswordsKnown secrets stored
  hosts : ∀ n ∈ nodes, ∀ p ∈ n.offers, Offered secrets p
  runs : ∀ a ∈ alters, Offered secrets a.next
  moved : ∀ a ∈ alters, a.Moved stored

section Roles

variable {nodes nodes' : List Node} {alters : List Alter}

theorem RolesOk.ca (h : RolesOk secrets nodes stored alters)
    (hcurrent : current secrets' = current secrets) (hnext : secrets'.next = secrets.next) :
    RolesOk secrets' nodes stored alters := by
  have hoffered : ∀ {p}, Offered secrets p → Offered secrets' p := by
    intro p hp
    unfold Offered
    rwa [hcurrent, hnext]
  obtain ⟨hsuperuser, hreplication, hauth⟩ := Roles.mk.inj hcurrent
  refine ⟨⟨?_, ?_, ?_⟩, fun n hn p hp => hoffered (h.hosts n hn p hp),
    fun a ha => hoffered (h.runs a ha), h.moved⟩
  · rw [hsuperuser, hnext]
    exact h.known.superuser
  · rw [hreplication, hnext]
    exact h.known.replication
  · rw [hauth, hnext]
    exact h.known.auth

theorem RolesOk.sent (h : RolesOk secrets nodes stored alters)
    (hnodes : ∀ n' ∈ nodes', ∀ p ∈ n'.offers, (∃ n ∈ nodes, p ∈ n.offers)
      ∨ secrets.next = some p) : RolesOk secrets nodes' stored alters := by
  refine { h with hosts := fun n' hn' p hp => ?_ }
  rcases hnodes n' hn' p hp with ⟨n, hn, hp⟩ | hnext
  · exact h.hosts n hn p hp
  · exact .inl hnext

theorem RolesOk.offer (hstored : stored = current secrets)
    (hoffers : ∀ n ∈ nodes, n.offers = []) (random : RandomMaterial) :
    RolesOk (secrets.passwordsOffer random) nodes stored [] := by
  refine ⟨.of_current hstored, fun n hn p hp => ?_, nofun, nofun⟩
  rw [hoffers n hn] at hp
  cases hp

section

variable (h : RolesOk secrets nodes stored alters)
include h

theorem RolesOk.commit (hcommit : secrets.passwordsCommit = some secrets')
    (hstored : ∀ next, secrets.next = some next → stored = rolesOf next) :
    RolesOk secrets' nodes stored alters := by
  obtain ⟨next, hnext, rfl⟩ := map_eq_some_iff.mp hcommit
  have hoffered : ∀ {p}, Offered secrets p → Offered { secrets with
      next := none
      superuserPassword := next.superuserPassword
      replicationPassword := next.replicationPassword
      authPassword := next.authPassword
      apiKey := next.apiKey } p :=
    fun hp => .inr ⟨rfl, congrArg rolesOf (hp.eq_next hnext)⟩
  exact ⟨.of_current (hstored next hnext), fun n hn p hp => hoffered (h.hosts n hn p hp),
    fun a ha => hoffered (h.runs a ha), h.moved⟩

theorem RolesOk.run (t : Nat) {next : NextPasswords}
    (hnext : Offered secrets next) : RolesOk secrets nodes stored (⟨t, next, 0⟩ :: alters) := by
  refine ⟨h.known, h.hosts, forall_mem_cons.mpr ⟨hnext, h.runs⟩,
    forall_mem_cons.mpr ⟨⟨?_, ?_, ?_⟩, h.moved⟩⟩
  all_goals intro hmoved; simp at hmoved

theorem RolesOk.erase : RolesOk secrets nodes stored (alters.erase a) :=
  ⟨h.known, h.hosts, fun b hb => h.runs b (mem_of_mem_erase hb),
    fun b hb => h.moved b (mem_of_mem_erase hb)⟩

end

theorem PasswordsKnown.move (h : PasswordsKnown secrets stored) (ha : Offered secrets a.next)
    (hmove : a.move stored = some stored') : PasswordsKnown secrets stored' := by
  unfold Alter.move at hmove
  rcases ha with hnext | ⟨-, hcurrent⟩
  · split at hmove
    · cases hmove
      exact ⟨h.superuser, .inr ⟨_, hnext, rfl⟩, h.auth⟩
    · cases hmove
      exact ⟨h.superuser, h.replication, .inr ⟨_, hnext, rfl⟩⟩
    · cases hmove
      exact ⟨.inr ⟨_, hnext, rfl⟩, h.replication, h.auth⟩
    · cases hmove
  · obtain ⟨hsuperuser, hreplication, hauth⟩ := Roles.mk.inj hcurrent
    split at hmove
    · cases hmove
      exact ⟨h.superuser, .inl hreplication, h.auth⟩
    · cases hmove
      exact ⟨h.superuser, h.replication, .inl hauth⟩
    · cases hmove
      exact ⟨.inl hsuperuser, h.replication, h.auth⟩
    · cases hmove

theorem RolesOk.move (h : RolesOk secrets nodes stored alters) (hmem : a ∈ alters)
    (hmove : a.move stored = some stored') : RolesOk secrets nodes stored'
      ({ a with moved := a.moved + 1 } :: alters.erase a) := by
  have ha := h.runs a hmem
  refine ⟨h.known.move ha hmove, h.hosts, forall_mem_cons.mpr ⟨ha, h.erase.runs⟩,
    forall_mem_cons.mpr ⟨(h.moved a hmem).moved hmove, fun b hb => ?_⟩⟩
  exact (h.erase.moved b hb).move hmove ((h.erase.runs b hb).rolesOf_eq ha)

end Roles

/-! ## The first operation -/

/-- Operations that have yet to begin. -/
def Fresh (queue : List Operation) : Prop := ∀ op ∈ queue, op.seq = 0 ∧ op.task = none

/-- Once its task has succeeded, Postgres has the passwords on offer, and an
operation commits them only then. -/
structure HeadOk (tasks : List TaskStatus) (next? : Option NextPasswords) (stored : Roles)
    (op : Operation) : Prop where
  early : op.seq < 2 → op.task = none
  succeeded : ∀ t, op.task = some t → tasks[t]? = some .succeeded →
    ∀ next, next? = some next → stored = rolesOf next
  commits : op.kind = .rotatePasswords → op.seq = 3 →
    ∃ t, op.task = some t ∧ tasks[t]? = some .succeeded

def QueueOk (tasks : List TaskStatus) (next? : Option NextPasswords) (stored : Roles) :
    List Operation → Prop
  | [] => True
  | op :: queue => HeadOk tasks next? stored op ∧ Fresh queue

structure PasswordsOk (st : State) : Prop where
  roles : RolesOk st.secrets st.nodes st.stored st.alters
  queue : QueueOk st.tasks st.secrets.next st.stored st.operations

section Queue

variable {tasks tasks' : List TaskStatus} {next? : Option NextPasswords}

theorem Fresh.queueOk (h : Fresh queue) : QueueOk tasks next? stored queue := by
  cases queue with
  | nil => trivial
  | cons =>
    obtain ⟨⟨hseq, htask⟩, h⟩ := forall_mem_cons.mp h
    refine ⟨⟨fun _ => htask, fun t ht => ?_, fun _ hthree => ?_⟩, h⟩
    · exact nomatch htask.symm.trans ht
    · exact nomatch hseq.symm.trans hthree

theorem QueueOk.start (h : QueueOk tasks next? stored queue) (hseq : op.seq = 0)
    (htask : op.task = none) : QueueOk tasks next? stored (queue ++ [op]) := by
  have hnew : Fresh [op] := fun o ho => mem_singleton.mp ho ▸ ⟨hseq, htask⟩
  cases queue with
  | nil => exact hnew.queueOk
  | cons => exact ⟨h.1, forall_mem_append.mpr ⟨h.2, hnew⟩⟩

theorem HeadOk.next (h : HeadOk tasks next? stored op) {target : Nat}
    (hcommits : op.kind = .rotatePasswords → op.seq + 1 = 3 →
      ∃ t, op.task = some t ∧ tasks[t]? = some .succeeded) :
    HeadOk tasks next? stored { op with seq := op.seq + 1, target := target } :=
  ⟨fun hseq => h.early (Nat.lt_of_succ_lt hseq), h.succeeded, hcommits⟩

theorem QueueOk.roles (h : QueueOk tasks next? stored queue)
    (hstored : ∀ next, next? = some next → stored = rolesOf next → stored' = rolesOf next) :
    QueueOk tasks next? stored' queue := by
  cases queue with
  | nil => trivial
  | cons =>
    refine ⟨⟨h.1.early, fun t ht hstatus next hnext => ?_, h.1.commits⟩, h.2⟩
    exact hstored next hnext (h.1.succeeded t ht hstatus next hnext)

theorem QueueOk.answered (h : QueueOk tasks next? stored queue)
    (hkept : ∀ t : Nat, tasks[t]? = some .succeeded → tasks'[t]? = some .succeeded)
    (hnew : ∀ t : Nat, tasks'[t]? = some .succeeded → tasks[t]? = some .succeeded
      ∨ ∀ next, next? = some next → stored = rolesOf next) : QueueOk tasks' next? stored queue := by
  cases queue with
  | nil => trivial
  | cons =>
    refine ⟨⟨h.1.early, fun t ht hstatus => ?_, fun hkind hseq => ?_⟩, h.2⟩
    · rcases hnew t hstatus with hold | hstored
      · exact h.1.succeeded t ht hold
      · exact hstored
    · obtain ⟨t, ht, hstatus⟩ := h.1.commits hkind hseq
      exact ⟨t, ht, hkept t hstatus⟩

end Queue

/-! ## Steps -/

section Steps

variable {st st' : State} {random : RandomMaterial} {t : Nat}

theorem PasswordsOk.finishStep (hroles : RolesOk st.secrets st.nodes st.stored st.alters)
    (hhead : HeadOk st.tasks st.secrets.next st.stored { op with seq := op.seq + 1 })
    (hfresh : Fresh queue) : PasswordsOk (st.finishStep op queue) := by
  refine ⟨hroles, ?_⟩
  unfold State.finishStep
  split
  · exact ⟨hhead, hfresh⟩
  · exact hfresh.queueOk

theorem PasswordsOk.setTask (h : PasswordsOk st) {status : TaskStatus}
    (hstored : status = .succeeded → ∀ next, st.secrets.next = some next →
      st.stored = rolesOf next) : PasswordsOk (st.setTask t status) := by
  unfold State.setTask
  split
  · next hpending =>
    have hlt := (List.getElem?_eq_some_iff.mp hpending).1
    refine ⟨h.roles, h.queue.answered (fun u hu => ?_) fun u hu => ?_⟩
    · have hne : t ≠ u := by
        rintro rfl
        exact nomatch hpending.symm.trans hu
      rwa [getElem?_set_ne hne]
    · by_cases heq : t = u
      · subst heq
        rw [getElem?_set_self hlt] at hu
        exact .inr (hstored (Option.some.inj hu))
      · rw [getElem?_set_ne heq] at hu
        exact .inl hu
  · exact h

theorem PasswordsOk.failStep (h : PasswordsOk st) (hfresh : Fresh queue) :
    PasswordsOk (st.failStep op queue) := by
  unfold State.failStep
  cases op.task with
  | none => exact ⟨h.roles, hfresh.queueOk⟩
  | some t =>
    have hset : PasswordsOk (st.setTask t .failed) := h.setTask nofun
    exact ⟨hset.roles, hfresh.queueOk⟩

theorem step?_eq_alter (hkind : op.kind = .rotatePasswords) (hseq : op.seq = 2) :
    op.step? = some .passwordsAlter := by
  simp only [Operation.step?, hkind, hseq]
  rfl

section

variable (h : PasswordsOk st)
include h

theorem PasswordsOk.runStep (hops : st.operations = op :: queue)
    (hcond : offersSafely st (.step random))
    (hs : st.runStep op queue random = some st') : PasswordsOk st' := by
  have hqueue := h.queue
  rw [hops] at hqueue
  obtain ⟨hhead, hfresh⟩ := hqueue
  -- the steps of another rotation are none that commits
  have hother (hkind : op.kind = .rotateCa) (target : Nat) : HeadOk st.tasks st.secrets.next
      st.stored { op with seq := op.seq + 1, target := target } :=
    hhead.next fun hpasswords => nomatch hkind.symm.trans hpasswords
  unfold State.runStep at hs
  unfold offersSafely State.next? at hcond
  simp only [hops, head?_cons, bind_some] at hcond
  split at hs
  · next hname =>
    have hkind := (Kind.place .caTrustBoth hname).1
    cases hs
    exact .finishStep (h.roles.ca rfl rfl) (hother hkind _) hfresh
  · next hname =>
    have hkind := (Kind.place .caIssue hname).1
    cases hs
    refine .finishStep (h.roles.sent fun n' hn' p hp => .inl ?_) (hother hkind _) hfresh
    obtain ⟨n, hn, rfl⟩ := List.mem_map.mp hn'
    refine ⟨n, hn, ?_⟩
    split at hp <;> exact hp
  · next hname =>
    have hkind := (Kind.place .caTrustNew hname).1
    cases hs
    exact .finishStep (h.roles.ca rfl rfl) (hother hkind _) hfresh
  · next hname =>
    obtain ⟨-, hseq⟩ := Kind.place .passwordsOffer hname
    simp only [hname, map_some, Bool.and_eq_true, decide_eq_true_eq, List.all_eq_true] at hcond
    obtain ⟨⟨hstored, halters⟩, hoffers⟩ := hcond
    cases hs
    have hnone : op.task = none := hhead.early (by omega)
    refine .finishStep ?_ ⟨fun _ => hnone, fun t ht => ?_, fun _ hthree => ?_⟩ hfresh
    · simp only [halters]
      exact .offer hstored hoffers random
    · exact nomatch hnone.symm.trans ht
    · simp only [hseq] at hthree
      omega
  · next hname =>
    obtain ⟨-, hseq⟩ := Kind.place .passwordsAlter hname
    split at hs
    · cases hs
      refine ⟨h.roles, ⟨fun hlt => ?_, fun t ht hstatus => ?_, fun _ hthree => ?_⟩, hfresh⟩
      · simp only [hseq] at hlt
        omega
      · -- the task has just been recorded
        cases ht
        simp at hstatus
      · simp only [hseq] at hthree
        omega
    · next t htask =>
      split at hs
      · next hstatus =>
        cases hs
        exact .finishStep h.roles (hhead.next fun _ _ => ⟨t, htask, hstatus⟩) hfresh
      · cases hs
        exact h.failStep hfresh
      · cases hs
  · next hname =>
    obtain ⟨hkind, hseq⟩ := Kind.place .passwordsCommit hname
    obtain ⟨t, htask, hstatus⟩ := hhead.commits hkind hseq
    obtain ⟨_, hcommit, rfl⟩ := map_eq_some_iff.mp hs
    refine .finishStep (h.roles.commit hcommit (hhead.succeeded t htask hstatus))
      ⟨fun hlt => ?_, fun _ _ _ next hnext => ?_, fun _ hthree => ?_⟩ hfresh
    · simp only [hseq] at hlt
      omega
    · obtain ⟨_, -, rfl⟩ := map_eq_some_iff.mp hcommit
      cases hnext
    · simp only [hseq] at hthree
      omega
  · next hname =>
    obtain ⟨-, rfl⟩ := ite_some_none_eq_some.mp hs
    refine .finishStep h.roles (hhead.next fun hkind hseq => ?_) hfresh
    exact nomatch (step?_eq_alter hkind (by omega)).symm.trans hname
  · next hname =>
    cases hs
    refine .finishStep h.roles (hhead.next fun hkind hseq => ?_) hfresh
    exact nomatch (step?_eq_alter hkind (by omega)).symm.trans hname
  · cases hs

theorem PasswordsOk.runTask (hn : n ∈ st.nodes) {s : Sent}
    (hdesired : n.desired = some s) (ht : t ∈ s.tasks) {next : NextPasswords}
    (hnext : s.next = some next) : PasswordsOk { st with alters := ⟨t, next, 0⟩ :: st.alters } := by
  refine ⟨h.roles.run t (h.roles.hosts n hn next (mem_offers.mpr (.inr ?_))), h.queue⟩
  exact ⟨s, .inr (.inl hdesired), ne_nil_of_mem ht, hnext⟩

theorem PasswordsOk.alter {a : Alter} (hmem : a ∈ st.alters)
    (hmove : a.move st.stored = some stored) : PasswordsOk { st with
      stored := stored
      alters := { a with moved := a.moved + 1 } :: st.alters.erase a } := by
  refine ⟨h.roles.move hmem hmove, h.queue.roles fun next hnext hstored => ?_⟩
  -- a role that is moved again gets what it has
  have heq := (h.roles.runs a hmem).eq_next hnext
  have hall : ({ a with moved := 3 } : Alter).Moved st.stored :=
    ⟨fun _ => heq ▸ congrArg Roles.replication hstored, fun _ => heq ▸ congrArg Roles.auth hstored,
      fun _ => heq ▸ congrArg Roles.superuser hstored⟩
  exact heq ▸ (hall.move hmove rfl).stored_eq rfl

theorem PasswordsOk.erase (a : Alter) : PasswordsOk { st with alters := st.alters.erase a } :=
  ⟨h.roles.erase, h.queue⟩

theorem PasswordsOk.step {l : Label} (hcond : offersSafely st l)
    (hs : st.step l = some st') : PasswordsOk st' := by
  cases l with
  | start =>
    obtain ⟨-, rfl⟩ := ite_some_none_eq_some.mp hs
    exact ⟨h.roles, h.queue.start rfl rfl⟩
  | step =>
    simp only [State.step] at hs
    split at hs
    · next hops => exact h.runStep hops hcond hs
    · cases hs
  | fail =>
    simp only [State.step] at hs
    split at hs
    · next _ _ hops =>
      cases hs
      have hqueue := h.queue
      rw [hops] at hqueue
      exact h.failStep hqueue.2
    · cases hs
  | node =>
    simp only [State.step] at hs
    split at hs
    · next n hfind =>
      obtain ⟨_, hact, rfl⟩ := map_eq_some_iff.mp hs
      refine ⟨h.roles.sent fun m' hm' p hp => ?_, h.queue⟩
      obtain ⟨m, hm, rfl⟩ := List.mem_map.mp hm'
      split at hp
      · rcases offers_of_act hact hp with hp | hnext
        · exact .inl ⟨n, mem_of_find?_eq_some hfind, hp⟩
        · exact .inr hnext
      · exact .inl ⟨m, hm, hp⟩
    · cases hs
  | runTask =>
    simp only [State.step] at hs
    split at hs
    · next s hfind =>
      obtain ⟨n, hfind, hdesired⟩ := bind_eq_some_iff.mp hfind
      obtain ⟨ht, hs⟩ := ite_none_right_eq_some.mp hs
      obtain ⟨next, hnext, rfl⟩ := map_eq_some_iff.mp hs
      exact h.runTask (mem_of_find?_eq_some hfind) hdesired ht hnext
    · cases hs
  | alter =>
    obtain ⟨hmem, hs⟩ := ite_none_right_eq_some.mp hs
    obtain ⟨_, hmove, rfl⟩ := map_eq_some_iff.mp hs
    exact h.alter hmem hmove
  | alterFailed a =>
    obtain ⟨-, rfl⟩ := ite_some_none_eq_some.mp hs
    split
    · exact (h.erase a).setTask nofun
    · exact h.erase a
  | alterDone a =>
    obtain ⟨⟨hmem, hmoved⟩, rfl⟩ := ite_some_none_eq_some.mp hs
    split
    · refine (h.erase a).setTask fun _ next hnext => ?_
      rw [← (h.roles.runs a hmem).eq_next hnext]
      exact (h.roles.moved a hmem).stored_eq hmoved
    · exact h.erase a

end

theorem PasswordsOk.init (random : RandomMaterial) (ha : Bool) (names : List String) :
    PasswordsOk (init random ha names) := by
  refine ⟨⟨.of_current rfl, fun n hn p hp => ?_, nofun, nofun⟩, trivial⟩
  obtain ⟨_, -, rfl⟩ := List.mem_map.mp hn
  cases hp

end Steps

/-! ## Runs -/

/-- A rotation up to its task, which the host of a node gets. -/
def taskGiven (i : Nat) : List Label :=
  polls "a" ++ applies "a" 1 ++ ([.start .rotatePasswords, .step (material i)] : List Label)
    ++ polls "a" ++ applies "a" 2 ++ ([.step (material i), .step (material i)] : List Label)
    ++ polls "a"

/-- Its run, up to this many roles. -/
def moves (i n : Nat) : List Label :=
  .runTask "a" 0 :: (List.range n).map fun moved => .alter ⟨0, (material i).passwords, moved⟩

def passwordsRun : List Label :=
  taskGiven 1 ++ moves 1 3 ++ ([.alterDone ⟨0, (material 1).passwords, 3⟩ true, .step (material 2),
      .step (material 2)] : List Label)
    ++ polls "a" ++ applies "a" 3 ++ ([.step (material 2), .step (material 2)] : List Label)

/-- A rotation fails when it has moved a role, and the next one forgets the
password that this role has. -/
def secondOfferRun : List Label :=
  taskGiven 1 ++ moves 1 1 ++ ([.fail, .start .rotatePasswords, .step (material 2)] : List Label)

/-- A host runs the task of a rotation that has failed. -/
def staleTaskRun : List Label :=
  taskGiven 1 ++ ([.fail, .start .rotatePasswords, .step (material 2)] : List Label) ++ moves 1 1

def lost (st : State) : Bool :=
  st.stored.replication ≠ st.secrets.replicationPassword
    && st.secrets.next.all fun next => st.stored.replication ≠ next.replicationPassword

theorem not_known_of_lost (st : State) (h : lost st) : ¬ PasswordsKnown st.secrets st.stored := by
  intro hknown
  simp only [lost, Bool.and_eq_true, decide_eq_true_eq, Option.all_eq_true] at h
  rcases hknown.replication with hcurrent | ⟨next, hnext, heq⟩
  · exact h.1 hcurrent
  · exact h.2 next hnext heq

end PgCluster.Secrets
