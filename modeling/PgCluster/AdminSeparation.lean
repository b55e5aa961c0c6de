import PgCluster.AdminActivation
import PgCluster.AdminCapacity

/-!
# Three nodes apart

A three-node database is placed on three hosts in three failure domains. A
replacement adds a node before its operation removes the old one, so while it
is under way there are four, of which those other than the old node are apart
(`DatabaseView.Separated`).

An operation that fails stays where it is. One that fails before the old node
is retracted leaves the database with four nodes for good, and the new one may
be in the failure domain of the old one (`replaceFails`).
-/

namespace PgCluster.Admin

open Tables Kind World List

/-! ## Nodes apart -/

structure Apart (F : Fleet) (nodes : List NodeRow) : Prop where
  three : nodes.length = HA_NODES
  numbers : (nodes.map (·.node)).Nodup
  known : ∀ n ∈ nodes, (F.domainOf n.host).isSome = true
  domains : (nodes.map fun n => F.domainOf n.host).Nodup

variable {X : Extension World Env Call} {F : Fleet} {c : Claimed} {H : Set Key} {o : Outcome}
  {id : String} {k kind : Kind} {i n old new port : Nat} {r x y : OpRow}

namespace Apart

variable {nodes : List NodeRow}

theorem hosts (h : Apart F nodes) : (nodes.map (·.host)).Nodup := by
  refine List.Nodup.of_map F.domainOf ?_
  rw [map_map]
  exact h.domains

/-- A new node takes the place of an old one, of which it may share the domain. -/
theorem replace (h : Apart F nodes) {new : NodeRow} {domain : String}
    (hold : ∃ n ∈ nodes, n.node = old) (hnumber : ∀ n ∈ nodes, n.node < new.node)
    (hdomain : F.domainOf new.host = some domain)
    (happart : ∀ n ∈ nodes, n.node ≠ old → F.domainOf n.host ≠ some domain) :
    Apart F ((nodes ++ [new]).filter (·.node ≠ old)) := by
  obtain ⟨m, hm, rfl⟩ := hold
  have hsub : (nodes.filter (·.node ≠ m.node)).Sublist nodes := filter_sublist
  have hnew : [new].filter (·.node ≠ m.node) = [new] :=
    filter_eq_self.mpr fun n hn => by
      rw [mem_singleton.mp hn]
      exact decide_eq_true (Nat.ne_of_gt (hnumber m hm))
  rw [filter_append, hnew]
  have hmem : ∀ {n : NodeRow}, n ∈ nodes.filter (·.node ≠ m.node) → n ∈ nodes ∧ n.node ≠ m.node :=
    fun hn => by simpa using hn
  refine ⟨?_, ?_, ?_, ?_⟩
  · -- exactly one node has the old number
    have hone : nodes.countP (·.node = m.node) = 1 := by
      have hcount := count_eq_one_of_mem h.numbers (mem_map_of_mem hm)
      rw [List.count, countP_map] at hcount
      rw [← hcount]
      exact countP_congr fun n _ => by simp
    have hrest := length_eq_countP_add_countP (fun n : NodeRow => decide (n.node = m.node))
      (l := nodes)
    have hlen : (nodes.filter (·.node ≠ m.node)).length
        = nodes.countP fun n => ¬ (decide (n.node = m.node)) := by
      rw [← countP_eq_length_filter]
      exact countP_congr fun n _ => by simp
    rw [length_append, length_singleton, hlen, ← h.three]
    omega
  · rw [map_append, map_singleton]
    refine List.Nodup.append ((hsub.map _).nodup h.numbers) (nodup_singleton _) ?_
    rw [disjoint_singleton]
    intro hin
    obtain ⟨n, hn, heq⟩ := mem_map.mp hin
    exact Nat.ne_of_lt (hnumber n (hmem hn).1) heq
  · intro n hn
    rcases mem_append.mp hn with hn | hn
    · exact h.known n (hmem hn).1
    · rw [mem_singleton.mp hn, hdomain]
      rfl
  · rw [map_append, map_singleton]
    refine List.Nodup.append ((hsub.map _).nodup h.domains) (nodup_singleton _) ?_
    rw [disjoint_singleton, hdomain]
    intro hin
    obtain ⟨n, hn, heq⟩ := mem_map.mp hin
    exact happart n (hmem hn).1 (hmem hn).2 heq

end Apart

theorem Fleet.domainOf_load {F : Fleet} {e : Env} {w : World} {h : HostLoad}
    (hload : h ∈ F.hostLoads e w) : F.domainOf h.host.id = some h.domain := by
  obtain ⟨row, hrow, rfl⟩ := mem_map.mp hload
  show (F.hosts.find? (·.id = row.id)).map _ = _
  rw [find?_of_nodup_map F.ids hrow]
  rfl

/-! ## One database -/

structure DatabaseView where
  ops : List OpRow
  row : Option DatabaseRow
  nodes : List NodeRow

def Tables.view (s : Tables World) (id : String) : DatabaseView :=
  ⟨s.opsOf id, s.world.db? id, s.world.nodesOf id⟩

def OpRow.oldPending (r : OpRow) : Bool :=
  r.active && r.kind = .replace && r.steps.any fun p => p.name = .retractOld && p.status = .pending

def replaceFails (ops : List OpRow) : Bool :=
  ops.any fun r => r.kind = .replace && r.steps.any fun p =>
    p.status = .failed && (p.name = .waitPeers || p.name = .replaceMember || p.name = .retractOld)

namespace DatabaseView

variable (F : Fleet) (v : DatabaseView)

def live : List NodeRow := v.nodes.filter fun n => !n.retracted

/-- A database that was activated and is not to be deleted, with no failure
that leaves its nodes behind. -/
structure Sound : Prop where
  activated : activates v.ops = true
  created : failsBehind v.ops = false
  replaced : replaceFails v.ops = false
  kept : ∀ r ∈ v.ops, r.kind ≠ .delete

/-- What the operations of a database say about its nodes. -/
structure Separated : Prop where
  idle : v.Sound → ∀ d, v.row = some d → d.ha = true → (∀ r ∈ v.ops, r.oldPending = false) →
    Apart F v.live
  replacing : v.Sound → ∀ d, v.row = some d → d.ha = true → ∀ r ∈ v.ops, r.oldPending = true →
    ∃ old, r.params.oldNode = some old ∧ Apart F (v.live.filter (·.node ≠ old))
  retracted : v.Sound → ∀ r ∈ v.ops, r.active = true → r.kind = .replace → r.oldPending = false →
    ∀ old, r.params.oldNode = some old → ∀ n ∈ v.live, n.node ≠ old
  -- a replacement is recorded when nothing else is under way
  first : ∀ r ∈ v.ops, r.active = true → r.kind = .replace → ∀ e ∈ v.ops, e.active = true →
    r.seq ≤ e.seq
  creating : ∀ r ∈ v.ops, r.active = true → r.kind.creates = true → activates v.ops = false
  replica : ∀ r ∈ v.ops, r.active = true → r.kind = .createReplica → ∀ d, v.row = some d →
    d.ha = false
  unplaced : ∀ r ∈ v.ops, r.active = true → r.kind = .create → r.unstarted → v.nodes = []
  placed : ∀ r ∈ v.ops, r.active = true → r.kind = .create → ¬ r.unstarted → ∀ d,
    v.row = some d → d.ha = true → Apart F v.live
  known : v.ops ≠ [] → v.row ≠ none
  -- a delete is final
  deleting : ∀ r ∈ v.ops, r.kind = .delete → (∀ d, v.row = some d →
    d.status.serving = false ∧ d.status ≠ .provisioning) ∧ ∀ e ∈ v.ops, e.active = true →
      e.kind = .delete

end DatabaseView

/-- Every database, with what is known of activations. -/
structure Separation (F : Fleet) (s : Tables World) : Prop where
  activation : Activation s
  separated : ∀ id, (s.view id).Separated F

theorem Kind.creates_cases (h : k.creates) : k = .create ∨ k = .createReplica := by
  cases k <;> first | exact .inl rfl | exact .inr rfl | cases h

theorem Kind.provisional_of_creates (h : k.creates) : k.provisional := by
  rcases creates_cases h with rfl | rfl <;> rfl

/-! ## What steps do to nodes -/

section Nodes

variable {a : Request Env Call} {e : Env} {s : Tables World} {w : World → World}
  {p : NodeRow → Bool} {v : World}

/-- How the commit of a step changes the nodes of its database. -/
inductive NodesChange (F : Fleet) (c : Claimed) (o : Outcome) (ha : Bool) (old : List NodeRow) :
    List NodeRow → Prop
  | same : (o = .done → ¬ (c.kind = .create ∧ c.idx = 0) ∧ ¬ (c.kind = .replace ∧ c.idx = 2)) →
      NodesChange F c o ha old old
  | placed (rows : List NodeRow) : c.kind = .create → c.idx = 0 →
      (∀ n ∈ rows, n.retracted = false) → (o = .done → ha = true → Apart F rows) →
      NodesChange F c o ha old (old ++ rows)
  | replicaPlaced {new : List NodeRow} : c.kind = .createReplica → NodesChange F c o ha old new
  | deleting {new : List NodeRow} : c.kind = .delete → NodesChange F c o ha old new
  | removed {new : List NodeRow} (node : Nat) : c.kind = .replace → c.idx = 2 ∨ c.idx = 4 →
      o = .done → c.params.oldNode = some node →
      (new.filter fun n => !n.retracted)
        = (old.filter fun n => !n.retracted).filter (·.node ≠ node) → NodesChange F c o ha old new

/-- The rows of a placement that has found a port on every host. -/
theorem Chosen.apart_rows {size : Resources} {avoid : List String} {chosen : List HostLoad}
    {rows : List NodeRow} (h : Chosen X F a e H s size avoid chosen)
    (hlen : chosen.length = HA_NODES) (hrows : PlacedOn c.database chosen rows)
    (hall : rows.map (·.host) = chosen.map (·.host.id)) : Apart F rows := by
  obtain ⟨_, _, -, -, hloads⟩ := h.loads
  have hdomains : (rows.map fun n => F.domainOf n.host) = chosen.map fun h => some h.domain := by
    calc (rows.map fun n => F.domainOf n.host)
        = (rows.map (·.host)).map F.domainOf := by rw [map_map]; rfl
      _ = (chosen.map (·.host.id)).map F.domainOf := by rw [hall]
      _ = chosen.map fun h => some h.domain := by
        rw [map_map]
        exact map_congr_left fun h hh => Fleet.domainOf_load (hloads h hh)
  refine ⟨?_, hrows.numbers, fun n hn => ?_, ?_⟩
  · rw [← length_map (·.host), hall, length_map, hlen]
  · have hmem : F.domainOf n.host ∈ chosen.map fun h => some h.domain :=
      hdomains ▸ mem_map_of_mem hn
    obtain ⟨h, -, heq⟩ := mem_map.mp hmem
    rw [← heq]
    rfl
  · rw [hdomains]
    exact pairwise_map.mpr (h.apart.imp fun hne heq => hne (Option.some.inj heq))

theorem live_retract (hp : ∀ n, p n ↔ n.database = id ∧ n.node = old) :
    (((v.retract p).nodesOf id).filter fun n => !n.retracted)
      = ((v.nodesOf id).filter fun n => !n.retracted).filter (·.node ≠ old) := by
  let stays (n : NodeRow) : Bool := !n.retracted && n.database = id && n.node ≠ old
  have hafter : ∀ n ∈ (v.retract p).nodes,
      (!n.retracted && decide (n.database = id)) = stays n := by
    intro n hn
    obtain ⟨m, _, rfl⟩ := mem_map.mp hn
    by_cases hpm : p m
    · simp [stays, hpm]
    · have hnot : m.database = id → m.node ≠ old := fun hdb hnode => hpm ((hp m).mpr ⟨hdb, hnode⟩)
      by_cases hdb : m.database = id
      · simp [stays, hpm, hdb, hnot hdb]
      · simp [stays, hpm, hdb]
  have hsame : (v.retract p).nodes.filter stays = v.nodes.filter stays := by
    refine filter_map_eq_filter fun n _ => ?_
    by_cases hpn : p n
    · exact .inr (by simp [stays, hpn, (hp n).mp hpn])
    · exact .inl (if_neg hpn)
  calc (((v.retract p).nodesOf id).filter fun n => !n.retracted)
      = (v.retract p).nodes.filter stays := by
        rw [nodesOf, filter_filter]
        exact filter_congr hafter
    _ = v.nodes.filter stays := hsame
    _ = ((v.nodesOf id).filter fun n => !n.retracted).filter (·.node ≠ old) := by
        rw [nodesOf, filter_filter, filter_filter]
        refine filter_congr fun n _ => ?_
        simp only [stays]
        cases n.retracted <;> simp [Bool.and_comm]

theorem live_dropNodes (hp : ∀ n, p n ↔ n.database = id ∧ n.node = old) :
    (((v.dropNodes p).nodesOf id).filter fun n => !n.retracted)
      = ((v.nodesOf id).filter fun n => !n.retracted).filter (·.node ≠ old) := by
  show (((v.nodes.filter _).filter _).filter _) = _
  rw [nodesOf, filter_filter, filter_filter, filter_filter, filter_filter]
  refine filter_congr fun n _ => ?_
  have hpn : p n = (decide (n.database = id) && decide (n.node = old)) := by
    rw [Bool.eq_iff_iff, hp]
    simp
  rw [hpn]
  cases n.retracted <;> by_cases hdb : n.database = id <;> simp [hdb]

theorem StepCommit.nodesChange (h : StepCommit X F a e c H s o w) {d : DatabaseRow}
    (hd : s.world.db? c.database = some d) (hstep : c.kind.steps[c.idx]? = some c.name) :
    NodesChange F c o d.ha (s.world.nodesOf c.database) ((w s.world).nodesOf c.database) := by
  -- a step under another name than those that place and retract
  have hsame : (o = .done → c.name ≠ .place ∧ c.name ≠ .retractOld) →
      NodesChange F c o d.ha (s.world.nodesOf c.database) (s.world.nodesOf c.database) := by
    refine fun hname => .same fun ho => ⟨fun ⟨hkind, hidx⟩ => ?_, fun ⟨hkind, hidx⟩ => ?_⟩
    · rw [hkind, hidx] at hstep
      exact (hname ho).1 (Option.some.inj hstep).symm
    · rw [hkind, hidx] at hstep
      exact (hname ho).2 (Option.some.inj hstep).symm
  cases h with
  | quiet _ hquiet =>
    refine hsame fun ho => ⟨fun hname => ?_, fun hname => ?_⟩
    · exact hquiet ho (hname ▸ by decide)
    · exact hquiet ho (hname ▸ by decide)
  | activate hname | promote hname => exact hsame fun _ => by simp [hname]
  | secrets _ hname =>
    refine hsame fun _ => ⟨fun h => ?_, fun h => ?_⟩
    · exact absurd (h ▸ hname) (by decide)
    · exact absurd (h ▸ hname) (by decide)
  | finalize hname => exact .deleting (Kind.place .finalize (hname ▸ hstep)).1
  | replicaPlaced _ _ _ _ _ _ hname =>
    exact .replicaPlaced (Kind.place .placeReplica (hname ▸ hstep)).1
  | placed _ _ _ rows hname _ hrow hchosen hrows hw hlen hall =>
    obtain ⟨hkind, hidx⟩ := Kind.place .place (hname ▸ hstep)
    cases hrow.symm.trans hd
    have hnodes : (w s.world).nodesOf c.database = s.world.nodesOf c.database ++ rows := by
      rw [hw]
      show (s.world.nodes ++ rows).filter _ = _
      rw [filter_append, filter_eq_self (l := rows) |>.mpr]
      · rfl
      · exact fun n hn => decide_eq_true (hrows.database n hn)
    rw [hnodes]
    refine .placed rows hkind hidx hrows.live fun ho hha => ?_
    rw [if_pos hha] at hlen
    exact hchosen.apart_rows hlen hrows (hall ho)
  | retracted _ hp hname =>
    rcases hname with hname | ⟨hname, old, hold, hp⟩
    · exact .deleting (Kind.place .retract (hname ▸ hstep)).1
    · obtain ⟨hkind, hidx⟩ := Kind.place .retractOld (hname ▸ hstep)
      exact .removed old hkind (.inl hidx) rfl hold (live_retract hp)
  | dropped _ _ hname hold =>
    obtain ⟨old, hold, hp⟩ := hold
    obtain ⟨hkind, hidx⟩ := Kind.place .dropOld (hname ▸ hstep)
    exact .removed old hkind (.inr hidx) rfl hold (live_dropNodes hp)

end Nodes

/-! ## Steps -/

section Rows

variable {ω : Type} {s s' : Tables ω} {w : ω → ω} {onFail : Claimed → ω → ω}

theorem OwnRow.activated_of_settle (hy : OwnRow c s y) (hledger : Ledger s)
    (h : (s.settle onFail c o w).activated id) :
    s.activated id ∨ c.mark o = .done ∧ c.name = .activate := by
  obtain ⟨x, hx, hdb, hact⟩ := activated_iff.mp h
  rcases hy.mem_settle hledger hx with ⟨hold, -⟩ | rfl
  · exact .inl (activated_iff.mpr ⟨x, hold, hdb, hact⟩)
  obtain ⟨p, hp, hname, hdone⟩ := OpRow.activated_iff.mp hact
  obtain ⟨i, hi⟩ := mem_iff_getElem?.mp hp
  have hlt := ((hy.progress' o).done i p hi).mp hdone
  have hnames : c.kind.steps[i]? = some .activate := by
    rw [← hy.kind' o, ← hy.names' o, getElem?_map, hi, ← hname]
    rfl
  by_cases hidx : i = c.idx
  · subst hidx
    have hmark : c.mark o = .done := by
      by_contra hmark
      rw [if_neg hmark] at hlt
      exact Nat.lt_irrefl _ hlt
    exact .inr ⟨hmark, Option.some.inj (hy.name.symm.trans hnames)⟩
  · -- an earlier step was done before
    have hbefore : i < c.idx := by split at hlt <;> omega
    rw [← hy.kind, ← hy.names, getElem?_map] at hnames
    obtain ⟨q, hq, hqname⟩ := Option.map_eq_some_iff.mp hnames
    exact .inl (activated_iff.mpr ⟨y, hy.mem,
      hy.database.trans ((hy.database' o).symm.trans hdb), OpRow.activated_iff.mpr
        ⟨q, mem_of_getElem? hq, hqname, (hy.progress.done i q hq).mpr hbefore⟩⟩)

theorem Evolves.replaceFails (h : Evolves H s s') (hnot : replaceFails (s'.opsOf id) = false) :
    replaceFails (s.opsOf id) = false := by
  refine Bool.eq_false_iff.mpr fun hs => Bool.eq_false_iff.mp hnot ?_
  simp only [Admin.replaceFails, any_eq_true, Bool.and_eq_true, decide_eq_true_eq,
    mem_opsOf] at hs ⊢
  obtain ⟨r, ⟨hr, hdb⟩, hkind, p, hp, hfailed, hname⟩ := hs
  obtain ⟨r', hr', hrow⟩ := h.old r hr
  obtain ⟨p', hp', hname', hstatus⟩ := hrow.step_mem hp (by rw [hfailed]; nofun)
  refine ⟨r', ⟨hr', hrow.database.trans hdb⟩, hrow.kind.trans hkind, p', hp',
    hstatus.trans hfailed, ?_⟩
  rw [hname']
  exact hname

/-- An active replacement has still to retract the old node as long as no more
than two of its steps are done. -/
theorem oldPending_iff (hactive : r.active)
    (hkind : r.kind = .replace) (hnames : r.steps.map (·.name) = r.kind.steps)
    (hn : r.Progress n) : r.oldPending ↔ n ≤ 2 := by
  have hname : ∀ i : Nat, (r.steps[i]?).map StepRow.name = replace.steps[i]? := by
    intro i
    rw [← hkind, ← hnames, getElem?_map]
  simp only [OpRow.oldPending, hactive, hkind, decide_true, Bool.true_and, any_eq_true,
    Bool.and_eq_true, decide_eq_true_eq]
  constructor
  · rintro ⟨p, hp, hpname, hpending⟩
    obtain ⟨i, hi⟩ := mem_iff_getElem?.mp hp
    have hplace := hname i
    rw [hi, Option.map_some, hpname] at hplace
    obtain rfl : i = 2 := of_step hplace.symm (by decide)
    refine Nat.le_of_not_lt fun hlt => ?_
    rw [(hn.done 2 p hi).mpr hlt] at hpending
    cases hpending
  · intro hle
    obtain ⟨p, hp, hpname⟩ := Option.map_eq_some_iff.mp (hname 2)
    exact ⟨p, mem_of_getElem? hp, hpname, (hn.active hactive).2 2 p hp hle⟩

end Rows

section Steps

variable {a : Request Env Call} {e : Env} {s s' : Tables World} {w : World → World}

theorem DatabaseView.Sound.before (h : (s'.view id).Sound) (hev : Evolves Set.univ s s')
    (hact : s.activated id) : (s.view id).Sound := by
  refine ⟨hact, hev.failedBehind h.created, hev.replaceFails h.replaced, fun r hr hkind => ?_⟩
  obtain ⟨hr, hdb⟩ := mem_opsOf.mp hr
  obtain ⟨r', hr', hrow⟩ := hev.old r hr
  exact h.kept r' (mem_opsOf.mpr ⟨hr', hrow.database.trans hdb⟩) (hrow.kind.trans hkind)

theorem opsOf_settle (hy : OwnRow c s y) (hledger : Ledger s) (hid : id ≠ c.database) :
    (s.settle onFail c o w).opsOf id = s.opsOf id := by
  refine filter_map_eq_filter fun r hr => ?_
  by_cases hseq : r.seq = c.op
  · obtain rfl := hledger.row_unique hr hy.mem (hseq.trans hy.seq.symm)
    refine .inr ?_
    rw [if_pos hseq, hy.database', hy.database]
    simp [Ne.symm hid]
  · exact .inl (if_neg hseq)

theorem OpRow.oldPending_replace (h : r.oldPending) : r.active ∧ r.kind = .replace := by
  simp only [OpRow.oldPending, Bool.and_eq_true, decide_eq_true_eq] at h
  exact h.1

namespace OwnRow

variable (h : OwnRow c s y)
include h

theorem oldPending (hkind : c.kind = .replace) : y.oldPending ↔ c.idx ≤ 2 :=
  oldPending_iff h.active (h.kind.trans hkind) h.names h.progress

theorem oldPending' (hkind : c.kind = .replace) (hactive : (c.settle o y).active) :
    (c.settle o y).oldPending ↔ (if c.mark o = .done then c.idx + 1 else c.idx) ≤ 2 :=
  oldPending_iff hactive ((h.kind' o).trans hkind) (h.names' o) (h.progress' o)

theorem oldPending_settle (hpending : y.oldPending) (hmark : c.mark o ≠ .failed)
    (hidx : c.mark o = .done → c.idx ≠ 2) : (c.settle o y).oldPending := by
  have hkind : c.kind = .replace := h.kind.symm.trans (OpRow.oldPending_replace hpending).2
  have hle := (h.oldPending hkind).mp hpending
  have hle' : (if c.mark o = .done then c.idx + 1 else c.idx) ≤ 2 := by
    split
    · next hdone =>
      have hne := hidx hdone
      omega
    · exact hle
  refine (h.oldPending' hkind ?_).mpr hle'
  refine (Claimed.settle_active y hmark).resolve_right fun hended => ?_
  have hend := (h.progress' o).succeeded hended
  have hlen : (c.settle o y).steps.length = 7 := by
    rw [h.length', hkind]
    rfl
  omega

theorem eq_of_replace (hv : (s.view c.database).Separated F) (hledger : Ledger s)
    (hr : r ∈ s.opsOf c.database) (hactive : r.active) (hkind : r.kind = .replace) : r = y := by
  have hle := hv.first r hr hactive hkind y (mem_opsOf.mpr ⟨h.mem, h.database⟩) h.active
  obtain ⟨hr, hdb⟩ := mem_opsOf.mp hr
  rw [h.seq] at hle
  have hge : c.op ≤ r.seq := Nat.le_of_not_lt fun hlt => by
    rw [h.alone r hr hdb hlt] at hactive
    cases hactive
  exact hledger.row_unique hr h.mem ((Nat.le_antisymm hle hge).trans h.seq.symm)

end OwnRow

structure StepView (F : Fleet) (c : Claimed) (o : Outcome) (s s' : Tables World) (y : OpRow)
    (d d' : DatabaseRow) : Prop where
  own : OwnRow c s y
  before : y ∈ s.opsOf c.database
  after : c.settle o y ∈ s'.opsOf c.database
  mem : ∀ {x}, x ∈ s'.opsOf c.database → x ∈ s.opsOf c.database ∧ x.seq ≠ c.op ∨ x = c.settle o y
  evolves : Evolves Set.univ s s'
  activated : s'.activated c.database = true →
    s.activated c.database = true ∨ c.mark o = .done ∧ c.name = .activate
  row : s.world.db? c.database = some d
  row' : s'.world.db? c.database = some d'
  ha : d'.ha = d.ha
  status : StatusChange c o d.status d'.status
  nodes : NodesChange F c o d.ha (s.world.nodesOf c.database) (s'.world.nodesOf c.database)
  quiet : (∃ message, o = .wait message) → s'.world.nodesOf c.database = s.world.nodesOf c.database

theorem StepCommit.view (h : StepCommit X F a e c H s o w) (hl : Lifecycle s) (hledger : Ledger s)
    (hrun : Running c s) : ∃ y d d', StepView F c o s (s.settle onFail c o w) y d d' := by
  obtain ⟨f, hf, hrows⟩ := h.settle
  obtain ⟨d, hd, -⟩ := hl.running hrun
  obtain ⟨y, hy⟩ := hrun.own hledger
  have hnodes : (s.settle onFail c o w).world.nodesOf c.database = (w s.world).nodesOf c.database :=
    congrArg (List.filter _) (StepCommit.settle_nodes c o w)
  refine ⟨y, d, f d, hy, mem_opsOf.mpr ⟨hy.mem, hy.database⟩,
    mem_opsOf.mpr ⟨hy.mem' o, hy.database' o⟩, fun {x} hx => ?_, hrun.evolves hledger,
    hy.activated_of_settle hledger, hd, (Updates.of_update hrows hf.id hd).self, hf.ha d,
    hf.status d, ?_, ?_⟩
  · obtain ⟨hx, hdb⟩ := mem_opsOf.mp hx
    exact (hy.mem_settle hledger hx).imp_left fun ⟨hold, hseq⟩ => ⟨mem_opsOf.mpr ⟨hold, hdb⟩, hseq⟩
  · rw [hnodes]
    exact h.nodesChange hd hy.name
  · rintro ⟨_, rfl⟩
    rw [hnodes, h.wait_writes_nothing]

section Settle

variable {d d' : DatabaseRow} (h : StepView F c o s s' y d d')
  (hs : Separation F s) (hledger : Ledger s)
include h

theorem StepView.replaceFails (hkind : c.kind = .replace) (hidx : c.idx ≤ 2)
    (hmark : c.mark o = .failed) : Admin.replaceFails (s'.opsOf c.database) := by
  have hname := h.own.name
  obtain ⟨p, hp, hpname⟩ := h.own.step
  obtain ⟨p', hp', hname', -, hfailed⟩ := Claimed.settle_step hp
  simp only [Admin.replaceFails, any_eq_true, Bool.and_eq_true, Bool.or_eq_true, decide_eq_true_eq]
  refine ⟨c.settle o y, h.after, (h.own.kind' o).trans hkind, p', hp', hfailed hmark, ?_⟩
  rw [hname', hpname]
  rw [hkind] at hname
  have hall : ∀ i ≤ 2, ∀ name, replace.steps[i]? = some name →
      (name = .waitPeers ∨ name = .replaceMember) ∨ name = .retractOld := by decide
  exact hall _ hidx _ hname

include hs

theorem StepView.not_creates (hact : s.activated c.database) : c.kind.creates ≠ true := by
  intro hcreates
  have hfalse := (hs.separated c.database).creating y h.before h.own.active (h.own.kind ▸ hcreates)
  rw [show activates (s.view c.database).ops = true from hact] at hfalse
  cases hfalse

include hledger

section

variable (hsound : (s'.view c.database).Sound)
include hsound

/-- Nodes stay apart until a replacement starts, and are so again when the old
node is retracted. -/
theorem StepView.idle (hact : s.activated c.database) (hha : d.ha)
    (hnone : (c.settle o y).oldPending = false) : Apart F (s'.view c.database).live := by
  have hv := hs.separated c.database
  have hsound₀ := hsound.before h.evolves hact
  have hidle : y.oldPending = false → Apart F (s.view c.database).live := by
    refine fun hnot => hv.idle hsound₀ d h.row hha fun r hr => ?_
    refine Bool.eq_false_iff.mpr fun hpending => ?_
    obtain ⟨hactive, hkind⟩ := OpRow.oldPending_replace hpending
    rw [h.own.eq_of_replace hv hledger hr hactive hkind, hnot] at hpending
    cases hpending
  have hnodes := h.nodes
  show Apart F ((s'.world.nodesOf c.database).filter _)
  generalize s'.world.nodesOf c.database = nodes at hnodes
  cases hnodes with
  | same hok =>
    refine hidle (Bool.eq_false_iff.mpr fun hpending => ?_)
    have hkind := h.own.kind.symm.trans (OpRow.oldPending_replace hpending).2
    by_cases hmark : c.mark o = .failed
    · have hfails := h.replaceFails hkind ((h.own.oldPending hkind).mp hpending) hmark
      exact Bool.eq_false_iff.mp hsound.replaced hfails
    · have hstill := h.own.oldPending_settle hpending hmark fun hdone hidx =>
        (hok (Claimed.mark_eq_done.mp hdone)).2 ⟨hkind, hidx⟩
      exact Bool.eq_false_iff.mp hnone hstill
  | placed _ hkind | replicaPlaced hkind => exact (h.not_creates hs hact (by rw [hkind]; rfl)).elim
  | deleting hkind => exact (hsound₀.kept y h.before (h.own.kind.trans hkind)).elim
  | removed node hkind hidx _ hnode hlive =>
    rw [hlive]
    rcases hidx with hidx | hidx
    · obtain ⟨_, hold, hapart⟩ := hv.replacing hsound₀ d h.row hha y h.before
        ((h.own.oldPending hkind).mpr hidx.le)
      rw [h.own.params, hnode] at hold
      cases hold
      exact hapart
    · -- the old node was retracted two steps ago
      have hnot : y.oldPending = false := Bool.eq_false_iff.mpr fun hpending => by
        have hle := (h.own.oldPending hkind).mp hpending
        omega
      have hgone := hv.retracted hsound₀ y h.before h.own.active (h.own.kind.trans hkind) hnot
        node (h.own.params ▸ hnode)
      have hsame : (s.view c.database).live.filter (·.node ≠ node) = (s.view c.database).live :=
        filter_eq_self.mpr fun n hn => decide_eq_true (hgone n hn)
      exact hsame ▸ hidle hnot

omit hledger in
theorem StepView.first_activated (hact : s.activated c.database ≠ true) (hha : d.ha) :
    Apart F (s'.view c.database).live := by
  have hv := hs.separated c.database
  obtain ⟨_, hname⟩ := (h.activated hsound.activated).resolve_left hact
  have hstep := h.own.name
  rw [hname] at hstep
  obtain ⟨hprov, _⟩ := Kind.place .activate hstep
  have hidx : c.idx ≠ 0 := by
    intro h
    rw [h] at hstep
    cases hk : c.kind <;> rw [hk] at hstep <;> cases hstep
  have hcreate : c.kind = .create := by
    rcases creates_or_promotes hprov with hcreates | hpromotes
    · refine (creates_cases hcreates).resolve_right fun hreplica => ?_
      rw [hv.replica y h.before h.own.active (h.own.kind.trans hreplica) d h.row] at hha
      cases hha
    · have hactivated := hs.activation.promoted y h.own.mem (h.own.kind.trans hpromotes)
        (h.own.database ▸ h.evolves.failedBehind hsound.created)
      exact (hact (h.own.database ▸ hactivated)).elim
  have happart := hv.placed y h.before h.own.active (h.own.kind.trans hcreate)
    (fun hunstarted => hidx (h.own.progress.eq_zero hunstarted)) d h.row hha
  have hnodes := h.nodes
  show Apart F ((s'.world.nodesOf c.database).filter _)
  generalize s'.world.nodesOf c.database = nodes at hnodes
  cases hnodes with
  | same => exact happart
  | placed _ _ hzero => exact (hidx hzero).elim
  | replicaPlaced hkind | deleting hkind | removed _ hkind =>
    rw [hcreate] at hkind
    cases hkind

omit hledger in
theorem StepView.replacing (hact : s.activated c.database) (hha : d.ha)
    (hpending : (c.settle o y).oldPending) : ∃ old, (c.settle o y).params.oldNode = some old
        ∧ Apart F ((s'.view c.database).live.filter (·.node ≠ old)) := by
  obtain ⟨hactive, hkind⟩ := OpRow.oldPending_replace hpending
  rw [h.own.kind'] at hkind
  have hle := (h.own.oldPending' hkind hactive).mp hpending
  have hidx : c.idx ≤ 2 := by split at hle <;> omega
  obtain ⟨old, hold, happart⟩ := (hs.separated c.database).replacing
    (hsound.before h.evolves hact) d h.row hha y h.before ((h.own.oldPending hkind).mpr hidx)
  refine ⟨old, by rw [h.own.params', ← h.own.params, hold], ?_⟩
  have hnodes := h.nodes
  show Apart F (((s'.world.nodesOf c.database).filter _).filter _)
  generalize s'.world.nodesOf c.database = nodes at hnodes
  cases hnodes with
  | same => exact happart
  | placed _ hother | replicaPlaced hother | deleting hother =>
    rw [hkind] at hother
    cases hother
  | removed _ _ _ ho =>
    rw [if_pos (Claimed.mark_eq_done.mpr ho)] at hle
    omega

omit hledger in
theorem StepView.retracted (hact : s.activated c.database) (hactive : (c.settle o y).active)
    (hkind : c.kind = .replace) (hnot : (c.settle o y).oldPending = false)
    (hold : c.params.oldNode = some old) : ∀ n ∈ (s'.view c.database).live, n.node ≠ old := by
  have hlt : ¬ (if c.mark o = .done then c.idx + 1 else c.idx) ≤ 2 := fun hle =>
    Bool.eq_false_iff.mp hnot ((h.own.oldPending' hkind hactive).mpr hle)
  -- from the fourth step on it was so before
  have hbefore : c.idx ≠ 2 → ∀ n ∈ (s.view c.database).live, n.node ≠ old := by
    intro _
    refine (hs.separated c.database).retracted (hsound.before h.evolves hact) y h.before
      h.own.active (h.own.kind.trans hkind) (Bool.eq_false_iff.mpr fun hpending => ?_) old
      (h.own.params ▸ hold)
    have hle := (h.own.oldPending hkind).mp hpending
    split at hlt <;> omega
  have hnodes := h.nodes
  show ∀ n ∈ (s'.world.nodesOf c.database).filter _, n.node ≠ old
  generalize s'.world.nodesOf c.database = nodes at hnodes
  cases hnodes with
  | same hok =>
    refine hbefore fun hidx => ?_
    by_cases hdone : c.mark o = .done
    · exact (hok (Claimed.mark_eq_done.mp hdone)).2 ⟨hkind, hidx⟩
    · rw [if_neg hdone] at hlt
      omega
  | placed _ hother | replicaPlaced hother | deleting hother =>
    rw [hkind] at hother
    cases hother
  | removed _ _ _ _ hnode hlive =>
    cases hold.symm.trans hnode
    intro n hn
    rw [hlive] at hn
    exact of_decide_eq_true (mem_filter.mp hn).2

end

omit hledger in
theorem StepView.placed (hkind : c.kind = .create) (hactive : (c.settle o y).active)
    (hstarted : ¬ (c.settle o y).unstarted) (hha : d.ha) : Apart F (s'.view c.database).live := by
  have hv := hs.separated c.database
  have hkind' := h.own.kind.trans hkind
  have hdone : c.idx = 0 → c.mark o = .done := by
    intro hzero
    by_contra hdone
    have hprogress := h.own.progress' o
    rw [if_neg hdone, hzero] at hprogress
    exact hstarted (hprogress.unstarted hactive)
  have hnodes := h.nodes
  show Apart F ((s'.world.nodesOf c.database).filter _)
  generalize s'.world.nodesOf c.database = nodes at hnodes
  cases hnodes with
  | same hok =>
    refine hv.placed y h.before h.own.active hkind' (fun hunstarted => ?_) d h.row hha
    have hzero := h.own.progress.eq_zero hunstarted
    exact (hok (Claimed.mark_eq_done.mp (hdone hzero))).1 ⟨hkind, hzero⟩
  | placed _ _ hzero hlive happart =>
    have hnone := hv.unplaced y h.before h.own.active hkind'
      ((hzero ▸ h.own.progress).unstarted h.own.active)
    rw [show s.world.nodesOf c.database = [] from hnone, nil_append,
      filter_eq_self.mpr fun n hn => by rw [hlive n hn]; rfl]
    exact happart (Claimed.mark_eq_done.mp (hdone hzero)) hha
  | replicaPlaced hother | deleting hother | removed _ hother =>
    rw [hkind] at hother
    cases hother

omit hledger in
theorem StepView.deleting (hx : x ∈ s'.opsOf c.database) (hkind : x.kind = .delete) :
    (d'.status.serving = false ∧ d'.status ≠ .provisioning)
      ∧ ∀ e ∈ s'.opsOf c.database, e.active → e.kind = .delete := by
  obtain ⟨z, hz, hzkind⟩ : ∃ z ∈ s.opsOf c.database, z.kind = .delete := by
    rcases h.mem hx with ⟨hold, -⟩ | rfl
    · exact ⟨x, hold, hkind⟩
    · exact ⟨y, h.before, h.own.kind.trans (h.own.kind' o ▸ hkind)⟩
  obtain ⟨hstatus, honly⟩ := (hs.separated c.database).deleting z hz hzkind
  have hdelete := h.own.kind.symm.trans (honly y h.before h.own.active)
  refine ⟨?_, fun e he hactive => ?_⟩
  · have hchange := h.status
    generalize d'.status = status at hchange
    cases hchange with
    | failed =>
      rw [hdelete]
      exact ⟨rfl, nofun⟩
    | activated _ hname =>
      have hprov := (Kind.place .activate (hname ▸ h.own.name)).1
      rw [hdelete] at hprov
      cases hprov
    | finalized => exact ⟨rfl, nofun⟩
    | kept => exact hstatus d h.row
  · rcases h.mem he with ⟨hold, -⟩ | rfl
    · exact honly e hold hactive
    · exact (h.own.kind' o).trans hdelete

theorem StepView.separated : (s'.view c.database).Separated F := by
  have hv := hs.separated c.database
  have hrow : ∀ {d₁ : DatabaseRow}, (s'.view c.database).row = some d₁ → d₁ = d' := fun hd₁ =>
    Option.some.inj (hd₁.symm.trans h.row')
  -- what replaces a node or creates the database is what runs
  have hreplace : ∀ {x : OpRow}, x ∈ s'.opsOf c.database → x.active →
      x.kind = .replace → x = c.settle o y := by
    intro x hx hactive hkind
    refine (h.mem hx).resolve_left fun ⟨hold, hseq⟩ => hseq ?_
    rw [h.own.eq_of_replace hv hledger hold hactive hkind, h.own.seq]
  have hcreates : ∀ {x : OpRow}, x ∈ s'.opsOf c.database → x.active →
      x.kind.creates → x = c.settle o y := by
    intro x hx hactive hkind
    refine (h.mem hx).resolve_left fun ⟨hold, hseq⟩ => ?_
    obtain ⟨hold, hdb⟩ := mem_opsOf.mp hold
    have hother := hs.activation.lifecycle.others h.own.running hold hactive hdb hseq
    rw [provisional_of_creates hkind] at hother
    cases hother.2.2
  have hactivated : c.kind.provisional ≠ true → (s'.view c.database).Sound →
      s.activated c.database := by
    intro hprov hsound
    refine (h.activated hsound.activated).resolve_right fun ⟨_, hname⟩ => ?_
    exact hprov (Kind.place .activate (hname ▸ h.own.name)).1
  refine ⟨?_, ?_, ?_, ?_, ?_, ?_, ?_, ?_, ?_, ?_⟩
  · intro hsound d₁ hd₁ hha hnone
    rw [hrow hd₁, h.ha] at hha
    by_cases hact : s.activated c.database
    · exact h.idle hs hledger hsound hact hha (hnone _ h.after)
    · exact h.first_activated hs hsound hact hha
  · intro hsound d₁ hd₁ hha x hx hpending
    obtain ⟨hactive, hkind⟩ := OpRow.oldPending_replace hpending
    obtain rfl := hreplace hx hactive hkind
    rw [hrow hd₁, h.ha] at hha
    refine h.replacing hs hsound (hactivated ?_ hsound) hha hpending
    rw [← h.own.kind' o, hkind]
    decide
  · intro hsound x hx hactive hkind hnot _ hold
    obtain rfl := hreplace hx hactive hkind
    rw [h.own.kind'] at hkind
    rw [h.own.params'] at hold
    refine h.retracted hs hsound (hactivated ?_ hsound) hactive hkind hnot hold
    rw [hkind]
    decide
  · intro x hx hactive hkind z hz hzactive
    obtain rfl := hreplace hx hactive hkind
    rcases h.mem hz with ⟨hold, -⟩ | rfl
    · rw [c.settle_seq]
      exact hv.first y h.before h.own.active (h.own.kind.trans (h.own.kind' o ▸ hkind)) z hold
        hzactive
    · exact le_rfl
  · intro x hx hactive hkind
    obtain rfl := hcreates hx hactive hkind
    refine Bool.eq_false_iff.mpr fun hact => ?_
    rcases h.activated hact with hbefore | ⟨hdone, hname⟩
    · exact h.not_creates hs hbefore (h.own.kind' o ▸ hkind)
    · have hlast := (Kind.place .activate (hname ▸ h.own.name)).2
      have hlt := ((h.own.progress' o).active hactive).1
      rw [if_pos hdone, h.own.length'] at hlt
      omega
  · intro x hx hactive hkind d₁ hd₁
    obtain rfl := hcreates hx hactive (by rw [hkind]; rfl)
    rw [hrow hd₁, h.ha]
    exact hv.replica y h.before h.own.active (h.own.kind.trans (h.own.kind' o ▸ hkind)) d h.row
  · intro x hx hactive hkind hunstarted
    obtain rfl := hcreates hx hactive (by rw [hkind]; rfl)
    obtain ⟨hzero, hwait⟩ := h.own.wait_of_unstarted hactive hunstarted
    exact (h.quiet hwait).trans (hv.unplaced y h.before h.own.active
      (h.own.kind.trans (h.own.kind' o ▸ hkind)) hzero)
  · intro x hx hactive hkind hstarted d₁ hd₁ hha
    obtain rfl := hcreates hx hactive (by rw [hkind]; rfl)
    rw [hrow hd₁, h.ha] at hha
    exact h.placed hs (h.own.kind' o ▸ hkind) hactive hstarted hha
  · intro _ hnone
    rw [show (s'.view c.database).row = some d' from h.row'] at hnone
    cases hnone
  · intro x hx hkind
    obtain ⟨hstatus, honly⟩ := h.deleting hs hx hkind
    exact ⟨fun d₁ hd₁ => hrow hd₁ ▸ hstatus, honly⟩

end Settle

theorem Separation.settle (hs : Separation F s) (hledger : Ledger s) (hrun : Running c s)
    (h : StepCommit X F a e c H s o w) : Separation F (s.settle onFail c o w) := by
  refine ⟨hs.activation.settle hledger hrun h, fun id => ?_⟩
  obtain ⟨y, d, _, hview⟩ := h.view hs.activation.lifecycle hledger hrun
  by_cases hid : id = c.database
  · subst hid
    exact hview.separated hs hledger
  · obtain ⟨f, hf, hrows⟩ := h.settle
    have hsame : (s.settle onFail c o w).view id = s.view id := by
      have hnodes : (s.settle onFail c o w).world.nodesOf id = s.world.nodesOf id :=
        (congrArg (List.filter _) (StepCommit.settle_nodes c o w)).trans (h.nodesOf hid _)
      rw [view, view, opsOf_settle hview.own hledger hid,
        (Updates.of_update hrows hf.id hview.row).other id hid, hnodes]
    rw [hsame]
    exact hs.separated id

end Steps

/-! ## Handlers -/

section Handlers

variable {call : Call} {s s' : Tables World} {r : ApiResult} {w : World → World}
  {d d₁ : DatabaseRow}

theorem opsOf_commit (hid : id ≠ r.target) : (r.commit w s).opsOf id = s.opsOf id := by
  rw [opsOf, commit_operations, filter_append]
  have hnew : (r.new s.nextSeq).filter (·.database = id) = [] := by
    refine filter_eq_nil_iff.mpr fun y hy => ?_
    obtain ⟨_, -, rfl⟩ := Option.map_eq_some_iff.mp (Option.mem_toList.mp hy)
    exact fun h => hid (of_decide_eq_true h).symm
  rw [hnew, append_nil]
  refine filter_map_eq_filter fun y _ => ?_
  unfold ApiResult.old
  split
  · next h =>
    simp only [Bool.and_eq_true, decide_eq_true_eq] at h
    have hne : y.database ≠ id := fun hdb => hid (hdb.symm.trans h.2.1)
    exact .inr ⟨decide_eq_false hne, decide_eq_false hne⟩
  · exact .inl rfl

theorem activated_of_commit (h : (r.commit w s).activated id) : s.activated id := by
  obtain ⟨x, hx, hdb, hact⟩ := activated_iff.mp h
  rcases old_of_commit hx with ⟨y, hy, hrow, hsteps⟩ | ⟨_, _, -, rfl⟩
  · refine activated_iff.mpr ⟨y, hy, hrow.database.symm.trans hdb, ?_⟩
    rw [OpRow.activated, ← hsteps]
    exact hact
  · -- every step of a new operation is pending
    obtain ⟨p, hp, -, hdone⟩ := OpRow.activated_iff.mp hact
    obtain ⟨_, -, rfl⟩ := mem_map.mp hp
    cases hdone

/-- What a handler that starts a replacement commits on. -/
structure StartsReplacement (F : Fleet) (s : Tables World) (r : ApiResult) (nodes : List NodeRow)
    (old new : Nat) (load : HostLoad) (port : Nat) : Prop where
  replaces : Replaces F s r.target old new load
  create : r.create = some (.replace, ⟨some old, some new⟩)
  supersede : r.supersede = false
  idle : s.busy r.target = false
  domain : F.domainOf load.host.id = some load.domain
  nodes : nodes = s.world.nodes ++ [⟨r.target, new, load.host.id, port, false⟩]

theorem HandlerCommit.replaces (h : HandlerCommit X F call H s r w) :
    ((w s.world).nodes = s.world.nodes ∧ ∀ params, r.create ≠ some (.replace, params))
      ∨ ∃ node number load port,
        StartsReplacement F s r (w s.world).nodes node number load port := by
  cases h with
  | inserted _ _ hnew =>
    refine .inl ⟨rfl, fun params hcreate => ?_⟩
    have hkind := hnew.kind_provisional
    cases hcreate
    cases hkind
  | promoted | deleted | certified | resized | swept => exact .inl ⟨rfl, nofun⟩
  | started _ _ _ _ _ _ _ _ hkind =>
    refine .inl ⟨rfl, fun params hcreate => ?_⟩
    cases hcreate
    exact hkind rfl
  | replaced _ _ node number load port _ _ _ hidle hchosen _ _ hreplaces =>
    obtain ⟨_, _, -, -, hloads⟩ := hchosen.loads
    exact .inr ⟨node, number, load, port, hreplaces, rfl, rfl, hidle,
      Fleet.domainOf_load (hloads load (mem_singleton_self _)), rfl⟩

theorem Separation.commit_insert (hs : Separation F s) {params : Params}
    (hnew : NewDatabase call H s d kind)
    (hs' : s' = ApiResult.commit ⟨d.id, false, some (kind, params)⟩ (insert d) s) :
    (s'.view d.id).Separated F := by
  have hrow : (s'.view d.id).row = some d := by
    show s'.world.db? d.id = _
    rw [hs', commit_world, db?_insert hnew.fresh, if_pos rfl]
  -- nothing is known of a database that is not there
  have hops : ∀ y ∈ s.operations, y.database ≠ d.id := fun y hy hdb =>
    (hs.separated d.id).known (ne_nil_of_mem (mem_opsOf.mpr ⟨hy, hdb⟩)) hnew.fresh
  have hmem : ∀ {x : OpRow}, x ∈ (s'.view d.id).ops → x = .new s.nextSeq d.id kind params := by
    intro x hx
    obtain ⟨hx, hdb⟩ := mem_opsOf.mp hx
    rw [hs'] at hx
    rcases old_of_commit hx with ⟨y, hy, hrow, -⟩ | ⟨k, p, hcreate, rfl⟩
    · exact (hops y hy (hrow.database.symm.trans hdb)).elim
    · cases hcreate
      rfl
  have hnone : s'.activated d.id = false := by
    refine Bool.eq_false_iff.mpr fun h => ?_
    rw [hs'] at h
    obtain ⟨y, hy, hdb, -⟩ := activated_iff.mp (activated_of_commit h)
    exact hops y hy hdb
  have hnot : ∀ {P : Prop}, (s'.view d.id).Sound → P := fun hsound =>
    absurd hsound.activated (Bool.eq_false_iff.mp hnone)
  have hkind := hnew.kind_provisional
  refine ⟨fun h => hnot h, fun h => hnot h, fun h => hnot h, ?_, fun _ _ _ _ => hnone, ?_, ?_, ?_,
    ?_, ?_⟩
  · intro x hx _ hreplace
    obtain rfl := hmem hx
    rw [show kind = .replace from hreplace] at hkind
    cases hkind
  · intro x hx _ hreplica _ hd₁
    obtain rfl := hmem hx
    cases hrow.symm.trans hd₁
    rcases hnew.source with ⟨rfl, -⟩ | ⟨-, _, _, _, -, -, -, -, -, hha⟩
    · cases hreplica
    · exact hha
  · intro _ _ _ _ _
    refine filter_eq_nil_iff.mpr fun n hn hdb => ?_
    rw [hs', commit_world] at hn
    obtain ⟨_, hd₀, -⟩ := hs.activation.lifecycle.placed n hn
    rw [of_decide_eq_true hdb, hnew.fresh] at hd₀
    cases hd₀
  · intro x hx _ hcreate hstarted
    obtain rfl := hmem hx
    obtain rfl : kind = .create := hcreate
    exact (hstarted ⟨_, rfl, rfl⟩).elim
  · intro _ h
    rw [hrow] at h
    cases h
  · intro x hx hdelete
    obtain rfl := hmem hx
    rw [show kind = .delete from hdelete] at hkind
    cases hkind

section Update

variable {f : DatabaseRow → DatabaseRow}

theorem HandlerEffect.not_supersedes (heffect : HandlerEffect s r w d f)
    (hsound : ((r.commit w s).view r.target).Sound) : r.supersede = false := by
  have hchange := heffect.status
  generalize (f d).status = status at hchange
  cases hchange with
  | deleted hcreate => exact (hsound.kept _ (mem_opsOf.mpr ⟨new_mem_commit hcreate, rfl⟩) rfl).elim
  | promoted _ h | queued _ _ _ h | swept _ h => exact h

theorem HandlerEffect.eq_of_row (heffect : HandlerEffect s r w d f)
    (h : ((r.commit w s).view r.target).row = some d₁) : d₁ = f d :=
  Option.some.inj (h.symm.trans heffect.updates.self)

variable (hs : Separation F s) (heffect : HandlerEffect s r w d f)
include hs heffect

theorem Separation.commit_deleting (hx : x ∈ (r.commit w s).opsOf r.target)
    (hkind : x.kind = .delete) : ((f d).status.serving = false ∧ (f d).status ≠ .provisioning)
      ∧ ∀ e ∈ (r.commit w s).opsOf r.target, e.active → e.kind = .delete := by
  obtain ⟨hx, hdb⟩ := mem_opsOf.mp hx
  have hchange := heffect.status
  generalize (f d).status = status at hchange
  have hold : (∃ y ∈ s.opsOf r.target, y.kind = .delete)
      ∨ ∃ params, r.create = some (.delete, params) := by
    rcases old_of_commit hx with ⟨y, hy, hrow, -⟩ | ⟨kind, params, hcreate, rfl⟩
    · exact .inl ⟨y, mem_opsOf.mpr ⟨hy, hrow.database.symm.trans hdb⟩, hrow.kind.symm.trans hkind⟩
    · obtain rfl : kind = .delete := hkind
      exact .inr ⟨params, hcreate⟩
  have hbefore : (∃ y ∈ s.opsOf r.target, y.kind = .delete) →
      d.status.serving = false ∧ d.status ≠ .provisioning := by
    rintro ⟨y, hy, hykind⟩
    exact ((hs.separated r.target).deleting y hy hykind).1 d heffect.row
  cases hchange with
  | deleted hcreate hsuper =>
    refine ⟨⟨rfl, nofun⟩, fun e he hactive => ?_⟩
    obtain ⟨he, hedb⟩ := mem_opsOf.mp he
    rcases active_commit he hactive with ⟨-, hnot⟩ | ⟨_, params, hcreate', rfl⟩
    · exact (hnot hsuper hedb).elim
    · rw [hcreate] at hcreate'
      cases hcreate'
      rfl
  | promoted hcreate _ _ hserving | swept hcreate _ hserving =>
    rcases hold with hold | ⟨params, hdelete⟩
    · rw [(hbefore hold).1] at hserving
      cases hserving
    · rw [hcreate] at hdelete
      cases hdelete
  | queued _ params hcreate _ _ hne hserving =>
    rcases hold with hold | ⟨_, hdelete⟩
    · obtain ⟨hserves, hprov⟩ := hbefore hold
      rcases hserving with h | h
      · rw [hserves] at h
        cases h
      · exact (hprov h).elim
    · rw [hcreate] at hdelete
      cases hdelete
      exact (hne rfl).elim

theorem Separation.commit_other (hledger : Ledger s) (hnodes : (w s.world).nodes = s.world.nodes)
    (hcreate : ∀ params, r.create ≠ some (.replace, params)) :
    ((r.commit w s).view r.target).Separated F := by
  have hev : Evolves Set.univ s (r.commit w s) := Engine.evolves_commit (Set.mem_univ _) _
  have hv := hs.separated r.target
  have hbefore : ((r.commit w s).view r.target).Sound → (s.view r.target).Sound := fun hsound =>
    hsound.before hev (activated_of_commit hsound.activated)
  have hview : ((r.commit w s).view r.target).nodes = (s.view r.target).nodes := by
    show (r.commit w s).world.nodes.filter _ = _
    rw [commit_world, hnodes]
    rfl
  have hlive : ((r.commit w s).view r.target).live = (s.view r.target).live :=
    congrArg (List.filter _) hview
  -- what is active now was so before, or is what the handler records
  have hactive : ∀ {x : OpRow}, x ∈ ((r.commit w s).view r.target).ops → x.active →
      x ∈ (s.view r.target).ops ∨ ∃ kind params, r.create = some (kind, params)
        ∧ x = .new s.nextSeq r.target kind params := by
    intro x hx hxa
    obtain ⟨hx, hdb⟩ := mem_opsOf.mp hx
    exact (active_commit hx hxa).imp_left fun h => mem_opsOf.mpr ⟨h.1, hdb⟩
  have hreplace : ∀ {x : OpRow}, x ∈ ((r.commit w s).view r.target).ops → x.active →
      x.kind = .replace → x ∈ (s.view r.target).ops := by
    intro x hx hxa hkind
    refine (hactive hx hxa).resolve_right ?_
    rintro ⟨kind, params, hrecorded, rfl⟩
    obtain rfl : kind = .replace := hkind
    exact hcreate params hrecorded
  have hcreates : ∀ {x : OpRow}, x ∈ ((r.commit w s).view r.target).ops → x.active →
      x.kind.creates → x ∈ (s.view r.target).ops := by
    intro x hx hxa hkind
    refine (hactive hx hxa).resolve_right ?_
    rintro ⟨kind, params, hrecorded, rfl⟩
    obtain ⟨hcreate, hreplica⟩ := (heffect.new kind params hrecorded).notNew
    exact (creates_cases hkind).elim hcreate hreplica
  refine ⟨?_, ?_, ?_, ?_, ?_, ?_, ?_, ?_, ?_, ?_⟩
  · intro hsound d₁ hd₁ hha hnone
    rw [heffect.eq_of_row hd₁, heffect.ha] at hha
    rw [hlive]
    refine hv.idle (hbefore hsound) d heffect.row hha fun x hx => hnone x ?_
    obtain ⟨hx, hdb⟩ := mem_opsOf.mp hx
    refine mem_opsOf.mpr ⟨mem_commit hx fun h => ?_, hdb⟩
    rw [heffect.not_supersedes hsound] at h
    cases h
  · intro hsound d₁ hd₁ hha x hx hpending
    rw [heffect.eq_of_row hd₁, heffect.ha] at hha
    obtain ⟨hxa, hkind⟩ := OpRow.oldPending_replace hpending
    rw [hlive]
    exact hv.replacing (hbefore hsound) d heffect.row hha x (hreplace hx hxa hkind) hpending
  · intro hsound x hx hxa hkind hnot
    rw [hlive]
    exact hv.retracted (hbefore hsound) x (hreplace hx hxa hkind) hxa hkind hnot
  · intro x hx hxa hkind z hz hza
    have hold := hreplace hx hxa hkind
    rcases hactive hz hza with hz | ⟨_, _, -, rfl⟩
    · exact hv.first x hold hxa hkind z hz hza
    · exact (hledger.fresh x (mem_opsOf.mp hold).1).le
  · intro x hx hxa hkind
    refine Bool.eq_false_iff.mpr fun hact => ?_
    have hfalse := hv.creating x (hcreates hx hxa hkind) hxa hkind
    rw [show activates (s.view r.target).ops = true from activated_of_commit hact] at hfalse
    cases hfalse
  · intro x hx hxa hkind d₁ hd₁
    rw [heffect.eq_of_row hd₁, heffect.ha]
    exact hv.replica x (hcreates hx hxa (by rw [hkind]; rfl)) hxa hkind d heffect.row
  · intro x hx hxa hkind hunstarted
    rw [hview]
    exact hv.unplaced x (hcreates hx hxa (by rw [hkind]; rfl)) hxa hkind hunstarted
  · intro x hx hxa hkind hstarted d₁ hd₁ hha
    rw [heffect.eq_of_row hd₁, heffect.ha] at hha
    rw [hlive]
    exact hv.placed x (hcreates hx hxa (by rw [hkind]; rfl)) hxa hkind hstarted d heffect.row hha
  · intro _ hnone
    cases heffect.updates.self.symm.trans hnone
  · intro x hx hkind
    obtain ⟨hstatus, honly⟩ := hs.commit_deleting heffect hx hkind
    exact ⟨fun d₁ hd₁ => heffect.eq_of_row hd₁ ▸ hstatus, honly⟩

theorem Separation.commit_replace {load : HostLoad}
    (hstarts : StartsReplacement F s r (w s.world).nodes old new load port) :
    ((r.commit w s).view r.target).Separated F := by
  have hev : Evolves Set.univ s (r.commit w s) := Engine.evolves_commit (Set.mem_univ _) _
  have hv := hs.separated r.target
  have hview : ((r.commit w s).view r.target).live
      = (s.view r.target).live ++ [⟨r.target, new, load.host.id, port, false⟩] := by
    show ((r.commit w s).world.nodes.filter _).filter _ = _
    rw [commit_world, hstarts.nodes, filter_append, filter_append]
    simp [view, DatabaseView.live, nodesOf]
  have hreplaces := hstarts.replaces
  have hnodes : s.world.liveNodes r.target = (s.view r.target).live := liveNodes_eq s.world r.target
  -- nothing else is under way
  have hactive : ∀ {x : OpRow}, x ∈ ((r.commit w s).view r.target).ops → x.active →
      x = .new s.nextSeq r.target .replace ⟨some old, some new⟩ := by
    intro x hx hxa
    obtain ⟨hx, hdb⟩ := mem_opsOf.mp hx
    rcases active_commit hx hxa with ⟨hold, -⟩ | ⟨_, _, hcreate, rfl⟩
    · exact (not_busy hstarts.idle hold hxa hdb).elim
    · rw [hstarts.create] at hcreate
      cases hcreate
      rfl
  have hpending : (OpRow.new s.nextSeq r.target .replace ⟨some old, some new⟩).oldPending := rfl
  have hnot : ∀ {x : OpRow}, x ∈ ((r.commit w s).view r.target).ops → x.active →
      ∀ k ≠ replace, x.kind ≠ k := by
    intro x hx hxa k hk hkind
    rw [hactive hx hxa] at hkind
    exact hk hkind.symm
  refine ⟨?_, ?_, ?_, ?_, ?_, ?_, ?_, ?_, ?_, ?_⟩
  · intro _ d₁ _ _ hnone
    have hnot := hnone _ (mem_opsOf.mpr ⟨new_mem_commit hstarts.create, rfl⟩)
    cases hnot
  · intro hsound d₁ hd₁ hha x hx hxp
    obtain rfl := hactive hx (OpRow.oldPending_replace hxp).1
    rw [heffect.eq_of_row hd₁, heffect.ha] at hha
    refine ⟨old, rfl, ?_⟩
    have happart := hv.idle (hsound.before hev (activated_of_commit hsound.activated)) d
      heffect.row hha fun y hy => Bool.eq_false_iff.mpr fun hyp => by
        obtain ⟨hy, hdb⟩ := mem_opsOf.mp hy
        exact not_busy hstarts.idle hy (OpRow.oldPending_replace hyp).1 hdb
    rw [hview]
    rw [← hnodes] at happart ⊢
    exact happart.replace hreplaces.old hreplaces.number hstarts.domain hreplaces.apart
  · intro _ x hx hxa _ hnot
    rw [hactive hx hxa, hpending] at hnot
    cases hnot
  · intro x hx hxa _ z hz hza
    rw [hactive hx hxa, hactive hz hza]
  · intro x hx hxa hcreates
    rcases creates_cases hcreates with hkind | hkind
    · exact (hnot hx hxa _ (by decide) hkind).elim
    · exact (hnot hx hxa _ (by decide) hkind).elim
  · exact fun x hx hxa hkind => (hnot hx hxa _ (by decide) hkind).elim
  · exact fun x hx hxa hkind => (hnot hx hxa _ (by decide) hkind).elim
  · exact fun x hx hxa hkind => (hnot hx hxa _ (by decide) hkind).elim
  · intro _ hnone
    cases heffect.updates.self.symm.trans hnone
  · intro x hx hkind
    obtain ⟨hstatus, honly⟩ := hs.commit_deleting heffect hx hkind
    exact ⟨fun d₁ hd₁ => heffect.eq_of_row hd₁ ▸ hstatus, honly⟩

end Update

theorem Separation.commit (hs : Separation F s) (hledger : Ledger s)
    (h : HandlerCommit X F call H s r w) : Separation F (r.commit w s) := by
  refine ⟨hs.activation.commit hledger h, fun id => ?_⟩
  rcases h.effect hs.activation.lifecycle with ⟨d, kind, hnew, rfl, rfl⟩ | ⟨-, d, f, heffect⟩
  · by_cases hid : id = d.id
    · subst hid
      exact hs.commit_insert hnew rfl
    · have hsame : (ApiResult.commit ⟨d.id, false, some (kind, .none)⟩ (insert d) s).view id
          = s.view id := by
        rw [view, view, opsOf_commit hid, commit_world, db?_insert hnew.fresh, if_neg hid]
        rfl
      rw [hsame]
      exact hs.separated id
  · by_cases hid : id = r.target
    · subst hid
      rcases h.replaces with ⟨hnodes, hcreate⟩ | ⟨old, new, load, port, hstarts⟩
      · exact hs.commit_other heffect hledger hnodes hcreate
      · exact hs.commit_replace heffect hstarts
    · have hsame : (r.commit w s).view id = s.view id := by
        rw [view, view, opsOf_commit hid, heffect.updates.other id hid, commit_world]
        rcases h.replaces with ⟨hnodes, -⟩ | ⟨_, _, _, _, hstarts⟩
        · rw [nodesOf, hnodes]
          rfl
        · rw [nodesOf, hstarts.nodes, filter_append]
          simp [nodesOf, Ne.symm hid]
      rw [hsame]
      exact hs.separated id

end Handlers

/-! ## Whole runs -/

theorem separation_empty (F : Fleet) : Separation F ⟨[], 0, empty, []⟩ := by
  refine ⟨activation_empty, fun id => ?_⟩
  have hops : ((⟨[], 0, empty, []⟩ : Tables World).view id).ops = [] := rfl
  have hnone : ∀ {P : OpRow → Prop},
      ∀ r ∈ ((⟨[], 0, empty, []⟩ : Tables World).view id).ops, P r := by
    intro P r hr
    cases hr
  refine ⟨fun h => ?_, fun _ _ _ _ => hnone, fun _ => hnone, hnone, hnone, hnone, hnone, hnone,
    fun h => (h hops).elim, hnone⟩
  cases h.activated

/-- A three-node database keeps three separate nodes. In every committed state
of every interleaving of handlers, reconcilers and sweeps, an `ha` database that
is `active` or `degraded` with nothing under way has three live nodes, on three
hosts in three failure domains, unless a replacement of one of its nodes has
failed before it retracted the old one, or its creation has failed and an
operation queued behind it too. -/
theorem three_nodes_apart (F : Fleet) {st : Store (Tables World) Key Claimed (Request Env Call)}
    (hr : ((adminEngine F).machine World.empty).Reachable st) :
    ∀ d ∈ st.tables.world.databases, d.ha = true → d.status = .active ∨ d.status = .degraded →
      st.tables.busy d.id = false → st.tables.failedBehind d.id = false →
      replaceFails (st.tables.opsOf d.id) = false → (st.tables.world.liveNodes d.id).length = 3
        ∧ ((st.tables.world.liveNodes d.id).map (·.host)).Nodup
        ∧ (∀ n ∈ st.tables.world.liveNodes d.id, (F.domainOf n.host).isSome = true)
        ∧ ((st.tables.world.liveNodes d.id).map fun n => F.domainOf n.host).Nodup := by
  have hs : Separation F st.tables := holds_of_commits (separation_empty F)
    (fun _ h => h.activation.lifecycle) Separation.settle Separation.commit hr
  intro d hd hha hstatus hidle hcreated hreplaced
  have hrow := hs.activation.lifecycle.unique.db? hd
  have hserving : d.status.serving = true := by rcases hstatus with h | h <;> rw [h] <;> rfl
  have hv := hs.separated d.id
  have hsound : (st.tables.view d.id).Sound := by
    refine ⟨hs.activation.serving d.id d hrow hserving hcreated, hcreated, hreplaced, ?_⟩
    intro r hop hkind
    have hnot := ((hv.deleting r hop hkind).1 d hrow).1
    rw [hserving] at hnot
    cases hnot
  have hnone : ∀ r ∈ (st.tables.view d.id).ops, r.oldPending = false := by
    intro r hop
    obtain ⟨hop, hdb⟩ := mem_opsOf.mp hop
    refine Bool.eq_false_iff.mpr fun hpending => ?_
    exact not_busy hidle hop (OpRow.oldPending_replace hpending).1 hdb
  have happart := hv.idle hsound d hrow hha hnone
  rw [liveNodes_eq]
  exact ⟨happart.three, happart.hosts, happart.known, happart.domains⟩

/-- A database `s` is brought up, its node 1 replaced by one on `h4`, and a change
of its spec times out. -/
theorem three_nodes_apart_replaced :
    ∃ st, ((adminEngine fourHosts).machine World.empty).Reachable st
      ∧ ∃ d ∈ st.tables.world.databases, d.status = .degraded
        ∧ (st.tables.world.liveNodes d.id).any (·.host = "h4") = true
        ∧ (st.tables.world.liveNodes d.id).length = 3
        ∧ ((st.tables.world.liveNodes d.id).map fun n => fourHosts.domainOf n.host).Nodup := by
  obtain ⟨_, hr, d, hd, hdegraded, hha, hidle, hcreated, hreplaced, hnew⟩ := exists_serial fourHosts
    (bringUp ++ (.api ⟨calm "", .replace "s" 1 "h4"⟩, none) :: runSteps (calm "") 1 7
      ++ [(.api ⟨calm "", .update "s"⟩, none), (.reconcile true silent, some (.step 2 0))])
    (fun s => ∃ d ∈ s.world.databases, d.status = .degraded ∧ d.ha ∧ s.busy d.id = false
      ∧ s.failedBehind d.id = false ∧ replaceFails (s.opsOf d.id) = false
      ∧ (s.world.liveNodes d.id).any (·.host = "h4")) (by decide +kernel)
  obtain ⟨hthree, -, -, hdomains⟩ :=
    three_nodes_apart fourHosts hr d hd hha (.inr hdegraded) hidle hcreated hreplaced
  exact ⟨_, hr, d, hd, hdegraded, hnew, hthree, hdomains⟩

/-- How many live nodes an idle three-node database may be left with. A replacement
whose new node does not join in time leaves four. A database that finds no host
leaves none: it is `degraded` after a change of its spec fails too. -/
theorem three_nodes_left_apart : (∃ st, ((adminEngine fourHosts).machine World.empty).Reachable st
      ∧ ∃ d ∈ st.tables.world.databases, d.ha = true ∧ d.status = .degraded
        ∧ st.tables.busy d.id = false ∧ (st.tables.world.liveNodes d.id).length = 4)
    ∧ ∃ st, ((adminEngine fourHosts).machine World.empty).Reachable st
      ∧ ∃ d ∈ st.tables.world.databases, d.ha = true ∧ d.status = .degraded
        ∧ st.tables.busy d.id = false ∧ (st.tables.world.liveNodes d.id).length = 0 := by
  have hend (l : List (Request Env Call × Option Key)) (n : Nat) := exists_serial fourHosts l
    (fun s => ∃ d ∈ s.world.databases, d.ha ∧ d.status = .degraded ∧ s.busy d.id = false
      ∧ (s.world.liveNodes d.id).length = n)
  obtain ⟨_, hfour⟩ := hend (bringUp ++ [(.api ⟨calm "", .replace "s" 1 "h4"⟩, none),
    (.reconcile true silent, some (.step 1 0))]) 4 (by decide +kernel)
  obtain ⟨_, hnone⟩ := hend [(.api ⟨calm "s", .create "s" true ⟨1, 1, 1⟩ []⟩, none),
    (.api ⟨calm "", .update "s"⟩, none),
    (.reconcile true { silent with online := [] }, some (.step 0 0)),
    (.reconcile true silent, some (.step 1 0))] 0 (by decide +kernel)
  exact ⟨⟨_, hfour⟩, _, hnone⟩

end PgCluster.Admin
