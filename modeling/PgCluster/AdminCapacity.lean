import PgCluster.AdminLifecycle

/-!
# What hosts are asked to hold

The nodes on a host add up to no more than the host can hand out, within
the slack of one request. Placements check this on loads they read in the
statement that locks the hosts. That statement may have waited for another
placement to commit: it then holds the lock, but the loads are those of its
snapshot. And `resize` looks at the hosts of a database's live nodes only,
so one that is retracted but still there grows unseen.

In runs in which loads are not exceeded by the time the lock is granted, and
databases are resized only while none of their nodes is retracted, no host
is ever overcommitted.
-/

namespace PgCluster.Admin

open List
open World (liveNodes nodesOf empty)

/-! ## Loads as sums -/

def loadOf (size : NodeRow → Resources) (nodes : List NodeRow) (host : String) (dim : Dim) : ℚ :=
  (nodes.map fun n => if n.host = host then (size n).amount dim else 0).sum

section Loads

variable {size size' : NodeRow → Resources} {nodes rows : List NodeRow} {host : String} {dim : Dim}
  {p : NodeRow → Bool} {x : Resources}

theorem used_amount (w : World) (host : String) (dim : Dim) :
    (w.used host).amount dim = loadOf w.sizeOf w.nodes host dim := by
  unfold World.used World.instancesOn loadOf
  induction w.nodes with
  | nil => exact Resources.zero_at dim
  | cons n _ ih =>
    rw [map_cons, sum_cons, ← ih]
    by_cases hn : n.host = host
    · rw [filter_cons_of_pos (by simpa using hn), if_pos hn]
      exact Resources.plus_at _ _ dim
    · rw [filter_cons_of_neg (by simpa using hn), if_neg hn, zero_add]

theorem loadOf_append : loadOf size (nodes ++ rows) host dim
    = loadOf size nodes host dim + loadOf size rows host dim := by
  rw [loadOf, map_append, sum_append]
  rfl

theorem loadOf_congr (h : ∀ n ∈ nodes, size' n = size n) :
    loadOf size' nodes host dim = loadOf size nodes host dim := by
  refine congrArg List.sum (map_congr_left fun n hn => ?_)
  rw [h n hn]

theorem loadOf_retract (h : ∀ n b, size { n with retracted := b } = size n) :
    loadOf size (nodes.map fun n => if p n then { n with retracted := true } else n) host dim
      = loadOf size nodes host dim := by
  rw [loadOf, map_map]
  refine congrArg List.sum (map_congr_left fun n _ => ?_)
  show (if (if p n then _ else n).host = host then (size (if p n then _ else n)).amount dim
    else 0) = _
  cases p n with
  | true => exact if_congr .rfl (congrArg (Resources.amount · dim) (h n true)) rfl
  | false => rfl

theorem loadOf_cons (n : NodeRow) : loadOf size (n :: nodes) host dim
    = (if n.host = host then (size n).amount dim else 0) + loadOf size nodes host dim :=
  sum_cons

theorem loadOf_filter_le (h : ∀ n ∈ nodes, 0 ≤ (size n).amount dim) :
    loadOf size (nodes.filter p) host dim ≤ loadOf size nodes host dim := by
  induction nodes with
  | nil => exact le_refl _
  | cons n _ ih =>
    have hrest := ih fun m hm => h m (mem_cons_of_mem _ hm)
    have hn : 0 ≤ if n.host = host then (size n).amount dim else 0 := by
      split
      · exact h n (mem_cons_self)
      · exact le_refl _
    cases hp : p n with
    | false =>
      rw [filter_cons_of_neg (by simp [hp]), loadOf_cons]
      linarith
    | true =>
      rw [filter_cons_of_pos hp, loadOf_cons, loadOf_cons]
      linarith

theorem loadOf_single (hsize : ∀ n ∈ rows, size n = x) (happart : (rows.map (·.host)).Nodup) :
    loadOf size rows host dim = if host ∈ rows.map (·.host) then x.amount dim else 0 := by
  induction rows with
  | nil => rfl
  | cons n _ ih =>
    rw [map_cons, nodup_cons] at happart
    have hrest := ih (fun m hm => hsize m (mem_cons_of_mem _ hm)) happart.2
    rw [loadOf_cons, hrest, hsize n (mem_cons_self)]
    by_cases hn : n.host = host
    · rw [if_pos hn, if_neg (hn ▸ happart.1), if_pos (by simp [hn]), add_zero]
    · rw [if_neg hn, zero_add]
      refine if_congr ?_ rfl rfl
      simp [Ne.symm hn]

theorem loadOf_grow (h : ∀ n ∈ nodes,
      (size' n).amount dim = (size n).amount dim + if p n then x.amount dim else 0) :
    loadOf size' nodes host dim
      = loadOf size nodes host dim + loadOf (fun _ => x) (nodes.filter p) host dim := by
  induction nodes with
  | nil => exact (add_zero _).symm
  | cons n _ ih =>
    have hrest := ih fun m hm => h m (mem_cons_of_mem _ hm)
    rw [loadOf_cons, loadOf_cons, hrest, h n (mem_cons_self)]
    cases hp : p n with
    | false =>
      rw [filter_cons_of_neg (by simp [hp]), if_neg Bool.false_ne_true, add_zero, add_assoc]
    | true =>
      rw [filter_cons_of_pos hp, if_pos rfl, loadOf_cons]
      split <;> linarith

end Loads

/-! ## The invariant -/

/-- No host is asked for more than it can hand out, but for the slack of one
request. -/
def NotOvercommitted (F : Fleet) (w : World) : Prop :=
  ∀ h ∈ F.hosts, ∀ capacity, h.capacity = some capacity → ∀ dim,
    (w.used h.id).amount dim ≤ (F.config.allocatable capacity).amount dim + EPSILON

def LoadsWithin (s s' : Tables World) : Prop :=
  ∀ host dim, (s'.world.used host).amount dim ≤ (s.world.used host).amount dim

/-- What `resize` does not check: no node of the database is retracted. -/
def noneRetracted : Request Env Call → Tables World → Bool
  | .api ⟨_, .resize id _⟩, s => s.world.nodes.all fun n => n.database ≠ id || !n.retracted
  | _, _ => true

def OpRow.unstarted (r : OpRow) : Prop := ∃ p, r.steps[0]? = some p ∧ p.status = .pending

/-- A database's live nodes are on different hosts, and one that is still to
be placed has none. -/
structure Capacity (F : Fleet) (s : Tables World) : Prop where
  lifecycle : Lifecycle s
  bound : NotOvercommitted F s.world
  apart : ∀ id, ((s.world.liveNodes id).map (·.host)).Nodup
  unplaced : ∀ r ∈ s.operations, r.active = true → (r.kind = .create ∨ r.kind = .createReplica) →
    r.unstarted → s.world.nodesOf r.database = []

/-- Only who has locked the hosts asks more of them. -/
def capacity (F : Fleet) : Extension World Env Call where
  Inv := Capacity F
  Guar _ _ H s s' := Frame H s s' ∧ (.hosts ∉ H → LoadsWithin s s')
  Cond a s := noneRetracted a s = true
  Fresh _ k s₀ s := k = .hosts → LoadsWithin s₀ s

theorem capacity_framed (F : Fleet) : (capacity F).Framed := fun _ _ _ _ _ h => h.1

variable {F : Fleet} {a : Request Env Call} {e : Env} {H : Set Key} {s : Tables World}
  {w : World → World} {d : DatabaseRow} {id : String}

theorem later_loads {H : Set Key} {s s' : Tables World} (hk : .hosts ∈ H)
    (h : (capacity F).contract.Later H s s') : LoadsWithin s s' := by
  refine Contract.Stable.later ?_ h fun _ _ => le_refl _
  intro a n _ t _ hdis _ _ hG ht host dim
  exact (hG.2.2 (hdis _ hk) host dim).trans (ht host dim)

/-! ## Placements -/

/-- Nodes that a commit adds to a database, where they have room. -/
structure Added (F : Fleet) (a : Request Env Call) (e : Env) (H : Set Key) (s : Tables World)
    (id : String) (rows : List NodeRow) (d : DatabaseRow) (chosen : List HostLoad)
    (avoid : List String) : Prop where
  row : s.world.db? id = some d
  hosts : Chosen (capacity F) F a e H s d.resources avoid chosen
  placed : PlacedOn id chosen rows
  away : ∀ n ∈ s.world.liveNodes id, ∀ h ∈ chosen, n.host ≠ h.host.id

section Placements

variable {s' : Tables World} {size : Resources} {avoid : List String} {chosen : List HostLoad}
  {rows : List NodeRow}

theorem Fleet.host_unique (F : Fleet) {h h' : HostRow} (hh : h ∈ F.hosts) (hh' : h' ∈ F.hosts)
    (hid : h.id = h'.id) : h = h' :=
  inj_on_of_nodup_map F.ids hh hh' hid

theorem Chosen.fits (h : Chosen (capacity F) F a e H s size avoid chosen) {x : HostLoad}
    (hx : x ∈ chosen) : x.host ∈ F.hosts ∧ ∀ cap, x.host.capacity = some cap → ∀ dim,
      (s.world.used x.host.id).amount dim + size.amount dim
        ≤ (F.config.allocatable cap).amount dim + EPSILON := by
  obtain ⟨s₀, _, hfresh, hl, hloads⟩ := h.loads
  obtain ⟨host, hhost, rfl⟩ := mem_map.mp (hloads x hx)
  refine ⟨hhost, fun cap hcap dim => ?_⟩
  obtain ⟨_, hcap', hroom⟩ := HostLoad.hasRoom_at (h.room _ hx).1
  cases hcap.symm.trans hcap'
  have hnow : (s.world.used host.id).amount dim ≤ (s₀.world.used host.id).amount dim :=
    (later_loads h.locked hl host.id dim).trans (hfresh rfl host.id dim)
  have hthen := hroom dim
  linarith

theorem Chosen.hosts_nodup (h : Chosen (capacity F) F a e H s size avoid chosen) :
    (chosen.map (·.host.id)).Nodup := by
  refine pairwise_map.mpr (h.apart.imp_of_mem fun {x y} hx hy hne hid => hne ?_)
  have hsame := F.host_unique (h.fits hx).1 (h.fits hy).1 hid
  unfold HostLoad.domain
  rw [hsame]

theorem Added.bound (h : Added F a e H s id rows d chosen avoid) (hb : NotOvercommitted F s.world)
    (hsize : ∀ n, s'.world.sizeOf n = s.world.sizeOf n)
    (hnodes : s'.world.nodes = s.world.nodes ++ rows) : NotOvercommitted F s'.world := by
  intro host hhost cap hcap dim
  have hrows : ∀ n ∈ rows, s.world.sizeOf n = d.resources := by
    intro n hn
    rw [World.sizeOf, h.placed.database n hn, h.row]
    rfl
  have happart := h.hosts.hosts_nodup.sublist h.placed.hosts
  rw [used_amount, loadOf_congr fun n _ => hsize n, hnodes, loadOf_append, ← used_amount,
    loadOf_single hrows happart]
  split
  · next hmem =>
    obtain ⟨x, hx, hid⟩ := mem_map.mp (h.placed.hosts.subset hmem)
    obtain ⟨hin, hroom⟩ := h.hosts.fits hx
    obtain rfl := F.host_unique hin hhost hid
    exact hroom cap hcap dim
  · rw [add_zero]
    exact hb host hhost cap hcap dim

theorem Added.apart (h : Added F a e H s id rows d chosen avoid)
    (happart : ∀ j, ((s.world.liveNodes j).map (·.host)).Nodup)
    (hnodes : s'.world.nodes = s.world.nodes ++ rows) (j : String) :
    ((s'.world.liveNodes j).map (·.host)).Nodup := by
  have hnew : (rows.filter fun n => n.database = j && !n.retracted)
      = if j = id then rows else [] := by
    split
    · next hj =>
      refine filter_eq_self.mpr fun n hn => ?_
      simp [h.placed.database n hn, h.placed.live n hn, hj]
    · next hj =>
      refine filter_eq_nil_iff.mpr fun n hn => ?_
      simp [h.placed.database n hn, Ne.symm hj]
  rw [liveNodes, hnodes, filter_append, hnew, map_append]
  split
  · next hj =>
    subst hj
    refine nodup_append.mpr ⟨happart j, h.hosts.hosts_nodup.sublist h.placed.hosts, ?_⟩
    intro _ hold _ hnew heq
    obtain ⟨n, hn, rfl⟩ := mem_map.mp hold
    obtain ⟨x, hx, rfl⟩ := mem_map.mp (h.placed.hosts.subset hnew)
    exact h.away n hn x hx heq
  · rw [map_nil, append_nil]
    exact happart j

end Placements

/-! ## Steps -/

section Steps

variable {c : Claimed} {o : Outcome} {v v' : World} {r y x : OpRow}

theorem sizeOf_update {id : String} {f : DatabaseRow → DatabaseRow}
    (hrows : v'.databases = (v.update id f).databases) (hid : ∀ d, (f d).id = d.id)
    (hres : ∀ d, (f d).resources = d.resources) (n : NodeRow) : v'.sizeOf n = v.sizeOf n := by
  rw [World.sizeOf, World.sizeOf, World.db?_congr hrows, World.db?_update hid, Option.map_map]
  refine congrArg (Option.getD · _) (congrArg (Option.map · _) (funext fun d => ?_))
  show (if d.id = id then f d else d).resources = d.resources
  split
  · exact hres d
  · rfl

theorem Lifecycle.size_nonneg (hl : Lifecycle s) {n : NodeRow} (hn : n ∈ s.world.nodes)
    (dim : Dim) : 0 ≤ (s.world.sizeOf n).amount dim := by
  obtain ⟨d, hd, -⟩ := hl.placed n hn
  rw [World.sizeOf, hd]
  exact (Resources.positive_at (hl.sized _ d hd) dim).le

/-- Nodes after some were retracted, or dropped. -/
structure Thinned (w w' : World) : Prop where
  loads : ∀ host dim, loadOf w.sizeOf w'.nodes host dim ≤ loadOf w.sizeOf w.nodes host dim
  live : ∀ id, ((w'.liveNodes id).map (·.host)).Sublist ((w.liveNodes id).map (·.host))

theorem Thinned.of_nodes (h : v'.nodes = v.nodes) : Thinned v v' := by
  refine ⟨fun host dim => by rw [h], fun id => ?_⟩
  rw [liveNodes, h]
  exact .refl _

theorem Thinned.retract (v : World) (p : NodeRow → Bool) : Thinned v (v.retract p) := by
  refine ⟨fun host dim => (loadOf_retract fun _ _ => rfl).le, fun id => ?_⟩
  show ((List.filter _ (v.nodes.map _)).map _).Sublist ((v.nodes.filter _).map _)
  rw [filter_map, map_map]
  induction v.nodes with
  | nil => exact .slnil
  | cons n _ ih =>
    rw [filter_cons, filter_cons]
    cases hp : p n with
    | true =>
      -- a node that is retracted now is not live
      rw [if_neg (by simp [hp])]
      split
      · exact ih.cons _
      · exact ih
    | false =>
      simp only [Function.comp_apply, hp, Bool.false_eq_true, if_false]
      split
      · rw [map_cons, map_cons, Function.comp_apply, hp]
        exact ih.cons_cons _
      · exact ih

theorem Thinned.dropNodes (h : ∀ n ∈ v.nodes, ∀ dim, 0 ≤ (v.sizeOf n).amount dim)
    (p : NodeRow → Bool) : Thinned v (v.dropNodes p) := by
  refine ⟨fun host dim => loadOf_filter_le fun n hn => h n hn dim, fun id => ?_⟩
  refine List.Sublist.map _ ?_
  show ((v.nodes.filter _).filter _).Sublist _
  rw [filter_comm]
  exact filter_sublist

theorem OpRow.Progress.eq_zero {n : Nat} (h : r.Progress n) (hr : r.unstarted) : n = 0 := by
  obtain ⟨p, hp, hpending⟩ := hr
  by_contra hne
  rw [(h.done 0 p hp).mpr (Nat.pos_of_ne_zero hne)] at hpending
  cases hpending

theorem OpRow.Progress.unstarted (h : r.Progress 0) (hactive : r.active) : r.unstarted := by
  obtain ⟨hlen, hpending⟩ := h.active hactive
  have hfirst := getElem?_eq_getElem hlen
  exact ⟨_, hfirst, hpending 0 _ hfirst le_rfl⟩

/-- A step that leaves its operation at its start was told to wait. -/
theorem OwnRow.wait_of_unstarted (h : OwnRow c s y)
    (hactive : (c.settle o y).active) (hunstarted : (c.settle o y).unstarted) :
    y.unstarted ∧ ∃ message, o = .wait message := by
  have hzero := (h.progress' o).eq_zero hunstarted
  by_cases hdone : c.mark o = .done
  · rw [if_pos hdone] at hzero
    cases hzero
  rw [if_neg hdone] at hzero
  refine ⟨(hzero ▸ h.progress).unstarted h.active, ?_⟩
  cases o with
  | done => exact (hdone rfl).elim
  | wait message => exact ⟨message, rfl⟩
  | fail => cases hactive

/-- An operation that has still not done its first step after a commit: the
commit was another one's, or told it to wait. -/
theorem unstarted_settle (hledger : Ledger s) (hrun : Running c s)
    (hx : x ∈ (s.settle onFail c o w).operations) (hactive : x.active)
    (hx₀ : x.unstarted) : ∃ y ∈ s.operations, y.active ∧ y.unstarted
      ∧ y.database = x.database ∧ y.kind = x.kind
      ∧ (y.seq = c.op → ∃ message, o = .wait message) := by
  obtain ⟨y, hy⟩ := hrun.own hledger
  rcases hy.mem_settle hledger hx with ⟨hold, hseq⟩ | rfl
  · exact ⟨x, hold, hactive, hx₀, rfl, rfl, fun h => (hseq h).elim⟩
  · obtain ⟨hunstarted, hwait⟩ := hy.wait_of_unstarted hactive hx₀
    exact ⟨y, hy.mem, hy.active, hunstarted, hy.database.trans (hy.database' o).symm,
      hy.kind.trans (hy.kind' o).symm, fun _ => hwait⟩

theorem StepCommit.nodes_cases (hs : Capacity F s) (hledger : Ledger s) (hrun : Running c s)
    (h : StepCommit (capacity F) F a e c H s o w) :
    Thinned s.world (w s.world) ∨ ∃ rows d chosen avoid,
      Added F a e H s c.database rows d chosen avoid
        ∧ (w s.world).nodes = s.world.nodes ++ rows := by
  have hname := hrun.name hledger
  have hnonneg := fun n hn => hs.lifecycle.size_nonneg (n := n) hn
  -- a database that is placed now had no nodes
  have hnone : (c.kind = .create ∨ c.kind = .createReplica) ∧ c.idx = 0 →
      s.world.liveNodes c.database = [] := by
    rintro ⟨hkind, hidx⟩
    obtain ⟨r, hc, hactive⟩ := hrun
    obtain ⟨p, hp, -⟩ := hc.step
    have hnodes := hs.unplaced r hc.mem hactive (hc.kind ▸ hkind) ⟨p, hidx ▸ hp, hc.pending p hp⟩
    rw [World.liveNodes_eq, ← hc.database, hnodes]
    rfl
  have haway : s.world.liveNodes c.database = [] → ∀ chosen : List HostLoad,
      ∀ n ∈ s.world.liveNodes c.database, ∀ h ∈ chosen, n.host ≠ h.host.id := by
    intro hnil chosen n hn
    rw [hnil] at hn
    cases hn
  cases h with
  | quiet | activate | promote | secrets => exact .inl (.of_nodes rfl)
  | retracted p => exact .inl (.retract _ p)
  | dropped p => exact .inl (.dropNodes hnonneg p)
  | finalize =>
    have hthin := Thinned.dropNodes hnonneg fun n => n.database = c.database
    exact .inl ⟨hthin.loads, hthin.live⟩
  | placed d chosen _ rows hplace _ hrow hchosen hrows hw =>
    obtain ⟨hkind, hidx⟩ := Kind.place .place (hplace ▸ hname)
    exact .inr ⟨rows, d, chosen, [],
      ⟨hrow, hchosen, hrows, haway (hnone ⟨.inl hkind, hidx⟩) chosen⟩, by rw [hw]; rfl⟩
  | replicaPlaced d _ _ chosen avoid rows hplace _ hcopied hchosen hrows hw =>
    obtain ⟨hkind, hidx⟩ := Kind.place .placeReplica (hplace ▸ hname)
    exact .inr ⟨rows, d, chosen, avoid,
      ⟨hcopied.row, hchosen, hrows, haway (hnone ⟨.inr hkind, hidx⟩) chosen⟩, by rw [hw]; rfl⟩

theorem StepCommit.wait_writes_nothing {X : Extension World Env Call} {message : String}
    (h : StepCommit X F a e c H s (.wait message) w) : w = fun v => v := by
  cases h with
  | quiet => rfl
  | placed _ _ _ _ _ hne | replicaPlaced _ _ _ _ _ _ _ hne => exact (hne message rfl).elim

theorem Capacity.settle (hs : Capacity F s) (hledger : Ledger s) (hrun : Running c s)
    (h : StepCommit (capacity F) F a e c H s o w) :
    Capacity F (s.settle onFail c o w) ∧ (.hosts ∉ H → LoadsWithin s (s.settle onFail c o w)) := by
  obtain ⟨f, hf, hrows⟩ := h.settle
  have hsize : ∀ n, (s.settle onFail c o w).world.sizeOf n = s.world.sizeOf n :=
    sizeOf_update hrows hf.id hf.resources
  have hnodes := StepCommit.settle_nodes (s := s) c o w
  have hunplaced : ∀ r ∈ (s.settle onFail c o w).operations, r.active →
      (r.kind = .create ∨ r.kind = .createReplica) → r.unstarted →
      (s.settle onFail c o w).world.nodesOf r.database = [] := by
    intro x hx hactive hkind hx₀
    obtain ⟨y, hy, hya, hy₀, hydb, hykind, hown⟩ := unstarted_settle hledger hrun hx hactive hx₀
    have hbefore := hs.unplaced y hy hya (hykind ▸ hkind) hy₀
    rw [nodesOf, hnodes, ← hydb]
    by_cases hc : y.database = c.database
    · by_cases hseq : y.seq = c.op
      · obtain ⟨_, rfl⟩ := hown hseq
        rw [h.wait_writes_nothing]
        exact hbefore
      · have hprov := (hs.lifecycle.others hrun hy hya hc hseq).2.2
        rcases hkind with hk | hk <;> rw [hykind, hk] at hprov <;> cases hprov
    · exact (h.nodesOf hc s.world).trans hbefore
  rcases h.nodes_cases hs hledger hrun with hthin | ⟨_, _, _, _, hadded, hrows'⟩
  · have hloads : LoadsWithin s (s.settle onFail c o w) := by
      intro host dim
      rw [used_amount, used_amount, loadOf_congr fun n _ => hsize n, hnodes]
      exact hthin.loads host dim
    refine ⟨⟨hs.lifecycle.settle hledger hrun h, ?_, fun id => ?_, hunplaced⟩, fun _ => hloads⟩
    · intro host hhost cap hcap dim
      exact (hloads host.id dim).trans (hs.bound host hhost cap hcap dim)
    · rw [liveNodes, hnodes]
      exact (hs.apart id).sublist (hthin.live id)
  · rw [hrows'] at hnodes
    refine ⟨⟨hs.lifecycle.settle hledger hrun h, hadded.bound hs.bound hsize hnodes,
      hadded.apart hs.apart hnodes, hunplaced⟩, fun hk => (hk hadded.hosts.locked).elim⟩

end Steps

/-! ## Handlers -/

section Handlers

variable {call : Call} {r : ApiResult} {resources : Resources}

theorem le_growth (old new : Resources) (dim : Dim) :
    (new.minus old).amount dim ≤ (growth old new).amount dim := by
  cases dim with
  | vcpu | memoryGb => exact le_max_left _ _
  | storageGb => exact le_refl _

/-- A database grows by what its hosts have free, on one node a host. -/
theorem NotOvercommitted.resize (hs : Capacity F s)
    (hlive : ∀ n ∈ s.world.nodes, n.database = id → n.retracted = false)
    (hrow : s.world.db? id = some d) (hlocked : .hosts ∈ H)
    (hfits : ∃ s₀ s₁, (capacity F).Fresh (.api call) .hosts s₀ s₁
      ∧ (capacity F).contract.Later H s₁ s
      ∧ ∀ h ∈ F.hostLoads call.env s₀.world, (∃ n ∈ s.world.liveNodes id, n.host = h.host.id) →
        (h.free F.config).any (fits · (growth d.resources resources))) :
    NotOvercommitted F (s.world.update id fun d => { d with resources := resources }) := by
  obtain ⟨s₀, _, hfresh, hl, hroom⟩ := hfits
  have hall : s.world.nodesOf id = s.world.liveNodes id := by
    refine filter_congr fun n hn => ?_
    by_cases hdb : n.database = id
    · simp [hdb, hlive n hn hdb]
    · simp [hdb]
  intro host hhost cap hcap dim
  have hsize : ∀ n ∈ s.world.nodes,
      ((s.world.update id fun d => { d with resources := resources }).sizeOf n).amount dim
        = (s.world.sizeOf n).amount dim
          + if n.database = id then (resources.minus d.resources).amount dim else 0 := by
    intro n _
    rw [World.sizeOf, World.sizeOf]
    by_cases hdb : n.database = id
    · rw [hdb, World.db?_update_self, hrow, if_pos rfl, Resources.minus_at]
      · show resources.amount dim = d.resources.amount dim + _
        linarith
      · exact fun _ => rfl
    · rw [World.db?_update_ne, if_neg hdb, add_zero]
      · exact fun _ => rfl
      · exact hdb
  have hgrow : loadOf (s.world.update id fun d => { d with resources := resources }).sizeOf
      s.world.nodes host.id dim = loadOf s.world.sizeOf s.world.nodes host.id dim
        + loadOf (fun _ => resources.minus d.resources) (s.world.nodesOf id) host.id dim :=
    loadOf_grow fun n hn => by simpa using hsize n hn
  rw [used_amount]
  refine hgrow.le.trans ?_
  rw [hall, loadOf_single (fun _ _ => rfl) (hs.apart id), ← used_amount]
  split
  · next hmem =>
    obtain ⟨n, hn, hhere⟩ := mem_map.mp hmem
    have hok := hroom _ (mem_map_of_mem hhost) ⟨n, hn, hhere⟩
    obtain ⟨_, hfree, hfits⟩ := (Option.any_eq_true _ _).mp hok
    rw [HostLoad.free, hcap] at hfree
    cases hfree
    have hfits := fits_at hfits dim
    rw [Resources.minus_at] at hfits
    have hnow : (s.world.used host.id).amount dim ≤ (s₀.world.used host.id).amount dim :=
      (later_loads hlocked hl host.id dim).trans (hfresh rfl host.id dim)
    have hmore := le_growth d.resources resources dim
    linarith
  · rw [add_zero]
    exact hs.bound host hhost cap hcap dim

theorem HandlerCommit.nodes_cases (hs : Capacity F s) (hcond : noneRetracted (.api call) s)
    (h : HandlerCommit (capacity F) F call H s r w) : ((w s.world).nodes = s.world.nodes
        ∧ ((∀ n ∈ s.world.nodes, (w s.world).sizeOf n = s.world.sizeOf n)
          ∨ .hosts ∈ H ∧ NotOvercommitted F (w s.world)))
      ∨ s.busy r.target = false ∧ (∀ n, (w s.world).sizeOf n = s.world.sizeOf n)
        ∧ ∃ rows d chosen avoid, Added F (.api call) call.env H s r.target rows d chosen avoid
          ∧ (w s.world).nodes = s.world.nodes ++ rows := by
  have hupdate : ∀ {id : String} (f : DatabaseRow → DatabaseRow), (∀ d, (f d).id = d.id) →
      (∀ d, (f d).resources = d.resources) →
      ∀ n ∈ s.world.nodes, (s.world.update id f).sizeOf n = s.world.sizeOf n :=
    fun f hid hres n _ => sizeOf_update rfl hid hres n
  cases h with
  | inserted _ _ hnew =>
    refine .inl ⟨rfl, .inl fun n hn => ?_⟩
    obtain ⟨_, hd₀, -⟩ := hs.lifecycle.placed n hn
    rw [World.sizeOf, World.sizeOf, World.db?_insert hnew.fresh, if_neg]
    intro hid
    rw [hid, hnew.fresh] at hd₀
    cases hd₀
  | promoted | deleted | certified | swept =>
    exact .inl ⟨rfl, .inl (hupdate _ (fun _ => rfl) fun _ => rfl)⟩
  | started => exact .inl ⟨rfl, .inl fun _ _ => rfl⟩
  | resized id _ resources hcall hrow _ _ _ hlocked hfits =>
    refine .inl ⟨rfl, .inr ⟨hlocked, .resize hs ?_ hrow.row hlocked hfits⟩⟩
    intro n hn hdb
    obtain ⟨_, request⟩ := call
    obtain rfl : request = .resize id resources := hcall
    have hok := all_eq_true.mp hcond n hn
    simpa [hdb] using hok
  | replaced id d _ number load port hrow _ _ hidle hchosen haway =>
    refine .inr ⟨hidle, fun _ => rfl, [⟨id, number, load.host.id, port, false⟩], d, [load], [],
      ⟨hrow.row, hchosen, ⟨.refl _, ?_, ?_, nodup_singleton _⟩, ?_⟩, rfl⟩
    · simp
    · simp
    · simpa using haway

theorem Capacity.commit (hs : Capacity F s) (hledger : Ledger s)
    (hcond : noneRetracted (.api call) s) (h : HandlerCommit (capacity F) F call H s r w) :
    Capacity F (r.commit w s) ∧ (.hosts ∉ H → LoadsWithin s (r.commit w s)) := by
  have hlife := hs.lifecycle.commit hledger h
  have hunplaced : (∀ y ∈ s.operations, y.active → s.world.nodesOf y.database = [] →
        (w s.world).nodesOf y.database = []) →
      ∀ x ∈ (r.commit w s).operations, x.active →
        (x.kind = .create ∨ x.kind = .createReplica) → x.unstarted →
        (r.commit w s).world.nodesOf x.database = [] := by
    intro hkept x hx hactive hkind hx₀
    rw [commit_world]
    rcases active_commit hx hactive with ⟨hold, -⟩ | ⟨kind, params, hcreate, rfl⟩
    · exact hkept x hold hactive (hs.unplaced x hold hactive hkind hx₀)
    · rcases h.effect hs.lifecycle with ⟨d, k, hnew, rfl, rfl⟩ | ⟨-, d, f, heffect⟩
      · -- nodes have databases, and this one is new
        refine filter_eq_nil_iff.mpr fun n hn hdb => ?_
        obtain ⟨_, hd₀, -⟩ := hs.lifecycle.placed n hn
        have hdb : n.database = d.id := of_decide_eq_true hdb
        rw [hdb, hnew.fresh] at hd₀
        cases hd₀
      · have hnot := (heffect.new kind params hcreate).notNew
        rcases hkind with hk | hk
        · exact (hnot.1 hk).elim
        · exact (hnot.2 hk).elim
  rcases h.nodes_cases hs hcond with ⟨hnodes, hsizes⟩ |
    ⟨hidle, hsize, rows, d, chosen, avoid, hadded, hnodes⟩
  · have hsame : ∀ y ∈ s.operations, y.active → s.world.nodesOf y.database = [] →
        (w s.world).nodesOf y.database = [] := by
      intro y _ _ hnone
      rw [nodesOf, hnodes]
      exact hnone
    have happart : ∀ j, (((r.commit w s).world.liveNodes j).map (·.host)).Nodup := by
      intro j
      rw [liveNodes, commit_world, hnodes]
      exact hs.apart j
    rcases hsizes with hsizes | ⟨hlocked, hbound⟩
    · have hloads : LoadsWithin s (r.commit w s) := by
        intro host dim
        rw [commit_world, used_amount, used_amount, hnodes, loadOf_congr hsizes]
      refine ⟨⟨hlife, ?_, happart, hunplaced hsame⟩, fun _ => hloads⟩
      intro host hhost cap hcap dim
      exact (hloads host.id dim).trans (hs.bound host hhost cap hcap dim)
    · refine ⟨⟨hlife, ?_, happart, hunplaced hsame⟩, fun hk => (hk hlocked).elim⟩
      rw [commit_world]
      exact hbound
  · have hnodes' : (r.commit w s).world.nodes = s.world.nodes ++ rows := by
      rw [commit_world, hnodes]
    refine ⟨⟨hlife, hadded.bound hs.bound ?_ hnodes', hadded.apart hs.apart hnodes',
      hunplaced ?_⟩, fun hk => (hk hadded.hosts.locked).elim⟩
    · rw [commit_world]
      exact hsize
    · intro y hy hactive hnone
      have hne := not_busy hidle hy hactive
      rw [nodesOf, hnodes]
      exact (World.nodesOf_addNodes hadded.placed.database hne).trans hnone

end Handlers

/-! ## Whole runs -/

theorem capacity_verified (F : Fleet) (a : Request Env Call) :
    (capacity F).contract.Verified a ((adminEngine F).program a) none ∅ fun _ => True := by
  refine verified_of_commits (capacity_framed F) (fun _ h => h.lifecycle) ?_ ?_ a
  · intro _ e c o w H s hledger hs hrun _ hdb h
    obtain ⟨hinv, hloads⟩ := hs.settle hledger hrun h
    exact ⟨hinv, .settle hs.lifecycle hrun hdb h, hloads⟩
  · intro _ r w H s hledger hs hcond h
    obtain ⟨hinv, hloads⟩ := hs.commit hledger hcond h
    exact ⟨hinv, .commit hs.lifecycle h, hloads⟩

theorem capacity_empty (F : Fleet) : Capacity F ⟨[], 0, empty, []⟩ := by
  refine ⟨lifecycle_empty, ?_, fun id => nodup_nil, ?_⟩
  · intro h hh cap hcap dim
    have hsize := F.config.allocatable_nonneg (F.sizes h hh cap hcap) dim
    rw [used_amount]
    exact hsize.trans (le_add_of_nonneg_right (by norm_num [EPSILON]))
  · intro r hr
    cases hr

/-- A step of a run that places on fresh loads: where the lock on the hosts is
granted, nothing more is asked of them than the statement has read, and
where a `resize` commits, no node of its database is retracted. -/
def PlacesFresh (st : Store (Tables World) Key Claimed (Request Env Call)) :
    TxnLabel Key (Request Env Call) → Prop
  | .advance i _ => ∀ t, st.sessions i = some t →
      (∀ next s₀, t.todo = .lock .hosts next → t.snapshot = some s₀ → LoadsWithin s₀ st.tables)
        ∧ ∀ write, t.todo = .commit write → noneRetracted t.request st.tables = true
  | _ => True

theorem permits_iff_placesFresh {st : Store (Tables World) Key Claimed (Request Env Call)}
    {l : TxnLabel Key (Request Env Call)} :
    (capacity F).contract.Permits st l ↔ PlacesFresh st l := by
  cases l with
  | start | crash => rfl
  | advance =>
    refine Contract.permits_iff.trans (forall₂_congr fun t _ => and_comm.trans ?_)
    refine and_congr_left' ⟨fun h next s₀ htodo hsnap => h _ next s₀ htodo hsnap rfl, ?_⟩
    rintro h k next s₀ htodo hsnap rfl
    exact h next s₀ htodo hsnap

/-- Hosts are never overcommitted, in every state of every run that places on
fresh loads. -/
theorem hosts_never_overcommitted (F : Fleet)
    {st : Store (Tables World) Key Claimed (Request Env Call)}
    (hr : ((adminEngine F).machine World.empty).Reaches PlacesFresh st) :
    NotOvercommitted F st.tables.world := by
  have hgood : (capacity F).contract.Good st :=
    Contract.sound ⟨Engine.ledger_empty _, capacity_empty F⟩
      (capacity_verified F) (hr.mono fun _ _ => permits_iff_placesFresh.mpr)
  exact hgood.inv.2.bound

/-- Requests one after the other find the loads they have read. -/
theorem placesFresh_of_serial {l : List (Request Env Call × Option Key)} {s : Tables World}
    (h : serial (adminEngine F).program noneRetracted l ⟨[], 0, empty, []⟩ = some s) :
    ((adminEngine F).machine empty).Reaches PlacesFresh (Store.idle s) := by
  have hr := Contract.reaches_of_serial (C := (capacity F).contract)
    (fun _ _ _ _ _ _ => le_refl _) (fun _ _ h => h) .init h
  exact hr.mono fun _ _ => permits_iff_placesFresh.mp

/-- Three nodes are placed, and grow to half of what their hosts have. -/
theorem hosts_never_overcommitted_grown :
    ∃ st, ((adminEngine fourHosts).machine World.empty).Reaches PlacesFresh st
      ∧ (st.tables.world.used "h1").memoryGb = 2
      ∧ NotOvercommitted fourHosts st.tables.world := by
  have hrun : (serial (adminEngine fourHosts).program noneRetracted
      (bringUp ++ [(.api ⟨calm "", .resize "s" ⟨2, 2, 2⟩⟩, none)])
      ⟨[], 0, World.empty, []⟩).any fun s => (s.world.used "h1").memoryGb = 2 := by
    decide +kernel
  obtain ⟨s, hs, hused⟩ := (Option.any_eq_true _ _).mp hrun
  have hr := placesFresh_of_serial hs
  exact ⟨_, hr, of_decide_eq_true hused, hosts_never_overcommitted fourHosts hr⟩

/-- One host, with room for one node of size one. -/
def oneHost : Fleet where
  config := fourHosts.config
  hosts := [⟨"h1", "h1", none, some ⟨1, 2, 1⟩⟩]
  describe _ := ""
  ids := by decide
  sizes := by
    intro h hh c hc d
    obtain rfl := List.mem_singleton.mp hh
    cases hc
    cases d <;> norm_num [Resources.amount]

/-- Two reconcilers place two databases. Both have read the loads of the
host when the first gets its lock; the second waits, and places on what it
read. -/
def bothPlace : List (TxnLabel Key (Request Env Call)) :=
  ([.start 0 (.reconcile false (calm "a")), .start 1 (.reconcile false (calm "b"))] :
      List (TxnLabel Key (Request Env Call)))
    ++ (List.replicate 8 (.advance 0 (some (.step 0 0))) : List (TxnLabel Key (Request Env Call)))
    ++ (List.replicate 8 (.advance 1 (some (.step 1 0))) : List (TxnLabel Key (Request Env Call)))
    ++ (List.replicate 3 (.advance 0 none) : List (TxnLabel Key (Request Env Call)))
    ++ (List.replicate 3 (.advance 1 none) : List (TxnLabel Key (Request Env Call)))

/-- A replacement of node 1 of `s`, on `h1`, fails with the node retracted
but still there. Then `t` takes the rest of `h1`, and `s` grows. -/
def growsRetracted : List (Request Env Call × Option Key) :=
  bringUp ++ (.api ⟨calm "", .replace "s" 1 "h4"⟩, none) :: runSteps (calm "") 1 3
    ++ (.reconcile false { calm "" with outcome := some (.fail "no answer") }, some (.step 1 3))
    :: (.api ⟨calm "t", .create "t" false ⟨1, 3, 1⟩ ["h1"]⟩, none)
    :: (.reconcile false (calm "t"), some (.step 2 0))
    :: [(.api ⟨calm "", .resize "s" ⟨1, 2, 1⟩⟩, none)]

/-- Is a host asked for at least one unit of memory more than it has? -/
def overcommitted (F : Fleet) (w : World) : Bool :=
  F.hosts.any fun h => h.capacity.any fun capacity =>
    (F.config.allocatable capacity).memoryGb + 1 ≤ (w.used h.id).memoryGb

theorem overcommitted_not {w : World} (h : overcommitted F w) : ¬ NotOvercommitted F w := by
  intro hbound
  obtain ⟨host, hhost, hover⟩ := any_eq_true.mp h
  obtain ⟨cap, hcap, hover⟩ := (Option.any_eq_true _ _).mp hover
  have hover := of_decide_eq_true hover
  have hle : (w.used host.id).memoryGb ≤ (F.config.allocatable cap).memoryGb + EPSILON :=
    hbound host hhost cap hcap .memoryGb
  have hsmall : EPSILON < 1 := by norm_num [EPSILON]
  linarith

theorem stale_loads_overcommit : (∃ st, ((adminEngine oneHost).machine World.empty).Reachable st
        ∧ overcommitted oneHost st.tables.world = true ∧ ¬ NotOvercommitted oneHost st.tables.world)
      ∧ ∃ st, ((adminEngine fourHosts).machine World.empty).Reachable st
        ∧ overcommitted fourHosts st.tables.world = true
        ∧ ¬ NotOvercommitted fourHosts st.tables.world := by
  constructor
  · obtain ⟨_, hr, hrun⟩ := exists_serial oneHost
      [(.api ⟨calm "a", .create "a" false ⟨1, 1, 1⟩ []⟩, none),
        (.api ⟨calm "b", .create "b" false ⟨1, 1, 1⟩ []⟩, none)]
      (fun s => (((adminEngine oneHost).machine empty).runFrom (Store.idle s) bothPlace).any
        fun st => overcommitted oneHost st.tables.world) (by decide +kernel)
    obtain ⟨st, hst, hover⟩ := (Option.any_eq_true _ _).mp hrun
    exact ⟨st, hr.runFrom (Machine.meets_true _ _) hst, hover, overcommitted_not hover⟩
  · obtain ⟨_, hr, hover⟩ := exists_serial fourHosts growsRetracted
      (fun s => overcommitted fourHosts s.world) (by decide +kernel)
    exact ⟨_, hr, hover, overcommitted_not hover⟩

end PgCluster.Admin
