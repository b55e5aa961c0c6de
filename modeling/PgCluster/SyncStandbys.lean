import PgCluster.ConfigValidate
import PgCluster.Machine
import PgCluster.RaftCommands

/-!
# The standbys a synchronous mode names

In `sync` and `sync_strict` a commit waits for one of the standbys that
`synchronous_standby_names` lists, and with an empty list it waits for
nobody. The list has the members other than the primary. The two guards in
front of a synchronous mode, `validate` and `set_mode`, count every node
instead: the primary, and external standbys, which are never listed. The
handlers that take nodes away, or turn a member into an external standby by
adding it again, have no guard.

The machine here starts from the topology that the bootstrap seed leaves.
A handler or an engine proposes a command by a topology the watch has shown,
and the command is committed some time later, or never.
-/

namespace PgCluster

open ClusterTopology List Option

/-! ## The bootstrap seed -/

/-- `max_by_key(priority)`: of several, the last. -/
def highestPriority : List NodeEntry → Option NodeEntry
  | [] => none
  | n :: rest =>
    match highestPriority rest with
    | none => some n
    | some m => if n.priority ≤ m.priority then some m else some n

def NodeEntry.config (n : NodeEntry) : NodeConfig :=
  ⟨n.id, n.agentAddr, n.postgresAddr, n.priority, n.tags⟩

/-- The commands the bootstrap task writes, in its order. -/
def seedCommands (cfg : PgClusterConfig) : List TopologyCommand :=
  if cfg.nodes.isEmpty then []
  else
    cfg.nodes.map (fun n => .addNode n.config)
    ++ (highestPriority cfg.nodes).toList.map (fun n => .setPrimary n.id 0 1)
    ++ [.setReplicationMode cfg.replication.replicationMode]

def applyCommands (now : Int) (t : ClusterTopology) (cmds : List TopologyCommand) :
    ClusterTopology :=
  cmds.foldl (ClusterTopology.applyCommand now) t

/-- The topology after the seed. The clock of the last command is the one
that stays. -/
def seedTopology (now : Int) (cfg : PgClusterConfig) : ClusterTopology :=
  applyCommands now .empty (seedCommands cfg)

/-! ## Handlers and engines -/

/-- The body of `POST /api/nodes`. -/
structure AddNodeRequest where
  nodeId : String
  agentAddr : String
  postgresAddr : String
  priority : Option Nat := none
  «external» : Bool := false
deriving DecidableEq

def AddNodeRequest.config (req : AddNodeRequest) : NodeConfig where
  nodeId := req.nodeId
  agentAddr := req.agentAddr
  postgresAddr := req.postgresAddr
  priority := req.priority.getD 100
  tags := if req.external then Finmap.singleton "role" externalRole else ∅

namespace ClusterTopology

/-- The guard of `set_mode`: it counts every node. -/
def setModeAccepts (t : ClusterTopology) (mode : ReplicationMode) : Bool :=
  mode = .async || 2 ≤ t.nodeConfigs.keys.card

/-- Whom a failover, a switchover, a rolling restart or the monitor, having
read `t`, may propose as primary: a member, or the primary that was marked
offline and came back. -/
def mayPropose (t : ClusterTopology) (nodeId : String) : Bool :=
  t.isMember nodeId
    || t.primaryNodeId = nodeId && t.nodeRoles.lookup nodeId = some .offline

/-- `detach_node` asks for an external standby. -/
def detachAccepts (t : ClusterTopology) (nodeId : String) : Bool :=
  (t.nodeConfigs.lookup nodeId).any NodeConfig.isExternal

/-- The monitor's fallback, in `sync` only. -/
def fallbackAccepts (t : ClusterTopology) (degraded : Bool) : Bool :=
  t.replicationMode = .sync && t.syncDegraded ≠ degraded

end ClusterTopology

/-- Commands that change neither the nodes, nor the primary, nor the mode. -/
def TopologyCommand.isUnguarded : TopologyCommand → Bool
  | .setPrimary .. | .addNode _ | .removeNode _ => false
  | .setReplicationMode _ | .setSyncDegraded _ => false
  | _ => true

/-- `shown` is what the topology watch has shown, the latest first. -/
structure ModeState where
  applied : ClusterTopology
  shown : List ClusterTopology
  proposed : List TopologyCommand

/-- For an engine, `k` is which of the shown topologies it works from. -/
inductive ModeLabel where
  | forward
  | setMode (mode : ReplicationMode)
  | addNode (req : AddNodeRequest)
  | removeNode (nodeId : String)
  | detachNode (nodeId : String)
  | setPrimary (k : Nat) (nodeId : String) (atLsn newTimeline : Nat)
  | setSyncDegraded (k : Nat) (degraded : Bool)
  | other (cmd : TopologyCommand)
  | commit (i : Nat) (now : Int)
deriving DecidableEq

namespace ModeState

def propose (s : ModeState) (cmd : TopologyCommand) : ModeState :=
  { s with proposed := s.proposed ++ [cmd] }

/-- Propose by a topology the watch showed, if its reader accepts. -/
def proposeBy (s : ModeState) (k : Nat) (accepts : ClusterTopology → Bool)
    (cmd : TopologyCommand) : Option ModeState :=
  s.shown[k]?.bind fun t => if accepts t then some (s.propose cmd) else none

def step (s : ModeState) : ModeLabel → Option ModeState
  | .forward => some { s with shown := s.applied :: s.shown }
  | .setMode mode => s.proposeBy 0 (·.setModeAccepts mode) (.setReplicationMode mode)
  | .addNode req => some (s.propose (.addNode req.config))
  | .removeNode nodeId => some (s.propose (.removeNode nodeId))
  | .detachNode nodeId => s.proposeBy 0 (·.detachAccepts nodeId) (.removeNode nodeId)
  | .setPrimary k nodeId atLsn newTimeline =>
    s.proposeBy k (·.mayPropose nodeId) (.setPrimary nodeId atLsn newTimeline)
  | .setSyncDegraded k degraded =>
    s.proposeBy k (·.fallbackAccepts degraded) (.setSyncDegraded degraded)
  | .other cmd => if cmd.isUnguarded then some (s.propose cmd) else none
  | .commit i now =>
    s.proposed[i]?.map fun cmd =>
      { s with
        applied := s.applied.applyCommand now cmd
        proposed := s.proposed.eraseIdx i }

def machine (t : ClusterTopology) : Machine ModeState ModeLabel := ⟨⟨t, [t], []⟩, step⟩

end ModeState

/-! ## Two nodes, none of them external -/

namespace ClusterTopology

variable {t : ClusterTopology} {nodeId id : String} {cfg : NodeConfig} {cmd : TopologyCommand}
  {now : Int}

def NoExternal (t : ClusterTopology) : Prop :=
  ∀ id cfg, t.nodeConfigs.lookup id = some cfg → cfg.isExternal = false

/-- What may be committed: a removal only while two others stay. -/
def leavesTwo (t : ClusterTopology) : TopologyCommand → Bool
  | .removeNode nodeId => 2 ≤ (t.nodeConfigs.erase nodeId).keys.card
  | _ => true

theorem NoExternal.standby (h : t.NoExternal) (htwo : 2 ≤ t.nodeConfigs.keys.card) :
    t.namedStandbys.Nonempty := by
  obtain ⟨id, hid, hne⟩ := Finset.exists_mem_ne htwo t.primaryNodeId
  obtain ⟨cfg, hcfg⟩ := Finmap.mem_iff.mp (Finmap.mem_keys.mp hid)
  exact ⟨id, mem_standbysExcept.mpr ⟨hne, isMember_iff.mpr ⟨cfg, hcfg, h id cfg hcfg⟩⟩⟩

theorem NoExternal.applyCommand (h : t.NoExternal)
    (hadd : ∀ cfg, cmd = .addNode cfg → cfg.isExternal = false) :
    (t.applyCommand now cmd).NoExternal := by
  intro id cfg hcfg
  cases cmd with
  | addNode new =>
    by_cases hid : id = new.nodeId
    · subst hid
      obtain rfl := Option.some.inj ((Finmap.lookup_insert _).symm.trans hcfg)
      exact hadd _ rfl
    · exact h id cfg ((Finmap.lookup_insert_of_ne _ hid).symm.trans hcfg)
  | removeNode nodeId =>
    by_cases hid : id = nodeId
    · subst hid
      exact absurd ((Finmap.lookup_erase _ _).symm.trans hcfg) nofun
    · exact h id cfg ((Finmap.lookup_erase_ne hid).symm.trans hcfg)
  | _ => exact h id cfg hcfg

/-- Two nodes stay two nodes. -/
theorem two_applyCommand (hcmd : t.leavesTwo cmd) (h : 2 ≤ t.nodeConfigs.keys.card) :
    2 ≤ (t.applyCommand now cmd).nodeConfigs.keys.card := by
  cases cmd with
  | addNode cfg =>
    refine h.trans (Finset.card_le_card fun id hid => ?_)
    rw [Finmap.mem_keys] at hid ⊢
    exact Finmap.mem_insert.mpr (.inr hid)
  | removeNode => exact of_decide_eq_true hcmd
  | _ => exact h

theorem standbyNames_eq_empty_iff : t.standbyNames = "" ↔ t.namedStandbys = ∅ := by
  have hsort : t.namedStandbys.sort.isEmpty ↔ t.namedStandbys = ∅ := by
    rw [List.isEmpty_iff, ← toFinset_eq_empty_iff, Finset.sort_toFinset]
  rw [← hsort]
  unfold standbyNames
  dsimp only
  split
  · rename_i hempty
    exact iff_of_true rfl hempty
  · rename_i hempty
    refine iff_of_false (fun h => ?_) hempty
    have hchars := congrArg String.toList h
    simp [String.toList_append] at hchars

/-- Commits have to wait for a standby: `sync_strict`, or `sync` that has not
fallen back. -/
def waitsForStandby (t : ClusterTopology) : Bool :=
  t.replicationMode = .syncStrict || t.replicationMode = .sync && !t.syncDegraded

theorem synchronousStandbyNames_of_waits (h : t.waitsForStandby) :
    t.synchronousStandbyNames = t.standbyNames := by
  unfold synchronousStandbyNames
  cases hmode : t.replicationMode with
  | async => simp [waitsForStandby, hmode] at h
  | sync =>
    have hdegraded : t.syncDegraded = false := by simpa [waitsForStandby, hmode] using h
    simp [hdegraded]
  | syncStrict => rfl

theorem NoExternal.names_ne (h : t.NoExternal)
    (htwo : t.replicationMode ≠ .async → 2 ≤ t.nodeConfigs.keys.card) (hwaits : t.waitsForStandby) :
    t.synchronousStandbyNames ≠ "" := by
  have hmode : t.replicationMode ≠ .async := by
    intro hmode
    simp [waitsForStandby, hmode] at hwaits
  rw [synchronousStandbyNames_of_waits hwaits, Ne, standbyNames_eq_empty_iff]
  exact (h.standby (htwo hmode)).ne_empty

end ClusterTopology

/-! ## The seed -/

variable {nodes : List NodeEntry} {parsesCidr : String → Bool} {cfg : PgClusterConfig} {now : Int}
  {t : ClusterTopology} {s s' : ModeState}

theorem nodup_of_validateNodesFrom {seen : List String}
    (h : validateNodesFrom seen nodes = .ok ()) :
    (nodes.map (·.id)).Nodup ∧ ∀ n ∈ nodes, n.id ∉ seen := by
  induction nodes generalizing seen with
  | nil => exact ⟨nodup_nil, fun n hn => absurd hn not_mem_nil⟩
  | cons node _ ih =>
    rw [validateNodesFrom, check_then_eq_ok, check_then_eq_ok, bailIf_eq_ok, bailIf_eq_ok] at h
    obtain ⟨-, hseen, hrest⟩ := h
    obtain ⟨hnodup, hfresh⟩ := ih hrest
    have hnode : node.id ∉ seen := by simpa using hseen
    refine ⟨?_, ?_⟩
    · rw [map_cons, nodup_cons]
      refine ⟨fun hmem => ?_, hnodup⟩
      obtain ⟨n, hn, hid⟩ := mem_map.mp hmem
      exact hfresh n hn (hid ▸ mem_cons_self)
    · intro n hn
      rcases mem_cons.mp hn with rfl | hn
      · exact hnode
      · exact fun hmem => hfresh n hn (mem_cons_of_mem _ hmem)

theorem nodup_of_validate
    (h : validate parsesCidr cfg = .ok ()) : (cfg.nodes.map (·.id)).Nodup := by
  simp only [validate, check_then_eq_ok] at h
  obtain ⟨-, -, hnodes, -⟩ := h
  exact (nodup_of_validateNodesFrom hnodes).1

theorem noExternal_applyCommands {cmds : List TopologyCommand} (h : t.NoExternal)
    (hadd : ∀ cfg, .addNode cfg ∈ cmds → cfg.isExternal = false) :
    (applyCommands now t cmds).NoExternal := by
  induction cmds generalizing t with
  | nil => exact h
  | cons cmd cmds ih =>
    exact ih (h.applyCommand fun cfg hcmd => hadd cfg (hcmd ▸ mem_cons_self))
      fun cfg hcfg => hadd cfg (mem_cons_of_mem _ hcfg)

/-- Every listed node is configured after the seed. -/
theorem mem_addNodes {id : String} (h : id ∈ nodes.map (·.id) ∨ id ∈ t.nodeConfigs) :
    id ∈ (applyCommands now t (nodes.map fun n => .addNode n.config)).nodeConfigs := by
  induction nodes generalizing t with
  | nil => exact h.resolve_left not_mem_nil
  | cons n _ ih =>
    refine ih ?_
    rw [map_cons, mem_cons] at h
    rcases h with (rfl | h) | h
    · exact .inr (Finmap.mem_insert.mpr (.inl rfl))
    · exact .inl h
    · exact .inr (Finmap.mem_insert.mpr (.inr h))

theorem highestPriority_ne_none (h : nodes ≠ []) : highestPriority nodes ≠ none := by
  cases nodes with
  | nil => exact absurd rfl h
  | cons =>
    rw [highestPriority]
    split
    · exact some_ne_none _
    · split <;> exact some_ne_none _

theorem noExternal_seedTopology (now : Int)
    (h : ∀ n ∈ cfg.nodes, n.config.isExternal = false) : (seedTopology now cfg).NoExternal := by
  refine noExternal_applyCommands (fun _ _ => nofun) fun c hc => ?_
  unfold seedCommands at hc
  split at hc
  · cases hc
  · obtain ⟨n, hn, rfl⟩ : ∃ n ∈ cfg.nodes, n.config = c := by simpa using hc
    exact h n hn

theorem two_seedTopology (now : Int) (hvalid : validate parsesCidr cfg = .ok ())
    (hmode : (seedTopology now cfg).replicationMode ≠ .async) :
    2 ≤ (seedTopology now cfg).nodeConfigs.keys.card := by
  unfold seedTopology seedCommands applyCommands at hmode ⊢
  split at hmode
  · exact absurd rfl hmode
  · next hnodes =>
    obtain ⟨p, hp⟩ := ne_none_iff_exists'.mp
      (highestPriority_ne_none (mt List.isEmpty_iff.mpr hnodes))
    rw [foldl_append, foldl_append, hp] at hmode
    rw [if_neg hnodes, foldl_append, foldl_append, hp]
    have hmode : cfg.replication.replicationMode ≠ .async := hmode
    have hlength : 2 ≤ (cfg.nodes.map (·.id)).length := by
      simp only [validate, check_then_eq_ok, validateReplication, bailIf_eq_ok] at hvalid
      obtain ⟨-, -, -, -, ⟨hreplication, -⟩, -⟩ := hvalid
      rw [length_map]
      refine Nat.le_of_not_lt fun hlt => ?_
      simp [hmode, hlt] at hreplication
    rw [← toFinset_card_of_nodup (nodup_of_validate hvalid)] at hlength
    refine hlength.trans (Finset.card_le_card fun id hid => Finmap.mem_keys.mpr ?_)
    exact mem_addNodes (.inl (mem_toFinset.mp hid))

/-! ## Whole runs -/

/-- No node is added as an external standby, and none is removed unless two
others stay. -/
def ModeState.leavesTwo (s : ModeState) : ModeLabel → Bool
  | .addNode req => !req.external
  | .commit i _ => (s.proposed[i]?).all s.applied.leavesTwo
  | _ => true

/-- What was proposed and shown goes with the topology: nodes to be added are
not external, and where two nodes were seen two are left. -/
structure ModeState.Inv (s : ModeState) : Prop where
  internal : s.applied.NoExternal
  two : s.applied.replicationMode ≠ .async → 2 ≤ s.applied.nodeConfigs.keys.card
  adds : ∀ cfg, .addNode cfg ∈ s.proposed → cfg.isExternal = false
  shown : ∀ t ∈ s.shown, 2 ≤ t.nodeConfigs.keys.card → 2 ≤ s.applied.nodeConfigs.keys.card
  modes : ∀ mode, .setReplicationMode mode ∈ s.proposed → mode ≠ .async →
    2 ≤ s.applied.nodeConfigs.keys.card

namespace ModeState

theorem Inv.propose (h : s.Inv) {cmd : TopologyCommand}
    (hadd : ∀ cfg, cmd = .addNode cfg → cfg.isExternal = false)
    (hmode : ∀ mode, cmd = .setReplicationMode mode → mode ≠ .async →
      2 ≤ s.applied.nodeConfigs.keys.card) : (s.propose cmd).Inv := by
  refine { h with adds := fun cfg hcfg => ?_, modes := fun mode hm hne => ?_ }
  · rcases mem_append.mp hcfg with hcfg | hcfg
    · exact h.adds cfg hcfg
    · exact hadd cfg (mem_singleton.mp hcfg).symm
  · rcases mem_append.mp hm with hm | hm
    · exact h.modes mode hm hne
    · exact hmode mode (mem_singleton.mp hm).symm hne

theorem Inv.proposeBy (h : s.Inv) {k : Nat} {accepts : ClusterTopology → Bool}
    {cmd : TopologyCommand} (hstep : s.proposeBy k accepts cmd = some s')
    (hadd : ∀ cfg, cmd = .addNode cfg → cfg.isExternal = false)
    (hmode : ∀ mode t, cmd = .setReplicationMode mode → mode ≠ .async → accepts t →
      2 ≤ t.nodeConfigs.keys.card) : s'.Inv := by
  obtain ⟨t, ht, hstep⟩ := bind_eq_some_iff.mp hstep
  obtain ⟨haccepts, rfl⟩ := ite_some_none_eq_some.mp hstep
  exact h.propose hadd fun mode hcmd hne =>
    h.shown t (mem_of_getElem? ht) (hmode mode t hcmd hne haccepts)

theorem Inv.commit (h : s.Inv) {i : Nat} {cmd : TopologyCommand} (hcmd : s.proposed[i]? = some cmd)
    (hleaves : s.applied.leavesTwo cmd) :
    Inv { s with
      applied := s.applied.applyCommand now cmd
      proposed := s.proposed.eraseIdx i } := by
  have hmem : cmd ∈ s.proposed := mem_of_getElem? hcmd
  have hsub := eraseIdx_subset (l := s.proposed) (k := i)
  have htwo : _ → 2 ≤ (s.applied.applyCommand now cmd).nodeConfigs.keys.card :=
    two_applyCommand hleaves
  refine ⟨h.internal.applyCommand fun cfg hadd => h.adds cfg (hadd ▸ hmem), ?_,
    fun cfg hcfg => h.adds cfg (hsub hcfg), fun t ht hcard => htwo (h.shown t ht hcard),
    fun mode hm hne => htwo (h.modes mode (hsub hm) hne)⟩
  intro hmode
  refine htwo ?_
  cases cmd with
  | setReplicationMode mode => exact h.modes mode hmem hmode
  | _ => exact h.two hmode

theorem Inv.step {l : ModeLabel} (h : s.Inv) (hl : s.leavesTwo l) (hstep : s.step l = some s') :
    s'.Inv := by
  cases l with
  | forward =>
    cases hstep
    exact { h with shown := forall_mem_cons.mpr ⟨id, h.shown⟩ }
  | setMode mode =>
    refine h.proposeBy hstep nofun fun m t hm hne haccepts => ?_
    cases hm
    simpa [setModeAccepts, hne] using haccepts
  | addNode req =>
    cases hstep
    refine h.propose (fun cfg hcfg => ?_) nofun
    cases hcfg
    have hinternal : req.external = false := by simpa [leavesTwo] using hl
    simp [AddNodeRequest.config, NodeConfig.isExternal, hinternal]
  | removeNode =>
    cases hstep
    exact h.propose nofun nofun
  | detachNode | setPrimary | setSyncDegraded => exact h.proposeBy hstep nofun nofun
  | other cmd =>
    obtain ⟨hcmd, rfl⟩ := ite_some_none_eq_some.mp hstep
    exact h.propose (by rintro _ rfl; cases hcmd) (by rintro _ rfl; cases hcmd)
  | commit =>
    obtain ⟨cmd, hcmd, rfl⟩ := map_eq_some_iff.mp hstep
    exact h.commit hcmd (by simpa [leavesTwo, hcmd] using hl)

end ModeState

/-- From the seed of an accepted configuration without external nodes, as long
as no external standby is added and a node is only removed while two others
stay, a mode in which commits wait always names a standby to wait for. -/
theorem synchronous_modes_name_a_standby {parsesCidr : String → Bool} {cfg : PgClusterConfig}
    (hvalid : validate parsesCidr cfg = .ok ())
    (hinternal : ∀ n ∈ cfg.nodes, n.config.isExternal = false) (now : Int)
    {s : ModeState} (hs : (ModeState.machine (seedTopology now cfg)).Reaches
      (fun s l => s.leavesTwo l = true) s) (hwaits : s.applied.replicationMode = .syncStrict ∨
      s.applied.replicationMode = .sync ∧ s.applied.syncDegraded = false) :
    s.applied.synchronousStandbyNames ≠ "" := by
  have hinv : s.Inv := hs.invariant
    ⟨noExternal_seedTopology now hinternal, two_seedTopology now hvalid, nofun,
      fun t ht => by rw [mem_singleton.mp ht]; exact id, nofun⟩
    fun _ _ _ h hl hstep => h.step hl hstep
  exact hinv.internal.names_ne hinv.two (by simpa [waitsForStandby] using hwaits)

/-! ## Runs -/

def pgNode (id : String) (priority : Nat) (tags : HashMap String String) : NodeEntry where
  id := id
  agentAddr := "127.0.0.1:7010"
  postgresAddr := "127.0.0.1:5432"
  priority := priority
  tags := tags

def modeConfig (nodes : List NodeEntry) (mode : ReplicationMode) : PgClusterConfig where
  cluster := ⟨"test", "/tmp"⟩
  raft := { nodeId := 1, peers := [⟨1, "127.0.0.1:7000"⟩] }
  nodes := nodes
  replication := { replicationMode := mode }
  tls := { insecurePlaintext := true }
  api := { apiKeys := ["test-key"] }

def pair (mode : ReplicationMode) : PgClusterConfig :=
  modeConfig [pgNode "pg1" 100 ∅, pgNode "pg2" 90 ∅] mode

def newNode (id : String) (isExternal : Bool) : AddNodeRequest where
  nodeId := id
  agentAddr := "127.0.0.1:7011"
  postgresAddr := "127.0.0.1:5433"
  «external» := isExternal

/-- A pair in `sync_strict` gets a third node, fails over to it, and gives up
the second. -/
theorem synchronous_modes_name_a_standby_pair :
    ∃ s, (ModeState.machine (seedTopology 0 (pair .syncStrict))).run
        [.addNode (newNode "pg3" false), .commit 0 1, .forward, .setPrimary 0 "pg3" 7 1,
          .commit 0 2, .removeNode "pg2", .commit 0 3] = some s ∧
      s.applied.primaryNodeId = "pg3" ∧ s.applied.synchronousStandbyNames ≠ "" := by
  obtain ⟨s, hs, hprimary, hmode⟩ :=
    (ModeState.machine (seedTopology 0 (pair .syncStrict))).exists_run
      [.addNode (newNode "pg3" false), .commit 0 1, .forward, .setPrimary 0 "pg3" 7 1,
        .commit 0 2, .removeNode "pg2", .commit 0 3] (fun s => s.applied.primaryNodeId = "pg3"
      ∧ s.applied.replicationMode = .syncStrict) (by decide +kernel)
  have hvalid : validate (fun _ => false) (pair .syncStrict) = .ok () := by decide +kernel
  refine ⟨s, hs, hprimary, ?_⟩
  exact synchronous_modes_name_a_standby hvalid (by decide +kernel) 0
    (Machine.reaches_of_run (by decide +kernel) hs) (.inl hmode)

/-- Commits do not wait although they should: the primary is configured, the
mode waits, and nobody is named. -/
def ClusterTopology.namesNobody (t : ClusterTopology) : Bool :=
  (t.nodeConfigs.lookup t.primaryNodeId).isSome && t.waitsForStandby && decide (t.namedStandbys = ∅)

theorem ModeState.namesNobody_spec (s : ModeState) (h : s.applied.namesNobody) :
    (s.applied.nodeConfigs.lookup s.applied.primaryNodeId).isSome ∧
      s.applied.waitsForStandby ∧ s.applied.synchronousStandbyNames = "" := by
  simp only [namesNobody, Bool.and_eq_true, decide_eq_true_iff] at h
  obtain ⟨⟨hprimary, hwaits⟩, hnone⟩ := h
  refine ⟨hprimary, hwaits, ?_⟩
  rw [synchronousStandbyNames_of_waits hwaits, standbyNames_eq_empty_iff, hnone]

/-- Three ways to wait for nobody. `set_mode` takes a cluster of one member
with an external standby for one that has a standby; `remove_node` takes the
last standby away; and `validate` takes an external node for a standby, so
that the seed itself names nobody. -/
theorem synchronous_mode_names_nobody :
    (validate (fun _ => false) (modeConfig [pgNode "pg1" 100 ∅] .async) = .ok () ∧
      ∃ s, (ModeState.machine (seedTopology 0 (modeConfig [pgNode "pg1" 100 ∅] .async))).run
          [.addNode (newNode "dr" true), .commit 0 1, .forward, .setMode .syncStrict,
            .commit 0 2] = some s ∧
        (ModeState.machine (seedTopology 0 (modeConfig [pgNode "pg1" 100 ∅] .async))).Reachable s ∧
        (s.applied.nodeConfigs.lookup s.applied.primaryNodeId).isSome = true ∧
        s.applied.waitsForStandby = true ∧ s.applied.synchronousStandbyNames = "") ∧
    (validate (fun _ => false) (pair .sync) = .ok () ∧
      ∃ s, (ModeState.machine (seedTopology 0 (pair .sync))).run
          [.removeNode "pg2", .commit 0 1] = some s ∧
        (ModeState.machine (seedTopology 0 (pair .sync))).Reachable s ∧
        (s.applied.nodeConfigs.lookup s.applied.primaryNodeId).isSome = true ∧
        s.applied.waitsForStandby = true ∧ s.applied.synchronousStandbyNames = "") ∧
    (validate (fun _ => false) (modeConfig [pgNode "pg1" 100 ∅,
        pgNode "dr" 50 (Finmap.singleton "role" externalRole)] .syncStrict) = .ok () ∧
      ∃ s, (ModeState.machine (seedTopology 0 (modeConfig [pgNode "pg1" 100 ∅,
          pgNode "dr" 50 (Finmap.singleton "role" externalRole)] .syncStrict))).run [] = some s ∧
        (ModeState.machine (seedTopology 0 (modeConfig [pgNode "pg1" 100 ∅,
          pgNode "dr" 50 (Finmap.singleton "role" externalRole)] .syncStrict))).Reachable s ∧
        (s.applied.nodeConfigs.lookup s.applied.primaryNodeId).isSome = true ∧
        s.applied.waitsForStandby = true ∧ s.applied.synchronousStandbyNames = "") := by
  refine ⟨⟨by decide +kernel, ?_⟩, ⟨by decide +kernel, ?_⟩, by decide +kernel, ?_⟩
  all_goals exact Machine.exists_of_run (by decide +kernel) ModeState.namesNobody_spec

end PgCluster
