import PgCluster.SyncStandbys

/-!
# Seeding across restarts

The bootstrap instance writes its configured nodes, a primary and the replication mode
into the topology each time it starts, unless a node is there already. That is all it
asks: what is missing after a run that was cut off, or had a write fail, behind its first
node is never written.
-/

namespace PgCluster

open List

/-- A run of the seed task on the leader, with the clock at which each of its writes was
applied, or none for one that failed, as far as the run got; or a change of the mode by
somebody else. -/
inductive SeedLabel where
  | run (outcomes : List (Option Int))
  | setMode (now : Int) (mode : ReplicationMode)

def cleanRun (cfg : PgClusterConfig) (outcomes : List (Option Int)) : Bool :=
  (seedCommands cfg).length ≤ outcomes.length && outcomes.all Option.isSome

namespace SeedLabel

/-- The step is not a run that was left in the middle. -/
def whole (cfg : PgClusterConfig) : SeedLabel → Bool
  | .run outcomes => outcomes.all Option.isNone || cleanRun cfg outcomes
  | .setMode .. => true

def changesMode : SeedLabel → Bool
  | .run _ => false
  | .setMode .. => true

end SeedLabel

namespace ClusterTopology

/-- Writes, one after the other. The task logs one that fails and goes on. -/
def writeAll (t : ClusterTopology) (cmds : List TopologyCommand) (outcomes : List (Option Int)) :
    ClusterTopology :=
  (cmds.zip outcomes).foldl (fun t (cmd, o) => (o.map (t.applyCommand · cmd)).getD t) t

def seedRun (cfg : PgClusterConfig) (t : ClusterTopology) (outcomes : List (Option Int)) :
    ClusterTopology :=
  if t.nodeConfigs.keys = ∅ then t.writeAll (seedCommands cfg) outcomes else t

def seedStep (cfg : PgClusterConfig) (t : ClusterTopology) : SeedLabel → ClusterTopology
  | .run outcomes => t.seedRun cfg outcomes
  | .setMode now mode => t.applyCommand now (.setReplicationMode mode)

def seedSteps (cfg : PgClusterConfig) (ls : List SeedLabel) : ClusterTopology :=
  ls.foldl (seedStep cfg) .empty

/-- All nodes are there and one of them is the primary, and the mode is the configured
one if it was not changed. -/
structure Seeded (cfg : PgClusterConfig) (changed : Prop) (t : ClusterTopology) : Prop where
  nodes : ∀ n ∈ cfg.nodes, n.id ∈ t.nodeConfigs
  primary : t.primaryNodeId ∈ cfg.nodes.map (·.id)
  mode : ¬ changed → t.replicationMode = cfg.replication.replicationMode

variable {cfg : PgClusterConfig} {changed : Prop} {t : ClusterTopology}
  {outcomes : List (Option Int)}

theorem mem_of_highestPriority {nodes : List NodeEntry} {p : NodeEntry}
    (h : highestPriority nodes = some p) : p ∈ nodes := by
  induction nodes with
  | nil => cases h
  | cons =>
    rw [highestPriority] at h
    grind

theorem writeAll_append (cmds cmds' : List TopologyCommand) : t.writeAll (cmds ++ cmds') outcomes
      = (t.writeAll cmds outcomes).writeAll cmds' (outcomes.drop cmds.length) := by
  induction cmds generalizing t outcomes with
  | nil => rfl
  | cons _ _ ih =>
    cases outcomes with
    | nil => simp [writeAll]
    | cons => exact ih

theorem writeAll_none (cmds : List TopologyCommand) (h : outcomes.all Option.isNone) :
    t.writeAll cmds outcomes = t := by
  induction cmds generalizing outcomes with
  | nil => rfl
  | cons _ _ ih =>
    match outcomes, h with
    | [], _ => rfl
    | none :: outcomes, h => exact ih h

theorem mem_writeAll_addNode {nodes : List NodeEntry} (hlength : nodes.length ≤ outcomes.length)
    (hall : outcomes.all Option.isSome) {id : String}
    (hid : id ∈ t.nodeConfigs ∨ id ∈ nodes.map (·.id)) :
    id ∈ (t.writeAll (nodes.map fun n => .addNode n.config) outcomes).nodeConfigs := by
  induction nodes generalizing t outcomes with
  | nil => exact hid.resolve_right not_mem_nil
  | cons _ _ ih =>
    match outcomes, hall with
    | some now :: outcomes, hall =>
      refine ih (Nat.le_of_succ_le_succ hlength) hall ?_
      rw [map_cons, mem_cons, ← or_assoc] at hid
      exact hid.imp_left fun hid => Finmap.mem_insert.mpr hid.symm

theorem seeded_of_clean (hnodes : cfg.nodes ≠ []) (hclean : cleanRun cfg outcomes) :
    Seeded cfg changed (t.writeAll (seedCommands cfg) outcomes) := by
  obtain ⟨p, hp⟩ := Option.ne_none_iff_exists'.mp (highestPriority_ne_none hnodes)
  have hcmds : seedCommands cfg = cfg.nodes.map (fun n => .addNode n.config)
      ++ [.setPrimary p.id 0 1, .setReplicationMode cfg.replication.replicationMode] := by
    simp [seedCommands, hnodes, hp]
  obtain ⟨hlength, hall⟩ := Bool.and_eq_true_iff.mp hclean
  have hlength := of_decide_eq_true hlength
  rw [hcmds, length_append, length_map] at hlength
  rw [hcmds, writeAll_append, length_map]
  have hadded (n : NodeEntry) (hn : n ∈ cfg.nodes) := mem_writeAll_addNode
    (t := t) (Nat.le_of_add_right_le hlength) hall (.inr (mem_map_of_mem hn))
  -- what is left of the outcomes are those of the last two writes
  have hrest : (outcomes.drop cfg.nodes.length).all Option.isSome :=
    all_eq_true.mpr fun o ho => all_eq_true.mp hall o (mem_of_mem_drop ho)
  have htwo : 2 ≤ (outcomes.drop cfg.nodes.length).length := by
    rw [length_drop]
    exact Nat.le_sub_of_add_le' hlength
  match outcomes.drop cfg.nodes.length, hrest, htwo with
  | some now :: some now' :: _, _, _ =>
    exact ⟨hadded, mem_map_of_mem (mem_of_highestPriority hp), fun _ => rfl⟩

theorem Seeded.seedRun (h : Seeded cfg changed t) (hnodes : cfg.nodes ≠ [])
    (outcomes : List (Option Int)) : t.seedRun cfg outcomes = t := by
  obtain ⟨n, hn⟩ := exists_mem_of_ne_nil _ hnodes
  refine if_neg fun hempty => ?_
  have hkey := Finmap.mem_keys.mpr (h.nodes n hn)
  rw [hempty] at hkey
  exact Finset.notMem_empty _ hkey

theorem unseeded_or_seeded {l : SeedLabel} (hnodes : cfg.nodes ≠ [])
    (h : t.nodeConfigs.keys = ∅ ∨ Seeded cfg changed t) (hwhole : l.whole cfg)
    (hmode : l.changesMode → changed) :
    (t.seedStep cfg l).nodeConfigs.keys = ∅ ∨ Seeded cfg changed (t.seedStep cfg l) := by
  cases l with
  | setMode => exact h.imp_right fun h => ⟨h.nodes, h.primary, absurd (hmode rfl)⟩
  | run =>
    rw [seedStep]
    obtain hempty | h := h
    · rw [seedRun, if_pos hempty]
      obtain hnone | hclean := Bool.or_eq_true_iff.mp hwhole
      · exact .inl (by rwa [writeAll_none _ hnone])
      · exact .inr (seeded_of_clean hnodes hclean)
    · exact .inr (by rwa [h.seedRun hnodes])

/-- If no run before it was left in the middle, then after a clean run all is there, and
further runs change nothing. -/
theorem seeding_completes (cfg : PgClusterConfig) (ls : List SeedLabel)
    (outcomes : List (Option Int)) (hnodes : cfg.nodes ≠ [])
    (hwhole : ∀ l ∈ ls, l.whole cfg = true) (hclean : cleanRun cfg outcomes = true) :
    let t := seedSteps cfg (ls ++ [.run outcomes])
    Seeded cfg (ls.any SeedLabel.changesMode = true) t ∧ ∀ os, t.seedRun cfg os = t := by
  let changed := ls.any SeedLabel.changesMode = true
  have hbefore : (seedSteps cfg ls).nodeConfigs.keys = ∅ ∨ Seeded cfg changed (seedSteps cfg ls) :=
    List.foldlRecOn (motive := fun t => t.nodeConfigs.keys = ∅ ∨ Seeded cfg changed t) ls _
      (.inl rfl) fun t h l hl => unseeded_or_seeded hnodes h (hwhole l hl)
        fun hmode => any_eq_true.mpr ⟨l, hl, hmode⟩
  have hafter : Seeded cfg changed (seedSteps cfg (ls ++ [.run outcomes])) := by
    rw [seedSteps, foldl_append]
    show Seeded cfg changed ((seedSteps cfg ls).seedRun cfg outcomes)
    obtain hempty | h := hbefore
    · rw [seedRun, if_pos hempty]
      exact seeded_of_clean hnodes hclean
    · rwa [h.seedRun hnodes]
  exact ⟨hafter, hafter.seedRun hnodes⟩

/-- Every write of a first run fails. -/
theorem seeding_completes_secondRun : Seeded (pair .sync) False
      (seedSteps (pair .sync) [.run [none, none], .run [some 1, some 2, some 3, some 4]]) := by
  have h := (seeding_completes (pair .sync) [.run [none, none]] [some 1, some 2, some 3, some 4]
    nofun (by decide) (by decide)).1
  exact ⟨h.nodes, h.primary, fun _ => h.mode (by decide)⟩

/-- A first run crashes behind its first node, and the second leaves it at that. -/
theorem seed_stays_partial : validate (fun _ => false) (pair .sync) = .ok ()
      ∧ cleanRun (pair .sync) [some 1, some 2, some 3, some 4] = true
      ∧ (let t := seedSteps (pair .sync) [.run [some 1], .run [some 1, some 2, some 3, some 4]]
        "pg2" ∉ t.nodeConfigs ∧ t.primaryNodeId = "" ∧ t.replicationMode = .async) := by
  decide +kernel

end ClusterTopology

end PgCluster
