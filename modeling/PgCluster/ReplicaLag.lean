import PgCluster.TopologyRoles

/-!
# The recorded lag of replicas

How far a replica's recorded position trails the primary's (`gap`), and the lag
that is recorded of it, which the router, `/api/nodes` and the hosts that wait
for a standby go by (`lagBytes`). Positions come in with many commands, and the
lag only with a health check of the replica itself. The two agree right after
one, and the lag falls short when the gap widens later: the primary moves on,
another node becomes the primary, or a node comes back.
-/

namespace PgCluster

/-! ## `api/nodes.rs` -/

def NodeRole.toText : NodeRole → String
  | .primary => "primary"
  | .replica => "replica"
  | .offline => "offline"
  | .maintenance => "maintenance"
  | .unknown => "unknown"

structure NodeInfo where
  nodeId : String
  role : String
  postgresAddr : String
  agentAddr : String
  priority : Nat
  flushLsn : Nat
  replayLsn : Nat
  lagBytes : Nat
deriving DecidableEq

namespace ClusterTopology

def flushLsn (t : ClusterTopology) (id : String) : Nat := (t.lastFlushLsns.lookup id).getD 0

/-- The lag as it is used: none counts as zero. -/
def lagBytes (t : ClusterTopology) (id : String) : Nat := (t.replicaLagBytes.lookup id).getD 0

/-- `missing` stands for a role that is not there. -/
def nodeInfo (t : ClusterTopology) (missing : String) (cfg : NodeConfig) : NodeInfo where
  nodeId := cfg.nodeId
  role := ((t.role cfg.nodeId).map NodeRole.toText).getD missing
  postgresAddr := cfg.postgresAddr
  agentAddr := cfg.agentAddr
  priority := cfg.priority
  flushLsn := t.flushLsn cfg.nodeId
  replayLsn := (t.lastReplayLsns.lookup cfg.nodeId).getD 0
  lagBytes := t.lagBytes cfg.nodeId

/-- In the order the map gives its keys. -/
def listNodes (t : ClusterTopology) (order : List String) : List NodeInfo :=
  order.filterMap fun id => (t.nodeConfigs.lookup id).map (t.nodeInfo "unknown")

def getNode (t : ClusterTopology) (id : String) : Option NodeInfo :=
  (t.nodeConfigs.lookup id).map (t.nodeInfo "")

end ClusterTopology

/-- `CAUGHT_UP_BYTES` of `vk-agent/src/host/tasks.rs`. -/
def caughtUpBytes : Nat := 16 * 1024 * 1024

/-- What `wait_for_standby` waits for. -/
def standbyReady (nodes : List NodeInfo) (id : String) : Bool :=
  nodes.any fun n => n.nodeId = id && n.role.toLower = "replica" && n.lagBytes ≤ caughtUpBytes

/-! ## The gap -/

namespace ClusterTopology

variable {t : ClusterTopology} {n k id : String} {now : Int} {cmd : TopologyCommand}

/-- How far the recorded position of a node trails the primary's. -/
def gap (t : ClusterTopology) (id : String) : Nat := t.flushLsn t.primaryNodeId - t.flushLsn id

/-- A health check of the node itself, while there is a primary. -/
def measures (t : ClusterTopology) (id : String) : TopologyCommand → Bool
  | .updateFlushLsn nodeId _ _ => nodeId = id && t.primaryNodeId ≠ ""
  | _ => false

/-- The node falls behind by the command, or what was recorded of it is dropped. -/
def drifts (t : ClusterTopology) (id : String) (cmd : TopologyCommand) : Bool :=
  t.gap id < (t.commandEffect cmd).gap id || cmd = .removeNode id

/-- Whether the lag of the node has been recorded since the gap last widened,
`known` at first. -/
def measured (id : String) : ClusterTopology → Bool → List (Int × TopologyCommand) → Bool
  | _, known, [] => known
  | t, known, e :: log =>
    measured id (t.applyCommand e.1 e.2) (t.measures id e.2 || known && !t.drifts id e.2) log

theorem flushLsn_insert {m : HashMap String Nat} {v : Nat} :
    ((m.insert k v).lookup id).getD 0 = if k = id then v else (m.lookup id).getD 0 := by
  split_ifs with h
  · rw [h, Finmap.lookup_insert, Option.getD_some]
  · rw [Finmap.lookup_insert_of_ne m (Ne.symm h)]

theorem gap_applyCommand : (t.applyCommand now cmd).gap n = (t.commandEffect cmd).gap n := by
  cases cmd <;> rfl

/-- Only a health check of a node records its lag, and only its removal drops it. -/
theorem lagBytes_applyCommand (hmeasures : t.measures n cmd = false)
    (hremove : cmd ≠ .removeNode n) : (t.applyCommand now cmd).lagBytes n = t.lagBytes n := by
  cases cmd with
  | updateFlushLsn nodeId =>
    simp only [lagBytes, applyCommand, commandEffect]
    split_ifs with hprimary
    · have hne : nodeId ≠ n := by
        rintro rfl
        simp [measures, hprimary.1] at hmeasures
      rw [flushLsn_insert, if_neg hne]
    · rfl
  | removeNode nodeId =>
    have hne : n ≠ nodeId := fun hn => hremove (hn ▸ rfl)
    simp only [lagBytes, applyCommand, commandEffect, Finmap.lookup_erase_ne hne]
  | _ => rfl

/-- Right after a health check the lag is the gap. -/
theorem gap_le_of_measures (h : t.measures n cmd) :
    (t.applyCommand now cmd).gap n ≤ (t.applyCommand now cmd).lagBytes n := by
  cases cmd with
  | updateFlushLsn nodeId =>
    rw [measures, Bool.and_eq_true, decide_eq_true_iff, decide_eq_true_iff] at h
    obtain ⟨rfl, hprimary⟩ := h
    by_cases hself : nodeId = t.primaryNodeId
    · subst hself
      exact (Nat.sub_self _).trans_le (Nat.zero_le _)
    · simp only [gap, flushLsn, lagBytes, applyCommand, commandEffect]
      rw [if_pos ⟨hprimary, hself⟩, flushLsn_insert, flushLsn_insert, flushLsn_insert,
        if_neg hself, if_pos rfl, if_pos rfl]
  | _ => cases h

theorem gap_le_applyCommand (h : t.gap n ≤ t.lagBytes n) (hmeasures : t.measures n cmd = false)
    (hdrifts : t.drifts n cmd = false) :
    (t.applyCommand now cmd).gap n ≤ (t.applyCommand now cmd).lagBytes n := by
  rw [drifts, Bool.or_eq_false_iff, decide_eq_false_iff_not, decide_eq_false_iff_not] at hdrifts
  rw [lagBytes_applyCommand hmeasures hdrifts.2, gap_applyCommand]
  omega

theorem gap_le_after {log : List (Int × TopologyCommand)} {known : Bool}
    (h : known → t.gap n ≤ t.lagBytes n) (hmeasured : measured n t known log) :
    (t.after log).gap n ≤ (t.after log).lagBytes n := by
  induction log generalizing t known with
  | nil => exact h hmeasured
  | cons e _ ih =>
    refine ih ?_ hmeasured
    intro hknown
    cases hm : t.measures n e.2 with
    | true => exact gap_le_of_measures hm
    | false =>
      rw [hm, Bool.false_or, Bool.and_eq_true, Bool.not_eq_true'] at hknown
      exact gap_le_applyCommand (h hknown.1) hm hknown.2

/-- Configurations stand under the names of their nodes. -/
def ConfigsNamed (t : ClusterTopology) : Prop :=
  ∀ id cfg, t.nodeConfigs.lookup id = some cfg → cfg.nodeId = id

theorem ConfigsNamed.applyCommand (h : t.ConfigsNamed) : (t.applyCommand now cmd).ConfigsNamed := by
  intro id cfg hcfg
  cases cmd with
  | addNode new =>
    by_cases hid : id = new.nodeId
    · subst hid
      simp only [ClusterTopology.applyCommand, commandEffect, Finmap.lookup_insert] at hcfg
      rw [Option.some.inj hcfg]
    · refine h id cfg ?_
      rw [← hcfg]
      exact (Finmap.lookup_insert_of_ne _ hid).symm
  | removeNode nodeId =>
    by_cases hid : id = nodeId
    · subst hid
      simp only [ClusterTopology.applyCommand, commandEffect, Finmap.lookup_erase] at hcfg
      cases hcfg
    · refine h id cfg ?_
      rw [← hcfg]
      exact (Finmap.lookup_erase_ne hid).symm
  | _ => exact h id cfg hcfg

theorem configsNamed_after (log : List (Int × TopologyCommand)) :
    (empty.after log).ConfigsNamed := by
  refine Machine.runFrom_keeps ?_ ?_ (runFrom_topologyLog empty log)
  · intro t e _ h hstep
    cases hstep
    exact h.applyCommand
  · intro _ _ hcfg
    cases hcfg

/-- The lag of a node that has been checked since the gap last widened is no less
than the gap, wherever it is read. -/
theorem lag_not_understated {log : List (Int × TopologyCommand)}
    (hmeasured : measured n empty true log = true) :
    let t := empty.after log
    t.gap n ≤ t.lagBytes n ∧ (∀ (r : Router) (order : List String) (addr : String), r.topology = t →
        r.bestReplicaAddr order = some (n, addr) → t.gap n ≤ r.config.maxReplicaLagBytes)
      ∧ (∀ info, t.getNode n = some info → t.gap n ≤ info.lagBytes)
      ∧ ∀ order, (∀ info ∈ t.listNodes order, info.nodeId = n → t.gap n ≤ info.lagBytes)
        ∧ (standbyReady (t.listNodes order) n = true → t.gap n ≤ caughtUpBytes) := by
  intro t
  have hlag : t.gap n ≤ t.lagBytes n := gap_le_after (fun _ => le_rfl) hmeasured
  have hlisted : ∀ order, ∀ info ∈ t.listNodes order, info.nodeId = n →
      t.gap n ≤ info.lagBytes := by
    rintro order info hinfo rfl
    obtain ⟨_, -, hinfo⟩ := List.mem_filterMap.mp hinfo
    obtain ⟨cfg, -, rfl⟩ := Option.map_eq_some_iff.mp hinfo
    exact hlag
  refine ⟨hlag, ?_, ?_, fun order => ⟨hlisted order, ?_⟩⟩
  · intro _ order _ htopology hbest
    have hwithin := (Router.replica_of_bestReplicaAddr hbest).2
    rw [htopology] at hwithin
    exact hlag.trans hwithin
  · intro info hinfo
    obtain ⟨cfg, hcfg, rfl⟩ := Option.map_eq_some_iff.mp hinfo
    have hname : cfg.nodeId = n := configsNamed_after log n cfg hcfg
    rw [nodeInfo, hname]
    exact hlag
  · intro hready
    obtain ⟨info, hinfo, hready⟩ := List.any_eq_true.mp hready
    simp only [Bool.and_eq_true, decide_eq_true_iff] at hready
    exact (hlisted order info hinfo hready.1.1).trans hready.2

/-- The standby is checked after the primary. -/
theorem lag_not_understated_checkedLast :
    measured "pg2" empty true (twoNodes ++ [(5, .updateFlushLsn "pg1" 50 50),
      (6, .updateFlushLsn "pg2" 20 20)]) = true
    ∧ (empty.after (twoNodes ++ [(5, .updateFlushLsn "pg1" 50 50),
      (6, .updateFlushLsn "pg2" 20 20)])).gap "pg2"
        ≤ (empty.after (twoNodes ++ [(5, .updateFlushLsn "pg1" 50 50),
          (6, .updateFlushLsn "pg2" 20 20)])).lagBytes "pg2" :=
  ⟨by decide, (lag_not_understated (by decide)).1⟩

/-- The topology when the standby is checked before the primary. -/
def checkedFirst : ClusterTopology :=
  empty.after (twoNodes ++ [(5, .updateFlushLsn "pg2" 10 10), (6, .updateFlushLsn "pg1" 50 50)])

/-- A replica that trails by 40 is offered by a router that allows 10. -/
theorem lag_understated : checkedFirst.role "pg2" = some .replica
    ∧ checkedFirst.gap "pg2" = 40 ∧ checkedFirst.lagBytes "pg2" = 0
    ∧ (checkedFirst.getNode "pg2").map (·.lagBytes) = some 0
    ∧ (Router.mk checkedFirst ⟨true, 10⟩ false none).bestReplicaAddr ["pg1", "pg2"]
      = some ("pg2", "pg2:5432") :=
  ⟨by decide, by decide, by decide, by decide, by decide⟩

end ClusterTopology

end PgCluster
