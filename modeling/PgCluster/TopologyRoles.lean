import PgCluster.Machine
import PgCluster.ProxyRouter
import PgCluster.RaftCommands

/-!
# Roles over sequences of commands

`after` is a topology after commands, each with the clock it reads, and
`topologyLog` the machine that applies them from the default one. What a command
makes of a node's role is said once (`role_applyCommand`), and the rest follows
from it: at most one node is primary, a node that is marked offline stays so
until a command about it, and a node that is removed is gone. The last two fail
for a node that is still recorded as the primary, because naming another one
gives it the role of a replica.
-/

namespace PgCluster

open TopologyCommand

/-! ## Commands -/

namespace TopologyCommand

def changesPrimary : TopologyCommand → Bool
  | .setPrimary _ _ _ => true
  | _ => false

def node? : TopologyCommand → Option String
  | .setPrimary nodeId _ _ | .markOffline nodeId | .markReplica nodeId _
  | .markMaintenance nodeId | .updatePrimaryConninfo nodeId _ | .updateFlushLsn nodeId _ _
  | .removeNode nodeId | .setNeedsReseed nodeId _ | .setReplicationSlot nodeId _ => some nodeId
  | .addNode cfg => some cfg.nodeId
  | .recordFailover _ | .setReplicationMode _ | .setSyncDegraded _ | .addBackupManifest _
  | .removeBackupManifest _ => none

def names (cmd : TopologyCommand) (id : String) : Bool := cmd.node? = some id

def setsPrimary (cmd : TopologyCommand) (id : String) : Bool := cmd.changesPrimary && cmd.names id

def marksReplica : TopologyCommand → String → Bool
  | .markReplica nodeId _, id => nodeId = id
  | _, _ => false

/-- Commands that take the role of the primary from a node by naming it. -/
def unseats : TopologyCommand → String → Bool
  | .markOffline nodeId, id | .markReplica nodeId _, id | .markMaintenance nodeId, id
  | .removeNode nodeId, id => nodeId = id
  | _, _ => false

end TopologyCommand

def topologyLog : Machine ClusterTopology (Int × TopologyCommand) where
  init := .empty
  step t e := some (t.applyCommand e.1 e.2)

namespace ClusterTopology

variable {t : ClusterTopology} {id n : String} {now : Int} {cmd : TopologyCommand}
  {later : List (Int × TopologyCommand)} {k : String} {α : Type} {m : HashMap String α}

def after (t : ClusterTopology) (log : List (Int × TopologyCommand)) : ClusterTopology :=
  log.foldl (fun t e => t.applyCommand e.1 e.2) t

theorem runFrom_topologyLog (t : ClusterTopology) (log : List (Int × TopologyCommand)) :
    topologyLog.runFrom t log = some (t.after log) := by
  induction log generalizing t with
  | nil => rfl
  | cons e _ ih => exact ih (t.applyCommand e.1 e.2)

def role (t : ClusterTopology) (id : String) : Option NodeRole := t.nodeRoles.lookup id

/-- Naming another primary makes a replica of this node. -/
def supersedes (t : ClusterTopology) (id : String) : TopologyCommand → Bool
  | .setPrimary nodeId _ _ => t.primaryNodeId = id && id ≠ "" && nodeId ≠ id
  | _ => false

theorem supersedes_iff {atLsn tl : Nat} : t.supersedes id (.setPrimary n atLsn tl) ↔
    t.primaryNodeId = id ∧ id ≠ "" ∧ n ≠ id := by
  simp [supersedes, and_assoc]

/-! ## What a command makes of a role -/

def roleAfter (t : ClusterTopology) (id : String) : TopologyCommand → Option NodeRole
  | .setPrimary nodeId atLsn tl =>
    if nodeId = id then some .primary
    else if t.supersedes id (.setPrimary nodeId atLsn tl) then some .replica
    else t.role id
  | .markOffline nodeId => if nodeId = id then some .offline else t.role id
  | .markReplica nodeId _ => if nodeId = id then some .replica else t.role id
  | .markMaintenance nodeId => if nodeId = id then some .maintenance else t.role id
  | .addNode cfg => if cfg.nodeId = id then (t.role id).or (some .unknown) else t.role id
  | .removeNode nodeId => if nodeId = id then none else t.role id
  | _ => t.role id

theorem lookup_insert_eq {m : HashMap String NodeRole} {v : NodeRole} :
    (m.insert k v).lookup id = if k = id then some v else m.lookup id := by
  split_ifs with h
  · rw [h, Finmap.lookup_insert]
  · exact Finmap.lookup_insert_of_ne m (Ne.symm h)

theorem role_applyCommand : (t.applyCommand now cmd).role id = t.roleAfter id cmd := by
  cases cmd with
  | setPrimary nodeId atLsn tl =>
    simp only [role, applyCommand, commandEffect, roleAfter]
    rw [lookup_insert_eq]
    by_cases hid : nodeId = id
    · rw [if_pos hid, if_pos hid]
    · rw [if_neg hid, if_neg hid]
      by_cases hsuper : t.supersedes id (.setPrimary nodeId atLsn tl)
      · obtain ⟨rfl, hempty, -⟩ := supersedes_iff.mp hsuper
        rw [if_pos hsuper, if_pos ⟨hempty, Ne.symm hid⟩, Finmap.lookup_insert]
      · rw [if_neg hsuper]
        split_ifs with hother
        · have hold : t.primaryNodeId ≠ id := fun hold =>
            hsuper (supersedes_iff.mpr ⟨hold, hold ▸ hother.1, hid⟩)
          rw [lookup_insert_eq, if_neg hold]
        · rfl
  | markOffline | markReplica | markMaintenance => exact lookup_insert_eq
  | addNode cfg =>
    simp only [role, applyCommand, commandEffect, roleAfter]
    by_cases hmem : cfg.nodeId ∈ t.nodeRoles
    · rw [if_pos hmem]
      obtain ⟨r, hr⟩ := Finmap.mem_iff.mp hmem
      split_ifs with hid
      · rw [← hid, hr, Option.some_or]
      · rfl
    · rw [if_neg hmem, lookup_insert_eq]
      split_ifs with hid
      · rw [← hid, Finmap.lookup_eq_none.mpr hmem, Option.none_or]
      · rfl
  | removeNode =>
    simp only [role, applyCommand, commandEffect, roleAfter]
    split_ifs with hid
    · rw [hid, Finmap.lookup_erase]
    · exact Finmap.lookup_erase_ne (Ne.symm hid)
  | _ => rfl

/-- Only `SetPrimary` makes a primary, and it leaves no other that was recorded. -/
theorem setsPrimary_of_role (h : (t.applyCommand now cmd).role id = some .primary) :
    cmd.setsPrimary id ∨ (t.role id = some .primary ∧ t.supersedes id cmd = false) := by
  rw [role_applyCommand] at h
  cases cmd with
  | setPrimary =>
    rw [roleAfter] at h
    split_ifs at h with hid hsuper
    · exact .inl (by simp [setsPrimary, changesPrimary, names, node?, hid])
    · cases h
    · exact .inr ⟨h, Bool.eq_false_of_not_eq_true hsuper⟩
  | markOffline | markReplica | markMaintenance =>
    rw [roleAfter] at h
    split_ifs at h
    · cases h
    · exact .inr ⟨h, rfl⟩
  | removeNode =>
    rw [roleAfter] at h
    split_ifs at h
    exact .inr ⟨h, rfl⟩
  | addNode =>
    rw [roleAfter] at h
    split_ifs at h
    · cases hold : t.role id with
      | none =>
        rw [hold] at h
        cases h
      | some =>
        rw [hold] at h
        exact .inr ⟨h, rfl⟩
    · exact .inr ⟨h, rfl⟩
  | _ => exact .inr ⟨h, rfl⟩

theorem marksReplica_of_role (h : (t.applyCommand now cmd).role id = some .replica) :
    cmd.marksReplica id ∨ t.supersedes id cmd ∨ t.role id = some .replica := by
  rw [role_applyCommand] at h
  cases cmd with
  | setPrimary =>
    rw [roleAfter] at h
    split_ifs at h with hid hsuper
    · cases h
    · exact .inr (.inl hsuper)
    · exact .inr (.inr h)
  | markReplica =>
    rw [roleAfter] at h
    split_ifs at h with hid
    · exact .inl (decide_eq_true hid)
    · exact .inr (.inr h)
  | markOffline | markMaintenance =>
    rw [roleAfter] at h
    split_ifs at h
    · cases h
    · exact .inr (.inr h)
  | removeNode =>
    rw [roleAfter] at h
    split_ifs at h
    exact .inr (.inr h)
  | addNode =>
    rw [roleAfter] at h
    split_ifs at h
    · cases hold : t.role id with
      | none =>
        rw [hold] at h
        cases h
      | some =>
        rw [hold] at h
        exact .inr (.inr h)
    · exact .inr (.inr h)
  | _ => exact .inr (.inr h)

/-! ## One primary -/

/-- A node as the runs below add it. -/
def demoNode (id : String) : NodeConfig := ⟨id, id ++ ":7000", id ++ ":5432", 100, ∅⟩

def twoNodes : List (Int × TopologyCommand) :=
  [(1, .addNode (demoNode "pg1")), (2, .addNode (demoNode "pg2")), (3, .setPrimary "pg1" 10 1),
    (4, .markReplica "pg2" 10)]

def PrimaryRecorded (t : ClusterTopology) : Prop :=
  ∀ id, t.role id = some .primary → id = t.primaryNodeId ∧ id ≠ ""

theorem setsPrimary_iff : cmd.setsPrimary id ↔ ∃ atLsn tl, cmd = .setPrimary id atLsn tl := by
  cases cmd <;> simp [setsPrimary, changesPrimary, names, node?]

theorem PrimaryRecorded.applyCommand (h : t.PrimaryRecorded)
    (hcmd : cmd.setsPrimary "" = false) : (t.applyCommand now cmd).PrimaryRecorded := by
  intro id hrole
  obtain hsets | ⟨hrole, hkept⟩ := setsPrimary_of_role hrole
  · obtain ⟨atLsn, tl, rfl⟩ := setsPrimary_iff.mp hsets
    refine ⟨rfl, ?_⟩
    rintro rfl
    cases hcmd
  · obtain ⟨rfl, hne⟩ := h id hrole
    refine ⟨?_, hne⟩
    cases cmd with
    | setPrimary nodeId atLsn tl =>
      by_contra hother
      have hsuper : t.supersedes t.primaryNodeId (.setPrimary nodeId atLsn tl) :=
        supersedes_iff.mpr ⟨rfl, hne, Ne.symm hother⟩
      rw [hkept] at hsuper
      cases hsuper
    | _ => rfl

/-- A node keeps its role unless it is unseated, made the primary or superseded. -/
theorem role_kept {r : NodeRole} (h : t.role id = some r)
    (hprimary : cmd.changesPrimary → cmd.names id = false ∧ t.supersedes id cmd = false)
    (hunseats : cmd.unseats id = false) : (t.applyCommand now cmd).role id = some r := by
  rw [role_applyCommand]
  cases cmd with
  | setPrimary nodeId =>
    obtain ⟨hnames, hsuper⟩ := hprimary rfl
    have hne : nodeId ≠ id := fun hid => of_decide_eq_false hnames (congrArg some hid)
    rw [roleAfter, if_neg hne, hsuper]
    exact h
  | markOffline | markReplica | markMaintenance | removeNode =>
    rw [roleAfter, if_neg (of_decide_eq_false hunseats)]
    exact h
  | addNode =>
    rw [roleAfter, h]
    split_ifs <;> rfl
  | _ => exact h

/-- At most one node has the role of the primary, and it is the one recorded. The
node of the last `SetPrimary` has it until a command takes it away. -/
theorem single_primary {log : List (Int × TopologyCommand)}
    (hnames : ∀ e ∈ log, e.2.setsPrimary "" = false) :
    let t := empty.after log
    (∀ a b, t.role a = some .primary → t.role b = some .primary → a = b)
      ∧ (∀ id, t.role id = some .primary → id = t.primaryNodeId)
      ∧ ∀ before clock p atLsn tl later, log = before ++ (clock, .setPrimary p atLsn tl) :: later →
        (∀ e ∈ later, e.2.changesPrimary = false ∧ e.2.unseats p = false) →
        t.role p = some .primary := by
  have hrecorded : (empty.after log).PrimaryRecorded := by
    refine (Machine.meets_of_forall hnames _).keeps ?_ ?_ (runFrom_topologyLog empty log)
    · intro t e t' h he hstep
      cases hstep
      exact h.applyCommand he
    · intro id hid
      cases hid
  refine ⟨?_, fun id hid => (hrecorded id hid).1, ?_⟩
  · intro a b ha hb
    rw [(hrecorded a ha).1, (hrecorded b hb).1]
  · rintro _ _ p _ _ later rfl hlater
    rw [after, List.foldl_append, List.foldl_cons, ← after, ← after]
    refine (Machine.meets_of_forall hlater _).keeps (I := fun t => t.role p = some .primary)
      ?_ ?_ (runFrom_topologyLog _ later)
    · intro _ _ _ h he hstep
      cases hstep
      exact role_kept h (fun hchanges => nomatch he.1.symm.trans hchanges) he.2
    · rw [role_applyCommand, roleAfter, if_pos rfl]

def failoverLog : List (Int × TopologyCommand) :=
  twoNodes ++ [(5, .markOffline "pg1"), (6, .setPrimary "pg2" 10 2), (7, .addNode (demoNode "pg2"))]

theorem single_primary_failoverLog : (∀ id, (empty.after failoverLog).role id = some .primary →
      id = (empty.after failoverLog).primaryNodeId)
    ∧ (empty.after failoverLog).role "pg2" = some .primary := by
  have hnames : ∀ e ∈ failoverLog, e.2.setsPrimary "" = false := by decide
  have h := single_primary hnames
  exact ⟨h.2.1, h.2.2 (twoNodes ++ [(5, .markOffline "pg1")]) 6 "pg2" 10 2
    [(7, .addNode (demoNode "pg2"))] rfl (by decide)⟩

/-! ## Offline nodes -/

/-- A node that is marked offline is made a replica only by a `MarkReplica` of it,
and the primary only by a `SetPrimary` of it, unless another node is made the
primary in its place. Until then it is not offered for reads. -/
theorem offline_until_seen
    (hkept : topologyLog.Meets (fun t e => t.supersedes n e.2 = false)
      (t.applyCommand now (.markOffline n)) later) :
    let t' := (t.applyCommand now (.markOffline n)).after later
    ((∀ e ∈ later, e.2.marksReplica n = false) → t'.role n ≠ some .replica
        ∧ ∀ (r : Router) (order : List String) (addr : String), r.topology = t' →
          r.bestReplicaAddr order ≠ some (n, addr))
      ∧ ((∀ e ∈ later, e.2.setsPrimary n = false) → t'.role n ≠ some .primary) := by
  have hrun := runFrom_topologyLog (t.applyCommand now (.markOffline n)) later
  have hstart : (t.applyCommand now (.markOffline n)).role n = some .offline := by
    rw [role_applyCommand, roleAfter, if_pos rfl]
  constructor
  · intro hmarks
    have hrole : ((t.applyCommand now (.markOffline n)).after later).role n ≠ some .replica := by
      refine (hkept.and (Machine.meets_of_forall hmarks _)).keeps
        (I := fun t => t.role n ≠ some .replica) ?_ ?_ hrun
      · rintro t e t' h ⟨hsuper, hmark⟩ hstep hrole
        cases hstep
        obtain hmarks | hsupers | hold := marksReplica_of_role hrole
        · rw [hmark] at hmarks
          cases hmarks
        · rw [hsuper] at hsupers
          cases hsupers
        · exact h hold
      · rw [hstart]
        decide
    refine ⟨hrole, ?_⟩
    intro _ _ _ htopology hbest
    exact hrole (htopology ▸ (Router.replica_of_bestReplicaAddr hbest).1)
  · intro hsets
    refine (Machine.meets_of_forall hsets _).keeps
      (I := fun t => t.role n ≠ some .primary) ?_ ?_ hrun
    · intro _ _ _ h hset hstep hrole
      cases hstep
      obtain hsets | ⟨hold, -⟩ := setsPrimary_of_role hrole
      · rw [hset] at hsets
        cases hsets
      · exact h hold
    · rw [hstart]
      decide

theorem offline_until_seen_standby :
    (((empty.after twoNodes).applyCommand 5 (.markOffline "pg2")).after
      [(6, .updateFlushLsn "pg1" 20 20), (7, .setPrimary "pg3" 20 2)]).role "pg2"
        ≠ some .replica :=
  ((offline_until_seen (by decide)).1 (by decide)).1

/-- A failover: the primary is marked offline, and the next one is named. -/
theorem failed_primary_offered :
    let t := ((empty.after twoNodes).applyCommand 5 (.markOffline "pg1")).after
      [(6, .setPrimary "pg2" 10 2)]
    t.role "pg1" = some .replica
    ∧ (Router.mk t ⟨true, 0⟩ false none).bestReplicaAddr ["pg2", "pg1"]
      = some ("pg1", "pg1:5432") :=
  ⟨by decide, by decide⟩

/-! ## Removed nodes -/

/-- Nothing is recorded of a node. -/
structure Forgotten (t : ClusterTopology) (n : String) : Prop where
  primary : t.primaryNodeId ≠ n
  role : n ∉ t.nodeRoles
  config : n ∉ t.nodeConfigs
  flushLsn : n ∉ t.lastFlushLsns
  replayLsn : n ∉ t.lastReplayLsns
  lag : n ∉ t.replicaLagBytes
  slot : n ∉ t.replicaSlots
  conninfo : n ∉ t.primaryConninfos
  reseed : n ∉ t.needsReseed

theorem absent_insert {v : α} (h : n ∉ m) (hk : k ≠ n) : n ∉ m.insert k v := by
  rw [Finmap.mem_insert]
  exact fun hn => hn.elim (fun hn => hk hn.symm) h

theorem absent_erase (h : n ∉ m) :
    n ∉ m.erase k := fun hn => h (Finmap.mem_erase.mp hn).2

theorem Forgotten.applyCommand (h : t.Forgotten n) (hcmd : cmd.names n = false) :
    (t.applyCommand now cmd).Forgotten n := by
  have hne (j : String) (hj : cmd.node? = some j) : j ≠ n := by
    rintro rfl
    exact of_decide_eq_false hcmd hj
  cases cmd with
  | setPrimary nodeId =>
    refine { h with
      primary := hne _ rfl
      role := absent_insert ?_ (hne _ rfl)
      flushLsn := absent_insert h.flushLsn (hne _ rfl) }
    -- the node that is superseded is recorded as the primary
    split_ifs
    · exact absent_insert h.role h.primary
    · exact h.role
  | markOffline nodeId | markMaintenance nodeId =>
    exact { h with role := absent_insert h.role (hne _ rfl) }
  | markReplica nodeId flushLsn =>
    exact { h with
      role := absent_insert h.role (hne _ rfl)
      flushLsn := absent_insert h.flushLsn (hne _ rfl) }
  | updatePrimaryConninfo nodeId conninfo =>
    exact { h with conninfo := absent_insert h.conninfo (hne _ rfl) }
  | updateFlushLsn nodeId flushLsn replayLsn =>
    refine { h with
      flushLsn := absent_insert h.flushLsn (hne _ rfl)
      replayLsn := absent_insert h.replayLsn (hne _ rfl)
      lag := ?_ }
    simp only [ClusterTopology.applyCommand, commandEffect]
    split_ifs
    · exact absent_insert h.lag (hne _ rfl)
    · exact h.lag
  | addNode cfg =>
    refine { h with
      role := ?_
      config := absent_insert h.config (hne _ rfl) }
    simp only [ClusterTopology.applyCommand, commandEffect]
    split_ifs
    · exact h.role
    · exact absent_insert h.role (hne _ rfl)
  | removeNode =>
    exact { h with
      role := absent_erase h.role
      config := absent_erase h.config
      flushLsn := absent_erase h.flushLsn
      replayLsn := absent_erase h.replayLsn
      lag := absent_erase h.lag }
  | setNeedsReseed nodeId needsReseed =>
    refine { h with reseed := ?_ }
    cases needsReseed with
    | true => exact fun hn => (Finset.mem_insert.mp hn).elim (fun hn => hne _ rfl hn.symm) h.reseed
    | false => exact fun hn => h.reseed (Finset.mem_of_mem_erase hn)
  | setReplicationSlot nodeId =>
    exact { h with slot := absent_insert h.slot (hne _ rfl) }
  | recordFailover | setReplicationMode | setSyncDegraded | addBackupManifest
  | removeBackupManifest => exact { h with }

/-- A node that is removed, and was neither the primary nor had a slot, a connection
string or a mark for seeding, is gone for as long as no command names it, and
starts afresh when it is added again. -/
theorem removed_leaves_no_trace (hprimary : t.primaryNodeId ≠ n) (hslot : n ∉ t.replicaSlots)
    (hconninfo : n ∉ t.primaryConninfos) (hreseed : n ∉ t.needsReseed)
    (hlater : ∀ e ∈ later, e.2.names n = false) :
    let t' := (t.applyCommand now (.removeNode n)).after later
    t'.Forgotten n ∧ ∀ clock (cfg : NodeConfig), cfg.nodeId = n →
      let added := t'.applyCommand clock (.addNode cfg)
      added.role n = some .unknown ∧ n ∉ added.lastFlushLsns ∧ n ∉ added.lastReplayLsns
        ∧ n ∉ added.replicaLagBytes ∧ n ∉ added.replicaSlots ∧ n ∉ added.needsReseed := by
  intro t'
  have hgone : t'.Forgotten n := by
    refine (Machine.meets_of_forall hlater _).keeps (I := fun t => t.Forgotten n) ?_ ?_
      (runFrom_topologyLog _ later)
    · intro t e t' h he hstep
      cases hstep
      exact h.applyCommand he
    · have herase : ∀ {α : Type} (m : HashMap String α), n ∉ m.erase n :=
        fun m hn => (Finmap.mem_erase.mp hn).1 rfl
      exact ⟨hprimary, herase _, herase _, herase _, herase _, herase _, hslot, hconninfo, hreseed⟩
  refine ⟨hgone, ?_⟩
  rintro _ cfg rfl
  refine ⟨?_, hgone.flushLsn, hgone.replayLsn, hgone.lag, hgone.slot, hgone.reseed⟩
  have hrole : t'.role cfg.nodeId = none := Finmap.lookup_eq_none.mpr hgone.role
  rw [role_applyCommand, roleAfter, if_pos rfl, hrole, Option.none_or]

theorem removed_leaves_no_trace_standby :
    (((empty.after twoNodes).applyCommand 5 (.removeNode "pg2")).after
      [(6, .setPrimary "pg3" 20 2), (7, .markReplica "pg1" 20)]).Forgotten "pg2" :=
  (removed_leaves_no_trace (by decide) (by decide) (by decide) (by decide) (by decide)).1

/-- The topology once a standby with a slot, and marked for seeding, is removed. -/
def standbyRemoved : ClusterTopology :=
  empty.after (twoNodes ++ [(5, .setReplicationSlot "pg2" "pgcluster_pg2"),
    (6, .updatePrimaryConninfo "pg2" "host=pg1"), (7, .setNeedsReseed "pg2" true),
    (8, .removeNode "pg2")])

def primaryRemoved : ClusterTopology := empty.after (twoNodes ++ [(5, .removeNode "pg1")])

/-- What a removal leaves: the records of a standby, and the name of the primary,
which the next one makes a replica. -/
theorem removed_node_remains :
    ("pg2" ∈ standbyRemoved.replicaSlots ∧ "pg2" ∈ standbyRemoved.primaryConninfos
      ∧ "pg2" ∈ standbyRemoved.needsReseed
      ∧ "pg2" ∈ (standbyRemoved.applyCommand 9 (.addNode (demoNode "pg2"))).replicaSlots)
    ∧ primaryRemoved.primaryNodeId = "pg1"
    ∧ (primaryRemoved.applyCommand 6 (.setPrimary "pg2" 10 2)).role "pg1" = some .replica
    ∧ ((primaryRemoved.applyCommand 6 (.setPrimary "pg2" 10 2)).applyCommand 7
      (.addNode (demoNode "pg1"))).role "pg1" = some .replica :=
  ⟨⟨by decide, by decide, by decide, by decide⟩, by decide, by decide, by decide⟩

end ClusterTopology

end PgCluster
