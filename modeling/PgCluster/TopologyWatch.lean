import PgCluster.RaftCommands

/-!
# What an instance sees of the topology

The state machine's topology, what the topology watch shows, and what the
task that forwards one to the other has read and not yet sent. Handlers and
engines read the watch, which lags behind.
-/

namespace PgCluster

structure TopologyViews where
  applied : ClusterTopology
  forwarding : Option ClusterTopology
  watched : ClusterTopology

namespace TopologyViews

def start (t : ClusterTopology) : TopologyViews := ⟨t, none, t⟩

def commit (v : TopologyViews) (now : Int) (cmd : TopologyCommand) : TopologyViews :=
  { v with applied := v.applied.applyCommand now cmd }

def forwardRead (v : TopologyViews) : TopologyViews := { v with forwarding := some v.applied }

def forwardSend (v : TopologyViews) : Option TopologyViews :=
  v.forwarding.map fun t => { v with forwarding := none, watched := t }

/-- The watch shows the applied topology, and nothing older is on its way. -/
def caughtUp (v : TopologyViews) : Bool :=
  v.watched = v.applied && v.forwarding.all fun t => t = v.applied

/-- `P` holds of all that is, or is going to be, on show. -/
structure All (P : ClusterTopology → Prop) (v : TopologyViews) : Prop where
  applied : P v.applied
  forwarding : ∀ t, v.forwarding = some t → P t
  watched : P v.watched

variable {P Q : ClusterTopology → Prop} {v v' : TopologyViews}

theorem All.commit (h : v.All P) {now : Int} {cmd : TopologyCommand}
    (hcmd : P (v.applied.applyCommand now cmd)) : (v.commit now cmd).All P :=
  ⟨hcmd, h.forwarding, h.watched⟩

theorem All.forwardRead (h : v.All P) : v.forwardRead.All P :=
  ⟨h.applied, fun _ ht => Option.some.inj ht ▸ h.applied, h.watched⟩

theorem All.forwardSend (h : v.All P) (hsend : v.forwardSend = some v') : v'.All P := by
  obtain ⟨t, ht, rfl⟩ := Option.map_eq_some_iff.mp hsend
  exact ⟨h.applied, nofun, h.forwarding t ht⟩

theorem all_of_caughtUp (hcaught : v.caughtUp) (h : P v.watched) : v.All P := by
  simp only [caughtUp, Bool.and_eq_true, decide_eq_true_iff] at hcaught
  obtain ⟨hwatched, hforwarding⟩ := hcaught
  rw [hwatched] at h
  refine ⟨h, fun t ht => ?_, hwatched ▸ h⟩
  rw [ht, Option.all_some, decide_eq_true_iff] at hforwarding
  rwa [hforwarding]

end TopologyViews

end PgCluster
