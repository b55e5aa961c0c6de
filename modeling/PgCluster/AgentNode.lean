import PgCluster.AgentTasks
import PgCluster.Machine

/-!
# A node, its agent and a supervisor

The agent process of `vk-agent/src/main.rs` as a machine: the heartbeat
watchdog, the fence, the start of Postgres when the process comes up, the
RPCs that touch the node, and a supervisor that may kill and restart the
process between any two effects. The node outlives the process: its data
directory, Postgres and the clock are not part of it.

Two fields are kept for the results only and no transition reads them:
`fenced` says that the agent stopped Postgres for want of heartbeats and no
heartbeat came since, and `starts` is the record of every start of Postgres.

The node is one that has not left its cluster, so `detach` is not modelled.
Times are in milliseconds.
-/

namespace PgCluster

structure AgentConfig where
  heartbeatTimeoutSeconds : Nat := 10
  fenceTimeoutSeconds : Nat := 30
  managePostgres : Bool := true

/-! ## Heartbeats -/

structure HeartbeatTracker where
  lastSeen : Nat
  inSafeMode : Bool
  safeModeSince : Option Nat
deriving DecidableEq

namespace HeartbeatTracker

def new (now : Nat) : HeartbeatTracker := ⟨now, false, none⟩

/-- Record that a heartbeat was just received. Clears safe mode. -/
def touch (hb : HeartbeatTracker) (now : Nat) : HeartbeatTracker :=
  if hb.inSafeMode then ⟨now, false, none⟩ else { hb with lastSeen := now }

/-- One round of the watchdog task. -/
def watchdog (hb : HeartbeatTracker) (timeout now : Nat) : HeartbeatTracker :=
  if timeout < now - hb.lastSeen ∧ ¬ hb.inSafeMode then
    { hb with inSafeMode := true, safeModeSince := some now }
  else hb

def timeInSafeMode (hb : HeartbeatTracker) (now : Nat) : Option Nat :=
  hb.safeModeSince.map (now - ·)

end HeartbeatTracker

/-! ## The process -/

/-- A procedure under way: the effects still to come, and those that are run
if one of them fails. `lifecycle` tasks hold the `seeding` lock. -/
structure AgentTask where
  rest : List AgentEffect
  cleanup : List AgentEffect := []
  lifecycle : Bool := false
deriving DecidableEq

def AgentTask.next (t : AgentTask) : Progress → AgentTask
  | .done => { t with rest := t.rest.tail }
  | .fail => { t with rest := t.cleanup, cleanup := [] }
  | .create _ | .erase _ => t

structure AgentProcess where
  heartbeat : HeartbeatTracker
  tasks : List AgentTask
  fencing : Bool
deriving DecidableEq

/-- A start of Postgres: whether the node was fenced, and whether
`standby.signal` was there. -/
structure PgStart where
  fenced : Bool
  standby : Bool
deriving DecidableEq

structure AgentNode extends LocalNode where
  now : Nat
  process : Option AgentProcess
  fenced : Bool
  starts : List PgStart
deriving DecidableEq

/-- What a supervisor, a client or the clock does, and which task moves. A
`sees` is what `pg_ctl status` reports: an error there counts as "not
running". -/
inductive AgentLabel where
  | advance (ms : Nat)
  | kill
  | restart (sees : Bool)
  | pgExit
  | watchdog
  | fenceStop (ok : Bool)
  | exit
  | heartbeat
  | promote
  | demote (conninfo slotName : String)
  | stopPostgres
  | rebuild (r : Rebuild) (sees : Bool)
  | task (i : Nat) (p : Progress)

/-! ## Transitions -/

namespace AgentNode

variable (cfg : AgentConfig)

/-- `main`: bring back the Postgres this agent owns, if there is one. -/
def startUp (s : AgentNode) (sees : Bool) : AgentProcess where
  heartbeat := .new s.now
  tasks := if cfg.managePostgres && s.dir.hasData && !sees then [{ rest := [.start] }] else []
  fencing := false

/-- The fence is due: long enough in safe mode, with Postgres running. -/
def fenceDue (s : AgentNode) (p : AgentProcess) : Bool :=
  match p.heartbeat.timeInSafeMode s.now with
  | some elapsed =>
    cfg.fenceTimeoutSeconds ≠ 0 && cfg.fenceTimeoutSeconds * 1000 ≤ elapsed && s.running
  | none => false

def spawn (s : AgentNode) (p : AgentProcess) (t : AgentTask) : AgentNode :=
  { s with process := some { p with tasks := p.tasks ++ [t] } }

/-- `standby.signal` and the rest, then `promote.signal` is removed whether or
not that went well. -/
def demoteTask (conninfo slotName : String) : AgentTask where
  rest := configureStandby conninfo slotName ++ [.remove "promote.signal", .outside .reload]
  cleanup := [.remove "promote.signal"]

/-- Stop Postgres, and start it again when this agent owns it. -/
def stopTask : AgentTask where
  rest := .stopFast :: if cfg.managePostgres then [.start] else []

/-- Only one seed, rewind or restore runs at a time. -/
def lifecycleFree (p : AgentProcess) : Bool :=
  p.tasks.all fun t => !t.lifecycle || t.rest.isEmpty

def advanceTask (s : AgentNode) (p : AgentProcess) (i : Nat) (step : Progress) :
    Option AgentNode :=
  match p.tasks[i]? with
  | none => none
  | some t =>
    match t.rest with
    | [] => none
    | e :: _ =>
      (e.advance s.toLocalNode step).map fun n =>
        { s with
          toLocalNode := n
          process := some { p with tasks := p.tasks.set i (t.next step) }
          starts :=
            if e = .start ∧ step = .done then s.starts ++ [⟨s.fenced, s.dir.isStandby⟩]
            else s.starts }

def processStep (s : AgentNode) (p : AgentProcess) : AgentLabel → Option AgentNode
  | .kill => some { s with process := none }
  | .watchdog =>
    some { s with
      process := some { p with
        heartbeat := p.heartbeat.watchdog (cfg.heartbeatTimeoutSeconds * 1000) s.now } }
  | .heartbeat =>
    some { s with
      fenced := false
      process := some { p with heartbeat := p.heartbeat.touch s.now } }
  | .fenceStop ok =>
    if !p.fencing && fenceDue cfg s p then
      let s := { s with process := some { p with fencing := true } }
      if ok then some { s with postgres := none, fenced := true } else some s
    else none
  | .exit => if p.fencing then some { s with process := none } else none
  -- Refused in safe mode. Postgres removes standby.signal when it promotes.
  | .promote =>
    if !p.heartbeat.inSafeMode && s.postgres = some .standby then
      some { s with postgres := some .primary, dir := s.dir.erase "standby.signal" }
    else none
  | .demote conninfo slotName => some (s.spawn p (demoteTask conninfo slotName))
  | .stopPostgres => some (s.spawn p (stopTask cfg))
  | .rebuild r sees =>
    if cfg.managePostgres && lifecycleFree p && r.accepts sees s.dir.hasData
        && (!sees || s.running) then
      some (s.spawn p { rest := r.effects sees, lifecycle := true })
    else none
  | .task i step => s.advanceTask p i step
  | .advance _ | .restart _ | .pgExit => none

def step (s : AgentNode) (l : AgentLabel) : Option AgentNode :=
  match l with
  | .advance ms => some { s with now := s.now + ms }
  | .pgExit => if s.running then some { s with postgres := none } else none
  | .restart sees =>
    if s.process.isNone && (!sees || s.running) then
      some { s with process := some (startUp cfg s sees) }
    else none
  | l => s.process.bind fun p => processStep cfg s p l

/-- A node before its agent comes up for the first time. -/
def machine (n : LocalNode) : Machine AgentNode AgentLabel where
  init := { toLocalNode := n, now := 0, process := none, fenced := false, starts := [] }
  step := step cfg

variable {s s' : AgentNode} {p : AgentProcess} {i : Nat} {prog : Progress}

theorem advanceTask_cases (h : s.advanceTask p i prog = some s') :
    ∃ t e es n, p.tasks[i]? = some t ∧ t.rest = e :: es ∧ e.advance s.toLocalNode prog = some n ∧
      s' = { s with
        toLocalNode := n
        process := some { p with tasks := p.tasks.set i (t.next prog) }
        starts :=
          if e = .start ∧ prog = .done then s.starts ++ [⟨s.fenced, s.dir.isStandby⟩]
          else s.starts } := by
  unfold advanceTask at h
  split at h
  · cases h
  · rename_i t ht
    split at h
    · cases h
    · rename_i e es hrest
      obtain ⟨n, hn, rfl⟩ := Option.map_eq_some_iff.mp h
      exact ⟨t, e, es, n, ht, hrest, hn, rfl⟩

end AgentNode

end PgCluster
