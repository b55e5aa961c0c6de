import PgCluster.AgentCalls
import PgCluster.Effects
import PgCluster.RaftTopology

/-!
# The hand-off of a switchover

`switchover::handoff::execute_switchover`, written in the order of the
source over the state it leaves behind: the two Postgres servers, the
proxy's drain flag and the topology. Every call to an agent and the Raft
write have an outcome and, separately, an effect, because a call that
returned an error may or may not have done something; a
`SwitchoverOutcomes` chooses both for every call, and its proof fields say
what an outcome does promise.

Time passes while the hand-off waits for the target's position to settle:
the old primary's stop may take effect before any of those reads, so
`stopTime` counts reads.
-/

namespace PgCluster

/-! ## Two servers -/

/-- A Postgres server, as far as a switchover changes it. -/
structure PgNode where
  running : Bool
  inRecovery : Bool
  standbySignal : Bool
deriving DecidableEq

namespace PgNode

def primary : PgNode := ⟨true, false, false⟩

def standby : PgNode := ⟨true, true, true⟩

def acceptsWrites (n : PgNode) : Bool := n.running && !n.inRecovery

def writeSignal (n : PgNode) : PgNode := { n with standbySignal := true }

/-- A fast stop. If the server is started again, the signal file decides
what it comes back as. -/
def stopFast (n : PgNode) (restarted : Bool) : PgNode :=
  if restarted then { n with inRecovery := n.standbySignal } else { n with running := false }

/-- `pg_promote`, which fails on a server that is not in recovery. -/
def promote (n : PgNode) : PgNode :=
  if n.running && n.inRecovery then { n with inRecovery := false, standbySignal := false } else n

end PgNode

/-! ## Waiting for the position to settle -/

inductive SettleError where
  | unanswered
  | stillReceiving
deriving DecidableEq

def steadyReads : Nat := 3
def maxReads : Nat := 50

/-- The loop of `wait_for_position_to_settle` at read `k` with `left` reads
to go; it returns the number of reads made either way. -/
def settleLoop (reads : Nat → Option Nat) :
    (left k : Nat) → (last : Option Nat) → (steady : Nat) → Nat × Except SettleError Unit
  | 0, k, _, _ => (k, .error .stillReceiving)
  | left + 1, k, last, steady =>
    match reads k with
    | none => (k + 1, .error .unanswered)
    | some position =>
      if last = some position then
        if steady + 1 = steadyReads then (k + 1, .ok ())
        else settleLoop reads left (k + 1) (some position) (steady + 1)
      else settleLoop reads left (k + 1) (some position) 0

/-- `reads k` is the received position the target reports at read `k`, if it
answers. -/
def waitForPositionToSettle (reads : Nat → Option Nat) : Nat × Except SettleError Unit :=
  settleLoop reads maxReads 0 none 0

/-! ## What the calls return, and what they do -/

structure SwitchoverOutcomes where
  demote : RpcOutcome
  signalWritten : Bool
  stop : RpcOutcome
  /-- The read before which the old primary had stopped, if it ever did. A stop that
  takes effect after the last read counts as none, even if it does so before the
  hand-off returns. -/
  stopTime : Option Nat
  /-- It was up again when the hand-off turned back to it. -/
  restarted : Bool
  reads : Nat → Option Nat
  promote : RpcOutcome
  promoteTookEffect : Bool
  verify : Nat → StatusReply
  restore : RpcOutcome
  restoreTookEffect : Bool
  setPrimaryOk : Bool
  setPrimaryCommitted : Bool
  demote_success : demote = .success → signalWritten = true
  stop_success : stop = .success → stopTime = some 0
  setPrimary_ok : setPrimaryOk = true → setPrimaryCommitted = true
  verify_truthful : ∀ k st, verify k = .answer st → st.isPrimary = true → promoteTookEffect = true

namespace SwitchoverOutcomes

variable (o : SwitchoverOutcomes)

/-- The Promote changed the target, whatever it returned. -/
def targetPromoted : Bool := o.promote.sent && o.promoteTookEffect

/-- The hand-off takes the promotion for done. -/
def promotionPassed : Bool :=
  o.promote == .success && verifyPromotion o.verify 0 verifyAttempts

/-- The old primary has stopped by read `n`. -/
def stoppedBy (n : Nat) : Bool := o.stopTime.any (· ≤ n)

end SwitchoverOutcomes

/-! ## The hand-off -/

inductive SwitchoverError where
  | oldPrimaryNotFound (nodeId : String)
  | newPrimaryNotFound (nodeId : String)
  | agent
  | demoteRefused
  | settle (e : SettleError)
  | notPromoted
  | aborted (e : SwitchoverError)
  | setPrimary
deriving DecidableEq

/-- `oldStopped` is ghost: the old primary stopped accepting writes at some
point. So is `promoteSentAfter`: the number of reads made when the Promote
was sent, if it was. -/
structure HandoffState where
  draining : Bool
  old : PgNode
  oldStopped : Bool
  target : PgNode
  setPrimaryCommitted : Bool
  promoteSentAfter : Option Nat
deriving DecidableEq

def HandoffState.init : HandoffState := ⟨false, .primary, false, .standby, false, none⟩

abbrev HandoffM := ExceptT SwitchoverError (StateM HandoffState)

namespace SwitchoverOutcomes

variable (o : SwitchoverOutcomes)

def demoteOld : HandoffM Unit := do
  if o.demote = .unreachable then throw .agent
  if o.signalWritten then modify fun s => { s with old := s.old.writeSignal }
  match o.demote with
  | .success => pure ()
  | .refused => throw .demoteRefused
  | _ => throw .agent

/-- Only a connection that cannot be opened ends the hand-off here; a failed
stop is left for the position to confirm. -/
def stopOld : HandoffM Unit := do
  if o.stop = .unreachable then throw .agent

def settle : HandoffM Nat := do
  let (n, result) := waitForPositionToSettle o.reads
  if o.stoppedBy n then
    modify fun s => { s with old := s.old.stopFast o.restarted, oldStopped := true }
  match result with
  | .ok () => pure n
  | .error e => throw (.settle e)

def promoteTarget (n : Nat) : HandoffM Unit := do
  if o.promote = .unreachable then throw .agent
  modify fun s =>
    { s with
      promoteSentAfter := some n
      target := if o.promoteTookEffect then s.target.promote else s.target }
  if o.promote ≠ .success then throw .agent
  if !verifyPromotion o.verify 0 verifyAttempts then throw .notPromoted

/-- What it returned is only logged. -/
def restoreOld : HandoffM Unit :=
  if o.restore.sent && o.restoreTookEffect
  then modify fun s => { s with old := s.old.promote } else pure ()

def setPrimary : HandoffM Unit := do
  if o.setPrimaryCommitted then modify fun s => { s with setPrimaryCommitted := true }
  if !o.setPrimaryOk then throw .setPrimary

end SwitchoverOutcomes

def beginDrain (proxyDrain : Bool) : HandoffM Unit :=
  if proxyDrain then modify fun s => { s with draining := true } else pure ()

def endDrain (proxyDrain : Bool) : HandoffM Unit :=
  if proxyDrain then modify fun s => { s with draining := false } else pure ()

/-- Steps 0 to 4. Repointing the other nodes and the history entry, which
follow, change none of this state. -/
def handOff (proxyDrain : Bool) (o : SwitchoverOutcomes) : HandoffM Unit := do
  beginDrain proxyDrain
  o.demoteOld
  o.stopOld
  let n ← o.settle
  try
    o.promoteTarget n
  catch e =>
    o.restoreOld
    endDrain proxyDrain
    throw (.aborted e)
  o.setPrimary
  endDrain proxyDrain

/-- `proxyDrain` says whether a local proxy takes part. -/
def executeSwitchover (t : ClusterTopology) (newPrimaryId : String) (proxyDrain : Bool)
    (o : SwitchoverOutcomes) : HandoffM Unit := do
  if (t.nodeConfigs.lookup t.primaryNodeId).isNone then
    throw (.oldPrimaryNotFound t.primaryNodeId)
  if (t.nodeConfigs.lookup newPrimaryId).isNone then
    throw (.newPrimaryNotFound newPrimaryId)
  handOff proxyDrain o

/-- The state a hand-off leaves. -/
def handoffEnd (t : ClusterTopology) (newPrimaryId : String) (proxyDrain : Bool)
    (o : SwitchoverOutcomes) : HandoffState :=
  (exec (executeSwitchover t newPrimaryId proxyDrain o) .init).2

end PgCluster
