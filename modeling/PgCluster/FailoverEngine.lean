import PgCluster.FailoverCandidate
import PgCluster.RaftCommands

/-!
# A failover, step by step

`failover::trigger_failover` as a small machine of its own: every `await`
of the source is a point where the rest of the instance may run, so every
`await` is a phase here. A call keeps the topology it was given for its
whole life. What comes back from an agent or from Raft is the input of a
step; what a step does to the outside, a committed command or a Promote
request, is in its result, and the caller's machine carries it out.

A Raft write that returned an error has no effect at that point. It may
still be committed, at any later time, as a command from the log.
-/

namespace PgCluster

/-- The awaits of `trigger_failover`, with what is known at each. -/
inductive FailoverPhase where
  | pick
  | promote (candidate : String) (atLsn : Nat)
  | verify (candidate : String) (atLsn : Nat) (attemptsLeft : Nat)
  | setPrimary (candidate : String) (atLsn : Nat)
  | recordFailover (candidate : String)
  | repoint (candidate : String)
deriving DecidableEq

/-- A running call. `heldFor` is ghost: the primary of the latest applied
topology when `op_in_progress` was acquired for the call. -/
structure FailoverCall where
  topology : ClusterTopology
  failedPrimary : String
  phase : FailoverPhase
  heldFor : String

/-- What the awaited operation of a phase returns. For a Raft write,
`some now` is the clock its command was applied under. -/
inductive FailoverInput where
  | positions (order : List String) (status : String → Option AgentStatus)
  | promoted (outcome : RpcOutcome)
  | verified (reply : StatusReply)
  | written (committed : Option Int)
  | recorded (committed : Option Int) (triggeredAt : Int) (durationMs : Nat)
  | repointed

/-- What a step of a call does: the phase after it (`none`: returned), the
command it saw committed, and whom it sent a Promote. -/
structure FailoverEffect where
  next : Option FailoverPhase
  command : Option (Int × TopologyCommand) := none
  promoteSent : Option String := none

namespace FailoverCall

/-- `pick_live_candidate`, and the lookup of the candidate's address. -/
def pickStep (call : FailoverCall) (order : List String)
    (status : String → Option AgentStatus) : Option FailoverEffect :=
  if h : order.Nodup ∧ order.toFinset = call.topology.pollTargets call.failedPrimary then
    match call.topology.pickLiveCandidate call.failedPrimary ⟨order, h.1, h.2⟩ status with
    | none => some { next := none }
    | some (candidate, atLsn) =>
      match call.topology.nodeConfigs.lookup candidate with
      | none => some { next := none }
      | some _ => some { next := some (.promote candidate atLsn) }
  else none

def verifyStep (candidate : String) (atLsn attemptsLeft : Nat) (reply : StatusReply) :
    Option FailoverPhase :=
  match verifyAttempt reply with
  | .passed => some (.setPrimary candidate atLsn)
  | .gaveUp => none
  | .retry =>
    if attemptsLeft ≤ 1 then none else some (.verify candidate atLsn (attemptsLeft - 1))

/-- `new_timeline` is refreshed by the next health check. -/
def newTimeline : Nat := 1

def event (call : FailoverCall) (candidate : String) (triggeredAt : Int) (durationMs : Nat) :
    FailoverEvent where
  oldPrimary := call.failedPrimary
  newPrimary := candidate
  triggeredAt := triggeredAt
  durationMs := durationMs
  reason := "health_check_failure"
  ranDegraded := call.topology.syncDegraded

def step (call : FailoverCall) (input : FailoverInput) : Option FailoverEffect :=
  match call.phase, input with
  | .pick, .positions order status => call.pickStep order status
  | .promote candidate atLsn, .promoted outcome =>
    some
      { next := if outcome = .success then some (.verify candidate atLsn verifyAttempts) else none
        promoteSent := if outcome.sent then some candidate else none }
  | .verify candidate atLsn attemptsLeft, .verified reply =>
    some { next := verifyStep candidate atLsn attemptsLeft reply }
  | .setPrimary candidate atLsn, .written committed =>
    -- A failed write is only logged: the promotion already happened.
    some
      { next := some (.recordFailover candidate)
        command := committed.map fun now => (now, .setPrimary candidate atLsn newTimeline) }
  | .recordFailover candidate, .recorded committed triggeredAt durationMs =>
    some
      { next := some (.repoint candidate)
        command := committed.map fun now =>
          (now, .recordFailover (call.event candidate triggeredAt durationMs)) }
  | .repoint _, .repointed => some { next := none }
  | _, _ => none

def beforePromote (call : FailoverCall) : Bool :=
  match call.phase with
  | .pick => true
  | .promote .. => true
  | _ => false

variable {call : FailoverCall} {input : FailoverInput} {effect : FailoverEffect}

theorem beforePromote_of_promoteSent (h : call.step input = some effect) {candidate : String}
    (hsent : effect.promoteSent = some candidate) : call.beforePromote := by
  unfold step at h
  split at h
  · next hphase => simp [beforePromote, hphase]
  · next hphase => simp [beforePromote, hphase]
  all_goals
    obtain ⟨⟩ := h
    try cases hsent

theorem beforePromote_of_next (h : call.step input = some effect) {next : FailoverPhase}
    (hnext : effect.next = some next) (hbefore : { call with phase := next }.beforePromote) :
    call.beforePromote := by
  unfold step at h
  split at h
  · next hphase => simp [beforePromote, hphase]
  · next hphase => simp [beforePromote, hphase]
  · obtain ⟨⟩ := h
    unfold verifyStep at hnext
    split at hnext
    · cases hnext
      cases hbefore
    · cases hnext
    · obtain ⟨-, ⟨⟩⟩ := Option.ite_none_left_eq_some.mp hnext
      cases hbefore
  all_goals
    obtain ⟨⟩ := h
    try cases hnext
    try cases hbefore

end FailoverCall

end PgCluster
