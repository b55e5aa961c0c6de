import Mathlib.Data.Nat.Notation

/-!
# Calls to the agents

What a failover or a switchover can learn from a vk-agent: whether a request
got through, and what `GetStatus` reports. `verify_promotion`, which both
run after a Promote, is here with one function per attempt, because a
failover can be interrupted between two attempts and a switchover runs them
in one piece.
-/

namespace PgCluster

/-- What `GetStatus` reports and a failover or switchover reads. -/
structure AgentStatus where
  postgresRunning : Bool
  isInRecovery : Bool
  receivedLsn : Nat
  replayedLsn : Nat
deriving DecidableEq

def AgentStatus.position (st : AgentStatus) : Nat := max st.receivedLsn st.replayedLsn

def AgentStatus.isPrimary (st : AgentStatus) : Bool := !st.isInRecovery && st.postgresRunning

/-- What became of a call: `unreachable` failed before the request was sent,
`refused` was answered with `success: false`, and after `error` nobody
knows. -/
inductive RpcOutcome where
  | unreachable
  | error
  | refused
  | success
deriving DecidableEq

/-- Whether the agent may have seen the request. -/
def RpcOutcome.sent : RpcOutcome → Bool
  | .unreachable => false
  | _ => true

/-! ## Verifying a promotion -/

inductive StatusReply where
  | unreachable
  | error
  | answer (st : AgentStatus)
deriving DecidableEq

inductive VerifyAttempt where
  | passed
  | gaveUp
  | retry
deriving DecidableEq

/-- A connection that cannot be opened gives up at once. -/
def verifyAttempt : StatusReply → VerifyAttempt
  | .unreachable => .gaveUp
  | .error => .retry
  | .answer st => if st.isPrimary then .passed else .retry

def verifyAttempts : Nat := 3

/-- The loop of `verify_promotion`: `replies k` answers attempt `k`. -/
def verifyPromotion (replies : Nat → StatusReply) : (attempt attemptsLeft : Nat) → Bool
  | _, 0 => false
  | k, left + 1 =>
    match verifyAttempt (replies k) with
    | .passed => true
    | .gaveUp => false
    | .retry => verifyPromotion replies (k + 1) left

theorem answer_of_verifyPromotion {replies : Nat → StatusReply} {k left : Nat}
    (h : verifyPromotion replies k left) : ∃ j st, replies j = .answer st ∧ st.isPrimary := by
  induction left generalizing k with
  | zero => cases h
  | succ _ ih =>
    rw [verifyPromotion] at h
    split at h
    · next hpassed =>
      unfold verifyAttempt at hpassed
      split at hpassed
      · cases hpassed
      · cases hpassed
      · next st hreply =>
        split at hpassed
        · next hprimary => exact ⟨k, st, hreply, hprimary⟩
        · cases hpassed
    · cases h
    · exact ih h

end PgCluster
