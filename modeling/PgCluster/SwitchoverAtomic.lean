import PgCluster.SwitchoverHandoff

/-!
# A switchover is all or nothing, up to where it returns

The hand-off returns early at many points, and most of them undo nothing:
`exec_handOff` lists the state at each, from one lemma per stage, and the
main result reads off which of them are whole. The two
ways to end well are the success at the end and the one failure the source
cleans up after, a promotion that failed and was turned back; everything
else needs no proxy to drain and no change made yet, or luck.

The target is a node other than the old primary, which the switchover
handler checks before it starts one.
-/

namespace PgCluster

open SwitchoverOutcomes HandoffState

/-! ## What each stage leaves

The states at the points where the hand-off can return, and from the lemmas
of the stages, the state it does return in. -/

/-- Both nodes are in the topology. -/
def switchoverConfigured (t : ClusterTopology) (newPrimaryId : String) : Bool :=
  (t.nodeConfigs.lookup t.primaryNodeId).isSome && (t.nodeConfigs.lookup newPrimaryId).isSome

variable {o : SwitchoverOutcomes} {drain : Bool} {n : Nat}

namespace SwitchoverOutcomes

def afterDemote (o : SwitchoverOutcomes) (drain : Bool) : HandoffState :=
  { HandoffState.init with
    draining := drain
    old := if o.signalWritten then PgNode.primary.writeSignal else .primary }

def afterSettle (o : SwitchoverOutcomes) (drain : Bool) (n : Nat) : HandoffState :=
  let s := o.afterDemote drain
  if o.stoppedBy n then { s with old := s.old.stopFast o.restarted, oldStopped := true } else s

def afterPromote (o : SwitchoverOutcomes) (drain : Bool) (n : Nat) : HandoffState :=
  let s := o.afterSettle drain n
  if o.promote.sent then
    { s with
      promoteSentAfter := some n
      target := if o.promoteTookEffect then s.target.promote else s.target }
  else s

def afterRestore (o : SwitchoverOutcomes) (drain : Bool) (n : Nat) : HandoffState :=
  let s := o.afterPromote drain n
  { s with
    draining := if drain then false else s.draining
    old := if o.restore.sent && o.restoreTookEffect then s.old.promote else s.old }

def afterSetPrimary (o : SwitchoverOutcomes) (drain : Bool) (n : Nat) : HandoffState :=
  let s := o.afterPromote drain n
  { s with
    setPrimaryCommitted := if o.setPrimaryCommitted then true else s.setPrimaryCommitted
    draining := if drain && o.setPrimaryOk then false else s.draining }

theorem exec_demoteOld (o : SwitchoverOutcomes) (drain : Bool) :
    exec o.demoteOld { init with draining := drain } = match o.demote with
        | .unreachable => (.error .agent, { init with draining := drain })
        | .error => (.error .agent, o.afterDemote drain)
        | .refused => (.error .demoteRefused, o.afterDemote drain)
        | .success => (.ok (), o.afterDemote drain) := by
  unfold demoteOld afterDemote
  cases o.demote <;> cases o.signalWritten <;> rfl

theorem exec_stopOld (o : SwitchoverOutcomes) (s : HandoffState) :
    exec o.stopOld s = (if o.stop = .unreachable then .error .agent else .ok (), s) := by
  unfold stopOld
  split <;> rfl

theorem exec_settle (o : SwitchoverOutcomes) (drain : Bool) :
    exec o.settle (o.afterDemote drain) = match waitForPositionToSettle o.reads with
      | (n, .ok ()) => (.ok n, o.afterSettle drain n)
      | (n, .error e) => (.error (.settle e), o.afterSettle drain n) := by
  unfold settle afterSettle
  obtain ⟨n, result⟩ := waitForPositionToSettle o.reads
  cases result <;> dsimp only <;> cases o.stoppedBy n <;> rfl

theorem exec_promoteTarget (o : SwitchoverOutcomes) (drain : Bool) (n : Nat) :
    ∃ result, exec (o.promoteTarget n) (o.afterSettle drain n) = (result, o.afterPromote drain n)
      ∧ (result = .ok () ↔ o.promotionPassed) := by
  unfold promoteTarget afterPromote promotionPassed
  cases hp : o.promote with
  | unreachable | error | refused => exact ⟨_, rfl, by simp⟩
  | success =>
    cases hv : verifyPromotion o.verify 0 verifyAttempts with
    | true | false => exact ⟨_, rfl, by simp⟩

end SwitchoverOutcomes

theorem exec_handOff (drain : Bool) (o : SwitchoverOutcomes) : (exec (handOff drain o) .init).2 =
      if o.demote = .unreachable then { init with draining := drain }
      else if o.demote ≠ .success ∨ o.stop = .unreachable then o.afterDemote drain
      else match waitForPositionToSettle o.reads with
        | (n, .error _) => o.afterSettle drain n
        | (n, .ok ()) => if o.promotionPassed then o.afterSetPrimary drain n
          else o.afterRestore drain n := by
  have hdrain : exec (beginDrain drain) .init = (.ok (), { init with draining := drain }) := by
    cases drain <;> rfl
  have hdemote := o.exec_demoteOld drain
  unfold handOff
  rw [exec_bind_ok hdrain]
  cases hd : o.demote with
  | unreachable =>
    rw [hd] at hdemote
    rw [exec_bind_error hdemote, if_pos rfl]
  | error | refused =>
    rw [hd] at hdemote
    rw [exec_bind_error hdemote, if_neg (by simp), if_pos (by simp)]
  | success =>
  rw [hd] at hdemote
  rw [exec_bind_ok hdemote, if_neg (by simp)]
  have hstop := o.exec_stopOld (o.afterDemote drain)
  by_cases hs : o.stop = .unreachable
  · rw [if_pos hs] at hstop
    rw [exec_bind_error hstop, if_pos (.inr hs)]
  rw [if_neg hs] at hstop
  rw [exec_bind_ok hstop, if_neg (by simp [hs])]
  have hsettle := o.exec_settle drain
  rcases hw : waitForPositionToSettle o.reads with ⟨n, e | ⟨⟩⟩
  · rw [hw] at hsettle
    rw [exec_bind_error hsettle]
  rw [hw] at hsettle
  rw [exec_bind_ok hsettle]
  obtain ⟨result, hpromote, hpassed⟩ := o.exec_promoteTarget drain n
  rcases result with e | ⟨⟩
  · -- The promotion failed: the old primary is restored and the drain ended.
    have hcaught : exec (tryCatch (o.promoteTarget n) fun e => do
        o.restoreOld; endDrain drain; throw (.aborted e)) (o.afterSettle drain n)
        = (.error (.aborted e), o.afterRestore drain n) := by
      rw [exec_tryCatch, hpromote]
      unfold restoreOld afterRestore
      cases o.restore.sent && o.restoreTookEffect <;> cases drain <;> rfl
    have hfailed : ¬ o.promotionPassed := fun h => by cases hpassed.mpr h
    rw [exec_bind_error hcaught]
    dsimp only
    rw [if_neg hfailed]
  · have hcaught : exec (tryCatch (o.promoteTarget n) fun e => do
        o.restoreOld; endDrain drain; throw (.aborted e)) (o.afterSettle drain n)
        = (.ok (), o.afterPromote drain n) := by
      rw [exec_tryCatch, hpromote]
    rw [exec_bind_ok hcaught]
    dsimp only
    rw [if_pos (hpassed.mp rfl)]
    unfold setPrimary afterSetPrimary
    cases o.setPrimaryCommitted <;> cases o.setPrimaryOk <;> cases drain <;> rfl

theorem handoffEnd_eq (t : ClusterTopology) (newPrimaryId : String) (drain : Bool)
    (o : SwitchoverOutcomes) : handoffEnd t newPrimaryId drain o =
      if switchoverConfigured t newPrimaryId = true then (exec (handOff drain o) .init).2
      else .init := by
  unfold handoffEnd executeSwitchover switchoverConfigured
  cases t.nodeConfigs.lookup t.primaryNodeId <;> cases t.nodeConfigs.lookup newPrimaryId <;> rfl

/-! ## All or nothing -/

namespace HandoffState

/-- The old primary never stopped accepting writes and has no signal file
left, or it stopped and was promoted again. -/
def oldWhole (s : HandoffState) : Bool :=
  if s.oldStopped then s.old.acceptsWrites else !s.old.standbySignal

/-- The proxy is not draining, and either the target took over, in Postgres
and in the topology, or everything is as it was. -/
def AllOrNothing (s : HandoffState) : Prop :=
  s.draining = false ∧ ((s.target.acceptsWrites = true ∧ s.setPrimaryCommitted = true)
      ∨ (s.setPrimaryCommitted = false ∧ s.target.acceptsWrites = false ∧ s.oldWhole = true))

instance (s : HandoffState) : Decidable s.AllOrNothing :=
  inferInstanceAs (Decidable (_ ∧ _))

end HandoffState

namespace SwitchoverOutcomes

/-- The target stayed a standby, and the old primary, which had stopped and
was up again as one, took the Promote that turns it back. -/
def restored (o : SwitchoverOutcomes) (n : Nat) : Bool :=
  !o.targetPromoted && o.stoppedBy n && o.restarted && o.restore.sent && o.restoreTookEffect

/-- Where the hand-off may return without leaving something half done: with
no proxy to drain, and before a signal file was written; after a failed
promotion that was undone; with no proxy to drain and a `SetPrimary` that was
committed although it returned an error; and at the end. -/
def leavesWhole (o : SwitchoverOutcomes) (drain : Bool) : Bool :=
  match o.demote with
  | .unreachable => !drain
  | .error => !drain && !o.signalWritten
  | .refused => !drain && !o.signalWritten
  | .success =>
    if o.stop = .unreachable then false
    else match waitForPositionToSettle o.reads with
      | (_, .error _) => false
      | (n, .ok ()) =>
        if o.promotionPassed then o.setPrimaryOk || (!drain && o.setPrimaryCommitted)
        else o.restored n

theorem afterDemote_allOrNothing (o : SwitchoverOutcomes) (drain : Bool) :
    (o.afterDemote drain).AllOrNothing ↔ (!drain && !o.signalWritten) := by
  unfold afterDemote
  cases drain <;> cases o.signalWritten <;> decide

/-- The old primary after the wait, once its signal file is written. -/
def oldAfter (o : SwitchoverOutcomes) (n : Nat) : PgNode :=
  if o.stoppedBy n then PgNode.primary.writeSignal.stopFast o.restarted
  else PgNode.primary.writeSignal

section

variable (hsignal : o.signalWritten = true)
include hsignal

theorem afterSettle_eq :
    o.afterSettle drain n = ⟨drain, o.oldAfter n, o.stoppedBy n, .standby, false, none⟩ := by
  unfold afterSettle afterDemote oldAfter
  rw [hsignal]
  cases o.stoppedBy n <;> rfl

theorem afterPromote_eq : o.afterPromote drain n = ⟨drain, o.oldAfter n, o.stoppedBy n,
          if o.targetPromoted then PgNode.standby.promote else .standby, false,
          if o.promote.sent then some n else none⟩ := by
  unfold afterPromote targetPromoted
  rw [afterSettle_eq hsignal]
  cases o.promote.sent <;> cases o.promoteTookEffect <;> rfl

/-- Giving up after the signal file is written leaves it, or a stopped
primary, behind. -/
theorem afterSettle_allOrNothing : ¬ (o.afterSettle drain n).AllOrNothing := by
  have hold : (o.afterSettle drain n).oldWhole = false := by
    rw [afterSettle_eq hsignal]
    unfold oldWhole oldAfter
    cases o.stoppedBy n <;> cases o.restarted <;> rfl
  rintro ⟨-, ⟨hwrites, -⟩ | ⟨-, -, hwhole⟩⟩
  · rw [afterSettle_eq hsignal] at hwrites
    cases hwrites
  · exact Bool.false_ne_true (hold.symm.trans hwhole)

theorem afterRestore_oldWhole : (o.afterRestore drain n).oldWhole
      = (o.stoppedBy n && o.restarted && o.restore.sent && o.restoreTookEffect) := by
  unfold afterRestore oldWhole
  rw [afterPromote_eq hsignal]
  unfold oldAfter
  cases o.stoppedBy n <;> cases o.restarted <;> cases o.restore.sent
    <;> cases o.restoreTookEffect <;> rfl

theorem afterRestore_allOrNothing : (o.afterRestore drain n).AllOrNothing ↔ o.restored n := by
  have hdrain : (o.afterRestore drain n).draining = false := by
    unfold afterRestore
    rw [afterPromote_eq hsignal]
    cases drain <;> rfl
  have hcommitted : (o.afterRestore drain n).setPrimaryCommitted = false := by
    unfold afterRestore
    rw [afterPromote_eq hsignal]
  have htarget : (o.afterRestore drain n).target.acceptsWrites = o.targetPromoted := by
    unfold afterRestore
    rw [afterPromote_eq hsignal]
    cases o.targetPromoted <;> rfl
  unfold AllOrNothing restored
  rw [hdrain, hcommitted, htarget, afterRestore_oldWhole hsignal]
  simp [and_assoc]

end

theorem targetPromoted_of_passed (h : o.promotionPassed) : o.targetPromoted := by
  rw [promotionPassed, Bool.and_eq_true, beq_iff_eq] at h
  obtain ⟨k, st, hreply, hst⟩ := answer_of_verifyPromotion h.2
  rw [targetPromoted, h.1, o.verify_truthful k st hreply hst]
  rfl

theorem afterSetPrimary_allOrNothing (hsignal : o.signalWritten) (h : o.promotionPassed) :
    (o.afterSetPrimary drain n).AllOrNothing
      ↔ (o.setPrimaryOk || (!drain && o.setPrimaryCommitted)) := by
  have hok := o.setPrimary_ok
  unfold afterSetPrimary AllOrNothing
  rw [afterPromote_eq hsignal, if_pos (targetPromoted_of_passed h)]
  revert hok
  cases drain <;> cases o.setPrimaryOk <;> cases o.setPrimaryCommitted <;>
    simp [PgNode.acceptsWrites, PgNode.promote, PgNode.standby]

end SwitchoverOutcomes

theorem handOff_allOrNothing_iff (drain : Bool) (o : SwitchoverOutcomes) :
    (exec (handOff drain o) .init).2.AllOrNothing ↔ o.leavesWhole drain := by
  rw [exec_handOff]
  unfold leavesWhole
  cases hd : o.demote with
  | unreachable =>
    rw [if_pos rfl]
    dsimp only
    cases drain <;> decide
  | error | refused =>
    rw [if_neg (by simp), if_pos (by simp)]
    exact o.afterDemote_allOrNothing drain
  | success =>
  have hsignal := o.demote_success hd
  rw [if_neg (by simp)]
  by_cases hs : o.stop = .unreachable
  · rw [if_pos (.inr hs), if_pos hs, o.afterDemote_allOrNothing, hsignal, Bool.not_true,
      Bool.and_false]
  rw [if_neg (by simp [hs]), if_neg hs]
  rcases waitForPositionToSettle o.reads with ⟨n, e | ⟨⟩⟩
  · exact iff_of_false (afterSettle_allOrNothing hsignal) (by simp)
  dsimp only
  by_cases hpassed : o.promotionPassed
  · rw [if_pos hpassed, if_pos hpassed]
    exact afterSetPrimary_allOrNothing hsignal hpassed
  · rw [if_neg hpassed, if_neg hpassed]
    exact afterRestore_allOrNothing hsignal

/-- Whatever the calls return and do, the hand-off is all or nothing exactly
when it refuses to start, or returns at one of the points `leavesWhole`
lists. -/
theorem switchover_allOrNothing_iff (t : ClusterTopology) (newPrimaryId : String)
    (drain : Bool) (o : SwitchoverOutcomes) : (handoffEnd t newPrimaryId drain o).AllOrNothing
      ↔ switchoverConfigured t newPrimaryId = false ∨ o.leavesWhole drain = true := by
  rw [handoffEnd_eq]
  cases switchoverConfigured t newPrimaryId with
  | false => simp only [Bool.false_eq_true, if_false, true_or, iff_true]; decide
  | true => simp only [if_true, Bool.true_eq_false, false_or, handOff_allOrNothing_iff]

/-- Every call succeeds, except the `SetPrimary` of an instance that is not
the Raft leader. -/
def notLeaderOutcomes : SwitchoverOutcomes where
  demote := .success
  signalWritten := true
  stop := .success
  stopTime := some 0
  restarted := true
  reads := fun _ => some 50
  promote := .success
  promoteTookEffect := true
  verify := fun _ => .answer ⟨true, false, 50, 50⟩
  restore := .unreachable
  restoreTookEffect := false
  setPrimaryOk := false
  setPrimaryCommitted := false
  demote_success := fun _ => rfl
  stop_success := fun _ => rfl
  setPrimary_ok := fun h => by cases h
  verify_truthful := fun _ _ _ _ => rfl

/-- The old primary's agent cannot be reached at all. -/
def unreachableOutcomes : SwitchoverOutcomes :=
  { notLeaderOutcomes with demote := .unreachable, demote_success := fun h => by cases h }

def twoNodes : ClusterTopology :=
  let node (id : String) : NodeConfig := ⟨id, "", "", 100, ∅⟩
  { ClusterTopology.empty with
    primaryNodeId := "pg1"
    nodeConfigs := (∅ : HashMap String NodeConfig).insert "pg1" (node "pg1")
      |>.insert "pg2" (node "pg2") }

/-- The proxy is left draining, the second time with the target promoted and
the topology naming a primary that is now a standby. -/
theorem switchover_half_done :
    ((handoffEnd twoNodes "pg2" true unreachableOutcomes).draining = true
      ∧ ¬ (handoffEnd twoNodes "pg2" true unreachableOutcomes).AllOrNothing)
    ∧ (handoffEnd twoNodes "pg2" true notLeaderOutcomes).draining = true
      ∧ (handoffEnd twoNodes "pg2" true notLeaderOutcomes).target.acceptsWrites = true
      ∧ (handoffEnd twoNodes "pg2" true notLeaderOutcomes).old.acceptsWrites = false
      ∧ ¬ (handoffEnd twoNodes "pg2" true notLeaderOutcomes).AllOrNothing :=
  ⟨⟨by decide, by decide⟩, by decide, by decide, by decide, by decide⟩

end PgCluster
