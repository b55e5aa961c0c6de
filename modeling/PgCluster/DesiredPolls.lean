import PgCluster.DesiredChanges

/-!
# Polls for the desired state

`desired_state` of `pgcluster-admin/src/agent.rs`, between committed changes of
the tables. A poll waits until the host's generation is another than the one the
host knows, takes the snapshot of `build_desired_state`, and asks the rest one
statement at a time. Hosts may have several polls on their way, and answers may
get lost or arrive late.
-/

namespace PgCluster.Desired

/-! ## Polls -/

inductive PollPhase where
  | looking
  | starting
  | reading (generation : Nat) (rest : Statements DesiredState)
  | answered (d : DesiredState)

structure Poll where
  host : String
  known : Nat
  phase : PollPhase

structure State where
  tables : Tables
  polls : List Poll
  /-- What each host received last. -/
  received : String → Option DesiredState

inductive Label where
  | change (c : Change)
  | poll (host : String) (known : Nat)
  | advance (i : Nat)
  | receive (i : Nat)
  | drop (i : Nat)

namespace Tables

def generation (t : Tables) (host : String) : Option Nat := (t.host? host).map (·.generation)

/-- What a poll does next. One that is answered waits for its host. -/
def advance (t : Tables) (poll : Poll) : Option PollPhase :=
  match poll.phase with
  | .looking =>
    (t.generation poll.host).map fun g => if g = poll.known then .looking else .starting
  | .starting =>
    (t.generation poll.host).map fun g =>
      .reading g (desiredFrom poll.host g (t.instanceRows poll.host))
  | .reading g (.ask q next) => some (.reading g (next (t.answer q)))
  | .reading _ (.done d) => some (.answered d)
  | .reading _ .fail => none
  | .answered _ => none

end Tables

namespace State

def step (s : State) : Label → Option State
  | .change c => (s.tables.apply c).map fun t => { s with tables := t }
  | .poll host known =>
    if (s.tables.host? host).any (·.enrolled) then
      some { s with polls := s.polls ++ [⟨host, known, .looking⟩] }
    else none
  | .advance i =>
    s.polls[i]?.bind fun poll => (s.tables.advance poll).map fun phase =>
      { s with polls := s.polls.set i { poll with phase := phase } }
  | .receive i =>
    s.polls[i]?.bind fun poll =>
      match poll.phase with
      | .answered d =>
        some { s with
          polls := s.polls.eraseIdx i
          received := fun host => if host = poll.host then some d else s.received host }
      | _ => none
  | .drop i => s.polls[i]?.map fun _ => { s with polls := s.polls.eraseIdx i }

def machine : Machine State Label where
  init := ⟨⟨[], [], [], [], [], none, 0, [], []⟩, [], fun _ => none⟩
  step := step

end State

end PgCluster.Desired
