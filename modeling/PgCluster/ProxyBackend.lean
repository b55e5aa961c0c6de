import Mathlib.Data.List.Basic

/-!
# A Postgres backend as the proxy sees it

The part of the v3 protocol that decides what a pooled connection is good
for: the transaction status, an open COPY, messages skipped after an error,
and the replies the proxy looks for (`ReadyForQuery` and `CopyInResponse`).
A backend works off each message as it is forwarded. What its statements do
is up to the client and the data, so `receive` takes the outcome as an
argument; the status in a `ReadyForQuery` is always the true one.

Two facts are recorded on the side: `unsynced` says that a message of the
extended protocol was forwarded after the last Sync, and `replies` are those
the proxy has not read yet.
-/

namespace PgCluster

inductive TxnState where
  | idle
  | inTransaction
  | failed
deriving DecidableEq

def TxnState.statusByte : TxnState → Char
  | .idle => 'I'
  | .inTransaction => 'T'
  | .failed => 'E'

/-- `update_from_ready_for_query`: an unknown byte counts as idle. -/
def TxnState.ofStatusByte : Char → TxnState
  | 'I' => .idle
  | 'T' => .inTransaction
  | 'E' => .failed
  | _ => .idle

@[simp] theorem TxnState.ofStatusByte_statusByte (st : TxnState) :
    ofStatusByte st.statusByte = st := by
  cases st <;> rfl

/-- The messages of a client, without their payload. -/
inductive FrontendMessage where
  | query
  | parse
  | bind
  | execute
  | describe
  | sync
  | flush
  | close
  | copyData
  | copyDone
  | copyFail
  | terminate
  | passwordMessage
  | startupMessage
deriving DecidableEq

namespace FrontendMessage

/-- Whether the backend replies to this message before reading more. -/
def answersNow : FrontendMessage → Bool
  | .sync | .copyDone | .copyFail => true
  | _ => false

def isCopy : FrontendMessage → Bool
  | .copyData | .copyDone | .copyFail => true
  | _ => false

/-- Whether the session waits for the backend after forwarding a message. -/
def waitsAfter (m : FrontendMessage) : Bool := m = .query || m.answersNow

end FrontendMessage

/-! ## The backend -/

/-- What the backend expects: any message, the data of a COPY that a simple
query or an Execute started, or a Sync after an error. -/
inductive BackendMode where
  | normal
  | simpleCopy
  | extendedCopy
  | skipToSync
deriving DecidableEq

def BackendMode.copying : BackendMode → Bool
  | .simpleCopy | .extendedCopy => true
  | .normal | .skipToSync => false

inductive Reply where
  | ready (st : TxnState)
  | copyIn
deriving DecidableEq

/-- What `pipe_until_ready_for_query` returns: an open COPY counts as a
transaction in progress. -/
def Reply.status : Reply → Char
  | .ready st => st.statusByte
  | .copyIn => 'T'

structure Backend where
  txn : TxnState
  mode : BackendMode
  unsynced : Bool
  replies : List Reply
deriving DecidableEq

/-- A connection right after login. -/
def Backend.fresh : Backend := ⟨.idle, .normal, false, []⟩

/-- What came of a message: the transaction status after it, whether it failed,
and whether it opened a COPY. -/
structure Outcome where
  txn : TxnState
  fails : Bool := false
  copies : Bool := false
deriving DecidableEq

namespace Backend

def reply (b : Backend) (r : Reply) : Backend := { b with replies := b.replies ++ [r] }

/-- The end of a simple query. -/
def finish (b : Backend) (o : Outcome) : Backend :=
  { b with txn := o.txn, mode := .normal }.reply (.ready o.txn)

/-- An error in the extended protocol. -/
def skip (b : Backend) (o : Outcome) : Backend := { b with txn := o.txn, mode := .skipToSync }

/-- A simple query, or what follows a COPY in it: it ends, or opens a COPY. -/
def runQuery (b : Backend) (o : Outcome) : Backend :=
  if o.copies then { b with txn := o.txn, mode := .simpleCopy }.reply .copyIn else b.finish o

def receiveQuery (b : Backend) (o : Outcome) : Backend :=
  match b.mode with
  | .normal => b.runQuery o
  | .simpleCopy => b.finish o
  | .extendedCopy => b.skip o
  | .skipToSync => b

/-- A COPY ignores Sync and Flush. -/
def receiveSync (b : Backend) : Backend :=
  let b := { b with unsynced := false }
  if b.mode.copying then b else { b with mode := .normal }.reply (.ready b.txn)

def receiveExtended (b : Backend) (m : FrontendMessage) (o : Outcome) : Backend :=
  let b := { b with unsynced := true }
  match b.mode with
  | .normal =>
    if o.fails then b.skip o
    else if m = .execute ∧ o.copies then
      { b with txn := o.txn, mode := .extendedCopy }.reply .copyIn
    else { b with txn := o.txn }
  | .simpleCopy => if m = .flush then b else b.finish o
  | .extendedCopy => if m = .flush then b else b.skip o
  | .skipToSync => b

def receiveCopyData (b : Backend) (o : Outcome) : Backend :=
  match b.mode with
  | .simpleCopy => if o.fails then b.finish o else b
  | .extendedCopy => if o.fails then b.skip o else b
  | .normal | .skipToSync => b

/-- CopyDone and CopyFail. Outside a COPY they are ignored. -/
def receiveCopyEnd (b : Backend) (o : Outcome) : Backend :=
  match b.mode with
  | .simpleCopy => b.runQuery o
  | .extendedCopy => if o.fails then b.skip o else { b with txn := o.txn, mode := .normal }
  | .normal | .skipToSync => b

def receive (b : Backend) (m : FrontendMessage) (o : Outcome) : Backend :=
  match m with
  | .query => b.receiveQuery o
  | .sync => b.receiveSync
  | .parse | .bind | .execute | .describe | .flush | .close => b.receiveExtended m o
  | .copyData => b.receiveCopyData o
  | .copyDone | .copyFail => b.receiveCopyEnd o
  | .terminate | .passwordMessage | .startupMessage => b

end Backend

end PgCluster
