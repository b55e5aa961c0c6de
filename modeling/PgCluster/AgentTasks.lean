import Mathlib.Data.Finset.Basic
import PgCluster.NetParse

/-!
# What an agent does to its node

The procedures of `vk-agent` that stop Postgres, change its data directory or
start it, as lists of effects in the order the source awaits them:
`seed.rs`, `walg.rs`'s `restore`, `standby.rs`, and the RPCs of `server.rs`
that touch the node. An effect that fails ends its procedure, which is what
`?` does.

A data directory is the set of its entries. What is in a file does not matter
here: Postgres comes up as a standby when `standby.signal` exists, and the
agent looks only at `PG_VERSION`. An effect that takes many system calls
(emptying the directory, an external program) also has intermediate states,
so an agent can be killed in the middle of one.
-/

namespace PgCluster

/-! ## The node -/

abbrev DataDir := Finset String

def DataDir.hasData (dir : DataDir) : Bool := decide ("PG_VERSION" ∈ dir)

def DataDir.isStandby (dir : DataDir) : Bool := decide ("standby.signal" ∈ dir)

inductive PgRole where
  | standby
  | primary
deriving DecidableEq

/-- How Postgres comes up on a directory. With only a `recovery.signal` it
recovers to its target and promotes. -/
def DataDir.role (dir : DataDir) : PgRole := if dir.isStandby then .standby else .primary

structure LocalNode where
  dir : DataDir
  postgres : Option PgRole
deriving DecidableEq

def LocalNode.running (n : LocalNode) : Bool := n.postgres.isSome

/-! ## Effects -/

/-- The external programs that fill a data directory. -/
inductive FillTool where
  | pgBasebackup
  | pgRewind
  | backupFetch
deriving DecidableEq

/-- Effects that leave the entries of the data directory and Postgres as they
are. -/
inductive OutsideEffect where
  | writeConfig
  | listBackups
  | setOwnerOnly
  | reload
deriving DecidableEq

inductive AgentEffect where
  | stopFast
  | clearContents
  | fill (tool : FillTool)
  | write (file : String)
  | remove (file : String)
  | start
  | outside (op : OutsideEffect)
deriving DecidableEq

/-- One observable step of an effect. -/
inductive Progress where
  | done
  | fail
  | create (file : String)
  | erase (file : String)
deriving DecidableEq

/-- `pg_ctl stop` needs a running server and `pg_ctl start` a stopped one. A
program that fills the directory succeeds with `PG_VERSION` and without
`standby.signal`; before that it may have done anything. -/
def AgentEffect.advance (n : LocalNode) : AgentEffect → Progress → Option LocalNode
  | _, .fail => some n
  | .stopFast, .done => if n.running then some { n with postgres := none } else none
  | .clearContents, .erase file =>
    if file ∈ n.dir then some { n with dir := n.dir.erase file } else none
  | .clearContents, .done => if n.dir = ∅ then some n else none
  | .fill _, .create file => some { n with dir := insert file n.dir }
  | .fill _, .erase file => some { n with dir := n.dir.erase file }
  | .fill _, .done => if n.dir.hasData && !n.dir.isStandby then some n else none
  | .write file, .done => some { n with dir := insert file n.dir }
  | .remove file, .done => some { n with dir := n.dir.erase file }
  | .start, .done => if n.running then none else some { n with postgres := some n.dir.role }
  | .outside _, .done => some n
  | _, _ => none

/-! ## Procedures -/

/-- Whether `extract_conninfo_password` finds a password. -/
def conninfoHasPassword (conninfo : String) : Bool :=
  (conninfo.toList.splitOnP isWhitespace).any fun token => "password=".toList.isPrefixOf token

def configureStandby (conninfo slotName : String) : List AgentEffect :=
  (.write "standby.signal" :: (if conninfo = "" then [] else
      (if conninfoHasPassword conninfo then [.write ".pgpass"] else [] : List AgentEffect)
        ++ ([.write "postgresql.auto.conf"] : List AgentEffect)) : List AgentEffect)
    ++ (if slotName = "" then [] else [.write "postgresql.auto.conf"] : List AgentEffect)

structure SeedRequest where
  primaryHost : String
  primaryPort : Nat
  user : String
  password : String
  slotName : String
  force : Bool

structure RestoreRequest where
  backupName : String
  targetTime : String
  force : Bool
  standby : Option SeedRequest

def SeedRequest.conninfo (req : SeedRequest) : String :=
  "host=" ++ req.primaryHost ++ " port=" ++ toString req.primaryPort ++ " user=" ++ req.user
    ++ " password=" ++ req.password

/-- `rewind` has a database in its conninfo. -/
def SeedRequest.rewindConninfo (req : SeedRequest) : String :=
  "host=" ++ req.primaryHost ++ " port=" ++ toString req.primaryPort ++ " user=" ++ req.user
    ++ " dbname=postgres" ++ " password=" ++ req.password

def stopIf (running : Bool) : List AgentEffect := if running then [.stopFast] else []

/-- The three procedures that replace what is in the data directory. -/
inductive Rebuild where
  | seed (req : SeedRequest)
  | rewind (req : SeedRequest)
  | restore (req : RestoreRequest)

def seed (req : SeedRequest) (running : Bool) : List AgentEffect :=
  stopIf running ++ ([.clearContents, .fill .pgBasebackup] : List AgentEffect)
    ++ configureStandby req.conninfo req.slotName
    ++ ([.outside .setOwnerOnly, .start] : List AgentEffect)

def rewind (req : SeedRequest) (running : Bool) : List AgentEffect :=
  stopIf running ++ ([.fill .pgRewind] : List AgentEffect)
    ++ configureStandby req.rewindConninfo req.slotName ++ ([.start] : List AgentEffect)

/-- What `restore` writes for a node that becomes an independent primary. -/
def configureIndependent (targetTime : String) : List AgentEffect :=
  ([.write "recovery.signal", .write "postgresql.auto.conf",
      .write "postgresql.auto.conf"] : List AgentEffect)
    ++ (if targetTime = "" then [] else [.write "postgresql.auto.conf"] : List AgentEffect)
    ++ ([.write "postgresql.auto.conf", .write "postgresql.auto.conf",
      .write "postgresql.auto.conf"] : List AgentEffect)

def restore (req : RestoreRequest) (running : Bool) : List AgentEffect :=
  stopIf running ++ ([.clearContents, .outside .writeConfig] : List AgentEffect)
    ++ (if req.backupName = "" ∧ req.targetTime ≠ "" then [.outside .listBackups] else [] :
      List AgentEffect)
    ++ ([.fill .backupFetch, .write "postgresql.auto.conf"] : List AgentEffect)
    ++ (match req.standby with
      | some standby => configureStandby standby.conninfo standby.slotName
      | none => configureIndependent req.targetTime)
    ++ ([.outside .setOwnerOnly, .start] : List AgentEffect)

namespace Rebuild

/-- Whether Postgres is to come up as a standby. -/
def asStandby : Rebuild → Bool
  | .seed _ | .rewind _ => true
  | .restore req => req.standby.isSome

/-- `seed` and `restore` refuse a node with data unless forced. -/
def accepts (running hasData : Bool) : Rebuild → Bool
  | .seed req => req.force || !(running || hasData)
  | .rewind _ => true
  | .restore req => req.force || !(running || hasData)

def effects (running : Bool) : Rebuild → List AgentEffect
  | .seed req => PgCluster.seed req running
  | .rewind req => PgCluster.rewind req running
  | .restore req => PgCluster.restore req running

end Rebuild

/-! ## Restores that find no backup

`WalG::restore` empties the data directory before it looks for the backup to fill it from, so
a target time that does not parse, or that no backup finished before, is found too late. -/

structure ListedBackup (τ : Type) where
  backupName : String
  finishTime : Option τ

inductive RestoreError where
  | hasData
  | invalidTarget (text : String)
  | noBackup
  | failed (text : String)
deriving DecidableEq

def RestoreError.OfTarget : RestoreError → Prop
  | .invalidTarget _ | .noBackup => True
  | .hasData | .failed _ => False

/-- What a restore calls, and how each call ends: with the text of its error, if one. Times are
of any linear order, and how a text is parsed to one is left open. -/
structure RestoreCalls (τ : Type) where
  isRunning : Option Bool
  stopFast : Option String
  /-- With what is left of the directory. -/
  clearContents : Option (String × DataDir)
  writeConfig : Option String
  parseTargetTime : String → Option τ
  list : Except String (List (ListedBackup τ))
  /-- Everything from `backup-fetch` on. -/
  fetch : String → DataDir → Option String × DataDir

namespace RestoreCalls

variable {τ : Type} [LinearOrder τ] (c : RestoreCalls τ)

def newestBefore (backups : List (ListedBackup τ)) (target : τ) : Option String :=
  ((backups.filter fun b => b.finishTime.any (· ≤ target)).foldl (fun best b => match best with
      | none => some b
      | some m => if m.finishTime.any fun t => b.finishTime.any (· < t) then some m else some b)
    none).map (·.backupName)

def chooseBackup (req : RestoreRequest) : Except RestoreError String :=
  if req.backupName ≠ "" then .ok req.backupName
  else if req.targetTime = "" then .ok "LATEST"
  else match c.parseTargetTime req.targetTime, c.list with
    | none, _ => .error (.invalidTarget req.targetTime)
    | some _, .error text => .error (.failed text)
    | some target, .ok backups => (newestBefore backups target).elim (.error .noBackup) .ok

def restore (req : RestoreRequest) (dir : DataDir) : Except RestoreError Unit × DataDir :=
  let running := c.isRunning.getD false
  if !req.force && (running || dir.hasData) then (.error .hasData, dir)
  else match if running then c.stopFast else none with
    | some text => (.error (.failed text), dir)
    | none => match c.clearContents, c.writeConfig, c.chooseBackup req with
      | some (text, dir), _, _ => (.error (.failed text), dir)
      | none, some text, _ => (.error (.failed text), ∅)
      | none, none, .error e => (.error e, ∅)
      | none, none, .ok name => match c.fetch name ∅ with
        | (some text, dir) => (.error (.failed text), dir)
        | (none, dir) => (.ok (), dir)

/-- Forced, a restore that fails over its target time leaves the directory as it was exactly
if there was nothing in it. -/
theorem restore_keeps_iff_empty {c : RestoreCalls τ} {req : RestoreRequest} {dir dir' : DataDir}
    {e : RestoreError} (hforce : req.force = true) (he : e.OfTarget)
    (h : c.restore req dir = (.error e, dir')) : dir' = dir ↔ dir = ∅ := by
  have hempty : dir' = ∅ := by
    simp only [restore, hforce, Bool.not_true, Bool.false_and, Bool.false_eq_true, if_false] at h
    split at h
    · cases h
      cases he
    · split at h
      · cases h
        cases he
      · cases h
        rfl
      · cases h
        rfl
      · split at h
        · cases h
          cases he
        · cases h
  rw [hempty, eq_comm]

end RestoreCalls

/-- Nothing goes wrong but that there is no backup. -/
def emptyRepository : RestoreCalls Nat :=
  ⟨some true, none, none, none, fun _ => some 0, .ok [], fun _ dir => (none, dir)⟩

def forcedRestore : RestoreRequest := ⟨"", "2026-01-01T00:00:00Z", true, none⟩

theorem restore_keeps_iff_empty_fresh : (emptyRepository.restore forcedRestore ∅).2 = ∅ := by
  have h : emptyRepository.restore forcedRestore ∅ = (.error .noBackup, ∅) := rfl
  have htarget : RestoreError.noBackup.OfTarget := trivial
  exact (RestoreCalls.restore_keeps_iff_empty rfl htarget h).mpr rfl

theorem restore_loses_data : emptyRepository.restore forcedRestore {"PG_VERSION"}
    = (.error .noBackup, ∅) := rfl

end PgCluster
