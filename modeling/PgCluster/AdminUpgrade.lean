import PgCluster.AdminScheduler
import PgCluster.AdminOperations
import PgCluster.Texts

/-!
# Upgrades that are accepted

`upgrade` of `api/databases.rs` chooses the release to go to, and `upgrade_check`, the
operation's first step, looks whether every host has it. Without a named release the
choice is the oldest of those that the hosts report, and only one of them may have it.
-/

namespace PgCluster.Admin

/-- A node that is not retracted, with what its host reports. -/
structure UpgradeNode where
  host : String
  running : Option Text
  /-- `postgres_versions`: the installed release of each major version. -/
  versions : Text → Option Text

/-- The numbers in a version; one that is no `u64` counts as 0. -/
def versionParts (v : Text) : List Nat :=
  ((v.splitOnP fun c => !c.isDigit).filter (· ≠ [])).map fun p =>
    (Text.parseBelow 18446744073709551616 p).getD 0

/-- `compare_versions`: `a` comes before `b`. -/
def versionLt (a b : Text) : Bool := versionParts a < versionParts b

/-- `split('.').next()`. -/
def majorOf (v : Text) : Text := v.takeWhile (· ≠ '.')

/-- `min_by`: the first of the oldest. -/
def oldest : List Text → Option Text
  | [] => none
  | v :: vs => match oldest vs with
    | none => some v
    | some m => if versionLt m v then some m else some v

def quoted (v : Text) : String := String.ofList v

section Upgrade

variable (version : Text) (wanted : Option Text) (nodes : List UpgradeNode)

/-- The release that is asked for, or the newest that every host has. -/
def upgradeTarget : Except String Text :=
  match nodes.find? (fun n => n.versions version = none),
    oldest (nodes.filterMap (·.versions version)), wanted with
  | some n, _, _ =>
    .error s!"host {n.host} has not reported its Postgres {quoted version} version"
  | none, none, _ => .error "the database has no nodes"
  | none, some newest, none => .ok newest
  | none, some _, some v =>
    if majorOf v ≠ version then
      .error (s!"{quoted v} is not a release of Postgres {quoted version}. "
        ++ "Major upgrades restore into a new database")
    else match nodes.find? fun n => n.versions version ≠ some v with
      | some n => .error s!"host {n.host} does not have Postgres {quoted v} installed"
      | none => .ok v

/-- Where an accepted request goes. -/
def upgrade : Except String Text := do
  let target ← upgradeTarget version wanted nodes
  if nodes.all fun n => n.running = some target then
    .error (s!"every node already runs {quoted target}. "
      ++ "Install a newer release on its hosts first")
  else match nodes.findSome? fun n => n.running.filter (versionLt target) with
    | some running => .error (s!"a node runs {quoted running}, newer than {quoted target}: "
        ++ "a minor release cannot go back")
    | none => .ok target

end Upgrade

def upgradeCheck (target : Text) (nodes : List UpgradeNode) : Outcome :=
  let missing := (nodes.filter fun n => n.versions (majorOf target) ≠ some target).map (·.host)
  if missing = [] then .done
  else .fail (s!"Postgres {quoted target} is not installed on "
    ++ ", ".intercalate (missing.insertionSort (· ≤ ·)))

/-- The first step succeeds, as long as no host's releases change and no node is added. -/
def RunsOn (nodes : List UpgradeNode) (target : Text) : Prop :=
  ∀ nodes', (∀ n' ∈ nodes', ∃ n ∈ nodes, n'.versions = n.versions) →
    upgradeCheck target nodes' = .done

variable {version target : Text} {wanted : Option Text} {nodes : List UpgradeNode}

theorem mem_of_oldest {vs : List Text} (h : oldest vs = some target) : target ∈ vs := by
  induction vs generalizing target with
  | nil => cases h
  | cons v vs ih =>
    rw [oldest] at h
    split at h
    · cases h
      exact List.mem_cons_self ..
    · next m hm =>
      split at h
      · cases h
        exact List.mem_cons_of_mem _ (ih hm)
      · cases h
        exact List.mem_cons_self ..

theorem upgradeCheck_eq_done_iff : upgradeCheck target nodes = .done
    ↔ ∀ n ∈ nodes, n.versions (majorOf target) = some target := by
  simp [upgradeCheck]

theorem runsOn_iff :
    RunsOn nodes target ↔ ∀ n ∈ nodes, n.versions (majorOf target) = some target := by
  simp only [RunsOn, upgradeCheck_eq_done_iff]
  constructor
  · exact fun h => h nodes fun n hn => ⟨n, hn, rfl⟩
  · intro h nodes' hkept n' hn'
    obtain ⟨n, hn, heq⟩ := hkept n' hn'
    rw [heq, h n hn]

/-- The oldest release there is, or the named one, which every host has. -/
theorem cases_of_upgradeTarget (h : upgradeTarget version wanted nodes = .ok target) :
    (wanted = none ∧ oldest (nodes.filterMap (·.versions version)) = some target)
      ∨ (wanted = some target ∧ majorOf target = version
        ∧ ∀ n ∈ nodes, n.versions version = some target) := by
  unfold upgradeTarget at h
  split at h
  · cases h
  · cases h
  · next hnewest =>
    cases h
    exact .inl ⟨rfl, hnewest⟩
  · split at h
    · cases h
    · next hmajor =>
      split at h
      · cases h
      · next hnone =>
        cases h
        exact .inr ⟨rfl, not_not.mp hmajor, by simpa using hnone⟩

/-- An accepted upgrade has a target, and no node runs a newer release. -/
theorem of_upgrade (h : upgrade version wanted nodes = .ok target) :
    upgradeTarget version wanted nodes = .ok target
      ∧ ∀ n ∈ nodes, ∀ running, n.running = some running → versionLt target running = false := by
  cases htarget : upgradeTarget version wanted nodes with
  | error text =>
    rw [upgrade, htarget] at h
    cases h
  | ok target' =>
    rw [upgrade, htarget] at h
    dsimp only [bind, Except.bind] at h
    split at h
    · cases h
    · split at h
      · cases h
      · next hnone =>
        cases h
        refine ⟨rfl, fun n hn running hrunning => ?_⟩
        have hold := List.findSome?_eq_none_iff.mp hnone n hn
        rw [hrunning] at hold
        simpa using hold

/-- A node never goes back to an older release. The first step finds what was accepted exactly
if a release was named or the oldest that the hosts report is on all of them; where hosts
report releases of the version they are asked for, that is if all report the same one. -/
theorem accepted_upgrade_runs_iff (h : upgrade version wanted nodes = .ok target) :
    (RunsOn nodes target ↔ wanted.isSome ∨ ∃ v,
        oldest (nodes.filterMap (·.versions version)) = some v
          ∧ ∀ n ∈ nodes, n.versions (majorOf v) = some v)
    ∧ ((∀ n ∈ nodes, ∀ v, n.versions version = some v → majorOf v = version) →
      (RunsOn nodes target ↔ wanted.isSome ∨ ∃ v, ∀ n ∈ nodes, n.versions version = some v))
    ∧ ∀ n ∈ nodes, ∀ running, n.running = some running → versionLt target running = false := by
  obtain ⟨htarget, hrunning⟩ := of_upgrade h
  rw [runsOn_iff]
  rcases cases_of_upgradeTarget htarget with ⟨rfl, holdest⟩ | ⟨rfl, hmajor, hall⟩
  · refine ⟨by simp [holdest], fun hmajor => ?_, hrunning⟩
    obtain ⟨n, hn, htarget⟩ := List.mem_filterMap.mp (mem_of_oldest holdest)
    simp only [hmajor n hn target htarget, Option.isSome_none, Bool.false_eq_true, false_or]
    refine ⟨fun hall => ⟨target, hall⟩, fun ⟨v, hall⟩ => ?_⟩
    rwa [Option.some.inj (htarget.symm.trans (hall n hn))]
  · rw [hmajor]
    exact ⟨iff_of_true hall (.inl rfl), fun _ => iff_of_true hall (.inl rfl), hrunning⟩

def nodeWith (host release : String) : UpgradeNode where
  host := host
  running := some "18.1".toList
  versions v := if v = "18".toList then some release.toList else none

/-- Two hosts report one release, and none is named. -/
theorem accepted_upgrade_runs_same :
    RunsOn [nodeWith "h1" "18.2", nodeWith "h2" "18.2"] "18.2".toList := by
  have h : upgrade "18".toList none [nodeWith "h1" "18.2", nodeWith "h2" "18.2"]
      = .ok "18.2".toList := by decide +kernel
  exact (accepted_upgrade_runs_iff h).1.mpr
    (.inr ⟨"18.2".toList, by decide +kernel, by decide +kernel⟩)

/-- The oldest of two releases is accepted, and found to be missing on the other host. -/
theorem accepted_upgrade_fails :
    upgrade "18".toList none [nodeWith "h1" "18.2", nodeWith "h2" "18.3"] = .ok "18.2".toList
      ∧ upgradeCheck "18.2".toList [nodeWith "h1" "18.2", nodeWith "h2" "18.3"]
        = .fail "Postgres 18.2 is not installed on h2" := by
  constructor <;> decide +kernel

end PgCluster.Admin
