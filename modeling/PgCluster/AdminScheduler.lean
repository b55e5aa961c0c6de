import Mathlib.Data.List.Sort
import Mathlib.Tactic.Linarith

/-!
# Choosing hosts

`pgcluster-admin/src/scheduler.rs` and `choose_hosts` of `model.rs`: what a
host can hand out, what is free on it, and which hosts a database's nodes
go to. Sizes are rationals.

A configuration carries what `SchedulerConfig::validate` checks, and a fleet
that its hosts are told apart by their ids and measure no negative size.
How a size is printed in a message is left open.
-/

namespace PgCluster.Admin

open List

/-! ## Sizes -/

structure Resources where
  vcpu : ℚ
  memoryGb : ℚ
  storageGb : ℚ
deriving DecidableEq

inductive Dim where
  | vcpu | memoryGb | storageGb
deriving DecidableEq

namespace Resources

def amount (r : Resources) : Dim → ℚ
  | .vcpu => r.vcpu
  | .memoryGb => r.memoryGb
  | .storageGb => r.storageGb

def zero : Resources := ⟨0, 0, 0⟩

def plus (a b : Resources) : Resources :=
  ⟨a.vcpu + b.vcpu, a.memoryGb + b.memoryGb, a.storageGb + b.storageGb⟩

def minus (a b : Resources) : Resources :=
  ⟨a.vcpu - b.vcpu, a.memoryGb - b.memoryGb, a.storageGb - b.storageGb⟩

/-- `resources must all be above zero`. -/
def positive (r : Resources) : Bool := 0 < r.vcpu && 0 < r.memoryGb && 0 < r.storageGb

@[simp] theorem zero_at (d : Dim) : zero.amount d = 0 := by cases d <;> rfl
@[simp] theorem plus_at (a b : Resources) (d : Dim) :
    (a.plus b).amount d = a.amount d + b.amount d := by
  cases d <;> rfl
@[simp] theorem minus_at (a b : Resources) (d : Dim) :
    (a.minus b).amount d = a.amount d - b.amount d := by
  cases d <;> rfl

theorem positive_at {r : Resources} (h : r.positive) (d : Dim) : 0 < r.amount d := by
  simp only [positive, Bool.and_eq_true, decide_eq_true_eq] at h
  cases d with
  | vcpu => exact h.1.1
  | memoryGb => exact h.1.2
  | storageGb => exact h.2

end Resources

/-- Room for rounding, so that a request for exactly what is free fits. -/
def EPSILON : ℚ := 1 / 1000000000

def fits (free request : Resources) : Bool :=
  request.vcpu ≤ free.vcpu + EPSILON && request.memoryGb ≤ free.memoryGb + EPSILON
    && request.storageGb ≤ free.storageGb + EPSILON

theorem fits_at {free request : Resources} (h : fits free request) (d : Dim) :
    request.amount d ≤ free.amount d + EPSILON := by
  simp only [fits, Bool.and_eq_true, decide_eq_true_eq] at h
  cases d with
  | vcpu => exact h.1.1
  | memoryGb => exact h.1.2
  | storageGb => exact h.2

/-! ## The configuration -/

/-- Ports each instance takes, from its `port_base`. -/
def PORT_BLOCK : Nat := 10

structure SchedulerConfig where
  osReservedMemoryGb : ℚ
  pageCacheShare : ℚ
  storageReserveShare : ℚ
  portBaseStart : Nat
  portBaseEnd : Nat
  shares : (0 ≤ pageCacheShare ∧ pageCacheShare < 1)
    ∧ 0 ≤ storageReserveShare ∧ storageReserveShare < 1
  reserved : 0 ≤ osReservedMemoryGb
  ports : 1024 ≤ portBaseStart ∧ portBaseStart ≤ portBaseEnd ∧ portBaseEnd ≤ 65535 - PORT_BLOCK

namespace SchedulerConfig

/-- How many instances fit a host's port range. -/
def portBlocks (config : SchedulerConfig) : Nat :=
  (config.portBaseEnd - config.portBaseStart) / PORT_BLOCK + 1

/-- What can be handed out from a host of this size. -/
def allocatable (config : SchedulerConfig) (capacity : Resources) : Resources where
  vcpu := capacity.vcpu
  memoryGb := max (capacity.memoryGb - config.osReservedMemoryGb) 0 * (1 - config.pageCacheShare)
  storageGb := capacity.storageGb * (1 - config.storageReserveShare)

theorem allocatable_nonneg (config : SchedulerConfig) {capacity : Resources}
    (h : ∀ d, 0 ≤ capacity.amount d) (d : Dim) : 0 ≤ (config.allocatable capacity).amount d := by
  obtain ⟨⟨-, _⟩, -, _⟩ := config.shares
  cases d with
  | vcpu => exact h .vcpu
  | memoryGb => exact mul_nonneg (le_max_right _ _) (by linarith)
  | storageGb => exact mul_nonneg (h .storageGb) (by linarith)

end SchedulerConfig

/-! ## Hosts -/

structure HostRow where
  id : String
  name : String
  failureDomain : Option String
  capacity : Option Resources
deriving DecidableEq

structure Fleet where
  config : SchedulerConfig
  hosts : List HostRow
  /-- How a message prints a size. -/
  describe : Resources → String
  ids : (hosts.map (·.id)).Nodup
  sizes : ∀ h ∈ hosts, ∀ c, h.capacity = some c → ∀ d, 0 ≤ c.amount d

structure HostLoad where
  host : HostRow
  used : Resources
  instances : Nat
  online : Bool
  draining : Bool

namespace HostLoad

/-- What is left after reserves and every instance on it, or nothing if it
has not said how large it is. -/
def free (h : HostLoad) (config : SchedulerConfig) : Option Resources :=
  h.host.capacity.map fun capacity => (config.allocatable capacity).minus h.used

def domain (h : HostLoad) : String := h.host.failureDomain.getD h.host.id

/-- Whether a node of this size could land here now. -/
def hasRoom (h : HostLoad) (config : SchedulerConfig) (request : Resources) : Bool :=
  h.instances < config.portBlocks && (h.free config).any (fits · request)

theorem hasRoom_at {h : HostLoad} {config : SchedulerConfig} {request : Resources}
    (hroom : h.hasRoom config request) : ∃ c, h.host.capacity = some c
      ∧ ∀ d, h.used.amount d + request.amount d ≤ (config.allocatable c).amount d + EPSILON := by
  simp only [hasRoom, Bool.and_eq_true, free, Option.any_eq_true, Option.map_eq_some_iff] at hroom
  obtain ⟨-, _, ⟨c, hc, rfl⟩, hfits⟩ := hroom
  refine ⟨c, hc, fun d => ?_⟩
  have h := fits_at hfits d
  rw [Resources.minus_at] at h
  linarith

end HostLoad

/-! ## Placement -/

section ChooseHosts

variable {α : Type} (domain : α → String)

def firstPerDomain : List String → List α → List α
  | _, [] => []
  | used, x :: xs =>
    if domain x ∈ used then firstPerDomain used xs
    else x :: firstPerDomain (domain x :: used) xs

/-- Choose hosts for `count` nodes from `candidates`, best first: one for
each failure domain. -/
def chooseHosts (candidates : List α) (count : Nat) : Option (List α) :=
  let chosen := (firstPerDomain domain [] candidates).take count
  if chosen.length = count then some chosen else none

theorem firstPerDomain_mem {used : List String} {xs : List α} {x : α}
    (h : x ∈ firstPerDomain domain used xs) : x ∈ xs ∧ domain x ∉ used := by
  induction xs generalizing used with
  | nil => cases h
  | cons _ _ ih =>
    rw [firstPerDomain] at h
    split at h
    · exact ⟨mem_cons_of_mem _ (ih h).1, (ih h).2⟩
    · next hy =>
      rcases mem_cons.mp h with rfl | h
      · exact ⟨mem_cons_self, hy⟩
      · obtain ⟨hmem, hne⟩ := ih h
        exact ⟨mem_cons_of_mem _ hmem, fun hu => hne (mem_cons_of_mem _ hu)⟩

theorem firstPerDomain_pairwise (used : List String) (xs : List α) :
    (firstPerDomain domain used xs).Pairwise fun a b => domain a ≠ domain b := by
  induction xs generalizing used with
  | nil => exact .nil
  | cons _ _ ih =>
    rw [firstPerDomain]
    split
    · exact ih used
    · refine .cons (fun z hz heq => ?_) (ih _)
      exact (firstPerDomain_mem domain hz).2 (heq ▸ mem_cons_self)

theorem chooseHosts_some {candidates chosen : List α} {count : Nat}
    (h : chooseHosts domain candidates count = some chosen) :
    (∀ x ∈ chosen, x ∈ candidates) ∧ (chosen.Pairwise fun a b => domain a ≠ domain b)
      ∧ chosen.length = count := by
  obtain ⟨hcount, rfl⟩ := Option.ite_some_none_eq_some.mp h
  refine ⟨fun x hx => (firstPerDomain_mem domain (mem_of_mem_take hx)).1, ?_, hcount⟩
  exact (firstPerDomain_pairwise domain [] candidates).sublist (take_sublist _ _)

end ChooseHosts

/-- Where a database's nodes go, or why they cannot go anywhere. -/
inductive Placement where
  | placed (chosen : List HostLoad)
  /-- Too few hosts, or failure domains, to hold the nodes at all. -/
  | tooFewHosts
  /-- There are hosts enough, but not enough of them have room. -/
  | noRoom (message : String)

namespace Fleet

variable (F : Fleet)

/-- `sort_by` free memory, most first; a host of unknown size comes last. -/
def moreFree (a b : HostLoad) : Bool :=
  match a.free F.config, b.free F.config with
  | some x, some y => y.memoryGb ≤ x.memoryGb
  | none, some _ => false
  | _, none => true

def byFree (hosts : List HostLoad) : List HostLoad :=
  hosts.insertionSort fun a b => F.moreFree a b = true

/-- `max_by` memory: the last of the largest. -/
def largestFree (hosts : List HostLoad) : Option Resources :=
  (hosts.filterMap (·.free F.config)).foldl (fun best r => match best with
      | none => some r
      | some b => if b.memoryGb ≤ r.memoryGb then some r else some b) none

def noRoom (hosts : List HostLoad) (count : Nat) (request : Resources) : String :=
  let nodes := if count = 1 then "one host has"
    else toString count ++ " hosts in separate failure domains have"
  let full := (hosts.filter fun h => F.config.portBlocks ≤ h.instances).length
  "no " ++ nodes ++ " room for " ++ F.describe request ++ (match F.largestFree hosts with
        | some largest => ". The most any host has free is " ++ F.describe largest
        | none => "")
    ++ (if 0 < full then ". " ++ toString full ++ " host(s) have no free port block" else "")

/-- Choose `count` hosts with room for `request`, in separate failure
domains. Hosts with the most free memory come first. -/
def place (hosts : List HostLoad) (count : Nat) (request : Resources) : Placement :=
  let byFree := F.byFree hosts
  let roomy := byFree.filter fun h => h.hasRoom F.config request
  match chooseHosts HostLoad.domain roomy count with
  | some chosen => .placed chosen
  | none =>
    match chooseHosts HostLoad.domain byFree count with
    | none => .tooFewHosts
    | some _ => .noRoom (F.noRoom byFree count request)

/-- `too_large`: whether no host is large enough, even empty. -/
def tooLarge (hosts : List HostLoad) (request : Resources) : Bool :=
  let sizes := (hosts.filterMap (·.host.capacity)).map F.config.allocatable
  !sizes.isEmpty && !sizes.any (fits · request)

/-- A placement uses hosts that have room, in separate failure domains, as many
as were asked for. -/
theorem place_placed {hosts chosen : List HostLoad} {count : Nat} {request : Resources}
    (h : F.place hosts count request = .placed chosen) :
    (∀ x ∈ chosen, x ∈ hosts ∧ x.hasRoom F.config request)
      ∧ (chosen.Pairwise fun a b => a.domain ≠ b.domain) ∧ chosen.length = count := by
  unfold place at h
  dsimp only at h
  split at h
  · next chosen' hchosen =>
    obtain rfl : chosen' = chosen := by simpa using h
    obtain ⟨hmem, hpair, hcount⟩ := chooseHosts_some _ hchosen
    refine ⟨fun x hx => ?_, hpair, hcount⟩
    obtain ⟨hsorted, hroom⟩ := mem_filter.mp (hmem x hx)
    exact ⟨(mem_insertionSort _).mp hsorted, hroom⟩
  · split at h <;> cases h

end Fleet

end PgCluster.Admin
