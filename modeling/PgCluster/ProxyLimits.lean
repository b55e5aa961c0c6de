import PgCluster.ListUpdates
import PgCluster.Machine

/-!
# Caps on client connections

`proxy/limits.rs`. An admitted client holds a permit of the total, and until
it has logged in a `LoginGuard`: a permit of the pending logins and one in the
count of its address. The three are taken one after the other and each taking
or giving back is atomic on its own, so admissions, logins and disconnects
interleave between them, and a refusal has to give back what it took so far.
-/

namespace PgCluster

open Option

variable {Address : Type} [DecidableEq Address]

/-- One more than the largest `usize`. -/
def usizeBound : Nat := 18446744073709551616

/-- The permits that are free, and the counts by address. -/
structure ConnectionLimits (Address : Type) where
  total : Nat
  pending : Nat
  perAddress : Address → Option Nat
  perAddressMax : Nat

namespace ConnectionLimits

/-- `ConnectionLimits::with`. -/
def make (total pending perAddressMax : Nat) : ConnectionLimits Address where
  total := total
  pending := pending
  perAddress := fun _ => none
  perAddressMax := perAddressMax

/-- An address without an entry counts for zero. -/
def count (limits : ConnectionLimits Address) (address : Address) : Nat :=
  (limits.perAddress address).getD 0

def setCount (limits : ConnectionLimits Address) (address : Address) (count : Option Nat) :
    ConnectionLimits Address :=
  { limits with perAddress := Function.update limits.perAddress address count }

/-- `release`, with the subtraction of a `usize`. -/
def release (limits : ConnectionLimits Address) (address : Address) : ConnectionLimits Address :=
  match limits.perAddress address with
  | some count =>
    let less := (count + (usizeBound - 1)) % usizeBound
    limits.setCount address (if less = 0 then none else some less)
  | none => limits

end ConnectionLimits

/-! ## One client -/

/-- Where a client's `admit` is, and then its `LoginGuard`. -/
inductive LoginStage where
  /-- In `admit`, before the total permit. -/
  | asking
  /-- The total permit is taken; the address is counted next. -/
  | counting
  /-- The address is counted; the pending permit is next. -/
  | acquiring
  /-- No pending permit was free; the count is given back next. -/
  | rollingBack
  /-- `admit` returns `None` and drops the total permit next. -/
  | refusing
  | refused
  /-- Admitted. The guard holds its permit until it is finished. -/
  | login (permit : Bool)
  /-- `finish` has dropped the permit; the count is given back next. -/
  | finishing (dropping : Bool)
  | dropped
deriving DecidableEq

namespace LoginStage

/-- The client's address counts it. -/
def counted : LoginStage → Bool
  | .acquiring | .rollingBack | .login true | .finishing _ => true
  | _ => false

/-- A call of `admit`, `finish` or `drop` is in progress. -/
def inProgress : LoginStage → Bool
  | .asking | .counting | .acquiring | .rollingBack | .refusing | .finishing _ => true
  | _ => false

/-- `admit` has returned a client. -/
def admitted : LoginStage → Bool
  | .login _ | .finishing _ | .dropped => true
  | _ => false

/-- The next step of the call subtracts from the count of the address. -/
def givesBack : LoginStage → Bool
  | .rollingBack | .finishing _ => true
  | _ => false

end LoginStage

variable {limits limits' : ConnectionLimits Address}

/-- A client that called `admit`. `held` is its total permit. The last four
fields count what it took and gave back. -/
structure LimitedClient (Address : Type) where
  address : Address
  stage : LoginStage := .asking
  held : Bool := false
  permitsTaken : Nat := 0
  permitsBack : Nat := 0
  countsTaken : Nat := 0
  countsBack : Nat := 0

inductive LimitOp where
  | acquireTotal
  | count
  | acquirePending
  | rollBack
  | refuse
  | finish
  | drop
  | giveBack
  | dropTotal
deriving DecidableEq

namespace LimitedClient

def countsFor (address : Address) (c : LimitedClient Address) : Bool :=
  c.stage.counted && c.address = address

def unfinished (c : LimitedClient Address) : Bool := c.stage = .login true

def unfinishedFor (address : Address) (c : LimitedClient Address) : Bool :=
  c.unfinished && c.address = address

/-- `finish`, which drops the permit before it gives the count back, and
`drop`, which finishes a guard that is not. -/
def finishGuard (limits : ConnectionLimits Address) (c : LimitedClient Address)
    (dropping : Bool) : Option (ConnectionLimits Address × LimitedClient Address) :=
  match c.stage with
  | .login true =>
    some ({ limits with pending := limits.pending + 1 },
      { c with stage := .finishing dropping, permitsBack := c.permitsBack + 1 })
  | .login false => some (limits, { c with stage := if dropping then .dropped else .login false })
  | _ => none

/-- One atomic step of a client's calls: a semaphore operation or a section
under the lock. A guard's owner calls `finish` as often as it likes and drops
the guard and the total permit when it likes. -/
def step (limits : ConnectionLimits Address) (c : LimitedClient Address) :
    LimitOp → Option (ConnectionLimits Address × LimitedClient Address)
  | .acquireTotal =>
    if c.stage = .asking then
      if 0 < limits.total then
        some ({ limits with total := limits.total - 1 },
          { c with stage := .counting, held := true })
      else some (limits, { c with stage := .refused })
    else none
  | .count =>
    if c.stage = .counting then
      -- `entry(address).or_default()` makes the entry before the comparison.
      let limits := limits.setCount c.address (some (limits.count c.address))
      if limits.perAddressMax ≤ limits.count c.address then
        some (limits, { c with stage := .refusing })
      else
        some (limits.setCount c.address (some ((limits.count c.address + 1) % usizeBound)),
          { c with stage := .acquiring, countsTaken := c.countsTaken + 1 })
    else none
  | .acquirePending =>
    if c.stage = .acquiring then
      if 0 < limits.pending then
        some ({ limits with pending := limits.pending - 1 },
          { c with stage := .login true, permitsTaken := c.permitsTaken + 1 })
      else some (limits, { c with stage := .rollingBack })
    else none
  | .rollBack =>
    if c.stage = .rollingBack then
      some (limits.release c.address,
        { c with stage := .refusing, countsBack := c.countsBack + 1 })
    else none
  | .refuse =>
    if c.stage = .refusing then
      some ({ limits with total := limits.total + 1 }, { c with stage := .refused, held := false })
    else none
  | .finish => finishGuard limits c false
  | .drop => finishGuard limits c true
  | .giveBack =>
    match c.stage with
    | .finishing dropping =>
      some (limits.release c.address, { c with
          stage := if dropping then .dropped else .login false
          countsBack := c.countsBack + 1 })
    | _ => none
  | .dropTotal =>
    if c.held && c.stage.admitted then
      some ({ limits with total := limits.total + 1 }, { c with held := false })
    else none

end LimitedClient

/-! ## Every client -/

namespace ConnectionLimits

structure State (Address : Type) where
  limits : ConnectionLimits Address
  clients : List (LimitedClient Address)

inductive Label (Address : Type) where
  | admits (address : Address)
  | step (client : Nat) (op : LimitOp)

def State.step (s : State Address) : Label Address → Option (State Address)
  | .admits address => some { s with clients := s.clients ++ [{ address := address }] }
  | .step client op => do
      let c ← s.clients[client]?
      let (limits, c') ← c.step s.limits op
      return { limits := limits, clients := s.clients.set client c' }

def machine (total pending perAddressMax : Nat) : Machine (State Address) (Label Address) where
  init := { limits := make total pending perAddressMax, clients := [] }
  step := State.step

/-- No call of `admit`, `finish` or `drop` is in progress. -/
def State.Quiet (s : State Address) : Prop := ∀ c ∈ s.clients, c.stage.inProgress = false

/-! ## Counts under one change -/

variable {address other : Address}

@[simp] theorem count_setCount_self (n : Option Nat) :
    (limits.setCount address n).count address = n.getD 0 := by
  simp [count, setCount]

@[simp] theorem count_setCount_of_ne (n : Option Nat) (h : other ≠ address) :
    (limits.setCount address n).count other = limits.count other := by
  simp [count, setCount, Function.update_of_ne h]

@[simp] theorem setCount_perAddressMax (n : Option Nat) :
    (limits.setCount address n).perAddressMax = limits.perAddressMax := rfl

/-- A count that is there goes down by one, and does not wrap. -/
theorem count_release_self (hcount : 1 ≤ limits.count address)
    (hbound : limits.count address < usizeBound) :
    (limits.release address).count address + 1 = limits.count address := by
  cases hentry : limits.perAddress address with
  | none => simp [count, hentry] at hcount
  | some n =>
    have hn : limits.count address = n := by simp [count, hentry]
    have hless : (n + (usizeBound - 1)) % usizeBound = n - 1 := by
      rw [show n + (usizeBound - 1) = n - 1 + usizeBound by omega, Nat.add_mod_right]
      exact Nat.mod_eq_of_lt (by omega)
    simp only [release, hentry, count_setCount_self, hless]
    split <;> simp only [getD_none, getD_some] <;> omega

theorem count_release_of_ne (h : other ≠ address) :
    (limits.release address).count other = limits.count other := by
  unfold release
  split
  · exact count_setCount_of_ne _ h
  · rfl

@[simp] theorem release_total : (limits.release address).total = limits.total := by
  unfold release
  split <;> rfl

@[simp] theorem release_pending : (limits.release address).pending = limits.pending := by
  unfold release
  split <;> rfl

@[simp] theorem release_perAddressMax :
    (limits.release address).perAddressMax = limits.perAddressMax := by
  unfold release
  split <;> rfl

end ConnectionLimits

namespace LimitedClient

open ConnectionLimits

def Accounts (c : LimitedClient Address) : Prop :=
  match c.stage with
  | .asking => c.held = false ∧ c.permitsTaken = 0 ∧ c.permitsBack = 0 ∧ c.countsTaken = 0
      ∧ c.countsBack = 0
  | .counting => c.held = true ∧ c.permitsTaken = 0 ∧ c.permitsBack = 0 ∧ c.countsTaken = 0
      ∧ c.countsBack = 0
  | .acquiring | .rollingBack => c.held = true ∧ c.permitsTaken = 0 ∧ c.permitsBack = 0
      ∧ c.countsTaken = 1 ∧ c.countsBack = 0
  | .refusing => c.held = true ∧ c.permitsTaken = 0 ∧ c.permitsBack = 0
      ∧ c.countsTaken = c.countsBack
  | .refused => c.held = false ∧ c.permitsTaken = 0 ∧ c.permitsBack = 0
      ∧ c.countsTaken = c.countsBack
  | .login true => c.permitsTaken = 1 ∧ c.permitsBack = 0 ∧ c.countsTaken = 1 ∧ c.countsBack = 0
  | .finishing _ => c.permitsTaken = 1 ∧ c.permitsBack = 1 ∧ c.countsTaken = 1 ∧ c.countsBack = 0
  | .login false | .dropped => c.permitsTaken = 1 ∧ c.permitsBack = 1 ∧ c.countsTaken = 1
      ∧ c.countsBack = 1

/-- A step moves between the free permits, the counts and what the client
holds, and loses nothing. -/
structure Balanced (limits limits' : ConnectionLimits Address) (c c' : LimitedClient Address) :
    Prop where
  counts : ∀ a, limits'.count a + one (countsFor a) c = limits.count a + one (countsFor a) c'
  bound : ∀ a, limits'.count a ≤ limits'.perAddressMax
  max : limits'.perAddressMax = limits.perAddressMax
  pending : limits'.pending + one unfinished c' = limits.pending + one unfinished c
  total : limits'.total + one held c' = limits.total + one held c
  accounts : c'.Accounts

variable {c c' : LimitedClient Address}

theorem one_countsFor_self (h : c.stage.counted) : one (countsFor c.address) c = 1 :=
  one_of_true (by simp [countsFor, h])

theorem one_countsFor_of_not_counted {a : Address} (h : c.stage.counted = false) :
    one (countsFor a) c = 0 :=
  one_of_false (by simp [countsFor, h])

theorem one_countsFor_of_ne {a : Address} (h : a ≠ c.address) : one (countsFor a) c = 0 :=
  one_of_false (by simp [countsFor, Ne.symm h])

/-- Nothing but the count of the client's own address changes when the client
starts to be counted or stops. -/
theorem counts_of_self (haddress : c'.address = c.address)
    (hself : limits'.count c.address + one (countsFor c.address) c
      = limits.count c.address + one (countsFor c.address) c')
    (hother : ∀ a, a ≠ c.address → limits'.count a = limits.count a) (a : Address) :
    limits'.count a + one (countsFor a) c = limits.count a + one (countsFor a) c' := by
  by_cases ha : a = c.address
  · exact ha ▸ hself
  · rw [hother a ha, one_countsFor_of_ne ha, one_countsFor_of_ne (haddress ▸ ha)]

theorem counts_release (hcounted : c.stage.counted) (haddress : c'.address = c.address)
    (hcounted' : c'.stage.counted = false) (hcount : 1 ≤ limits.count c.address)
    (hbound : limits.count c.address < usizeBound) (a : Address) :
    (limits.release c.address).count a + one (countsFor a) c
      = limits.count a + one (countsFor a) c' := by
  refine counts_of_self haddress ?_ (fun a ha => count_release_of_ne ha) a
  rw [one_countsFor_self hcounted, one_countsFor_of_not_counted hcounted',
    count_release_self hcount hbound, Nat.add_zero]

theorem count_release_le (hcount : 1 ≤ limits.count c.address)
    (hbound : limits.count c.address < usizeBound) (a : Address) :
    (limits.release c.address).count a ≤ limits.count a := by
  by_cases ha : a = c.address
  · subst ha
    exact Nat.le_of_lt (Nat.lt_of_succ_le (Nat.le_of_eq (count_release_self hcount hbound)))
  · exact Nat.le_of_eq (count_release_of_ne ha)

theorem counts_of_same (hcounts : limits'.perAddress = limits.perAddress)
    (haddress : c'.address = c.address) (hstage : c'.stage.counted = c.stage.counted)
    (a : Address) :
    limits'.count a + one (countsFor a) c = limits.count a + one (countsFor a) c' := by
  have hcount : limits'.count a = limits.count a := by rw [count, hcounts, count]
  have hsame : countsFor a c' = countsFor a c := by rw [countsFor, haddress, hstage, countsFor]
  rw [hcount, one_eq_toNat, one_eq_toNat, hsame]

section Steps

variable (hle : ∀ a, limits.count a ≤ limits.perAddressMax)
  (hmax : limits.perAddressMax < usizeBound) (haccounts : c.Accounts)

include hle haccounts

theorem balanced_acquireTotal (h : c.step limits .acquireTotal = some (limits', c')) :
    Balanced limits limits' c c' := by
  obtain ⟨hstage, h⟩ := ite_none_right_eq_some.mp h
  rw [Accounts, hstage] at haccounts
  obtain ⟨hheld, haccounts⟩ := haccounts
  have hunfinished : c.unfinished = false := by simp [unfinished, hstage]
  by_cases hfree : 0 < limits.total
  · rw [if_pos hfree] at h
    cases h
    refine ⟨counts_of_same rfl rfl (by rw [hstage]; rfl), hle, rfl, ?_, ?_, ⟨rfl, haccounts⟩⟩
    · rw [one_of_false hunfinished, one_of_false rfl]
    · rw [one_of_false hheld, one_of_true rfl, Nat.sub_add_cancel hfree, Nat.add_zero]
  · rw [if_neg hfree] at h
    cases h
    obtain ⟨htaken, hback, hcounts, hcountsBack⟩ := haccounts
    refine ⟨counts_of_same rfl rfl (by rw [hstage]; rfl), hle, rfl, ?_, rfl,
      ⟨hheld, htaken, hback, hcounts.trans hcountsBack.symm⟩⟩
    rw [one_of_false hunfinished, one_of_false rfl]

include hmax in
theorem balanced_count (h : c.step limits .count = some (limits', c')) :
    Balanced limits limits' c c' := by
  obtain ⟨hstage, h⟩ := ite_none_right_eq_some.mp h
  rw [Accounts, hstage] at haccounts
  obtain ⟨hheld, htaken, hback, hcounts, hcountsBack⟩ := haccounts
  have hunfinished : c.unfinished = false := by simp [unfinished, hstage]
  have hnot : c.stage.counted = false := by rw [hstage]; rfl
  -- The entry made by `or_default` changes no count.
  have hentry : ∀ a, (limits.setCount c.address (some (limits.count c.address))).count a
      = limits.count a := by
    intro a
    by_cases ha : a = c.address
    · rw [ha, count_setCount_self, getD_some]
    · exact count_setCount_of_ne _ ha
  simp only [hentry, setCount_perAddressMax] at h
  by_cases hfull : limits.perAddressMax ≤ limits.count c.address
  · rw [if_pos hfull] at h
    cases h
    refine ⟨fun a => ?_, fun a => (hentry a).symm ▸ hle a, rfl, ?_, rfl, ?_⟩
    · rw [hentry, one_countsFor_of_not_counted hnot, one_countsFor_of_not_counted rfl]
    · rw [one_of_false hunfinished, one_of_false rfl]
      rfl
    · exact ⟨hheld, htaken, hback, hcounts.trans hcountsBack.symm⟩
  · rw [if_neg hfull] at h
    cases h
    have hmore : (limits.count c.address + 1) % usizeBound = limits.count c.address + 1 :=
      Nat.mod_eq_of_lt (by omega)
    have hother : ∀ a, a ≠ c.address →
        ((limits.setCount c.address (some (limits.count c.address))).setCount c.address
          (some ((limits.count c.address + 1) % usizeBound))).count a = limits.count a :=
      fun a ha => by rw [count_setCount_of_ne _ ha, count_setCount_of_ne _ ha]
    refine ⟨counts_of_self rfl ?_ hother, fun a => ?_, rfl, ?_, rfl, ?_⟩
    · rw [count_setCount_self, getD_some, hmore, one_countsFor_of_not_counted hnot,
        one_countsFor_self (c := { c with stage := .acquiring, countsTaken := _ }) rfl]
    · by_cases ha : a = c.address
      · rw [ha, count_setCount_self, getD_some, hmore]
        exact Nat.lt_of_not_le hfull
      · exact (hother a ha).symm ▸ hle a
    · rw [one_of_false hunfinished, one_of_false rfl]
      rfl
    · exact ⟨hheld, htaken, hback, by rw [hcounts], hcountsBack⟩

theorem balanced_acquirePending (h : c.step limits .acquirePending = some (limits', c')) :
    Balanced limits limits' c c' := by
  obtain ⟨hstage, h⟩ := ite_none_right_eq_some.mp h
  rw [Accounts, hstage] at haccounts
  obtain ⟨hheld, htaken, hback, hcounts, hcountsBack⟩ := haccounts
  have hunfinished : c.unfinished = false := by simp [unfinished, hstage]
  by_cases hfree : 0 < limits.pending
  · rw [if_pos hfree] at h
    cases h
    refine ⟨counts_of_same rfl rfl (by rw [hstage]; rfl), hle, rfl, ?_, rfl, ?_⟩
    · rw [one_of_false hunfinished, one_of_true rfl, Nat.sub_add_cancel hfree, Nat.add_zero]
    · exact ⟨by rw [htaken], hback, hcounts, hcountsBack⟩
  · rw [if_neg hfree] at h
    cases h
    refine ⟨counts_of_same rfl rfl (by rw [hstage]; rfl), hle, rfl, ?_, rfl, ?_⟩
    · rw [one_of_false hunfinished, one_of_false rfl]
    · exact ⟨hheld, htaken, hback, hcounts, hcountsBack⟩

include hmax in
theorem balanced_rollBack (hcount : 1 ≤ limits.count c.address)
    (h : c.step limits .rollBack = some (limits', c')) : Balanced limits limits' c c' := by
  obtain ⟨hstage, h⟩ := ite_none_right_eq_some.mp h
  cases h
  rw [Accounts, hstage] at haccounts
  obtain ⟨hheld, htaken, hback, hcounts, hcountsBack⟩ := haccounts
  have hunfinished : c.unfinished = false := by simp [unfinished, hstage]
  have hcounted : c.stage.counted := by rw [hstage]; rfl
  have hbound := Nat.lt_of_le_of_lt (hle c.address) hmax
  refine ⟨counts_release hcounted rfl rfl hcount hbound, fun a => ?_, release_perAddressMax, ?_,
    congrArg (· + one held c) release_total, ?_⟩
  · rw [release_perAddressMax]
    exact Nat.le_trans (count_release_le hcount hbound a) (hle a)
  · rw [release_pending, one_of_false hunfinished, one_of_false rfl]
  · exact ⟨hheld, htaken, hback, by rw [hcounts, hcountsBack]⟩

theorem balanced_refuse (h : c.step limits .refuse = some (limits', c')) :
    Balanced limits limits' c c' := by
  obtain ⟨hstage, h⟩ := ite_none_right_eq_some.mp h
  cases h
  rw [Accounts, hstage] at haccounts
  obtain ⟨hheld, haccounts⟩ := haccounts
  have hunfinished : c.unfinished = false := by simp [unfinished, hstage]
  refine ⟨counts_of_same rfl rfl (by rw [hstage]; rfl), hle, rfl, ?_, ?_, ⟨rfl, haccounts⟩⟩
  · rw [one_of_false hunfinished, one_of_false rfl]
  · rw [one_of_true hheld, one_of_false rfl, Nat.add_zero]

theorem balanced_finishGuard {dropping : Bool}
    (h : finishGuard limits c dropping = some (limits', c')) : Balanced limits limits' c c' := by
  unfold finishGuard at h
  split at h
  · rename_i hstage
    cases h
    rw [Accounts, hstage] at haccounts
    obtain ⟨htaken, hback, hcounts, hcountsBack⟩ := haccounts
    have hunfinished : c.unfinished := by simp [unfinished, hstage]
    refine ⟨counts_of_same rfl rfl (by rw [hstage]; rfl), hle, rfl, ?_, rfl, ?_⟩
    · rw [one_of_true hunfinished, one_of_false rfl, Nat.add_zero]
    · exact ⟨htaken, by rw [hback], hcounts, hcountsBack⟩
  · rename_i hstage
    cases h
    rw [Accounts, hstage] at haccounts
    have hunfinished : c.unfinished = false := by simp [unfinished, hstage]
    cases dropping with
    | true | false =>
      refine ⟨counts_of_same rfl rfl (by rw [hstage]; rfl), hle, rfl, ?_, rfl, haccounts⟩
      rw [one_of_false hunfinished, one_of_false rfl]
  · exact absurd h nofun

include hmax in
theorem balanced_giveBack (hcount : 1 ≤ limits.count c.address)
    (h : c.step limits .giveBack = some (limits', c')) : Balanced limits limits' c c' := by
  simp only [step] at h
  split at h
  · rename_i dropping hstage
    cases h
    rw [Accounts, hstage] at haccounts
    obtain ⟨htaken, hback, hcounts, hcountsBack⟩ := haccounts
    have hunfinished : c.unfinished = false := by simp [unfinished, hstage]
    have hcounted : c.stage.counted := by rw [hstage]; rfl
    have hbound := Nat.lt_of_le_of_lt (hle c.address) hmax
    refine ⟨counts_release hcounted rfl ?_ hcount hbound, fun a => ?_, release_perAddressMax, ?_,
      congrArg (· + one held c) release_total, ?_⟩
    · cases dropping <;> rfl
    · rw [release_perAddressMax]
      exact Nat.le_trans (count_release_le hcount hbound a) (hle a)
    · rw [release_pending, one_of_false hunfinished, one_of_false]
      cases dropping <;> rfl
    · have hafter : c.permitsTaken = 1 ∧ c.permitsBack = 1 ∧ c.countsTaken = 1
          ∧ c.countsBack + 1 = 1 := ⟨htaken, hback, hcounts, by rw [hcountsBack]⟩
      cases dropping <;> exact hafter
  · exact absurd h nofun

theorem balanced_dropTotal (h : c.step limits .dropTotal = some (limits', c')) :
    Balanced limits limits' c c' := by
  obtain ⟨hheld, h⟩ := ite_none_right_eq_some.mp h
  cases h
  obtain ⟨hheld, hadmitted⟩ := Bool.and_eq_true_iff.mp hheld
  refine ⟨counts_of_same rfl rfl rfl, hle, rfl, rfl, ?_, ?_⟩
  · rw [one_of_true hheld, one_of_false rfl, Nat.add_zero]
  · revert haccounts hadmitted
    simp only [Accounts]
    cases c.stage with
    | login permit => cases permit <;> exact fun haccounts _ => haccounts
    | finishing | dropped => exact fun haccounts _ => haccounts
    | asking | counting | acquiring | rollingBack | refusing | refused =>
      intro _ hadmitted
      cases hadmitted

end Steps

theorem step_balanced {op : LimitOp} (hle : ∀ a, limits.count a ≤ limits.perAddressMax)
    (hmax : limits.perAddressMax < usizeBound) (haccounts : c.Accounts)
    (hcount : one (countsFor c.address) c ≤ limits.count c.address)
    (h : c.step limits op = some (limits', c')) : Balanced limits limits' c c' := by
  have hcounted : c.stage.counted → 1 ≤ limits.count c.address := by
    intro hcounted
    exact Nat.le_trans (Nat.le_of_eq (one_countsFor_self hcounted).symm) hcount
  cases op with
  | acquireTotal => exact balanced_acquireTotal hle haccounts h
  | count => exact balanced_count hle hmax haccounts h
  | acquirePending => exact balanced_acquirePending hle haccounts h
  | rollBack =>
    have hstage : c.stage = .rollingBack := (ite_none_right_eq_some.mp h).1
    exact balanced_rollBack hle hmax haccounts (hcounted (by rw [hstage]; rfl)) h
  | refuse => exact balanced_refuse hle haccounts h
  | finish | drop => exact balanced_finishGuard hle haccounts h
  | giveBack =>
    refine balanced_giveBack hle hmax haccounts (hcounted ?_) h
    simp only [step] at h
    split at h
    · rename_i hstage
      rw [hstage]
      rfl
    · exact absurd h nofun
  | dropTotal => exact balanced_dropTotal hle haccounts h

end LimitedClient

/-! ## Every run -/

namespace ConnectionLimits

variable {total pending perAddressMax : Nat} {s s' : State Address}

/-- What the semaphores and the counts say is what the clients hold. -/
structure Exact (total pending perAddressMax : Nat) (s : State Address) : Prop where
  max : s.limits.perAddressMax = perAddressMax
  bound : ∀ a, s.limits.count a ≤ s.limits.perAddressMax
  counts : ∀ a, s.limits.count a = s.clients.countP (LimitedClient.countsFor a)
  pending : s.limits.pending + s.clients.countP LimitedClient.unfinished = pending
  total : s.limits.total + s.clients.countP LimitedClient.held = total
  accounts : ∀ (i : Nat) (c : LimitedClient Address), s.clients[i]? = some c → c.Accounts

theorem Exact.init :
    Exact total pending perAddressMax
      (machine total pending perAddressMax : Machine (State Address) _).init where
  max := rfl
  bound _ := Nat.zero_le _
  counts _ := rfl
  pending := rfl
  total := rfl
  accounts _ _ h := absurd h nofun

theorem Exact.step {l : Label Address} (hmax : perAddressMax < usizeBound)
    (hs : Exact total pending perAddressMax s) (h : s.step l = some s') :
    Exact total pending perAddressMax s' := by
  cases l with
  | admits =>
    cases h
    refine ⟨hs.max, hs.bound, fun a => ?_, ?_, ?_, ?_⟩
    · rw [countP_append_singleton, one_of_false rfl, Nat.add_zero]
      exact hs.counts a
    · rw [countP_append_singleton, one_of_false rfl, Nat.add_zero]
      exact hs.pending
    · rw [countP_append_singleton, one_of_false rfl, Nat.add_zero]
      exact hs.total
    · intro i c hi
      rcases getElem?_append_singleton_cases hi with ⟨-, rfl⟩ | hi
      · exact ⟨rfl, rfl, rfl, rfl, rfl⟩
      · exact hs.accounts i c hi
  | step =>
    obtain ⟨c, hc, h⟩ := bind_eq_some_iff.mp h
    obtain ⟨⟨_, c'⟩, hstep, h⟩ := bind_eq_some_iff.mp h
    cases h
    have hcount : one (LimitedClient.countsFor c.address) c ≤ s.limits.count c.address :=
      hs.counts c.address ▸ one_le_countP hc
    have hb := LimitedClient.step_balanced hs.bound (hs.max ▸ hmax) (hs.accounts _ _ hc) hcount
      hstep
    refine ⟨hb.max.trans hs.max, hb.bound, fun a => ?_, ?_, ?_, ?_⟩
    · have hset := countP_set_add (p := LimitedClient.countsFor a) (b := c') hc
      have hbefore := hs.counts a
      have hmoved := hb.counts a
      dsimp only
      omega
    · have hset := countP_set_add (p := LimitedClient.unfinished) (b := c') hc
      have hbefore := hs.pending
      have hmoved := hb.pending
      dsimp only
      omega
    · have hset := countP_set_add (p := LimitedClient.held) (b := c') hc
      have hbefore := hs.total
      have hmoved := hb.total
      dsimp only
      omega
    · intro i d hi
      rcases getElem?_set_cases hi with ⟨-, rfl⟩ | ⟨-, hi⟩
      · exact hb.accounts
      · exact hs.accounts i d hi

theorem exact_of_reachable (hmax : perAddressMax < usizeBound)
    (hs : (machine total pending perAddressMax).Reachable s) :
    Exact total pending perAddressMax s :=
  hs.invariant .init fun _ _ _ h _ hstep => h.step hmax hstep

/-- While no call is in progress a client is counted when its guard is not
finished. -/
theorem State.Quiet.countP_countsFor (hquiet : s.Quiet) (a : Address) :
    s.clients.countP (LimitedClient.countsFor a)
      = s.clients.countP (LimitedClient.unfinishedFor a) := by
  refine List.countP_congr fun c hc => ?_
  have hidle := hquiet c hc
  have hstage : c.stage.counted = c.unfinished := by
    revert hidle
    simp only [LimitedClient.unfinished]
    cases c.stage with
    | login permit => cases permit <;> exact fun _ => rfl
    | refused | dropped => exact fun _ => rfl
    | asking | counting | acquiring | rollingBack | refusing | finishing =>
      intro hidle
      cases hidle
  rw [LimitedClient.countsFor, LimitedClient.unfinishedFor, hstage]

/-- Permits of a semaphore of the given size that are not free. -/
def State.totalInUse (s : State Address) (size : Nat) : Nat := size - s.limits.total

def State.pendingInUse (s : State Address) (size : Nat) : Nat := size - s.limits.pending

/-- In every state no count is above its cap and none is about to be taken
below zero. While no call is in progress the counts are the unfinished guards
and the permits in use are those that clients hold. A refused client has
nothing, and a guard gives back what it took once. -/
theorem limits_exact (hmax : perAddressMax < usizeBound)
    (hs : (machine total pending perAddressMax).Reachable s) :
    (∀ a, s.limits.count a ≤ perAddressMax)
    ∧ (∀ c ∈ s.clients, c.stage.givesBack = true → 1 ≤ s.limits.count c.address) ∧ (s.Quiet →
      (∀ a, s.limits.count a = s.clients.countP (LimitedClient.unfinishedFor a))
      ∧ s.pendingInUse pending = s.clients.countP LimitedClient.unfinished
      ∧ s.totalInUse total = s.clients.countP LimitedClient.held)
    ∧ (∀ c ∈ s.clients, c.stage = .refused →
      c.held = false ∧ c.permitsTaken = 0 ∧ c.countsTaken = c.countsBack)
    ∧ (∀ c ∈ s.clients, c.stage = .login true →
      c.permitsTaken = 1 ∧ c.permitsBack = 0 ∧ c.countsTaken = 1 ∧ c.countsBack = 0)
    ∧ ∀ c ∈ s.clients, c.stage = .login false ∨ c.stage = .dropped →
      c.permitsTaken = 1 ∧ c.permitsBack = 1 ∧ c.countsTaken = 1 ∧ c.countsBack = 1 := by
  have hexact := exact_of_reachable hmax hs
  have haccounts : ∀ c ∈ s.clients, c.Accounts := by
    intro c hc
    obtain ⟨i, hi⟩ := List.mem_iff_getElem?.mp hc
    exact hexact.accounts i c hi
  refine ⟨fun a => hexact.max ▸ hexact.bound a, ?_, ?_, ?_, ?_, ?_⟩
  · intro c hc hback
    have hcounted : c.stage.counted = true := by
      revert hback
      cases c.stage with
      | rollingBack | finishing => exact fun _ => rfl
      | login | asking | counting | acquiring | refusing | refused | dropped =>
        exact fun hback => absurd hback nofun
    rw [hexact.counts, Nat.one_le_iff_ne_zero, ← Nat.pos_iff_ne_zero, List.countP_pos_iff]
    exact ⟨c, hc, by simp [LimitedClient.countsFor, hcounted]⟩
  · intro hquiet
    refine ⟨fun a => (hexact.counts a).trans (hquiet.countP_countsFor a), ?_, ?_⟩
    · have hpending := hexact.pending
      rw [State.pendingInUse]
      omega
    · have htotal := hexact.total
      rw [State.totalInUse]
      omega
  · intro c hc hstage
    have h := haccounts c hc
    rw [LimitedClient.Accounts, hstage] at h
    exact ⟨h.1, h.2.1, h.2.2.2⟩
  · intro c hc hstage
    have h := haccounts c hc
    rwa [LimitedClient.Accounts, hstage] at h
  · intro c hc hstage
    have h := haccounts c hc
    rcases hstage with hstage | hstage
    · rwa [LimitedClient.Accounts, hstage] at h
    · rwa [LimitedClient.Accounts, hstage] at h

/-- Two clients of one address and one of another, with a single login slot:
the second is refused after it was counted, the first logs in and calls
`finish` twice, and the third takes the slot. -/
def threeClients : List (Label Nat) :=
  [.admits 1, .admits 1, .step 0 .acquireTotal, .step 1 .acquireTotal, .step 0 .count,
    .step 1 .count, .step 0 .acquirePending, .step 1 .acquirePending, .step 0 .finish,
    .step 1 .rollBack, .step 0 .giveBack, .step 1 .refuse, .step 0 .finish, .admits 2,
    .step 2 .acquireTotal, .step 2 .count, .step 2 .acquirePending]

theorem limits_exact_threeClients :
    ∃ s, (machine 5 1 2).run threeClients = some s ∧ s.limits.count 1 = 0 ∧ s.limits.count 2 = 1
      ∧ s.pendingInUse 1 = 1 ∧ s.totalInUse 5 = 2 := by
  obtain ⟨s, hs, hquiet, hone, htwo, hunfinished, hheld⟩ :=
    (machine 5 1 2).exists_run threeClients (fun s =>
      (∀ c ∈ s.clients, c.stage.inProgress = false)
      ∧ s.clients.countP (LimitedClient.unfinishedFor 1) = 0
      ∧ s.clients.countP (LimitedClient.unfinishedFor 2) = 1
      ∧ s.clients.countP LimitedClient.unfinished = 1
      ∧ s.clients.countP LimitedClient.held = 2) (by decide +kernel)
  obtain ⟨hcounts, hpending, htotal⟩ :=
    (limits_exact (by decide) (Machine.reachable_of_run hs)).2.2.1 hquiet
  exact ⟨s, hs, (hcounts 1).trans hone, (hcounts 2).trans htwo, hpending.trans hunfinished,
    htotal.trans hheld⟩

end ConnectionLimits

end PgCluster
