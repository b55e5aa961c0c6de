import Mathlib.Data.Set.Basic
import PgCluster.Machine

/-!
# Transactions under READ COMMITTED

Concurrent transactions on one committed state, as Postgres runs them at
its default isolation level. A transaction is a program tree `Txn`: each
statement sees the state committed when it *starts*, writes stay private
until the commit, and row locks are kept until the transaction ends.

A locking statement takes two steps. It first takes its snapshot, then
waits; when the lock is granted the locked row is read again but nothing
else of the statement is, so `lock` hands its continuation both states and
leaves it to the program to say which part came from which. `claim` is the
`SKIP LOCKED` form: candidates come from the snapshot, a row another
session has locked is passed over, and the row that is locked is checked
again.

The second half is a rely-guarantee rule for such programs. A `Contract`
fixes an invariant of the committed state and what a commit may do given
the locks its session holds. `Verified` checks one program against it:
between statements a session may only carry knowledge that is `Stable`
under what *other* sessions, which hold none of its locks, may commit.
`Contract.sound` lifts it to every interleaving, crashes included.
-/

namespace PgCluster

/-- A transaction, by what it does next, over committed states `σ`, rows
`κ` that can be locked and notes `ν` on what it is doing. -/
inductive Txn (σ κ ν : Type) where
  | commit (write : σ → σ)
  | rollback
  /-- A plain statement. -/
  | read (next : σ → Txn σ κ ν)
  /-- Wait for the row; gets the statement's snapshot and the state in
  which the lock was granted. -/
  | lock (k : κ) (next : σ → σ → Txn σ κ ν)
  /-- Lock a candidate row, chosen in the snapshot and checked again when
  locked; `none` if all are taken or there is none. -/
  | claim (cand recheck : σ → κ → Bool) (next : σ → Option κ → Txn σ κ ν)
  /-- No statement: says what the session does from here on. -/
  | note (n : ν) (next : Txn σ κ ν)

/-- A transaction underway: the request it serves, the snapshot of a
locking statement that waits, and what is left to do. -/
structure Session (σ κ ν α : Type) where
  request : α
  note : Option ν
  snapshot : Option σ
  todo : Txn σ κ ν

/-- The committed state, the holder of each row lock, and the sessions. -/
structure Store (σ κ ν α : Type) where
  tables : σ
  locks : κ → Option Nat
  sessions : Nat → Option (Session σ κ ν α)

variable {σ κ ν α : Type} {st : Store σ κ ν α} {i j : Nat}

namespace Store

/-- Nothing running, nothing locked. -/
def idle (s : σ) : Store σ κ ν α := ⟨s, fun _ => none, fun _ => none⟩

def setSession (st : Store σ κ ν α) (i : Nat) (t : Session σ κ ν α) : Store σ κ ν α :=
  { st with sessions := fun j => if j = i then some t else st.sessions j }

/-- The session is over and its locks are free. -/
def finish (st : Store σ κ ν α) (i : Nat) : Store σ κ ν α :=
  { st with
    locks := fun k => if st.locks k = some i then none else st.locks k
    sessions := fun j => if j = i then none else st.sessions j }

def grant [DecidableEq κ] (st : Store σ κ ν α) (i : Nat) (k : κ) : Store σ κ ν α :=
  { st with locks := fun k' => if k' = k then some i else st.locks k' }

/-- Nobody else holds the row. -/
def free (st : Store σ κ ν α) (i : Nat) (k : κ) : Bool :=
  st.locks k = none || st.locks k = some i

def holds (st : Store σ κ ν α) (i : Nat) : Set κ := {k | st.locks k = some i}

end Store

/-- A session starts, goes on by one step (a `claim` locks the row the
label names), or dies with its connection. -/
inductive TxnLabel (κ α : Type) where
  | start (i : Nat) (a : α)
  | advance (i : Nat) (pick : Option κ)
  | crash (i : Nat)

section Steps

variable [DecidableEq κ]

def Store.advance (st : Store σ κ ν α) (i : Nat) (pick : Option κ) :
    Option (Store σ κ ν α) :=
  match st.sessions i with
  | none => none
  | some t =>
    match t.todo, t.snapshot with
    | .commit write, _ => some { st.finish i with tables := write st.tables }
    | .rollback, _ => some (st.finish i)
    | .read next, _ =>
      some (st.setSession i { t with snapshot := none, todo := next st.tables })
    | .note n next, _ =>
      some (st.setSession i { t with note := some n, snapshot := none, todo := next })
    | .lock _ _, none | .claim _ _ _, none =>
      some (st.setSession i { t with snapshot := some st.tables })
    | .lock k next, some s₀ =>
      if st.free i k then
        some ((st.grant i k).setSession i { t with snapshot := none, todo := next s₀ st.tables })
      else none
    | .claim cand recheck next, some s₀ =>
      match pick with
      | none => some (st.setSession i { t with snapshot := none, todo := next s₀ none })
      | some k =>
        if cand s₀ k && recheck st.tables k && st.free i k then
          some ((st.grant i k).setSession i { t with snapshot := none, todo := next s₀ (some k) })
        else none

/-- The store as a machine: `program` is what each request runs. -/
def storeMachine (init : σ) (program : α → Txn σ κ ν) :
    Machine (Store σ κ ν α) (TxnLabel κ α) where
  init := .idle init
  step st l := match l with
    | .start i a =>
      match st.sessions i with
      | some _ => none
      | none => some (st.setSession i ⟨a, none, none, program a⟩)
    | .advance i pick => st.advance i pick
    | .crash i =>
      match st.sessions i with
      | none => none
      | some _ => some (st.finish i)

end Steps

/-! ## What a step leaves alone -/

namespace Store

variable {k : κ} {t : Session σ κ ν α}

@[simp] theorem setSession_holds : (st.setSession i t).holds j = st.holds j := rfl

theorem setSession_sessions :
    (st.setSession i t).sessions j = if j = i then some t else st.sessions j := rfl

theorem finish_sessions : (st.finish i).sessions j = if j = i then none else st.sessions j := rfl

theorem finish_holds (hj : j ≠ i) : (st.finish i).holds j = st.holds j := by
  ext k
  show (if st.locks k = some i then none else st.locks k) = some j ↔ st.locks k = some j
  split
  · next h => simp [h, Ne.symm hj]
  · rfl

variable [DecidableEq κ]

theorem grant_holds_self : (st.grant i k).holds i = insert k (st.holds i) := by
  ext k'
  show (if k' = k then some i else st.locks k') = some i ↔ k' = k ∨ st.locks k' = some i
  split
  · next h => simp [h]
  · next h => simp [h]

theorem grant_holds_other (hfree : st.free i k) (hj : j ≠ i) :
    (st.grant i k).holds j = st.holds j := by
  ext k'
  show (if k' = k then some i else st.locks k') = some j ↔ st.locks k' = some j
  split
  · next h =>
    subst h
    rw [free, Bool.or_eq_true, decide_eq_true_eq, decide_eq_true_eq] at hfree
    rcases hfree with h | h <;> simp [h, Ne.symm hj]
  · rfl

end Store

/-! ## Contracts -/

/-- What the sessions owe each other. `Inv` holds of every committed state.
`Guar` says what a session may commit, by its request, its note and the rows
it has locked. `row` is the row a session with a note has locked. `Cond` and
`Fresh` restrict the runs considered: the first is met by the state a
request commits on, the second by the snapshot and the present state when a
lock is granted. -/
structure Contract (σ κ ν α : Type) where
  Inv : σ → Prop
  Guar : α → Option ν → Set κ → σ → σ → Prop
  row : ν → κ
  Cond : α → σ → Prop
  Fresh : α → κ → σ → σ → Prop

namespace Contract

variable (C : Contract σ κ ν α) {H H' : Set κ} {t' : Session σ κ ν α}
  {K L : σ → Prop} {s s' : σ} {pick : Option κ}

/-- Sessions that hold none of the rows `H` cannot make `K` false. -/
def Stable (H : Set κ) (K : σ → Prop) : Prop :=
  ∀ a n H' s s', (∀ k ∈ H, k ∉ H') → C.Inv s → C.Inv s' → C.Guar a n H' s s' → K s → K s'

/-- The program of request `a` keeps the contract from here on, for a
session that holds the rows `H` and knows `K`. -/
def Verified (a : α) : Txn σ κ ν → Option ν → Set κ → (σ → Prop) → Prop
  | .commit write, n, H, K =>
    ∀ s, C.Inv s → K s → C.Cond a s → C.Inv (write s) ∧ C.Guar a n H s (write s)
  | .rollback, _, _, _ => True
  | .read next, n, H, K =>
    ∀ s, C.Inv s → K s → ∃ K', C.Stable H K' ∧ K' s ∧ Verified a (next s) n H K'
  | .note m next, _, H, K => C.row m ∈ H ∧ Verified a next (some m) H K
  | .lock k next, n, H, K =>
    ∀ s₀, C.Inv s₀ → K s₀ → ∃ K₀, C.Stable H K₀ ∧ K₀ s₀ ∧ ∀ s, C.Inv s → K₀ s → C.Fresh a k s₀ s →
        ∃ K', C.Stable (insert k H) K' ∧ K' s ∧ Verified a (next s₀ s) n (insert k H) K'
  | .claim cand recheck next, n, H, K =>
    ∀ s₀, C.Inv s₀ → K s₀ → ∃ K₀, C.Stable H K₀ ∧ K₀ s₀ ∧ (∀ s, C.Inv s → K₀ s →
        ∃ K', C.Stable H K' ∧ K' s ∧ Verified a (next s₀ none) n H K') ∧
      ∀ s k, C.Inv s → K₀ s → cand s₀ k = true → recheck s k = true →
        ∃ K', C.Stable (insert k H) K' ∧ K' s ∧ Verified a (next s₀ (some k)) n (insert k H) K'

/-- The second half of a locking statement, with its snapshot taken. -/
def Waiting (a : α) (s₀ : σ) (n : Option ν) (H : Set κ) (K₀ : σ → Prop) : Txn σ κ ν → Prop
  | .lock k next =>
    ∀ s, C.Inv s → K₀ s → C.Fresh a k s₀ s →
      ∃ K', C.Stable (insert k H) K' ∧ K' s ∧ C.Verified a (next s₀ s) n (insert k H) K'
  | .claim cand recheck next =>
    (∀ s, C.Inv s → K₀ s → ∃ K', C.Stable H K' ∧ K' s ∧ C.Verified a (next s₀ none) n H K') ∧
    ∀ s k, C.Inv s → K₀ s → cand s₀ k = true → recheck s k = true →
      ∃ K', C.Stable (insert k H) K' ∧ K' s ∧ C.Verified a (next s₀ (some k)) n (insert k H) K'
  | t => C.Verified a t n H K₀

/-- What a session needs of the present state to keep the contract. -/
def Continues (a : α) (t : Txn σ κ ν) (n : Option ν) (snapshot : Option σ) (H : Set κ)
    (K : σ → Prop) : Prop :=
  match snapshot with
  | none => C.Verified a t n H K
  | some s₀ => C.Waiting a s₀ n H K t

/-- Knowledge of what nobody may change is stable whatever is locked. -/
theorem stable_true (H : Set κ) : C.Stable H fun _ => True := fun _ _ _ _ _ _ _ _ _ _ => trivial

/-- A statement nothing need be known of. -/
theorem verified_read {a : α} {next : σ → Txn σ κ ν} {n : Option ν}
    (h : ∀ s, C.Verified a (next s) n H fun _ => True) : C.Verified a (.read next) n H K :=
  fun s _ _ => ⟨_, C.stable_true H, trivial, h s⟩

theorem verified_lock {a : α} {k : κ} {next : σ → σ → Txn σ κ ν} {n : Option ν}
    (h : ∀ s₀ s, C.Verified a (next s₀ s) n (insert k H) fun _ => True) :
    C.Verified a (.lock k next) n H K :=
  fun s₀ _ _ => ⟨_, C.stable_true H, trivial, fun s _ _ _ => ⟨_, C.stable_true _, trivial, h s₀ s⟩⟩

theorem Stable.and {C : Contract σ κ ν α} (hK : C.Stable H K)
    (hL : C.Stable H L) : C.Stable H fun s => K s ∧ L s :=
  fun a n H' s s' hd hI hI' hG h =>
    ⟨hK a n H' s s' hd hI hI' hG h.1, hL a n H' s s' hd hI hI' hG h.2⟩

theorem Stable.mono {C : Contract σ κ ν α} (hK : C.Stable H K)
    (h : H ⊆ H') : C.Stable H' K :=
  fun a n H'' s s' hd => hK a n H'' s s' fun k hk => hd k (h hk)

/-- A commit of a session that holds none of the rows `H`. -/
def Other (H : Set κ) (s s' : σ) : Prop :=
  ∃ a n H', (∀ k ∈ H, k ∉ H') ∧ C.Inv s ∧ C.Inv s' ∧ C.Guar a n H' s s'

/-- What others can have made of `s`: all that a session that holds `H` and
has read `s` can know, and so all it needs to. -/
def Later (H : Set κ) : σ → σ → Prop := Relation.ReflTransGen (C.Other H)

theorem stable_later (H : Set κ) (s : σ) : C.Stable H (C.Later H s) :=
  fun a n H' _ _ hd hI hI' hG h => h.tail ⟨a, n, H', hd, hI, hI', hG⟩

variable {C} in
theorem Later.refl : C.Later H s s := Relation.ReflTransGen.refl

variable {C} in
theorem Later.mono (h : C.Later H' s s') (hsub : H ⊆ H') : C.Later H s s' := by
  induction h with
  | refl => exact .refl
  | tail _ hother ih =>
    obtain ⟨a, n, H'', hd, hrest⟩ := hother
    exact ih.tail ⟨a, n, H'', fun k hk => hd k (hsub hk), hrest⟩

variable {C} in
theorem Stable.later (hK : C.Stable H K) (h : C.Later H s s') (hs : K s) : K s' := by
  induction h with
  | refl => exact hs
  | tail _ hother ih =>
    obtain ⟨a, n, H', hd, hI, hI', hG⟩ := hother
    exact hK a n H' _ _ hd hI hI' hG ih

/-- The runs the contract speaks of. -/
def Permits (st : Store σ κ ν α) : TxnLabel κ α → Prop
  | .advance i _ => ∀ t, st.sessions i = some t → match t.todo, t.snapshot with
      | .commit _, _ => C.Cond t.request st.tables
      | .lock k _, some s₀ => C.Fresh t.request k s₀ st.tables
      | _, _ => True
  | _ => True

variable {C} in
/-- A session that goes on meets the condition where it commits, and finds fresh
what it has read where it locks. -/
theorem permits_iff {st : Store σ κ ν α} :
    C.Permits st (.advance i pick) ↔ ∀ t, st.sessions i = some t →
      (∀ write, t.todo = .commit write → C.Cond t.request st.tables)
      ∧ ∀ k next s₀, t.todo = .lock k next → t.snapshot = some s₀ →
        C.Fresh t.request k s₀ st.tables := by
  refine forall₂_congr fun t _ => ?_
  obtain ⟨a, n, snapshot, todo⟩ := t
  cases todo with
  | lock => cases snapshot <;> simp
  | commit | rollback | read | claim | note => simp

variable {C} in
/-- Where every read counts as fresh, only commits have a condition. -/
theorem permits_iff_cond (hfresh : ∀ a k s₀ s, C.Fresh a k s₀ s) {st : Store σ κ ν α} :
    C.Permits st (.advance i pick) ↔ ∀ t, st.sessions i = some t →
      ∀ write, t.todo = .commit write → C.Cond t.request st.tables :=
  permits_iff.trans (forall₂_congr fun _ _ => and_iff_left fun _ _ _ _ _ => hfresh _ _ _ _)

variable {C} in
theorem permits_any (hcond : ∀ a s, C.Cond a s) (hfresh : ∀ a k s₀ s, C.Fresh a k s₀ s)
    (st : Store σ κ ν α) (l : TxnLabel κ α) : C.Permits st l := by
  cases l with
  | start | crash => trivial
  | advance =>
    exact permits_iff.mpr fun t _ => ⟨fun _ _ => hcond _ _, fun _ _ _ _ _ => hfresh _ _ _ _⟩

/-- What is true of a store between any two steps. -/
structure SessionOk (st : Store σ κ ν α) (i : Nat) (t : Session σ κ ν α) : Prop where
  noted : ∀ n, t.note = some n → C.row n ∈ st.holds i
  goesOn : ∃ K, C.Stable (st.holds i) K ∧ K st.tables
    ∧ C.Continues t.request t.todo t.note t.snapshot (st.holds i) K

structure Good (st : Store σ κ ν α) : Prop where
  inv : C.Inv st.tables
  live : ∀ k i, st.locks k = some i → st.sessions i ≠ none
  sessions : ∀ i t, st.sessions i = some t → C.SessionOk st i t

theorem Good.of_session {C : Contract σ κ ν α} {st st' : Store σ κ ν α}
    (h : C.Good st) (htables : st'.tables = st.tables)
    (hsessions : ∀ j, st'.sessions j = if j = i then some t' else st.sessions j)
    (hholds : ∀ j, j ≠ i → st'.holds j = st.holds j) (hok : C.SessionOk st' i t') : C.Good st' := by
  refine ⟨htables ▸ h.inv, ?_, ?_⟩
  · intro k j hk
    rw [hsessions]
    split
    · exact Option.some_ne_none _
    · next hj =>
      have hk' : k ∈ st.holds j := hholds j hj ▸ hk
      exact h.live k j hk'
  · intro j t hj
    rw [hsessions] at hj
    split at hj
    · next hij =>
      subst hij
      cases hj
      exact hok
    · next hij =>
      have hj' := h.sessions j t hj
      refine ⟨?_, ?_⟩
      · rw [hholds j hij]
        exact hj'.noted
      · rw [hholds j hij, htables]
        exact hj'.goesOn

theorem Good.of_finish {C : Contract σ κ ν α} {st : Store σ κ ν α}
    (h : C.Good st) (hinv : C.Inv s')
    (hs : s' = st.tables ∨ ∃ a n, C.Guar a n (st.holds i) st.tables s') :
    C.Good { st.finish i with tables := s' } := by
  have hfinish : ∀ j, j ≠ i → Store.holds { st.finish i with tables := s' } j = st.holds j :=
    fun j hj => Store.finish_holds hj
  refine ⟨hinv, ?_, ?_⟩
  · intro k j hk
    have hk : (if st.locks k = some i then none else st.locks k) = some j := hk
    show (if j = i then none else st.sessions j) ≠ none
    split at hk
    · cases hk
    · next hne =>
      have hj : j ≠ i := fun hji => hne (hji ▸ hk)
      rw [if_neg hj]
      exact h.live k j hk
  · intro j t hj
    have hj : (if j = i then none else st.sessions j) = some t := hj
    split at hj
    · cases hj
    · next hij =>
      obtain ⟨K, hstable, hK, hgoes⟩ := (h.sessions j t hj).goesOn
      refine ⟨?_, K, ?_, ?_, ?_⟩
      · rw [hfinish j hij]
        exact (h.sessions j t hj).noted
      · rw [hfinish j hij]
        exact hstable
      · show K s'
        rcases hs with rfl | ⟨a, n, hG⟩
        · exact hK
        · -- the two sessions hold different rows
          refine hstable a n (st.holds i) _ _ ?_ h.inv hinv hG hK
          intro k hkj hki
          exact hij (Option.some.inj (hkj.symm.trans hki))
      · rw [hfinish j hij]
        exact hgoes

variable [DecidableEq κ] {C} {st' : Store σ κ ν α}

/-- What a step may do to the committed state: nothing, or a commit within
the guarantee of its session. -/
def Commits (C : Contract σ κ ν α) (st st' : Store σ κ ν α) : Prop :=
  st'.tables = st.tables ∨ ∃ i t, st.sessions i = some t
    ∧ C.Guar t.request t.note (st.holds i) st.tables st'.tables

omit [DecidableEq κ] in
theorem Good.goOn (h : C.Good st) (hnote : ∀ n, t'.note = some n → C.row n ∈ st.holds i)
    (hgoes : ∃ K, C.Stable (st.holds i) K ∧ K st.tables
      ∧ C.Continues t'.request t'.todo t'.note t'.snapshot (st.holds i) K) :
    C.Good (st.setSession i t') :=
  h.of_session rfl (fun _ => rfl) (fun _ _ => rfl) ⟨hnote, hgoes⟩

theorem Good.goOnWith {k : κ} (h : C.Good st)
    (hfree : st.free i k) (hnote : ∀ n, t'.note = some n → C.row n ∈ st.holds i)
    (hgoes : ∃ K, C.Stable (insert k (st.holds i)) K ∧ K st.tables
      ∧ C.Continues t'.request t'.todo t'.note t'.snapshot (insert k (st.holds i)) K) :
    C.Good ((st.grant i k).setSession i t') := by
  refine h.of_session rfl (fun _ => rfl) (fun _ hj => Store.grant_holds_other hfree hj) ?_
  refine ⟨?_, ?_⟩
  · intro n hn
    show C.row n ∈ (st.grant i k).holds i
    rw [Store.grant_holds_self]
    exact .inr (hnote n hn)
  · show ∃ K, C.Stable ((st.grant i k).holds i) K ∧ K st.tables ∧ _
    rw [Store.setSession_holds, Store.grant_holds_self]
    exact hgoes

theorem Good.advance (h : C.Good st)
    (hG : C.Permits st (.advance i pick)) (hs : st.advance i pick = some st') :
    C.Good st' ∧ C.Commits st st' := by
  unfold Store.advance at hs
  cases ht : st.sessions i with
  | none => simp [ht] at hs
  | some t =>
    obtain ⟨a, note, snap, todo⟩ := t
    have hok := h.sessions i _ ht
    have hper := hG _ ht
    obtain ⟨K, hstable, hK, hgoes⟩ := hok.goesOn
    rw [ht] at hs
    cases todo with
    | commit write =>
      cases hs
      have hv : C.Verified a (.commit write) note (st.holds i) K := by cases snap <;> exact hgoes
      obtain ⟨hinv, hguar⟩ := hv _ h.inv hK hper
      exact ⟨h.of_finish hinv (.inr ⟨a, note, hguar⟩), .inr ⟨i, _, ht, hguar⟩⟩
    | rollback =>
      cases hs
      exact ⟨h.of_finish h.inv (.inl rfl), .inl rfl⟩
    | read next =>
      cases hs
      have hv : C.Verified a (.read next) note (st.holds i) K := by cases snap <;> exact hgoes
      exact ⟨h.goOn hok.noted (hv _ h.inv hK), .inl rfl⟩
    | note n next =>
      cases hs
      have hv : C.Verified a (.note n next) note (st.holds i) K := by cases snap <;> exact hgoes
      refine ⟨h.goOn ?_ ⟨K, hstable, hK, hv.2⟩, .inl rfl⟩
      rintro m ⟨⟩
      exact hv.1
    | lock =>
      cases snap with
      | none =>
        cases hs
        exact ⟨h.goOn hok.noted (hgoes _ h.inv hK), .inl rfl⟩
      | some =>
        obtain ⟨hfree, rfl⟩ := Option.ite_some_none_eq_some.mp hs
        exact ⟨h.goOnWith hfree hok.noted (hgoes _ h.inv hK hper), .inl rfl⟩
    | claim =>
      cases snap with
      | none =>
        cases hs
        exact ⟨h.goOn hok.noted (hgoes _ h.inv hK), .inl rfl⟩
      | some =>
        cases pick with
        | none =>
          cases hs
          exact ⟨h.goOn hok.noted (hgoes.1 _ h.inv hK), .inl rfl⟩
        | some k =>
          obtain ⟨hpick, rfl⟩ := Option.ite_some_none_eq_some.mp hs
          simp only [Bool.and_eq_true] at hpick
          obtain ⟨⟨hcand, hrecheck⟩, hfree⟩ := hpick
          exact ⟨h.goOnWith hfree hok.noted (hgoes.2 _ k h.inv hK hcand hrecheck), .inl rfl⟩

variable {init : σ} {program : α → Txn σ κ ν}

/-- Every step of a permitted run keeps the contract, if every program is
verified from scratch. -/
theorem Good.step (hprogram : ∀ a, C.Verified a (program a) none ∅ fun _ => True)
    {l : TxnLabel κ α} (h : C.Good st) (hG : C.Permits st l)
    (hs : (storeMachine init program).step st l = some st') : C.Good st' ∧ C.Commits st st' := by
  cases l with
  | advance => exact h.advance hG hs
  | start i a =>
    obtain ⟨hnone, hs⟩ : st.sessions i = none
        ∧ some (st.setSession i ⟨a, none, none, program a⟩) = some st' := by
      cases ht : st.sessions i with
      | none => exact ⟨rfl, by simpa [storeMachine, ht] using hs⟩
      | some => simp [storeMachine, ht] at hs
    cases hs
    have hempty : st.holds i = ∅ :=
      Set.eq_empty_iff_forall_notMem.mpr fun k hk => h.live k i hk hnone
    refine ⟨h.goOn (fun n hn => nomatch hn) ⟨fun _ => True, C.stable_true _, trivial, ?_⟩, .inl rfl⟩
    rw [hempty]
    exact hprogram a
  | crash i =>
    obtain ⟨t, ht⟩ : ∃ t, st.sessions i = some t := by
      cases ht : st.sessions i with
      | none => simp [storeMachine, ht] at hs
      | some t => exact ⟨t, rfl⟩
    have hs : some (st.finish i) = some st' := by simpa [storeMachine, ht] using hs
    cases hs
    exact ⟨h.of_finish h.inv (.inl rfl), .inl rfl⟩

theorem sound (hinit : C.Inv init) (hprogram : ∀ a, C.Verified a (program a) none ∅ fun _ => True)
    (hr : (storeMachine init program).Reaches C.Permits st) : C.Good st :=
  hr.invariant ⟨hinit, nofun, nofun⟩
    fun _ _ _ h hG hs => (h.step hprogram hG hs).1

omit [DecidableEq κ] in
theorem Good.note_unique (h : C.Good st) {t u : Session σ κ ν α} {n m : ν}
    (ht : st.sessions i = some t) (hu : st.sessions j = some u) (hn : t.note = some n)
    (hm : u.note = some m) (hrow : C.row n = C.row m) : i = j := by
  have hi : st.locks (C.row n) = some i := (h.sessions i t ht).noted n hn
  have hj : st.locks (C.row m) = some j := (h.sessions j u hu).noted m hm
  rw [hrow, hj] at hi
  exact (Option.some.inj hi).symm

end Contract

end PgCluster
