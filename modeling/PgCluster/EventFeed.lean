import Mathlib.Data.List.Sort
import PgCluster.Machine
import PgCluster.Texts

/-!
# The event feed

`list_events` of `pgcluster-admin/src/api/databases.rs` with the pages of
`api/mod.rs`, and the table it reads. Transactions draw the numbers of their
events when they insert them and show them when they commit, so that an event
may appear after others with higher numbers. A consumer that goes on from the
last event it received passes it over.

It receives every event exactly once in the runs in which no page goes past an
event that is not committed yet.
-/

namespace PgCluster

open List

/-! ## Pages -/

variable {n : Nat}

namespace Text

def parseI64 (t : Text) : Option Int :=
  match strip ['-'] t with
  | some digits =>
    if digits.head? = some '+' then none
    else (parseBelow 9223372036854775809 digits).map fun n : Nat => -(n : Int)
  | none => (parseBelow 9223372036854775808 t).map fun n : Nat => (n : Int)

theorem parseI64_decimal (h : n < 9223372036854775808) : parseI64 (decimal n) = some (n : Int) := by
  rw [parseI64, strip_decimal rfl]
  show (parseBelow _ (decimal n)).map _ = _
  rw [parseBelow_decimal h]
  rfl

end Text

def DEFAULT_LIMIT : Int := 100
def MAX_LIMIT : Int := 500

structure Page where
  limit : Option Int
  pageToken : Option Text

namespace Page

/-- Rows to fetch: one more than a page, to learn whether another follows. -/
def fetchLimit (page : Page) : Nat :=
  (max 1 (min MAX_LIMIT (page.limit.getD DEFAULT_LIMIT)) + 1).toNat

def after (page : Page) : Text := page.pageToken.getD []

end Page

/-- `List` of `api/mod.rs`. -/
structure Listing (β : Type) where
  items : List β
  nextPageToken : Option Text

/-- Build a page from `fetch_limit` rows. -/
def Listing.fromRows {β : Type} (rows : List β) (page : Page) (id : β → Text) : Listing β :=
  let size := page.fetchLimit - 1
  let more : Bool := size < rows.length
  let rows := rows.take size
  ⟨rows, (rows.getLast?.filter fun _ => more).map id⟩

/-! ## Events -/

/-- A row of the table: its number, and what it says. -/
structure EventRow (α : Type) where
  id : Nat
  body : α
deriving DecidableEq

variable {α : Type} {β : Type} {key : β → Nat} {l : List β} {x last : β}

def rowsAfter (rows : List (EventRow α)) (after : Int) : List (EventRow α) :=
  (rows.insertionSort fun a b => a.id ≤ b.id).filter fun r => after < r.id

def listEvents (rows : List (EventRow α)) (queryAfter : Option Int) (page : Page) :
    Except String (Listing (EventRow α)) :=
  let after : Option Int :=
    match page.after with
    | [] => some (queryAfter.getD 0)
    | token => Text.parseI64 token
  match after with
  | none => .error "page_token is not a cursor"
  | some after =>
    .ok (.fromRows ((rowsAfter rows after).take page.fetchLimit) page
      fun r => Text.decimal r.id)

/-! ## Transactions and a consumer -/

structure EventFeed (α : Type) where
  /-- The next value of the sequence. -/
  nextId : Nat
  /-- Events of open transactions, with the transaction. -/
  uncommitted : List (Nat × EventRow α)
  committed : List (EventRow α)
  /-- What the consumer has received, in order. -/
  received : List (EventRow α)
  /-- The token of the page it was given last. -/
  token : Option Text

inductive FeedLabel (α : Type) where
  | insert (tx : Nat) (body : α)
  | commit (tx : Nat)
  | rollback (tx : Nat)
  | fetch (limit : Option Int)

namespace EventFeed

def cursor (s : EventFeed α) : Nat := (s.received.getLast?.map (·.id)).getD 0

/-- What the consumer's next call comes to: it follows the token if it has one. -/
def call (s : EventFeed α) (limit : Option Int) : Except String (Listing (EventRow α)) :=
  listEvents s.committed (s.received.getLast?.map fun r => (r.id : Int)) ⟨limit, s.token⟩

def step (s : EventFeed α) : FeedLabel α → Option (EventFeed α)
  | .insert tx body =>
    if s.nextId < 9223372036854775808 then
      some { s with
        nextId := s.nextId + 1
        uncommitted := s.uncommitted ++ [(tx, ⟨s.nextId, body⟩)] }
    else none
  | .commit tx =>
    some { s with
      uncommitted := s.uncommitted.filter fun u => !decide (u.1 = tx)
      committed := s.committed ++ (s.uncommitted.filter fun u => u.1 = tx).map (·.2) }
  | .rollback tx =>
    some { s with uncommitted := s.uncommitted.filter fun u => !decide (u.1 = tx) }
  | .fetch limit =>
    match s.call limit with
    | .ok page =>
      some { s with received := s.received ++ page.items, token := page.nextPageToken }
    | .error _ => none

def machine : Machine (EventFeed α) (FeedLabel α) where
  init := ⟨1, [], [], [], none⟩
  step := step

def atEnd (s : EventFeed α) : Bool :=
  match s.call none with
  | .ok page => page.items.isEmpty
  | .error _ => false

/-- No page goes past an event that is not committed yet. -/
def inOrder (s : EventFeed α) : FeedLabel α → Bool
  | .fetch limit =>
    match s.call limit with
    | .ok page => page.items.all fun r => s.uncommitted.all fun u => r.id < u.2.id
    | .error _ => true
  | _ => true

end EventFeed

/-! ## Pages of ordered rows -/

theorem mem_take_of_le
    (hl : l.Pairwise fun a b => key a < key b) (hlast : (l.take n).getLast? = some last)
    (hx : x ∈ l) (hle : key x ≤ key last) : x ∈ l.take n := by
  rw [← take_append_drop n l, pairwise_append] at hl
  rw [← take_append_drop n l, mem_append] at hx
  refine hx.resolve_right fun hdrop => ?_
  have hlt := hl.2.2 last (mem_of_getLast? hlast) x hdrop
  omega

theorem le_getLast
    (hl : l.Pairwise fun a b => key a < key b) (hlast : l.getLast? = some last) (hx : x ∈ l) :
    key x ≤ key last := by
  obtain ⟨_, rfl⟩ := getLast?_eq_some_iff.mp hlast
  obtain hx | hx := mem_append.mp hx
  · exact Nat.le_of_lt ((pairwise_append.mp hl).2.2 x hx last (mem_singleton_self _))
  · rw [mem_singleton.mp hx]

variable {rows committed : List (EventRow α)} {after : Int}

theorem mem_rowsAfter {r : EventRow α} : r ∈ rowsAfter rows after ↔ r ∈ rows ∧ after < r.id := by
  simp [rowsAfter, mem_filter, mem_insertionSort]

theorem rowsAfter_pairwise (hids : (rows.map (·.id)).Nodup) :
    (rowsAfter rows after).Pairwise fun a b => a.id < b.id := by
  refine List.Pairwise.filter _ ?_
  have hle := pairwise_insertionSort (fun a b : EventRow α => a.id ≤ b.id) rows
  have hne : (rows.insertionSort fun a b => a.id ≤ b.id).Pairwise fun a b => a.id ≠ b.id :=
    pairwise_map.mp (((perm_insertionSort _ rows).map _).nodup_iff.mpr hids)
  exact (hle.and hne).imp fun ⟨hle, hne⟩ => Nat.lt_of_le_of_ne hle hne

/-! ## What the consumer has -/

namespace EventFeed

variable {s s' : EventFeed α} {l : FeedLabel α} {limit : Option Int}

/-- The numbers are drawn once, and the consumer has what is committed up to its
cursor; all that is not committed comes later. -/
structure InStep (s : EventFeed α) : Prop where
  range : 0 < s.nextId ∧ s.nextId ≤ 9223372036854775808
  drawn : ∀ r ∈ s.committed ++ s.uncommitted.map (·.2), 0 < r.id ∧ r.id < s.nextId
  ids : ((s.committed ++ s.uncommitted.map (·.2)).map (·.id)).Nodup
  received : ∀ r, r ∈ s.received ↔ r ∈ s.committed ∧ r.id ≤ s.cursor
  sorted : s.received.Pairwise fun a b => a.id < b.id
  ahead : ∀ u ∈ s.uncommitted, s.cursor < u.2.id
  token : ∀ t, s.token = some t → t = Text.decimal s.cursor

theorem InStep.committed_ids (h : s.InStep) : (s.committed.map (·.id)).Nodup := by
  have hids := h.ids
  rw [map_append] at hids
  exact hids.of_append_left

theorem InStep.cursor_lt (h : s.InStep) : s.cursor < s.nextId := by
  rw [cursor]
  cases hlast : s.received.getLast? with
  | none => exact h.range.1
  | some r =>
    have hr : r ∈ s.committed := ((h.received r).mp (mem_of_getLast? hlast)).1
    exact (h.drawn r (mem_append_left _ hr)).2

theorem InStep.call_eq (h : s.InStep) (limit : Option Int) :
    s.call limit = .ok (.fromRows ((rowsAfter s.committed s.cursor).take
      (Page.fetchLimit ⟨limit, s.token⟩)) ⟨limit, s.token⟩ fun r => Text.decimal r.id) := by
  have hcursor : (s.received.getLast?.map fun r => (r.id : Int)).getD 0 = (s.cursor : Int) := by
    rw [cursor]
    cases s.received.getLast? with
    | none | some => rfl
  rw [call, listEvents]
  cases htoken : s.token with
  | none =>
    show Except.ok _ = _
    rw [hcursor]
  | some t =>
    obtain rfl := h.token t htoken
    have hne : Text.decimal s.cursor ≠ [] := Nat.toDigits_ne_nil
    have hparse := Text.parseI64_decimal (h.cursor_lt.trans_le h.range.2)
    obtain ⟨_, _, _⟩ := exists_cons_of_ne_nil hne
    simp only [Page.after, Option.getD_some]
    simp only [hparse]

/-- What the consumer is given: the first rows after its cursor, and a token that
says where they end. -/
theorem InStep.call_page (h : s.InStep) {page : Listing (EventRow α)}
    (hpage : s.call limit = .ok page) :
    (∃ n, page.items = (rowsAfter s.committed s.cursor).take n) ∧ ∀ t, page.nextPageToken = some t →
        ∃ last, page.items.getLast? = some last ∧ t = Text.decimal last.id := by
  rw [h.call_eq] at hpage
  obtain rfl := Except.ok.inj hpage
  constructor
  · refine ⟨Page.fetchLimit ⟨limit, s.token⟩ - 1, ?_⟩
    simp only [Listing.fromRows, take_take]
    congr 1
    omega
  · intro t ht
    obtain ⟨last, hlast, rfl⟩ := Option.map_eq_some_iff.mp ht
    exact ⟨last, (Option.filter_eq_some_iff.mp hlast).1, rfl⟩

theorem cursor_append (s : EventFeed α) (items : List (EventRow α)) (token : Option Text) :
    cursor { s with received := s.received ++ items, token := token }
      = (items.getLast?.map (·.id)).getD s.cursor := by
  rw [cursor, getLast?_append]
  cases items.getLast? with
  | none | some => rfl

theorem InStep.fetch (h : s.InStep) (hG : s.inOrder (.fetch limit))
    (hs : s.step (.fetch limit) = some s') : s'.InStep := by
  cases hcall : s.call limit with
  | error => simp [step, hcall] at hs
  | ok page =>
    simp only [step, hcall] at hs
    simp only [inOrder, hcall] at hG
    cases hs
    obtain ⟨⟨n, hitems⟩, htoken⟩ := h.call_page hcall
    have hsorted : page.items.Pairwise fun a b => a.id < b.id := by
      rw [hitems]
      exact (rowsAfter_pairwise h.committed_ids).sublist (take_sublist _ _)
    have hnew : ∀ r ∈ page.items, r ∈ s.committed ∧ s.cursor < r.id := by
      intro r hr
      rw [hitems] at hr
      obtain ⟨hmem, hlt⟩ := mem_rowsAfter.mp (mem_of_mem_take hr)
      exact ⟨hmem, by exact_mod_cast hlt⟩
    have hcursor := cursor_append s page.items page.nextPageToken
    cases hlast : page.items.getLast? with
    | none =>
      -- nothing new
      have hnil : page.items = [] := getLast?_eq_none_iff.mp hlast
      rw [hlast] at hcursor
      refine ⟨h.range, h.drawn, h.ids, ?_, ?_, ?_, ?_⟩
      · intro r
        rw [hcursor, hnil]
        simpa using h.received r
      · rw [hnil]
        simpa using h.sorted
      · rw [hcursor]
        exact h.ahead
      · intro t ht
        obtain ⟨last, hsome, -⟩ := htoken t ht
        rw [hlast] at hsome
        cases hsome
    | some last =>
      rw [hlast] at hcursor
      have hcursor : cursor _ = last.id := hcursor
      have hmem : last ∈ page.items := mem_of_getLast? hlast
      have hlt : s.cursor < last.id := (hnew last hmem).2
      refine ⟨h.range, h.drawn, h.ids, ?_, ?_, ?_, ?_⟩
      · intro r
        rw [hcursor]
        constructor
        · intro hr
          obtain hr | hr := mem_append.mp hr
          · obtain ⟨hc, hle⟩ := (h.received r).mp hr
            exact ⟨hc, by omega⟩
          · exact ⟨(hnew r hr).1, le_getLast hsorted hlast hr⟩
        · rintro ⟨hc, hle⟩
          refine mem_append.mpr ?_
          by_cases hold : r.id ≤ s.cursor
          · exact .inl ((h.received r).mpr ⟨hc, hold⟩)
          · have hafter : r ∈ rowsAfter s.committed s.cursor := mem_rowsAfter.mpr ⟨hc, by omega⟩
            rw [hitems] at hlast ⊢
            exact .inr (mem_take_of_le (rowsAfter_pairwise h.committed_ids) hlast hafter hle)
      · refine pairwise_append.mpr ⟨h.sorted, hsorted, ?_⟩
        intro a ha b hb
        have hle := ((h.received a).mp ha).2
        have hgt := (hnew b hb).2
        omega
      · intro u hu
        rw [hcursor]
        exact of_decide_eq_true (all_eq_true.mp (all_eq_true.mp hG last hmem) u hu)
      · intro t ht
        obtain ⟨_, hsome, rfl⟩ := htoken t ht
        rw [hlast] at hsome
        cases hsome
        rw [hcursor]

/-- What is committed and what is not yet, whichever way transactions end. -/
theorem InStep.ends {uncommitted : List (Nat × EventRow α)}
    (h : s.InStep)
    (hrows : (committed ++ uncommitted.map (·.2)).Subperm (s.committed ++ s.uncommitted.map (·.2)))
    (hopen : ∀ u ∈ uncommitted, u ∈ s.uncommitted)
    (hcommitted : ∀ r, r ∈ committed → r ∈ s.committed ∨ s.cursor < r.id)
    (hkept : ∀ r ∈ s.committed, r ∈ committed) :
    InStep { s with committed := committed, uncommitted := uncommitted } := by
  refine ⟨h.range, fun r hr => h.drawn r (hrows.subset hr), ?_, ?_, h.sorted,
    fun u hu => h.ahead u (hopen u hu), h.token⟩
  · obtain ⟨_, hperm, hsub⟩ := hrows
    exact ((hperm.map _).nodup_iff).mp ((hsub.map _).nodup h.ids)
  · intro r
    rw [h.received r]
    constructor
    · rintro ⟨hr, hle⟩
      exact ⟨hkept r hr, hle⟩
    · rintro ⟨hr, hle⟩
      have hle' : r.id ≤ s.cursor := hle
      obtain hold | _ := hcommitted r hr
      · exact ⟨hold, hle'⟩
      · omega

theorem InStep.step (h : s.InStep) (hG : s.inOrder l) (hs : s.step l = some s') : s'.InStep := by
  cases l with
  | insert tx body =>
    obtain ⟨hlt, rfl⟩ := Option.ite_some_none_eq_some.mp hs
    let new : EventRow α := ⟨s.nextId, body⟩
    have hrows : s.committed ++ (s.uncommitted ++ [(tx, new)]).map (·.2)
        = (s.committed ++ s.uncommitted.map (·.2)) ++ [new] := by
      rw [map_append, append_assoc]
      rfl
    refine ⟨⟨Nat.succ_pos _, hlt⟩, ?_, ?_, h.received, h.sorted, ?_, h.token⟩
    · intro r hr
      rw [hrows] at hr
      obtain hr | hr := mem_append.mp hr
      · obtain ⟨hpos, hdrawn⟩ := h.drawn r hr
        exact ⟨hpos, Nat.lt_succ_of_lt hdrawn⟩
      · rw [mem_singleton.mp hr]
        exact ⟨h.range.1, Nat.lt_succ_self _⟩
    · rw [hrows, map_append, nodup_append]
      refine ⟨h.ids, nodup_singleton _, ?_⟩
      intro i hi j hj
      obtain ⟨r, hr, rfl⟩ := mem_map.mp hi
      obtain rfl : j = s.nextId := mem_singleton.mp hj
      exact Nat.ne_of_lt (h.drawn r hr).2
    · intro u hu
      obtain hu | hu := mem_append.mp hu
      · exact h.ahead u hu
      · rw [mem_singleton.mp hu]
        exact h.cursor_lt
  | commit =>
    cases hs
    refine h.ends ?_ (fun u hu => mem_of_mem_filter hu) ?_ fun r hr => mem_append_left _ hr
    · rw [append_assoc, ← map_append]
      exact (((filter_append_perm _ s.uncommitted).map _).append_left _).subperm
    · intro r hr
      refine (mem_append.mp hr).imp_right fun hr => ?_
      obtain ⟨u, hu, rfl⟩ := mem_map.mp hr
      exact h.ahead u (mem_of_mem_filter hu)
  | rollback =>
    cases hs
    refine h.ends ?_ (fun u hu => mem_of_mem_filter hu) (fun _ => .inl) fun _ hr => hr
    exact ((filter_sublist.map _).append_left _).subperm
  | fetch => exact h.fetch hG hs

theorem inStep_init : (machine (α := α)).init.InStep where
  range := ⟨Nat.zero_lt_one, Nat.le_add_left 1 9223372036854775807⟩
  drawn _ hr := absurd hr not_mem_nil
  ids := nodup_nil
  received r := ⟨fun hr => absurd hr not_mem_nil, fun hr => absurd hr.1 not_mem_nil⟩
  sorted := .nil
  ahead _ hu := absurd hu not_mem_nil
  token _ ht := by cases ht

/-- A consumer that has read to the end has every committed event, exactly once, if
no page went past an event that was not committed. -/
theorem feed_complete (hr : machine.Reaches (fun s l => inOrder s l = true) s)
    (hend : s.atEnd = true) : s.received.Perm s.committed := by
  have h : s.InStep := hr.invariant inStep_init fun s l s' h hG hs => h.step hG hs
  have hnone : ∀ r ∈ s.committed, r.id ≤ s.cursor := by
    intro r hr
    by_contra hlt
    rw [atEnd, h.call_eq] at hend
    have hmem : r ∈ rowsAfter s.committed s.cursor := mem_rowsAfter.mpr ⟨hr, by omega⟩
    have hlimit : Page.fetchLimit ⟨none, s.token⟩ = 101 := rfl
    have hempty : rowsAfter s.committed s.cursor = [] := by
      simpa [Listing.fromRows, take_eq_nil_iff, hlimit] using hend
    rw [hempty] at hmem
    cases hmem
  refine (perm_ext_iff_of_nodup ?_ ?_).mpr fun r => ?_
  · refine h.sorted.imp ?_
    rintro a b hlt rfl
    exact Nat.lt_irrefl _ hlt
  · exact h.committed_ids.of_map _
  · rw [h.received r]
    exact ⟨fun hr => hr.1, fun hr => ⟨hr, hnone r hr⟩⟩

/-- Two transactions that commit in the order of their events, and pages of one. -/
def orderedRun : List (FeedLabel String) :=
  [.insert 1 "replace_started", .commit 1, .fetch (some 1), .insert 2 "sync_degraded",
    .insert 1 "sync_restored", .commit 2, .fetch (some 1), .commit 1, .fetch (some 1)]

theorem feed_complete_orderedRun : ∃ s, machine.run orderedRun = some s
    ∧ s.received.length = 3 ∧ s.received.Perm s.committed := by
  have hmeets : machine.Meets (fun s l => s.inOrder l = true) machine.init orderedRun := by decide
  exact ⟨_, rfl, by decide, feed_complete (Machine.reaches_of_run hmeets rfl) (by decide)⟩

/-- The second transaction commits first, and its event is read in between. -/
def passedOverRun : List (FeedLabel String) :=
  [.insert 1 "failover_completed", .insert 2 "sync_degraded", .commit 2, .fetch none, .commit 1,
    .fetch none]

/-- No transaction is open, the consumer has read to the end, and an event is
missing. -/
theorem feed_loses_event : ∃ s, machine.run passedOverRun = some s ∧ s.uncommitted = []
    ∧ s.atEnd = true ∧ s.committed.map (·.body) = ["sync_degraded", "failover_completed"]
    ∧ s.received.map (·.body) = ["sync_degraded"] :=
  ⟨_, rfl, by decide, by decide, by decide, by decide⟩

end EventFeed

end PgCluster
