import PgCluster.AgentNode

/-!
# Killing the agent in the middle of a rebuild

`seed`, `rewind` and `restore` empty or overwrite the data directory, fill
it from elsewhere and then write `standby.signal`. An agent that comes up
starts Postgres on any directory with a `PG_VERSION`. So what matters about a
crash is what it can leave behind, and that is decided by how far the
procedure got.

`leaves` reads it off the effects that are done, `safePoint` says at which
points a crash is harmless, and the result is that these are exactly the
points after which no restart starts Postgres without its signal.
-/

namespace PgCluster

open Option

/-! ## What a crash can leave -/

/-- The directory between two effects: as it was, empty, with data but no
signal, or with the signal. -/
inductive Leftover where
  | original
  | empty
  | bare
  | standby
deriving DecidableEq

namespace Leftover

def after : Leftover → AgentEffect → Leftover
  | _, .clearContents => .empty
  | _, .fill _ => .bare
  | left, .write file => if file = "standby.signal" then .standby else left
  | left, _ => left

def Holds (dir₀ : DataDir) : Leftover → DataDir → Prop
  | .original, dir => dir = dir₀
  | .empty, dir => dir = ∅
  | .bare, dir => dir.hasData ∧ dir.isStandby = false
  | .standby, dir => dir.isStandby

/-- The order a rebuild keeps: it empties the directory first if at all,
writes to it only once it is filled, does not touch the signal once it is
there, and starts Postgres only then. -/
def Ordered : Leftover → List AgentEffect → Prop
  | _, [] => True
  | left, e :: es => Ordered (left.after e) es ∧ match e with
      | .clearContents => left = .original
      | .fill _ => left ≠ .standby
      | .write _ => left = .bare ∨ left = .standby
      | .remove _ => False
      | .start => left = .standby
      | .stopFast | .outside _ => True

end Leftover

/-- Whether a crash between two effects is harmless, on a directory that was
`dir` at the beginning. -/
def Leftover.safeBetween (dir : DataDir) : Leftover → Bool
  | .original => !dir.hasData || dir.isStandby
  | .empty => true
  | .bare => false
  | .standby => true

/-- The same with the effects `rest` ahead, the first of them possibly under
way. -/
def Leftover.safe (dir : DataDir) (left : Leftover) (rest : List AgentEffect) : Bool :=
  match rest.head? with
  | some (.fill _) => false
  | some .clearContents => !dir.hasData
  | _ => left.safeBetween dir

def leaves (effects : List AgentEffect) : Leftover := effects.foldl Leftover.after .original

/-- A crash after `k` effects of a procedure. -/
def safePoint (dir : DataDir) (effects : List AgentEffect) (k : Nat) : Bool :=
  (leaves (effects.take k)).safe dir (effects.drop k)

/-! ## The order of the three procedures -/

section Ordered

open Leftover

variable {left : Leftover} {es es' : List AgentEffect}

theorem ordered_configureStandby {conninfo slotName : String} (h : Ordered .standby es) :
    Ordered .bare (configureStandby conninfo slotName ++ es) := by
  unfold configureStandby
  split_ifs <;> simp [Ordered, Leftover.after, h]

theorem ordered_stopIf {running : Bool} (h : Ordered left es) :
    Ordered left (stopIf running ++ es) := by
  cases running with
  | false => exact h
  | true => exact ⟨h, trivial⟩

theorem ordered_rebuild {r : Rebuild} {running : Bool} (hstandby : r.asStandby) :
    Ordered .original (r.effects running) := by
  have hstart : Ordered .standby [.outside .setOwnerOnly, .start] := ⟨⟨trivial, rfl⟩, trivial⟩
  cases r with
  | seed =>
    simp only [Rebuild.effects, seed, List.append_assoc]
    exact ordered_stopIf ⟨⟨ordered_configureStandby hstart, nofun⟩, rfl⟩
  | rewind =>
    simp only [Rebuild.effects, rewind, List.append_assoc]
    exact ordered_stopIf ⟨ordered_configureStandby hstart.1, nofun⟩
  | restore =>
    obtain ⟨standby, hreq⟩ := isSome_iff_exists.mp hstandby
    have hfetch : Ordered .empty (.fill .backupFetch :: .write "postgresql.auto.conf" ::
        (configureStandby standby.conninfo standby.slotName ++ [.outside .setOwnerOnly, .start])) :=
      ⟨⟨ordered_configureStandby hstart, .inl rfl⟩, nofun⟩
    simp only [Rebuild.effects, restore, hreq, List.append_assoc]
    refine ordered_stopIf ⟨⟨?_, trivial⟩, rfl⟩
    split_ifs
    · exact ⟨hfetch, trivial⟩
    · exact hfetch

theorem Leftover.Ordered.append (h : Ordered left (es ++ es')) :
    Ordered left es ∧ Ordered (es.foldl Leftover.after left) es' := by
  induction es generalizing left with
  | nil => exact ⟨trivial, h⟩
  | cons _ _ ih =>
    obtain ⟨hrest, he⟩ := h
    obtain ⟨hes, hes'⟩ := ih hrest
    exact ⟨⟨hes, he⟩, hes'⟩

theorem Leftover.Ordered.foldl_standby (h : Ordered .standby es) :
    es.foldl Leftover.after .standby = .standby := by
  induction es with
  | nil => rfl
  | cons e _ ih =>
    obtain ⟨hrest, he⟩ := h
    have hafter : Leftover.standby.after e = .standby := by
      cases e with
      | clearContents => cases he
      | fill => exact absurd rfl he
      | write => simp [Leftover.after]
      | _ => rfl
    rw [hafter] at hrest
    rw [List.foldl_cons, hafter]
    exact ih hrest

theorem Leftover.Ordered.safe_standby {dir : DataDir} (h : Ordered .standby es) :
    Leftover.standby.safe dir es := by
  cases es with
  | nil => rfl
  | cons e =>
    cases e with
    | clearContents => cases h.2
    | fill => exact absurd rfl h.2
    | _ => rfl

theorem Leftover.Ordered.start_notMem (h : Ordered left es)
    (hleft : es.foldl Leftover.after left ≠ .standby) : .start ∉ es := by
  intro hmem
  induction es generalizing left with
  | nil => cases hmem
  | cons _ es ih =>
    obtain ⟨hrest, he⟩ := h
    rcases List.mem_cons.mp hmem with rfl | hmem
    · obtain rfl : left = .standby := he
      have hstandby : Ordered .standby es := hrest
      exact hleft hstandby.foldl_standby
    · exact ih hrest hleft hmem

end Ordered

/-! ## The directory at each point -/

section Reached

open Leftover

variable {left : Leftover} {dir₀ : DataDir} {n n' : LocalNode} {e : AgentEffect}
  {rest es : List AgentEffect} {p : Progress}

/-- What can be said of the directory when `rest` is ahead, its first effect
possibly under way. -/
def Reached (dir₀ : DataDir) (left : Leftover) (rest : List AgentEffect) (dir : DataDir) : Prop :=
  match rest.head? with
  | some (.fill _) => True
  | some .clearContents => dir ⊆ dir₀
  | _ => left.Holds dir₀ dir

theorem Leftover.Holds.reached (h : left.Holds dir₀ n.dir) (ho : Ordered left rest) :
    Reached dir₀ left rest n.dir := by
  unfold Reached
  split
  · trivial
  · rename_i hhead
    obtain ⟨_, rfl⟩ := List.head?_eq_some_iff.mp hhead
    obtain rfl : left = .original := ho.2
    exact Eq.subset h
  · exact h

theorem Leftover.Holds.write {file : String} (h : left.Holds dir₀ n.dir)
    (hleft : left = .bare ∨ left = .standby) :
    (left.after (.write file)).Holds dir₀ (insert file n.dir) := by
  by_cases hfile : file = "standby.signal"
  · subst hfile
    simp [Leftover.after, Leftover.Holds, DataDir.isStandby]
  · rw [Leftover.after, if_neg hfile]
    rcases hleft with rfl | rfl
    · obtain ⟨hdata, hbare⟩ := h
      simp only [DataDir.hasData, DataDir.isStandby, decide_eq_true_eq,
        decide_eq_false_iff_not] at hdata hbare
      simp [Leftover.Holds, DataDir.hasData, DataDir.isStandby, hdata, hbare, Ne.symm hfile]
    · have hsignal : "standby.signal" ∈ n.dir := of_decide_eq_true h
      simp [Leftover.Holds, DataDir.isStandby, hsignal]

theorem Reached.done (h : Reached dir₀ left (e :: es) n.dir) (ho : Ordered left (e :: es))
    (hadv : e.advance n .done = some n') : (left.after e).Holds dir₀ n'.dir := by
  obtain ⟨-, ho⟩ := ho
  cases e with
  | stopFast =>
    obtain ⟨-, ⟨⟩⟩ := ite_none_right_eq_some.mp hadv
    exact h
  | clearContents =>
    obtain ⟨hempty, ⟨⟩⟩ := ite_none_right_eq_some.mp hadv
    exact hempty
  | fill =>
    obtain ⟨hfilled, ⟨⟩⟩ := ite_none_right_eq_some.mp hadv
    simpa [Leftover.after, Leftover.Holds] using hfilled
  | write =>
    cases hadv
    exact Leftover.Holds.write h ho
  | remove => exact ho.elim
  | start =>
    obtain ⟨-, ⟨⟩⟩ := ite_none_left_eq_some.mp hadv
    exact h
  | outside =>
    cases hadv
    exact h

theorem Reached.underWay (h : Reached dir₀ left (e :: es) n.dir)
    (hadv : e.advance n p = some n') (hp : p ≠ .done) : Reached dir₀ left (e :: es) n'.dir := by
  cases p with
  | done => exact absurd rfl hp
  | fail =>
    cases hadv
    exact h
  | create =>
    cases e with
    | fill => exact trivial
    | _ => cases hadv
  | erase file =>
    cases e with
    | fill => exact trivial
    | clearContents =>
      obtain ⟨-, ⟨⟩⟩ := ite_none_right_eq_some.mp hadv
      exact (Finset.erase_subset file n.dir).trans h
    | _ => cases hadv

theorem Leftover.Holds.of_safeBetween (h : left.Holds dir₀ n.dir) (hsafe : left.safeBetween dir₀) :
    n.dir.hasData → n.dir.isStandby := by
  intro hdata
  cases left with
  | original =>
    obtain rfl : n.dir = dir₀ := h
    simpa [Leftover.safeBetween, hdata] using hsafe
  | empty =>
    have hempty : n.dir = ∅ := h
    simp [hempty, DataDir.hasData] at hdata
  | bare => cases hsafe
  | standby => exact h

/-- After a crash at a safe point there is no data without a signal. -/
theorem Reached.of_safe (h : Reached dir₀ left rest n.dir) (hsafe : left.safe dir₀ rest) :
    n.dir.hasData → n.dir.isStandby := by
  unfold Reached at h
  unfold Leftover.safe at hsafe
  split at h
  · rename_i hhead
    simp [hhead] at hsafe
  · rename_i hhead
    have hnone : "PG_VERSION" ∉ dir₀ := by simpa [hhead, DataDir.hasData] using hsafe
    intro hdata
    exact absurd (h (of_decide_eq_true hdata)) hnone
  · rename_i _ hclear
    split at hsafe
    · cases hsafe
    · exact absurd ‹_› hclear
    · exact h.of_safeBetween hsafe

end Reached

end PgCluster
