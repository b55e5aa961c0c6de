import PgCluster.AdminWorld

/-!
# Port blocks

`add_node` takes the first start of its configuration's series that no node of the host has.
Blocks of two series overlap unless the series start at the same place within a block, and a
configuration may change between two calls.
-/

namespace PgCluster.Admin

open List

/-- Calls of `add_node`, under fleets of which each satisfies `p`, and deletions of nodes. -/
inductive Allocated (p : Fleet → Prop) : World → Prop
  | empty (databases : List DatabaseRow) : Allocated p ⟨databases, []⟩
  | add {w : World} (hw : Allocated p w) {F : Fleet} (hF : p F) (row : NodeRow)
      (hport : F.freePort w row.host = some row.portBase) : Allocated p (w.addNodes [row])
  | delete {w : World} (hw : Allocated p w) (keep : NodeRow → Bool) :
      Allocated p { w with nodes := w.nodes.filter keep }

def NodeRow.Apart (a b : NodeRow) : Prop :=
  a.portBase + 9 < b.portBase ∨ b.portBase + 9 < a.portBase

variable {F : Fleet} {w : World} {host : String} {port start : Nat}

theorem freePort_spec (h : F.freePort w host = some port) :
    F.config.portBaseStart ≤ port ∧ port ≤ F.config.portBaseEnd
      ∧ (port - F.config.portBaseStart) % 10 = 0 ∧ ∀ n ∈ w.instancesOn host, n.portBase ≠ port := by
  have hports := F.config.ports
  obtain ⟨k, hk, rfl⟩ := mem_map.mp (mem_of_find?_eq_some h)
  have hfree := find?_some h
  have hk := mem_range.mp hk
  simp only [SchedulerConfig.portBlocks, PORT_BLOCK] at hk hfree ⊢
  refine ⟨by omega, by omega, by omega, fun n hn => of_decide_eq_false ?_⟩
  simp only [Bool.not_eq_true', any_eq_false, Bool.not_eq_true] at hfree
  exact hfree n hn

/-- Fewer nodes than the series has starts leave one of them free. -/
theorem exists_freePort (h : (w.instancesOn host).length < F.config.portBlocks) :
    ∃ port, F.freePort w host = some port := by
  by_contra hnone
  have hall := find?_eq_none.mp (Option.not_isSome_iff_eq_none.mp fun h =>
    hnone (Option.isSome_iff_exists.mp h))
  have htaken : ((List.range F.config.portBlocks).map fun k =>
      F.config.portBaseStart + k * PORT_BLOCK) ⊆ (w.instancesOn host).map (·.portBase) :=
    fun p hp => by simpa using hall p hp
  have hle := (subperm_of_subset (nodup_range.map fun a b heq => by
    simp only [PORT_BLOCK] at heq
    omega) htaken).length_le
  simp only [length_map, length_range] at hle
  omega

namespace Allocated

variable {p : Fleet → Prop}

theorem inRange (hw : Allocated p w) :
    ∀ n ∈ w.nodes, 1024 ≤ n.portBase ∧ n.portBase + 9 ≤ 65535 := by
  induction hw with
  | empty => exact nofun
  | delete hw keep ih => exact fun n hn => ih n (mem_filter.mp hn).1
  | @add w hw F hF row hport ih =>
    obtain ⟨hstart, hend, -⟩ := freePort_spec hport
    have hports := F.config.ports
    simp only [PORT_BLOCK] at hports
    exact forall_mem_append.mpr ⟨ih, by simp; omega⟩

/-- Starts at one place within a block that differ are a block apart. -/
theorem apart (hw : Allocated p w) (hp : ∀ F, p F → F.config.portBaseStart % PORT_BLOCK = start) :
    (∀ host, (w.instancesOn host).Pairwise NodeRow.Apart)
      ∧ ∀ n ∈ w.nodes, n.portBase % 10 = start := by
  induction hw with
  | empty => exact ⟨fun _ => .nil, nofun⟩
  | delete hw keep ih =>
    refine ⟨fun host => (ih.1 host).sublist ?_, fun n hn => ih.2 n (mem_filter.mp hn).1⟩
    exact filter_sublist.filter _
  | @add w hw F hF row hport ih =>
    obtain ⟨hstart, -, hmod, hnew⟩ := freePort_spec hport
    have hF := hp F hF
    simp only [PORT_BLOCK] at hF
    refine ⟨fun host => ?_, forall_mem_append.mpr ⟨ih.2, by simp; omega⟩⟩
    rw [World.instancesOn, World.addNodes, filter_append, pairwise_append]
    refine ⟨ih.1 host, .sublist filter_sublist (pairwise_singleton _ _), ?_⟩
    intro a ha b hb
    obtain ⟨hb, hhost⟩ := mem_filter.mp hb
    obtain rfl := mem_singleton.mp hb
    have hne := hnew a (of_decide_eq_true hhost ▸ ha)
    have hmod := ih.2 a (mem_filter.mp ha).1
    unfold NodeRow.Apart
    omega

end Allocated

/-- Blocks are in range, a host with room has a free one, and blocks on a host do not overlap
where all series start at one place within a block. -/
theorem port_blocks_apart {p : Fleet → Prop} (hw : Allocated p w) :
    ((∀ F, p F → F.config.portBaseStart % PORT_BLOCK = start) →
        ∀ host, (w.instancesOn host).Pairwise NodeRow.Apart)
      ∧ (∀ n ∈ w.nodes, 1024 ≤ n.portBase ∧ n.portBase + 9 ≤ 65535)
      ∧ ∀ (F : Fleet) (e : Env), ∀ load ∈ F.hostLoads e w, ∀ request,
        load.hasRoom F.config request = true → ∃ port, F.freePort w load.host.id = some port := by
  refine ⟨fun hp host => (hw.apart hp).1 host, hw.inRange, fun F e load hload request hroom => ?_⟩
  obtain ⟨h, hh, rfl⟩ := mem_map.mp hload
  rw [HostLoad.hasRoom, Bool.and_eq_true] at hroom
  exact exists_freePort (of_decide_eq_true hroom.1)

def oneBlock (start : Nat) (h : 1024 ≤ start ∧ start ≤ 65525) : Fleet where
  config := ⟨0, 1/2, 0, start, start, by norm_num, le_rfl, by simp [PORT_BLOCK, h]⟩
  hosts := []
  describe _ := ""
  ids := .nil
  sizes := nofun

def firstNode : NodeRow := ⟨"d", 1, "h", 20000, false⟩
def secondNode : NodeRow := ⟨"d", 2, "h", 20005, false⟩
def nextNode : NodeRow := ⟨"d", 2, "h", 20010, false⟩

theorem allocated_first {p : Fleet → Prop} (h : p (oneBlock 20000 (by decide))) :
    Allocated p ⟨[], [firstNode]⟩ :=
  .add (.empty []) h firstNode (by decide)

/-- The configuration changes between the two nodes of the host, to a later start. -/
theorem port_blocks_apart_two :
    (World.instancesOn ⟨[], [firstNode, nextNode]⟩ "h").Pairwise NodeRow.Apart := by
  let p (F : Fleet) : Prop := F.config.portBaseStart % PORT_BLOCK = 0
  have hw : Allocated p ⟨[], [firstNode, nextNode]⟩ :=
    .add (allocated_first (p := p) rfl) (F := oneBlock 20010 (by decide)) rfl nextNode (by decide)
  exact (port_blocks_apart hw).1 (fun _ h => h) "h"

/-- The second node's configuration starts five ports later. -/
theorem port_blocks_overlap : Allocated (fun _ => True) ⟨[], [firstNode, secondNode]⟩
    ∧ ¬(World.instancesOn ⟨[], [firstNode, secondNode]⟩ "h").Pairwise NodeRow.Apart := by
  refine ⟨.add (allocated_first trivial) (F := oneBlock 20005 (by decide)) trivial secondNode
    (by decide), ?_⟩
  simp [World.instancesOn, firstNode, secondNode, NodeRow.Apart]

end PgCluster.Admin
