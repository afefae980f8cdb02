import Mathlib
import FrontierDirectorate.Core.HeapMemoryLaws

/-!
# The heap

In every run of insertions, pops and lowered distances the indexed heap of the road
search is a priority queue with decrease-key.
-/
namespace FrontierDirectorate
open IndexedHeap

namespace HeapMemory

variable {n : Nat}

/-- A node stands at a position in use. -/
def Contains (m : HeapMemory n) (node : UInt32) : Prop := ∃ i, m.nodeAt i = some node

/-- The first node comes before the second in the order of distance and index. -/
def Before (m : HeapMemory n) (a b : UInt32) : Prop := m.fdHeapLess a b = some true

/-- The heap before the first insertion. -/
structure Empty (m : HeapMemory n) : Prop where
  size : m.size = 0
  positions : ∀ node word, readWord m.positions node = some word → word = noPosition

/-- Positions and nodes are inverse to each other, `UINT32_MAX` is the position of exactly the
nodes that are not in the heap, and every parent comes before its children. -/
structure Consistent (m : HeapMemory n) : Prop where
  room : m.size.toNat ≤ n
  position : ∀ i node, m.nodeAt i = some node → readWord m.positions node = some i
  node : ∀ node i, readWord m.positions node = some i → i ≠ noPosition → m.nodeAt i = some node
  absent : ∀ node, node.toNat < n →
    (readWord m.positions node = some noPosition ↔ ¬ m.Contains node)
  filled : ∀ i, i < m.size → ∃ node, m.nodeAt i = some node ∧ node.toNat < n
  ordered : ∀ i, 0 < i → i < m.size → ∃ above node, m.nodeAt ((i - 1) / 2) = some above ∧
    m.nodeAt i = some node ∧ m.Before above node

end HeapMemory

/-- What is done to a heap. The distance of an inserted node is stored first. -/
inductive HeapOp
  | insert (node distance : UInt32)
  | pop
  | lower (node distance : UInt32)

namespace HeapOp

variable {n : Nat}

/-- The node that is popped, if any, and the heap afterwards. -/
def run (m : HeapMemory n) : HeapOp → Option (Option UInt32 × HeapMemory n)
  | insert node distance => do
      let m ← m.setDistance node distance
      return (none, ← m.fdHeapInsert node)
  | pop => do
      let (result, m) ← m.fdHeapPop
      return (some result, m)
  | lower node distance => do return (none, ← m.lowerDistance node distance)

/-- Nodes are inserted once, an empty heap is not popped, and distances of nodes of the heap only
fall. -/
def Allowed (m : HeapMemory n) : HeapOp → Prop
  | insert node _ => node.toNat < n ∧ ¬ m.Contains node
  | pop => m.size ≠ 0
  | lower node distance => m.Contains node ∧ ∀ old, readWord m.distances node = some old →
      distance ≤ old

/-- What an operation answers and what it leaves in the heap. -/
def Meets (m : HeapMemory n) (popped : Option UInt32) (m' : HeapMemory n) : HeapOp → Prop
  | insert node _ => popped = none ∧ ∀ u, m'.Contains u ↔ u = node ∨ m.Contains u
  | pop => ∃ least, popped = some least ∧ m.Contains least ∧
      (∀ u, m.Contains u → u ≠ least → m.Before least u) ∧
      ∀ u, m'.Contains u ↔ m.Contains u ∧ u ≠ least
  | lower _ _ => popped = none ∧ ∀ u, m'.Contains u ↔ m.Contains u

end HeapOp

/-- The heaps of all runs. -/
inductive HeapRun {n : Nat} : HeapMemory n → Prop
  | empty {m : HeapMemory n} (h : m.Empty) : HeapRun m
  | step {m m' : HeapMemory n} {op : HeapOp} {popped : Option UInt32} (h : HeapRun m)
      (allowed : op.Allowed m) (ran : op.run m = some (popped, m')) : HeapRun m'

namespace HeapMemory

variable {n : Nat} {m : HeapMemory n}

/-- The arrays hold a heap in order. -/
structure Sound (m : HeapMemory n) : Prop where
  fits : m.Fits
  ordered : m.toHeap.Ordered (roadKey m.distance)

theorem Sound.valid (h : m.Sound) : Heap.Valid (roadKey m.distance) m.toHeap :=
  ⟨h.fits.linked, h.ordered⟩

theorem positions_of_read {node word : UInt32} (h : readWord m.positions node = some word) :
    m.toHeap.positions node.toNat = positionOf word := by
  have hbind : m.toHeap.positions node.toNat = (readWord m.positions node).bind positionOf := rfl
  rw [hbind, h, Option.bind_some]

theorem Empty.sound (hn : n < 2147483648) (h : m.Empty) : m.Sound := by
  have hsize : m.toHeap.size = 0 := congrArg UInt32.toNat h.size
  have hnone : ∀ i, ¬ i < m.toHeap.size := fun i hi => absurd (hsize ▸ hi) (Nat.not_lt_zero i)
  have hpositions : ∀ v i, m.toHeap.positions v ≠ some i := by
    intro v i hi
    have hv : v < n := lt_of_positionsOf hi
    have hindex := indexWord (hv.trans hn)
    obtain ⟨word, hword, -⟩ := readWord_of_lt m.positions (hindex.trans_lt hv)
    have hpos := positions_of_read hword
    rw [hindex, h.positions _ _ hword, hi] at hpos
    cases hpos
  exact ⟨⟨hn, hsize.trans_le (Nat.zero_le n), fun i hi => absurd hi (hnone i),
    fun v i hi => absurd hi (hpositions v i)⟩, fun i _ hi => absurd hi (hnone i)⟩

theorem before_iff {a b : UInt32} (ha : a.toNat < n) (hb : b.toNat < n) :
    m.Before a b ↔ roadKey m.distance a.toNat < roadKey m.distance b.toNat := by
  rw [Before, less_of_lt ha hb, fdHeapLess_eq, Option.some.injEq]
  exact decide_eq_true_iff

section sound

variable (h : m.Sound)
include h

theorem Sound.nodeAt_iff {i node : UInt32} : m.nodeAt i = some node ↔
    i.toNat < m.size.toNat ∧ m.toHeap.nodes i.toNat = node.toNat := by
  constructor
  · intro hnode
    have hi : i < m.size := by
      by_contra hi
      rw [HeapMemory.nodeAt, if_neg hi] at hnode
      cases hnode
    have hi := UInt32.lt_iff_toNat_lt.mp hi
    obtain ⟨other, hother, hother'⟩ := h.fits.nodeAt hi
    obtain rfl := Option.some.inj (hnode.symm.trans hother)
    exact ⟨hi, hother'.symm⟩
  · rintro ⟨hi, hnode⟩
    obtain ⟨other, hother, hother'⟩ := h.fits.nodeAt hi
    rw [hother, UInt32.toNat_inj.mp (hother'.trans hnode)]

theorem Sound.contains_iff {node : UInt32} : m.Contains node ↔ m.toHeap.Holds node.toNat := by
  constructor
  · rintro ⟨i, hi⟩
    exact ⟨i.toNat, h.nodeAt_iff.mp hi⟩
  · rintro ⟨i, hi, hnode⟩
    have hindex := indexWord ((hi.trans_le h.fits.size).trans h.fits.small)
    refine ⟨UInt32.ofNat i, h.nodeAt_iff.mpr ⟨hindex.trans_lt hi, ?_⟩⟩
    rw [hindex, hnode]

theorem Sound.node_lt {node : UInt32} (hnode : m.Contains node) : node.toNat < n := by
  obtain ⟨i, hi, hnode⟩ := h.contains_iff.mp hnode
  rw [← hnode]
  exact h.fits.node_lt hi

theorem Sound.consistent : m.Consistent where
  room := h.fits.size
  position := by
    intro i node hnode
    obtain ⟨hi, hnode⟩ := h.nodeAt_iff.mp hnode
    have hlt := h.fits.node_lt hi
    rw [hnode] at hlt
    obtain ⟨word, hword, -⟩ := readWord_of_lt m.positions hlt
    have hposition := h.fits.linked.position i.toNat hi
    rw [hnode, positions_of_read hword, positionOf_eq_some] at hposition
    rw [hword, UInt32.toNat_inj.mp hposition.2]
  node := by
    intro node i hread hi
    have hposition := positions_of_read hread
    rw [positionOf_eq_some.mpr ⟨hi, rfl⟩] at hposition
    exact h.nodeAt_iff.mpr (h.fits.linked.node _ _ hposition)
  absent := by
    intro node hnode
    obtain ⟨word, hword, -⟩ := readWord_of_lt m.positions hnode
    rw [h.contains_iff, h.fits.linked.not_holds_iff, positions_of_read hword, positionOf_eq_none,
      hword, Option.some.injEq]
  filled := by
    intro i hi
    have hi := UInt32.lt_iff_toNat_lt.mp hi
    obtain ⟨node, hnode, hnode'⟩ := h.fits.nodeAt hi
    exact ⟨node, hnode, hnode'.trans_lt (h.fits.node_lt hi)⟩
  ordered := by
    intro i hpos hi
    have hpos := word_pos_iff.mp hpos
    have hi := UInt32.lt_iff_toNat_lt.mp hi
    have hparent := parent_toNat hpos
    have hlt := parent_lt hpos
    have hin : ((i - 1) / 2).toNat < m.size.toNat := hparent.trans_lt (hlt.trans hi)
    obtain ⟨above, habove, habove'⟩ := h.fits.nodeAt hin
    obtain ⟨node, hnode, hnode'⟩ := h.fits.nodeAt hi
    refine ⟨above, node, habove, hnode, ?_⟩
    rw [before_iff (habove'.trans_lt (h.fits.node_lt hin)) (hnode'.trans_lt (h.fits.node_lt hi)),
      habove', hnode', hparent]
    refine lt_of_le_of_ne (h.ordered i.toNat hpos hi) fun heq => ?_
    have hsame : m.toHeap.nodes (parent i.toNat) = m.toHeap.nodes i.toNat :=
      congrArg (fun key => (ofLex key).2) heq
    exact hlt.ne (h.fits.linked.inj (hlt.trans hi) hi hsame)

end sound

theorem Becomes.sound {heap : FdHeap} {m' : HeapMemory n} (hm : m.Becomes heap m')
    (hsmall : n < 2147483648) (hvalid : Heap.Valid (roadKey m.distance) heap)
    (hsize : heap.size ≤ n) : m'.Sound := by
  have hcount : m'.size.toNat = heap.size := congrArg Heap.size hm.toHeap
  refine ⟨⟨hsmall, hcount.trans_le hsize, hm.toHeap.symm ▸ hvalid.linked⟩, ?_⟩
  rw [hm.toHeap, hm.distance]
  exact hvalid.ordered

/-- Storing the distance of a node that is not in the heap. -/
theorem Sound.setDistance (h : m.Sound) {node : UInt32} (hnode : node.toNat < n)
    (hfree : ¬ m.Contains node) (distance : UInt32) :
    ∃ m', m.setDistance node distance = some m' ∧ m'.Sound ∧ m'.toHeap = m.toHeap := by
  obtain ⟨distances, hdistances, hdistances', -⟩ := writeWord_of_lt m.distances hnode distance
  refine ⟨{ m with distances := distances }, ?_, ⟨⟨h.fits.small, h.fits.size, h.fits.linked⟩, ?_⟩,
    rfl⟩
  · simp only [HeapMemory.setDistance, hdistances, Option.bind_eq_bind, Option.bind_some]
    rfl
  · refine h.ordered.congr fun i hi => ?_
    have hne : m.toHeap.nodes i ≠ node.toNat :=
      fun heq => hfree (h.contains_iff.mpr ⟨i, hi, heq⟩)
    have hsame : HeapMemory.distance { m with distances := distances } (m.toHeap.nodes i) =
        m.distance (m.toHeap.nodes i) := by
      unfold HeapMemory.distance
      rw [hdistances', Function.update_of_ne hne]
    exact congrArg (fun key => toLex (key, m.toHeap.nodes i)) hsame

theorem Sound.insert (h : m.Sound) {node : UInt32} (hnode : node.toNat < n)
    (hfree : ¬ m.Contains node) :
    ∃ m', m.fdHeapInsert node = some m' ∧ m'.Sound ∧
      ∀ u, m'.Contains u ↔ u = node ∨ m.Contains u := by
  have hnone : m.toHeap.positions node.toNat = none :=
    h.fits.linked.not_holds_iff.mp (h.contains_iff.not.mp hfree)
  obtain ⟨m', hrun, hm'⟩ := h.fits.insert hnode hnone
  rw [fdHeapLess_eq] at hm'
  obtain ⟨hvalid, hsize, hholds⟩ := Heap.insert_valid h.valid hnone
  have hsound := hm'.sound h.fits.small hvalid (hsize.trans_le (h.fits.room hnode hnone))
  refine ⟨m', hrun, hsound, fun u => ?_⟩
  rw [hsound.contains_iff, hm'.toHeap, hholds, UInt32.toNat_inj, h.contains_iff]

theorem Sound.pop (h : m.Sound) (hsize : m.size ≠ 0) :
    ∃ least m', m.fdHeapPop = some (least, m') ∧ m'.Sound ∧ m.Contains least ∧
      (∀ u, m.Contains u → u ≠ least → m.Before least u) ∧
      ∀ u, m'.Contains u ↔ m.Contains u ∧ u ≠ least := by
  have hpos : 0 < m.size.toNat :=
    Nat.pos_of_ne_zero fun hzero => hsize (UInt32.toNat_inj.mp hzero)
  obtain ⟨least, m', hrun, hleast, hm'⟩ := h.fits.pop hpos
  rw [fdHeapLess_eq] at hleast hm'
  obtain ⟨hmem, hmin, hvalid, hshrunk, hholds⟩ := Heap.pop_valid h.valid hpos
  rw [← hleast] at hmem hmin hholds
  have hsound := hm'.sound h.fits.small hvalid
    (hshrunk.trans_le ((Nat.sub_le _ 1).trans h.fits.size))
  refine ⟨least, m', hrun, hsound, h.contains_iff.mpr hmem, fun u hu hne => ?_, fun u => ?_⟩
  · rw [before_iff (h.node_lt (h.contains_iff.mpr hmem)) (h.node_lt hu)]
    refine lt_of_le_of_ne (hmin _ (h.contains_iff.mp hu)) fun heq => hne ?_
    exact (UInt32.toNat_inj.mp (congrArg (fun key => (ofLex key).2) heq)).symm
  · rw [hsound.contains_iff, hm'.toHeap, hholds, h.contains_iff, Ne, Ne, UInt32.toNat_inj]

theorem Sound.lower (h : m.Sound) {node distance : UInt32} (hnode : m.Contains node)
    (hle : ∀ old, readWord m.distances node = some old → distance ≤ old) :
    ∃ m', m.lowerDistance node distance = some m' ∧ m'.Sound ∧
      ∀ u, m'.Contains u ↔ m.Contains u := by
  obtain ⟨p, hp⟩ := h.fits.linked.holds_iff.mp (h.contains_iff.mp hnode)
  obtain ⟨lowered, m', -, hdistance, hrun, hm'⟩ := h.fits.lower distance hp
  obtain ⟨old, hold, hold'⟩ := readWord_of_lt m.distances (h.node_lt hnode)
  have hkey : roadKey lowered.distance node.toNat ≤ roadKey m.distance node.toNat := by
    have hword := UInt32.le_iff_toNat_le.mp (hle old hold)
    rw [hold'] at hword
    rw [roadKey, roadKey, hdistance, Function.update_self, Prod.Lex.toLex_le_toLex]
    rcases Nat.lt_or_eq_of_le hword with hlt | heq
    · exact .inl hlt
    · exact .inr ⟨heq, le_refl _⟩
  have hother : ∀ u, u ≠ node.toNat → roadKey lowered.distance u = roadKey m.distance u := by
    intro u hu
    rw [roadKey, roadKey, hdistance, Function.update_of_ne hu]
  rw [fdHeapLess_eq] at hm'
  have hsifted := Heap.lower_valid h.valid hp hkey hother
  have hsound := hm'.sound h.fits.small hsifted.valid (hsifted.size.trans_le h.fits.size)
  refine ⟨m', hrun, hsound, fun u => ?_⟩
  rw [hsound.contains_iff, hm'.toHeap, hsifted.holds, h.contains_iff]

end HeapMemory

/-- One operation keeps the heap, succeeds, and does what it should. -/
theorem heapOp_step {n : Nat} {m : HeapMemory n} (h : m.Sound) {op : HeapOp} (hop : op.Allowed m) :
    ∃ popped m', op.run m = some (popped, m') ∧ m'.Sound ∧ op.Meets m popped m' := by
  cases op with
  | insert node distance =>
      obtain ⟨hnode, hfree⟩ := hop
      obtain ⟨stored, hstored, hsound, hheap⟩ := h.setDistance hnode hfree distance
      have hsame : ∀ u, stored.Contains u ↔ m.Contains u := fun u => by
        rw [hsound.contains_iff, hheap, h.contains_iff]
      obtain ⟨m', hrun, hsound', hcontains⟩ := hsound.insert hnode ((hsame node).not.mpr hfree)
      refine ⟨none, m', ?_, hsound', rfl, fun u => by rw [hcontains, hsame]⟩
      simp only [HeapOp.run, hstored, hrun, Option.bind_eq_bind, Option.bind_some]
      rfl
  | pop =>
      obtain ⟨least, m', hrun, hsound', hmem, hmin, hcontains⟩ := h.pop hop
      refine ⟨some least, m', ?_, hsound', least, rfl, hmem, hmin, hcontains⟩
      simp only [HeapOp.run, hrun, Option.bind_eq_bind, Option.bind_some]
      rfl
  | lower node distance =>
      obtain ⟨m', hrun, hsound', hcontains⟩ := h.lower hop.1 hop.2
      refine ⟨none, m', ?_, hsound', rfl, hcontains⟩
      simp only [HeapOp.run, hrun, Option.bind_eq_bind, Option.bind_some]
      rfl

theorem heapRun_sound {n : Nat} (hn : n < 2147483648) {m : HeapMemory n} (h : HeapRun m) :
    m.Sound := by
  induction h with
  | empty h => exact h.sound hn
  | step h allowed ran ih =>
      obtain ⟨popped, m', hrun, hsound, -⟩ := heapOp_step ih allowed
      obtain ⟨-, rfl⟩ := Prod.mk.inj (Option.some.inj (ran.symm.trans hrun))
      exact hsound

/-- In every run the heap is consistent, and the next operation ends inside the arrays with what it
should answer and hold. -/
theorem heap_is_priority_queue {n : Nat} (hn : n < 2147483648) {m : HeapMemory n}
    (h : HeapRun m) :
    m.Consistent ∧ ∀ op : HeapOp, op.Allowed m →
      ∃ popped m', op.run m = some (popped, m') ∧ m'.Consistent ∧ op.Meets m popped m' := by
  have hsound := heapRun_sound hn h
  refine ⟨hsound.consistent, fun op hop => ?_⟩
  obtain ⟨popped, m', hrun, hsound', hmeets⟩ := heapOp_step hsound hop
  exact ⟨popped, m', hrun, hsound'.consistent, hmeets⟩

/-- The arrays before a search over three tiles. -/
def tripleMemory : HeapMemory 3 :=
  ⟨Vector.replicate 3 0, Vector.replicate 3 noPosition, Vector.replicate 3 noPosition, 0⟩

theorem tripleMemory_empty : tripleMemory.Empty := by
  refine ⟨rfl, fun node word h => ?_⟩
  have hlt : node.toNat < 3 := by
    by_contra hge
    rw [readWord, Vector.getElem?_eq_none (Nat.not_lt.mp hge)] at h
    cases h
  have hword : readWord tripleMemory.positions node = some noPosition := by
    rw [readWord, Vector.getElem?_eq_getElem hlt, tripleMemory, Vector.getElem_replicate]
  exact Option.some.inj (h.symm.trans hword)

/-- The heap once all three tiles are in it. -/
def filledTriple : HeapMemory 3 := ⟨#v[1, 0, 2], #v[1, 0, 2], #v[7, 5, 6], 3⟩

/-- And once the first of them has become the nearest. -/
def loweredTriple : HeapMemory 3 := ⟨#v[0, 1, 2], #v[0, 1, 2], #v[3, 5, 6], 3⟩

/-- A node without a position may be inserted. -/
theorem HeapRun.insert {n : Nat} (hn : n < 2147483648) {m m' : HeapMemory n} (h : HeapRun m)
    (node distance : UInt32) (hnode : node.toNat < n)
    (hfree : readWord m.positions node = some noPosition)
    (ran : (HeapOp.insert node distance).run m = some (none, m')) : HeapRun m' := by
  have hallowed : (HeapOp.insert node distance).Allowed m :=
    ⟨hnode, ((heapRun_sound hn h).consistent.absent node hnode).mp hfree⟩
  exact h.step hallowed ran

/-- The second tile overtakes the first, and the third stays where it is put. -/
theorem filledTriple_run : HeapRun filledTriple := by
  have hfirst : HeapRun (⟨#v[0, 0, 0], #v[0, noPosition, noPosition],
      #v[7, noPosition, noPosition], 1⟩ : HeapMemory 3) :=
    HeapRun.insert (by decide) (.empty tripleMemory_empty) 0 7 (by decide) rfl rfl
  have hsecond : HeapRun (⟨#v[1, 0, 0], #v[1, 0, noPosition], #v[7, 5, noPosition], 2⟩ :
      HeapMemory 3) := HeapRun.insert (by decide) hfirst 1 5 (by decide) rfl rfl
  exact HeapRun.insert (by decide) hsecond 2 6 (by decide) rfl rfl

/-- The lowered tile comes up to the root. -/
theorem loweredTriple_run : HeapRun loweredTriple := by
  have hallowed : (HeapOp.lower 0 3).Allowed filledTriple := by
    refine ⟨⟨1, rfl⟩, fun old hold => ?_⟩
    obtain rfl : (7 : UInt32) = old := Option.some.inj hold
    decide
  have hran : (HeapOp.lower 0 3).run filledTriple = some (none, loweredTriple) := rfl
  exact filledTriple_run.step hallowed hran

/-- The next pop gives the lowered tile, and the last one sinks below the other. -/
theorem heap_is_priority_queue_triple : loweredTriple.Consistent ∧
    ∃ m', HeapOp.pop.run loweredTriple = some (some 0, m') ∧ m'.Consistent ∧
      HeapOp.pop.Meets loweredTriple (some 0) m' := by
  obtain ⟨hconsistent, hnext⟩ := heap_is_priority_queue (by decide) loweredTriple_run
  obtain ⟨popped, m', hrun, hconsistent', hmeets⟩ := hnext .pop (show loweredTriple.size ≠ 0 by decide)
  have hpop : HeapOp.pop.run loweredTriple =
      some (some 0, ⟨#v[1, 2, 2], #v[noPosition, 0, 1], #v[3, 5, 6], 2⟩) := rfl
  obtain ⟨rfl, -⟩ := Prod.mk.inj (Option.some.inj (hpop.symm.trans hrun))
  exact ⟨hconsistent, m', hrun, hconsistent', hmeets⟩

end FrontierDirectorate
