import Mathlib
import FrontierDirectorate.Core.HeapMemory

/-!
# The arrays refine the indexed heap

Read as an indexed heap, the arrays do what the heap of the road search does: every
operation has a result, so no index leaves its array and no loop outruns its fuel.
-/
namespace FrontierDirectorate
open IndexedHeap

/-- The order of the road search: by distance, ties by index. -/
def roadKey (distances : Nat → Nat) (node : Nat) : Lex (Nat × Nat) := toLex (distances node, node)

theorem fdHeapLess_eq (distances : Nat → Nat) : fdHeapLess distances = below (roadKey distances) := by
  funext a b
  refine decide_eq_decide.mpr ?_
  rw [roadKey, roadKey, Prod.Lex.toLex_lt_toLex]

section words

variable {n : Nat} (words : Vector UInt32 n)

/-- The word of an array as a number. -/
def wordAt (i : Nat) : Nat := (words[i]?.getD 0).toNat

/-- The position a word stands for. -/
def positionOf (word : UInt32) : Option Nat := if word = noPosition then none else some word.toNat

/-- The positions of an array. -/
def positionsOf (v : Nat) : Option Nat := words[v]?.bind positionOf

variable {words}

theorem wordAt_of_lt {i : Nat} (h : i < n) : wordAt words i = words[i].toNat := by
  rw [wordAt, Vector.getElem?_eq_getElem h, Option.getD_some]

theorem readWord_of_lt (words : Vector UInt32 n) {i : UInt32} (h : i.toNat < n) :
    ∃ word, readWord words i = some word ∧ word.toNat = wordAt words i.toNat :=
  ⟨words[i.toNat], Vector.getElem?_eq_getElem h, (wordAt_of_lt h).symm⟩

theorem writeWord_of_lt (words : Vector UInt32 n) {i : UInt32} (h : i.toNat < n) (value : UInt32) :
    ∃ words', writeWord words i value = some words' ∧
      wordAt words' = Function.update (wordAt words) i.toNat value.toNat ∧
      positionsOf words' = Function.update (positionsOf words) i.toNat (positionOf value) := by
  refine ⟨words.set i.toNat value h, dif_pos h, ?_, ?_⟩
  · funext j
    by_cases hj : j = i.toNat
    · rw [hj, Function.update_self, wordAt, Vector.getElem?_set h, if_pos rfl, Option.getD_some]
    · rw [Function.update_of_ne hj, wordAt, Vector.getElem?_set h, if_neg (Ne.symm hj), wordAt]
  · funext j
    by_cases hj : j = i.toNat
    · rw [hj, Function.update_self, positionsOf, Vector.getElem?_set h, if_pos rfl, Option.bind_some]
    · rw [Function.update_of_ne hj, positionsOf, Vector.getElem?_set h, if_neg (Ne.symm hj),
        positionsOf]

theorem lt_of_positionsOf {v i : Nat} (h : positionsOf words v = some i) : v < n := by
  by_contra hv
  rw [positionsOf, Vector.getElem?_eq_none (Nat.not_lt.mp hv)] at h
  cases h

theorem positionOf_eq_none {word : UInt32} : positionOf word = none ↔ word = noPosition := by
  unfold positionOf
  by_cases h : word = noPosition
  · simp only [h, if_true]
  · simp only [h, if_false, reduceCtorEq]

theorem positionOf_eq_some {word : UInt32} {p : Nat} :
    positionOf word = some p ↔ word ≠ noPosition ∧ word.toNat = p := by
  unfold positionOf
  by_cases h : word = noPosition
  · simp only [h, if_true, reduceCtorEq, ne_eq, not_true_eq_false, false_and]
  · simp only [h, if_false, Option.some.injEq, ne_eq, not_false_eq_true, true_and]

/-- A small number is an index word. -/
theorem indexWord {i : Nat} (h : i < 2147483648) : (UInt32.ofNat i).toNat = i :=
  UInt32.toNat_ofNat_of_lt' (h.trans (by decide))

theorem positionOf_of_small {word : UInt32} (h : word.toNat < 2147483648) :
    positionOf word = some word.toNat := by
  refine if_neg ?_
  rintro rfl
  exact absurd h (by decide)

end words

namespace HeapMemory

variable {n : Nat}

/-- The arrays as an indexed heap. -/
def toHeap (m : HeapMemory n) : FdHeap := ⟨wordAt m.nodes, positionsOf m.positions, m.size.toNat⟩

/-- The distances as numbers. -/
def distance (m : HeapMemory n) : Nat → Nat := wordAt m.distances

/-- A heap that fits its arrays. -/
structure Fits (m : HeapMemory n) : Prop where
  small : n < 2147483648
  size : m.size.toNat ≤ n
  linked : m.toHeap.Linked

/-- What an operation that leaves the distances alone makes of the heap. -/
structure Becomes (m : HeapMemory n) (heap : FdHeap) (m' : HeapMemory n) : Prop where
  toHeap : m'.toHeap = heap
  distances : m'.distances = m.distances

variable {m : HeapMemory n}

theorem Fits.node_lt (h : m.Fits) {i : Nat} (hi : i < m.size.toNat) : m.toHeap.nodes i < n :=
  lt_of_positionsOf (h.linked.position i hi)

theorem Fits.nodeAt (h : m.Fits) {i : UInt32} (hi : i.toNat < m.size.toNat) :
    ∃ node, m.nodeAt i = some node ∧ node.toNat = m.toHeap.nodes i.toNat := by
  obtain ⟨node, hread, hnode⟩ := readWord_of_lt m.nodes (hi.trans_le h.size)
  exact ⟨node, (if_pos (UInt32.lt_iff_toNat_lt.mpr hi)).trans hread, hnode⟩

theorem less_of_lt {a b : UInt32} (ha : a.toNat < n) (hb : b.toNat < n) :
    m.fdHeapLess a b = some (FrontierDirectorate.fdHeapLess m.distance a.toNat b.toNat) := by
  obtain ⟨left, hleft, hleft'⟩ := readWord_of_lt m.distances ha
  obtain ⟨right, hright, hright'⟩ := readWord_of_lt m.distances hb
  unfold fdHeapLess FrontierDirectorate.fdHeapLess distance
  rw [hleft, hright, ← hleft', ← hright']
  refine congrArg some (decide_eq_decide.mpr ?_)
  rw [UInt32.lt_iff_toNat_lt, UInt32.lt_iff_toNat_lt, ← UInt32.toNat_inj]

/-- The comparison of the nodes at two positions. -/
theorem Fits.less_nodes (h : m.Fits) {i j : UInt32} (hi : i.toNat < m.size.toNat)
    (hj : j.toNat < m.size.toNat) :
    ∃ a b, m.nodeAt i = some a ∧ m.nodeAt j = some b ∧ m.fdHeapLess a b =
      some (FrontierDirectorate.fdHeapLess m.distance (m.toHeap.nodes i.toNat)
        (m.toHeap.nodes j.toNat)) := by
  obtain ⟨a, ha, ha'⟩ := h.nodeAt hi
  obtain ⟨b, hb, hb'⟩ := h.nodeAt hj
  refine ⟨a, b, ha, hb, ?_⟩
  rw [← ha', ← hb']
  refine less_of_lt ?_ ?_
  · rw [ha']
    exact h.node_lt hi
  · rw [hb']
    exact h.node_lt hj

theorem Fits.swap (h : m.Fits) {left right : UInt32} (hl : left.toNat < m.size.toNat)
    (hr : right.toNat < m.size.toNat) :
    ∃ m', m.fdHeapSwap left right = some m' ∧
      m.Becomes (m.toHeap.swap left.toNat right.toNat) m' := by
  have hln := hl.trans_le h.size
  have hrn := hr.trans_le h.size
  obtain ⟨value, hvalue, hvalue'⟩ := h.nodeAt hl
  obtain ⟨other, hother, hother'⟩ := h.nodeAt hr
  have hvalueLt := h.node_lt hl
  have hotherLt := h.node_lt hr
  obtain ⟨first, hfirst, hfirst', -⟩ := writeWord_of_lt m.nodes hln other
  obtain ⟨nodes, hnodes, hnodes', -⟩ := writeWord_of_lt first hrn value
  have hswapped : wordAt nodes = (m.toHeap.swap left.toNat right.toNat).nodes := by
    rw [hnodes', hfirst', hvalue', hother']
    rfl
  have hleftLt : (m.toHeap.swap left.toNat right.toNat).nodes left.toNat < n := by
    by_cases hne : left.toNat = right.toNat
    · rw [hne, Heap.swap_nodes_right]
      exact h.node_lt hr
    · rw [Heap.swap_nodes_left hne]
      exact h.node_lt hr
  have hrightLt : (m.toHeap.swap left.toNat right.toNat).nodes right.toNat < n := by
    rw [Heap.swap_nodes_right]
    exact h.node_lt hl
  obtain ⟨upper, hupper, hupper'⟩ := readWord_of_lt nodes hln
  obtain ⟨lower, hlower, hlower'⟩ := readWord_of_lt nodes hrn
  rw [hswapped] at hupper' hlower'
  obtain ⟨moved, hmoved, -, hmoved'⟩ := writeWord_of_lt m.positions (hupper'.trans_lt hleftLt) left
  obtain ⟨positions, hpositions, -, hpositions'⟩ :=
    writeWord_of_lt moved (hlower'.trans_lt hrightLt) right
  refine ⟨{ m with nodes := nodes, positions := positions }, ?_, ?_, rfl⟩
  · simp only [fdHeapSwap, hvalue, hother, hfirst, hnodes, hupper, hlower, hmoved, hpositions,
      Option.bind_eq_bind, Option.bind_some]
    rfl
  · have hplaced : positionsOf positions = (m.toHeap.swap left.toNat right.toNat).positions := by
      rw [hpositions', hmoved', hupper', hlower', positionOf_of_small (hln.trans h.small),
        positionOf_of_small (hrn.trans h.small)]
      rfl
    unfold toHeap
    rw [hswapped, hplaced]
    rfl

theorem Becomes.fits (h : m.Fits) {heap : FdHeap} {m' : HeapMemory n} (hm : m.Becomes heap m')
    (hlinked : heap.Linked) (hsize : heap.size ≤ n) : m'.Fits := by
  refine ⟨h.small, ?_, hm.toHeap.symm ▸ hlinked⟩
  rw [← hm.toHeap] at hsize
  exact hsize

theorem Becomes.distance {heap : FdHeap} {m' : HeapMemory n} (hm : m.Becomes heap m') :
    m'.distance = m.distance := congrArg wordAt hm.distances

theorem Becomes.refl (m : HeapMemory n) : m.Becomes m.toHeap m := ⟨rfl, rfl⟩

theorem word_pos_iff {i : UInt32} : 0 < i ↔ 0 < i.toNat := UInt32.lt_iff_toNat_lt

theorem parent_toNat {current : UInt32} (h : 0 < current.toNat) :
    ((current - 1) / 2).toNat = parent current.toNat := by
  have hone : (1 : UInt32) ≤ current := UInt32.le_iff_toNat_le.mpr h
  rw [UInt32.toNat_div, UInt32.toNat_sub_of_le _ _ hone]
  rfl

/-- Sifting up ends within as many rounds as the position says. -/
theorem Fits.up (h : m.Fits) (current : UInt32) (hi : current.toNat < m.size.toNat) {fuel : Nat}
    (hfuel : current.toNat ≤ fuel) :
    ∃ m', m.fdHeapUp fuel current = some m' ∧
      m.Becomes (m.toHeap.up (FrontierDirectorate.fdHeapLess m.distance) current.toNat) m' := by
  induction fuel generalizing m current with
  | zero =>
      have hzero : ¬ 0 < current.toNat := Nat.not_lt.mpr hfuel
      rw [fdHeapUp, if_neg (word_pos_iff.not.mpr hzero), Heap.up, if_neg hzero]
      exact ⟨m, rfl, .refl m⟩
  | succ fuel ih =>
      rw [fdHeapUp, Heap.up]
      by_cases hpos : 0 < current.toNat
      · have hparent := parent_toNat hpos
        have hlt := parent_lt hpos
        have hin : ((current - 1) / 2).toNat < m.size.toNat := by
          rw [hparent]
          exact hlt.trans hi
        obtain ⟨a, b, ha, hb, hless⟩ := h.less_nodes hi hin
        rw [hparent] at hless
        simp only [if_pos (word_pos_iff.mpr hpos), if_pos hpos, ha, hb, hless,
          Option.bind_eq_bind, Option.bind_some]
        by_cases hbelow : FrontierDirectorate.fdHeapLess m.distance (m.toHeap.nodes current.toNat)
            (m.toHeap.nodes (parent current.toNat)) = true
        · obtain ⟨swapped, hswap, hswapped⟩ := h.swap hi hin
          rw [hparent] at hswapped
          have hlinked := h.linked.swap hi (hlt.trans hi) hlt.ne'
          have hfits := hswapped.fits h hlinked h.size
          have hsize : swapped.size.toNat = m.size.toNat := congrArg Heap.size hswapped.toHeap
          obtain ⟨m', hrun, hm'⟩ := ih hfits ((current - 1) / 2) (hin.trans_eq hsize.symm)
            (by omega)
          rw [hswapped.toHeap, hswapped.distance, hparent] at hm'
          refine ⟨m', ?_, hm'.toHeap.trans ?_, hm'.distances.trans hswapped.distances⟩
          · simp only [if_pos hbelow, hswap, Option.bind_some, hrun]
          · exact (if_pos hbelow).symm
        · refine ⟨m, if_neg hbelow, ?_, rfl⟩
          exact (if_neg hbelow).symm
      · rw [if_neg (word_pos_iff.not.mpr hpos), if_neg hpos]
        exact ⟨m, rfl, .refl m⟩

theorem Fits.pick (h : m.Fits) (child : UInt32) {smallest : UInt32}
    (hi : smallest.toNat < m.size.toNat) :
    ∃ picked, m.pickSmaller child smallest = some picked ∧ picked.toNat < m.size.toNat ∧
      picked.toNat = if child.toNat < m.size.toNat ∧ FrontierDirectorate.fdHeapLess m.distance
        (m.toHeap.nodes child.toNat) (m.toHeap.nodes smallest.toNat) then child.toNat
          else smallest.toNat := by
  unfold pickSmaller
  by_cases hchild : child.toNat < m.size.toNat
  · obtain ⟨a, b, ha, hb, hless⟩ := h.less_nodes hchild hi
    simp only [if_pos (UInt32.lt_iff_toNat_lt.mpr hchild), ha, hb, hless, Option.bind_eq_bind,
      Option.bind_some]
    by_cases hbelow : FrontierDirectorate.fdHeapLess m.distance (m.toHeap.nodes child.toNat)
        (m.toHeap.nodes smallest.toNat) = true
    · exact ⟨child, if_pos hbelow, hchild, (if_pos ⟨hchild, hbelow⟩).symm⟩
    · exact ⟨smallest, if_neg hbelow, hi, (if_neg fun hand => hbelow hand.2).symm⟩
  · exact ⟨smallest, if_neg (UInt32.lt_iff_toNat_lt.not.mpr hchild), hi,
      (if_neg fun hand => hchild hand.1).symm⟩

/-- The children of a position in use. -/
theorem Fits.children (h : m.Fits) {current : UInt32} (hi : current.toNat < m.size.toNat) :
    (current * 2 + 1).toNat = current.toNat * 2 + 1 ∧
      (current * 2 + 1 + 1).toNat = current.toNat * 2 + 1 + 1 := by
  have hbound : current.toNat + 1 < 2147483648 :=
    (Nat.succ_le_of_lt (hi.trans_le h.size)).trans_lt h.small
  have htwo : (current * 2).toNat = current.toNat * 2 := by
    rw [UInt32.toNat_mul, show (2 : UInt32).toNat = 2 from rfl]
    exact Nat.mod_eq_of_lt (by omega)
  have hleft : (current * 2 + 1).toNat = current.toNat * 2 + 1 := by
    rw [UInt32.toNat_add, htwo, UInt32.toNat_one]
    exact Nat.mod_eq_of_lt (by omega)
  refine ⟨hleft, ?_⟩
  rw [UInt32.toNat_add, hleft, UInt32.toNat_one]
  exact Nat.mod_eq_of_lt (by omega)

/-- Sifting down ends within as many rounds as there are positions left. -/
theorem Fits.down (h : m.Fits) (current : UInt32) (hi : current.toNat < m.size.toNat) {fuel : Nat}
    (hfuel : m.size.toNat ≤ fuel + current.toNat) :
    ∃ m', m.fdHeapDown fuel current = some m' ∧
      m.Becomes (m.toHeap.down (FrontierDirectorate.fdHeapLess m.distance) current.toNat) m' := by
  induction fuel generalizing m current with
  | zero => exact absurd hi (by omega)
  | succ fuel ih =>
      obtain ⟨hleft, hright⟩ := h.children hi
      obtain ⟨first, hfirst, hfirstLt, hfirst'⟩ := h.pick (current * 2 + 1) hi
      obtain ⟨s, hs, hsLt, hs'⟩ := h.pick (current * 2 + 1 + 1) hfirstLt
      rw [hfirst', hleft, hright] at hs'
      have hsmallest : s.toNat = m.toHeap.smallest
          (FrontierDirectorate.fdHeapLess m.distance) current.toNat := hs'
      rw [fdHeapDown, Heap.down]
      simp only [hfirst, hs, Option.bind_eq_bind, Option.bind_some]
      by_cases hstop : s = current
      · rw [← hsmallest, hstop, if_pos rfl, if_pos rfl]
        exact ⟨m, rfl, .refl m⟩
      · have hne : s.toNat ≠ current.toNat := fun heq => hstop (UInt32.toNat_inj.mp heq)
        rw [← hsmallest, if_neg hstop, if_neg hne]
        obtain ⟨hpos, -, habove⟩ := Heap.smallest_child (FrontierDirectorate.fdHeapLess m.distance)
          (hsmallest ▸ hne)
        have hlt := parent_lt hpos
        rw [habove, ← hsmallest] at hlt
        obtain ⟨swapped, hswap, hswapped⟩ := h.swap hi hsLt
        have hlinked := h.linked.swap hi hsLt hlt.ne
        have hfits := hswapped.fits h hlinked h.size
        have hsize : swapped.size.toNat = m.size.toNat := congrArg Heap.size hswapped.toHeap
        obtain ⟨m', hrun, hm'⟩ := ih hfits s (hsLt.trans_eq hsize.symm) (by omega)
        rw [hswapped.toHeap, hswapped.distance] at hm'
        refine ⟨m', ?_, hm'.toHeap, hm'.distances.trans hswapped.distances⟩
        rw [hswap, Option.bind_some, hrun]

/-- There is room for a node that is not in the heap. -/
theorem Fits.room (h : m.Fits) {node : UInt32} (hnode : node.toNat < n)
    (hfree : m.toHeap.positions node.toNat = none) : m.size.toNat < n := by
  have hcard := h.linked.size_lt_card (s := Finset.range n)
    (fun i hi => Finset.mem_range.mpr (h.node_lt hi)) (Finset.mem_range.mpr hnode)
    (h.linked.not_holds_iff.mpr hfree)
  rwa [Finset.card_range] at hcard

theorem Fits.insert (h : m.Fits) {node : UInt32} (hnode : node.toNat < n)
    (hfree : m.toHeap.positions node.toNat = none) :
    ∃ m', m.fdHeapInsert node = some m' ∧ m.Becomes
      (m.toHeap.insert (FrontierDirectorate.fdHeapLess m.distance) node.toNat) m' := by
  have hroom := h.room hnode hfree
  have hsmall := h.small
  have hsize : (m.size + 1).toNat = m.size.toNat + 1 := by
    rw [UInt32.toNat_add, UInt32.toNat_one]
    exact Nat.mod_eq_of_lt (by omega)
  obtain ⟨nodes, hnodes, hnodes', -⟩ := writeWord_of_lt m.nodes hroom node
  obtain ⟨positions, hpositions, -, hpositions'⟩ := writeWord_of_lt m.positions hnode m.size
  have hgrown : toHeap { m with nodes := nodes, positions := positions, size := m.size + 1 } =
      m.toHeap.append node.toNat := by
    rw [positionOf_of_small (hroom.trans hsmall)] at hpositions'
    unfold toHeap
    rw [hnodes', hpositions', hsize]
    rfl
  have hfits : Fits { m with nodes := nodes, positions := positions, size := m.size + 1 } := by
    refine ⟨hsmall, hsize.trans_le hroom, ?_⟩
    rw [hgrown]
    exact Heap.append_linked h.linked hfree
  have hlast : m.size.toNat < (m.size + 1).toNat := hsize.symm ▸ Nat.lt_succ_self _
  obtain ⟨m', hrun, hm'⟩ := hfits.up m.size hlast hlast.le
  rw [hgrown] at hm'
  refine ⟨m', ?_, hm'.toHeap, hm'.distances⟩
  simp only [fdHeapInsert, hnodes, hpositions, Option.bind_eq_bind, Option.bind_some]
  exact hrun

theorem Fits.pop (h : m.Fits) (hsize : 0 < m.size.toNat) :
    ∃ result m', m.fdHeapPop = some (result, m') ∧
      result.toNat = (m.toHeap.pop (FrontierDirectorate.fdHeapLess m.distance)).1 ∧
      m.Becomes (m.toHeap.pop (FrontierDirectorate.fdHeapLess m.distance)).2 m' := by
  have hroom := h.size
  have hshrunk : (m.size - 1).toNat = m.size.toNat - 1 :=
    UInt32.toNat_sub_of_le _ _ (UInt32.le_iff_toNat_le.mpr hsize)
  obtain ⟨result, hresult, hresult'⟩ := h.nodeAt (i := 0) hsize
  have hresultLt := h.node_lt hsize
  obtain ⟨cleared, hcleared, -, hcleared'⟩ := writeWord_of_lt m.positions
    (hresult'.trans_lt hresultLt) noPosition
  have hnone : positionOf noPosition = none := if_pos rfl
  rw [hresult', hnone] at hcleared'
  rcases Nat.lt_or_eq_of_le (Nat.succ_le_of_lt hsize) with hmore | hone
  · have hend : (m.size - 1).toNat < n := by omega
    obtain ⟨last, hlast, hlast'⟩ := readWord_of_lt m.nodes hend
    rw [hshrunk] at hlast'
    obtain ⟨nodes, hnodes, hnodes', -⟩ := writeWord_of_lt m.nodes (i := 0) (hsize.trans_le hroom) last
    obtain ⟨first, hfirst, hfirst'⟩ := readWord_of_lt nodes (i := 0) (hsize.trans_le hroom)
    have hfirstEq : first.toNat = m.toHeap.nodes (m.size.toNat - 1) := by
      rw [hfirst', hnodes', hlast']
      exact Function.update_self ..
    have hfirstLt : first.toNat < n := by
      rw [hfirstEq]
      exact h.node_lt (by omega)
    obtain ⟨positions, hpositions, -, hpositions'⟩ := writeWord_of_lt cleared hfirstLt 0
    have hshape : toHeap { m with nodes := nodes, positions := positions, size := m.size - 1 } =
        m.toHeap.withLastAtRoot := by
      have hzero : positionOf 0 = some 0 := rfl
      rw [hfirstEq, hcleared', hzero] at hpositions'
      unfold toHeap
      rw [hnodes', hpositions', hlast', hshrunk]
      rfl
    have hfits : Fits { m with nodes := nodes, positions := positions, size := m.size - 1 } := by
      refine ⟨h.small, hend.le, ?_⟩
      rw [hshape]
      exact Heap.withLastAtRoot_linked h.linked hmore
    have hrest : 0 < (m.size - 1).toNat := by omega
    obtain ⟨m', hrun, hm'⟩ := hfits.down 0 hrest (Nat.le_add_right _ _)
    rw [hshape] at hm'
    rw [Heap.pop_of_more _ hmore]
    refine ⟨result, m', ?_, hresult', hm'.toHeap, hm'.distances⟩
    simp only [fdHeapPop, hresult, hcleared, hlast, hnodes, hfirst, hpositions,
      Option.bind_eq_bind, Option.bind_some, if_pos (word_pos_iff.mpr hrest)]
    rw [hrun]
    rfl
  · have hone : m.toHeap.size = 1 := hone.symm
    rw [Heap.pop_of_one _ hone]
    refine ⟨result, { m with positions := cleared, size := m.size - 1 }, ?_, hresult', ?_, rfl⟩
    · have hempty : ¬ 0 < m.size - 1 := by
        rw [word_pos_iff, hshrunk]
        exact Nat.not_lt.mpr (Nat.sub_eq_zero_of_le hone.le).le
      simp only [fdHeapPop, hresult, hcleared, Option.bind_eq_bind, Option.bind_some,
        if_neg hempty]
      rfl
    · unfold toHeap
      rw [hcleared', hshrunk]
      rfl

/-- Lowering a distance leaves the heap as it is, up to its order. -/
theorem Fits.lower (h : m.Fits) {node : UInt32} {p : Nat} (distance : UInt32)
    (hp : m.toHeap.positions node.toNat = some p) :
    ∃ lowered m', m.setDistance node distance = some lowered ∧
      lowered.distance = Function.update m.distance node.toNat distance.toNat ∧
      m.lowerDistance node distance = some m' ∧ lowered.Becomes
        (m.toHeap.up (FrontierDirectorate.fdHeapLess lowered.distance) p) m' := by
  have hnode : node.toNat < n := lt_of_positionsOf hp
  obtain ⟨hsize, -⟩ := h.linked.node _ _ hp
  obtain ⟨distances, hdistances, hdistances', -⟩ := writeWord_of_lt m.distances hnode distance
  obtain ⟨position, hread, -⟩ := readWord_of_lt m.positions hnode
  have hposition : position.toNat = p := by
    have hbind : (readWord m.positions node).bind positionOf = some p := hp
    rw [hread, Option.bind_some, positionOf_eq_some] at hbind
    exact hbind.2
  have hfits : Fits { m with distances := distances } := ⟨h.small, h.size, h.linked⟩
  have hin : position.toNat < m.size.toNat := hposition.trans_lt hsize
  obtain ⟨m', hrun, hm'⟩ := hfits.up position hin hin.le
  rw [hposition] at hm'
  have hset : m.setDistance node distance = some { m with distances := distances } := by
    simp only [setDistance, hdistances, Option.bind_eq_bind, Option.bind_some]
    rfl
  refine ⟨_, m', hset, hdistances', ?_, hm'⟩
  simp only [lowerDistance, hset, hread, Option.bind_eq_bind, Option.bind_some]
  exact hrun

end HeapMemory

end FrontierDirectorate
