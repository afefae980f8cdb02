import Mathlib
import FrontierDirectorate.Lib.IndexedHeap

/-!
# Laws of the indexed heap

The order of the heap comes from keys outside it. Both sift loops repair a heap that
is out of order at one node only: `UpReady` allows the edge above the node to be
wrong, `DownReady` the edges below it.
-/
namespace IndexedHeap

/-- The position above a position. -/
def parent (i : Nat) : Nat := (i - 1) / 2

theorem parent_lt {i : Nat} (h : 0 < i) : parent i < i := by
  unfold parent
  omega

theorem parent_eq_iff {i j : Nat} (h : 0 < i) : parent i = j ↔ i = j * 2 + 1 ∨ i = j * 2 + 2 := by
  unfold parent
  omega

/-- The order of two nodes by their keys. -/
def below {ν κ : Type} [LinearOrder κ] (key : ν → κ) (a b : ν) : Bool := decide (key a < key b)

namespace Heap

variable {ν κ : Type}

/-- A node is in the heap. -/
def Holds (heap : Heap ν) (v : ν) : Prop := ∃ i, i < heap.size ∧ heap.nodes i = v

/-- Positions and nodes are inverse to each other. -/
structure Linked (heap : Heap ν) : Prop where
  position : ∀ i, i < heap.size → heap.positions (heap.nodes i) = some i
  node : ∀ v i, heap.positions v = some i → i < heap.size ∧ heap.nodes i = v

namespace Linked

variable {heap : Heap ν}

theorem holds_iff (h : heap.Linked) {v : ν} : heap.Holds v ↔ ∃ i, heap.positions v = some i := by
  constructor
  · rintro ⟨i, hi, rfl⟩
    exact ⟨i, h.position i hi⟩
  · rintro ⟨i, hi⟩
    exact ⟨i, h.node v i hi⟩

theorem not_holds_iff (h : heap.Linked) {v : ν} : ¬ heap.Holds v ↔ heap.positions v = none := by
  rw [h.holds_iff, ← Option.ne_none_iff_exists', not_ne_iff]

theorem inj (h : heap.Linked) {i j : Nat} (hi : i < heap.size) (hj : j < heap.size)
    (heq : heap.nodes i = heap.nodes j) : i = j := by
  have hposition := h.position i hi
  rw [heq, h.position j hj] at hposition
  exact (Option.some.inj hposition).symm

end Linked

section swap

variable [DecidableEq ν] {heap : Heap ν} {left right : Nat}

theorem swap_nodes_left (hne : left ≠ right) :
    (heap.swap left right).nodes left = heap.nodes right := by
  simp [swap, Function.update_of_ne hne]

@[simp] theorem swap_nodes_right : (heap.swap left right).nodes right = heap.nodes left := by
  simp [swap]

theorem swap_nodes_of_ne {i : Nat} (hleft : i ≠ left) (hright : i ≠ right) :
    (heap.swap left right).nodes i = heap.nodes i := by
  simp [swap, Function.update_of_ne hleft, Function.update_of_ne hright]

theorem swap_positions (hne : left ≠ right) : (heap.swap left right).positions =
    Function.update (Function.update heap.positions (heap.nodes right) (some left))
      (heap.nodes left) (some right) := by
  simp [swap, Function.update_of_ne hne]

/-- Where a swap takes the node at a position. -/
theorem Linked.swap (h : heap.Linked) (hl : left < heap.size) (hr : right < heap.size)
    (hne : left ≠ right) : (heap.swap left right).Linked := by
  have hnodes : heap.nodes right ≠ heap.nodes left := fun heq => hne (h.inj hr hl heq).symm
  constructor
  · intro i hi
    rw [swap_positions hne]
    by_cases hright : i = right
    · subst hright
      rw [swap_nodes_right, Function.update_self]
    · by_cases hleft : i = left
      · subst hleft
        rw [swap_nodes_left hne, Function.update_of_ne hnodes, Function.update_self]
      · rw [swap_nodes_of_ne hleft hright,
          Function.update_of_ne fun heq => hleft (h.inj hi hl heq),
          Function.update_of_ne fun heq => hright (h.inj hi hr heq)]
        exact h.position i hi
  · intro v i hi
    rw [swap_positions hne] at hi
    by_cases hvleft : v = heap.nodes left
    · subst hvleft
      rw [Function.update_self] at hi
      obtain rfl := Option.some.inj hi
      exact ⟨hr, swap_nodes_right⟩
    · rw [Function.update_of_ne hvleft] at hi
      by_cases hvright : v = heap.nodes right
      · subst hvright
        rw [Function.update_self] at hi
        obtain rfl := Option.some.inj hi
        exact ⟨hl, swap_nodes_left hne⟩
      · rw [Function.update_of_ne hvright] at hi
        obtain ⟨hsize, hnode⟩ := h.node v i hi
        refine ⟨hsize, ?_⟩
        rw [swap_nodes_of_ne, hnode]
        · rintro rfl
          exact hvleft hnode.symm
        · rintro rfl
          exact hvright hnode.symm

/-- A swap moves nodes and adds none. -/
theorem Linked.swap_holds (h : heap.Linked) (hl : left < heap.size) (hr : right < heap.size)
    (hne : left ≠ right) (v : ν) : (heap.swap left right).Holds v ↔ heap.Holds v := by
  rw [(h.swap hl hr hne).holds_iff, h.holds_iff, swap_positions hne]
  by_cases hvleft : v = heap.nodes left
  · subst hvleft
    rw [Function.update_self, h.position left hl]
    simp
  · rw [Function.update_of_ne hvleft]
    by_cases hvright : v = heap.nodes right
    · subst hvright
      rw [Function.update_self, h.position right hr]
      simp
    · rw [Function.update_of_ne hvright]

end swap

section order

variable [LinearOrder κ] (key : ν → κ) (heap : Heap ν)

/-- No node is below the node above it. -/
def Ordered : Prop :=
  ∀ i, 0 < i → i < heap.size → key (heap.nodes (parent i)) ≤ key (heap.nodes i)

/-- What is below the node at `hole` is also below what is above it. -/
def Bridged (hole : Nat) : Prop :=
  0 < hole → ∀ i, 0 < i → i < heap.size → parent i = hole →
    key (heap.nodes (parent hole)) ≤ key (heap.nodes i)

/-- In order except for the edge above `hole`. -/
structure UpReady (hole : Nat) : Prop where
  except : ∀ i, 0 < i → i < heap.size → i ≠ hole →
    key (heap.nodes (parent i)) ≤ key (heap.nodes i)
  bridged : heap.Bridged key hole

/-- In order except for the edges below `hole`. -/
structure DownReady (hole : Nat) : Prop where
  except : ∀ i, 0 < i → i < heap.size → parent i ≠ hole →
    key (heap.nodes (parent i)) ≤ key (heap.nodes i)
  bridged : heap.Bridged key hole

variable {key heap}

/-- The keys of other nodes do not matter. -/
theorem Ordered.congr (h : heap.Ordered key) {key' : ν → κ}
    (hsame : ∀ i, i < heap.size → key' (heap.nodes i) = key (heap.nodes i)) :
    heap.Ordered key' := by
  intro i hpos hi
  rw [hsame i hi, hsame _ ((parent_lt hpos).trans hi)]
  exact h i hpos hi

/-- The root has the least key. -/
theorem Ordered.root_le (h : heap.Ordered key) {i : Nat} (hi : i < heap.size) :
    key (heap.nodes 0) ≤ key (heap.nodes i) := by
  induction i using Nat.strong_induction_on with
  | _ i ih =>
      rcases Nat.eq_zero_or_pos i with rfl | hpos
      · exact le_refl _
      · have hparent := parent_lt hpos
        exact (ih (parent i) hparent (hparent.trans hi)).trans (h i hpos hi)

theorem UpReady.stop {current : Nat} (h : heap.UpReady key current)
    (hstop : 0 < current → ¬ key (heap.nodes current) < key (heap.nodes (parent current))) :
    heap.Ordered key := by
  intro i hpos hi
  by_cases hcurrent : i = current
  · subst hcurrent
    exact not_lt.mp (hstop hpos)
  · exact h.except i hpos hi hcurrent

theorem DownReady.stop {current : Nat} (h : heap.DownReady key current)
    (hstop : ∀ i, 0 < i → i < heap.size → parent i = current →
      key (heap.nodes current) ≤ key (heap.nodes i)) : heap.Ordered key := by
  intro i hpos hi
  by_cases hcurrent : parent i = current
  · rw [hcurrent]
    exact hstop i hpos hi hcurrent
  · exact h.except i hpos hi hcurrent

/-- Lowering one key leaves a heap to be sifted up. -/
theorem Ordered.lower (h : heap.Ordered key) (hlinked : heap.Linked) {key' : ν → κ} {p : Nat}
    (hlower : key' (heap.nodes p) ≤ key (heap.nodes p))
    (hsame : ∀ v, v ≠ heap.nodes p → key' v = key v) (hp : p < heap.size) :
    heap.UpReady key' p := by
  have hother : ∀ i, i < heap.size → i ≠ p → key' (heap.nodes i) = key (heap.nodes i) :=
    fun i hi hne => hsame _ fun heq => hne (hlinked.inj hi hp heq)
  have hle : ∀ i, i < heap.size → key' (heap.nodes i) ≤ key (heap.nodes i) := by
    intro i hi
    by_cases hip : i = p
    · rw [hip]
      exact hlower
    · exact (hother i hi hip).le
  constructor
  · intro i hpos hi hne
    have hparent := (parent_lt hpos).trans hi
    rw [hother i hi hne]
    exact (hle _ hparent).trans (h i hpos hi)
  · intro hpos i hipos hi hip
    have hparent := parent_lt hpos
    have hbelow := parent_lt hipos
    rw [hother i hi (by omega)]
    have hedge := h i hipos hi
    rw [hip] at hedge
    exact (hle _ (hparent.trans hp)).trans ((h p hpos hp).trans hedge)

end order

section up

variable [LinearOrder κ] [DecidableEq ν] {key : ν → κ} {heap : Heap ν} {current : Nat}

theorem UpReady.step (h : heap.UpReady key current) (hpos : 0 < current)
    (hsize : current < heap.size)
    (hlt : key (heap.nodes current) < key (heap.nodes (parent current))) :
    (heap.swap current (parent current)).UpReady key (parent current) := by
  have hparent := parent_lt hpos
  have hne : current ≠ parent current := by omega
  constructor
  · intro i hi hisize hihole
    by_cases hic : i = current
    · subst hic
      rw [swap_nodes_right, swap_nodes_left hne]
      exact hlt.le
    · rw [swap_nodes_of_ne hic hihole]
      by_cases hpc : parent i = current
      · rw [hpc, swap_nodes_left hne]
        exact h.bridged hpos i hi hisize hpc
      · have hold := h.except i hi hisize hic
        by_cases hpp : parent i = parent current
        · rw [hpp, swap_nodes_right]
          rw [hpp] at hold
          exact hlt.le.trans hold
        · rw [swap_nodes_of_ne hpc hpp]
          exact hold
  · intro hgrand i hi hisize hip
    have habove := parent_lt hgrand
    have hedge := h.except (parent current) hgrand (hparent.trans hsize) hne.symm
    rw [swap_nodes_of_ne (by omega) (by omega)]
    by_cases hic : i = current
    · subst hic
      rw [swap_nodes_left hne]
      exact hedge
    · have hbelow := parent_lt hi
      rw [swap_nodes_of_ne hic (by omega)]
      have hold := h.except i hi hisize hic
      rw [hip] at hold
      exact hedge.trans hold

/-- What sifting leaves of a heap: the nodes it holds, linked and in order. -/
structure Sifted (key : ν → κ) (before after : Heap ν) : Prop where
  linked : after.Linked
  ordered : after.Ordered key
  size : after.size = before.size
  holds : ∀ v, after.Holds v ↔ before.Holds v

theorem up_sifted (hlinked : heap.Linked) (hready : heap.UpReady key current)
    (hsize : current < heap.size) : Sifted key heap (heap.up (below key) current) := by
  induction current using Nat.strong_induction_on generalizing heap with
  | _ current ih =>
      have hswap : 0 < current → below key (heap.nodes current) (heap.nodes (parent current)) →
          Sifted key heap ((heap.swap current (parent current)).up (below key) (parent current)) := by
        intro hpos hbelow
        have hparent := parent_lt hpos
        have hin : parent current < heap.size := hparent.trans hsize
        have hrest := ih (parent current) hparent (hlinked.swap hsize hin hparent.ne')
          (hready.step hpos hsize (of_decide_eq_true hbelow)) hin
        exact ⟨hrest.linked, hrest.ordered, hrest.size, fun v =>
          (hrest.holds v).trans (hlinked.swap_holds hsize hin hparent.ne' v)⟩
      rw [up]
      by_cases hpos : 0 < current
      · rw [if_pos hpos]
        by_cases hbelow : below key (heap.nodes current) (heap.nodes (parent current)) = true
        · exact (if_pos hbelow).symm ▸ hswap hpos hbelow
        · exact (if_neg hbelow).symm ▸ ⟨hlinked, hready.stop fun _ hlt =>
            hbelow (decide_eq_true hlt), rfl, fun v => Iff.rfl⟩
      · rw [if_neg hpos]
        exact ⟨hlinked, hready.stop fun h => absurd h hpos, rfl, fun v => Iff.rfl⟩

end up

section down

variable [LinearOrder κ] {key : ν → κ} {heap : Heap ν} {current : Nat}

/-- The smallest of a node and its children is above none of them. -/
theorem smallest_le (key : ν → κ) (heap : Heap ν) (current : Nat) :
    key (heap.nodes (heap.smallest (below key) current)) ≤
      key (heap.nodes current) ∧
    ∀ i, 0 < i → i < heap.size → parent i = current →
      key (heap.nodes (heap.smallest (below key) current)) ≤ key (heap.nodes i) := by
  have hpick : ∀ a b : Nat,
      key (heap.nodes (if b < heap.size ∧ below key (heap.nodes b) (heap.nodes a) then b else a)) ≤
        key (heap.nodes a) ∧
      (b < heap.size →
        key (heap.nodes (if b < heap.size ∧ below key (heap.nodes b) (heap.nodes a) then b else a)) ≤
          key (heap.nodes b)) := by
    intro a b
    by_cases hb : b < heap.size ∧ below key (heap.nodes b) (heap.nodes a)
    · rw [if_pos hb]
      exact ⟨(of_decide_eq_true hb.2).le, fun _ => le_refl _⟩
    · rw [if_neg hb]
      exact ⟨le_refl _, fun hin => not_lt.mp fun hlt => hb ⟨hin, decide_eq_true hlt⟩⟩
  obtain ⟨hself, hleft⟩ := hpick current (current * 2 + 1)
  obtain ⟨hfirst, hright⟩ := hpick (if current * 2 + 1 < heap.size ∧
    below key (heap.nodes (current * 2 + 1)) (heap.nodes current) then current * 2 + 1
      else current) (current * 2 + 1 + 1)
  refine ⟨hfirst.trans hself, fun i hpos hi hparent => ?_⟩
  rcases (parent_eq_iff hpos).mp hparent with rfl | rfl
  · exact hfirst.trans (hleft hi)
  · exact hright hi

/-- The smallest child, where it is not the node itself. -/
theorem smallest_child (less : ν → ν → Bool) (hne : heap.smallest less current ≠ current) :
    0 < heap.smallest less current ∧ heap.smallest less current < heap.size ∧
      parent (heap.smallest less current) = current := by
  obtain heq | ⟨heq, hlt⟩ | ⟨heq, hlt⟩ := smallest_cases less heap current
  · exact absurd heq hne
  · rw [heq]
    exact ⟨Nat.succ_pos _, hlt, (parent_eq_iff (Nat.succ_pos _)).mpr (.inl rfl)⟩
  · rw [heq]
    exact ⟨Nat.succ_pos _, hlt, (parent_eq_iff (Nat.succ_pos _)).mpr (.inr rfl)⟩

variable [DecidableEq ν]

theorem DownReady.step (h : heap.DownReady key current) {s : Nat} (hpos : 0 < s)
    (hs : s < heap.size) (hparent : parent s = current)
    (hself : key (heap.nodes s) ≤ key (heap.nodes current))
    (hleast : ∀ i, 0 < i → i < heap.size → parent i = current →
      key (heap.nodes s) ≤ key (heap.nodes i)) :
    (heap.swap current s).DownReady key s := by
  have hlt : current < s := hparent ▸ parent_lt hpos
  constructor
  · intro i hi hisize his
    by_cases hic : i = current
    · subst hic
      have habove := parent_lt hi
      rw [swap_nodes_left hlt.ne, swap_nodes_of_ne (by omega) (by omega)]
      exact h.bridged hi s hpos hs hparent
    · by_cases hpc : parent i = current
      · rw [hpc, swap_nodes_left hlt.ne]
        by_cases hisame : i = s
        · rw [hisame, swap_nodes_right]
          exact hself
        · rw [swap_nodes_of_ne hic hisame]
          exact hleast i hi hisize hpc
      · have hne : i ≠ s := fun heq => hpc (heq ▸ hparent)
        rw [swap_nodes_of_ne hic hne, swap_nodes_of_ne hpc his]
        exact h.except i hi hisize hpc
  · intro _ i hi hisize his
    have hbelow := parent_lt hi
    rw [hparent, swap_nodes_left hlt.ne, swap_nodes_of_ne (by omega) (by omega)]
    have hedge := h.except i hi hisize (by omega)
    rwa [his] at hedge

theorem down_sifted (hlinked : heap.Linked) (hready : heap.DownReady key current)
    (hsize : current < heap.size) : Sifted key heap (heap.down (below key) current) := by
  induction hn : heap.size - current using Nat.strong_induction_on generalizing heap current with
  | _ n ih =>
      subst hn
      obtain ⟨hself, hleast⟩ := smallest_le key heap current
      rw [down]
      by_cases hstop : heap.smallest (below key) current = current
      · rw [if_pos hstop]
        refine ⟨hlinked, hready.stop fun i hpos hi hparent => ?_, rfl, fun v => Iff.rfl⟩
        have hle := hleast i hpos hi hparent
        rwa [hstop] at hle
      · rw [if_neg hstop]
        obtain ⟨hpos, hin, hparent⟩ := smallest_child (below key) hstop
        have hlt : current < heap.smallest (below key) current := by
          have habove := parent_lt hpos
          rwa [hparent] at habove
        have hrest := ih _ (by rw [swap_size]; omega) (hlinked.swap hsize hin hlt.ne)
          (hready.step hpos hin hparent hself hleast) hin rfl
        exact ⟨hrest.linked, hrest.ordered, hrest.size, fun v =>
          (hrest.holds v).trans (hlinked.swap_holds hsize hin hlt.ne v)⟩

end down

section queue

variable [LinearOrder κ] {key : ν → κ} {heap : Heap ν} {v : ν}

/-- A heap that is linked and in order. -/
structure Valid (key : ν → κ) (heap : Heap ν) : Prop where
  linked : heap.Linked
  ordered : heap.Ordered key

theorem Sifted.valid {before after : Heap ν} (h : Sifted key before after) : Valid key after :=
  ⟨h.linked, h.ordered⟩

variable [DecidableEq ν]

/-- The heap with a node behind its last one. -/
def append (heap : Heap ν) (v : ν) : Heap ν where
  nodes := Function.update heap.nodes heap.size v
  positions := Function.update heap.positions v (some heap.size)
  size := heap.size + 1

theorem append_nodes_of_lt {i : Nat} (hi : i < heap.size) :
    (heap.append v).nodes i = heap.nodes i := Function.update_of_ne hi.ne _ _

theorem append_nodes_last : (heap.append v).nodes heap.size = v := by
  simp [append]

theorem append_linked (h : heap.Linked) (hv : heap.positions v = none) :
    (heap.append v).Linked := by
  have hfresh : ∀ i, i < heap.size → heap.nodes i ≠ v := by
    rintro i hi rfl
    rw [h.position i hi] at hv
    cases hv
  have hplaced : (heap.append v).positions v = some heap.size := by
    simp [Heap.append]
  have hkept : ∀ u, u ≠ v → (heap.append v).positions u = heap.positions u :=
    fun u hu => Function.update_of_ne hu _ _
  constructor
  · intro i hi
    rcases Nat.lt_succ_iff_lt_or_eq.mp hi with hlt | rfl
    · rw [append_nodes_of_lt hlt, hkept _ (hfresh i hlt)]
      exact h.position i hlt
    · rw [append_nodes_last, hplaced]
  · intro u i hi
    by_cases huv : u = v
    · rw [huv, hplaced] at hi
      obtain rfl := Option.some.inj hi
      exact ⟨Nat.lt_succ_self _, append_nodes_last.trans huv.symm⟩
    · rw [hkept u huv] at hi
      obtain ⟨hsize, hnode⟩ := h.node u i hi
      exact ⟨hsize.trans (Nat.lt_succ_self _), (append_nodes_of_lt hsize).trans hnode⟩

theorem append_ready (h : heap.Ordered key) : (heap.append v).UpReady key heap.size := by
  constructor
  · intro i hpos hi hne
    have hlt : i < heap.size := lt_of_le_of_ne (Nat.lt_succ_iff.mp hi) hne
    rw [append_nodes_of_lt hlt, append_nodes_of_lt ((parent_lt hpos).trans hlt)]
    exact h i hpos hlt
  · intro hpos i hipos hi hparent
    have hbelow := parent_lt hipos
    have hi : i < heap.size + 1 := hi
    omega

/-- Inserting a node. -/
theorem insert_valid (h : Valid key heap) (hv : heap.positions v = none) :
    Valid key (heap.insert (below key) v) ∧ (heap.insert (below key) v).size = heap.size + 1 ∧
      ∀ u, (heap.insert (below key) v).Holds u ↔ u = v ∨ heap.Holds u := by
  have hsifted := up_sifted (append_linked h.linked hv) (append_ready h.ordered) (Nat.lt_succ_self heap.size)
  refine ⟨hsifted.valid, hsifted.size, fun u => (hsifted.holds u).trans ?_⟩
  constructor
  · rintro ⟨i, hi, rfl⟩
    rcases Nat.lt_succ_iff_lt_or_eq.mp hi with hlt | rfl
    · exact .inr ⟨i, hlt, (append_nodes_of_lt hlt).symm⟩
    · exact .inl append_nodes_last
  · rintro (rfl | ⟨i, hi, rfl⟩)
    · exact ⟨heap.size, Nat.lt_succ_self _, append_nodes_last⟩
    · exact ⟨i, hi.trans (Nat.lt_succ_self _), append_nodes_of_lt hi⟩

/-- A heap of some nodes of a set that lacks one of them is smaller than the set. -/
theorem Linked.size_lt_card (h : heap.Linked) {s : Finset ν} (hs : ∀ i, i < heap.size →
    heap.nodes i ∈ s) (hv : v ∈ s) (hfree : ¬ heap.Holds v) : heap.size < s.card := by
  have hcard : ((Finset.range heap.size).image heap.nodes).card = heap.size := by
    rw [Finset.card_image_of_injOn, Finset.card_range]
    intro i hi j hj heq
    exact h.inj (Finset.mem_range.mp hi) (Finset.mem_range.mp hj) heq
  rw [← hcard]
  refine Finset.card_lt_card (Finset.ssubset_iff_subset_ne.mpr ⟨?_, ?_⟩)
  · intro u hu
    obtain ⟨i, hi, rfl⟩ := Finset.mem_image.mp hu
    exact hs i (Finset.mem_range.mp hi)
  · intro heq
    rw [← heq] at hv
    obtain ⟨i, hi, hnode⟩ := Finset.mem_image.mp hv
    exact hfree ⟨i, Finset.mem_range.mp hi, hnode⟩

/-- Lowering the key of a node and sifting it up. -/
theorem lower_valid (h : Valid key heap) {key' : ν → κ} {p : Nat} (hp : heap.positions v = some p)
    (hlower : key' v ≤ key v) (hsame : ∀ u, u ≠ v → key' u = key u) :
    Sifted key' heap (heap.up (below key') p) := by
  obtain ⟨hsize, rfl⟩ := h.linked.node v p hp
  exact up_sifted h.linked (h.ordered.lower h.linked hlower hsame hsize) hsize

/-- The heap with the last node in the place of the root. -/
def withLastAtRoot (heap : Heap ν) : Heap ν where
  nodes := Function.update heap.nodes 0 (heap.nodes (heap.size - 1))
  positions := Function.update (Function.update heap.positions (heap.nodes 0) none)
    (heap.nodes (heap.size - 1)) (some 0)
  size := heap.size - 1

theorem pop_of_more (less : ν → ν → Bool) (h : 1 < heap.size) :
    heap.pop less = (heap.nodes 0, heap.withLastAtRoot.down less 0) :=
  if_pos (show 0 < heap.size - 1 by omega)

theorem pop_of_one (less : ν → ν → Bool) (h : heap.size = 1) :
    heap.pop less = (heap.nodes 0, { heap with
      positions := Function.update heap.positions (heap.nodes 0) none
      size := heap.size - 1 }) :=
  if_neg (show ¬ 0 < heap.size - 1 by omega)

theorem withLastAtRoot_nodes_zero :
    heap.withLastAtRoot.nodes 0 = heap.nodes (heap.size - 1) := by
  simp [withLastAtRoot]

theorem withLastAtRoot_nodes_of_ne {i : Nat} (hi : i ≠ 0) :
    heap.withLastAtRoot.nodes i = heap.nodes i := Function.update_of_ne hi _ _

theorem withLastAtRoot_linked (h : heap.Linked) (hsize : 1 < heap.size) :
    heap.withLastAtRoot.Linked := by
  have hcount : heap.withLastAtRoot.size = heap.size - 1 := rfl
  have hpositions : heap.withLastAtRoot.positions = Function.update
    (Function.update heap.positions (heap.nodes 0) none) (heap.nodes (heap.size - 1)) (some 0) := rfl
  have hend : heap.size - 1 < heap.size := by omega
  constructor
  · intro i hi
    rw [hcount] at hi
    rcases Nat.eq_zero_or_pos i with rfl | hipos
    · rw [withLastAtRoot_nodes_zero, hpositions, Function.update_self]
    · have hin : i < heap.size := by omega
      rw [withLastAtRoot_nodes_of_ne hipos.ne', hpositions, Function.update_of_ne,
        Function.update_of_ne]
      · exact h.position i hin
      · exact fun heq => hipos.ne' (h.inj hin (by omega) heq)
      · intro heq
        have := h.inj hin hend heq
        omega
  · intro u i hi
    rw [hpositions] at hi
    by_cases hlast : u = heap.nodes (heap.size - 1)
    · rw [hlast, Function.update_self] at hi
      obtain rfl := Option.some.inj hi
      exact ⟨by omega, withLastAtRoot_nodes_zero.trans hlast.symm⟩
    · rw [Function.update_of_ne hlast] at hi
      by_cases hfirst : u = heap.nodes 0
      · rw [hfirst, Function.update_self] at hi
        cases hi
      · rw [Function.update_of_ne hfirst] at hi
        obtain ⟨hin, hnode⟩ := h.node u i hi
        have hi0 : i ≠ 0 := by
          rintro rfl
          exact hfirst hnode.symm
        have hiend : i ≠ heap.size - 1 := by
          rintro rfl
          exact hlast hnode.symm
        exact ⟨by omega, (withLastAtRoot_nodes_of_ne hi0).trans hnode⟩

theorem withLastAtRoot_ready (h : heap.Ordered key) : heap.withLastAtRoot.DownReady key 0 := by
  refine ⟨fun i hipos hi hparent => ?_, fun hzero => absurd hzero (lt_irrefl 0)⟩
  have hi : i < heap.size - 1 := hi
  rw [withLastAtRoot_nodes_of_ne hparent, withLastAtRoot_nodes_of_ne hipos.ne']
  exact h i hipos (by omega)

theorem withLastAtRoot_holds (h : heap.Linked) (hsize : 1 < heap.size) (u : ν) :
    heap.withLastAtRoot.Holds u ↔ heap.Holds u ∧ u ≠ heap.nodes 0 := by
  have hpos : 0 < heap.size := by omega
  have hend : heap.size - 1 < heap.size := by omega
  constructor
  · rintro ⟨i, hi, rfl⟩
    have hi : i < heap.size - 1 := hi
    rcases Nat.eq_zero_or_pos i with rfl | hipos
    · rw [withLastAtRoot_nodes_zero]
      refine ⟨⟨_, hend, rfl⟩, fun heq => ?_⟩
      have := h.inj hend hpos heq
      omega
    · have hin : i < heap.size := by omega
      rw [withLastAtRoot_nodes_of_ne hipos.ne']
      exact ⟨⟨i, hin, rfl⟩, fun heq => hipos.ne' (h.inj hin hpos heq)⟩
  · rintro ⟨⟨i, hi, rfl⟩, hfirst⟩
    by_cases hiend : i = heap.size - 1
    · rw [hiend]
      exact ⟨0, Nat.sub_pos_of_lt hsize, withLastAtRoot_nodes_zero⟩
    · have hi0 : i ≠ 0 := by
        rintro rfl
        exact hfirst rfl
      exact ⟨i, show i < heap.size - 1 by omega, withLastAtRoot_nodes_of_ne hi0⟩

/-- The heap without its only node. -/
theorem pop_one_valid (h : heap.Linked) (hone : heap.size = 1) (less : ν → ν → Bool) :
    Valid key (heap.pop less).2 ∧ (heap.pop less).2.size = heap.size - 1 ∧
      ∀ u, (heap.pop less).2.Holds u ↔ heap.Holds u ∧ u ≠ heap.nodes 0 := by
  have hnone : ∀ i, ¬ i < heap.size - 1 := by omega
  have hroot : ∀ u, heap.Holds u → u = heap.nodes 0 := by
    rintro u ⟨i, hi, rfl⟩
    have hi0 : i = 0 := by omega
    rw [hi0]
  rw [pop_of_one _ hone]
  refine ⟨⟨⟨fun i hi => absurd hi (hnone i), fun u i hi => ?_⟩,
    fun i _ hi => absurd hi (hnone i)⟩, rfl, fun u => ⟨?_, ?_⟩⟩
  · have hi : Function.update heap.positions (heap.nodes 0) none u = some i := hi
    by_cases hfirst : u = heap.nodes 0
    · rw [hfirst, Function.update_self] at hi
      cases hi
    · rw [Function.update_of_ne hfirst] at hi
      exact absurd (hroot u ⟨i, h.node u i hi⟩) hfirst
  · rintro ⟨i, hi, -⟩
    exact absurd hi (hnone i)
  · rintro ⟨hu, hfirst⟩
    exact absurd (hroot u hu) hfirst

theorem pop_fst (less : ν → ν → Bool) : (heap.pop less).1 = heap.nodes 0 := by
  unfold pop
  by_cases hmore : 0 < heap.size - 1
  · exact congrArg Prod.fst (if_pos hmore)
  · exact congrArg Prod.fst (if_neg hmore)

/-- Popping takes out a node of least key. -/
theorem pop_valid (h : Valid key heap) (hsize : 0 < heap.size) :
    heap.Holds (heap.pop (below key)).1 ∧
      (∀ u, heap.Holds u → key (heap.pop (below key)).1 ≤ key u) ∧
      Valid key (heap.pop (below key)).2 ∧ (heap.pop (below key)).2.size = heap.size - 1 ∧
      ∀ u, (heap.pop (below key)).2.Holds u ↔ heap.Holds u ∧ u ≠ (heap.pop (below key)).1 := by
  rw [pop_fst]
  refine ⟨⟨0, hsize, rfl⟩, ?_, ?_⟩
  · rintro u ⟨i, hi, rfl⟩
    exact h.ordered.root_le hi
  · rcases Nat.lt_or_eq_of_le hsize with hmore | hone
    · rw [pop_of_more _ hmore]
      have hsifted := down_sifted (withLastAtRoot_linked h.linked hmore)
        (withLastAtRoot_ready h.ordered) (Nat.sub_pos_of_lt hmore)
      exact ⟨hsifted.valid, hsifted.size,
        fun u => (hsifted.holds u).trans (withLastAtRoot_holds h.linked hmore u)⟩
    · exact pop_one_valid h.linked hone.symm _

end queue

end Heap

end IndexedHeap
