import Mathlib
import FrontierDirectorate.Core.HeapMemoryLaws
import FrontierDirectorate.Lib.ShortestPath

/-!
# The search of the road

The rounds of `fd_construct_road` as a search of cheapest ways: a popped tile is
settled, and the tiles in the heap are those that are reached and not settled yet.
-/
namespace FrontierDirectorate
open IndexedHeap ShortestPath

section grid

variable (n : Nat) (cost : Nat → Nat) (adjacent : Nat → List Nat)

/-- A tile that a road may enter. -/
def Enterable (index : Nat) : Prop := index < n ∧ cost index ≠ uint32Max

/-- A step of the search. -/
def Enters (index next : Nat) : Prop :=
  Enterable n cost index ∧ next ∈ adjacent index ∧ cost next ≠ uint32Max

/-- Few tiles, whose neighbours are on the map and whose costs are small. -/
structure RoadGrid : Prop where
  small : n ≤ 32768
  near : ∀ index < n, ∀ next ∈ adjacent index, next < n
  cost : ∀ index, cost index ≠ uint32Max → 0 < cost index ∧ cost index ≤ 29

end grid

namespace RoadSearch

/-- `distances` and `previous` as labels. -/
def labels (s : RoadSearch) : Labels Nat where
  reached v := s.distances v ≠ uint32Max
  dist := s.distances
  previous := s.previous

/-- The stores in front of the heap operation of `fd_relax_road_neighbor`. -/
def relaxed (s : RoadSearch) (cost : Nat → Nat) (current neighbor : Nat) : RoadSearch :=
  { s with
    distances := Function.update s.distances neighbor (s.distances current + cost neighbor)
    previous := Function.update s.previous neighbor current }

theorem labels_relaxed {s : RoadSearch} {cost : Nat → Nat} {current neighbor : Nat}
    (h : s.distances current + cost neighbor ≠ uint32Max) :
    (s.relaxed cost current neighbor).labels = s.labels.relax cost current neighbor := by
  have hreached : ∀ v, Function.update s.distances neighbor (s.distances current + cost neighbor) v
      ≠ uint32Max ↔ s.distances v ≠ uint32Max ∨ v = neighbor := by
    intro v
    by_cases hv : v = neighbor
    · rw [hv, Function.update_self]
      exact iff_of_true h (.inr rfl)
    · rw [Function.update_of_ne hv, or_iff_left hv]
  simp only [labels, Labels.relax, relaxed, Labels.mk.injEq, and_self, and_true]
  exact funext fun v => propext (hreached v)

/-- Pushing a tile, or sifting it up where it is. -/
def offer (s : RoadSearch) (neighbor : Nat) : RoadSearch :=
  match s.heap.positions neighbor with
  | none => s.fdHeapInsert neighbor
  | some position => s.fdHeapUp position

theorem offer_labels (s : RoadSearch) (neighbor : Nat) : (s.offer neighbor).labels = s.labels := by
  unfold offer
  cases s.heap.positions neighbor <;> rfl

/-- A tile whose distance has not grown is offered to the heap. -/
theorem offer_heap {s : RoadSearch} (cost : Nat → Nat) (current : Nat) {neighbor : Nat}
    (h : Heap.Valid (roadKey s.distances) s.heap)
    (hle : s.distances current + cost neighbor ≤ s.distances neighbor) :
    Heap.Valid (roadKey (s.relaxed cost current neighbor).distances)
        ((s.relaxed cost current neighbor).offer neighbor).heap ∧
      ∀ v, ((s.relaxed cost current neighbor).offer neighbor).heap.Holds v ↔
        v = neighbor ∨ s.heap.Holds v := by
  have hother : ∀ v, v ≠ neighbor →
      roadKey (s.relaxed cost current neighbor).distances v = roadKey s.distances v := by
    intro v hv
    exact congrArg (fun d => toLex (d, v)) (Function.update_of_ne hv _ _)
  cases hposition : s.heap.positions neighbor with
  | none =>
      have hoffer : ((s.relaxed cost current neighbor).offer neighbor).heap =
          s.heap.insert (below (roadKey (s.relaxed cost current neighbor).distances)) neighbor := by
        unfold offer
        rw [show (s.relaxed cost current neighbor).heap.positions neighbor = none from hposition,
          ← fdHeapLess_eq]
        rfl
      have hfree := h.linked.not_holds_iff.mpr hposition
      have hordered : s.heap.Ordered (roadKey (s.relaxed cost current neighbor).distances) :=
        h.ordered.congr fun i hi => hother _ fun heq => hfree ⟨i, hi, heq⟩
      obtain ⟨hvalid, -, hholds⟩ := Heap.insert_valid ⟨h.linked, hordered⟩ hposition
      rw [hoffer]
      exact ⟨hvalid, hholds⟩
  | some position =>
      have hoffer : ((s.relaxed cost current neighbor).offer neighbor).heap =
          s.heap.up (below (roadKey (s.relaxed cost current neighbor).distances)) position := by
        unfold offer
        rw [show (s.relaxed cost current neighbor).heap.positions neighbor = some position
          from hposition, ← fdHeapLess_eq]
        rfl
      have hlower : roadKey (s.relaxed cost current neighbor).distances neighbor ≤
          roadKey s.distances neighbor := by
        have hself : (s.relaxed cost current neighbor).distances neighbor =
            s.distances current + cost neighbor := Function.update_self _ _ _
        rw [roadKey, roadKey, Prod.Lex.toLex_le_toLex, hself]
        rcases hle.lt_or_eq with hlt | heq
        · exact .inl hlt
        · exact .inr ⟨heq, le_rfl⟩
      have hsifted := Heap.lower_valid h hposition hlower hother
      have hmem : s.heap.Holds neighbor := h.linked.holds_iff.mpr ⟨position, hposition⟩
      rw [hoffer]
      refine ⟨hsifted.valid, fun v => (hsifted.holds v).trans (or_iff_right_of_imp ?_).symm⟩
      rintro rfl
      exact hmem

section rounds

variable (n : Nat) (cost : Nat → Nat) (adjacent : Nat → List Nat) (start : Nat)

/-- The search once `settled` has been popped and the steps of `relaxed` have been tried. A round
makes the longest distance grow by no more than the highest cost. -/
structure Sound (s : RoadSearch) (settled : Finset Nat) (relaxed : Nat → Nat → Prop) : Prop where
  search : s.labels.Search (Enters n cost adjacent) cost start settled relaxed
  heap : Heap.Valid (roadKey s.distances) s.heap
  holds : ∀ v, s.heap.Holds v ↔ s.distances v ≠ uint32Max ∧ v ∉ settled
  bounded : ∀ v, s.distances v ≠ uint32Max →
    Enterable n cost v ∧ s.distances v ≤ 29 * settled.card

/-- The search while the neighbours of `current` are relaxed, the tile settled last. -/
structure Relaxing (s : RoadSearch) (settled : Finset Nat) (relaxed : Nat → Nat → Prop)
    (current : Nat) : Prop where
  sound : s.Sound n cost adjacent start settled relaxed
  mem : current ∈ settled
  latest : ∀ v ∈ settled, s.distances v ≤ s.distances current
  room : s.distances current + 29 ≤ 29 * settled.card

variable {n cost adjacent start} {s : RoadSearch} {settled : Finset Nat}
  {relaxed : Nat → Nat → Prop} {current : Nat}

/-- All settled tiles are on the map. -/
theorem Sound.settled_subset (h : s.Sound n cost adjacent start settled relaxed) :
    settled ⊆ Finset.range n := by
  intro v hv
  exact Finset.mem_range.mpr (h.bounded v (h.search.reached v hv)).1.1

theorem Sound.card_le (h : s.Sound n cost adjacent start settled relaxed) : settled.card ≤ n := by
  have hle := Finset.card_le_card h.settled_subset
  rwa [Finset.card_range] at hle

/-- `fd_relax_road_neighbor` on a neighbour that cannot be entered. -/
theorem relax_closed {neighbor : Nat} (h : cost neighbor = uint32Max) :
    fdRelaxRoadNeighbor cost current s neighbor = s := if_pos (.inl h)

/-- `fd_relax_road_neighbor` on any other, where the sum cannot overflow. -/
theorem relax_open {neighbor : Nat}
    (hsum : s.distances current + cost neighbor < uint32Max) :
    fdRelaxRoadNeighbor cost current s neighbor =
      if s.distances current + cost neighbor < s.distances neighbor ∨
          (s.distances current + cost neighbor = s.distances neighbor ∧
            current < s.previous neighbor) then
        (s.relaxed cost current neighbor).offer neighbor
      else s := by
  have hguard : ¬ (cost neighbor = uint32Max ∨ s.distances current = uint32Max ∨
      uint32Max - cost neighbor < s.distances current) := by omega
  exact if_neg hguard

/-- Relaxing one neighbour tries its step and leaves the settled tiles as they are. -/
theorem Relaxing.relax (hgrid : RoadGrid n cost adjacent)
    (h : s.Relaxing n cost adjacent start settled relaxed current) {neighbor : Nat}
    (hnear : neighbor ∈ adjacent current) :
    ∃ tried, (fdRelaxRoadNeighbor cost current s neighbor).Relaxing n cost adjacent start settled
        tried current ∧ (∀ u v, relaxed u v → tried u v) ∧
      (cost neighbor ≠ uint32Max → tried current neighbor) := by
  by_cases hclosed : cost neighbor = uint32Max
  · rw [relax_closed hclosed]
    exact ⟨relaxed, h, fun _ _ huv => huv, fun hopen => absurd hclosed hopen⟩
  have hcurrent := (h.sound.bounded current (h.sound.search.reached current h.mem)).1
  have hstep : Enters n cost adjacent current neighbor := ⟨hcurrent, hnear, hclosed⟩
  obtain ⟨hpos, hcost⟩ := hgrid.cost neighbor hclosed
  have hroom : s.distances current + cost neighbor ≤ 29 * settled.card :=
    (Nat.add_le_add_left hcost _).trans h.room
  have hsum : s.distances current + cost neighbor < uint32Max := by
    calc s.distances current + cost neighbor ≤ 29 * 32768 :=
          hroom.trans (Nat.mul_le_mul_left 29 (h.sound.card_le.trans hgrid.small))
      _ < uint32Max := by decide
  rw [relax_open hsum]
  refine ⟨fun u v => relaxed u v ∨ u = current ∧ v = neighbor, ?_, fun _ _ => .inl,
    fun _ => .inr ⟨rfl, rfl⟩⟩
  split
  · next hbetter =>
    have hle : s.distances current + cost neighbor ≤ s.distances neighbor := by
      rcases hbetter with hlt | ⟨heq, -⟩
      · exact hlt.le
      · exact heq.le
    have hlatest : ∀ u ∈ (settled : Set Nat), s.labels.dist u ≤ s.labels.dist current := h.latest
    obtain ⟨hfree, -⟩ := h.sound.search.unsettled_of_better hpos hlatest fun _ => hle
    have hsearch := h.sound.search.improve h.mem hlatest hstep hpos fun _ => hbetter
    rw [← labels_relaxed hsum.ne, ← offer_labels] at hsearch
    obtain ⟨hheap, hholds⟩ := offer_heap cost current h.sound.heap hle
    have hdistances : ((s.relaxed cost current neighbor).offer neighbor).distances =
        Function.update s.distances neighbor (s.distances current + cost neighbor) :=
      congrArg Labels.dist (offer_labels _ _)
    have hother : ∀ v, v ≠ neighbor →
        ((s.relaxed cost current neighbor).offer neighbor).distances v = s.distances v := by
      intro v hv
      rw [hdistances, Function.update_of_ne hv]
    have hself : ((s.relaxed cost current neighbor).offer neighbor).distances neighbor =
        s.distances current + cost neighbor := by rw [hdistances, Function.update_self]
    have hkept : ∀ v ∈ settled,
        ((s.relaxed cost current neighbor).offer neighbor).distances v = s.distances v := by
      intro v hv
      refine hother v ?_
      rintro rfl
      exact hfree hv
    refine ⟨⟨hsearch, ?_, ?_, ?_⟩, h.mem, ?_, ?_⟩
    · rw [hdistances]
      exact hheap
    · intro v
      rw [hholds]
      by_cases hv : v = neighbor
      · subst hv
        rw [hself]
        exact iff_of_true (.inl rfl) ⟨hsum.ne, hfree⟩
      · rw [or_iff_right hv, hother v hv]
        exact h.sound.holds v
    · intro v hv
      by_cases hvn : v = neighbor
      · subst hvn
        rw [hself]
        exact ⟨⟨hgrid.near current hcurrent.1 v hnear, hclosed⟩, hroom⟩
      · rw [hother v hvn] at hv ⊢
        exact h.sound.bounded v hv
    · intro v hv
      rw [hkept v hv, hkept current h.mem]
      exact h.latest v hv
    · rw [hkept current h.mem]
      exact h.room
  · next hworse =>
    rw [not_or, not_lt, not_and, not_lt] at hworse
    obtain ⟨hle, htie⟩ := hworse
    have hreached : s.distances neighbor ≠ uint32Max := (hle.trans_lt hsum).ne
    have hsearch := h.sound.search.keep h.mem hstep hreached hle fun _ heq => htie heq
    exact ⟨⟨hsearch, h.sound.heap, h.sound.holds, h.sound.bounded⟩, h.mem, h.latest, h.room⟩

/-- Relaxing the neighbours one by one. -/
theorem Relaxing.relaxAll (hgrid : RoadGrid n cost adjacent)
    (h : s.Relaxing n cost adjacent start settled relaxed current) {xs : List Nat}
    (hnear : ∀ neighbor ∈ xs, neighbor ∈ adjacent current) :
    ∃ tried, (xs.foldl (fdRelaxRoadNeighbor cost current) s).Relaxing n cost adjacent start settled
        tried current ∧ (∀ u v, relaxed u v → tried u v) ∧
      ∀ neighbor ∈ xs, cost neighbor ≠ uint32Max → tried current neighbor := by
  induction xs generalizing s relaxed with
  | nil => exact ⟨relaxed, h, fun _ _ huv => huv, fun _ hmem => absurd hmem List.not_mem_nil⟩
  | cons neighbor xs ih =>
      obtain ⟨first, hfirst, hgrown, htried⟩ := h.relax hgrid (hnear neighbor List.mem_cons_self)
      obtain ⟨all, hall, hgrown', htried'⟩ :=
        ih hfirst fun next hnext => hnear next (List.mem_cons_of_mem neighbor hnext)
      refine ⟨all, hall, fun u v huv => hgrown' u v (hgrown u v huv), ?_⟩
      intro next hnext hopen
      rcases List.mem_cons.mp hnext with rfl | hnext
      · exact hgrown' _ _ (htried hopen)
      · exact htried' next hnext hopen

/-- The search between two rounds. -/
structure Between (n : Nat) (cost : Nat → Nat) (adjacent : Nat → List Nat) (start : Nat)
    (s : RoadSearch) (settled : Finset Nat) (relaxed : Nat → Nat → Prop) : Prop where
  sound : s.Sound n cost adjacent start settled relaxed
  all : ∀ u ∈ settled, ∀ v, Enters n cost adjacent u v → relaxed u v

/-- The popped tile is a nearest one and is settled now. -/
theorem Between.pop (h : Between n cost adjacent start s settled relaxed)
    (hsize : s.heap.size ≠ 0) : s.fdHeapPop.1 ∉ settled ∧ s.labels.Nearest settled s.fdHeapPop.1 ∧
      s.fdHeapPop.2.labels = s.labels ∧
      s.fdHeapPop.2.Relaxing n cost adjacent start (insert s.fdHeapPop.1 settled) relaxed
        s.fdHeapPop.1 := by
  obtain ⟨hmem, hmin, hvalid, -, hholds⟩ := Heap.pop_valid h.sound.heap (Nat.pos_of_ne_zero hsize)
  rw [← fdHeapLess_eq] at hmem hmin hvalid hholds
  obtain ⟨hreached, hfree⟩ := (h.sound.holds _).mp hmem
  have hnearest : s.labels.Nearest settled s.fdHeapPop.1 := by
    refine ⟨hreached, fun v hv hreached' => ?_⟩
    rcases Prod.Lex.toLex_le_toLex.mp (hmin v ((h.sound.holds v).mpr ⟨hreached', hv⟩)) with
      hlt | ⟨heq, -⟩
    · exact hlt.le
    · exact heq.le
  have hcard : (insert s.fdHeapPop.1 settled).card = settled.card + 1 :=
    Finset.card_insert_of_notMem hfree
  refine ⟨hfree, hnearest, rfl, ⟨⟨?_, hvalid, ?_, ?_⟩, Finset.mem_insert_self _ _, ?_, ?_⟩⟩
  · rw [Finset.coe_insert]
    exact h.sound.search.settle hnearest
  · intro v
    refine (hholds v).trans ?_
    rw [h.sound.holds v, Finset.mem_insert, not_or, and_assoc, and_comm (a := v ∉ settled)]
    exact Iff.rfl
  · intro v hv
    obtain ⟨hopen, hle⟩ := h.sound.bounded v hv
    exact ⟨hopen, hle.trans (Nat.mul_le_mul_left 29 (hcard ▸ Nat.le_succ _))⟩
  · intro v hv
    rcases Finset.mem_insert.mp hv with rfl | hv
    · exact le_rfl
    · exact h.sound.search.order v hv _ hfree hreached
  · rw [hcard, Nat.mul_succ]
    exact Nat.add_le_add_right (h.sound.bounded _ hreached).2 29

/-- A round settles the tile it pops. -/
theorem Between.round (hgrid : RoadGrid n cost adjacent)
    (h : Between n cost adjacent start s settled relaxed) (hsize : s.heap.size ≠ 0) :
    ∃ tried, Between n cost adjacent start
      ((adjacent s.fdHeapPop.1).foldl (fdRelaxRoadNeighbor cost s.fdHeapPop.1) s.fdHeapPop.2)
      (insert s.fdHeapPop.1 settled) tried := by
  obtain ⟨-, -, -, hrelaxing⟩ := h.pop hsize
  obtain ⟨tried, hdone, hgrown, htried⟩ := hrelaxing.relaxAll hgrid fun _ hnext => hnext
  refine ⟨tried, hdone.sound, ?_⟩
  intro u hu v hstep
  rcases Finset.mem_insert.mp hu with rfl | hu
  · exact htried v hstep.2.1 hstep.2.2
  · exact hgrown u v (h.all u hu v hstep)

/-- What the search ends with: the goal is nearest, or all that has been reached is settled. -/
structure Ended (n : Nat) (cost : Nat → Nat) (adjacent : Nat → List Nat) (start goal : Nat)
    (s : RoadSearch) (settled : Finset Nat) (relaxed : Nat → Nat → Prop) : Prop where
  search : s.labels.Search (Enters n cost adjacent) cost start settled relaxed
  all : ∀ u ∈ settled, ∀ v, Enters n cost adjacent u v → relaxed u v
  goal : s.labels.Nearest settled goal ∨
    goal ∉ settled ∧ ∀ v, s.distances v ≠ uint32Max → v ∈ settled

/-- Every round settles another tile, so there are rounds enough. -/
theorem Between.ended (hgrid : RoadGrid n cost adjacent) {goal rounds : Nat}
    (h : Between n cost adjacent start s settled relaxed) (hgoal : goal ∉ settled)
    (hrounds : n < rounds + settled.card) :
    ∃ t settled relaxed, searchRoad cost adjacent goal rounds s = some t ∧
      Ended n cost adjacent start goal t settled relaxed := by
  induction rounds generalizing s settled relaxed with
  | zero => exact absurd h.sound.card_le (by omega)
  | succ rounds ih =>
      unfold searchRoad
      by_cases hsize : s.heap.size = 0
      · rw [if_pos hsize]
        refine ⟨s, settled, relaxed, rfl, h.sound.search, h.all, .inr ⟨hgoal, fun v hv => ?_⟩⟩
        by_contra hfree
        obtain ⟨i, hi, -⟩ := (h.sound.holds v).mpr ⟨hv, hfree⟩
        omega
      · rw [if_neg hsize]
        obtain ⟨hfree, hnearest, hlabels, -⟩ := h.pop hsize
        by_cases hfound : s.fdHeapPop.1 = goal
        · refine ⟨s.fdHeapPop.2, settled, relaxed, if_pos hfound, ?_, h.all, .inl ?_⟩
          · exact hlabels ▸ h.sound.search
          · exact hfound ▸ hlabels ▸ hnearest
        · obtain ⟨tried, hround⟩ := h.round hgrid hsize
          have hgoal' : goal ∉ insert s.fdHeapPop.1 settled := by
            rw [Finset.mem_insert, not_or]
            exact ⟨Ne.symm hfound, hgoal⟩
          have hcard := Finset.card_insert_of_notMem hfree
          obtain ⟨t, settled', relaxed', hrun, hended⟩ := ih hround hgoal' (by omega)
          exact ⟨t, settled', relaxed', (if_neg hfound).trans hrun, hended⟩

/-- The search before its first round. -/
theorem between_start (hstart : Enterable n cost start) :
    Between n cost adjacent start (startRoadSearch start) ∅ fun _ _ => False := by
  have hdistances : (startRoadSearch start).distances =
      Function.update (fun _ => uint32Max) start 0 := rfl
  have hself : (startRoadSearch start).distances start = 0 := by
    rw [hdistances, Function.update_self]
  have hother : ∀ v, (startRoadSearch start).distances v ≠ uint32Max → v = start := by
    intro v hv
    by_contra hne
    rw [hdistances, Function.update_of_ne hne] at hv
    exact hv rfl
  have hempty : Heap.Valid (roadKey (startRoadSearch start).distances)
      (⟨fun _ => 0, fun _ => none, 0⟩ : FdHeap) :=
    ⟨⟨fun _ hi => absurd hi (Nat.not_lt_zero _),
      fun _ _ hi => absurd hi (Option.some_ne_none _).symm⟩,
      fun _ _ hi => absurd hi (Nat.not_lt_zero _)⟩
  obtain ⟨hvalid, -, hholds⟩ := Heap.insert_valid (v := start) hempty rfl
  rw [← fdHeapLess_eq] at hvalid hholds
  refine ⟨⟨?_, hvalid, ?_, ?_⟩, ?_⟩
  · constructor
    · exact hself.trans_ne (by decide)
    · exact hself
    · intro v hv
      obtain rfl := hother v hv
      have hzero : (startRoadSearch v).labels.dist v = 0 := hself
      rw [hzero]
      exact ⟨[v], .start⟩
    · exact fun v hv => absurd hv (Finset.notMem_empty v)
    · exact fun _ _ huv => huv.elim
    · exact fun _ _ huv => huv.elim
    · exact fun u hu => absurd hu (Finset.notMem_empty u)
    · exact fun v hv hne => absurd (hother v hv) hne
  · intro v
    refine (hholds v).trans ?_
    constructor
    · rintro (rfl | ⟨i, hi, -⟩)
      · exact ⟨hself.trans_ne (by decide), Finset.notMem_empty v⟩
      · exact absurd hi (Nat.not_lt_zero i)
    · exact fun hv => .inl (hother v hv.1)
  · intro v hv
    obtain rfl := hother v hv
    exact ⟨hstart, hself.trans_le (Nat.zero_le _)⟩
  · exact fun u hu => absurd hu (Finset.notMem_empty u)

/-- What `previous` leads back along once the goal is within reach. -/
structure Found (n : Nat) (cost : Nat → Nat) (adjacent : Nat → List Nat) (start goal : Nat)
    (s : RoadSearch) (path : List Nat) : Prop where
  traced : Traced s.previous start goal path
  canonical : Canonical (Enters n cost adjacent) cost start goal path
  way : Way (Enters n cost adjacent) cost start goal path (s.distances goal)
  dist : IsDist (Enters n cost adjacent) cost start goal (s.distances goal)
  reached : s.distances goal ≠ uint32Max

/-- The search ends, and finds the goal exactly if it is within reach. -/
theorem searchRoad_spec (hgrid : RoadGrid n cost adjacent) (hstart : Enterable n cost start)
    (goal : Nat) : ∃ t, searchRoad cost adjacent goal (n + 1) (startRoadSearch start) = some t ∧
      ((t.distances goal = uint32Max ∧
        ¬ Relation.ReflTransGen (Enters n cost adjacent) start goal) ∨
        ∃ path, t.Found n cost adjacent start goal path) := by
  obtain ⟨t, settled, relaxed, hrun, hsearch, hall, hend⟩ :=
    (between_start hstart).ended hgrid (Finset.notMem_empty goal)
      (Nat.lt_add_right _ n.lt_succ_self)
  have hpos : ∀ u v, Enters n cost adjacent u v → 0 < cost v :=
    fun u v huv => (hgrid.cost v huv.2.2).1
  refine ⟨t, hrun, ?_⟩
  rcases hend with hnearest | ⟨hgoal, hnone⟩
  · obtain ⟨path, htraced, hcanonical, hway⟩ := hsearch.traced hpos hall hnearest
    exact .inr ⟨path, htraced, hcanonical, hway, hsearch.isDist hall hnearest, hnearest.1⟩
  · left
    refine ⟨?_, fun hreachable => ?_⟩
    · by_contra hreached
      exact hgoal (hnone goal hreached)
    · obtain ⟨path, d, hway⟩ := exists_way cost hreachable
      rcases hsearch.frontier hall hway with ⟨hmem, -⟩ | ⟨v, hv, hreached, -⟩
      · exact hgoal hmem
      · exact hv (hnone v hreached)

end rounds

end RoadSearch

end FrontierDirectorate
