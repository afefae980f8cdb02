import Mathlib
import FrontierDirectorate.Lib.InducedPath

/-!
# Shortest ways

Ways through a graph whose vertices cost something to enter, and the labels with
which a search finds the cheapest of them. Equally cheap ways are told apart by the
least vertex, so the way that the labels lead back along does not depend on the search.
-/
namespace ShortestPath

variable {α : Type*} (step : α → α → Prop) (cost : α → Nat) (start : α)

/-- The list leads from the vertex back to `start`; entering all of it but `start` costs `d`. -/
inductive Way : α → List α → Nat → Prop
  | start : Way start [start] 0
  | step {a b : α} {path : List α} {d : Nat} (way : Way a path d) (edge : step a b) :
      Way b (b :: path) (d + cost b)

/-- The cheapest way to the vertex costs `d`. -/
structure IsDist (a : α) (d : Nat) : Prop where
  way : ∃ path, Way step cost start a path d
  least : ∀ path e, Way step cost start a path e → d ≤ e

/-- `before` is the least vertex from which a cheapest way enters `a`. -/
structure Entered [LE α] (a before : α) : Prop where
  edge : step before a
  cheapest : ∃ d, IsDist step cost start before d ∧ IsDist step cost start a (d + cost a)
  least : ∀ b d, step b a → IsDist step cost start b d → IsDist step cost start a (d + cost a) →
    before ≤ b

/-- The way back to `start` that always goes to the least vertex. -/
inductive Canonical [LE α] : α → List α → Prop
  | start : Canonical start [start]
  | step {a before : α} {path : List α} (later : a ≠ start)
      (entered : Entered step cost start a before) (rest : Canonical before path) :
      Canonical a (a :: path)

variable {step cost start}

theorem IsDist.unique {a : α} {d e : Nat} (h : IsDist step cost start a d)
    (h' : IsDist step cost start a e) : d = e := by
  obtain ⟨path, hpath⟩ := h.way
  obtain ⟨path', hpath'⟩ := h'.way
  exact le_antisymm (h.least path' e hpath') (h'.least path d hpath)

theorem Way.reachable {a : α} {path : List α} {d : Nat} (h : Way step cost start a path d) :
    Relation.ReflTransGen step start a := by
  induction h with
  | start => exact .refl
  | step _ edge ih => exact ih.tail edge

/-- What holds of the start and of all that a step can enter holds along a way. -/
theorem Way.forall_mem {p : α → Prop} {a : α} {path : List α} {d : Nat}
    (h : Way step cost start a path d) (hstart : p start) (hstep : ∀ u v, step u v → p v) :
    ∀ v ∈ path, p v := by
  induction h with
  | start =>
      intro v hv
      rw [List.mem_singleton.mp hv]
      exact hstart
  | @step a b path d way edge ih =>
      intro v hv
      rcases List.mem_cons.mp hv with rfl | hv
      · exact hstep a v edge
      · exact ih v hv

/-- A way has both its ends. -/
theorem Way.ends {a : α} {path : List α} {d : Nat} (h : Way step cost start a path d) :
    start ∈ path ∧ a ∈ path := by
  induction h with
  | start => exact ⟨List.mem_cons_self, List.mem_cons_self⟩
  | step _ _ ih => exact ⟨List.mem_cons_of_mem _ ih.1, List.mem_cons_self⟩

/-- A way leads from its vertex to the start. -/
theorem Way.head_last {a : α} {path : List α} {d : Nat} (h : Way step cost start a path d) :
    path.head? = some a ∧ path.getLast? = some start := by
  induction h with
  | start => exact ⟨rfl, rfl⟩
  | step _ _ ih =>
      refine ⟨rfl, ?_⟩
      rw [List.getLast?_cons, ih.2]
      rfl

theorem exists_way (cost : α → Nat) {a : α} (h : Relation.ReflTransGen step start a) :
    ∃ path d, Way step cost start a path d := by
  induction h with
  | refl => exact ⟨_, _, .start⟩
  | tail _ edge ih =>
      obtain ⟨path, d, hway⟩ := ih
      exact ⟨_, _, hway.step edge⟩

/-- There is one canonical way. -/
theorem Canonical.unique [PartialOrder α] {a : α} {path path' : List α}
    (h : Canonical step cost start a path) (h' : Canonical step cost start a path') :
    path = path' := by
  induction h generalizing path' with
  | start =>
      cases h' with
      | start => rfl
      | step later => exact absurd rfl later
  | @step a before path later entered rest ih =>
      cases h' with
      | start => exact absurd rfl later
      | @step _ before' path' _ entered' rest' =>
          obtain ⟨d, hbefore, ha⟩ := entered.cheapest
          obtain ⟨e, hbefore', ha'⟩ := entered'.cheapest
          have hsame : before = before' := le_antisymm
            (entered.least before' e entered'.edge hbefore' ha')
            (entered'.least before d entered.edge hbefore ha)
          subst hsame
          rw [ih rest']

/-- What a search knows of the vertices it has reached: the cost of a way found so far, and the
vertex that way came from. -/
structure Labels (α : Type*) where
  reached : α → Prop
  dist : α → Nat
  previous : α → α

namespace Labels

/-- The way to `b` now comes from `a`. -/
def relax [DecidableEq α] (cost : α → Nat) (l : Labels α) (a b : α) : Labels α where
  reached v := l.reached v ∨ v = b
  dist := Function.update l.dist b (l.dist a + cost b)
  previous := Function.update l.previous b a

variable [LinearOrder α] (step cost start)

/-- The labels while the edges of the settled vertices are relaxed; `relaxed` are those that have
been. -/
structure Search (l : Labels α) (settled : Set α) (relaxed : α → α → Prop) : Prop where
  start_reached : l.reached start
  start_dist : l.dist start = 0
  way : ∀ v, l.reached v → ∃ path, Way step cost start v path (l.dist v)
  reached : ∀ v ∈ settled, l.reached v
  edge : ∀ u v, relaxed u v → u ∈ settled ∧ step u v
  bounded : ∀ u v, relaxed u v → l.reached v ∧ l.dist v ≤ l.dist u + cost v
  order : ∀ u ∈ settled, ∀ v ∉ settled, l.reached v → l.dist u ≤ l.dist v
  previous : ∀ v, l.reached v → v ≠ start → relaxed (l.previous v) v ∧
    l.dist v = l.dist (l.previous v) + cost v ∧
      ∀ u, relaxed u v → l.dist u + cost v = l.dist v → l.previous v ≤ u

/-- No vertex that is reached and not settled is nearer. -/
def Nearest (l : Labels α) (settled : Set α) (a : α) : Prop :=
  l.reached a ∧ ∀ v ∉ settled, l.reached v → l.dist a ≤ l.dist v

variable {step cost start}

section search

variable {l : Labels α} {settled : Set α} {relaxed : α → α → Prop}

namespace Search

/-- A way leaves the settled vertices at no more than its cost. -/
theorem frontier (h : l.Search step cost start settled relaxed)
    (hall : ∀ u ∈ settled, ∀ v, step u v → relaxed u v) {a : α} {path : List α} {e : Nat}
    (hway : Way step cost start a path e) :
    (a ∈ settled ∧ l.dist a ≤ e) ∨ ∃ v ∉ settled, l.reached v ∧ l.dist v ≤ e := by
  induction hway with
  | start =>
      by_cases hstart : start ∈ settled
      · exact .inl ⟨hstart, h.start_dist.le⟩
      · exact .inr ⟨start, hstart, h.start_reached, h.start_dist.le⟩
  | @step a b path d way edge ih =>
      rcases ih with ⟨ha, hle⟩ | ⟨v, hv, hreached, hle⟩
      · obtain ⟨hreached, hbound⟩ := h.bounded a b (hall a ha b edge)
        by_cases hb : b ∈ settled
        · exact .inl ⟨hb, by omega⟩
        · exact .inr ⟨b, hb, hreached, by omega⟩
      · exact .inr ⟨v, hv, hreached, by omega⟩

theorem nearest (h : l.Search step cost start settled relaxed) {a : α} (ha : a ∈ settled) :
    l.Nearest settled a := ⟨h.reached a ha, h.order a ha⟩

/-- The label of a nearest vertex is exact. -/
theorem isDist (h : l.Search step cost start settled relaxed)
    (hall : ∀ u ∈ settled, ∀ v, step u v → relaxed u v) {a : α} (ha : l.Nearest settled a) :
    IsDist step cost start a (l.dist a) where
  way := h.way a ha.1
  least := by
    intro path e hway
    rcases h.frontier hall hway with ⟨-, hle⟩ | ⟨v, hv, hreached, hle⟩
    · exact hle
    · exact (ha.2 v hv hreached).trans hle

/-- A nearest vertex was reached from the least vertex it can be. All candidates are nearer and
therefore settled. -/
theorem entered (h : l.Search step cost start settled relaxed)
    (hpos : ∀ u v, step u v → 0 < cost v) (hall : ∀ u ∈ settled, ∀ v, step u v → relaxed u v)
    {a : α} (ha : l.Nearest settled a) (hne : a ≠ start) :
    Entered step cost start a (l.previous a) ∧ l.previous a ∈ settled ∧
      l.dist a = l.dist (l.previous a) + cost a := by
  obtain ⟨hrelaxed, hdist, hleast⟩ := h.previous a ha.1 hne
  obtain ⟨hsettled, hedge⟩ := h.edge _ _ hrelaxed
  have hexact := h.isDist hall ha
  refine ⟨⟨hedge, ⟨_, h.isDist hall (h.nearest hsettled), hdist ▸ hexact⟩, ?_⟩, hsettled, hdist⟩
  intro b d hstep hb hcheapest
  have hsum : d + cost a = l.dist a := hcheapest.unique hexact
  obtain ⟨path, hway⟩ := hb.way
  rcases h.frontier hall hway with ⟨hsettled', -⟩ | ⟨v, hv, hreached, hle⟩
  · have hlabel : l.dist b = d := (h.isDist hall (h.nearest hsettled')).unique hb
    exact hleast b (hall b hsettled' a hstep) (hlabel ▸ hsum)
  · have hnearer := ha.2 v hv hreached
    have hcost := hpos b a hstep
    omega

/-- Settling a nearest vertex. -/
theorem settle (h : l.Search step cost start settled relaxed) {a : α} (ha : l.Nearest settled a) :
    l.Search step cost start (insert a settled) relaxed where
  start_reached := h.start_reached
  start_dist := h.start_dist
  way := h.way
  reached := by
    rintro v (rfl | hv)
    · exact ha.1
    · exact h.reached v hv
  edge := fun u v huv => ⟨.inr (h.edge u v huv).1, (h.edge u v huv).2⟩
  bounded := h.bounded
  order := by
    rintro u (rfl | hu) v hv hreached
    · exact ha.2 v (fun hold => hv (.inr hold)) hreached
    · exact h.order u hu v (fun hold => hv (.inr hold)) hreached
  previous := h.previous

/-- An edge that offers nothing better. -/
theorem keep (h : l.Search step cost start settled relaxed) {a b : α} (ha : a ∈ settled)
    (hstep : step a b) (hb : l.reached b) (hle : l.dist b ≤ l.dist a + cost b)
    (htie : b ≠ start → l.dist a + cost b = l.dist b → l.previous b ≤ a) :
    l.Search step cost start settled (fun u v => relaxed u v ∨ u = a ∧ v = b) where
  start_reached := h.start_reached
  start_dist := h.start_dist
  way := h.way
  reached := h.reached
  edge := by
    rintro u v (huv | ⟨rfl, rfl⟩)
    · exact h.edge u v huv
    · exact ⟨ha, hstep⟩
  bounded := by
    rintro u v (huv | ⟨rfl, rfl⟩)
    · exact h.bounded u v huv
    · exact ⟨hb, hle⟩
  order := h.order
  previous := by
    intro v hv hne
    obtain ⟨hrelaxed, hdist, hleast⟩ := h.previous v hv hne
    refine ⟨.inl hrelaxed, hdist, ?_⟩
    rintro u (huv | ⟨rfl, rfl⟩) heq
    · exact hleast u huv heq
    · exact htie hne heq

/-- Better than what `b` has: cheaper, or as cheap from a lesser vertex. -/
theorem unsettled_of_better (h : l.Search step cost start settled relaxed) {a b : α}
    (hcost : 0 < cost b) (hlatest : ∀ u ∈ settled, l.dist u ≤ l.dist a)
    (hbetter : l.reached b → l.dist a + cost b ≤ l.dist b) : b ∉ settled ∧ b ≠ start := by
  constructor
  · intro hb
    have hle := hlatest b hb
    have hge := hbetter (h.reached b hb)
    omega
  · rintro rfl
    have hge := hbetter h.start_reached
    have hzero := h.start_dist
    omega

/-- An edge of the vertex settled last that offers something better. No settled vertex is
concerned, since entering a vertex costs something. -/
theorem improve (h : l.Search step cost start settled relaxed) {a b : α} (ha : a ∈ settled)
    (hlatest : ∀ u ∈ settled, l.dist u ≤ l.dist a) (hstep : step a b) (hcost : 0 < cost b)
    (hbetter : l.reached b → l.dist a + cost b < l.dist b ∨
      (l.dist a + cost b = l.dist b ∧ a < l.previous b)) :
    (l.relax cost a b).Search step cost start settled
      (fun u v => relaxed u v ∨ u = a ∧ v = b) := by
  have hle : l.reached b → l.dist a + cost b ≤ l.dist b := by
    intro hb
    rcases hbetter hb with hlt | ⟨heq, -⟩
    · exact hlt.le
    · exact heq.le
  obtain ⟨hfree, hstart⟩ := h.unsettled_of_better hcost hlatest hle
  have hsettled : ∀ u ∈ settled, (l.relax cost a b).dist u = l.dist u := by
    intro u hu
    refine Function.update_of_ne ?_ _ _
    rintro rfl
    exact hfree hu
  have hother : ∀ v, v ≠ b → (l.relax cost a b).dist v = l.dist v :=
    fun v hv => Function.update_of_ne hv _ _
  have hself : (l.relax cost a b).dist b = l.dist a + cost b := Function.update_self _ _ _
  constructor
  · exact .inl h.start_reached
  · rw [hother start hstart.symm, h.start_dist]
  · rintro v (hv | rfl)
    · by_cases hvb : v = b
      · subst hvb
        obtain ⟨path, hway⟩ := h.way a (h.reached a ha)
        rw [hself]
        exact ⟨_, hway.step hstep⟩
      · rw [hother v hvb]
        exact h.way v hv
    · obtain ⟨path, hway⟩ := h.way a (h.reached a ha)
      rw [hself]
      exact ⟨_, hway.step hstep⟩
  · exact fun v hv => .inl (h.reached v hv)
  · rintro u v (huv | ⟨rfl, rfl⟩)
    · exact h.edge u v huv
    · exact ⟨ha, hstep⟩
  · rintro u v (huv | ⟨rfl, rfl⟩)
    · obtain ⟨hv, hbound⟩ := h.bounded u v huv
      refine ⟨.inl hv, ?_⟩
      rw [hsettled u (h.edge u v huv).1]
      by_cases hvb : v = b
      · subst hvb
        rw [hself]
        exact (hle hv).trans hbound
      · rw [hother v hvb]
        exact hbound
    · refine ⟨.inr rfl, ?_⟩
      rw [hself, hsettled u ha]
  · rintro u hu v hv (hreached | rfl)
    · rw [hsettled u hu]
      by_cases hvb : v = b
      · subst hvb
        rw [hself]
        exact (hlatest u hu).trans (Nat.le_add_right _ _)
      · rw [hother v hvb]
        exact h.order u hu v hv hreached
    · rw [hsettled u hu, hself]
      exact (hlatest u hu).trans (Nat.le_add_right _ _)
  · intro v hv hne
    by_cases hvb : v = b
    · subst hvb
      have hprevious : (l.relax cost a v).previous v = a := Function.update_self _ _ _
      rw [hprevious, hself, hsettled a ha]
      refine ⟨.inr ⟨rfl, rfl⟩, rfl, ?_⟩
      rintro u (huv | ⟨rfl, -⟩) heq
      · obtain ⟨hreached, hbound⟩ := h.bounded u v huv
        rw [hsettled u (h.edge u v huv).1] at heq
        rcases hbetter hreached with hlt | ⟨htie, hless⟩
        · omega
        · exact hless.le.trans ((h.previous v hreached hne).2.2 u huv (heq.trans htie))
      · exact le_rfl
    · have hreached : l.reached v := hv.resolve_right hvb
      obtain ⟨hrelaxed, hdist, hleast⟩ := h.previous v hreached hne
      have hprevious : (l.relax cost a b).previous v = l.previous v := Function.update_of_ne hvb _ _
      rw [hprevious, hother v hvb, hsettled _ (h.edge _ _ hrelaxed).1]
      refine ⟨.inl hrelaxed, hdist, ?_⟩
      rintro u (huv | ⟨-, rfl⟩) heq
      · rw [hsettled u (h.edge u v huv).1] at heq
        exact hleast u huv heq
      · exact absurd rfl hvb

end Search

end search

end Labels

/-- The list of vertices that `previous` leads back along. -/
inductive Traced (previous : α → α) (start : α) : α → List α → Prop
  | start : Traced previous start start [start]
  | step {a : α} {path : List α} (later : a ≠ start)
      (rest : Traced previous start (previous a) path) : Traced previous start a (a :: path)

theorem Traced.mem {previous : α → α} {a : α} {path : List α} (h : Traced previous start a path) :
    a ∈ path := by
  cases h with
  | start => exact List.mem_cons_self
  | step => exact List.mem_cons_self

/-- From a nearest vertex the labels lead back along the canonical way, which is a cheapest one. -/
theorem Labels.Search.traced [LinearOrder α] {l : Labels α} {settled : Set α}
    {relaxed : α → α → Prop} (h : l.Search step cost start settled relaxed)
    (hpos : ∀ u v, step u v → 0 < cost v) (hall : ∀ u ∈ settled, ∀ v, step u v → relaxed u v)
    {a : α} (ha : l.Nearest settled a) :
    ∃ path, Traced l.previous start a path ∧ Canonical step cost start a path ∧
      Way step cost start a path (l.dist a) := by
  induction hn : l.dist a using Nat.strong_induction_on generalizing a with
  | _ n ih =>
      subst hn
      by_cases hne : a = start
      · subst hne
        rw [h.start_dist]
        exact ⟨[a], .start, .start, .start⟩
      · obtain ⟨hentered, hsettled, hdist⟩ := h.entered hpos hall ha hne
        have hcost := hpos _ _ hentered.edge
        obtain ⟨path, htraced, hcanonical, hway⟩ :=
          ih (l.dist (l.previous a)) (by omega) (h.nearest hsettled) rfl
        refine ⟨a :: path, .step hne htraced, .step hne hentered hcanonical, ?_⟩
        rw [hdist]
        exact hway.step hentered.edge

theorem Way.head {a : α} {path : List α} {d : Nat} (h : Way step cost start a path d) :
    path[0]? = some a := by
  cases h with
  | start => rfl
  | step => rfl

/-- The rest of a way from any of its vertices on, which costs less. -/
theorem Way.suffix {a : α} {path : List α} {d : Nat} (h : Way step cost start a path d)
    (hpos : ∀ u v, step u v → 0 < cost v) {i : Nat} (hi : i < path.length) :
    ∃ e, Way step cost start path[i] (path.drop i) e ∧ e ≤ d ∧ (0 < i → e < d) := by
  induction h generalizing i with
  | start =>
      obtain rfl : i = 0 := by simpa using hi
      exact ⟨0, .start, le_rfl, fun hzero => absurd hzero (lt_irrefl 0)⟩
  | @step a b path d way edge ih =>
      cases i with
      | zero => exact ⟨_, way.step edge, le_rfl, fun hzero => absurd hzero (lt_irrefl 0)⟩
      | succ i =>
          obtain ⟨e, hway, hle, -⟩ := ih (Nat.lt_of_succ_lt_succ hi)
          have hcost := hpos _ _ edge
          exact ⟨e, hway, by omega, fun _ => by omega⟩

/-- A cheapest way touches itself only from one vertex to the next; otherwise there would be a
shorter one. -/
theorem Way.induced (hpos : ∀ u v, step u v → 0 < cost v) (hsymm : ∀ u v, step u v → step v u)
    (hirrefl : ∀ u, ¬ step u u) {a : α} {path : List α} {d : Nat}
    (h : Way step cost start a path d) (hd : IsDist step cost start a d) :
    InducedPath.Induced step path := by
  induction h with
  | start =>
      refine ⟨List.nodup_singleton start, ?_⟩
      intro i j hi hj
      obtain rfl : i = 0 := by simpa using hi
      obtain rfl : j = 0 := by simpa using hj
      exact iff_of_false (hirrefl start) (by omega)
  | @step a b path d way edge ih =>
      have hcost := hpos _ _ edge
      have hrest := ih ⟨⟨path, way⟩, fun path' e hway =>
        Nat.le_of_add_le_add_right (hd.least _ _ (hway.step edge))⟩
      have hfresh : b ∉ path := by
        intro hmem
        obtain ⟨i, hi, hb⟩ := List.mem_iff_getElem.mp hmem
        obtain ⟨e, hway, hle, -⟩ := way.suffix hpos hi
        rw [hb] at hway
        have hge := hd.least _ _ hway
        omega
      have hfirst : ∀ i (hi : i < path.length), step path[i] b ↔ i = 0 := by
        intro i hi
        constructor
        · intro htouch
          obtain ⟨e, hway, -, hless⟩ := way.suffix hpos hi
          have hge := hd.least _ _ (hway.step htouch)
          by_contra hlater
          have hlt := hless (Nat.pos_of_ne_zero hlater)
          omega
        · rintro rfl
          have ha : path[0] = a :=
            Option.some.inj ((List.getElem?_eq_getElem hi).symm.trans way.head)
          exact ha.symm ▸ edge
      refine ⟨List.nodup_cons.mpr ⟨hfresh, hrest.nodup⟩, ?_⟩
      rintro (_ | i) (_ | j) hi hj
      · exact iff_of_false (hirrefl b) (by omega)
      · have hj' := Nat.lt_of_succ_lt_succ hj
        rw [List.getElem_cons_zero, List.getElem_cons_succ]
        have hback : step b path[j] ↔ step path[j] b := ⟨hsymm _ _, hsymm _ _⟩
        exact (hback.trans (hfirst j hj')).trans (by omega)
      · have hi' := Nat.lt_of_succ_lt_succ hi
        rw [List.getElem_cons_zero, List.getElem_cons_succ]
        exact (hfirst i hi').trans (by omega)
      · rw [List.getElem_cons_succ, List.getElem_cons_succ,
          hrest.adjacent_iff i j (Nat.lt_of_succ_lt_succ hi) (Nat.lt_of_succ_lt_succ hj)]
        omega

end ShortestPath
