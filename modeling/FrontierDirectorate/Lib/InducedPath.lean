import Mathlib

/-!
# Induced paths

A walk that leaves every vertex by its only neighbour other than the one before
it never meets itself: its vertices form an induced path. Conversely such a walk
finds every induced path from either end.
-/
namespace InducedPath

variable {α : Type*}

/-- Two members are adjacent exactly when they are consecutive. -/
structure Induced (adjacent : α → α → Prop) (path : List α) : Prop where
  nodup : path.Nodup
  adjacent_iff : ∀ i j (hi : i < path.length) (hj : j < path.length),
    adjacent path[i] path[j] ↔ i + 1 = j ∨ j + 1 = i

/-- `near` lists the marked neighbours of a marked vertex. -/
structure Neighbourhood (adjacent : α → α → Prop) (marked : α → Prop) (near : α → List α) :
    Prop where
  symm : ∀ a b, adjacent a b → adjacent b a
  irrefl : ∀ a, ¬ adjacent a a
  mem : ∀ a, marked a → ∀ b, b ∈ near a ↔ marked b ∧ adjacent a b
  nodup : ∀ a, marked a → (near a).Nodup

/-- The walk that never turns back; it stops where nothing else is left. -/
inductive Walk [DecidableEq α] (near : α → List α) : α → List α → Prop
  | stop {previous current : α} (left : (near current).filter (· ≠ previous) = []) :
      Walk near previous [current]
  | step {previous current next : α} {rest : List α}
      (left : (near current).filter (· ≠ previous) = [next])
      (tail : Walk near current (next :: rest)) : Walk near previous (current :: next :: rest)

/-- Reversing an induced path. -/
theorem Induced.reverse {adjacent : α → α → Prop} {path : List α} (h : Induced adjacent path) :
    Induced adjacent path.reverse where
  nodup := List.nodup_reverse.mpr h.nodup
  adjacent_iff := by
    intro i j hi hj
    rw [List.length_reverse] at hi hj
    rw [List.getElem_reverse, List.getElem_reverse, h.adjacent_iff]
    omega

/-- A list without repetition that holds exactly one element. -/
theorem eq_singleton_iff {l : List α} (hl : l.Nodup) {a : α} : l = [a] ↔ ∀ x, x ∈ l ↔ x = a := by
  constructor
  · rintro rfl x
    exact List.mem_singleton
  · intro h
    apply List.perm_singleton.mp
    apply (List.perm_ext_iff_of_nodup hl (List.nodup_singleton a)).mpr
    intro x
    rw [h, List.mem_singleton]

section walk

variable [DecidableEq α] {adjacent : α → α → Prop} {marked : α → Prop} {near : α → List α}
  {previous : α} {path : List α}

/-- Every vertex of a walk has the one before and the one behind it as its only neighbours. -/
theorem Walk.leaves (h : Walk near previous path) (i : Nat) (hi : i < path.length) (x : α) :
    x ∈ near path[i] ∧ (previous :: path)[i]? ≠ some x ↔ path[i + 1]? = some x := by
  induction h generalizing i with
  | @stop previous current left =>
      obtain rfl : i = 0 := by simpa using hi
      constructor
      · rintro ⟨hmem, hne⟩
        have hin : x ∈ (near current).filter (· ≠ previous) := by
          rw [List.mem_filter, decide_eq_true_iff]
          exact ⟨hmem, fun heq => hne (congrArg some heq.symm)⟩
        rw [left] at hin
        cases hin
      · intro hnone
        cases hnone
  | @step previous current next rest left tail ih =>
      cases i with
      | zero =>
          have hleft : x ∈ near current ∧ x ≠ previous ↔ x = next := by
            rw [← List.mem_singleton, ← left, List.mem_filter, decide_eq_true_iff]
          have hprevious : some previous ≠ some x ↔ x ≠ previous := by
            rw [ne_eq, Option.some_inj, eq_comm]
          exact (and_congr_right fun _ => hprevious).trans
            (hleft.trans (eq_comm.trans Option.some_inj.symm))
      | succ i => exact ih i (Nat.lt_of_succ_lt_succ hi)

/-- What the two neighbours of each vertex are, read off a list with no repetition. -/
theorem walk_of_leaves (hnodup : ∀ a ∈ path, (near a).Nodup) (hne : path ≠ [])
    (h : ∀ i (hi : i < path.length) x,
      x ∈ near path[i] ∧ (previous :: path)[i]? ≠ some x ↔ path[i + 1]? = some x) :
    Walk near previous path := by
  induction path generalizing previous with
  | nil => exact absurd rfl hne
  | cons current rest ih =>
      have hfirst : ∀ x, x ∈ (near current).filter (· ≠ previous) ↔ rest[0]? = some x := by
        intro x
        have hprevious : x ≠ previous ↔ some previous ≠ some x := by
          rw [ne_eq, ne_eq, Option.some_inj, eq_comm]
        rw [List.mem_filter, decide_eq_true_iff, hprevious]
        exact h 0 (Nat.succ_pos _) x
      have hfilter : ((near current).filter (· ≠ previous)).Nodup :=
        (hnodup current List.mem_cons_self).filter _
      cases rest with
      | nil =>
          apply Walk.stop
          apply List.eq_nil_iff_forall_not_mem.mpr
          intro x hx
          cases (hfirst x).mp hx
      | cons next rest =>
          refine Walk.step ((eq_singleton_iff hfilter).mpr ?_) (ih ?_ (List.cons_ne_nil _ _) ?_)
          · intro x
            rw [hfirst]
            exact Option.some_inj.trans eq_comm
          · intro a ha
            exact hnodup a (List.mem_cons_of_mem current ha)
          · intro i hi x
            exact h (i + 1) (Nat.succ_lt_succ hi) x

variable (hgraph : Neighbourhood adjacent marked near)
include hgraph

/-- All vertices of a walk from a marked vertex are marked. -/
theorem Walk.members_marked (h : Walk near previous path) (hstart : ∀ a ∈ path.head?, marked a) :
    ∀ a ∈ path, marked a := by
  induction h with
  | @stop previous current left =>
      intro a ha
      rw [List.mem_singleton] at ha
      exact hstart a (by simp [ha])
  | @step previous current next rest left tail ih =>
      have hcurrent : marked current := hstart current rfl
      have hnext : next ∈ near current := by
        have hmem : next ∈ (near current).filter (· ≠ previous) := by
          rw [left]
          exact List.mem_singleton_self next
        exact List.mem_of_mem_filter hmem
      have hrest := ih (by
        intro a ha
        cases ha
        exact ((hgraph.mem current hcurrent next).mp hnext).1)
      intro a ha
      rcases List.mem_cons.mp ha with rfl | ha
      · exact hcurrent
      · exact hrest a ha

/-- Consecutive vertices of a walk are adjacent, and it does not turn back. -/
theorem Walk.next (h : Walk near previous path) (hmarked : ∀ a ∈ path, marked a) {i : Nat}
    (hi : i + 1 < path.length) : adjacent path[i] path[i + 1] ∧
      (previous :: path)[i]? ≠ some path[i + 1] := by
  have hi' := Nat.lt_of_succ_lt hi
  obtain ⟨hmem, hback⟩ := (h.leaves i hi' path[i + 1]).mpr (List.getElem?_eq_getElem hi)
  exact ⟨((hgraph.mem _ (hmarked _ (List.getElem_mem hi')) _).mp hmem).2, hback⟩

/-- A walk never comes back to a vertex. The first return would have to enter along one of the
two neighbours of the earlier visit, and both are taken. -/
theorem Walk.getElem?_ne (h : Walk near previous path) (hmarked : ∀ a ∈ path, marked a)
    (hfirst : ∀ a ∈ path.head?, previous ∉ near a) :
    ∀ j < path.length, ∀ i < j, path[i]? ≠ path[j]? := by
  intro j
  induction j using Nat.strong_induction_on with
  | _ j ih =>
      intro hj i hi heq
      obtain ⟨k, rfl⟩ : ∃ k, j = k + 1 := ⟨j - 1, by omega⟩
      have hk : k < path.length := Nat.lt_of_succ_lt hj
      have hi' : i < path.length := Nat.lt_trans hi hj
      have hsame : path[i] = path[k + 1] := by
        rw [List.getElem?_eq_getElem hj, List.getElem?_eq_getElem hi'] at heq
        exact Option.some_inj.mp heq
      -- the vertex before the return is a neighbour of the returned-to vertex
      have hadjacent : adjacent path[i] path[k] := by
        rw [hsame]
        exact hgraph.symm _ _ (h.next hgraph hmarked hj).1
      have hback : path[k] ∈ near path[i] := (hgraph.mem _ (hmarked _ (List.getElem_mem hi')) _).mpr
        ⟨hmarked _ (List.getElem_mem hk), hadjacent⟩
      by_cases hprevious : (previous :: path)[i]? = some path[k]
      · cases i with
        | zero =>
            have hprev : previous = path[k] := Option.some_inj.mp hprevious
            rw [← hprev] at hback
            apply hfirst path[0] _ hback
            rw [List.head?_eq_getElem?]
            exact List.getElem?_eq_getElem hi'
        | succ i =>
            have hlt : i < k := Nat.lt_of_succ_lt_succ hi
            apply ih k k.lt_succ_self hk i hlt
            rw [List.getElem?_eq_getElem hk]
            exact hprevious
      · have hforward := (h.leaves i hi' path[k]).mp ⟨hback, hprevious⟩
        rcases Nat.lt_trichotomy (i + 1) k with hlt | rfl | hgt
        · apply ih k k.lt_succ_self hk (i + 1) hlt
          rw [hforward, List.getElem?_eq_getElem hk]
        · apply (h.next hgraph hmarked hj).2
          rw [← hsame]
          exact List.getElem?_eq_getElem hi'
        · obtain rfl : i = k := by omega
          exact hgraph.irrefl _ hadjacent

/-- The vertices of a walk form an induced path. -/
theorem Walk.induced (h : Walk near previous path) (hmarked : ∀ a ∈ path, marked a)
    (hfirst : ∀ a ∈ path.head?, previous ∉ near a) : Induced adjacent path := by
  have hnodup : path.Nodup := by
    rw [List.nodup_iff_getElem?_ne_getElem?]
    intro i j hij hj
    exact h.getElem?_ne hgraph hmarked hfirst j hj i hij
  refine ⟨hnodup, ?_⟩
  intro i j hi hj
  constructor
  · intro hadjacent
    have hmem : path[j] ∈ near path[i] := (hgraph.mem _ (hmarked _ (List.getElem_mem _)) _).mpr
      ⟨hmarked _ (List.getElem_mem _), hadjacent⟩
    by_cases hprevious : (previous :: path)[i]? = some path[j]
    · cases i with
      | zero =>
          have hprev : previous = path[j] := Option.some_inj.mp hprevious
          rw [← hprev] at hmem
          refine absurd hmem (hfirst path[0] ?_)
          rw [List.head?_eq_getElem?]
          exact List.getElem?_eq_getElem hi
      | succ i =>
          right
          obtain ⟨hlt, heq⟩ := List.getElem?_eq_some_iff.mp hprevious
          exact congrArg (· + 1) ((hnodup.getElem_inj_iff).mp heq).symm
    · left
      obtain ⟨hlt, heq⟩ := List.getElem?_eq_some_iff.mp
        ((h.leaves i hi path[j]).mp ⟨hmem, hprevious⟩)
      exact (hnodup.getElem_inj_iff).mp heq
  · rintro (rfl | rfl)
    · exact (h.next hgraph hmarked hj).1
    · exact hgraph.symm _ _ (h.next hgraph hmarked hi).1

/-- An induced path that takes in all marked vertices is walked from its first vertex. -/
theorem Induced.walk (h : Induced adjacent path) (hne : path ≠ [])
    (hmarked : ∀ a, a ∈ path ↔ marked a) (hfirst : ¬ marked previous) :
    Walk near previous path := by
  refine walk_of_leaves (fun a ha => hgraph.nodup a ((hmarked a).mp ha)) hne ?_
  intro i hi x
  have hmem : x ∈ near path[i] ↔ marked x ∧ adjacent path[i] x :=
    hgraph.mem _ ((hmarked _).mp (List.getElem_mem hi)) x
  constructor
  · rintro ⟨hnear, hback⟩
    obtain ⟨hx, hadjacent⟩ := hmem.mp hnear
    obtain ⟨j, hj, rfl⟩ := List.mem_iff_getElem.mp ((hmarked x).mpr hx)
    rcases (h.adjacent_iff i j hi hj).mp hadjacent with rfl | rfl
    · exact List.getElem?_eq_getElem hj
    · exact absurd (List.getElem?_eq_getElem hj) hback
  · intro hget
    obtain ⟨hlt, rfl⟩ := List.getElem?_eq_some_iff.mp hget
    have hx : marked path[i + 1] := (hmarked _).mp (List.getElem_mem hlt)
    refine ⟨hmem.mpr ⟨hx, (h.adjacent_iff i (i + 1) hi hlt).mpr (.inl rfl)⟩, ?_⟩
    intro heq
    cases i with
    | zero =>
        have hprevious : previous = path[0 + 1] := Option.some_inj.mp heq
        exact hfirst (hprevious ▸ hx)
    | succ i =>
        obtain ⟨hlt', heq⟩ := List.getElem?_eq_some_iff.mp heq
        have hindex : i = i + 1 + 1 := (h.nodup.getElem_inj_iff).mp heq
        omega

omit [DecidableEq α] in
/-- Degrees along an induced path that takes in all marked vertices. -/
theorem Induced.degree (h : Induced adjacent path) (hmarked : ∀ a, a ∈ path ↔ marked a) (i : Nat)
    (hi : i < path.length) : (near path[i]).length =
      (if i + 1 < path.length then 1 else 0) + if 0 < i then 1 else 0 := by
  have hmem : ∀ x, x ∈ near path[i] ↔
      path[i + 1]? = some x ∨ (0 < i ∧ path[i - 1]? = some x) := by
    intro x
    rw [hgraph.mem _ ((hmarked _).mp (List.getElem_mem hi)) x]
    constructor
    · rintro ⟨hx, hadjacent⟩
      obtain ⟨j, hj, rfl⟩ := List.mem_iff_getElem.mp ((hmarked x).mpr hx)
      rcases (h.adjacent_iff i j hi hj).mp hadjacent with rfl | rfl
      · exact .inl (List.getElem?_eq_getElem hj)
      · exact .inr ⟨Nat.succ_pos j, List.getElem?_eq_getElem hj⟩
    · have hget : ∀ j, (i + 1 = j ∨ j + 1 = i) → path[j]? = some x →
          marked x ∧ adjacent path[i] x := by
        intro j hij hx
        obtain ⟨hj, rfl⟩ := List.getElem?_eq_some_iff.mp hx
        exact ⟨(hmarked _).mp (List.getElem_mem hj), (h.adjacent_iff i j hi hj).mpr hij⟩
      rintro (hx | ⟨hpos, hx⟩)
      · exact hget (i + 1) (.inl rfl) hx
      · exact hget (i - 1) (.inr (Nat.sub_add_cancel hpos)) hx
  have hnodup := hgraph.nodup _ ((hmarked _).mp (List.getElem_mem hi))
  have hlist : (near path[i]).Perm
      ((path[i + 1]?).toList ++ if 0 < i then (path[i - 1]?).toList else []) := by
    apply (List.perm_ext_iff_of_nodup hnodup ?_).mpr
    · intro x
      rw [hmem, List.mem_append, Option.mem_toList]
      split
      · next hpos => rw [Option.mem_toList]; simp [hpos]
      · next hpos => simp [hpos]
    · have hone : ∀ j : Nat, ((path[j]?).toList).Nodup := by
        intro j
        cases path[j]? <;> simp
      split
      · next hpos =>
          apply List.Nodup.append (hone _) (hone _)
          intro x hnext hprevious
          obtain ⟨hj, hx⟩ := List.getElem?_eq_some_iff.mp (Option.mem_toList.mp hnext)
          obtain ⟨hk, hx'⟩ := List.getElem?_eq_some_iff.mp (Option.mem_toList.mp hprevious)
          have hindex : i + 1 = i - 1 := (h.nodup.getElem_inj_iff).mp (hx.trans hx'.symm)
          omega
      · rw [List.append_nil]
        exact hone _
  rw [hlist.length_eq, List.length_append]
  congr 1
  · by_cases hnext : i + 1 < path.length
    · rw [List.getElem?_eq_getElem hnext, if_pos hnext]
      rfl
    · rw [List.getElem?_eq_none (Nat.le_of_not_lt hnext), if_neg hnext]
      rfl
  · by_cases hpos : 0 < i
    · rw [if_pos hpos, if_pos hpos,
        List.getElem?_eq_getElem (Nat.lt_of_le_of_lt (Nat.sub_le i 1) hi)]
      rfl
    · rw [if_neg hpos, if_neg hpos]
      rfl

omit [DecidableEq α] in
/-- The vertices of degree one are the two ends, all others have degree two. -/
theorem Induced.endpoints {first last : α} {middle : List α}
    (h : Induced adjacent (first :: (middle ++ [last])))
    (hmarked : ∀ a, a ∈ first :: (middle ++ [last]) ↔ marked a) :
    (near first).length = 1 ∧ (near last).length = 1 ∧ ∀ a ∈ middle, (near a).length = 2 := by
  have hdegree := h.degree hgraph hmarked
  have hlength : (first :: (middle ++ [last])).length = middle.length + 2 := by simp
  refine ⟨?_, ?_, ?_⟩
  · have hfirst := hdegree 0 (by omega)
    rw [if_pos (by omega), if_neg (by omega)] at hfirst
    exact hfirst
  · have hlast := hdegree (middle.length + 1) (by omega)
    rw [if_neg (by omega), if_pos (by omega)] at hlast
    simpa using hlast
  · intro a ha
    obtain ⟨i, hi, rfl⟩ := List.mem_iff_getElem.mp ha
    have hmiddle := hdegree (i + 1) (by omega)
    rw [if_pos (by omega), if_pos (by omega)] at hmiddle
    simpa [List.getElem_append_left hi] using hmiddle

end walk

/-- A list without repetition of marked vertices that is as long as the list of all of them. -/
theorem mem_of_length_eq [DecidableEq α] {path all : List α} (hnodup : path.Nodup)
    (hsub : ∀ a ∈ path, a ∈ all) (hlength : all.length ≤ path.length) : ∀ a ∈ all, a ∈ path := by
  intro a ha
  exact ((hnodup.subperm hsub).perm_of_length_le hlength).mem_iff.mpr ha

end InducedPath
