import Mathlib

/-!
# Sequenced checks

A run of guarded early returns is a chain of `failIf` in `Except`. The lemmas
turn an accepted chain into the conjunction of its negated guards.
-/
namespace Checks

variable {ε : Type*} {α β σ : Type}

/-- `if (condition) return failure;` -/
def failIf (condition : Prop) [Decidable condition] (failure : ε) : Except ε Unit :=
  if condition then .error failure else .ok ()

@[simp] theorem failIf_eq_ok {condition : Prop} [Decidable condition] {failure : ε} {u : Unit} :
    failIf condition failure = .ok u ↔ ¬ condition := by
  unfold failIf
  split <;> simp_all

theorem failIf_false {condition : Prop} [Decidable condition] {failure : ε} (h : ¬ condition) :
    failIf condition failure = .ok () := if_neg h

theorem failIf_true {condition : Prop} [Decidable condition] {failure : ε} (h : condition) :
    failIf condition failure = .error failure := if_pos h

theorem bind_eq_ok {x : Except ε α} {f : α → Except ε β} {b : β} :
    (x >>= f) = .ok b ↔ ∃ a, x = .ok a ∧ f a = .ok b := by
  cases x with
  | error e =>
      constructor
      · intro h
        cases h
      · rintro ⟨a, ha, -⟩
        cases ha
  | ok a =>
      constructor
      · intro h
        exact ⟨a, rfl, h⟩
      · rintro ⟨_, ha, h⟩
        cases ha
        exact h

@[simp] theorem ok_bind (a : α) (f : α → Except ε β) : ((Except.ok a : Except ε α) >>= f) = f a := rfl

@[simp] theorem error_bind (e : ε) (f : α → Except ε β) :
    ((Except.error e : Except ε α) >>= f) = .error e := rfl

/-- A guard followed by the rest of the function. -/
theorem failIf_bind_eq_ok {condition : Prop} [Decidable condition] {failure : ε}
    {rest : Unit → Except ε β} {b : β} :
    (failIf condition failure >>= rest) = .ok b ↔ ¬ condition ∧ rest () = .ok b := by
  rw [bind_eq_ok]
  constructor
  · rintro ⟨_, hc, h⟩
    exact ⟨failIf_eq_ok.mp hc, h⟩
  · rintro ⟨hc, h⟩
    exact ⟨(), failIf_false hc, h⟩

theorem failIf_bind_of_not {condition : Prop} [Decidable condition] {failure : ε}
    {rest : Unit → Except ε β} (h : ¬ condition) :
    (failIf condition failure >>= rest) = rest () := by
  rw [failIf_false h, ok_bind]

/-- A loop whose body can return early with an error. -/
def forEach (xs : List α) (body : σ → α → Except ε σ) (s : σ) : Except ε σ := xs.foldlM body s

@[simp] theorem forEach_nil (body : σ → α → Except ε σ) (s : σ) : forEach [] body s = .ok s := rfl

@[simp] theorem forEach_cons (x : α) (xs : List α) (body : σ → α → Except ε σ) (s : σ) :
    forEach (x :: xs) body s = body s x >>= forEach xs body := rfl

theorem forEach_append (xs ys : List α) (body : σ → α → Except ε σ) (s : σ) :
    forEach (xs ++ ys) body s = forEach xs body s >>= forEach ys body := List.foldlM_append

/-- What every step of a loop preserves holds when the loop ends. -/
theorem forEach_invariant {P : σ → Prop} {xs : List α} {body : σ → α → Except ε σ} {s t : σ}
    (hs : P s) (step : ∀ x ∈ xs, ∀ s s', P s → body s x = .ok s' → P s')
    (h : forEach xs body s = .ok t) : P t := by
  induction xs generalizing s with
  | nil =>
      cases h
      exact hs
  | cons x xs ih =>
      obtain ⟨s', hx, hrest⟩ := bind_eq_ok.mp h
      have hs' : P s' := step x List.mem_cons_self s s' hs hx
      exact ih hs' (fun y hy => step y (List.mem_cons_of_mem x hy)) hrest

/-- A loop over `xs` whose steps go through as long as its invariant holds. -/
theorem foldlM_total {m : Type → Type*} [Monad m] [LawfulMonad m] {P : Nat → σ → Prop}
    (xs : List α) (step : σ → α → m σ) (s : σ) (hs : P 0 s)
    (hstep : ∀ i (hi : i < xs.length) s, P i s →
      ∃ s', step s xs[i] = pure s' ∧ P (i + 1) s') :
    ∃ t, xs.foldlM step s = pure t ∧ P xs.length t := by
  induction xs generalizing P s with
  | nil => exact ⟨s, rfl, hs⟩
  | cons x xs ih =>
      obtain ⟨s', hx, hs'⟩ := hstep 0 (Nat.succ_pos _) s hs
      obtain ⟨t, hrest, ht⟩ := ih (P := fun i => P (i + 1)) s' hs' fun i hi s h =>
        hstep (i + 1) (Nat.succ_lt_succ hi) s h
      rw [List.getElem_cons_zero] at hx
      refine ⟨t, ?_, ht⟩
      rw [List.foldlM_cons, hx, pure_bind]
      exact hrest

theorem forEach_total {P : Nat → σ → Prop} (xs : List α) (body : σ → α → Except ε σ) (s : σ)
    (hs : P 0 s) (hstep : ∀ i (hi : i < xs.length) s, P i s →
      ∃ s', body s xs[i] = .ok s' ∧ P (i + 1) s') :
    ∃ t, forEach xs body s = .ok t ∧ P xs.length t := foldlM_total xs body s hs hstep

theorem exists_bind_eq_ok {x : Except ε α} {f : α → Except ε β} (hx : ∃ a, x = .ok a)
    (hf : ∀ a, ∃ b, f a = .ok b) : ∃ b, (x >>= f) = .ok b := by
  obtain ⟨a, rfl⟩ := hx
  exact hf a

/-- A loop that gathers results and finds every one of them. -/
theorem mapM_total {xs : List α} {f : α → Except ε β} (h : ∀ x ∈ xs, ∃ y, f x = .ok y) :
    ∃ ys, xs.mapM f = .ok ys := by
  induction xs with
  | nil => exact ⟨[], rfl⟩
  | cons x xs ih =>
      obtain ⟨y, hy⟩ := h x List.mem_cons_self
      obtain ⟨ys, hys⟩ := ih fun x hx => h x (List.mem_cons_of_mem _ hx)
      refine ⟨y :: ys, ?_⟩
      rw [List.mapM_cons, hy, ok_bind, hys, ok_bind]
      rfl

/-- A loop that tests each element without looking at what it has gathered: it ends when all
elements pass, with what the untested loop gathers. -/
theorem foldlM_eq_some_iff {xs : List α} {step : σ → α → Option σ} {next : σ → α → σ}
    {good : α → Prop} (h : ∀ x ∈ xs, ∀ s t, step s x = some t ↔ good x ∧ next s x = t) {s t : σ} :
    xs.foldlM step s = some t ↔ (∀ x ∈ xs, good x) ∧ xs.foldl next s = t := by
  induction xs generalizing s with
  | nil => simp
  | cons x xs ih =>
      have hrest := ih (s := next s x) (fun y hy => h y (List.mem_cons_of_mem x hy))
      rw [List.foldlM_cons, List.foldl_cons, List.forall_mem_cons]
      constructor
      · intro hrun
        obtain ⟨s', hx, hxs⟩ := Option.bind_eq_some_iff.mp hrun
        obtain ⟨hgood, rfl⟩ := (h x List.mem_cons_self s s').mp hx
        exact ⟨⟨hgood, (hrest.mp hxs).1⟩, (hrest.mp hxs).2⟩
      · rintro ⟨⟨hgood, hall⟩, hend⟩
        apply Option.bind_eq_some_iff.mpr
        exact ⟨next s x, (h x List.mem_cons_self s _).mpr ⟨hgood, rfl⟩, hrest.mpr ⟨hall, hend⟩⟩

/-- A loop that counts. -/
theorem foldl_count (p : α → Bool) (xs : List α) (n : Nat) :
    xs.foldl (fun n x => if p x then n + 1 else n) n = n + (xs.filter p).length := by
  induction xs generalizing n with
  | nil => rfl
  | cons x xs ih =>
      rw [List.foldl_cons, ih]
      by_cases hx : p x
      · rw [if_pos hx, List.filter_cons_of_pos hx, List.length_cons]
        omega
      · rw [if_neg hx, List.filter_cons_of_neg hx]

/-- A loop that remembers the last hit. -/
theorem foldl_last (p : α → Bool) (xs : List α) (a : α) :
    xs.foldl (fun a x => if p x then x else a) a = (xs.filter p).getLastD a := by
  induction xs generalizing a with
  | nil => rfl
  | cons x xs ih =>
      rw [List.foldl_cons, ih]
      by_cases hx : p x
      · rw [if_pos hx, List.filter_cons_of_pos hx, List.getLastD_cons]
      · rw [if_neg hx, List.filter_cons_of_neg hx]

/-- A loop that remembers the first hit; `mark` stands for none so far. -/
theorem foldl_first [DecidableEq α] (p : α → Bool) (xs : List α) (mark : α)
    (hmark : ∀ x ∈ xs, x ≠ mark) :
    xs.foldl (fun a x => if p x ∧ a = mark then x else a) mark = (xs.filter p).headD mark := by
  have hkeep : ∀ (ys : List α) (a : α), a ≠ mark →
      ys.foldl (fun a x => if p x ∧ a = mark then x else a) a = a := by
    intro ys a ha
    induction ys with
    | nil => rfl
    | cons y ys ih => rw [List.foldl_cons, if_neg (fun h => ha h.2), ih]
  induction xs with
  | nil => rfl
  | cons x xs ih =>
      rw [List.foldl_cons]
      by_cases hx : p x
      · rw [if_pos ⟨hx, rfl⟩, List.filter_cons_of_pos hx, List.headD_cons]
        exact hkeep xs x (hmark x List.mem_cons_self)
      · rw [if_neg (fun h => hx h.1), List.filter_cons_of_neg hx]
        exact ih fun y hy => hmark y (List.mem_cons_of_mem x hy)

/-- A loop that gathers one result for each element. -/
theorem forall₂_of_mapM {xs : List α} {f : α → Except ε β} {ys : List β} (h : xs.mapM f = .ok ys) :
    List.Forall₂ (fun x y => f x = .ok y) xs ys := by
  induction xs generalizing ys with
  | nil =>
      cases h
      exact .nil
  | cons x xs ih =>
      rw [List.mapM_cons] at h
      obtain ⟨y, hy, h⟩ := bind_eq_ok.mp h
      obtain ⟨rest, hrest, h⟩ := bind_eq_ok.mp h
      cases h
      exact .cons hy (ih hrest)

theorem length_of_mapM {xs : List α} {f : α → Except ε β} {ys : List β} (h : xs.mapM f = .ok ys) :
    ys.length = xs.length := (forall₂_of_mapM h).length_eq.symm

/-- The result for the element at a position. -/
theorem getElem?_of_mapM {xs : List α} {f : α → Except ε β} {ys : List β} (h : xs.mapM f = .ok ys)
    {i : Nat} {x : α} (hx : xs[i]? = some x) : ∃ y, ys[i]? = some y ∧ f x = .ok y := by
  obtain ⟨hlength, hget⟩ := List.forall₂_iff_get.mp (forall₂_of_mapM h)
  obtain ⟨hi, rfl⟩ := List.getElem?_eq_some_iff.mp hx
  have hi' : i < ys.length := hlength ▸ hi
  exact ⟨ys[i], List.getElem?_eq_getElem hi', hget i hi hi'⟩

/-- Every error of `x` has the property `P`. -/
def FailsWith (P : ε → Prop) (x : Except ε α) : Prop := ∀ e, x = .error e → P e

theorem failsWith_failIf {P : ε → Prop} {condition : Prop} [Decidable condition] {failure : ε}
    (h : P failure) :
    FailsWith P (failIf condition failure) := by
  intro e he
  unfold failIf at he
  split at he
  · cases he
    exact h
  · cases he

theorem failsWith_bind {P : ε → Prop} {x : Except ε α} {f : α → Except ε β} (hx : FailsWith P x)
    (hf : ∀ a, FailsWith P (f a)) : FailsWith P (x >>= f) := by
  intro e he
  cases x with
  | error e' =>
      cases he
      exact hx _ rfl
  | ok a => exact hf a e he

theorem failsWith_forEach {P : ε → Prop} {xs : List α} {body : σ → α → Except ε σ}
    (h : ∀ s x, FailsWith P (body s x)) (s : σ) : FailsWith P (forEach xs body s) := by
  induction xs generalizing s with
  | nil =>
      intro e he
      cases he
  | cons x xs ih => exact failsWith_bind (h s x) ih

end Checks
