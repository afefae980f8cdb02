import Mathlib

/-!
# Computations that may unwind

A stateful computation returns a value or unwinds with an exception; what it has done to
the state stays done. `Ends` says how a computation can end, as far as a view of the
state shows. The rules follow the shape of the program.
-/
namespace Unwinding

variable {σ ε α β G : Type}

abbrev Unwind (ε σ α : Type) := ExceptT ε (StateM σ) α

/-- A call that does not unwind. -/
def call (m : StateM σ α) : Unwind ε σ α := fun s => (.ok (m s).1, (m s).2)

def unwind (e : ε) : Unwind ε σ α := fun s => (.error e, s)

/-- A scope with a guard: `cleanup` runs on the way out unless the result is kept. -/
def guarded (keep : α → Bool) (cleanup : StateM σ Unit) (m : Unwind ε σ α) : Unwind ε σ α := fun s =>
  match m s with
  | (.ok a, t) => (.ok a, if keep a then t else (cleanup t).2)
  | (.error e, t) => (.error e, (cleanup t).2)

/-- A block with handlers; an exception without one goes on. -/
def caught (handle : ε → Option α) (m : Unwind ε σ α) : Unwind ε σ α := fun s =>
  match m s with
  | (.ok a, t) => (.ok a, t)
  | (.error e, t) => ((handle e).elim (.error e) .ok, t)

/-- From a state that looks like `g`, the end of `m` and how the state looks then satisfy `Q`. -/
def Ends (view : σ → G) (g : G) (m : Unwind ε σ α) (Q : Except ε α → G → Prop) : Prop :=
  ∀ s, view s = g → Q (m s).1 (view (m s).2)

/-- What is left to show of an end, when `f` goes on from a value. -/
def andThen (view : σ → G) (f : α → Unwind ε σ β) (Q : Except ε β → G → Prop) :
    Except ε α → G → Prop
  | .ok a, g => Ends view g (f a) Q
  | .error e, g => Q (.error e) g

variable {view : σ → G} {g : G} {m : Unwind ε σ α} {Q R : Except ε α → G → Prop}

theorem Ends.mono (h : Ends view g m R) (hQ : ∀ r g', R r g' → Q r g') : Ends view g m Q := by
  intro s hs
  exact hQ _ _ (h s hs)

theorem ends_pure {a : α} (h : Q (.ok a) g) : Ends view g (pure a : Unwind ε σ α) Q := by
  intro s hs
  rw [← hs] at h
  exact h

theorem ends_unwind {e : ε} (h : Q (.error e) g) : Ends view g (unwind e : Unwind ε σ α) Q := by
  intro s hs
  rw [← hs] at h
  exact h

theorem ends_bind {f : α → Unwind ε σ β} {P : Except ε β → G → Prop}
    (h : Ends view g m (andThen view f P)) : Ends view g (m >>= f) P := by
  intro s hs
  have hm := h s hs
  have hrun : (m >>= f) s = match m s with
      | (.ok a, t) => f a t
      | (.error e, t) => (.error e, t) := by
    change ExceptT.bind m f s = _
    simp only [ExceptT.bind, ExceptT.mk, bind, StateT.bind, ExceptT.bindCont]
    rcases m s with ⟨_ | _, t⟩ <;> rfl
  rw [hrun]
  rcases hend : m s with ⟨e | a, t⟩
  · rw [hend] at hm
    exact hm
  · rw [hend] at hm
    exact hm t rfl

theorem ends_call {c : StateM σ α} (h : ∀ s, view s = g → Q (.ok (c s).1) (view (c s).2)) :
    Ends view g (call c) Q := h

theorem ends_ite {c : Prop} [Decidable c] {n : Unwind ε σ α} (hm : c → Ends view g m Q)
    (hn : ¬ c → Ends view g n Q) : Ends view g (if c then m else n) Q := by
  split
  · next h => exact hm h
  · next h => exact hn h

/-- A cleanup takes states that look like `g` to states that look like `g'`. -/
def Leads (view : σ → G) (cleanup : StateM σ Unit) (g g' : G) : Prop :=
  ∀ s, view s = g → view (cleanup s).2 = g'

/-- The end of a guarded scope. -/
theorem ends_guarded {keep : α → Bool} {cleanup : StateM σ Unit}
    (h : Ends view g m fun r g' => match r with
      | .ok a => if keep a then Q (.ok a) g' else ∃ g'', Leads view cleanup g' g'' ∧ Q (.ok a) g''
      | .error e => ∃ g'', Leads view cleanup g' g'' ∧ Q (.error e) g'') :
    Ends view g (guarded keep cleanup m) Q := by
  intro s hs
  have hm := h s hs
  unfold guarded
  rcases hend : m s with ⟨e | a, t⟩
  · rw [hend] at hm
    obtain ⟨g'', hleads, hQ⟩ := hm
    rw [← hleads t rfl] at hQ
    exact hQ
  · rw [hend] at hm
    simp only at hm ⊢
    split
    · next hkeep =>
        rw [if_pos hkeep] at hm
        exact hm
    · next hdrop =>
        rw [if_neg hdrop] at hm
        obtain ⟨g'', hleads, hQ⟩ := hm
        rw [← hleads t rfl] at hQ
        exact hQ

theorem ends_caught {handle : ε → Option α}
    (h : Ends view g m fun r g' => match r with
      | .ok a => Q (.ok a) g'
      | .error e => Q ((handle e).elim (.error e) .ok) g') :
    Ends view g (caught handle m) Q := by
  intro s hs
  have hm := h s hs
  unfold caught
  rcases hend : m s with ⟨e | a, t⟩
  · rw [hend] at hm
    exact hm
  · rw [hend] at hm
    exact hm

end Unwinding
