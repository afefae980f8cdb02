import Mathlib

/-!
# Resource accounting for stateful computations

A judgement `Holds μ d m δ` says: when the running computation `m` owns the
amount `d` of the measured resource on entry, it owns `δ r` on exit, where `r` is
its result, and nothing else has changed. The frame is the universally
quantified base amount. The rules follow the shape of the program.
-/
namespace Accounting

variable {σ α β : Type} {G : Type*} [Add G]

/-- From base `b` plus `d` every run of `m` ends at base `b` plus `δ` of its result. -/
def Holds (μ : σ → G) (d : G) (m : StateM σ α) (δ : α → G) : Prop :=
  ∀ b s, μ s = b + d → μ (m s).2 = b + δ (m s).1

theorem run_pure (a : α) (s : σ) : (pure a : StateM σ α) s = (a, s) := rfl

theorem run_bind (m : StateM σ α) (f : α → StateM σ β) (s : σ) :
    (m >>= f) s = f (m s).1 (m s).2 := rfl

theorem run_ite {c : Prop} [Decidable c] (m n : StateM σ α) (s : σ) :
    (if c then m else n) s = if c then m s else n s := by
  split <;> rfl

variable {μ : σ → G}

theorem holds_pure {d : G} {δ : α → G} {a : α} (h : d = δ a) :
    Holds μ d (pure a : StateM σ α) δ := by
  intro b s hs
  rw [h] at hs
  exact hs

theorem holds_bind {d : G} {m : StateM σ α} {δ : α → G} {f : α → StateM σ β} {ε : β → G}
    (hm : Holds μ d m δ) (hf : ∀ a, Holds μ (δ a) (f a) ε) : Holds μ d (m >>= f) ε := by
  intro b s hs
  exact hf _ b _ (hm b s hs)

/-- A bind whose continuation may use what every result satisfies. -/
theorem holds_bind_of {P : α → Prop} {d : G} {m : StateM σ α} {δ : α → G} {f : α → StateM σ β}
    {ε : β → G} (hm : Holds μ d m δ) (hP : ∀ s, P (m s).1)
    (hf : ∀ a, P a → Holds μ (δ a) (f a) ε) : Holds μ d (m >>= f) ε := by
  intro b s hs
  exact hf _ (hP s) b _ (hm b s hs)

theorem holds_map {d : G} {m : StateM σ α} {δ : α → G} {f : α → β} {ε : β → G}
    (hm : Holds μ d m δ) (hf : ∀ a, δ a = ε (f a)) : Holds μ d (f <$> m) ε := by
  intro b s hs
  exact (hm b s hs).trans (congrArg (b + ·) (hf _))

theorem holds_ite {d : G} {c : Prop} [Decidable c] {m n : StateM σ α} {δ : α → G}
    (hm : c → Holds μ d m δ) (hn : ¬ c → Holds μ d n δ) : Holds μ d (if c then m else n) δ := by
  split
  · next h => exact hm h
  · next h => exact hn h

/-- A loop that owns the same amount before and after every round. -/
theorem holds_foldlM {d : G} {xs : List β} {f : α → β → StateM σ α} {a : α}
    (hf : ∀ a x, Holds μ d (f a x) fun _ => d) :
    Holds μ d (xs.foldlM f a) fun _ => d := by
  induction xs generalizing a with
  | nil => exact holds_pure rfl
  | cons x xs ih => exact holds_bind (hf a x) fun _ => ih

end Accounting
