import Mathlib
import FrontierDirectorate.Core.Histories
import FrontierDirectorate.Core.SessionLaws
import FrontierDirectorate.Cpp.Wrapper

/-!
# How the calls of the wrapper end

A program is looked at without its counters. Every entry point ends with a value or
with an error, whatever its allocations throw; what it owned on the way is given back,
and there is always room for a decision that has been accepted.
-/
namespace FrontierDirectorate.Cpp
open Accounting Checks Unwinding

/-- No allocation of the wrapper throws. -/
def Host.Steady (host : Host) : Prop := ∀ n, host.throws n = none

/-- A program without its counters. -/
structure Holdings where
  owned : Owned
  context : Bool
  released : Bool
  worlds : List WorldState
  snapshots : List Snapshot
  replays : List Replay

def Program.holdings (p : Program) : Holdings :=
  ⟨p.ledger.owned, p.context, p.released, p.worlds, p.snapshots, p.replays⟩

section rules

variable {α β : Type} {host : Host} {g g' : Holdings}

/-- A value that satisfies `P`, an error that satisfies `E`, or an exception that is turned into
such an error. -/
def Returns (E : Fail → Holdings → Prop) (P : α → Holdings → Prop) :
    Except Unwound (Except Fail α) → Holdings → Prop
  | .ok (.ok a), h => P a h
  | .ok (.error failure), h => E failure h
  | .error (.thrown thrown), h => E (allocationFailure thrown) h
  | .error .terminate, _ => False

/-- The same, without exceptions. -/
def Caught (E : Fail → Holdings → Prop) (P : α → Holdings → Prop) :
    Except Unwound (Except Fail α) → Holdings → Prop
  | .ok (.ok a), h => P a h
  | .ok (.error failure), h => E failure h
  | .error _, _ => False

variable {E F : Fail → Holdings → Prop} {P : α → Holdings → Prop}

theorem Caught.returns {r : Except Unwound (Except Fail α)} (h : Caught E P r g) :
    Returns E P r g := by
  rcases r with e | f | a
  · exact h.elim
  · exact h
  · exact h

theorem ends_tryBlock {body : Proc (Except Fail α)}
    (h : Ends Program.holdings g body (Returns E P)) :
    Ends Program.holdings g (tryBlock body) (Caught E P) := by
  apply ends_caught
  refine h.mono ?_
  rintro (thrown | failure | a) g' hr
  · cases thrown with
    | thrown t => exact hr
    | terminate => exact hr.elim
  · exact hr
  · exact hr

/-- An entry point called from another one. -/
theorem ends_bind_caught {m : Proc (Except Fail α)} {f : Except Fail α → Proc β}
    {Q : Except Unwound β → Holdings → Prop} (h : Ends Program.holdings g m (Caught E P))
    (herror : ∀ failure g', E failure g' → Ends Program.holdings g' (f (.error failure)) Q)
    (hok : ∀ a g', P a g' → Ends Program.holdings g' (f (.ok a)) Q) :
    Ends Program.holdings g (m >>= f) Q := by
  apply ends_bind
  refine h.mono ?_
  rintro (_ | failure | a) g' hr
  · exact hr.elim
  · exact herror failure g' hr
  · exact hok a g' hr

theorem ends_attempt {Q : Except Unwound (Option Thrown) → Holdings → Prop}
    (hnone : Q (.ok none) g) (hsome : ¬ host.Steady → ∀ thrown, Q (.ok (some thrown)) g) :
    Ends Program.holdings g (attempt host) Q := by
  intro p hp
  change Q (.ok (host.throws p.allocations)) p.holdings
  rw [hp]
  cases hthrow : host.throws p.allocations with
  | none => exact hnone
  | some thrown =>
      refine hsome (fun hsteady => ?_) thrown
      rw [hsteady] at hthrow
      cases hthrow

theorem ends_allocate {Q : Except Unwound Unit → Holdings → Prop} (hok : Q (.ok ()) g)
    (hthrow : ¬ host.Steady → ∀ thrown, Q (.error (.thrown thrown)) g) :
    Ends Program.holdings g (allocate host) Q := by
  apply ends_bind
  apply ends_attempt
  · exact ends_pure hok
  · intro hsteady thrown
    exact ends_unwind (hthrow hsteady thrown)

/-- An allocation in front of the rest of a body. -/
theorem ends_allocate_bind {f : Unit → Proc (Except Fail α)}
    (hthrow : ¬ host.Steady → ∀ thrown, E (allocationFailure thrown) g)
    (h : Ends Program.holdings g (f ()) (Returns E P)) :
    Ends Program.holdings g (allocate host >>= f) (Returns E P) := by
  apply ends_bind
  exact ends_allocate h hthrow

/-- A call of the C interface, by what it owns afterwards. -/
theorem ends_native {call : StateM Ledger α} {δ : α → Owned}
    {Q : Except Unwound α → Holdings → Prop} (hcall : Holds Ledger.owned g.owned call δ)
    (h : ∀ s, Q (.ok (call s).1) { g with owned := δ (call s).1 }) :
    Ends Program.holdings g (native call) Q := by
  refine ends_call fun p hp => ?_
  have howned : (call p.ledger).2.owned = δ (call p.ledger).1 := by
    rw [← congrArg Holdings.owned hp] at hcall
    exact owned_of_holds hcall
  have hview : Program.holdings { p with ledger := (call p.ledger).2 } =
      { g with owned := δ (call p.ledger).1 } := by
    rw [← hp, ← howned]
    rfl
  change Q (.ok (call p.ledger).1) (Program.holdings { p with ledger := (call p.ledger).2 })
  rw [hview]
  exact h p.ledger

/-- What a destructor gives back. -/
theorem leads_release {destroy : StateM Ledger Unit} {d : Owned}
    (h : Holds Ledger.owned g.owned destroy fun _ => d) :
    Leads Program.holdings (release destroy) g { g with owned := d } := by
  intro p hp
  have howned : (destroy p.ledger).2.owned = d := by
    rw [← congrArg Holdings.owned hp] at h
    exact owned_of_holds h
  change Program.holdings { p with ledger := (destroy p.ledger).2 } = _
  rw [← hp, ← howned]
  rfl

/-- A handle that leaves its scope with a value only. -/
theorem ends_owning {destroy : StateM Ledger Unit} {body : Proc (Except Fail α)}
    (hleads : Leads Program.holdings (release destroy) g' g)
    (h : Ends Program.holdings g' body (Returns (fun failure h => h = g' ∧ E failure g) P)) :
    Ends Program.holdings g' (owning destroy body) (Returns E P) := by
  apply ends_guarded
  refine h.mono ?_
  rintro (thrown | failure | a) g'' hr
  · cases thrown with
    | thrown t =>
        obtain ⟨rfl, hE⟩ := hr
        exact ⟨g, hleads, hE⟩
    | terminate => exact hr.elim
  · obtain ⟨rfl, hE⟩ := hr
    exact ⟨g, hleads, hE⟩
  · exact hr

/-- A handle that does not leave its scope. -/
theorem ends_holding {destroy : StateM Ledger Unit} {body : Proc (Except Fail α)}
    (hleads : Leads Program.holdings (release destroy) g' g)
    (h : Ends Program.holdings g' body
      (Returns (fun failure h => h = g' ∧ E failure g) fun a h => h = g' ∧ P a g)) :
    Ends Program.holdings g' (holding destroy body) (Returns E P) := by
  apply ends_guarded
  refine h.mono ?_
  rintro (thrown | failure | a) g'' hr
  · cases thrown with
    | thrown t =>
        obtain ⟨rfl, hE⟩ := hr
        exact ⟨g, hleads, hE⟩
    | terminate => exact hr.elim
  · obtain ⟨rfl, hE⟩ := hr
    exact ⟨g, hleads, hE⟩
  · obtain ⟨rfl, hP⟩ := hr
    exact ⟨g, hleads, hP⟩

theorem ends_wrapperError {code : FdResult} {message : String}
    (h : E ⟨code, fdFieldNone, 0, message⟩ g)
    (hthrow : ¬ host.Steady → ∀ thrown, E (allocationFailure thrown) g) :
    Ends Program.holdings g (wrapperError host code message) (Returns (α := α) E P) := by
  apply ends_allocate_bind hthrow
  apply ends_allocate_bind hthrow
  exact ends_pure h

theorem ends_errorFrom {failure : Fail} (h : ∀ message, E { failure with message := message } g) :
    Ends Program.holdings g (errorFrom host failure) (Returns (α := α) E P) := by
  apply ends_bind
  apply ends_attempt
  · exact ends_pure (h failure.message)
  · intro _ _
    exact ends_pure (h "")

theorem ends_copyError {failure : Fail} (h : E failure g)
    (hthrow : ¬ host.Steady → ∀ thrown, E (allocationFailure thrown) g) :
    Ends Program.holdings g (copyError host failure) (Returns (α := α) E P) := by
  apply ends_allocate_bind hthrow
  exact ends_pure h

theorem ends_contextValid {Q : Except Unwound Bool → Holdings → Prop} (h : Q (.ok g.context) g) :
    Ends Program.holdings g contextValid Q := by
  intro p hp
  change Q (.ok p.holdings.context) p.holdings
  rw [hp]
  exact h

theorem ends_worldAt {Q : Except Unwound (Option WorldState) → Holdings → Prop} {index : Nat}
    (h : Q (.ok g.worlds[index]?) g) : Ends Program.holdings g (worldAt index) Q := by
  intro p hp
  change Q (.ok p.holdings.worlds[index]?) p.holdings
  rw [hp]
  exact h

theorem ends_replayAt {Q : Except Unwound (Option Replay) → Holdings → Prop} {index : Nat}
    (h : Q (.ok g.replays[index]?) g) : Ends Program.holdings g (replayAt index) Q := by
  intro p hp
  change Q (.ok p.holdings.replays[index]?) p.holdings
  rw [hp]
  exact h

theorem ends_setWorld {Q : Except Unwound Unit → Holdings → Prop} {index : Nat} {state : WorldState}
    (h : Q (.ok ()) { g with worlds := g.worlds.set index state }) :
    Ends Program.holdings g (setWorld index state) Q := by
  intro p hp
  rw [← hp] at h
  exact h

theorem ends_setReplay {Q : Except Unwound Unit → Holdings → Prop} {index : Nat} {replay : Replay}
    (h : Q (.ok ()) { g with replays := g.replays.set index replay }) :
    Ends Program.holdings g (setReplay index replay) Q := by
  intro p hp
  rw [← hp] at h
  exact h

end rules

section history

variable {host : Host} {g : Holdings} {index : Nat} {state : WorldState}

def Holdings.setWorld (g : Holdings) (index : Nat) (state : WorldState) : Holdings :=
  { g with worlds := g.worlds.set index state }

theorem setWorld_self (h : g.worlds[index]? = some state) : g.setWorld index state = g := by
  obtain ⟨hlt, rfl⟩ := List.getElem?_eq_some_iff.mp h
  unfold Holdings.setWorld
  rw [List.set_getElem_self]

theorem setWorld_setWorld (g : Holdings) (index : Nat) (state later : WorldState) :
    (g.setWorld index state).setWorld index later = g.setWorld index later := by
  unfold Holdings.setWorld
  rw [List.set_set]

theorem getElem?_setWorld (h : g.worlds[index]? = some state) (later : WorldState) :
    (g.setWorld index later).worlds[index]? = some later := by
  obtain ⟨hlt, -⟩ := List.getElem?_eq_some_iff.mp h
  exact List.getElem?_set_self hlt

/-- Doubling reaches what is required. -/
theorem le_grownCapacity (maxSize required : Nat) {fuel next : Nat} (hpos : 0 < next)
    (hfuel : required ≤ fuel + next) : required ≤ grownCapacity maxSize required fuel next := by
  induction fuel generalizing next with
  | zero =>
      rw [grownCapacity]
      omega
  | succ fuel ih =>
      rw [grownCapacity]
      split
      · split
        · exact le_rfl
        · exact ih (by omega) (by omega)
      · omega

/-- And does not go past the largest vector. -/
theorem grownCapacity_le {maxSize required : Nat} (hrequired : required ≤ maxSize) {fuel next : Nat}
    (hnext : next ≤ maxSize) : grownCapacity maxSize required fuel next ≤ maxSize := by
  induction fuel generalizing next with
  | zero => exact hnext
  | succ fuel ih =>
      rw [grownCapacity]
      split
      · split
        · exact hrequired
        · exact ih (by omega)
      · exact hnext

/-- The vector of a history: its decisions fit, and it is no larger than a vector can be. -/
structure WorldState.Stored (host : Host) (state : WorldState) : Prop where
  room : state.decisions.length ≤ state.capacity
  fits : state.capacity ≤ host.maxDecisions

/-- A capacity with room for `additional` more decisions. -/
structure Roomy (host : Host) (state : WorldState) (additional capacity : Nat) : Prop where
  room : state.decisions.length + additional ≤ capacity
  fits : capacity ≤ host.maxDecisions

theorem ends_prepareDecisions (hlive : g.worlds[index]? = some state) (hstored : state.Stored host)
    (additional : Nat) {Q : Except Unwound (Bool × WorldState) → Holdings → Prop}
    (hrefused : (host.Steady → host.maxDecisions < max 8 (state.decisions.length + additional)) →
      Q (.ok (false, state)) g)
    (hprepared : ∀ capacity, Roomy host state additional capacity →
      Q (.ok (true, { state with capacity := capacity }))
        (g.setWorld index { state with capacity := capacity })) :
    Ends Program.holdings g (prepareDecisions host index state additional) Q := by
  have hroom := hstored.room
  have hfits := hstored.fits
  unfold prepareDecisions
  apply ends_ite
  · intro hfull
    exact ends_pure (hrefused fun _ => lt_max_of_lt_right (by omega))
  · intro hfull
    apply ends_ite
    · intro hgrow
      have hpos : 0 < (if state.decisions = [] then 8 else state.capacity) := by
        split
        · decide
        · next hsome =>
            have hlength := List.length_pos_iff.mpr hsome
            omega
      have hreached : state.decisions.length + additional ≤
          grownCapacity host.maxDecisions (state.decisions.length + additional)
            (state.decisions.length + additional)
            (if state.decisions = [] then 8 else state.capacity) :=
        le_grownCapacity _ _ hpos (Nat.le_add_right _ _)
      apply ends_ite
      · intro hlarge
        refine ends_pure (hrefused fun _ => ?_)
        by_contra hsmall
        have hstart : (if state.decisions = [] then 8 else state.capacity) ≤ host.maxDecisions := by
          split <;> omega
        have hrequired : state.decisions.length + additional ≤ host.maxDecisions := by omega
        have hle : grownCapacity host.maxDecisions (state.decisions.length + additional)
            (state.decisions.length + additional)
            (if state.decisions = [] then 8 else state.capacity) ≤ host.maxDecisions :=
          grownCapacity_le hrequired hstart
        omega
      · intro hlarge
        apply ends_bind
        apply ends_attempt
        · apply ends_bind
          apply ends_setWorld
          exact ends_pure (hprepared _ ⟨hreached, not_lt.mp hlarge⟩)
        · intro hsteady thrown
          exact ends_pure (hrefused fun h => absurd h hsteady)
    · intro hgrow
      have hsame := hprepared state.capacity ⟨not_lt.mp hgrow, hfits⟩
      rw [setWorld_self hlive] at hsame
      exact ends_pure hsame

/-- With room for it, a decision is stored without an allocation. -/
theorem ends_appendDecision (hroom : state.decisions.length < state.capacity)
    {decision : JointDecision} {Q : Except Unwound WorldState → Holdings → Prop}
    (h : Q (.ok { state with decisions := state.decisions ++ [decision] })
      (g.setWorld index { state with decisions := state.decisions ++ [decision] })) :
    Ends Program.holdings g (appendDecision host index state decision) Q := by
  unfold appendDecision
  apply ends_ite
  · intro _
    apply ends_bind
    apply ends_setWorld
    exact ends_pure h
  · intro hfull
    exact absurd hroom hfull

theorem ends_appendDecisions {decisions : List JointDecision}
    (hlive : g.worlds[index]? = some state)
    (hroom : state.decisions.length + decisions.length ≤ state.capacity)
    {Q : Except Unwound WorldState → Holdings → Prop}
    (h : Q (.ok { state with decisions := state.decisions ++ decisions })
      (g.setWorld index { state with decisions := state.decisions ++ decisions })) :
    Ends Program.holdings g (appendDecisions host index state decisions) Q := by
  induction decisions generalizing g state with
  | nil =>
      rw [List.append_nil, setWorld_self hlive] at h
      exact ends_pure h
  | cons decision rest ih =>
      rw [List.length_cons] at hroom
      apply ends_bind
      have hnext : state.decisions.length < state.capacity := by omega
      refine ends_appendDecision hnext ?_
      refine ih ?_ ?_ ?_
      · exact getElem?_setWorld hlive _
      · simp only [List.length_append, List.length_cons, List.length_nil]
        omega
      · rw [setWorld_setWorld, List.append_assoc]
        exact h

end history

end FrontierDirectorate.Cpp
