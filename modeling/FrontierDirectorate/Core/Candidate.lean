import Mathlib
import FrontierDirectorate.Core.GenerateLaws
import FrontierDirectorate.Core.Grid

/-!
# A candidate without its allocations

When no allocation fails, an attempt is a function of the draws, the world buffer,
its number and the fallback flag.
-/
namespace FrontierDirectorate
open Checks Accounting

/-- One octave over a world that has its lattice. -/
def octaveOver (draws : Draws) (attempt : UInt64) (world : World) (octave : Octave) :
    Except Halted World :=
  (drawLattice draws world attempt octave).map fun grid => raiseLand octave grid world

def elevationOver (draws : Draws) (attempt : UInt64) (world : World) : Except Halted World :=
  (forEach octaves (octaveOver draws attempt) world).map waterLand

/-- What `fd_generate_candidate` computes. -/
def candidateOver (draws : Draws) (world : World) (attempt : UInt64)
    (constructiveFallback : Bool) : Except Rejected (World × ValidationReport) := do
  let (plan, world) ← (layCandidate draws attempt constructiveFallback world).mapError
    (Halted.because fdGenRejectInvariant)
  let world ← (elevationOver draws attempt world).mapError (Halted.because fdGenRejectInvariant)
  let world ← populate draws plan attempt constructiveFallback world
  let world ← (roadOver (fdRoadCost draws attempt world) world (world.harbourIndex plan)
    (world.marketIndex plan)).mapError (Halted.because fdGenRejectRoadCorridor)
  concludeCandidate world

section neverFails

variable {context : FdContext} {draws : Draws} {attempt : UInt64} {v w : World}

theorem World.SameFrame.boundsHold (h : v.SameFrame w) (hv : v.boundsHold) : w.boundsHold := by
  unfold World.boundsHold World.width World.height at hv ⊢
  rw [h.config, h.tileCount]
  exact hv

theorem ofNat_ne_zero {n : Nat} (hpos : 0 < n) (hlt : n < 18446744073709551616) :
    UInt64.ofNat n ≠ 0 := by
  intro h
  have hn := congrArg UInt64.toNat h
  rw [UInt64.toNat_ofNat_of_lt' hlt] at hn
  exact absurd hn (by simpa using Nat.pos_iff_ne_zero.mp hpos)

theorem gridBytes_ne_zero (hv : v.boundsHold) {octave : Octave} (hoctave : octave ∈ octaves) :
    UInt64.ofNat (octave.gridWidth v * octave.gridHeight v * 4) ≠ 0 := by
  obtain ⟨-, hwidth, -, hheight, -⟩ := hv.sizes
  have hscale : 4 ≤ octave.scale ∧ octave.scale ≤ 16 := by
    revert octave
    decide
  have hbound : ∀ n, n ≤ 256 → (n + octave.scale - 1) / octave.scale ≤ 300 := by
    intro n hn
    calc (n + octave.scale - 1) / octave.scale ≤ n + octave.scale - 1 := Nat.div_le_self _ _
      _ ≤ 300 := by omega
  have hw := hbound v.width hwidth
  have hh := hbound v.height (by omega)
  have hprod : octave.gridWidth v * octave.gridHeight v ≤ 301 * 301 :=
    Nat.mul_le_mul (Nat.succ_le_succ hw) (Nat.succ_le_succ hh)
  have hpos : 0 < octave.gridWidth v * octave.gridHeight v :=
    Nat.mul_pos (Nat.succ_pos _) (Nat.succ_pos _)
  exact ofNat_ne_zero (by omega) (by omega)

theorem arrayBytes_ne_zero (hv : v.boundsHold) : UInt64.ofNat (v.tileCount * 4) ≠ 0 := by
  obtain ⟨hwidth, -, hheight, -, hcount⟩ := hv.sizes
  have hmax : v.tileCount ≤ 32768 := hv.2.2.2.2.2
  have hpos : 0 < v.tileCount := by
    rw [hcount]
    exact Nat.mul_pos (by omega) (by omega)
  exact ofNat_ne_zero (by omega) (by omega)

theorem elevationOctave_neverFails (h : context.NeverFails) (hv : v.boundsHold) {octave : Octave}
    (hoctave : octave ∈ octaves) (s : Ledger) :
    (elevationOctave context draws attempt v octave s).1 = octaveOver draws attempt v octave := by
  have halloc := fdContextAlloc_neverFails h (gridBytes_ne_zero hv hoctave) s
  simp only [elevationOctave, run_bind, halloc]
  rfl

theorem staysIn_octaveOver {octave : Octave} :
    StaysIn v id (octaveOver draws attempt v octave) := by
  have hgrid : StaysIn v (fun _ => v) (drawLattice draws v attempt octave) := staysIn_drawLattice
  unfold octaveOver
  cases h : drawLattice draws v attempt octave with
  | error halted => exact hgrid.error h
  | ok grid => exact sameFrame_raiseLand octave grid v

theorem elevationFields_neverFails (h : context.NeverFails) (hv : v.boundsHold) (s : Ledger) :
    (fdApplyElevationFields context draws attempt v s).1 = elevationOver draws attempt v := by
  have hstop : ∀ (xs : List Octave) (halted : Halted) (s : Ledger),
      (xs.foldlM (elevationNext context draws attempt) (.error halted) s).1 = .error halted := by
    intro xs halted
    induction xs with
    | nil => exact fun s => rfl
    | cons octave xs ih => exact fun s => ih s
  have hloop : ∀ (xs : List Octave), (∀ octave ∈ xs, octave ∈ octaves) → ∀ (w : World),
      w.boundsHold → ∀ s : Ledger,
      (xs.foldlM (elevationNext context draws attempt) (.ok w) s).1 =
        forEach xs (octaveOver draws attempt) w := by
    intro xs
    induction xs with
    | nil => exact fun _ w _ s => rfl
    | cons octave xs ih =>
        intro hxs w hw s
        have hoctave : (elevationOctave context draws attempt w octave s).1 =
            octaveOver draws attempt w octave :=
          elevationOctave_neverFails h hw (hxs octave List.mem_cons_self) s
        have hstay : StaysIn w id (octaveOver draws attempt w octave) := staysIn_octaveOver
        rw [List.foldlM_cons, run_bind, forEach_cons]
        rw [show elevationNext context draws attempt (.ok w) octave =
          elevationOctave context draws attempt w octave from rfl, hoctave]
        cases hover : octaveOver draws attempt w octave with
        | error halted => exact hstop xs halted _
        | ok next =>
            exact ih (fun o ho => hxs o (List.mem_cons_of_mem octave ho)) next
              ((hstay.ok hover).boundsHold hw) _
  simp only [fdApplyElevationFields, run_bind, run_pure, elevationOver]
  rw [hloop octaves (fun _ ho => ho) v hv]

theorem constructRoad_granted {start goal : Nat} {s : Ledger} (hv : v.boundsHold)
    (hgrants : context.Grants s 4 (UInt64.ofNat (v.tileCount * 4))) :
    (fdConstructRoad context draws v start goal attempt s).1 =
      roadOver (fdRoadCost draws attempt v) v start goal := by
  have hsize := arrayBytes_ne_zero hv
  have h0 := hgrants 0 (by decide)
  have h1 := hgrants 1 (by decide)
  have h2 := hgrants 2 (by decide)
  have h3 := hgrants 3 (by decide)
  rw [Nat.add_zero] at h0
  simp only [fdConstructRoad, run_bind, run_pure, fdContextAlloc, if_neg hsize, h0, h1, h2, h3,
    if_true, Bool.and_self]

theorem constructRoad_neverFails (h : context.NeverFails) (hv : v.boundsHold) {start goal : Nat}
    (s : Ledger) : (fdConstructRoad context draws v start goal attempt s).1 =
      roadOver (fdRoadCost draws attempt v) v start goal :=
  constructRoad_granted hv (h.grants s 4 _)

/-- The outcome of an attempt does not depend on the ledger. -/
theorem generateCandidate_neverFails (h : context.NeverFails) (hv : v.boundsHold)
    {fallback : Bool} (s : Ledger) : (fdGenerateCandidate context draws v attempt fallback s).1 =
      candidateOver draws v attempt fallback := by
  have hlaid : StaysIn v Prod.snd (layCandidate draws attempt fallback v) := staysIn_layCandidate
  unfold fdGenerateCandidate candidateOver
  cases hlay : layCandidate draws attempt fallback v with
  | error halted => rfl
  | ok laid =>
      obtain ⟨plan, laid⟩ := laid
      have hbounds : laid.boundsHold := (hlaid.ok hlay).boundsHold hv
      have hover : StaysIn laid id (fdApplyElevationFields context draws attempt laid s).1 :=
        staysIn_applyElevationFields s
      simp only [run_bind, elevationFields_neverFails h hbounds, Except.mapError, ok_bind]
      rw [elevationFields_neverFails h hbounds] at hover
      cases hraise : elevationOver draws attempt laid with
      | error halted => rfl
      | ok raised =>
          have hraised : raised.boundsHold := (hover.ok hraise).boundsHold hbounds
          have hpopulate : StaysIn raised id (populate draws plan attempt fallback raised) :=
            staysIn_populate
          cases hpop : populate draws plan attempt fallback raised with
          | error rejected =>
              simp only [ok_bind, hpop]
              rfl
          | ok settled =>
              have hsettled : settled.boundsHold := (hpopulate.ok hpop).boundsHold hraised
              simp only [ok_bind, hpop, run_bind,
                constructRoad_neverFails h hsettled]
              cases roadOver (fdRoadCost draws attempt settled) settled
                (settled.harbourIndex plan) (settled.marketIndex plan) <;> rfl

end neverFails

end FrontierDirectorate
