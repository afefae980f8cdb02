import Mathlib
import FrontierDirectorate.Core.Generate
import FrontierDirectorate.Core.SaveRoundTrip

/-!
# What generation leaves alone

No stage touches the inputs of a world, its clock or the size of its map. With the
final validation this makes every generated world sound.
-/
namespace FrontierDirectorate
open Checks Accounting

/-- The fields no stage writes. -/
structure World.SameFrame (v w : World) : Prop where
  config : w.config = v.config
  rootSeedLe : w.rootSeedLe = v.rootSeedLe
  content : w.content = v.content
  configurationSha256 : w.configurationSha256 = v.configurationSha256
  contentSha256 : w.contentSha256 = v.contentSha256
  tick : w.tick = v.tick
  tileCount : w.tileCount = v.tileCount
  allocationSize : w.allocationSize = v.allocationSize

namespace World.SameFrame

variable {u v w : World}

theorem refl (v : World) : v.SameFrame v := ⟨rfl, rfl, rfl, rfl, rfl, rfl, rfl, rfl⟩

theorem trans (h : u.SameFrame v) (k : v.SameFrame w) : u.SameFrame w where
  config := k.config.trans h.config
  rootSeedLe := k.rootSeedLe.trans h.rootSeedLe
  content := k.content.trans h.content
  configurationSha256 := k.configurationSha256.trans h.configurationSha256
  contentSha256 := k.contentSha256.trans h.contentSha256
  tick := k.tick.trans h.tick
  tileCount := k.tileCount.trans h.tileCount
  allocationSize := k.allocationSize.trans h.allocationSize

theorem modifyTile (v : World) (index : Nat) (f : Tile → Tile) :
    v.SameFrame (v.modifyTile index f) :=
  ⟨rfl, rfl, rfl, rfl, rfl, rfl, List.length_modify _ _ _, rfl⟩

theorem setTerrain (v : World) (index : Nat) (terrain : UInt32) :
    v.SameFrame (v.setTerrain index terrain) := modifyTile v index _

theorem settle (v : World) (index : Nat) (id : FdEntityId) : v.SameFrame (v.settle index id) :=
  modifyTile v index _

end World.SameFrame

/-- Failures that hand back the world they leave. -/
class LeavesWorld (ε : Type) where
  world : ε → World

instance : LeavesWorld Halted := ⟨Halted.world⟩
instance : LeavesWorld Rejected := ⟨Rejected.world⟩

/-- Whatever the outcome of a stage that started at `v`, its world has the frame of `v`. -/
def StaysIn {ε α : Type} [LeavesWorld ε] (v : World) (p : α → World) : Except ε α → Prop
  | .ok a => v.SameFrame (p a)
  | .error failure => v.SameFrame (LeavesWorld.world failure)

section stages

variable {ε α β : Type} [LeavesWorld ε] {v w : World} {draws : Draws} {attempt : UInt64}

theorem StaysIn.ok {p : α → World} {x : Except ε α} {a : α} (h : StaysIn v p x)
    (hx : x = .ok a) : v.SameFrame (p a) := by
  rw [hx] at h
  exact h

theorem StaysIn.error {p : α → World} {x : Except ε α} {failure : ε}
    (h : StaysIn v p x) (hx : x = .error failure) :
    v.SameFrame (LeavesWorld.world failure) := by
  rw [hx] at h
  exact h

theorem StaysIn.trans {p : α → World} {x : Except ε α} (h : v.SameFrame w)
    (hx : StaysIn w p x) : StaysIn v p x := by
  cases x with
  | ok a => exact h.trans hx
  | error failure => exact h.trans hx

theorem StaysIn.bind {p : α → World} {q : β → World} {x : Except ε α}
    {f : α → Except ε β} (hx : StaysIn v p x)
    (hf : ∀ a, StaysIn (p a) q (f a)) : StaysIn v q (x >>= f) := by
  cases x with
  | ok a => exact StaysIn.trans hx (hf a)
  | error failure => exact hx

theorem StaysIn.forEach {xs : List β} {body : World → β → Except ε World}
    (hbody : ∀ w x, StaysIn w id (body w x)) (v : World) :
    StaysIn v id (Checks.forEach xs body v) := by
  induction xs generalizing v with
  | nil => exact World.SameFrame.refl v
  | cons x xs ih => exact StaysIn.bind (hbody v x) ih

theorem StaysIn.because {p : α → World} {x : Except Halted α} (h : StaysIn v p x)
    (reason : UInt32) : StaysIn v p (x.mapError (Halted.because reason)) := by
  cases x with
  | ok a => exact h
  | error halted => exact h

theorem staysIn_drawIn (draw : Except FdResult UInt32) :
    StaysIn v (fun _ => v) (drawIn v draw) := by
  cases draw <;> exact World.SameFrame.refl v

theorem staysIn_drawPlan : StaysIn v (fun _ => v) (drawPlan draws v attempt) :=
  StaysIn.bind (staysIn_drawIn _) fun _ => StaysIn.bind (staysIn_drawIn _) fun _ =>
    StaysIn.bind (staysIn_drawIn _) fun _ => StaysIn.bind (staysIn_drawIn _) fun _ =>
      World.SameFrame.refl v

theorem sameFrame_cleared (v : World) : v.SameFrame v.cleared :=
  ⟨rfl, rfl, rfl, rfl, rfl, rfl, List.length_replicate, rfl⟩

theorem sameFrame_layCoastTile (westWater : Bool) (waterWidth y : Nat) (v : World) (x : Nat) :
    v.SameFrame (layCoastTile westWater waterWidth y v x) :=
  ⟨rfl, rfl, rfl, rfl, rfl, rfl, List.length_modify _ _ _, rfl⟩

theorem sameFrame_foldl {xs : List β} {f : World → β → World}
    (hf : ∀ (w : World) x, w.SameFrame (f w x)) (v : World) : v.SameFrame (xs.foldl f v) := by
  induction xs generalizing v with
  | nil => exact World.SameFrame.refl v
  | cons x xs ih => exact (hf v x).trans (ih (f v x))

theorem staysIn_rowWaterWidth {plan : CandidatePlan} {fallback : Bool} {y : Nat} :
    StaysIn v (fun _ => v) (rowWaterWidth draws v plan attempt fallback y) := by
  unfold rowWaterWidth
  simp only
  split
  · exact World.SameFrame.refl v
  · split
    · exact World.SameFrame.refl v
    · exact StaysIn.bind (staysIn_drawIn _) fun _ => World.SameFrame.refl v

theorem staysIn_layCoastRow {plan : CandidatePlan} {fallback : Bool} {y : Nat} :
    StaysIn v id (layCoastRow draws plan attempt fallback v y) := by
  unfold layCoastRow
  exact StaysIn.bind staysIn_rowWaterWidth fun waterWidth =>
    sameFrame_foldl (sameFrame_layCoastTile plan.westWater waterWidth y) v

theorem staysIn_layCoast {plan : CandidatePlan} {fallback : Bool} :
    StaysIn v id (layCoast draws plan attempt fallback v) :=
  StaysIn.trans (sameFrame_cleared v) (StaysIn.forEach (fun _ _ => staysIn_layCoastRow) _)

theorem sameFrame_raiseLand (octave : Octave) (grid : List UInt32) (v : World) :
    v.SameFrame (raiseLand octave grid v) :=
  ⟨rfl, rfl, rfl, rfl, rfl, rfl, List.length_mapIdx, rfl⟩

theorem sameFrame_waterLand (v : World) : v.SameFrame (waterLand v) :=
  ⟨rfl, rfl, rfl, rfl, rfl, rfl, List.length_map _, rfl⟩

theorem staysIn_mapM {xs : List β} {f : β → Except Halted α}
    (hf : ∀ x, StaysIn v (fun _ => v) (f x)) : StaysIn v (fun _ => v) (xs.mapM f) := by
  induction xs with
  | nil => exact World.SameFrame.refl v
  | cons x xs ih =>
      rw [List.mapM_cons]
      exact StaysIn.bind (hf x) fun _ => StaysIn.bind ih fun _ => World.SameFrame.refl v

theorem staysIn_drawLattice {octave : Octave} :
    StaysIn v (fun _ => v) (drawLattice draws v attempt octave) :=
  staysIn_mapM fun _ => staysIn_drawIn _

theorem staysIn_elevationOctave {context : FdContext} {octave : Octave} (s : Ledger) :
    StaysIn v id (elevationOctave context draws attempt v octave s).1 := by
  have hgrid : StaysIn v (fun _ => v) (drawLattice draws v attempt octave) := staysIn_drawLattice
  simp only [elevationOctave, run_bind]
  split
  · exact World.SameFrame.refl v
  · simp only [run_bind, run_pure]
    cases h : drawLattice draws v attempt octave with
    | error halted => exact hgrid.error h
    | ok grid => exact sameFrame_raiseLand octave grid v

theorem staysIn_elevationNext {context : FdContext} {x : Except Halted World} {octave : Octave}
    (hx : StaysIn v id x) (s : Ledger) :
    StaysIn v id (elevationNext context draws attempt x octave s).1 := by
  cases x with
  | error halted => exact hx
  | ok world => exact StaysIn.trans hx (staysIn_elevationOctave s)

theorem staysIn_applyElevationFields {context : FdContext} (s : Ledger) :
    StaysIn v id (fdApplyElevationFields context draws attempt v s).1 := by
  have hloop : ∀ (octaves : List Octave) (x : Except Halted World) (s : Ledger),
      StaysIn v id x → StaysIn v id (octaves.foldlM (elevationNext context draws attempt) x s).1 := by
    intro octaves
    induction octaves with
    | nil =>
        intro x s hx
        exact hx
    | cons octave octaves ih =>
        intro x s hx
        exact ih _ _ (staysIn_elevationNext hx s)
  have hraised := hloop octaves (.ok v) s (World.SameFrame.refl v)
  simp only [fdApplyElevationFields, run_bind, run_pure]
  generalize hfold : (octaves.foldlM (elevationNext context draws attempt) (.ok v) s).1 = raised
    at hraised
  cases raised with
  | error halted => exact hraised
  | ok world => exact World.SameFrame.trans hraised (sameFrame_waterLand world)

theorem staysIn_setRiverTile {index elevation : Nat} :
    StaysIn v id (fdSetRiverTile v index elevation) := by
  unfold fdSetRiverTile
  simp only
  split
  · exact ⟨rfl, rfl, rfl, rfl, rfl, rfl, rfl, rfl⟩
  · split
    · exact ⟨rfl, rfl, rfl, rfl, rfl, rfl, rfl, rfl⟩
    · exact ⟨rfl, rfl, rfl, rfl, rfl, rfl, List.length_modify _ _ _, rfl⟩

theorem staysIn_constructRiver {westWater : Bool} {waterWidth outletY sourceY tieChoice : Nat} :
    StaysIn v Prod.fst (fdConstructRiver v westWater waterWidth outletY sourceY tieChoice) := by
  unfold fdConstructRiver
  refine StaysIn.bind staysIn_setRiverTile fun w => ?_
  refine StaysIn.bind (p := id) ?_ fun w => World.SameFrame.modifyTile w _ _
  exact StaysIn.trans (World.SameFrame.modifyTile w _ _)
    (StaysIn.forEach (fun _ _ => staysIn_setRiverTile) _)

theorem staysIn_assignBiome {index : Nat} : StaysIn v id (assignBiome draws attempt v index) := by
  unfold assignBiome
  split
  · exact World.SameFrame.refl v
  · exact StaysIn.bind (staysIn_drawIn _) fun _ => World.SameFrame.modifyTile v _ _

theorem staysIn_assignBiomes : StaysIn v id (assignBiomes draws attempt v) :=
  StaysIn.forEach (fun _ _ => staysIn_assignBiome) v

theorem sameFrame_patchRepresentatives (plan : CandidatePlan) (v : World) :
    v.SameFrame (patchRepresentatives plan v) :=
  ((World.SameFrame.setTerrain v _ _).trans (World.SameFrame.setTerrain _ _ _)).trans
    (World.SameFrame.setTerrain _ _ _)

theorem staysIn_nameEntity {index : Fin 6} : StaysIn v id (nameEntity draws attempt v index) := by
  unfold nameEntity
  simp only
  split
  · exact ⟨rfl, rfl, rfl, rfl, rfl, rfl, rfl, rfl⟩
  · exact ⟨rfl, rfl, rfl, rfl, rfl, rfl, rfl, rfl⟩

theorem staysIn_initializeEntities {coastalX coastalY inlandX inlandY outlet : Nat} :
    StaysIn v id
      (fdInitializeEntities draws v coastalX coastalY inlandX inlandY outlet attempt) := by
  unfold fdInitializeEntities
  refine StaysIn.bind (StaysIn.trans ?_ (StaysIn.forEach (fun _ _ => staysIn_nameEntity) _))
    fun w => ?_
  · exact ⟨rfl, rfl, rfl, rfl, rfl, rfl, rfl, rfl⟩
  · exact ⟨rfl, rfl, rfl, rfl, rfl, rfl, rfl, rfl⟩

theorem staysIn_traceRoad {previous : Nat → Nat} {start left current count intersection : Nat} :
    StaysIn v Prod.fst (traceRoad previous start left v current count intersection) := by
  induction left generalizing v current count intersection with
  | zero =>
      unfold traceRoad
      simp only
      repeat' split
      all_goals exact World.SameFrame.modifyTile v _ _
  | succ left ih =>
      unfold traceRoad
      simp only
      repeat' split
      all_goals first
        | exact World.SameFrame.modifyTile v _ _
        | exact StaysIn.trans (World.SameFrame.modifyTile v _ _) ih

theorem sameFrame_markCrossing (v : World) (intersection : Nat) :
    v.SameFrame (markCrossing v intersection) := by
  unfold markCrossing
  split
  · exact World.SameFrame.modifyTile v _ _
  · exact World.SameFrame.refl v

theorem staysIn_roadOver {cost : Nat → Nat} {start goal : Nat} :
    StaysIn v id (roadOver cost v start goal) := by
  unfold roadOver
  split
  · exact World.SameFrame.refl v
  · split
    · exact World.SameFrame.refl v
    · refine StaysIn.bind staysIn_traceRoad fun traced => ?_
      have h := sameFrame_markCrossing traced.1 traced.2.2
      exact ⟨h.config, h.rootSeedLe, h.content, h.configurationSha256, h.contentSha256, h.tick,
        h.tileCount, h.allocationSize⟩

theorem staysIn_constructRoad {context : FdContext} {start goal : Nat} (s : Ledger) :
    StaysIn v id (fdConstructRoad context draws v start goal attempt s).1 := by
  simp only [fdConstructRoad, run_bind, run_pure]
  split
  · exact staysIn_roadOver
  · exact World.SameFrame.refl v

theorem staysIn_populate {plan : CandidatePlan} {fallback : Bool} :
    StaysIn v id (populate draws plan attempt fallback v) := by
  unfold populate
  refine StaysIn.bind (staysIn_constructRiver.because _) fun built => ?_
  obtain ⟨w, outlet, count⟩ := built
  have hcount : w.SameFrame { w with riverTileCount := UInt32.ofNat count } :=
    ⟨rfl, rfl, rfl, rfl, rfl, rfl, rfl, rfl⟩
  refine StaysIn.bind (StaysIn.trans hcount (staysIn_assignBiomes.because _)) fun w => ?_
  have hpatch : w.SameFrame (if fallback then patchRepresentatives plan w else w) := by
    split
    · exact sameFrame_patchRepresentatives plan w
    · exact World.SameFrame.refl w
  refine StaysIn.bind (StaysIn.trans hpatch (staysIn_initializeEntities.because _)) fun w => ?_
  exact (World.SameFrame.settle w _ _).trans (World.SameFrame.settle _ _ _)

theorem staysIn_concludeCandidate : StaysIn v Prod.fst (concludeCandidate v) := by
  unfold concludeCandidate
  simp only
  split
  · exact ⟨rfl, rfl, rfl, rfl, rfl, rfl, rfl, rfl⟩
  · exact ⟨rfl, rfl, rfl, rfl, rfl, rfl, rfl, rfl⟩

theorem staysIn_layCandidate {fallback : Bool} :
    StaysIn v Prod.snd (layCandidate draws attempt fallback v) :=
  StaysIn.bind staysIn_drawPlan fun _ => StaysIn.bind staysIn_layCoast fun w =>
    World.SameFrame.refl w

theorem staysIn_generateCandidate {context : FdContext} {fallback : Bool} (s : Ledger) :
    StaysIn v Prod.fst (fdGenerateCandidate context draws v attempt fallback s).1 := by
  have hlaid : StaysIn v Prod.snd (layCandidate draws attempt fallback v) := staysIn_layCandidate
  unfold fdGenerateCandidate
  cases h : layCandidate draws attempt fallback v with
  | error halted => exact hlaid.error h
  | ok laid =>
      obtain ⟨plan, world⟩ := laid
      have hworld : v.SameFrame world := hlaid.ok h
      have helevation : StaysIn world id (fdApplyElevationFields context draws attempt world s).1 :=
        staysIn_applyElevationFields s
      simp only [run_bind]
      generalize fdApplyElevationFields context draws attempt world s = raised at helevation
      obtain ⟨raised, t⟩ := raised
      cases raised with
      | error halted => exact hworld.trans helevation
      | ok raised =>
          have hraised : v.SameFrame raised := hworld.trans helevation
          have hpopulate : StaysIn raised id (populate draws plan attempt fallback raised) :=
            staysIn_populate
          cases hpop : populate draws plan attempt fallback raised with
          | error rejected =>
              simp only [hpop]
              exact hraised.trans (hpopulate.error hpop)
          | ok settled =>
              have hsettled : v.SameFrame settled := hraised.trans (hpopulate.ok hpop)
              have hroad : StaysIn settled id (fdConstructRoad context draws settled
                  (settled.harbourIndex plan) (settled.marketIndex plan) attempt t).1 :=
                staysIn_constructRoad t
              simp only [hpop, run_bind]
              generalize fdConstructRoad context draws settled (settled.harbourIndex plan)
                (settled.marketIndex plan) attempt t = road at hroad
              obtain ⟨road, t⟩ := road
              cases road with
              | error halted => exact hsettled.trans hroad
              | ok world => exact StaysIn.trans (hsettled.trans hroad) staysIn_concludeCandidate

/-- An accepted candidate went through every stage. -/
theorem generateCandidate_eq_ok {context : FdContext} {fallback : Bool} {s : Ledger}
    {accepted : World × ValidationReport}
    (h : (fdGenerateCandidate context draws v attempt fallback s).1 = .ok accepted) :
    ∃ plan laid raised settled paved,
      layCandidate draws attempt fallback v = .ok (plan, laid) ∧
      (∃ t, (fdApplyElevationFields context draws attempt laid t).1 = .ok raised) ∧
      populate draws plan attempt fallback raised = .ok settled ∧
      (∃ t, (fdConstructRoad context draws settled (settled.harbourIndex plan)
        (settled.marketIndex plan) attempt t).1 = .ok paved) ∧
      concludeCandidate paved = .ok accepted := by
  unfold fdGenerateCandidate at h
  cases hlaid : layCandidate draws attempt fallback v with
  | error halted =>
      simp only [hlaid, run_pure] at h
      cases h
  | ok laid =>
      obtain ⟨plan, laid⟩ := laid
      simp only [hlaid, run_bind] at h
      cases hraised : (fdApplyElevationFields context draws attempt laid s).1 with
      | error halted =>
          simp only [hraised, run_pure] at h
          cases h
      | ok raised =>
          simp only [hraised] at h
          cases hsettled : populate draws plan attempt fallback raised with
          | error rejected =>
              simp only [hsettled, run_pure] at h
              cases h
          | ok settled =>
              simp only [hsettled, run_bind] at h
              cases hpaved : (fdConstructRoad context draws settled (settled.harbourIndex plan)
                  (settled.marketIndex plan) attempt
                  (fdApplyElevationFields context draws attempt laid s).2).1 with
              | error halted =>
                  simp only [hpaved, run_pure] at h
                  cases h
              | ok paved =>
                  simp only [hpaved, run_pure] at h
                  exact ⟨plan, laid, raised, settled, paved, rfl, ⟨s, hraised⟩, hsettled,
                    ⟨_, hpaved⟩, h⟩

theorem concludeCandidate_eq_ok {accepted : World × ValidationReport}
    (h : concludeCandidate v = .ok accepted) :
    accepted.1.Valid ∧ accepted.1.stateSha256 = stateDigest accepted.1 ∧
      accepted.1.entities = v.entities := by
  unfold concludeCandidate at h
  simp only at h
  split at h
  · cases h
  · next hvalid =>
      cases h
      exact ⟨valid_computeHash (not_not.mp hvalid), (stateDigest_computeHash _).symm, rfl⟩

end stages

section names

variable {draws : Draws} {v w : World} {attempt : UInt64}

/-- Bytes that may stand in a name. -/
def printable (name : List UInt8) : Bool := name.all fun b => decide (0x20 ≤ b) && decide (b ≤ 0x7e)

theorem fdU01NameValid_iff {name : List UInt8} :
    fdU01NameValid name = true ↔
      name.length ≠ 0 ∧ name.length < fdMaxNameBytes ∧ printable name = true := by
  simp only [fdU01NameValid, printable, Bool.and_eq_true, decide_eq_true_eq, and_assoc]

theorem syllable_printable (selected : Nat) :
    printable (asciiBytes (syllables.getD selected "")) = true := by
  by_cases hselected : selected < 24
  · revert selected
    decide
  · rw [List.getD_eq_default _ _ (by simpa [syllables] using hselected)]
    decide

theorem suffix_fits (index : Fin 6) :
    0 < (asciiBytes (suffixes.getD index.val "")).length ∧
      (asciiBytes (suffixes.getD index.val "")).length < fdMaxNameBytes ∧
      printable (asciiBytes (suffixes.getD index.val "")) = true := by
  revert index
  decide

/-- A name being built. -/
def NameSoFar (name : List UInt8) : Prop := name.length < fdMaxNameBytes ∧ printable name = true

theorem NameSoFar.append {name : List UInt8} {piece : String} (h : NameSoFar name)
    (hpiece : printable (asciiBytes piece) = true) : NameSoFar (appendNamePiece name piece) := by
  unfold appendNamePiece
  simp only
  split
  · next hfit =>
      refine ⟨by rwa [List.length_append], ?_⟩
      rw [printable, List.all_append, Bool.and_eq_true]
      exact ⟨h.2, hpiece⟩
  · exact h

theorem appendNamePiece_ne_nil {name : List UInt8} {piece : String}
    (hpos : 0 < (asciiBytes piece).length) (hshort : (asciiBytes piece).length < fdMaxNameBytes) :
    (appendNamePiece name piece).length ≠ 0 := by
  unfold appendNamePiece
  simp only
  split
  · rw [List.length_append]
    omega
  · omega

@[simp] theorem capitalize_length (name : List UInt8) :
    (capitalize name).length = name.length := by
  cases name <;> rfl

theorem capitalize_printable {name : List UInt8} (h : printable name = true) :
    printable (capitalize name) = true := by
  cases name with
  | nil => rfl
  | cons b rest =>
      simp only [printable, List.all_cons, Bool.and_eq_true, decide_eq_true_eq] at h
      simp only [capitalize, printable, List.all_cons, Bool.and_eq_true, decide_eq_true_eq]
      refine ⟨?_, h.2⟩
      split
      · next hlower =>
          simp only [UInt8.le_iff_toNat_le] at hlower ⊢
          rw [UInt8.toNat_sub_of_le _ _ (by simp only [UInt8.le_iff_toNat_le]; simp at hlower ⊢; omega)]
          simp at hlower ⊢
          omega
      · exact h.1

theorem assignName_valid {entity named : Entity} {domain : UInt32} {subject : UInt64}
    {index : Fin 6} (h : fdAssignName draws entity domain subject attempt
      (suffixes.getD index.val "") = .ok named) : fdU01NameValid named.name = true := by
  unfold fdAssignName at h
  obtain ⟨written, hwritten, hnamed⟩ := bind_eq_ok.mp h
  cases hnamed
  have hsofar : NameSoFar written := by
    refine forEach_invariant (P := NameSoFar) ⟨by decide, rfl⟩ ?_ hwritten
    intro part _ s s' hs hstep
    split at hstep
    · cases hstep
    · cases hstep
      exact hs.append (syllable_printable _)
  obtain ⟨hpos, hshort, hprint⟩ := suffix_fits index
  have hfull := hsofar.append hprint
  rw [fdU01NameValid_iff, capitalize_length]
  exact ⟨appendNamePiece_ne_nil hpos hshort, hfull.1, capitalize_printable hfull.2⟩

theorem nameEntity_eq_ok {index : Fin 6} (h : nameEntity draws attempt v index = .ok w) :
    ∃ entity, fdU01NameValid entity.name = true ∧
      w = { v with entities := v.entities.set index entity } := by
  unfold nameEntity at h
  simp only at h
  split at h
  · cases h
  · next entity hentity =>
      cases h
      exact ⟨entity, assignName_valid hentity, rfl⟩

/-- The names drawn so far are valid, whatever the others are. -/
theorem nameEntities_valid {indices : List (Fin 6)} {done : List (Fin 6)}
    (hdone : ∀ index ∈ done, fdU01NameValid (v.entity index).name = true)
    (h : forEach indices (nameEntity draws attempt) v = .ok w) :
    ∀ index ∈ done ++ indices, fdU01NameValid (w.entity index).name = true := by
  induction indices generalizing v done with
  | nil =>
      cases h
      rwa [List.append_nil]
  | cons index indices ih =>
      obtain ⟨u, hu, hrest⟩ := bind_eq_ok.mp h
      obtain ⟨entity, hvalid, rfl⟩ := nameEntity_eq_ok hu
      have hstep : ∀ other ∈ done ++ [index],
          fdU01NameValid ((v.entities.set index entity).get other).name = true := by
        intro other hother
        by_cases heq : other = index
        · rw [heq, List.Vector.get_set_same]
          exact hvalid
        · rw [List.Vector.get_set_of_ne (Ne.symm heq)]
          exact hdone other (by simpa [heq] using hother)
      have hall := ih hstep hrest
      rwa [List.append_assoc] at hall

theorem initializeEntities_names {coastalX coastalY inlandX inlandY outlet : Nat}
    (h : fdInitializeEntities draws v coastalX coastalY inlandX inlandY outlet attempt = .ok w) :
    ∀ index, fdU01NameValid (w.entity index).name = true := by
  unfold fdInitializeEntities at h
  obtain ⟨u, hu, hw⟩ := bind_eq_ok.mp h
  cases hw
  intro index
  refine nameEntities_valid ?_ hu index (List.mem_append_right [] (List.mem_finRange index))
  intro other hother
  cases hother

theorem mapError_eq_ok {α ε ε' : Type} {x : Except ε α} {f : ε → ε'} {a : α}
    (h : x.mapError f = .ok a) : x = .ok a := by
  cases x with
  | error e => cases h
  | ok b => exact congrArg _ (Except.ok.inj h)

theorem populate_names {plan : CandidatePlan} {fallback : Bool}
    (h : populate draws plan attempt fallback v = .ok w) :
    ∀ index, fdU01NameValid (w.entity index).name = true := by
  unfold populate at h
  simp only [bind_eq_ok] at h
  obtain ⟨_, -, _, -, u, hu, hw⟩ := h
  have hnames := initializeEntities_names (mapError_eq_ok hu)
  cases hw
  exact hnames

theorem traceRoad_entities {previous : Nat → Nat} {start left current count intersection : Nat}
    {traced : World × Nat × Nat}
    (h : traceRoad previous start left v current count intersection = .ok traced) :
    traced.1.entities = v.entities := by
  induction left generalizing v current count intersection with
  | zero =>
      unfold traceRoad at h
      simp only at h
      repeat' split at h
      all_goals cases h
      all_goals rfl
  | succ left ih =>
      unfold traceRoad at h
      simp only at h
      repeat' split at h
      all_goals first
        | exact (ih h).trans rfl
        | cases h
      all_goals rfl

theorem constructRoad_entities {context : FdContext} {start goal : Nat} {s : Ledger}
    (h : (fdConstructRoad context draws v start goal attempt s).1 = .ok w) :
    w.entities = v.entities := by
  simp only [fdConstructRoad, run_bind, run_pure] at h
  split at h
  · unfold roadOver at h
    split at h
    · cases h
    · split at h
      · cases h
      · obtain ⟨traced, htraced, hw⟩ := bind_eq_ok.mp h
        cases hw
        have hmark : ∀ (u : World) intersection, (markCrossing u intersection).entities =
            u.entities := by
          intro u intersection
          unfold markCrossing
          split <;> rfl
        exact (hmark _ _).trans (traceRoad_entities htraced)
  · cases h

end names

section sound

variable {context : FdContext} {draws : Draws} {v w : World}

/-- What an accepted candidate establishes on top of its frame. -/
structure World.Accepted (world : World) : Prop where
  valid : world.Valid
  stateHash : world.stateSha256 = stateDigest world
  names : ∀ index, fdU01NameValid (world.entity index).name = true

theorem generateCandidate_accepted {attempt : UInt64} {fallback : Bool} {s : Ledger}
    {validation : ValidationReport}
    (h : (fdGenerateCandidate context draws v attempt fallback s).1 = .ok (w, validation)) :
    w.Accepted := by
  obtain ⟨plan, laid, raised, settled, paved, -, -, hsettled, ⟨t, hpaved⟩, hconclude⟩ :=
    generateCandidate_eq_ok h
  obtain ⟨hvalid, hhash, hentities⟩ := concludeCandidate_eq_ok hconclude
  refine ⟨hvalid, hhash, fun index => ?_⟩
  have hsame : w.entities = settled.entities := hentities.trans (constructRoad_entities hpaved)
  rw [World.entity, hsame]
  exact populate_names hsettled index

theorem runAttempts_ok {left attempt : Nat} {report : GenerationReport} {s : Ledger}
    (h : (runAttempts context draws left attempt v report s).1.2 = .ok w) :
    v.SameFrame w ∧ w.Accepted := by
  induction left generalizing attempt v report s with
  | zero => cases h
  | succ left ih =>
      have hframe : StaysIn v Prod.fst
          (fdGenerateCandidate context draws v (UInt64.ofNat attempt) (left == 0) s).1 :=
        staysIn_generateCandidate s
      simp only [runAttempts, run_bind] at h
      cases hcandidate : (fdGenerateCandidate context draws v (UInt64.ofNat attempt) (left == 0)
          s).1 with
      | ok accepted =>
          simp only [hcandidate, run_pure] at h
          cases h
          exact ⟨hframe.ok hcandidate, generateCandidate_accepted hcandidate⟩
      | error rejected =>
          simp only [hcandidate] at h
          split at h
          · cases h
          · obtain ⟨hrest, haccepted⟩ := ih h
            exact ⟨(hframe.error hcandidate).trans hrest, haccepted⟩

theorem fdWorldGenerate_ok {config : WorldConfig} {seed : UInt64} {content : ContentManifest}
    {out : Option StructHeader} {s : Ledger}
    (h : (fdWorldGenerate context config seed content out s).1.2 = .ok w) :
    InputsValid config content ∧
      (config.forestDensityPpm ≠ 0 ∧ config.hillDensityPpm ≠ 0 ∧ config.wetlandDensityPpm ≠ 0) ∧
      config.width.toNat * config.height.toNat * sizeofFdTile + sizeofFdWorld ≤
        context.maxLiveWorldBytes.toNat ∧
      (emptyWorld config seed content.packs
        (config.width.toNat * config.height.toNat * sizeofFdTile + sizeofFdWorld)).SameFrame w ∧
      w.Accepted := by
  unfold fdWorldGenerate at h
  cases hchecked : generateChecks config content out with
  | error failure =>
      simp only [hchecked, run_pure] at h
      cases h
  | ok _ =>
      have hinputs := inputsValid_iff.mp (failIf_bind_eq_ok.mp hchecked).2
      simp only [hchecked] at h
      split at h
      · cases h
      · next hdensity =>
          simp only [not_or] at hdensity
          split at h
          · cases h
          · next hsize =>
              simp only [not_or, not_lt] at hsize
              simp only [run_bind, run_ite] at h
              split at h
              · cases h
              · split at h
                · cases h
                · generalize hrun : runAttempts _ _ _ _ _ _ _ = ran at h
                  obtain ⟨⟨report, result⟩, t⟩ := ran
                  cases result with
                  | ok world =>
                      cases h
                      have hresult := congrArg (·.1.2) hrun
                      obtain ⟨hframe, haccepted⟩ := runAttempts_ok hresult
                      exact ⟨hinputs, hdensity, hsize.1, hframe, haccepted⟩
                  | error code => cases h

theorem fdConfigReservedZero_iff {config : WorldConfig} :
    fdConfigReservedZero config = true ↔ config.reserved = List.Vector.replicate 8 0 := by
  simp only [fdConfigReservedZero, List.all_eq_true, beq_iff_eq]
  constructor
  · intro h
    refine Subtype.ext (List.eq_replicate_iff.mpr ⟨config.reserved.2, ?_⟩)
    exact h
  · intro h word hword
    rw [h] at hword
    exact List.eq_of_mem_replicate hword

/-- A generated world is sound. -/
theorem sound_of_generate {config : WorldConfig} {seed : UInt64} {content : ContentManifest}
    {out : Option StructHeader} {s : Ledger}
    (h : (fdWorldGenerate context config seed content out s).1.2 = .ok w) :
    w.Sound context ∧ w.tick = 0 := by
  obtain ⟨hinputs, hdensity, hsize, hframe, haccepted⟩ := fdWorldGenerate_ok h
  have hreserved : config.reserved = List.Vector.replicate 8 0 :=
    fdConfigReservedZero_iff.mp hinputs.reserved
  have hpacks : (ContentTable.copy content.packs).packs = content.packs :=
    ContentTable.copy_packs hinputs.contentBound.2
  have hcount : w.tileCount = config.width.toNat * config.height.toNat :=
    hframe.tileCount.trans List.length_replicate
  constructor
  · constructor
    case config =>
      rw [hframe.config]
      exact ⟨rfl, rfl, hreserved⟩
    case inputs =>
      rw [hframe.config, hframe.content]
      change InputsValid _ (contentManifest (ContentTable.copy content.packs).packs)
      rw [hpacks]
      exact { hinputs with configHeader := rfl, contentHeader := rfl,
                           contentBound := ⟨rfl, hinputs.contentBound.2⟩ }
    case densities =>
      rw [hframe.config]
      exact hdensity
    case liveBound =>
      rw [hcount]
      exact hsize
    case allocation =>
      rw [hcount]
      exact hframe.allocationSize
    case configDigest =>
      rw [hframe.config, hframe.configurationSha256]
      rfl
    case contentDigest =>
      rw [hframe.content, hframe.contentSha256]
      change fdHashContentInternal content.packs =
        fdHashContentInternal (ContentTable.copy content.packs).packs
      rw [hpacks]
    case stateHash => exact haccepted.stateHash
    case tick =>
      rw [hframe.tick]
      rfl
    case valid => exact haccepted.valid
    case names =>
      intro entity hentity
      obtain ⟨index, rfl⟩ := List.Vector.mem_iff_get entity _ |>.mp hentity
      exact haccepted.names index
  · exact hframe.tick

end sound

end FrontierDirectorate
