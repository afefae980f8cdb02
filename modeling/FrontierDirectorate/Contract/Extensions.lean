import Mathlib
import FrontierDirectorate.Contract.Saves
import FrontierDirectorate.Core.SaveExtension

/-!
# Forward compatibility

A save that a later minor version extended is loaded as the original is, and a
critical section that the reader does not know keeps it from loading.
-/
namespace FrontierDirectorate
open Checks

section extension

variable {context : FdContext} {origin world : World} {visited : List World}
  {capacity : Nat} {bytes file : List UInt8} {e : Extension}

/-- A compatible extension of the save of a live world is loaded as the save itself, whatever the
allocator does; where memory suffices and the clock has room it is loaded. With an unknown
critical section the load fails and leaves the context as it was. -/
theorem extension_loads_alike (reader : FdContext) (hcreated : Created context origin)
    (hrun : AcceptedRun origin visited world)
    (hsave : fdWorldSave context world capacity = .ok bytes) (hfile : e.Extends bytes file) :
    (e.Optional → file.length ≤ reader.maxFileBytes.toNat →
      fdWorldLoad reader file = fdWorldLoad reader bytes ∧
        (reader.NeverFails → world.tick ≤ lastStepTick →
          world.tileCount * sizeofFdTile + sizeofFdWorld ≤ reader.maxLiveWorldBytes.toNat →
          ∃ loaded, loaded.SameAuthority world ∧
            ∀ s, (fdWorldLoad reader file s).1 = .ok loaded)) ∧
      ((∃ f ∈ e.added, f.flags &&& fdSectionCritical ≠ 0) →
        ∀ s, ∃ failure, fdWorldLoad reader file s = (.error failure, s)) := by
  have hsound : world.Sound context := hrun.sound hcreated.sound.1
  obtain ⟨rfl, -, -⟩ := (fdWorldSave_eq_ok_iff hsound.bounded).mp hsave
  constructor
  · intro hoptional hsize
    have halike : fdWorldLoad reader file = fdWorldLoad reader (saveBytes world) :=
      Extension.load_eq hsound hoptional hfile hsize
    refine ⟨halike, ?_⟩
    intro hreader htick hlive
    have hreadable : world.Sound reader := { hsound with liveBound := hlive }
    have hshorter : saveSize world ≤ reader.maxFileBytes.toNat :=
      (hfile.saveSize_le hsound.bounded).trans hsize
    refine ⟨world.reloaded, world.reloaded_sameAuthority, fun s => ?_⟩
    rw [halike]
    exact fdWorldLoad_of_loadsTo hreader (loadsTo_saveBytes hreadable htick hshorter) s
  · rintro ⟨f, hf, hcritical⟩ s
    exact Extension.load_error hfile hf hcritical s

end extension

section sample

/-- A later minor version: an optional field, and one more section with the given flags. -/
def sampleExtension (flags : UInt16) : Extension where
  fileMinor := 1
  apiMinor := fdApiVersionMinor.toUInt32 + 1
  apiPatch := 7
  replayMinor := 1
  manifestSuffix := []
  versionSuffix := [0xde, 0xad, 0xbe, 0xef]
  added := [⟨12, flags, []⟩]
  unknown := by simp
  increasing := by simp
  count := by simp

/-- The first sample world, extended. -/
def extendedSample (flags : UInt16) : List UInt8 :=
  saveFile ((sampleExtension flags).frames fun tag => savePayload (sampleAt 0) tag.toNat)

theorem extendedSample_extends (flags : UInt16) :
    (sampleExtension flags).Extends (saveBytes (sampleAt 0)) (extendedSample flags) :=
  ⟨_, saveBytes_eq_saveFile _, rfl⟩

theorem extension_loads_alike_sample :
    fdWorldLoad sampleContext (extendedSample 0) =
        fdWorldLoad sampleContext (saveBytes (sampleAt 0)) ∧
      (∃ loaded, loaded.SameAuthority (sampleAt 0) ∧
        ∀ s, (fdWorldLoad sampleContext (extendedSample 0) s).1 = .ok loaded) ∧
      ∀ s, ∃ failure, fdWorldLoad sampleContext (extendedSample fdSectionCritical) s =
        (.error failure, s) := by
  have hsound : (sampleAt 0).Sound sampleContext := sampleAt_sound rfl
  have hcreated : Created sampleContext (sampleAt 0) :=
    .loaded (sampleAt_loads rfl (by decide) Ledger.zero)
  have hbound := saveSize_le hsound.bounded
  have hsave : fdWorldSave sampleContext (sampleAt 0) 1000000 = .ok (saveBytes (sampleAt 0)) :=
    fdWorldSave_eq hsound.bounded (hbound.trans (by decide)) hbound
  have hadded : ((sampleExtension 0).added.flatMap Frame.bytes).length = 48 := by
    simp [sampleExtension]
  have hlength : (extendedSample 0).length = saveSize (sampleAt 0) + 52 := by
    rw [extendedSample, Extension.length_eq, saveBytes_length, hadded,
      show (sampleExtension 0).manifestSuffix.length = 0 from rfl,
      show (sampleExtension 0).versionSuffix.length = 4 from rfl]
  have hsize : (extendedSample 0).length ≤ sampleContext.maxFileBytes.toNat := by
    rw [hlength, show sampleContext.maxFileBytes.toNat = 4194304 from rfl]
    omega
  have hoptional : (sampleExtension 0).Optional := by simp [Extension.Optional, sampleExtension]
  obtain ⟨halike, hloads⟩ := (extension_loads_alike sampleContext hcreated (.nil _)
    hsave (extendedSample_extends 0)).1 hoptional hsize
  refine ⟨halike, hloads sampleContext_neverFails (by decide) hsound.liveBound, ?_⟩
  exact (extension_loads_alike sampleContext hcreated (.nil _) hsave
    (extendedSample_extends fdSectionCritical)).2 ⟨_, List.mem_cons_self, by decide⟩

end sample

end FrontierDirectorate
