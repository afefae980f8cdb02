import Mathlib
import FrontierDirectorate.Core.StepLaws

/-!
# The action mask

`fd_action_mask_query` tells a caller which categories an actor may choose. The one
bit it sets is the one that `fd_action_validate` lets through.
-/
namespace FrontierDirectorate
open Checks

abbrev sizeofFdActionPrefix : UInt32 := 36
abbrev sizeofFdActionMask : UInt32 := 32

structure ActionPrefix where
  structSize : UInt32
  abiVersion : UInt32
  depth : UInt32
  category : UInt32
  parameterCount : UInt32
  parameters : List.Vector UInt32 4
deriving DecidableEq

def ActionPrefix.header (query : ActionPrefix) : StructHeader := ⟨query.structSize, query.abiVersion⟩

/-- `bits` is the buffer the caller points to, if there is one. -/
structure ActionMask where
  structSize : UInt32
  abiVersion : UInt32
  schemaId : UInt32
  firstValue : UInt32
  bitCount : UInt32
  byteCapacity : UInt32
  bits : Option (List UInt8)
deriving DecidableEq

def ActionMask.header (mask : ActionMask) : StructHeader := ⟨mask.structSize, mask.abiVersion⟩

/-- The checks of a query before it writes. -/
def maskChecks (world : World) (actor : FdEntityId) (query : ActionPrefix) (out : ActionMask) :
    Except Fail Unit := do
  failIf (¬ fdInputStructValid query.header sizeofFdActionPrefix ∨
      ¬ fdOutputStructValid out.header sizeofFdActionMask)
    (fdDiagSet fdErrInvalidSize fdFieldStructSize 0 "invalid action prefix or mask size")
  failIf (¬ fdIsForeignActor world actor)
    (fdDiagSet fdErrOutOfRange fdFieldEntityId 0 "actor is not a U01 decision seat")
  failIf (query.depth ≠ 0 ∨ query.category ≠ 0 ∨ query.parameterCount ≠ 0)
    (fdDiagSet fdErrOutOfRange fdFieldAction 0 "U01 mask queries require an empty prefix")
  forEach (List.finRange 4) (fun () parameter =>
    failIf (query.parameters.get parameter ≠ 0)
      (fdDiagSet fdErrInvalidArgument fdFieldAction (UInt32.ofNat parameter.val)
        "unused empty-prefix parameters must be zero")) ()

/-- The mask after the call, and its result. -/
def fdActionMaskQuery (world : World) (actor : FdEntityId) (query : ActionPrefix)
    (out : ActionMask) : ActionMask × Except Fail Unit :=
  match maskChecks world actor query out with
  | .error failure => (out, .error failure)
  | .ok () =>
    let capacity := out.byteCapacity
    let out := { out with
      schemaId := 1
      firstValue := fdActionPass
      bitCount := 1
      byteCapacity := 1 }
    match out.bits with
    | none => (out, .error (fdDiagSet fdErrBufferTooSmall fdFieldBufferCapacity 0
        "action mask requires one byte"))
    | some bits =>
      if capacity < 1 then (out, .error (fdDiagSet fdErrBufferTooSmall fdFieldBufferCapacity 0
        "action mask requires one byte"))
      else ({ out with bits := some (bits.set 0 1) }, .ok ())

/-- Bit `category - first_value` of a mask. -/
def ActionMask.allows (mask : ActionMask) (category : UInt32) : Bool :=
  let bit := (category - mask.firstValue).toNat
  decide (mask.firstValue ≤ category) && decide (bit < mask.bitCount.toNat) &&
    ((mask.bits.getD []).getD (bit / 8) 0).toNat.testBit (bit % 8)

/-- The buffer of a mask is as large as the mask says. -/
def ActionMask.Backed (mask : ActionMask) : Prop :=
  ∀ bytes, mask.bits = some bytes → mask.byteCapacity.toNat ≤ bytes.length

/-- What the mask of an actor allows, asked for in whatever way the query accepts. -/
def MaskAllows (world : World) (actor : FdEntityId) (category : UInt32) : Prop :=
  ∃ query out mask, out.Backed ∧ fdActionMaskQuery world actor query out = (mask, .ok ()) ∧
    mask.allows category = true

section laws

variable {world : World} {actor : FdEntityId} {query : ActionPrefix} {out mask : ActionMask}

theorem fdActionMaskQuery_eq_ok (h : fdActionMaskQuery world actor query out = (mask, .ok ())) :
    fdIsForeignActor world actor = true ∧ ∃ bits, out.bits = some bits ∧ 1 ≤ out.byteCapacity ∧
      mask = { out with
        schemaId := 1
        firstValue := fdActionPass
        bitCount := 1
        byteCapacity := 1
        bits := some (bits.set 0 1) } := by
  unfold fdActionMaskQuery at h
  cases hchecks : maskChecks world actor query out with
  | error failure =>
      rw [hchecks] at h
      cases h
  | ok _ =>
      have hforeign : fdIsForeignActor world actor = true := by
        obtain ⟨-, hrest⟩ := failIf_bind_eq_ok.mp hchecks
        obtain ⟨hactor, -⟩ := failIf_bind_eq_ok.mp hrest
        exact not_not.mp hactor
      rw [hchecks] at h
      cases hbits : out.bits with
      | none =>
          simp only [hbits] at h
          cases h
      | some bits =>
          simp only [hbits] at h
          split at h
          · cases h
          · next hcapacity =>
              cases h
              exact ⟨hforeign, bits, rfl, UInt32.not_lt.mp hcapacity, rfl⟩

/-- Every mask a query returns allows the pass and nothing else. -/
theorem allows_iff (hbacked : out.Backed)
    (h : fdActionMaskQuery world actor query out = (mask, .ok ())) (category : UInt32) :
    mask.allows category = true ↔ category = fdActionPass := by
  obtain ⟨-, bits, hbits, hcapacity, rfl⟩ := fdActionMaskQuery_eq_ok h
  have hlength : 0 < bits.length := by
    have hroom := hbacked bits hbits
    have hone : 1 ≤ out.byteCapacity.toNat := hcapacity
    omega
  have hset : (bits.set 0 1).getD 0 0 = 1 := by
    rw [List.getD_eq_getElem?_getD, List.getElem?_set_self hlength, Option.getD_some]
  simp only [ActionMask.allows, Option.getD_some, Bool.and_eq_true, decide_eq_true_iff]
  constructor
  · rintro ⟨⟨hle, hlt⟩, -⟩
    have hle : 1 ≤ category.toNat := hle
    have hsub : (category - 1).toNat = category.toNat - 1 := UInt32.toNat_sub_of_le _ _ hle
    have hlt : (category - 1).toNat < 1 := hlt
    exact UInt32.toNat_inj.mp (show category.toNat = 1 by omega)
  · rintro rfl
    refine ⟨⟨UInt32.le_refl _, by decide⟩, ?_⟩
    have hbit : (fdActionPass - fdActionPass).toNat = 0 := rfl
    rw [hbit, Nat.zero_div, hset]
    rfl

/-- A query that the mask answers. -/
abbrev emptyPrefix : ActionPrefix := ⟨sizeofFdActionPrefix, fdAbiVersion, 0, 0, 0, List.Vector.replicate 4 0⟩

abbrev maskOut : ActionMask := ⟨sizeofFdActionMask, fdAbiVersion, 0, 0, 0, 1, some [0]⟩

theorem maskOut_backed : maskOut.Backed := by
  intro bytes hbytes
  cases hbytes
  exact Nat.le_refl 1

theorem fdActionMaskQuery_empty (h : fdIsForeignActor world actor = true) :
    fdActionMaskQuery world actor emptyPrefix maskOut =
      (⟨sizeofFdActionMask, fdAbiVersion, 1, fdActionPass, 1, 1, some [1]⟩, .ok ()) := by
  have hchecks : maskChecks world actor emptyPrefix maskOut = .ok () := by
    rw [maskChecks, failIf_bind_of_not (by decide), failIf_bind_of_not (not_not.mpr h),
      failIf_bind_of_not (by decide)]
    decide
  rw [fdActionMaskQuery, hchecks]
  rfl

/-- The mask of an actor exists when the actor has a seat. -/
theorem maskAllows_iff (category : UInt32) :
    MaskAllows world actor category ↔
      fdIsForeignActor world actor = true ∧ category = fdActionPass := by
  constructor
  · rintro ⟨query, out, mask, hbacked, hquery, hallows⟩
    exact ⟨(fdActionMaskQuery_eq_ok hquery).1, (allows_iff hbacked hquery category).mp hallows⟩
  · rintro ⟨hforeign, rfl⟩
    have hquery := fdActionMaskQuery_empty hforeign
    exact ⟨emptyPrefix, maskOut, _, maskOut_backed, hquery,
      (allows_iff maskOut_backed hquery _).mpr rfl⟩

end laws

end FrontierDirectorate
