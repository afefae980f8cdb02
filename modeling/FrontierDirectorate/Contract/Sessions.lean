import Mathlib
import FrontierDirectorate.Contract.Saves
import FrontierDirectorate.Core.SessionLaws

/-!
# Sessions

What holds of every live world and of the counters after any sequence of calls on
one context.
-/
namespace FrontierDirectorate
open Checks

section worlds

variable {context : FdContext}

/-- The fields of a world that no call changes. -/
structure World.SameLand (v w : World) : Prop where
  config : v.config = w.config
  seed : v.rootSeedLe = w.rootSeedLe
  content : v.content = w.content
  tiles : v.tiles = w.tiles
  entities : v.entities = w.entities
  region : v.region = w.region

theorem World.sameLand_atTick (world : World) (tick : UInt64) :
    (world.atTick tick).SameLand world := ⟨rfl, rfl, rfl, rfl, rfl, rfl⟩

/-- At every point of every session each live world is valid, its cached digests are current, its
clock counts its accepted decisions, its land is the one it was created with, and it has accepted
no decision twice. -/
theorem live_world_invariant (calls : List Call) {live : LiveWorld}
    (h : live ∈ (Session.start.run context calls).worlds) :
    (fdWorldValidateInternal live.world).result = .ok () ∧
      live.world.stateSha256 = (fdWorldComputeHash live.world).stateSha256 ∧
      live.world.configurationSha256 = fdHashConfigInternal live.world.config ∧
      live.world.contentSha256 = fdHashContentInternal live.world.content.packs ∧
      live.world.tick % fdOperationalTicks = 0 ∧
      live.world.tick.toNat = live.origin.tick.toNat + 24 * live.accepted.length ∧
      live.world.SameLand live.origin ∧ live.accepted.Nodup := by
  have hfaithful := faithful_run faithful_start calls live h
  have hsound := hfaithful.sound
  have hland : live.world.SameLand live.origin := by
    rw [hfaithful.body]
    exact live.origin.sameLand_atTick _
  have hresult : (fdWorldValidateInternal live.world).result = .ok () :=
    if_neg (not_not.mpr hsound.valid)
  exact ⟨hresult, hsound.stateHash, hsound.configDigest, hsound.contentDigest, hfaithful.tick_mod,
    hfaithful.clock, hland, hfaithful.nodup⟩

theorem publishWorld_ok {s : Session} {created : StateM Ledger (Except Fail World)} {world : World}
    (h : (created s.ledger).1 = .ok world) :
    (s.publishWorld created).1.worlds = s.worlds ++ [.created world] := by
  unfold Session.publishWorld
  split
  · next failure ledger hresult =>
      rw [hresult] at h
      cases h
  · next loaded ledger hresult =>
      rw [hresult] at h
      cases h
      rfl

/-- Loading the sample adds it to the live worlds. -/
theorem load_sample_worlds (s : Session) (h : s.opened = true) :
    (s.call sampleContext (.load (saveBytes (sampleAt 0)))).1.worlds =
      s.worlds ++ [.created (sampleAt 0)] := by
  have hworlds : (s.publishWorld (fdWorldLoad sampleContext (saveBytes (sampleAt 0)))).1.worlds =
      s.worlds ++ [.created (sampleAt 0)] :=
    publishWorld_ok (sampleAt_loads rfl (by decide) s.ledger)
  simp only [Session.call, Session.withContext, h, if_true]
  exact hworlds

/-- What an accepted step makes of the live worlds. -/
theorem stepCall_ok {s : Session} {index : Nat} {live : LiveWorld} {decision : JointDecision}
    {out : StructHeader} {next : World} {result : StepResult} (hlive : s.worlds[index]? = some live)
    (h : fdWorldStep live.world decision out = (next, .ok result)) :
    (s.call context (.step index decision out)).1.worlds =
      s.worlds.set index ⟨next, live.origin, live.accepted ++ [decision]⟩ := by
  simp only [Session.call, hlive, Session.stepCall, h]

/-- The sample, loaded and stepped once. -/
theorem live_world_invariant_sample :
    (⟨stepWorld (sampleAt 0), sampleAt 0, [(sampleAt 0).pass]⟩ : LiveWorld) ∈
        (Session.start.run sampleContext [.load (saveBytes (sampleAt 0)),
          .step 0 (sampleAt 0).pass stepOut]).worlds ∧
      (fdWorldValidateInternal (stepWorld (sampleAt 0))).result = .ok () ∧
      (stepWorld (sampleAt 0)).tick.toNat = (sampleAt 0).tick.toNat + 24 * 1 := by
  have hmem : (⟨stepWorld (sampleAt 0), sampleAt 0, [(sampleAt 0).pass]⟩ : LiveWorld) ∈
      (Session.start.run sampleContext [.load (saveBytes (sampleAt 0)),
        .step 0 (sampleAt 0).pass stepOut]).worlds := by
    rw [Session.run_cons, Session.run_cons, Session.run_nil]
    have hworlds := load_sample_worlds Session.start rfl
    generalize (Session.start.call sampleContext (.load (saveBytes (sampleAt 0)))).1 = s at hworlds ⊢
    have hfirst : s.worlds[0]? = some (.created (sampleAt 0)) := by
      rw [hworlds]
      rfl
    have hsound : (sampleAt 0).Sound sampleContext := sampleAt_sound rfl
    have hstep := World.pass_accepted hsound.valid (by decide)
    have hcall : (s.call sampleContext (.step 0 (sampleAt 0).pass stepOut)).1.worlds =
        s.worlds.set 0 ⟨stepWorld (sampleAt 0), sampleAt 0, [(sampleAt 0).pass]⟩ :=
      stepCall_ok hfirst hstep
    rw [hcall, hworlds]
    exact List.mem_singleton.mpr rfl
  have hinvariant := live_world_invariant _ hmem
  exact ⟨hmem, hinvariant.1, hinvariant.2.2.2.2.2.1⟩

end worlds

section counters

variable {context : FdContext}

theorem fdContextDestroy_eq_ok {s : Ledger} (h : s.liveHandles = 0) :
    fdContextDestroy s = .ok () := failIf_false (not_not.mpr h)

theorem destroyContext_busy_iff (s : Session) :
    (∃ failure, failure.code = fdErrBusy ∧
        s.call context .destroyContext = (s, .error failure)) ↔
      s.opened = true ∧ s.ledger.liveHandles ≠ 0 := by
  simp only [Session.call]
  constructor
  · rintro ⟨failure, -, h⟩
    by_cases hopened : s.opened = true
    · refine ⟨hopened, fun hzero => ?_⟩
      rw [if_pos hopened, fdContextDestroy_eq_ok hzero] at h
      cases congrArg Prod.snd h
    · rw [if_neg hopened] at h
      cases congrArg Prod.snd h
  · rintro ⟨hopened, hbusy⟩
    refine ⟨fdDiagSet fdErrBusy fdFieldNone 0 "context still owns live handles", rfl, ?_⟩
    rw [if_pos hopened, fdContextDestroy, failIf_true hbusy]

theorem bytes_of_handles_zero {s : Session} (h : s.handles = 0) : s.bytes = 0 := by
  unfold Session.handles at h
  obtain ⟨hrest, hreplays⟩ := Nat.add_eq_zero_iff.mp h
  obtain ⟨hworlds, hsnapshots⟩ := Nat.add_eq_zero_iff.mp hrest
  rw [Session.bytes, List.length_eq_zero_iff.mp hworlds, List.length_eq_zero_iff.mp hsnapshots,
    List.length_eq_zero_iff.mp hreplays]
  rfl

theorem publishWorld_handles {s : Session} {created : StateM Ledger (Except Fail World)}
    {world : World} (h : (created s.ledger).1 = .ok world) :
    (s.publishWorld created).1.opened = s.opened ∧
      (s.publishWorld created).1.handles = s.handles + 1 := by
  unfold Session.publishWorld
  split
  · next failure ledger hresult =>
      rw [hresult] at h
      cases h
  · next loaded ledger hresult =>
      refine ⟨rfl, ?_⟩
      simp only [Session.handles, List.length_append, List.length_cons, List.length_nil]
      omega

theorem load_sample_handles (s : Session) (h : s.opened = true) :
    (s.call sampleContext (.load (saveBytes (sampleAt 0)))).1.opened = true ∧
      (s.call sampleContext (.load (saveBytes (sampleAt 0)))).1.handles = s.handles + 1 := by
  have hload : (fdWorldLoad sampleContext (saveBytes (sampleAt 0)) s.ledger).1 =
      .ok (sampleAt 0) := sampleAt_loads rfl (by decide) s.ledger
  have hpublished := publishWorld_handles hload
  simp only [Session.call, Session.withContext, h, if_true]
  exact ⟨hpublished.1.trans h, hpublished.2⟩

/-- After any calls the counters are those of the live handles, in their 32 and 64 bits; a call
that fails changes neither them nor any handle; the context is busy exactly while the handle
counter is not zero, and without live handles no byte is owned. -/
theorem session_counters (context : FdContext) (calls : List Call) :
    let s := Session.start.run context calls
    s.ledger.liveHandles.toNat = s.handles % 2 ^ 32 ∧ s.ledger.liveBytes.toNat = s.bytes % 2 ^ 64 ∧
      (∀ c failure, (s.call context c).2 = .error failure → s.Unchanged (s.call context c).1) ∧
      ((∃ failure, failure.code = fdErrBusy ∧ s.call context .destroyContext =
        (s, .error failure)) ↔ s.opened = true ∧ s.ledger.liveHandles ≠ 0) ∧
      (s.handles = 0 → s.ledger.liveBytes = 0) := by
  intro s
  have hfaithful : s.Faithful context := faithful_run faithful_start calls
  have hbalanced : s.Balanced := balanced_run faithful_start balanced_start calls
  have hcounters : s.ledger.liveBytes = UInt64.ofNat s.bytes ∧
      s.ledger.liveHandles = UInt32.ofNat s.handles := Prod.ext_iff.mp hbalanced
  refine ⟨?_, ?_, fun c failure h => unchanged_call hfaithful h, ?_, ?_⟩
  · rw [hcounters.2, UInt32.toNat_ofNat']
  · rw [hcounters.1, UInt64.toNat_ofNat']
  · exact destroyContext_busy_iff s
  · intro hnone
    have hbytes : s.bytes = 0 := bytes_of_handles_zero hnone
    rw [hcounters.1, hbytes]
    rfl

/-- The sample loaded `n` times. -/
def loads (n : Nat) : List Call := List.replicate n (.load (saveBytes (sampleAt 0)))

theorem loads_handles (n : Nat) : (Session.start.run sampleContext (loads n)).handles = n := by
  have hrun : ∀ s : Session, s.opened = true →
      (s.run sampleContext (loads n)).handles = s.handles + n := by
    induction n with
    | zero => exact fun s _ => rfl
    | succ n ih =>
        intro s hopened
        obtain ⟨hstill, hhandles⟩ := load_sample_handles s hopened
        rw [loads, List.replicate_succ, Session.run_cons]
        exact (ih _ hstill).trans (by omega)
  rw [hrun Session.start rfl]
  exact Nat.zero_add n

theorem loads_counter (n : Nat) :
    (Session.start.run sampleContext (loads n)).ledger.liveHandles = UInt32.ofNat n := by
  have hbalanced : (Session.start.run sampleContext (loads n)).Balanced :=
    balanced_run faithful_start balanced_start (loads n)
  have hcounter := (Prod.ext_iff.mp hbalanced).2
  rw [loads_handles] at hcounter
  exact hcounter

/-- With 2^32 live worlds the handle counter reads zero. -/
theorem handle_counter_wraps :
    (Session.start.run sampleContext (loads 4294967296)).handles = 4294967296 ∧
      (Session.start.run sampleContext (loads 4294967296)).ledger.liveHandles = 0 := by
  refine ⟨loads_handles 4294967296, ?_⟩
  rw [loads_counter]
  decide

end counters

end FrontierDirectorate
