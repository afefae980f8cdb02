import Mathlib
import FrontierDirectorate.Contract.Saves
import FrontierDirectorate.Core.ReplayRebuild

/-!
# Replays

A built replay opens and says what running its attempts does, an accepted one
cannot say anything else, and advancing it is stepping its tick-zero world.
-/
namespace FrontierDirectorate
open Accounting ByteCodec Checks

section build

/-- An attempt, the worlds before and after it, and what the step reports about it. -/
structure Attempt where
  index : Nat
  before : World
  decision : JointDecision
  after : World
  outcome : Except Fail StepResult

/-- A list of decisions given to the step one after the other, from the attempt numbered `index`. -/
def attemptsFrom (world : World) (index : Nat) : List JointDecision → List Attempt
  | [] => []
  | decision :: rest =>
    let stepped := fdWorldStep world decision stepOut
    ⟨index, world, decision, stepped.1, stepped.2⟩ :: attemptsFrom stepped.1 (index + 1) rest

def Attempt.accepted (attempt : Attempt) : Bool := attempt.outcome.toBool

/-- What a replay holds about an accepted attempt; records carry the decision with the headers of
the current version. -/
def Attempt.record (attempt : Attempt) : Option ReplayRecord :=
  match attempt.outcome with
  | .error _ => none
  | .ok step => some {
      tickBefore := attempt.before.tick
      tickAfter := attempt.after.tick
      decision := attempt.decision.staged
      rngDomainCount := step.rngDomainCount
      preHash := attempt.before.stateSha256
      postHash := attempt.after.stateSha256
      eventHash := step.eventSha256 }

/-- What a replay holds about a rejected attempt: the decision as it was submitted, and the whole
diagnostic. -/
def Attempt.audit (attempt : Attempt) : Option ReplayAudit :=
  match attempt.outcome with
  | .ok _ => none
  | .error failure => some {
      attemptIndex := UInt64.ofNat attempt.index
      tick := attempt.before.tick
      decision := attempt.decision
      result := failure.code
      fieldId := failure.fieldId
      itemIndex := failure.itemIndex
      message := asciiBytes failure.message }

/-- The entries of a replay are those of running the decisions from the world. -/
structure Recounts (replay : Replay) (world : World) (decisions : List JointDecision) : Prop where
  records : replay.records = (attemptsFrom world 0 decisions).filterMap Attempt.record
  audits : replay.audits = (attemptsFrom world 0 decisions).filterMap Attempt.audit
  positions : (((attemptsFrom world 0 decisions).filter Attempt.accepted).map Attempt.index ++
    replay.audits.map (·.attemptIndex.toNat)).Perm (List.range decisions.length)

/-- The attempts handed to the builder: an array in memory, no larger than an object can be. -/
structure DecisionArray where
  entries : List JointDecision
  fits : entries.length * sizeofFdJointDecision.toNat < 9223372036854775808

variable {context : FdContext} {world : World} {allocate : Nat → UInt64 → Bool}

theorem World.Sound.allocating (h : world.Sound context) (allocate : Nat → UInt64 → Bool) :
    world.Sound (context.allocating allocate) :=
  ⟨h.config, h.inputs, h.densities, h.liveBound, h.allocation, h.configDigest, h.contentDigest,
    h.stateHash, h.tick, h.valid, h.names⟩

/-- The limits of a build do not depend on the allocator. -/
theorem Buildable.of_allocating {decisions : List JointDecision}
    (h : Buildable (context.allocating allocate) world decisions) :
    Buildable context world decisions :=
  ⟨h.tickZero, h.count, h.clock, h.audits, h.checkpoints, h.total⟩

theorem Buildable.allocating {decisions : List JointDecision}
    (h : Buildable context world decisions) (allocate : Nat → UInt64 → Bool) :
    Buildable (context.allocating allocate) world decisions :=
  ⟨h.tickZero, h.count, h.clock, h.audits, h.checkpoints, h.total⟩

/-- A transcript is what the attempts say. -/
theorem attempts_transcript (hvalid : world.Valid) (index : Nat) (decisions : List JointDecision) :
    (attemptsFrom world index decisions).filterMap Attempt.record =
        (transcript world index decisions).records ∧
      (attemptsFrom world index decisions).filterMap Attempt.audit =
        (transcript world index decisions).audits ∧
      ((attemptsFrom world index decisions).filter Attempt.accepted).map Attempt.index =
        (transcript world index decisions).positions := by
  induction decisions generalizing world index with
  | nil => exact ⟨rfl, rfl, rfl⟩
  | cons decision rest ih =>
      rw [attemptsFrom, fdWorldStep_of_valid hvalid]
      cases h : stepRefusal world decision with
      | some failure =>
          obtain ⟨hrecords, haudits, hpositions⟩ := ih hvalid (index + 1)
          have hmessage := (stepRefusal_auditable h).diagMessage_eq
          rw [transcript_of_refused hvalid h]
          refine ⟨hrecords, ?_, hpositions⟩
          rw [Transcript.reject, auditOf, hmessage, ← haudits]
          rfl
      | none =>
          obtain ⟨hrecords, haudits, hpositions⟩ := ih (valid_stepWorld hvalid) (index + 1)
          have haccepts := (stepRefusal_eq_none_iff hvalid).mp h
          rw [transcript_of_accepted hvalid h]
          refine ⟨?_, haudits, ?_⟩
          · rw [Transcript.accept, ← recordOf_accepted haccepts, ← hrecords]
            rfl
          · rw [Transcript.accept, ← hpositions]
            rfl

/-- A transcript recounts its attempts. -/
theorem recounts_of_transcript (hvalid : world.Valid) {decisions : List JointDecision}
    {replay : Replay} (hbound : decisions.length ≤ 18446744073709551616)
    (hrecords : replay.records = (transcript world 0 decisions).records)
    (haudits : replay.audits = (transcript world 0 decisions).audits) :
    Recounts replay world decisions := by
  obtain ⟨hrecord, haudit, hposition⟩ := attempts_transcript hvalid 0 decisions
  have hpositions := transcript_positions hvalid 0 decisions (by rw [Nat.zero_add]; exact hbound)
  refine ⟨hrecords.trans hrecord.symm, haudits.trans haudit.symm, ?_⟩
  rw [hposition, haudits, List.range_eq_range']
  exact hpositions.2

theorem DecisionArray.length_le (input : DecisionArray) : input.entries.length * 256 ≤ uint64Max := by
  have hfits := input.fits
  change input.entries.length * 136 < 9223372036854775808 at hfits
  change input.entries.length * 256 ≤ 18446744073709551615
  omega

/-- A replay that was built from a created world is opened again, and its records and audits are
exactly what running the attempts gives. -/
theorem build_then_open (hcontext : context.NeverFails) (hcreated : Created context world)
    (input : DecisionArray) {allocate : Nat → UInt64 → Bool} {capacity : Nat} {bytes : List UInt8}
    {s : Ledger} (hbuild : (fdReplayBuild (context.allocating allocate) world input.entries capacity
      s).1 = .ok bytes) (t : Ledger) :
    ∃ replay, (fdReplayOpen context bytes t).1 = .ok replay ∧
      Recounts replay world input.entries := by
  have hsound := hcreated.sound.1
  obtain ⟨hbuildable, rfl⟩ := fdReplayBuild_eq_ok (hsound.allocating allocate) hbuild
  have hbuildable := hbuildable.of_allocating
  have hlength := transcript_length hsound.valid 0 input.entries
  have hmemory : (transcript world 0 input.entries).records.length * 256 ≤ uint64Max :=
    (Nat.mul_le_mul_right 256 (hlength ▸ Nat.le_add_right _ _)).trans input.length_le
  obtain ⟨replay, hopen, hrecords, haudits, -⟩ := fdReplayOpen_replayFile hcontext hsound
    hbuildable hmemory t
  refine ⟨replay, hopen, recounts_of_transcript hsound.valid ?_ hrecords haudits⟩
  have hclock := hbuildable.clock
  omega

/-- A pass and an attempt with an empty header. -/
def sampleInput : DecisionArray where
  entries := [(sampleAt 0).pass, { (sampleAt 0).pass with structSize := 0 }]
  fits := by decide

theorem sampleInput_length : sampleInput.entries.length = 2 := rfl

theorem sample_entries : (transcript (sampleAt 0) 0 sampleInput.entries).records.length +
    (transcript (sampleAt 0) 0 sampleInput.entries).audits.length = 2 :=
  (transcript_length (@sampleAt_sound 0 rfl).valid 0 sampleInput.entries).trans
    sampleInput_length

theorem sampleContext_maxFileBytes : sampleContext.maxFileBytes.toNat = 4194304 := rfl

theorem sample_total {size n m : Nat} (hsize : size ≤ 1000000) (hentries : n + m = 2) :
    8 + (28 + size + (n * 228 + 8) + (m * 328 + 4) + (n / 1024 * (size + 16) + 4)) + 240 + 32 ≤
      4194304 := by
  have hnone : n / 1024 = 0 := Nat.div_eq_of_lt (by omega)
  rw [hnone, Nat.zero_mul]
  omega

theorem sample_buildable : Buildable sampleContext (sampleAt 0) sampleInput.entries where
  tickZero := rfl
  count := by
    rw [sampleInput_length, sampleContext_maxFileBytes]
    decide
  clock := by
    rw [sampleInput_length]
    decide
  audits := (Nat.le_add_left _ _).trans (sample_entries.le.trans (by decide))
  checkpoints := ((Nat.div_le_self _ _).trans (Nat.le_add_right _ _)).trans
    (sample_entries.le.trans (by decide))
  total := by
    rw [replayTotal, sampleContext_maxFileBytes]
    exact sample_total (saveSize_le (@sampleAt_sound 0 rfl).bounded) sample_entries

theorem sample_built (s : Ledger) : ∃ bytes,
    (fdReplayBuild sampleContext (sampleAt 0) sampleInput.entries 4194304 s).1 = .ok bytes :=
  ⟨_, fdReplayBuild_of_buildable sample_buildable (sampleAt_sound rfl) sampleContext_neverFails
    sample_buildable.total s⟩

theorem build_then_open_sample : ∃ bytes replay,
    (fdReplayBuild (sampleContext.allocating fun _ _ => true) (sampleAt 0) sampleInput.entries
        4194304 Ledger.zero).1 = .ok bytes ∧
      (fdReplayOpen sampleContext bytes Ledger.zero).1 = .ok replay ∧
      Recounts replay (sampleAt 0) sampleInput.entries := by
  obtain ⟨bytes, hbuild⟩ := sample_built Ledger.zero
  have hcreated : Created sampleContext (sampleAt 0) :=
    .loaded (sampleAt_loads rfl (by decide) Ledger.zero)
  have hbuild : (fdReplayBuild (sampleContext.allocating fun _ _ => true) (sampleAt 0)
      sampleInput.entries 4194304 Ledger.zero).1 = .ok bytes := hbuild
  obtain ⟨replay, hopen⟩ := build_then_open sampleContext_neverFails hcreated sampleInput hbuild
    Ledger.zero
  exact ⟨bytes, replay, hbuild, hopen⟩

end build

section forgery

variable {context : FdContext} {allocate allocate' : Nat → UInt64 → Bool}
  {bytes built : List UInt8} {replay : Replay} {world : World} {s s' : Ledger}

/-- Two replay files with the same transition and audit payloads. -/
def SameEntries (bytes other : List UInt8) : Prop :=
  ∃ sections parsed sections' parsed',
    fdParseReplaySections bytes = .ok (sections, parsed) ∧
      fdParseReplaySections other = .ok (sections', parsed') ∧
      (sections' 3).payload = (sections 3).payload ∧ (sections' 4).payload = (sections 4).payload

/-- A replay that opens yields its tick-zero world. -/
theorem create_of_open (hcontext : context.NeverFails)
    (hopen : (fdReplayOpen (context.allocating allocate) bytes s).1 = .ok replay) (t : Ledger) :
    ∃ world, (fdReplayCreateWorld context replay t).1 = .ok world := by
  obtain ⟨origin, sections, counts, hopened⟩ := fdReplayOpen_eq_ok hopen
  have hloads : LoadsTo context (sections 2).payload origin := hopened.loads.of_allocating
  rw [← hopened.save] at hloads
  exact ⟨origin, fdWorldLoad_of_loadsTo hcontext hloads t⟩

/-- The file of the transcript has the entries of the file it was taken from. -/
theorem Opened.sameEntries {sections : Sections} {counts : ReplayCounts} {limits : FdContext}
    (h : Opened context bytes replay world sections counts)
    (hbuildable : Buildable limits world replay.decisions) :
    SameEntries bytes (replayFile world (transcript world 0 replay.decisions).records
      (transcript world 0 replay.decisions).audits) := by
  obtain ⟨parsed, hsections, -⟩ := h.manifest
  obtain ⟨-, -, hparse⟩ := openSections_eq_ok hsections
  have htranscribed := h.transcribed
  have hmessages := transcript_messages h.loads.sound.1.valid 0 replay.decisions
  have hmax := Nat.le_of_lt_succ limits.maxFileBytes.toNat_lt
  have hbuilt : fdParseReplaySections (replayFile world _ _) = _ :=
    fdParseReplaySections_replayFile hmessages (hbuildable.total.trans hmax)
  refine ⟨sections, parsed, _, _, hparse, hbuilt, ?_, ?_⟩
  · rw [replayTable_records, htranscribed.records, htranscribed.recordPayload]
  · rw [replayTable_audits, htranscribed.audits, htranscribed.auditPayload]

/-- What an accepted file says in its transition and audit sections is what building its own
attempts says: a build gives the same bytes there, and only a digest collision inside the file can
keep one from succeeding. -/
theorem no_forged_entries
    (hopen : (fdReplayOpen (context.allocating allocate) bytes s).1 = .ok replay)
    (hcreate : (fdReplayCreateWorld (context.allocating allocate') replay s').1 = .ok world) :
    (∀ allocate'' capacity t built, (fdReplayBuild (context.allocating allocate'') world
        replay.decisions capacity t).1 = .ok built → SameEntries bytes built) ∧
      (context.NeverFails →
        (∃ size, ∀ capacity, size ≤ capacity → ∀ t, ∃ built,
          (fdReplayBuild context world replay.decisions capacity t).1 = .ok built ∧
            built.length = size ∧ SameEntries bytes built) ∨
        ∃ k ≤ replay.records.length, CollidingSave context bytes (world.after k)) := by
  obtain ⟨origin, sections, counts, hopened⟩ := fdReplayOpen_eq_ok hopen
  have hworld : LoadsTo context (sections 2).payload world := by
    rw [← hopened.save]
    exact (fdWorldLoad_loadsTo hcreate).of_allocating
  obtain rfl : origin = world := hopened.loads.of_allocating.unique hworld
  have hsound := hworld.sound.1
  constructor
  · intro allocate'' capacity t built hbuild
    obtain ⟨hbuildable, rfl⟩ := fdReplayBuild_eq_ok (hsound.allocating allocate'') hbuild
    exact hopened.sameEntries hbuildable
  · intro hcontext
    rcases hopened.buildable with hbuildable | ⟨k, hk, saved, v, hinside, hloads, hcollides⟩
    · left
      have hmessages := transcript_messages hsound.valid 0 replay.decisions
      exact ⟨_, fun capacity hcapacity t => ⟨_,
        fdReplayBuild_of_buildable hbuildable.of_allocating hsound hcontext hcapacity t,
        replayFile_length hmessages, hopened.sameEntries hbuildable⟩⟩
    · exact .inr ⟨k, hk, saved, v, hinside, hloads.of_allocating, hcollides⟩

/-- The sample opened, with its tick-zero world. -/
theorem sample_opened : ∃ bytes replay world,
    (fdReplayOpen (sampleContext.allocating fun _ _ => true) bytes Ledger.zero).1 = .ok replay ∧
      (fdReplayCreateWorld (sampleContext.allocating fun _ _ => true) replay Ledger.zero).1 =
        .ok world := by
  have hsound : (sampleAt 0).Sound sampleContext := sampleAt_sound rfl
  have hmemory : (transcript (sampleAt 0) 0 sampleInput.entries).records.length * 256 ≤
      uint64Max :=
    (Nat.mul_le_mul_right 256 ((Nat.le_add_right _ _).trans sample_entries.le)).trans (by decide)
  obtain ⟨replay, hopen, -⟩ := fdReplayOpen_replayFile sampleContext_neverFails hsound
    sample_buildable hmemory Ledger.zero
  have hopen : (fdReplayOpen (sampleContext.allocating fun _ _ => true) _ Ledger.zero).1 =
      .ok replay := hopen
  obtain ⟨world, hcreate⟩ := create_of_open sampleContext_neverFails hopen Ledger.zero
  exact ⟨_, replay, world, hopen, hcreate⟩

theorem no_forged_entries_sample : ∃ bytes replay world,
    (fdReplayOpen (sampleContext.allocating fun _ _ => true) bytes Ledger.zero).1 = .ok replay ∧
      (∀ allocate capacity t built, (fdReplayBuild (sampleContext.allocating allocate) world
        replay.decisions capacity t).1 = .ok built → SameEntries bytes built) ∧
      (sampleContext.NeverFails →
        (∃ size, ∀ capacity, size ≤ capacity → ∀ t, ∃ built,
          (fdReplayBuild sampleContext world replay.decisions capacity t).1 = .ok built ∧
            built.length = size ∧ SameEntries bytes built) ∨
        ∃ k ≤ replay.records.length, CollidingSave sampleContext bytes (world.after k)) := by
  obtain ⟨bytes, replay, world, hopen, hcreate⟩ := sample_opened
  exact ⟨bytes, replay, world, hopen, no_forged_entries hopen hcreate⟩

end forgery

section advance

variable {context : FdContext} {allocate allocate' : Nat → UInt64 → Bool} {bytes : List UInt8}
  {replay : Replay} {world : World} {s s' : Ledger}

/-- A request to advance, with a status for the answer that has the header the call asks for. -/
structure AdvanceCall where
  decisions : UInt64
  out : ReplayStatus
  wellFormed : fdOutputStructValid out.header sizeofFdReplayStatus = true

/-- One call on what the calls before it have left. -/
def Advanced.advance (context : FdContext) (state : Advanced) (call : AdvanceCall) :
    StateM Ledger Advanced :=
  fdReplayAdvance context state.replay state.world call.decisions call.out true

/-- Calls one after the other, whatever they return. -/
def Advanced.advances (context : FdContext) (state : Advanced) (calls : List AdvanceCall) :
    StateM Ledger Advanced := calls.foldlM (Advanced.advance context) state

/-- The replay stands at a cursor, and the world is what the records before it make. -/
structure Advanced.At (state : Advanced) (replay : Replay) (world : World) (cursor : Nat) :
    Prop where
  inside : cursor ≤ replay.records.length
  steps : forEach (replay.records.take cursor) stepRecord world = .ok state.world
  position : state.replay = replay.atCursor cursor
  result : state.result = .ok ()

/-- The same position and the same news; how far the last call went is its own. -/
structure Advanced.Agrees (a b : Advanced) : Prop where
  replay : a.replay = b.replay
  world : a.world = b.world
  result : a.result = b.result
  stateSha256 : a.out.stateSha256 = b.out.stateSha256
  complete : a.out.complete = b.out.complete

/-- Two counts as one, as far as 64 bits go. -/
def saturatedSum (n m : UInt64) : UInt64 := UInt64.ofNat (min (n.toNat + m.toNat) uint64Max)

theorem saturatedSum_toNat (n m : UInt64) :
    (saturatedSum n m).toNat = min (n.toNat + m.toNat) 18446744073709551615 := by
  have hle : min (n.toNat + m.toNat) 18446744073709551615 ≤ 18446744073709551615 :=
    Nat.min_le_right _ _
  change (UInt64.ofNat (min (n.toNat + m.toNat) 18446744073709551615)).toNat = _
  rw [UInt64.toNat_ofNat', Nat.mod_eq_of_lt (by omega)]

theorem Playable.at_iff (h : Playable context replay world) {state : Advanced} {cursor : Nat}
    (hcursor : cursor ≤ replay.records.length) :
    state.At replay world cursor ↔ state.replay = replay.atCursor cursor ∧
      state.world = world.after cursor ∧ state.result = .ok () := by
  obtain ⟨last, hrun⟩ := h.run
  have hsteps := (hrun.take hcursor).steps h.sound.valid
  constructor
  · intro hat
    exact ⟨hat.position, Except.ok.inj (hat.steps.symm.trans hsteps), hat.result⟩
  · rintro ⟨hreplay, hworld, hresult⟩
    exact ⟨hcursor, hworld ▸ hsteps, hreplay, hresult⟩

theorem Replay.nextCursor_le (replay : Replay) (cursor decisions : Nat) :
    replay.nextCursor cursor decisions ≤ replay.records.length := Nat.min_le_right _ _

theorem Replay.nextCursor_add (replay : Replay) (cursor n m : Nat) :
    replay.nextCursor (replay.nextCursor cursor n) m = replay.nextCursor cursor (n + m) := by
  unfold Replay.nextCursor
  omega

/-- The records that the calls ask for together. -/
def requestedRecords (calls : List AdvanceCall) : Nat :=
  (calls.map fun call => call.decisions.toNat).sum

/-- What a call does at a cursor. -/
theorem Playable.advance_at (h : Playable context replay world) (hcontext : context.NeverFails)
    {state : Advanced} {cursor : Nat} (hat : state.At replay world cursor) (call : AdvanceCall)
    (t : Ledger) : (state.advance context call t).1 =
      replay.advancedTo world (replay.nextCursor cursor call.decisions.toNat)
        (replay.nextCursor cursor call.decisions.toNat - cursor) := by
  obtain ⟨hreplay, hworld, -⟩ := (h.at_iff hat.inside).mp hat
  rw [Advanced.advance, hreplay, hworld]
  exact h.advance hcontext hat.inside call.decisions call.wellFormed t

theorem Playable.at_advancedTo (h : Playable context replay world) {cursor : Nat}
    (hcursor : cursor ≤ replay.records.length) (advanced : Nat) :
    (replay.advancedTo world cursor advanced).At replay world cursor :=
  (h.at_iff hcursor).mpr ⟨rfl, rfl, rfl⟩

/-- Any calls succeed, the cursor goes as far as they ask for and there are records, and the world
follows it. -/
theorem Playable.advances_at (h : Playable context replay world) (hcontext : context.NeverFails)
    (calls : List AdvanceCall) {state : Advanced} {cursor : Nat}
    (hat : state.At replay world cursor) (t : Ledger) :
    (state.advances context calls t).1.At replay world
      (replay.nextCursor cursor (requestedRecords calls)) := by
  induction calls generalizing state cursor t with
  | nil =>
      have hstay : replay.nextCursor cursor (requestedRecords []) = cursor :=
        Nat.min_eq_left hat.inside
      rw [hstay]
      exact hat
  | cons call rest ih =>
      have hnext : (state.advance context call t).1 = _ := h.advance_at hcontext hat call t
      have hlater : (state.advance context call t).1.At replay world _ :=
        hnext ▸ h.at_advancedTo (replay.nextCursor_le _ _) _
      have hrest := ih hlater (state.advance context call t).2
      rw [replay.nextCursor_add] at hrest
      rw [Advanced.advances, List.foldlM_cons]
      exact hrest

/-- Two calls in a row do what one for the saturated sum does. -/
theorem Playable.advance_twice (h : Playable context replay world) (hcontext : context.NeverFails)
    {state : Advanced} {cursor : Nat} (hat : state.At replay world cursor)
    (first second once : AdvanceCall)
    (honce : once.decisions = saturatedSum first.decisions second.decisions) (t t' : Ledger) :
    (state.advances context [first, second] t).1.Agrees (state.advance context once t').1 := by
  have hbound := h.bound
  have hcursor := hat.inside
  have hone : (state.advance context first t).1 = _ := h.advance_at hcontext hat first t
  have hfirst : (state.advance context first t).1.At replay world _ :=
    hone ▸ h.at_advancedTo (replay.nextCursor_le _ _) _
  have htwo := h.advance_at hcontext hfirst second (state.advance context first t).2
  have hsum : replay.nextCursor (replay.nextCursor cursor first.decisions.toNat)
      second.decisions.toNat = replay.nextCursor cursor once.decisions.toNat := by
    rw [replay.nextCursor_add, honce, saturatedSum_toNat]
    unfold Replay.nextCursor
    omega
  have hboth : (state.advances context [first, second] t).1 = ((state.advance context first t).1.advance
      context second (state.advance context first t).2).1 := rfl
  rw [hboth, htwo, h.advance_at hcontext hat once t', hsum]
  exact ⟨rfl, rfl, rfl, rfl, rfl⟩

/-- A call that fails gives back what it was given. -/
theorem fdReplayAdvance_error {decisions : UInt64} {out : ReplayStatus} {sameContext : Bool}
    {t : Ledger} {failure : Fail}
    (h : (fdReplayAdvance context replay world decisions out sameContext t).1.result =
      .error failure) :
    (fdReplayAdvance context replay world decisions out sameContext t).1 =
      ⟨replay, world, out, .error failure⟩ := by
  unfold fdReplayAdvance at h ⊢
  cases hchecks : advanceChecks replay world out sameContext with
  | error failure' =>
      simp only [hchecks, run_pure, Except.error.injEq] at h ⊢
      rw [h]
  | ok _ =>
      simp only [hchecks, run_ite] at h ⊢
      split at h
      · cases h
      · next hmore =>
          rw [if_neg hmore]
          simp only [run_bind] at h ⊢
          cases hclone : (fdWorldCloneViaSave context world t).1 with
          | error failure' =>
              simp only [hclone, run_pure, Except.error.injEq] at h ⊢
              rw [h]
          | ok candidate =>
              simp only [hclone, run_bind] at h ⊢
              cases hplayed : forEach ((replay.records.zipIdx.drop replay.cursor).take
                  (replay.stride decisions)) playRecord candidate with
              | error failure' =>
                  simp only [hplayed, run_pure, Except.error.injEq] at h ⊢
                  rw [h]
              | ok last =>
                  simp only [hplayed] at h
                  cases h

/-- Advancing a replay that was opened, on a world made from it: any calls succeed, move the cursor
as far as they ask for and there are records, and step the world through the records before it; two
calls are one for their sum; and whatever fails, on whatever world, changes nothing. -/
theorem advance_total_atomic
    (hopen : (fdReplayOpen (context.allocating allocate) bytes s).1 = .ok replay)
    (hcreate : (fdReplayCreateWorld (context.allocating allocate') replay s').1 = .ok world) :
    (context.NeverFails → ∀ out calls t,
      ((Advanced.mk replay world out (.ok ())).advances context calls t).1.At replay world
        (min (requestedRecords calls) replay.records.length) ∧
      ∀ first second once : AdvanceCall,
        once.decisions = saturatedSum first.decisions second.decisions → ∀ t' t'',
        let state := ((Advanced.mk replay world out (.ok ())).advances context calls t).1
        (state.advances context [first, second] t').1.Agrees (state.advance context once t'').1) ∧
      ∀ failing replay world decisions out sameContext t failure,
        (fdReplayAdvance failing replay world decisions out sameContext t).1.result =
            .error failure →
        (fdReplayAdvance failing replay world decisions out sameContext t).1 =
          ⟨replay, world, out, .error failure⟩ := by
  obtain ⟨hplayable, hcursor⟩ := playable_of_open hopen hcreate
  refine ⟨fun hcontext out calls t => ?_, fun _ _ _ _ _ _ _ _ => fdReplayAdvance_error⟩
  have hstart : (Advanced.mk replay world out (.ok ())).At replay world 0 := by
    refine (hplayable.at_iff (Nat.zero_le _)).mpr ⟨?_, rfl, rfl⟩
    rw [Replay.atCursor, ← hcursor]
  have hlater := hplayable.advances_at hcontext calls hstart t
  rw [Replay.nextCursor, Nat.zero_add] at hlater
  refine ⟨hlater, fun first second once honce t' t'' => ?_⟩
  exact hplayable.advance_twice hcontext hlater first second once honce t' t''

theorem advance_total_atomic_sample : ∃ replay world,
    (∀ out calls t,
      ((Advanced.mk replay world out (.ok ())).advances sampleContext calls t).1.At replay world
        (min (requestedRecords calls) replay.records.length) ∧
      ∀ first second once : AdvanceCall,
        once.decisions = saturatedSum first.decisions second.decisions → ∀ t' t'',
        let state := ((Advanced.mk replay world out (.ok ())).advances sampleContext calls t).1
        (state.advances sampleContext [first, second] t').1.Agrees
          (state.advance sampleContext once t'').1) ∧
      ∀ failing replay world decisions out sameContext t failure,
        (fdReplayAdvance failing replay world decisions out sameContext t).1.result =
            .error failure →
        (fdReplayAdvance failing replay world decisions out sameContext t).1 =
          ⟨replay, world, out, .error failure⟩ := by
  obtain ⟨bytes, replay, world, hopen, hcreate⟩ := sample_opened
  obtain ⟨htotal, hatomic⟩ := advance_total_atomic hopen hcreate
  exact ⟨replay, world, htotal sampleContext_neverFails, hatomic⟩

end advance

end FrontierDirectorate
