import Mathlib
import FrontierDirectorate.Core.AdvanceLaws
import FrontierDirectorate.Core.ReplayOpenLaws

/-!
# The worlds of a replay

The tick-zero world of a replay can be cloned at every cursor, and playing
records from it is stepping it.
-/
namespace FrontierDirectorate
open Accounting ByteCodec Checks

section size

variable {context : FdContext} {known : UInt16} {frames : List Frame} {sections : Sections} {count : Nat}
  {header : SaveHeader} {entities : List.Vector Entity 6} {bytes : List UInt8} {world : World}

/-- The known frames of a file, in their order, carry exactly the known tags. -/
theorem SectionFile.known_tags (h : SectionFile known frames) :
    (frames.filter fun f => f.tag ≤ known).map (·.tag.toNat) = List.range' 1 known.toNat := by
  have hall : (frames.map fun f => f.tag.toNat).Pairwise (· < ·) := by
    have hsorted := h.loopFrames.sorted
    rw [List.pairwise_map] at hsorted ⊢
    exact hsorted.imp fun hlt => UInt16.lt_iff_toNat_lt.mp hlt
  have hsorted : ((frames.filter fun f => f.tag ≤ known).map (·.tag.toNat)).Pairwise (· < ·) :=
    hall.sublist (List.filter_sublist.map fun f : Frame => f.tag.toNat)
  have hmem : ∀ tag, tag ∈ (frames.filter fun f => f.tag ≤ known).map (·.tag.toNat) ↔
      tag ∈ List.range' 1 known.toNat := by
    have hmandatory : ∀ tag ∈ List.range' 1 known.toNat,
        tag ∈ (frames.filter fun f => f.tag ≤ known).map (·.tag.toNat) := by
      rw [mandatory_range known]
      intro tag hpos hle
      obtain ⟨f, hf, rfl⟩ := h.mandatory tag hpos hle
      exact List.mem_map.mpr ⟨f, List.mem_filter.mpr ⟨hf, decide_eq_true hle⟩, rfl⟩
    intro tag
    constructor
    · intro htag
      obtain ⟨f, hf, rfl⟩ := List.mem_map.mp htag
      obtain ⟨hf, hle⟩ := List.mem_filter.mp hf
      have hpos := UInt16.lt_iff_toNat_lt.mp (h.loopFrames.tag_pos hf)
      have hle := UInt16.le_iff_toNat_le.mp (of_decide_eq_true hle)
      change 0 < f.tag.toNat at hpos
      rw [List.mem_range'_1]
      omega
    · exact hmandatory tag
  have hrange : (List.range' 1 known.toNat).Pairwise (· < ·) := List.pairwise_lt_range'
  have hperm := (List.perm_ext_iff_of_nodup (hsorted.imp ne_of_lt) (hrange.imp ne_of_lt)).mpr hmem
  exact hperm.eq_of_pairwise (fun a b _ _ hab hba => absurd hab (Nat.lt_asymm hba)) hsorted hrange

/-- The known payloads fit into the file. -/
theorem SectionFile.known_lengths_le (h : SectionFile known frames) :
    ((List.range' 1 known.toNat).map fun tag => 48 + (tableOf known frames tag).payload.length).sum ≤
      (frames.flatMap Frame.bytes).length := by
  have hentry : ((frames.filter fun f => f.tag ≤ known).map fun f =>
      48 + (tableOf known frames f.tag.toNat).payload.length) =
      (frames.filter fun f => f.tag ≤ known).map fun f => f.bytes.length := by
    refine List.map_congr_left fun f hf => ?_
    obtain ⟨hf, hle⟩ := List.mem_filter.mp hf
    rw [h.loopFrames.entry hf (of_decide_eq_true hle), f.bytes_length]
  rw [← h.known_tags, List.map_map, List.length_flatMap]
  exact (congrArg List.sum hentry).le.trans
    ((List.filter_sublist.map fun f : Frame => f.bytes.length).sum_le_sum fun _ _ => Nat.zero_le _)

theorem saveSize_eq_sum (world : World) : saveSize world =
    40 + (knownTags.map fun tag => 48 + (savePayload world tag.toNat).length).sum := by
  simp only [knownTags, List.map_cons, List.map_nil, List.sum_cons, List.sum_nil, savePayload,
    UInt16.toNat_ofNat, Nat.reducePow, Nat.reduceMod,
    manifestPayload_length, versionPayload_length, configPayload_length,
    contentPayload_length, seedPayload_length, timePayload_length, mapPayload_length,
    entityPayload_length, counterPayload_length, pendingPayload_length, stateSha256_length, saveSize]
  omega

/-- Saving a loaded world writes no payload that is longer than the one it was read from. -/
theorem savePayload_length_le_decoded (h : DecodedHeader context sections count header)
    (hbody : DecodedBody header sections entities) : ∀ tag ∈ knownTags,
      (savePayload (fdWorldComputeHash (loadedWorld header sections entities)) tag.toNat).length ≤
        (sections tag.toNat).payload.length := by
  intro tag htag
  simp only [knownTags, List.mem_cons, List.not_mem_nil, or_false] at htag
  rcases htag with rfl | rfl | rfl | rfl | rfl | rfl | rfl | rfl | rfl | rfl | rfl
  · exact manifestPayload_length.trans_le h.manifest.1
  · exact (versionPayload_length _).trans_le h.versions.1
  · exact (congrArg List.length (configPayload_eq h rfl h.configDigest)).le
  · exact (congrArg List.length (contentPayload_eq h h.copy_packs)).le
  · exact (congrArg List.length (seedPayload_eq h rfl)).le
  · exact (congrArg List.length (timePayload_eq h rfl)).le
  · exact (congrArg List.length (mapPayload_eq hbody)).le
  · exact (congrArg List.length (entityPayload_eq hbody)).le
  · exact (congrArg List.length (counterPayload_eq hbody)).le
  · exact (congrArg List.length (pendingPayload_eq hbody)).le
  · exact (congrArg List.length hbody.state).le

/-- A world that was loaded can be saved again within the file limit. -/
theorem LoadsTo.saveSize_le (h : LoadsTo context bytes world) :
    saveSize world ≤ bytes.length ∧ bytes.length ≤ context.maxFileBytes.toNat := by
  obtain ⟨sections, count, header, hsections, hheader, hbody⟩ := h
  obtain ⟨entities, hdecoded, rfl⟩ := decodeBody_eq_ok_iff.mp hbody
  obtain ⟨hmax, hmin, -, -, hparse⟩ := loadSections_eq_ok hsections
  obtain ⟨frames, -, hfile, hframes, hresult⟩ := fdParseSaveSections_eq_ok.mp hparse
  cases hresult
  have hlength := congrArg List.length hframes
  rw [slice_length] at hlength
  have hpayloads := savePayload_length_le_decoded (decodeHeader_eq_ok_iff.mp hheader) hdecoded
  have hsum := List.sum_le_sum fun tag htag => Nat.add_le_add_left (hpayloads tag htag) 48
  have hrange : List.range' 1 (11 : UInt16).toNat = knownTags.map UInt16.toNat := by decide
  have hknown := hfile.known_lengths_le
  rw [hrange, List.map_map] at hknown
  refine ⟨?_, hmax⟩
  rw [saveSize_eq_sum]
  exact (Nat.add_le_add_left (hsum.trans hknown) 40).trans (by omega)

end size

section iterates

variable {context : FdContext} {world : World}

/-- The world after a number of steps. -/
abbrev World.after (world : World) (steps : Nat) : World := stepWorld^[steps] world

theorem World.after_succ (world : World) (steps : Nat) :
    world.after (steps + 1) = stepWorld (world.after steps) :=
  Function.iterate_succ_apply' stepWorld steps world

theorem World.after_add (world : World) (m n : Nat) :
    world.after (m + n) = (world.after m).after n := by
  rw [World.after, Nat.add_comm, Function.iterate_add_apply]

theorem saveSize_after (world : World) (steps : Nat) : saveSize (world.after steps) = saveSize world := by
  induction steps with
  | zero => rfl
  | succ steps ih =>
      rw [World.after_succ, ← ih]
      rfl

/-- The commit of an advance: what a step changes is its clock and its digest. -/
theorem World.after_commit (world : World) (steps : Nat) :
    { world with
      tick := (world.after steps).tick
      stateSha256 := (world.after steps).stateSha256 } = world.after steps := by
  induction steps with
  | zero => rfl
  | succ steps ih =>
      rw [World.after_succ]
      exact congrArg (fun v : World => { v with
        tick := (stepWorld (world.after steps)).tick
        stateSha256 := (stepWorld (world.after steps)).stateSha256 }) ih

theorem stepWorld_reloaded (world : World) :
    stepWorld world.reloaded = (stepWorld world).reloaded :=
  world.reloaded_atTick (world.tick + fdOperationalTicks)

end iterates

section runs

variable {context : FdContext} {world last : World} {records : List ReplayRecord}

/-- A run cut at a record. -/
theorem PassRun.drop (h : PassRun world records last) {n : Nat} (hn : n ≤ records.length) :
    PassRun (world.after n) (records.drop n) last := by
  induction h generalizing n with
  | nil world =>
      obtain rfl : n = 0 := Nat.le_zero.mp hn
      exact .nil world
  | @cons world last records clock rest ih =>
      cases n with
      | zero => exact .cons clock rest
      | succ n => exact ih (Nat.le_of_succ_le_succ hn)

theorem PassRun.take (h : PassRun world records last) {n : Nat} (hn : n ≤ records.length) :
    PassRun world (records.take n) (world.after n) := by
  induction h generalizing n with
  | nil world =>
      obtain rfl : n = 0 := Nat.le_zero.mp hn
      exact .nil world
  | @cons world last records clock rest ih =>
      cases n with
      | zero => exact .nil world
      | succ n => exact .cons clock (ih (Nat.le_of_succ_le_succ hn))

/-- One record given to the step of the core, which must accept it. -/
def stepRecord (world : World) (record : ReplayRecord) : Except Fail World :=
  match fdWorldStep world record.decision stepOut with
  | (_, .error failure) => .error failure
  | (world, .ok _) => .ok world

/-- The pass of a valid world is accepted while its clock has room. -/
theorem pass_stepAccepts (hvalid : world.Valid)
    (hclock : world.tick ≤ UInt64.ofNat uint64Max - fdOperationalTicks) :
    StepAccepts world world.pass := by
  refine ⟨?_, hclock, hvalid⟩
  constructor <;> simp [World.pass, fdInputStructValid, fdOutputStructValid, JointDecision.header,
    Action.header, -List.Vector.replicate_succ]

/-- The records of a run are accepted one after the other. -/
theorem PassRun.steps (h : PassRun world records last) (hvalid : world.Valid) :
    forEach records stepRecord world = .ok last := by
  induction h with
  | nil world => rfl
  | @cons world last records clock rest ih =>
      have hstep : stepRecord world world.passRecord = .ok (stepWorld world) := by
        have hpass : world.passRecord.decision = world.pass := rfl
        rw [stepRecord, hpass, fdWorldStep_accepted (by decide) (pass_stepAccepts hvalid clock)]
      rw [forEach_cons, hstep, ok_bind, ih (valid_stepWorld hvalid)]

/-- A record played on a reloaded world. -/
theorem playRecord_reloaded (hvalid : world.Valid)
    (hclock : world.tick ≤ UInt64.ofNat uint64Max - fdOperationalTicks) (index : Nat) :
    playRecord world.reloaded (world.passRecord, index) = .ok (stepWorld world).reloaded := by
  have hreloaded : world.reloaded.Valid :=
    SameMap.valid_of_valid (v := world) ⟨rfl, rfl, rfl, rfl, rfl⟩ rfl rfl rfl hvalid
  have hpass : world.passRecord.decision = world.reloaded.pass := rfl
  have hstep : fdWorldStep world.reloaded world.reloaded.pass stepOut = _ :=
    fdWorldStep_accepted (by decide) (pass_stepAccepts hreloaded hclock)
  rw [playRecord, hpass, hstep]
  simp only
  rw [failIf_bind_of_not, stepWorld_reloaded]
  rw [stepWorld_reloaded, not_or, not_not, not_not]
  exact ⟨rfl, rfl⟩

/-- The records of a run played on a reloaded world. -/
theorem PassRun.play (h : PassRun world records last) (hvalid : world.Valid)
    {entries : List (ReplayRecord × Nat)} (hentries : entries.map Prod.fst = records) :
    forEach entries playRecord world.reloaded = .ok last.reloaded := by
  induction h generalizing entries with
  | nil world =>
      rw [List.map_eq_nil_iff.mp hentries]
      rfl
  | @cons world last records clock rest ih =>
      obtain ⟨⟨record, index⟩, later, rfl, rfl, hlater⟩ := List.map_eq_cons_iff.mp hentries
      rw [forEach_cons]
      have hplay : playRecord world.reloaded (world.passRecord, index) =
          .ok (stepWorld world).reloaded := playRecord_reloaded hvalid clock index
      rw [hplay, ok_bind, ih (valid_stepWorld hvalid) hlater]

end runs

section advance

variable {context : FdContext} {replay : Replay} {world last : World} {records : List ReplayRecord}

theorem PassRun.sound (h : PassRun world records last) (hsound : world.Sound context) :
    last.Sound context := by
  induction h with
  | nil world => exact hsound
  | cons clock rest ih => exact ih (Sound.stepWorld hsound clock)

/-- The record at a position, and the room its step had. -/
theorem PassRun.record (h : PassRun world records last) {n : Nat} (hn : n < records.length) :
    records[n]? = some (world.after n).passRecord ∧
      (world.after n).tick ≤ UInt64.ofNat uint64Max - fdOperationalTicks := by
  induction h generalizing n with
  | nil world => exact absurd hn (Nat.not_lt_zero n)
  | @cons world last records clock rest ih =>
      cases n with
      | zero => exact ⟨rfl, clock⟩
      | succ n => exact ih (Nat.lt_of_succ_lt_succ hn)

/-- A replay with its tick-zero world, ready to be advanced in the context. -/
structure Playable (context : FdContext) (replay : Replay) (world : World) : Prop where
  sound : world.Sound context
  fits : saveSize world ≤ context.maxFileBytes.toNat
  tickZero : world.tick = 0
  hash : replay.tickZeroHash = world.stateSha256
  bound : replay.records.length ≤ 18446744073709551615
  run : ∃ last, PassRun world replay.records last

/-- Whether a file loads to a world does not depend on the allocator. -/
theorem LoadsTo.of_allocating {allocate : Nat → UInt64 → Bool} {bytes : List UInt8}
    (h : LoadsTo (context.allocating allocate) bytes world) : LoadsTo context bytes world := h

/-- What a file opens to does not depend on the allocator either. -/
theorem Opened.same {allocate allocate' : Nat → UInt64 → Bool} {bytes : List UInt8} {replay replay' : Replay}
    {world world' : World} {sections sections' : Sections} {counts counts' : ReplayCounts}
    (h : Opened (context.allocating allocate) bytes replay world sections counts)
    (h' : Opened (context.allocating allocate') bytes replay' world' sections' counts') :
    replay.records = replay'.records ∧ replay.audits = replay'.audits ∧
      replay.tickZeroHash = replay'.tickZeroHash := by
  obtain ⟨parsed, hsections, hmanifest⟩ := h.manifest
  obtain ⟨parsed', hsections', hmanifest'⟩ := h'.manifest
  have hsame : Except.ok (sections, parsed) = Except.ok (sections', parsed') :=
    hsections.symm.trans hsections'
  cases hsame
  obtain rfl := Except.ok.inj (hmanifest.symm.trans hmanifest')
  obtain rfl := h.loads.of_allocating.unique h'.loads.of_allocating
  exact ⟨Except.ok.inj (h.records.symm.trans h'.records),
    Except.ok.inj (h.audits.symm.trans h'.audits), h.hash.trans h'.hash.symm⟩

/-- An opened replay and a world made from it. -/
theorem playable_of_open {allocate allocate' : Nat → UInt64 → Bool} {bytes : List UInt8}
    {s s' : Ledger} (hopen : (fdReplayOpen (context.allocating allocate) bytes s).1 = .ok replay)
    (hcreate : (fdReplayCreateWorld (context.allocating allocate') replay s').1 = .ok world) :
    Playable context replay world ∧ replay.cursor = 0 := by
  obtain ⟨origin, sections, counts, hopened⟩ := fdReplayOpen_eq_ok hopen
  have hloads : LoadsTo context (sections 2).payload origin := hopened.loads.of_allocating
  have hworld : LoadsTo context (sections 2).payload world := by
    rw [← hopened.save]
    exact (fdWorldLoad_loadsTo hcreate).of_allocating
  obtain rfl : origin = world := hloads.unique hworld
  have htranscribed := hopened.transcribed
  have hrun := transcript_passRun hloads.sound.1.valid 0 replay.decisions
  rw [htranscribed.records] at hrun
  have hbound := htranscribed.bound
  exact ⟨⟨hloads.sound.1, hloads.saveSize_le.1.trans hloads.saveSize_le.2, hopened.tickZero,
    hopened.hash, by omega, _, hrun⟩, hopened.cursor⟩

/-- The replay with its cursor set. -/
def Replay.atCursor (replay : Replay) (cursor : Nat) : Replay := { replay with cursor := cursor }

/-- At a cursor the replay expects the world that has been stepped that often. -/
theorem Playable.expected (h : Playable context replay world) {cursor : Nat}
    (hcursor : cursor ≤ replay.records.length) : (replay.atCursor cursor).expected =
      ((world.after cursor).tick, (world.after cursor).stateSha256) := by
  obtain ⟨last, hrun⟩ := h.run
  unfold Replay.expected Replay.atCursor
  rcases hcursor.lt_or_eq with hlt | rfl
  · simp only [(hrun.record hlt).1]
    rfl
  · have hend : replay.records[replay.records.length]? = none :=
      List.getElem?_eq_none (Nat.le_refl _)
    simp only [hend, List.getLast?_eq_getElem?]
    cases hlength : replay.records.length with
    | zero =>
        have hempty : replay.records[0 - 1]? = none := List.getElem?_eq_none (by omega)
        simp only [hempty]
        exact Prod.ext h.tickZero.symm h.hash
    | succ n =>
        have hrecord := (hrun.record (show n < replay.records.length by omega)).1
        rw [Nat.add_sub_cancel]
        simp only [hrecord, World.after_succ]
        rfl

/-- What the caller has when a call has advanced to `cursor`, by `advanced` records. -/
def Replay.advancedTo (replay : Replay) (world : World) (cursor advanced : Nat) : Advanced where
  replay := replay.atCursor cursor
  world := world.after cursor
  out := {
    structSize := sizeofFdReplayStatus
    abiVersion := fdAbiVersion
    cursor := cursor
    totalDecisions := replay.records.length
    decisionsAdvanced := advanced
    complete := if cursor = replay.records.length then 1 else 0
    reserved := 0
    stateSha256 := (world.after cursor).stateSha256 }
  result := .ok ()

/-- The cursor after a call for `decisions` records. -/
def Replay.nextCursor (replay : Replay) (cursor decisions : Nat) : Nat :=
  min (cursor + decisions) replay.records.length

/-- A call at a cursor, on the world that belongs there. -/
theorem Playable.advance (h : Playable context replay world) (hcontext : context.NeverFails)
    {cursor : Nat} (hcursor : cursor ≤ replay.records.length) (decisions : UInt64)
    {out : ReplayStatus} (hout : fdOutputStructValid out.header sizeofFdReplayStatus = true)
    (s : Ledger) :
    (fdReplayAdvance context (replay.atCursor cursor) (world.after cursor) decisions out true s).1 =
      replay.advancedTo world (replay.nextCursor cursor decisions.toNat)
        (replay.nextCursor cursor decisions.toNat - cursor) := by
  obtain ⟨last, hrun⟩ := h.run
  have hchecks : advanceChecks (replay.atCursor cursor) (world.after cursor) out true = .ok () := by
    rw [advanceChecks, failIf_bind_of_not (not_not.mpr hout), failIf_bind_of_not (not_not.mpr rfl),
      h.expected hcursor]
    exact failIf_false (by simp)
  have hnext : replay.nextCursor cursor decisions.toNat =
      cursor + (replay.atCursor cursor).stride decisions := by
    change min (cursor + decisions.toNat) replay.records.length =
      cursor + min decisions.toNat (replay.records.length - cursor)
    omega
  rw [hnext, Nat.add_sub_cancel_left]
  have hstride : cursor + (replay.atCursor cursor).stride decisions ≤ replay.records.length := by
    rw [← hnext]
    exact Nat.min_le_right _ _
  unfold fdReplayAdvance
  rw [hchecks]
  simp only
  by_cases hzero : (replay.atCursor cursor).stride decisions = 0
  · simp only [hzero, if_true, run_pure]
    rfl
  · simp only [if_neg hzero, run_bind]
    have hlt : cursor < replay.records.length := by omega
    have hsound := (hrun.take hcursor).sound h.sound
    have hclone := clone_of_neverFails hcontext hsound
      (by rw [saveSize_after]; exact h.fits) (hrun.record hlt).2 s
    have hplay : forEach (((replay.atCursor cursor).records.zipIdx.drop
        (replay.atCursor cursor).cursor).take ((replay.atCursor cursor).stride decisions))
        playRecord (world.after cursor).reloaded =
          .ok (world.after (cursor + (replay.atCursor cursor).stride decisions)).reloaded := by
      have htake : (replay.atCursor cursor).stride decisions ≤ (replay.records.drop cursor).length := by
        rw [List.length_drop]
        omega
      rw [World.after_add]
      exact ((hrun.drop hcursor).take htake).play hsound.valid
        (nextRecords_map_fst (replay.atCursor cursor) decisions)
    rw [hclone]
    simp only [run_bind, hplay, run_pure]
    have hcommit : { world.after cursor with
        tick := (world.after (cursor + (replay.atCursor cursor).stride decisions)).tick
        stateSha256 :=
          (world.after (cursor + (replay.atCursor cursor).stride decisions)).stateSha256 } =
        world.after (cursor + (replay.atCursor cursor).stride decisions) := by
      rw [World.after_add]
      exact (world.after cursor).after_commit _
    unfold commitAdvance Replay.advancedTo
    simp only [World.reloaded]
    rw [hcommit]
    rfl

end advance

end FrontierDirectorate
