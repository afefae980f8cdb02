import Mathlib
import FrontierDirectorate.Cpp.WrapperCalls
import FrontierDirectorate.Lib.Words

/-!
# Building and playing replays

`build_replay` works on a world of its own, loaded from the initial save. `advance`
fetches the decisions before the core plays them and stores them behind it.
-/
namespace FrontierDirectorate.Cpp
open Accounting Checks Unwinding Words

section building

variable {host : Host} {g : Holdings} {state : WorldState} {attempts : List JointDecision}

theorem buildSize_eq_ok {context : FdContext} {world : World} (hsound : world.Sound context)
    {s : Ledger} {required : Nat}
    (h : (fdReplayBuildSize context world attempts s).1 = .ok required) :
    required = replayTotal world (transcript world 0 attempts).records.length
      (transcript world 0 attempts).audits.length := by
  unfold fdReplayBuildSize at h
  simp only [run_bind, run_pure] at h
  cases hmeasured : (measureReplay context world attempts s).1 with
  | error failure =>
      rw [hmeasured] at h
      cases h
  | ok m =>
      obtain ⟨-, rfl⟩ := measureReplay_eq_ok hsound hmeasured
      rw [hmeasured] at h
      exact (Except.ok.inj h).symm

/-- The file of the attempts from the world of the initial save. -/
def Built (host : Host) (state : WorldState) (attempts : List JointDecision) (bytes : List UInt8) :
    Prop :=
  ∃ first, LoadsTo host.context state.initialSave first ∧ Buildable host.context first attempts ∧
    bytes = replayFile first (transcript first 0 attempts).records
      (transcript first 0 attempts).audits

/-- The attempts can be built and the file fits the address space. -/
def BuildReady (host : Host) (state : WorldState) (attempts : List JointDecision) : Prop :=
  ∃ first, LoadsTo host.context state.initialSave first ∧ Buildable host.context first attempts ∧
    replayTotal first (transcript first 0 attempts).records.length
      (transcript first 0 attempts).audits.length ≤ host.sizeMax

/-- Without a failing allocation what is ready is built. -/
def Unready (host : Host) (state : WorldState) (attempts : List JointDecision) : Prop :=
  host.Steady → host.context.NeverFails → ¬ BuildReady host state attempts

theorem unready_of_unsteady (h : ¬ host.Steady) : Unready host state attempts :=
  fun hsteady => absurd hsteady h

theorem ends_buildReplayOf (state : WorldState) (attempts : List JointDecision) :
    Ends Program.holdings g (buildReplayOf host state attempts)
      (Caught (fun _ g' => g' = g ∧ Unready host state attempts) fun bytes g' =>
        g' = g ∧ Built host state attempts bytes) := by
  apply ends_tryBlock
  apply ends_bind
  refine ends_native (holds_fdWorldLoad host.context g.owned state.initialSave) ?_
  intro s
  cases hloaded : (fdWorldLoad host.context state.initialSave s).1 with
  | error failure =>
      refine ends_errorFrom fun _ => ⟨rfl, ?_⟩
      rintro - hcontext ⟨first, hloads, -⟩
      rw [fdWorldLoad_of_loadsTo hcontext hloads] at hloaded
      cases hloaded
  | ok tickZero =>
      have hloads := fdWorldLoad_loadsTo hloaded
      have hsound := hloads.sound.1
      have hready : BuildReady host state attempts → Buildable host.context tickZero attempts ∧
          replayTotal tickZero (transcript tickZero 0 attempts).records.length
            (transcript tickZero 0 attempts).audits.length ≤ host.sizeMax := by
        rintro ⟨first, hfirst, hbuildable, hsize⟩
        obtain rfl := hloads.unique hfirst
        exact ⟨hbuildable, hsize⟩
      apply ends_holding (leads_fdWorldDestroy g tickZero)
      apply ends_bind
      refine ends_native (holds_fdReplayBuildSize host.context _ tickZero attempts) ?_
      intro t
      cases hsize : (fdReplayBuildSize host.context tickZero attempts t).1 with
      | error failure =>
          refine ends_errorFrom fun _ => ⟨rfl, rfl, ?_⟩
          intro _ hcontext hbuild
          rw [fdReplayBuildSize_of_buildable (hready hbuild).1 hsound hcontext] at hsize
          cases hsize
      | ok required =>
          have hrequired := buildSize_eq_ok hsound hsize
          apply ends_ite
          · intro hlarge
            have hunready : Unready host state attempts := by
              intro _ _ hbuild
              exact absurd (hready hbuild).2 (not_le.mpr (hrequired ▸ hlarge))
            exact ends_wrapperError ⟨rfl, rfl, hunready⟩ fun _ _ => ⟨rfl, rfl, hunready⟩
          · intro _
            apply ends_allocate_bind fun hsteady _ => ⟨rfl, rfl, unready_of_unsteady hsteady⟩
            apply ends_bind
            refine ends_native (holds_fdReplayBuild host.context _ tickZero attempts required) ?_
            intro u
            cases hbuilt : (fdReplayBuild host.context tickZero attempts required u).1 with
            | error failure =>
                refine ends_errorFrom fun _ => ⟨rfl, rfl, ?_⟩
                intro _ hcontext hbuild
                rw [fdReplayBuild_of_buildable (hready hbuild).1 hsound hcontext
                  hrequired.ge] at hbuilt
                cases hbuilt
            | ok bytes =>
                obtain ⟨hbuildable, hbytes⟩ := fdReplayBuild_eq_ok hsound hbuilt
                have hlength : bytes.length = required := by
                  rw [hbytes, hrequired,
                    replayFile_length (transcript_messages hsound.valid 0 attempts)]
                apply ends_ite
                · exact fun hwrong => absurd hlength hwrong
                · exact fun _ => ends_pure ⟨rfl, rfl, tickZero, hloads, hbuildable, hbytes⟩

/-- A replay of the given attempts, or of the history. -/
theorem ends_buildReplay (index : Nat) (attempts : Option (List JointDecision)) :
    Ends Program.holdings g (buildReplay host index attempts)
      (Caught
        (fun _ g' => g' = g ∧ ∀ state, g.worlds[index]? = some state →
          Unready host state (attempts.getD state.decisions))
        fun bytes g' => g' = g ∧ ∃ state, g.worlds[index]? = some state ∧
          Built host state (attempts.getD state.decisions) bytes) := by
  apply ends_tryBlock
  apply ends_bind
  apply ends_worldAt
  cases hlive : g.worlds[index]? with
  | none =>
      have hnone : ∀ state, none = some state →
          Unready host state (attempts.getD state.decisions) := by
        intro state hsome
        cases hsome
      exact ends_wrapperError ⟨rfl, hnone⟩ fun _ _ => ⟨rfl, hnone⟩
  | some state =>
      refine (ends_buildReplayOf state _).mono fun r g' hr => Caught.returns ?_
      rcases r with _ | failure | bytes
      · exact hr
      · obtain ⟨hsame, hunready⟩ := hr
        refine ⟨hsame, fun other hother => ?_⟩
        obtain rfl := Option.some.inj hother
        exact hunready
      · obtain ⟨hsame, hbuilt⟩ := hr
        exact ⟨hsame, state, rfl, hbuilt⟩

end building

section advancing

variable {host : Host} {g : Holdings} {replay : Replay} {state : WorldState}

theorem fdReplayGetInfo_eq (replay : Replay) :
    fdReplayGetInfo replay (initializeOutput sizeofFdReplayInfo) = .ok {
      decisionCount := UInt64.ofNat replay.records.length
      cursor := UInt64.ofNat replay.cursor
      tickZeroSaveBytes := UInt64.ofNat replay.tickZeroSave.length
      checkpointCount := UInt32.ofNat replay.checkpointCount
      auditCount := UInt32.ofNat replay.audits.length
      tickZeroStateSha256 := replay.tickZeroHash } := by
  rw [fdReplayGetInfo, requireOutput_initialized]
  rfl

/-- The next records are all there, and their decisions are fetched in order. -/
theorem ends_prefetch {count index : Nat} (hcount : index + count ≤ replay.records.length)
    (hbound : replay.records.length ≤ uint64Max)
    {E : Fail → Holdings → Prop}
    (hthrow : ¬ host.Steady → ∀ thrown, E (allocationFailure thrown) g) :
    Ends Program.holdings g (prefetch host replay count (UInt64.ofNat index))
      (Returns E fun decisions g' => g' = g ∧
        decisions = ((replay.records.drop index).take count).map ReplayRecord.decision) := by
  induction count generalizing index with
  | zero => exact ends_pure ⟨rfl, by simp⟩
  | succ count ih =>
      have hlt : index < replay.records.length := by omega
      have hword : (UInt64.ofNat index).toNat = index := by
        rw [UInt64.toNat_ofNat', Nat.mod_eq_of_lt]
        change replay.records.length ≤ 18446744073709551615 at hbound
        omega
      have hrecord : fdReplayGetRecord replay (UInt64.ofNat index)
          (initializeOutput sizeofFdReplayRecordView) =
            .ok (recordView (UInt64.ofNat index) replay.records[index]) := by
        rw [fdReplayGetRecord, requireOutput_initialized, ok_bind, hword,
          List.getElem?_eq_getElem hlt]
      have hnext : UInt64.ofNat index + 1 = UInt64.ofNat (index + 1) := by
        rw [UInt64.ofNat_add]
        rfl
      refine ends_bind_caught (ends_answered hrecord) (fun _ _ h => h.elim) ?_
      rintro view _ ⟨rfl, rfl⟩
      simp only
      rw [hnext]
      apply ends_bind
      refine (ih (by omega)).mono ?_
      rintro ((thrown | _) | failure | rest) g' hr
      · exact hr
      · exact hr
      · exact ends_pure hr
      · obtain ⟨rfl, rfl⟩ := hr
        refine ends_pure ⟨rfl, ?_⟩
        rw [List.drop_eq_getElem_cons hlt, List.take_succ_cons, List.map_cons]
        rfl

/-- Words that count the records count them exactly. -/
theorem recordWord_toNat (hbound : replay.records.length ≤ uint64Max) {n : Nat}
    (h : n ≤ replay.records.length) : (UInt64.ofNat n).toNat = n := by
  rw [UInt64.toNat_ofNat', Nat.mod_eq_of_lt]
  change replay.records.length ≤ 18446744073709551615 at hbound
  omega

/-- The wrapper asks for as many records as the core will play. -/
theorem requested_toNat (h : replay.Counted) (decisions : UInt64) :
    (min decisions (UInt64.ofNat replay.records.length - UInt64.ofNat replay.cursor)).toNat =
      replay.stride decisions := by
  have hcursor := h.cursor
  have hlength := recordWord_toNat h.bound le_rfl
  have hword := recordWord_toNat h.bound hcursor
  have hle : UInt64.ofNat replay.cursor ≤ UInt64.ofNat replay.records.length := by
    rw [UInt64.le_iff_toNat_le, hlength, hword]
    exact hcursor
  rw [toNat_min_long, UInt64.toNat_sub_of_le _ _ hle, hlength, hword, Replay.stride]

def Holdings.setReplay (g : Holdings) (index : Nat) (replay : Replay) : Holdings :=
  { g with replays := g.replays.set index replay }

theorem setReplay_self {index : Nat} (h : g.replays[index]? = some replay) :
    g.setReplay index replay = g := by
  obtain ⟨hlt, rfl⟩ := List.getElem?_eq_some_iff.mp h
  unfold Holdings.setReplay
  rw [List.set_getElem_self]

/-- The world at `worldIndex` has played `count` records, and its history has their decisions. -/
def Played (host : Host) (g : Holdings) (replayIndex worldIndex : Nat) (decisions : UInt64)
    (out : ReplayStatus) (g' : Holdings) : Prop :=
  ∃ replay state capacity, g.replays[replayIndex]? = some replay ∧
    g.worlds[worldIndex]? = some state ∧
    Roomy host state (replay.stride decisions) capacity ∧
    Plays state.world (replay.nextDecisions decisions)
      (state.world.after (replay.stride decisions)) ∧
    out.decisionsAdvanced = replay.stride decisions ∧
    g' = (g.setReplay replayIndex
        { replay with cursor := replay.cursor + replay.stride decisions }).setWorld worldIndex
      { state with
        world := state.world.after (replay.stride decisions)
        decisions := state.decisions ++ replay.nextDecisions decisions
        capacity := capacity }

/-- Once there is room, the core either refuses or plays what was fetched. -/
theorem ends_advancePrepared {replayIndex worldIndex capacity : Nat} {decisions : UInt64}
    (hreplay : g.replays[replayIndex]? = some replay) (hstate : g.worlds[worldIndex]? = some state)
    (hsound : state.world.Sound host.context)
    (hroomy : Roomy host state (replay.stride decisions) capacity) :
    Ends Program.holdings (g.setWorld worldIndex { state with capacity := capacity })
      (advancePrepared host (some replayIndex) worldIndex replay { state with capacity := capacity }
        decisions (replay.stride decisions) (replay.nextDecisions decisions))
      (Returns (fun _ g' => Regrown host g worldIndex g')
        (Played host g replayIndex worldIndex decisions)) := by
  have hregrown : Regrown host g worldIndex
      (g.setWorld worldIndex { state with capacity := capacity }) :=
    .inr ⟨state, capacity, hstate, ⟨by have := hroomy.room; omega, hroomy.fits⟩, rfl⟩
  apply ends_bind
  refine ends_native (holds_fdReplayAdvance host.context _ replay state.world decisions statusOut
    true) ?_
  intro s
  simp only [andThen, Option.isSome_some]
  apply ends_bind
  apply ends_setReplay
  apply ends_bind
  apply ends_setWorld
  cases hresult : (fdReplayAdvance host.context replay state.world decisions statusOut true
    s).1.result with
  | error failure =>
      refine ends_errorFrom fun _ => ?_
      have hsame : ((g.setWorld worldIndex { state with capacity := capacity }).setReplay replayIndex
          replay).setWorld worldIndex { state with capacity := capacity } =
            g.setWorld worldIndex { state with capacity := capacity } := by
        have hkept : (g.setWorld worldIndex { state with capacity := capacity }).replays[replayIndex]? =
            some replay := hreplay
        rw [setReplay_self hkept, setWorld_setWorld]
      rw [advance_error hsound hresult]
      rw [← hsame] at hregrown
      exact hregrown
  | ok _ =>
      obtain ⟨hplays, hcursor, hworld, hcount⟩ := advance_ok hsound hresult
      rw [hcursor, hworld]
      apply ends_ite
      · exact fun hwrong => absurd hcount hwrong
      · intro _
        apply ends_bind
        have hlive : (((g.setWorld worldIndex { state with capacity := capacity }).setReplay replayIndex
            { replay with cursor := replay.cursor + replay.stride decisions }).setWorld worldIndex
              { state with
                world := state.world.after (replay.stride decisions)
                capacity := capacity }).worlds[worldIndex]? = some { state with
                  world := state.world.after (replay.stride decisions)
                  capacity := capacity } :=
          getElem?_setWorld (getElem?_setWorld hstate _) _
        refine ends_appendDecisions hlive ?_ ?_
        · rw [nextDecisions_length]
          exact hroomy.room
        · refine ends_pure ⟨replay, state, capacity, hreplay, hstate, hroomy, hplays, hcount, ?_⟩
          rw [setWorld_setWorld]
          exact setWorld_setWorld (g.setReplay replayIndex
            { replay with cursor := replay.cursor + replay.stride decisions }) worldIndex _ _

theorem ends_reserveBatch {count : Nat} {Q : Except Unwound (Option Thrown) → Holdings → Prop}
    (hnone : Q (.ok none) g) (hsome : ∀ thrown, Q (.ok (some thrown)) g) :
    Ends Program.holdings g (reserveBatch host count) Q := by
  apply ends_ite
  · exact fun _ => ends_pure hnone
  · exact fun _ => ends_attempt hnone fun _ => hsome

/-- Every allocation comes before the core is called. -/
theorem ends_advanceBatch {replayIndex worldIndex : Nat} {decisions requested : UInt64}
    (hreplay : g.replays[replayIndex]? = some replay) (hstate : g.worlds[worldIndex]? = some state)
    (hsound : state.world.Sound host.context) (hstored : state.Stored host)
    (hcounted : replay.Counted) (hrequested : requested.toNat = replay.stride decisions) :
    Ends Program.holdings g
      (advanceBatch host (some replayIndex) worldIndex replay state decisions
        (UInt64.ofNat replay.cursor) requested)
      (Returns (fun _ g' => Regrown host g worldIndex g')
        (Played host g replayIndex worldIndex decisions)) := by
  have hcursor := hcounted.cursor
  have hnext : replay.cursor + replay.stride decisions ≤ replay.records.length := by
    unfold Replay.stride
    omega
  unfold advanceBatch
  rw [hrequested]
  apply ends_bind
  apply ends_reserveBatch
  · apply ends_bind
    refine (ends_prefetch hnext hcounted.bound
      (E := fun _ g' => Regrown host g worldIndex g') fun _ _ => .inl rfl).mono ?_
    rintro ((thrown | _) | failure | accepted) g' hr
    · exact hr
    · exact hr
    · exact ends_pure hr
    · obtain ⟨rfl, rfl⟩ := hr
      apply ends_bind
      refine ends_prepareDecisions hstate hstored _ ?_ ?_
      · exact fun _ => ends_wrapperError (.inl rfl) fun _ _ => .inl rfl
      · exact fun capacity hroomy => ends_advancePrepared hreplay hstate hsound hroomy
  · intro thrown
    cases thrown with
    | badAlloc => exact ends_wrapperError (.inl rfl) fun _ _ => .inl rfl
    | lengthError => exact ends_wrapperError (.inl rfl) fun _ _ => .inl rfl

/-- The fetched decisions are the ones that are played, whatever is thrown in between. -/
theorem ends_advance (hlive : g.Live host) (hcounted : ∀ replay ∈ g.replays, replay.Counted)
    (replayIndex worldIndex : Nat) (decisions : UInt64) :
    Ends Program.holdings g (advance host replayIndex worldIndex decisions)
      (Caught (fun _ g' => Regrown host g worldIndex g')
        (Played host g replayIndex worldIndex decisions)) := by
  apply ends_tryBlock
  apply ends_bind
  apply ends_replayAt
  apply ends_bind
  apply ends_worldAt
  cases hreplay : g.replays[replayIndex]? with
  | none => exact ends_wrapperError (.inl rfl) fun _ _ => .inl rfl
  | some replay =>
      cases hstate : g.worlds[worldIndex]? with
      | none => exact ends_wrapperError (.inl rfl) fun _ _ => .inl rfl
      | some state =>
          have hcount := hcounted replay (List.mem_of_getElem? hreplay)
          obtain ⟨hsound, hstored⟩ := hlive state (List.mem_of_getElem? hstate)
          refine ends_bind_caught (ends_answered (fdReplayGetInfo_eq replay)) (fun _ _ h => h.elim) ?_
          rintro info _ ⟨rfl, rfl⟩
          apply ends_ite
          · exact fun _ => ends_wrapperError (.inl rfl) fun _ _ => .inl rfl
          · intro _
            simp only
            apply ends_ite
            · exact fun _ => ends_wrapperError (.inl rfl) fun _ _ => .inl rfl
            · exact fun _ => ends_advanceBatch hreplay hstate hsound hstored hcount
                (requested_toNat hcount decisions)

end advancing

section foreigners

variable {host : Host} {g : Holdings} {state : WorldState} {worldIndex : Nat}

/-- A query, whatever it answers. -/
theorem ends_answered_any {α : Type} (answer : Except Fail α) :
    Ends Program.holdings g (answered host answer)
      (Caught (fun _ g' => g' = g) fun _ g' => g' = g) := by
  apply ends_tryBlock
  cases answer with
  | error failure => exact ends_errorFrom fun _ => rfl
  | ok value => exact ends_pure rfl

/-- Reading the records of any replay leaves the objects alone. -/
theorem ends_prefetch_any (replay : Replay) (count : Nat) (index : UInt64) :
    Ends Program.holdings g (prefetch host replay count index)
      (Returns (fun _ g' => g' = g) fun _ g' => g' = g) := by
  induction count generalizing index with
  | zero => exact ends_pure rfl
  | succ count ih =>
      refine ends_bind_caught (ends_answered_any _) ?_ ?_
      · rintro failure _ rfl
        exact ends_copyError rfl fun _ _ => rfl
      · rintro record _ rfl
        apply ends_bind
        refine (ih (index + 1)).mono ?_
        rintro ((thrown | _) | failure | rest) g' hr
        · exact hr
        · exact hr
        · exact ends_pure hr
        · exact ends_pure hr

/-- The core refuses a replay of another context and changes nothing. -/
theorem fdReplayAdvance_foreign (context : FdContext) (replay : Replay) (world : World)
    (decisions : UInt64) (s : Ledger) :
    fdReplayAdvance context replay world decisions statusOut false s =
      (⟨replay, world, statusOut, .error (fdDiagSet fdErrInvalidArgument fdFieldNone 0
        "replay and world contexts differ")⟩, s) := by
  have hout : fdOutputStructValid statusOut.header sizeofFdReplayStatus = true := by decide
  have hchecks : advanceChecks replay world statusOut false =
      .error (fdDiagSet fdErrInvalidArgument fdFieldNone 0 "replay and world contexts differ") := by
    rw [advanceChecks, failIf_bind_of_not (not_not.mpr hout), failIf_true Bool.false_ne_true]
    rfl
  unfold fdReplayAdvance
  rw [hchecks]
  rfl

theorem ends_advancePrepared_foreign (hstate : g.worlds[worldIndex]? = some state)
    (replay : Replay) (decisions : UInt64) (requested : Nat) (accepted : List JointDecision) :
    Ends Program.holdings g
      (advancePrepared host none worldIndex replay state decisions requested accepted)
      (Returns (fun _ g' => g' = g) fun _ _ => False) := by
  apply ends_bind
  refine ends_native (holds_fdReplayAdvance host.context _ replay state.world decisions statusOut
    false) ?_
  intro s
  simp only [andThen, Option.isSome_none, fdReplayAdvance_foreign]
  apply ends_bind
  refine ends_pure ?_
  apply ends_bind
  apply ends_setWorld
  refine ends_errorFrom fun _ => ?_
  exact setWorld_self hstate

theorem ends_advanceBatch_foreign (hstate : g.worlds[worldIndex]? = some state)
    (hstored : state.Stored host) (replay : Replay) (decisions cursor requested : UInt64) :
    Ends Program.holdings g
      (advanceBatch host none worldIndex replay state decisions cursor requested)
      (Returns (fun _ g' => Regrown host g worldIndex g') fun _ _ => False) := by
  apply ends_bind
  apply ends_reserveBatch
  · apply ends_bind
    refine (ends_prefetch_any replay _ _).mono ?_
    rintro ((thrown | _) | failure | accepted) g' hr
    · exact .inl hr
    · exact hr
    · exact ends_pure (.inl hr)
    · obtain rfl : g = g' := hr.symm
      apply ends_bind
      refine ends_prepareDecisions hstate hstored _ ?_ ?_
      · exact fun _ => ends_wrapperError (.inl rfl) fun _ _ => .inl rfl
      · intro capacity hroomy
        have hregrown : Regrown host g worldIndex
            (g.setWorld worldIndex { state with capacity := capacity }) :=
          .inr ⟨state, capacity, hstate, ⟨(Nat.le_add_right _ _).trans hroomy.room, hroomy.fits⟩,
            rfl⟩
        refine (ends_advancePrepared_foreign (getElem?_setWorld hstate _) replay decisions _
          accepted).mono ?_
        rintro ((thrown | _) | failure | out) g' hr
        · rw [hr]
          exact hregrown
        · exact hr
        · rw [hr]
          exact hregrown
        · exact hr
  · intro thrown
    cases thrown with
    | badAlloc => exact ends_wrapperError (.inl rfl) fun _ _ => .inl rfl
    | lengthError => exact ends_wrapperError (.inl rfl) fun _ _ => .inl rfl

/-- Whatever a replay of another context holds, a world does not play it. -/
theorem ends_advanceForeign (hlive : g.Live host) (replay : Replay) (worldIndex : Nat)
    (decisions : UInt64) :
    Ends Program.holdings g (advanceForeign host replay worldIndex decisions)
      (Caught (fun _ g' => Regrown host g worldIndex g') fun _ _ => False) := by
  apply ends_tryBlock
  apply ends_bind
  apply ends_worldAt
  cases hstate : g.worlds[worldIndex]? with
  | none => exact ends_wrapperError (.inl rfl) fun _ _ => .inl rfl
  | some state =>
      have hstored := (hlive state (List.mem_of_getElem? hstate)).2
      refine ends_bind_caught (ends_answered (fdReplayGetInfo_eq replay)) (fun _ _ h => h.elim) ?_
      rintro info _ ⟨rfl, rfl⟩
      apply ends_ite
      · exact fun _ => ends_wrapperError (.inl rfl) fun _ _ => .inl rfl
      · intro _
        simp only
        apply ends_ite
        · exact fun _ => ends_wrapperError (.inl rfl) fun _ _ => .inl rfl
        · exact fun _ => ends_advanceBatch_foreign hstate hstored replay decisions _ _

end foreigners

end FrontierDirectorate.Cpp
