import Mathlib
import FrontierDirectorate.Core.AdvanceLaws
import FrontierDirectorate.Core.Session

/-!
# Invariants of a session

Every live world is its creation state at a later tick, and the counters of the
context are the sums over the live handles. Both are kept by every call.
-/
namespace FrontierDirectorate
open Accounting Checks

section faithful

variable {context : FdContext}

/-- A live world is its creation state, as many steps later as it has accepted decisions. -/
structure LiveWorld.Faithful (context : FdContext) (live : LiveWorld) : Prop where
  origin : live.origin.Sound context
  body : live.world = live.origin.atTick live.world.tick
  clock : live.world.tick.toNat = live.origin.tick.toNat + 24 * live.accepted.length
  chain : live.accepted.map (fun decision => decision.expectedTick.toNat) =
    List.range' live.origin.tick.toNat live.accepted.length 24

theorem faithful_created {world : World} (h : world.Sound context) :
    (LiveWorld.created world).Faithful context :=
  ⟨h, h.atTick_self.symm, rfl, rfl⟩

theorem LiveWorld.Faithful.tick_mod {live : LiveWorld} (h : live.Faithful context) :
    live.world.tick % fdOperationalTicks = 0 := by
  have horigin := congrArg UInt64.toNat h.origin.tick
  rw [UInt64.toNat_mod] at horigin
  apply UInt64.toNat_inj.mp
  rw [UInt64.toNat_mod, h.clock]
  change _ % 24 = 0 at horigin
  change _ % 24 = 0
  omega

/-- So it is sound. -/
theorem LiveWorld.Faithful.sound {live : LiveWorld} (h : live.Faithful context) :
    live.world.Sound context := by
  rw [h.body]
  exact h.origin.atTick h.tick_mod

/-- No decision is accepted twice: the ticks they were submitted at increase. -/
theorem LiveWorld.Faithful.nodup {live : LiveWorld} (h : live.Faithful context) :
    live.accepted.Nodup := by
  have hticks : (live.accepted.map fun decision => decision.expectedTick.toNat).Nodup := by
    rw [h.chain]
    exact List.nodup_range' 24
  exact List.Nodup.of_map _ hticks

/-- What a longer history looks like: the decisions were submitted at the ticks that follow. -/
theorem LiveWorld.Faithful.extend {live : LiveWorld} (h : live.Faithful context) {world : World}
    {decisions : List JointDecision} (hbody : world = live.world.atTick world.tick)
    (hclock : world.tick.toNat = live.world.tick.toNat + 24 * decisions.length)
    (hchain : decisions.map (fun decision => decision.expectedTick.toNat) =
      List.range' live.world.tick.toNat decisions.length 24) :
    LiveWorld.Faithful context
      { live with world := world, accepted := live.accepted ++ decisions } where
  origin := h.origin
  body := by
    have htwice := live.origin.atTick_atTick live.world.tick world.tick
    rw [← h.body] at htwice
    exact hbody.trans htwice
  clock := by
    change world.tick.toNat =
      live.origin.tick.toNat + 24 * (live.accepted ++ decisions).length
    rw [hclock, h.clock, List.length_append]
    omega
  chain := by
    change (live.accepted ++ decisions).map _ =
      List.range' live.origin.tick.toNat (live.accepted ++ decisions).length 24
    rw [List.map_append, h.chain, hchain, h.clock, List.length_append, List.range'_append]

theorem faithful_step {live : LiveWorld} (h : live.Faithful context) {decision : JointDecision}
    {out : StructHeader} {next : World} {result : StepResult}
    (hstep : fdWorldStep live.world decision out = (next, .ok result)) :
    LiveWorld.Faithful context
      { live with world := next, accepted := live.accepted ++ [decision] } := by
  obtain ⟨haccepts, rfl, -⟩ := accepted_of_ok hstep
  refine h.extend rfl (tick_add haccepts.clock) ?_
  simp [haccepts.joint.tick]

/-- A step that fails leaves the world as it is. -/
theorem fdWorldStep_error {world next : World} {decision : JointDecision} {out : StructHeader}
    {failure : Fail} (h : fdWorldStep world decision out = (next, .error failure)) :
    next = world := by
  rcases fdWorldStep_cases world decision out with ⟨-, -, hstep⟩ | ⟨failure', hstep⟩
  · rw [h] at hstep
    cases hstep
  · rw [h] at hstep
    cases hstep
    rfl

theorem faithful_advance {live : LiveWorld} (h : live.Faithful context) (replay : Replay)
    (decisions : UInt64) (out : ReplayStatus) (s : Ledger) :
    LiveWorld.Faithful context
      { live with
        world := (fdReplayAdvance context replay live.world decisions out true s).1.world
        accepted := live.accepted ++ Session.played replay
          (fdReplayAdvance context replay live.world decisions out true s).1 } := by
  obtain ⟨hbody, count, hcursor, hclock, hlength, hchain⟩ :=
    fdReplayAdvance_world h.sound replay decisions out true s
  have hplayed : Session.played replay
      (fdReplayAdvance context replay live.world decisions out true s).1 =
        ((replay.records.drop replay.cursor).take count).map ReplayRecord.decision := by
    rw [Session.played, hcursor, Nat.add_sub_cancel_left]
  rw [hplayed]
  refine h.extend hbody ?_ ?_
  · rw [List.length_map, hlength]
    exact hclock
  · rw [List.map_map, List.length_map, hlength]
    exact hchain

/-- Every live world of the session. -/
def Session.Faithful (context : FdContext) (s : Session) : Prop :=
  ∀ live ∈ s.worlds, live.Faithful context

theorem faithful_set {s : Session} (h : s.Faithful context) {live : LiveWorld}
    (hlive : live.Faithful context) (index : Nat) :
    ∀ other ∈ s.worlds.set index live, other.Faithful context := by
  intro other hother
  rcases List.mem_or_eq_of_mem_set hother with hmem | rfl
  · exact h other hmem
  · exact hlive

theorem faithful_publish {s : Session} (h : s.Faithful context)
    {created : StateM Ledger (Except Fail World)}
    (hcreated : ∀ ledger world, (created ledger).1 = .ok world → world.Sound context) :
    (s.publishWorld created).1.Faithful context := by
  unfold Session.publishWorld
  split
  · exact h
  · next world ledger hworld =>
      intro live hlive
      rcases List.mem_append.mp hlive with hold | hnew
      · exact h live hold
      · rw [List.mem_singleton.mp hnew]
        exact faithful_created (hcreated s.ledger world (by rw [hworld]))

theorem faithful_withContext {s : Session} (h : s.Faithful context) {message : String}
    {call : Session × Except Fail Unit} (hcall : call.1.Faithful context) :
    (s.withContext message call).1.Faithful context := by
  unfold Session.withContext
  split
  · exact hcall
  · exact h

theorem sound_of_load {bytes : List UInt8} (ledger : Ledger) (world : World)
    (h : (fdWorldLoad context bytes ledger).1 = .ok world) : world.Sound context :=
  (fdWorldLoad_loadsTo h).sound.1

/-- No call spoils a live world. -/
theorem faithful_call {s : Session} (h : s.Faithful context) (c : Call) :
    (s.call context c).1.Faithful context := by
  cases c with
  | generate config seed content out =>
      refine faithful_withContext h (faithful_publish h ?_)
      intro ledger world hworld
      exact (sound_of_generate hworld).1
  | load bytes => exact faithful_withContext h (faithful_publish h sound_of_load)
  | createWorld replay =>
      simp only [Session.call]
      split
      · exact h
      · exact faithful_publish h sound_of_load
  | step world decision out =>
      simp only [Session.call]
      split
      · exact h
      · next live hlive =>
          have hfaithful := h live (List.mem_of_getElem? hlive)
          unfold Session.stepCall
          split
          · next next failure hstep =>
              rw [fdWorldStep_error hstep]
              exact faithful_set h hfaithful world
          · next next result hstep => exact faithful_set h (faithful_step hfaithful hstep) world
  | advance replay world decisions out =>
      simp only [Session.call]
      split
      · next r live hreplay hlive =>
          have hfaithful := h live (List.mem_of_getElem? hlive)
          exact faithful_set h (faithful_advance hfaithful r decisions out s.ledger) world
      · exact h
  | buildReplay world decisions capacity =>
      simp only [Session.call]
      split <;> exact h
  | openReplay bytes =>
      refine faithful_withContext h ?_
      unfold Session.openCall
      split <;> exact h
  | createSnapshot world scope viewer =>
      simp only [Session.call]
      split
      · exact h
      · unfold Session.snapshotCall
        split <;> exact h
  | destroyWorld world =>
      simp only [Session.call]
      split
      · exact h
      · intro live hlive
        exact h live (List.mem_of_mem_eraseIdx hlive)
  | destroySnapshot snapshot =>
      simp only [Session.call]
      split <;> exact h
  | destroyReplay replay =>
      simp only [Session.call]
      split <;> exact h
  | destroyContext =>
      simp only [Session.call]
      split
      · split <;> exact h
      · exact h

theorem faithful_run {s : Session} (h : s.Faithful context) (calls : List Call) :
    (s.run context calls).Faithful context := by
  induction calls generalizing s with
  | nil => exact h
  | cons c calls ih => exact ih (faithful_call h c)

theorem faithful_start : Session.start.Faithful context := by
  intro live hlive
  cases hlive

end faithful

section balanced

variable {context : FdContext}

/-- The allocation sizes of a handle. -/
def World.bytes (world : World) : Nat := sizeofFdWorld + world.tileCount * sizeofFdTile

def Snapshot.bytes (snapshot : Snapshot) : Nat :=
  sizeofFdSnapshot + snapshot.tileAllocationSize.toNat

def Replay.bytes (replay : Replay) : Nat :=
  sizeofFdReplay + replay.tickZeroAllocationSize.toNat + replay.recordAllocationSize.toNat +
    replay.auditAllocationSize.toNat

/-- The bytes all live handles own. -/
def Session.bytes (s : Session) : Nat :=
  (s.worlds.map fun live => live.world.bytes).sum + (s.snapshots.map Snapshot.bytes).sum +
    (s.replays.map Replay.bytes).sum

/-- The number of live handles. -/
def Session.handles (s : Session) : Nat :=
  s.worlds.length + s.snapshots.length + s.replays.length

/-- Amounts in the words of the counters. -/
def Owned.ofNat (bytes handles : Nat) : Owned := (UInt64.ofNat bytes, UInt32.ofNat handles)

theorem Owned.ofNat_add (a b m n : Nat) :
    Owned.ofNat (a + b) (m + n) = Owned.ofNat a m + Owned.ofNat b n := by
  simp only [Owned.ofNat, UInt64.ofNat_add, UInt32.ofNat_add]
  rfl

theorem World.owned_eq (world : World) : world.owned = Owned.ofNat world.bytes 1 := by
  rw [World.bytes, World.owned, Owned.ofNat, UInt64.ofNat_add]
  rfl

theorem Replay.owned_eq (replay : Replay) : replay.owned = Owned.ofNat replay.bytes 1 := by
  simp only [Replay.bytes, Replay.owned, ReplayMemory.owned, Replay.memory, Owned.ofNat,
    UInt64.ofNat_add, UInt64.ofNat_toNat]
  simp [replayBytes]

/-- The counters of the context are those of its handles. -/
def Session.Balanced (s : Session) : Prop := s.ledger.owned = Owned.ofNat s.bytes s.handles

/-- A computation that owns what the ledger shows on entry. -/
theorem owned_of_holds {α : Type} {m : StateM Ledger α} {δ : α → Owned} {s : Ledger}
    (h : Holds Ledger.owned s.owned m δ) : (m s).2.owned = δ (m s).1 := by
  have hzero : ∀ d : Owned, (0, 0) + d = d := by
    intro d
    simp [Prod.ext_iff]
  have hrun := h (0, 0) s (hzero s.owned).symm
  rw [hzero] at hrun
  exact hrun

/-- A snapshot owns the structure and a copy of the tiles. -/
def Snapshot.owned (snapshot : Snapshot) : Owned :=
  (snapshotBytes + snapshot.tileAllocationSize.toUInt64, 1)

theorem Snapshot.owned_eq (snapshot : Snapshot) : snapshot.owned = Owned.ofNat snapshot.bytes 1 := by
  have htiles : snapshot.tileAllocationSize.toUInt64 =
      UInt64.ofNat snapshot.tileAllocationSize.toNat := by
    apply UInt64.toNat_inj.mp
    rw [UInt32.toNat_toUInt64, UInt64.toNat_ofNat']
    have hlt := snapshot.tileAllocationSize.toNat_lt
    omega
  rw [Snapshot.bytes, Snapshot.owned, Owned.ofNat, UInt64.ofNat_add, htiles]
  rfl

/-- The tile bytes of a valid world fit the 32-bit size field of a snapshot. -/
theorem tileBytes_narrow {world : World} (h : world.Bounded) :
    (worldTileBytes world).toUInt32.toUInt64 = worldTileBytes world := by
  have htiles : world.tileCount ≤ 32768 := h.tiles
  apply UInt64.toNat_inj.mp
  rw [UInt32.toNat_toUInt64, UInt64.toNat_toUInt32, worldTileBytes, UInt64.toNat_ofNat',
    sizeofFdTile]
  have hlt : world.tileCount * 24 < 2 ^ 32 := by omega
  rw [Nat.mod_eq_of_lt (hlt.trans (by decide)), Nat.mod_eq_of_lt hlt]

theorem holds_fdSnapshotCreate (context : FdContext) (d : Owned) {world : World}
    (h : world.Bounded) (scope : UInt32) (viewer : FdEntityId) :
    Holds Ledger.owned d (fdSnapshotCreate context world scope viewer)
      (d.published Snapshot.owned) := by
  unfold fdSnapshotCreate
  refine holds_ite (fun _ => holds_pure rfl) fun _ => ?_
  refine holds_bind (holds_alloc context d _) fun memory => ?_
  cases memory with
  | false => exact holds_pure rfl
  | true =>
      refine holds_bind (holds_alloc context _ _) fun tiles => ?_
      cases tiles with
      | false => exact holds_bind (holds_release d _) fun _ => holds_pure rfl
      | true =>
          refine holds_bind (holds_addHandle _) fun _ => holds_pure ?_
          simp [Owned.published, Owned.holding, Snapshot.owned, Owned.withBytes, Prod.ext_iff,
            tileBytes_narrow h, UInt64.add_assoc]

theorem holds_fdSnapshotDestroy (d : Owned) (snapshot : Snapshot) :
    Holds Ledger.owned (d + snapshot.owned) (fdSnapshotDestroy snapshot) fun _ => d := by
  have hentry : d + snapshot.owned = ((Owned.withBytes (d.1, d.2 + 1) snapshotBytes).withBytes
      snapshot.tileAllocationSize.toUInt64) := by
    simp [Snapshot.owned, Owned.withBytes, Prod.ext_iff, UInt64.add_assoc]
  rw [hentry]
  unfold fdSnapshotDestroy
  refine holds_bind (holds_release _ _) fun _ => ?_
  refine holds_bind (holds_release _ _) fun _ => ?_
  exact holds_dropHandle d

/-- One entry taken out of a sum. -/
theorem sum_eraseIdx {α : Type} (f : α → Nat) {l : List α} {index : Nat} {a : α}
    (h : l[index]? = some a) : (l.map f).sum = ((l.eraseIdx index).map f).sum + f a := by
  obtain ⟨hlt, ha⟩ := List.getElem?_eq_some_iff.mp h
  have hsum := List.CommMonoid.add_sum_eraseIdx (l := l.map f) (i := index) (by simpa using hlt)
  rw [List.getElem_map, ha, List.eraseIdx_map] at hsum
  omega

/-- An entry exchanged for one that counts the same. -/
theorem map_set_of_eq {α β : Type} (f : α → β) {l : List α} {index : Nat} {a b : α}
    (h : l[index]? = some a) (hab : f b = f a) : (l.set index b).map f = l.map f := by
  rw [List.map_set, hab]
  have hmap : (l.map f)[index]? = some (f a) := by rw [List.getElem?_map, h]; rfl
  obtain ⟨_, hget⟩ := List.getElem?_eq_some_iff.mp hmap
  rw [← hget, List.set_getElem_self]

theorem Session.Balanced.publish {s : Session} (h : s.Balanced) {ledger : Ledger} {t : Session}
    {cost : Owned} {bytes handles : Nat} (hledger : ledger.owned = s.ledger.owned + cost)
    (hcost : cost = Owned.ofNat bytes handles) (ht : t.ledger = ledger)
    (hbytes : t.bytes = s.bytes + bytes) (hhandles : t.handles = s.handles + handles) :
    t.Balanced := by
  unfold Session.Balanced
  rw [ht, hledger, h, hcost, hbytes, hhandles, Owned.ofNat_add]

/-- A call that leaves the handles as they are. -/
theorem Session.Balanced.keep {s t : Session} (h : s.Balanced)
    (hledger : t.ledger.owned = s.ledger.owned) (hbytes : t.bytes = s.bytes)
    (hhandles : t.handles = s.handles) : t.Balanced := by
  unfold Session.Balanced
  rw [hledger, h, hbytes, hhandles]

/-- What a destroyed handle owned is gone from the counters. -/
theorem owned_release {destroy : StateM Ledger Unit} {s : Ledger} {cost : Owned}
    {total bytes handles size : Nat}
    (hdestroy : ∀ d, Holds Ledger.owned (d + cost) destroy fun _ => d)
    (hcost : cost = Owned.ofNat size 1) (h : s.owned = Owned.ofNat total (handles + 1))
    (htotal : total = bytes + size) : (destroy s).2.owned = Owned.ofNat bytes handles := by
  have hrun := hdestroy (Owned.ofNat bytes handles)
  rw [hcost, ← Owned.ofNat_add, ← htotal, ← h] at hrun
  exact owned_of_holds hrun

/-- A destroyed handle gives its share back. -/
theorem Session.Balanced.release {s t : Session} (h : s.Balanced) {destroy : StateM Ledger Unit}
    {cost : Owned} {bytes : Nat}
    (hdestroy : ∀ d, Holds Ledger.owned (d + cost) destroy fun _ => d)
    (hcost : cost = Owned.ofNat bytes 1) (ht : t.ledger = (destroy s.ledger).2)
    (hbytes : s.bytes = t.bytes + bytes) (hhandles : s.handles = t.handles + 1) : t.Balanced := by
  have hentry : s.ledger.owned = Owned.ofNat s.bytes (t.handles + 1) := by
    rw [← hhandles]
    exact h
  unfold Session.Balanced
  rw [ht]
  exact owned_release hdestroy hcost hentry hbytes

theorem balanced_publishWorld {s : Session} (h : s.Balanced)
    {created : StateM Ledger (Except Fail World)}
    (hcreated : ∀ d, Holds Ledger.owned d created (d.published World.owned)) :
    (s.publishWorld created).1.Balanced := by
  have hrun := owned_of_holds (hcreated s.ledger.owned)
  unfold Session.publishWorld
  split
  · next failure ledger hresult =>
      rw [hresult] at hrun
      exact h.keep hrun rfl rfl
  · next world ledger hresult =>
      rw [hresult] at hrun
      refine h.publish hrun world.owned_eq rfl ?_ ?_
      · simp only [Session.bytes, List.map_append, List.sum_append, List.map_cons, List.map_nil,
          List.sum_cons, List.sum_nil, LiveWorld.created]
        omega
      · simp only [Session.handles, List.length_append, List.length_cons, List.length_nil]
        omega

theorem balanced_withContext {s : Session} (h : s.Balanced) {message : String}
    {call : Session × Except Fail Unit} (hcall : call.1.Balanced) :
    (s.withContext message call).1.Balanced := by
  unfold Session.withContext
  split
  · exact hcall
  · exact h

/-- A live world replaced by one of the same size. -/
theorem balanced_setWorld {s t : Session} (h : s.Balanced) {index : Nat} {live later : LiveWorld}
    (hlive : s.worlds[index]? = some live) (hsize : later.world.bytes = live.world.bytes)
    (hledger : t.ledger.owned = s.ledger.owned) (hworlds : t.worlds = s.worlds.set index later)
    (hsnapshots : t.snapshots = s.snapshots)
    (hreplays : t.replays.map Replay.bytes = s.replays.map Replay.bytes) : t.Balanced := by
  have hlength : t.replays.length = s.replays.length := by
    simpa using congrArg List.length hreplays
  have hbytes : (t.worlds.map fun live => live.world.bytes) =
      s.worlds.map fun live => live.world.bytes := by
    rw [hworlds]
    exact map_set_of_eq (fun live : LiveWorld => live.world.bytes) hlive hsize
  refine h.keep hledger ?_ ?_
  · rw [Session.bytes, Session.bytes, hbytes, hsnapshots, hreplays]
  · rw [Session.handles, Session.handles, hsnapshots, hlength, hworlds, List.length_set]

theorem bytes_atTick (world : World) (tick : UInt64) : (world.atTick tick).bytes = world.bytes := rfl

theorem fdReplayAdvance_memory {world : World} (hworld : world.Sound context) (replay : Replay)
    (decisions : UInt64) (out : ReplayStatus) (sameContext : Bool) (s : Ledger) :
    (fdReplayAdvance context replay world decisions out sameContext s).1.replay.bytes =
      replay.bytes := by
  rcases fdReplayAdvance_cases hworld replay decisions out sameContext s with
    ⟨failure, h⟩ | ⟨-, h⟩ | ⟨final, -, h⟩
  · rw [h]
  · rw [h]
    rfl
  · rw [h]
    rfl

/-- Every call keeps the books. -/
theorem balanced_call {s : Session} (hfaithful : s.Faithful context) (h : s.Balanced) (c : Call) :
    (s.call context c).1.Balanced := by
  cases c with
  | generate config seed content out =>
      refine balanced_withContext h (balanced_publishWorld h fun d => ?_)
      exact holds_map (holds_fdWorldGenerate context d config seed content out) fun _ => rfl
  | load bytes =>
      exact balanced_withContext h (balanced_publishWorld h fun d =>
        holds_fdWorldLoad context d bytes)
  | createWorld replay =>
      simp only [Session.call]
      split
      · exact h
      · exact balanced_publishWorld h fun d => holds_fdWorldLoad context d _
  | step world decision out =>
      simp only [Session.call]
      split
      · exact h
      · next live hlive =>
          unfold Session.stepCall
          split
          · next next failure hstep =>
              exact balanced_setWorld h hlive (by rw [fdWorldStep_error hstep]) rfl rfl rfl rfl
          · next next result hstep =>
              obtain ⟨-, hnext, -⟩ := accepted_of_ok hstep
              exact balanced_setWorld h hlive (by rw [hnext]; rfl) rfl rfl rfl rfl
  | advance replay world decisions out =>
      simp only [Session.call]
      split
      · next r live hreplay hlive =>
          have hsound := (hfaithful live (List.mem_of_getElem? hlive)).sound
          have hrun := owned_of_holds
            (holds_fdReplayAdvance context s.ledger.owned r live.world decisions out true)
          have hbody := (fdReplayAdvance_world hsound r decisions out true s.ledger).1
          refine balanced_setWorld h hlive ?_ hrun rfl rfl ?_
          · exact (congrArg World.bytes hbody).trans (bytes_atTick live.world _)
          · exact map_set_of_eq Replay.bytes hreplay
              (fdReplayAdvance_memory hsound r decisions out true s.ledger)
      · exact h
  | buildReplay world decisions capacity =>
      simp only [Session.call]
      split
      · exact h
      · next live hlive =>
          have hrun := owned_of_holds
            (holds_fdReplayBuild context s.ledger.owned live.world decisions capacity)
          exact h.keep hrun rfl rfl
  | openReplay bytes =>
      refine balanced_withContext h ?_
      have hrun := owned_of_holds (holds_fdReplayOpen context s.ledger.owned bytes)
      unfold Session.openCall
      split
      · next failure ledger hresult =>
          rw [hresult] at hrun
          exact h.keep hrun rfl rfl
      · next replay ledger hresult =>
          rw [hresult] at hrun
          refine h.publish hrun replay.owned_eq rfl ?_ ?_
          · simp only [Session.bytes, List.map_append, List.sum_append, List.map_cons,
              List.map_nil, List.sum_cons, List.sum_nil]
            omega
          · simp only [Session.handles, List.length_append, List.length_cons, List.length_nil]
            omega
  | createSnapshot world scope viewer =>
      simp only [Session.call]
      split
      · exact h
      · next live hlive =>
          have hbounded := (hfaithful live (List.mem_of_getElem? hlive)).sound.bounded
          have hrun := owned_of_holds
            (holds_fdSnapshotCreate context s.ledger.owned hbounded scope viewer)
          unfold Session.snapshotCall
          split
          · next failure ledger hresult =>
              rw [hresult] at hrun
              exact h.keep hrun rfl rfl
          · next snapshot ledger hresult =>
              rw [hresult] at hrun
              refine h.publish hrun snapshot.owned_eq rfl ?_ ?_
              · simp only [Session.bytes, List.map_append, List.sum_append, List.map_cons,
                  List.map_nil, List.sum_cons, List.sum_nil]
                omega
              · simp only [Session.handles, List.length_append, List.length_cons, List.length_nil]
                omega
  | destroyWorld world =>
      simp only [Session.call]
      split
      · exact h
      · next live hlive =>
          have hsum := sum_eraseIdx (fun live : LiveWorld => live.world.bytes) hlive
          have hlength := List.length_eraseIdx_add_one (List.getElem?_eq_some_iff.mp hlive).1
          refine h.release (fun d => holds_fdWorldDestroy d live.world) live.world.owned_eq rfl ?_ ?_
          · simp only [Session.bytes]
            omega
          · simp only [Session.handles]
            omega
  | destroySnapshot snapshot =>
      simp only [Session.call]
      split
      · exact h
      · next taken htaken =>
          have hsum := sum_eraseIdx Snapshot.bytes htaken
          have hlength := List.length_eraseIdx_add_one (List.getElem?_eq_some_iff.mp htaken).1
          refine h.release (fun d => holds_fdSnapshotDestroy d taken) taken.owned_eq rfl ?_ ?_
          · simp only [Session.bytes]
            omega
          · simp only [Session.handles]
            omega
  | destroyReplay replay =>
      simp only [Session.call]
      split
      · exact h
      · next opened hopened =>
          have hsum := sum_eraseIdx Replay.bytes hopened
          have hlength := List.length_eraseIdx_add_one (List.getElem?_eq_some_iff.mp hopened).1
          refine h.release (fun d => holds_fdReplayDestroy d opened) opened.owned_eq rfl ?_ ?_
          · simp only [Session.bytes]
            omega
          · simp only [Session.handles]
            omega
  | destroyContext =>
      simp only [Session.call]
      split
      · split <;> exact h
      · exact h

theorem balanced_run {s : Session} (hfaithful : s.Faithful context) (h : s.Balanced)
    (calls : List Call) : (s.run context calls).Balanced := by
  induction calls generalizing s with
  | nil => exact h
  | cons c calls ih => exact ih (faithful_call hfaithful c) (balanced_call hfaithful h c)

theorem balanced_start : Session.start.Balanced := rfl

end balanced

section failing

variable {context : FdContext}

/-- Nothing but the request counters of the context has changed. -/
structure Session.Unchanged (s t : Session) : Prop where
  owned : t.ledger.owned = s.ledger.owned
  opened : t.opened = s.opened
  worlds : t.worlds = s.worlds
  snapshots : t.snapshots = s.snapshots
  replays : t.replays = s.replays

theorem Session.Unchanged.refl (s : Session) : s.Unchanged s := ⟨rfl, rfl, rfl, rfl, rfl⟩

theorem set_same {α : Type} {l : List α} {index : Nat} {a : α} (h : l[index]? = some a) :
    l.set index a = l := by
  obtain ⟨hlt, rfl⟩ := List.getElem?_eq_some_iff.mp h
  exact List.set_getElem_self hlt

theorem unchanged_publishWorld {s : Session} {created : StateM Ledger (Except Fail World)}
    (hcreated : ∀ d, Holds Ledger.owned d created (d.published World.owned)) {failure : Fail}
    (h : (s.publishWorld created).2 = .error failure) :
    s.Unchanged (s.publishWorld created).1 := by
  have hrun := owned_of_holds (hcreated s.ledger.owned)
  unfold Session.publishWorld at h ⊢
  split at h
  · next failure' ledger hresult =>
      rw [hresult] at hrun
      exact ⟨hrun, rfl, rfl, rfl, rfl⟩
  · cases h

theorem unchanged_withContext {s : Session} {message : String} {failure : Fail}
    {call : Session × Except Fail Unit} (hcall : call.2 = .error failure → s.Unchanged call.1)
    (h : (s.withContext message call).2 = .error failure) :
    s.Unchanged (s.withContext message call).1 := by
  unfold Session.withContext at h ⊢
  split
  · next hopened =>
      rw [if_pos hopened] at h
      exact hcall h
  · exact .refl s

/-- An advance that fails changes nothing. -/
theorem advance_error {world : World} (hworld : world.Sound context) {replay : Replay}
    {decisions : UInt64} {out : ReplayStatus} {sameContext : Bool} {s : Ledger} {failure : Fail}
    (h : (fdReplayAdvance context replay world decisions out sameContext s).1.result =
      .error failure) :
    (fdReplayAdvance context replay world decisions out sameContext s).1 =
      ⟨replay, world, out, .error failure⟩ := by
  rcases fdReplayAdvance_cases hworld replay decisions out sameContext s with
    ⟨failure', hcase⟩ | ⟨-, hcase⟩ | ⟨final, -, hcase⟩
  · rw [hcase] at h ⊢
    cases h
    rfl
  · rw [hcase] at h
    cases h
  · rw [hcase] at h
    cases h

/-- A call that fails leaves the counters and every handle as they were. -/
theorem unchanged_call {s : Session} (hfaithful : s.Faithful context) {c : Call} {failure : Fail}
    (h : (s.call context c).2 = .error failure) : s.Unchanged (s.call context c).1 := by
  cases c with
  | generate config seed content out =>
      refine unchanged_withContext (unchanged_publishWorld fun d => ?_) h
      exact holds_map (holds_fdWorldGenerate context d config seed content out) fun _ => rfl
  | load bytes =>
      exact unchanged_withContext (unchanged_publishWorld fun d =>
        holds_fdWorldLoad context d bytes) h
  | createWorld replay =>
      simp only [Session.call] at h ⊢
      split at h
      · exact .refl s
      · exact unchanged_publishWorld (fun d => holds_fdWorldLoad context d _) h
  | step world decision out =>
      simp only [Session.call] at h ⊢
      split at h
      · exact .refl s
      · next live hlive =>
          unfold Session.stepCall at h ⊢
          split at h
          · next next failure' hstep =>
              refine ⟨rfl, rfl, ?_, rfl, rfl⟩
              rw [fdWorldStep_error hstep]
              exact set_same hlive
          · cases h
  | advance replay world decisions out =>
      simp only [Session.call] at h ⊢
      split at h
      · next r live hreplay hlive =>
          have hsound := (hfaithful live (List.mem_of_getElem? hlive)).sound
          have hrun := owned_of_holds
            (holds_fdReplayAdvance context s.ledger.owned r live.world decisions out true)
          have hsame := advance_error hsound h
          refine ⟨hrun, rfl, ?_, rfl, ?_⟩
          · have hplayed : Session.played r ⟨r, live.world, out, .error failure⟩ = [] := by
              simp [Session.played]
            change s.worlds.set world ⟨(fdReplayAdvance context r live.world decisions out true
                s.ledger).1.world, live.origin, live.accepted ++ Session.played r
                  (fdReplayAdvance context r live.world decisions out true s.ledger).1⟩ = s.worlds
            rw [hsame, hplayed, List.append_nil]
            exact set_same hlive
          · change s.replays.set replay (fdReplayAdvance context r live.world decisions out true
              s.ledger).1.replay = s.replays
            rw [hsame]
            exact set_same hreplay
      · exact .refl s
  | buildReplay world decisions capacity =>
      simp only [Session.call] at h ⊢
      split at h
      · exact .refl s
      · next live hlive =>
          exact ⟨owned_of_holds (holds_fdReplayBuild context _ live.world decisions capacity), rfl,
            rfl, rfl, rfl⟩
  | openReplay bytes =>
      refine unchanged_withContext (fun hopen => ?_) h
      have hrun := owned_of_holds (holds_fdReplayOpen context s.ledger.owned bytes)
      unfold Session.openCall at hopen ⊢
      split at hopen
      · next failure' ledger hresult =>
          rw [hresult] at hrun
          exact ⟨hrun, rfl, rfl, rfl, rfl⟩
      · cases hopen
  | createSnapshot world scope viewer =>
      simp only [Session.call] at h ⊢
      split at h
      · exact .refl s
      · next live hlive =>
          have hbounded := (hfaithful live (List.mem_of_getElem? hlive)).sound.bounded
          have hrun := owned_of_holds
            (holds_fdSnapshotCreate context s.ledger.owned hbounded scope viewer)
          unfold Session.snapshotCall at h ⊢
          split at h
          · next failure' ledger hresult =>
              rw [hresult] at hrun
              exact ⟨hrun, rfl, rfl, rfl, rfl⟩
          · cases h
  | destroyWorld world =>
      simp only [Session.call] at h
      split at h <;> cases h
  | destroySnapshot snapshot =>
      simp only [Session.call] at h
      split at h <;> cases h
  | destroyReplay replay =>
      simp only [Session.call] at h
      split at h <;> cases h
  | destroyContext =>
      simp only [Session.call] at h ⊢
      cases hdestroy : fdContextDestroy s.ledger with
      | error busy => split <;> exact .refl s
      | ok _ =>
          simp only [hdestroy] at h
          split at h <;> cases h

end failing

end FrontierDirectorate
