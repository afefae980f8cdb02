import Mathlib
import FrontierDirectorate.Cpp.WrapperReplays

/-!
# Programs that use the wrapper

What holds of the objects of a program between two calls. Every call keeps it, and one
that fails changes nothing but the room in a vector.
-/
namespace FrontierDirectorate.Cpp
open Accounting Checks Unwinding

section histories

variable {host : Host} {state : WorldState}

/-- A history that fits a vector has few enough decisions for the records of its replay. -/
theorem WorldState.Stored.memory (h : state.Stored host) :
    state.decisions.length * 256 ≤ uint64Max := by
  have hroom := h.room
  have hfits := h.fits
  have hhost : host.maxDecisions * 136 < 9223372036854775808 := host.fits
  change state.decisions.length * 256 ≤ 18446744073709551615
  omega

/-- The history of a world leads from its initial save to it. -/
structure WorldState.Exact (host : Host) (state : WorldState) : Prop where
  sound : state.world.Sound host.context
  stored : state.Stored host
  played : ∃ first, LoadsTo host.context state.initialSave first ∧
    Plays first state.decisions state.world.reloaded

theorem WorldState.Fresh.exact (h : state.Fresh host) : state.Exact host where
  sound := h.sound
  stored := by
    constructor
    · rw [h.decisions]
      exact Nat.zero_le _
    · rw [h.capacity]
      exact Nat.zero_le _
  played := by
    refine ⟨state.world.reloaded, h.source, ?_⟩
    rw [h.decisions]
    exact .nil _

/-- The initial save loads to one world only. -/
theorem WorldState.Exact.plays (h : state.Exact host) {first : World}
    (hloads : LoadsTo host.context state.initialSave first) :
    Plays first state.decisions state.world.reloaded := by
  obtain ⟨origin, horigin, hplays⟩ := h.played
  obtain rfl := hloads.unique horigin
  exact hplays

theorem WorldState.Exact.grow (h : state.Exact host) {capacity : Nat}
    (hroomy : Roomy host state 0 capacity) :
    WorldState.Exact host { state with capacity := capacity } :=
  ⟨h.sound, ⟨hroomy.room, hroomy.fits⟩, h.played⟩

/-- Decisions that the world has played are stored behind its history. -/
theorem WorldState.Exact.play (h : state.Exact host) {decisions : List JointDecision} {last : World}
    {capacity : Nat} (hplays : Plays state.world decisions last)
    (hroomy : Roomy host state decisions.length capacity) :
    WorldState.Exact host { state with
      world := last
      decisions := state.decisions ++ decisions
      capacity := capacity } where
  sound := hplays.sound h.sound
  stored := by
    refine ⟨?_, hroomy.fits⟩
    rw [List.length_append]
    exact hroomy.room
  played := by
    obtain ⟨first, hloads, hplayed⟩ := h.played
    exact ⟨first, hloads, hplayed.append hplays.reloaded⟩

end histories

section books

variable {host : Host} {g : Holdings} {state later : WorldState} {replay : Replay} {index : Nat}

/-- The bytes that all objects own. -/
def Holdings.bytes (g : Holdings) : Nat :=
  (g.worlds.map fun state => state.world.bytes).sum + (g.snapshots.map Snapshot.bytes).sum +
    (g.replays.map Replay.bytes).sum

def Holdings.handles (g : Holdings) : Nat :=
  g.worlds.length + g.snapshots.length + g.replays.length

theorem references_eq (g : Holdings) :
    g.references = (if g.context then 1 else 0) + g.handles := by
  rw [Holdings.references, Holdings.handles]
  omega

/-- Exact histories, and counters that show what the objects own. -/
structure Holdings.Booked (host : Host) (g : Holdings) : Prop where
  exact : ∀ state ∈ g.worlds, state.Exact host
  counted : ∀ replay ∈ g.replays, replay.Counted
  balanced : g.owned = Owned.ofNat g.bytes g.handles

/-- The shared state is gone when its last owner is, and not before. -/
structure Holdings.Sound (host : Host) (g : Holdings) : Prop extends g.Booked host where
  shared : g.released = true ↔ g.references = 0

theorem Holdings.Sound.live (h : g.Sound host) : g.Live host :=
  fun state hstate => ⟨(h.exact state hstate).sound, (h.exact state hstate).stored⟩

theorem Holdings.Sound.bounded (h : g.Sound host) :
    ∀ state ∈ g.worlds[index]?, state.world.Bounded :=
  fun state hstate => (h.exact state (List.mem_of_getElem? hstate)).sound.bounded

theorem Holdings.Sound.held (h : g.Sound host) (hshared : 0 < g.references) :
    g.released = false := by
  rw [Bool.eq_false_iff]
  intro hreleased
  have hzero := h.shared.mp hreleased
  omega

/-- One more object, and the counters show what it owns. -/
theorem Holdings.Sound.publish (h : g.Sound host) (hshared : 0 < g.references) {g' : Holdings}
    {cost : Owned} {size : Nat} (hexact : ∀ state ∈ g'.worlds, state.Exact host)
    (hcounted : ∀ replay ∈ g'.replays, replay.Counted) (howned : g'.owned = g.owned + cost)
    (hcost : cost = Owned.ofNat size 1) (hbytes : g'.bytes = g.bytes + size)
    (hhandles : g'.handles = g.handles + 1) (hreleased : g'.released = g.released) :
    g'.Sound host := by
  refine ⟨⟨hexact, hcounted, ?_⟩, iff_of_false ?_ ?_⟩
  · rw [howned, h.balanced, hcost, hbytes, hhandles, Owned.ofNat_add]
  · rw [hreleased, h.held hshared]
    exact Bool.false_ne_true
  · rw [references_eq, hhandles]
    exact Nat.succ_ne_zero _

theorem Holdings.Sound.addWorld (h : g.Sound host) (hexact : state.Exact host)
    (hshared : 0 < g.references) :
    Holdings.Sound host { g.plus state.world.owned with worlds := g.worlds ++ [state] } := by
  refine h.publish hshared ?_ h.counted rfl state.world.owned_eq ?_ ?_ rfl
  · intro other hother
    rcases List.mem_append.mp hother with hold | hnew
    · exact h.exact other hold
    · rw [List.mem_singleton.mp hnew]
      exact hexact
  · simp only [Holdings.bytes, Holdings.plus, List.map_append, List.sum_append, List.map_cons,
      List.map_nil, List.sum_cons, List.sum_nil]
    omega
  · simp only [Holdings.handles, Holdings.plus, List.length_append, List.length_singleton]
    omega

theorem Holdings.Sound.addSnapshot (h : g.Sound host) (snapshot : Snapshot)
    (hshared : 0 < g.references) :
    Holdings.Sound host { g.plus snapshot.owned with snapshots := g.snapshots ++ [snapshot] } := by
  refine h.publish hshared h.exact h.counted rfl snapshot.owned_eq ?_ ?_ rfl
  · simp only [Holdings.bytes, Holdings.plus, List.map_append, List.sum_append, List.map_cons,
      List.map_nil, List.sum_cons, List.sum_nil]
    omega
  · simp only [Holdings.handles, Holdings.plus, List.length_append, List.length_singleton]
    omega

theorem Holdings.Sound.addReplay (h : g.Sound host) (hcounted : replay.Counted)
    (hshared : 0 < g.references) :
    Holdings.Sound host { g.plus replay.owned with replays := g.replays ++ [replay] } := by
  refine h.publish hshared h.exact ?_ rfl replay.owned_eq ?_ ?_ rfl
  · intro other hother
    rcases List.mem_append.mp hother with hold | hnew
    · exact h.counted other hold
    · rw [List.mem_singleton.mp hnew]
      exact hcounted
  · simp only [Holdings.bytes, Holdings.plus, List.map_append, List.sum_append, List.map_cons,
      List.map_nil, List.sum_cons, List.sum_nil]
    omega
  · simp only [Holdings.handles, Holdings.plus, List.length_append, List.length_singleton]
    omega

/-- Objects exchanged for others of the same sizes. -/
theorem Holdings.Sound.keep (h : g.Sound host) {g' : Holdings}
    (hexact : ∀ state ∈ g'.worlds, state.Exact host)
    (hcounted : ∀ replay ∈ g'.replays, replay.Counted) (howned : g'.owned = g.owned)
    (hbytes : g'.bytes = g.bytes) (hhandles : g'.handles = g.handles)
    (hcontext : g'.context = g.context) (hreleased : g'.released = g.released) :
    g'.Sound host := by
  refine ⟨⟨hexact, hcounted, ?_⟩, ?_⟩
  · rw [howned, h.balanced, hbytes, hhandles]
  · rw [hreleased, references_eq, hcontext, hhandles, ← references_eq]
    exact h.shared

theorem Holdings.Sound.setWorld (h : g.Sound host) (hstate : g.worlds[index]? = some state)
    (hexact : later.Exact host) (hsize : later.world.bytes = state.world.bytes) :
    (g.setWorld index later).Sound host := by
  have hsizes : (g.worlds.set index later).map (fun state => state.world.bytes) =
      g.worlds.map fun state => state.world.bytes :=
    map_set_of_eq (fun state : WorldState => state.world.bytes) hstate hsize
  refine h.keep ?_ h.counted rfl ?_ ?_ rfl rfl
  · intro other hother
    rcases List.mem_or_eq_of_mem_set hother with hold | rfl
    · exact h.exact other hold
    · exact hexact
  · simp only [Holdings.bytes, Holdings.setWorld, hsizes]
  · simp only [Holdings.handles, Holdings.setWorld, List.length_set]

theorem Holdings.Sound.setReplay (h : g.Sound host) {later : Replay}
    (hreplay : g.replays[index]? = some replay) (hcounted : later.Counted)
    (hsize : later.bytes = replay.bytes) : (g.setReplay index later).Sound host := by
  have hsizes : (g.replays.set index later).map Replay.bytes = g.replays.map Replay.bytes :=
    map_set_of_eq Replay.bytes hreplay hsize
  refine h.keep h.exact ?_ rfl ?_ ?_ rfl rfl
  · intro other hother
    rcases List.mem_or_eq_of_mem_set hother with hold | rfl
    · exact h.counted other hold
    · exact hcounted
  · simp only [Holdings.bytes, Holdings.setReplay, hsizes]
  · simp only [Holdings.handles, Holdings.setReplay, List.length_set]

/-- Worlds as they are apart from the room in their vectors. -/
def Holdings.withoutRoom (g : Holdings) : Holdings :=
  { g with worlds := g.worlds.map fun state => { state with capacity := 0 } }

theorem Regrown.withoutRoom {g' : Holdings} (h : Regrown host g index g') :
    g'.withoutRoom = g.withoutRoom := by
  rcases h with rfl | ⟨state, capacity, hstate, -, rfl⟩
  · rfl
  · have hworlds : (g.worlds.set index { state with capacity := capacity }).map
        (fun state => { state with capacity := 0 }) =
          g.worlds.map fun state => { state with capacity := 0 } :=
      map_set_of_eq (b := { state with capacity := capacity })
        (fun state : WorldState => { state with capacity := 0 }) hstate rfl
    exact congrArg (fun worlds => { g with worlds := worlds }) hworlds

theorem Holdings.Sound.regrown (h : g.Sound host) {g' : Holdings} (hregrown : Regrown host g index g') :
    g'.Sound host := by
  rcases hregrown with rfl | ⟨state, capacity, hstate, hroomy, rfl⟩
  · exact h
  · exact h.setWorld hstate ((h.exact state (List.mem_of_getElem? hstate)).grow hroomy) rfl

theorem Holdings.Sound.stepped (h : g.Sound host) {out : StepResult} {g' : Holdings}
    (hstepped : Stepped host g index out g') : g'.Sound host := by
  obtain ⟨state, capacity, hstate, hroomy, haccepts, -, rfl⟩ := hstepped
  have hexact := h.exact state (List.mem_of_getElem? hstate)
  exact h.setWorld hstate (hexact.play haccepts.plays hroomy) rfl

theorem bytes_after (world : World) (steps : Nat) : (world.after steps).bytes = world.bytes := by
  rw [← world.after_commit steps]
  rfl

theorem Holdings.Sound.played (h : g.Sound host) {replayIndex worldIndex : Nat} {decisions : UInt64}
    {out : ReplayStatus} {g' : Holdings} (hplayed : Played host g replayIndex worldIndex decisions out g') :
    g'.Sound host := by
  obtain ⟨replay, state, capacity, hreplay, hstate, hroomy, hplays, -, rfl⟩ := hplayed
  have hcounted := h.counted replay (List.mem_of_getElem? hreplay)
  have hexact := h.exact state (List.mem_of_getElem? hstate)
  rw [← nextDecisions_length] at hroomy
  have hmoved : Replay.Counted { replay with
      cursor := replay.cursor + replay.stride decisions } := by
    refine ⟨?_, hcounted.bound⟩
    have hcursor := hcounted.cursor
    simp only [Replay.stride]
    omega
  exact (h.setReplay hreplay hmoved rfl).setWorld hstate (hexact.play hplays hroomy)
    (bytes_after state.world _)

end books

section drops

variable {host : Host} {p : Program}

/-- The last owner finds the context without live handles. -/
theorem sound_dropReference (h : p.holdings.Booked host) (hheld : p.released = false) :
    p.dropReference.holdings.Sound host := by
  unfold Program.dropReference
  split
  · next hzero =>
      have hnone : p.holdings.handles = 0 := by
        unfold Program.references at hzero
        change p.worlds.length + p.snapshots.length + p.replays.length = 0
        omega
      have hbooks := congrArg Prod.snd h.balanced
      rw [hnone] at hbooks
      rw [fdContextDestroy_eq_ok hbooks]
      exact ⟨⟨h.exact, h.counted, h.balanced⟩, iff_of_true rfl hzero⟩
  · next hmore =>
      refine ⟨h, iff_of_false ?_ hmore⟩
      change p.released ≠ true
      rw [hheld]
      exact Bool.false_ne_true

theorem sound_dropContext (h : p.holdings.Sound host) : p.dropContext.holdings.Sound host := by
  unfold Program.dropContext
  split
  · next hcontext =>
      have hheld := h.held (references_of_context (g := p.holdings) hcontext)
      exact sound_dropReference ⟨h.exact, h.counted, h.balanced⟩ hheld
  · exact h

theorem sound_dropWorld (h : p.holdings.Sound host) (index : Nat) :
    (p.dropWorld index).holdings.Sound host := by
  unfold Program.dropWorld
  split
  · exact h
  · next state hstate =>
      have hheld := h.held (references_of_world (g := p.holdings) hstate)
      have hsum := sum_eraseIdx (fun state : WorldState => state.world.bytes) hstate
      have hlength := List.length_eraseIdx_add_one (List.getElem?_eq_some_iff.mp hstate).1
      refine sound_dropReference ⟨?_, h.counted, ?_⟩ hheld
      · exact fun other hother => h.exact other (List.mem_of_mem_eraseIdx hother)
      · refine owned_release (fun d => holds_fdWorldDestroy d state.world) state.world.owned_eq
          (h.balanced.trans (congrArg _ ?_)) ?_
        · change p.worlds.length + p.snapshots.length + p.replays.length =
            (p.worlds.eraseIdx index).length + p.snapshots.length + p.replays.length + 1
          omega
        · simp only [Holdings.bytes, Program.holdings]
          omega

theorem sound_dropSnapshot (h : p.holdings.Sound host) (index : Nat) :
    (p.dropSnapshot index).holdings.Sound host := by
  unfold Program.dropSnapshot
  split
  · exact h
  · next snapshot hsnapshot =>
      have hshared : 0 < p.holdings.references := by
        have hpos := List.length_pos_of_mem (List.mem_of_getElem? hsnapshot)
        change 0 < _ + p.worlds.length + p.snapshots.length + p.replays.length
        omega
      have hsum := sum_eraseIdx Snapshot.bytes hsnapshot
      have hlength := List.length_eraseIdx_add_one (List.getElem?_eq_some_iff.mp hsnapshot).1
      refine sound_dropReference ⟨h.exact, h.counted, ?_⟩ (h.held hshared)
      refine owned_release (fun d => holds_fdSnapshotDestroy d snapshot) snapshot.owned_eq
        (h.balanced.trans (congrArg _ ?_)) ?_
      · change p.worlds.length + p.snapshots.length + p.replays.length =
          p.worlds.length + (p.snapshots.eraseIdx index).length + p.replays.length + 1
        omega
      · simp only [Holdings.bytes, Program.holdings]
        omega

theorem sound_dropReplay (h : p.holdings.Sound host) (index : Nat) :
    (p.dropReplay index).holdings.Sound host := by
  unfold Program.dropReplay
  split
  · exact h
  · next replay hreplay =>
      have hheld := h.held (references_of_replay (g := p.holdings) hreplay)
      have hsum := sum_eraseIdx Replay.bytes hreplay
      have hlength := List.length_eraseIdx_add_one (List.getElem?_eq_some_iff.mp hreplay).1
      refine sound_dropReference ⟨h.exact, ?_, ?_⟩ hheld
      · exact fun other hother => h.counted other (List.mem_of_mem_eraseIdx hother)
      · refine owned_release (fun d => holds_fdReplayDestroy d replay) replay.owned_eq
          (h.balanced.trans (congrArg _ ?_)) ?_
        · change p.worlds.length + p.snapshots.length + p.replays.length =
            p.worlds.length + p.snapshots.length + (p.replays.eraseIdx index).length + 1
          omega
        · simp only [Holdings.bytes, Program.holdings]
          omega

end drops

section calls

variable {host : Host} {p q : Program}

/-- The program goes on with sound objects, and a failure has changed no more than the room in a
vector. -/
def Survives (host : Host) (p : Program) (outcome : Option (Program × Except Fail Unit)) : Prop :=
  ∃ q result, outcome = some (q, result) ∧ q.holdings.Sound host ∧
    ∀ failure, result = .error failure → q.holdings.withoutRoom = p.holdings.withoutRoom

theorem survives_perform {α : Type} {body : Proc (Except Fail α)} {keep : α → Program → Program}
    {E : Fail → Holdings → Prop} {P : α → Holdings → Prop}
    (h : Ends Program.holdings p.holdings body (Caught E P))
    (herror : ∀ failure g, E failure g → g.Sound host ∧ g.withoutRoom = p.holdings.withoutRoom)
    (hok : ∀ value q, P value q.holdings → (keep value q).holdings.Sound host) :
    Survives host p (p.perform body keep) := by
  have hend := h p rfl
  unfold Program.perform
  rcases hbody : body p with ⟨e | failure | value, q⟩
  · rw [hbody] at hend
    exact hend.elim
  · rw [hbody] at hend
    obtain ⟨hsound, hsame⟩ := herror failure _ hend
    exact ⟨q, .error failure, rfl, hsound, fun _ _ => hsame⟩
  · rw [hbody] at hend
    refine ⟨keep value q, .ok (), rfl, hok value q hend, ?_⟩
    intro failure hfailure
    cases hfailure

theorem survives_drop (h : q.holdings.Sound host) : Survives host p (some (q, .ok ())) := by
  refine ⟨q, .ok (), rfl, h, ?_⟩
  intro failure hfailure
  cases hfailure

theorem sound_addWorld (h : p.holdings.Sound host) {state : WorldState}
    (hq : q.holdings = p.holdings.plus state.world.owned ∧ state.Fresh host ∧
      0 < p.holdings.references) : (Program.addWorld state q).holdings.Sound host := by
  obtain ⟨hview, hfresh, hshared⟩ := hq
  have hsound := h.addWorld hfresh.exact hshared
  change Holdings.Sound host { q.holdings with worlds := q.holdings.worlds ++ [state] }
  rw [hview]
  exact hsound

theorem sound_addSnapshot (h : p.holdings.Sound host) {snapshot : Snapshot}
    (hq : q.holdings = p.holdings.plus snapshot.owned ∧ 0 < p.holdings.references) :
    (Program.addSnapshot snapshot q).holdings.Sound host := by
  obtain ⟨hview, hshared⟩ := hq
  have hsound := h.addSnapshot snapshot hshared
  change Holdings.Sound host { q.holdings with snapshots := q.holdings.snapshots ++ [snapshot] }
  rw [hview]
  exact hsound

theorem sound_addReplay (h : p.holdings.Sound host) {replay : Replay}
    (hq : q.holdings = p.holdings.plus replay.owned ∧ replay.Counted ∧ 0 < p.holdings.references) :
    (Program.addReplay replay q).holdings.Sound host := by
  obtain ⟨hview, hcounted, hshared⟩ := hq
  have hsound := h.addReplay hcounted hshared
  change Holdings.Sound host { q.holdings with replays := q.holdings.replays ++ [replay] }
  rw [hview]
  exact hsound

/-- One call. -/
theorem call_survives (h : p.holdings.Sound host) (c : Call) : Survives host p (p.call host c) := by
  have hsame : ∀ g, g = p.holdings →
      g.Sound host ∧ g.withoutRoom = p.holdings.withoutRoom := by
    rintro _ rfl
    exact ⟨h, rfl⟩
  have hregrown : ∀ index g, Regrown host p.holdings index g →
      g.Sound host ∧ g.withoutRoom = p.holdings.withoutRoom :=
    fun index g hg => ⟨h.regrown hg, hg.withoutRoom⟩
  cases c with
  | generate config seed content =>
      exact survives_perform (ends_generate config seed content) (fun _ => hsame)
        fun _ _ => sound_addWorld h
  | load bytes =>
      exact survives_perform (ends_load bytes) (fun _ => hsame) fun _ _ => sound_addWorld h
  | openReplay bytes =>
      exact survives_perform (ends_openReplay bytes) (fun _ => hsame) fun _ _ => sound_addReplay h
  | createWorld replay =>
      exact survives_perform (ends_createWorld replay) (fun _ => hsame) fun _ _ => sound_addWorld h
  | referenceSnapshot world =>
      exact survives_perform (ends_referenceSnapshot h.bounded) (fun _ => hsame)
        fun _ _ => sound_addSnapshot h
  | save world =>
      exact survives_perform (ends_save h.bounded) (fun _ => hsame) fun _ q hq => (hsame _ hq).1
  | stepExplicitPass world =>
      exact survives_perform (ends_stepExplicitPass h.live world)
        (fun _ g hg => hregrown world g hg.1) fun _ _ => h.stepped
  | buildReplay world attempts =>
      exact survives_perform (ends_buildReplay world attempts) (fun _ g hg => hsame g hg.1)
        fun _ q hq => (hsame _ hq.1).1
  | advance replay world decisions =>
      exact survives_perform (ends_advance h.live h.counted replay world decisions)
        (fun _ => hregrown world) fun _ _ => h.played
  | advanceForeign replay world decisions =>
      exact survives_perform (ends_advanceForeign h.live replay world decisions)
        (fun _ => hregrown world) fun _ _ hq => hq.elim
  | dropContext => exact survives_drop (sound_dropContext h)
  | dropWorld world => exact survives_drop (sound_dropWorld h world)
  | dropSnapshot snapshot => exact survives_drop (sound_dropSnapshot h snapshot)
  | dropReplay replay => exact survives_drop (sound_dropReplay h replay)

theorem sound_start (host : Host) : Program.start.holdings.Sound host := by
  have hshared : Program.start.holdings.references = 1 := rfl
  refine ⟨⟨?_, ?_, rfl⟩, ?_⟩
  · intro state hstate
    cases hstate
  · intro replay hreplay
    cases hreplay
  · rw [hshared]
    exact iff_of_false Bool.false_ne_true one_ne_zero

/-- Every program gets through all of its calls. -/
theorem run_sound (h : p.holdings.Sound host) (calls : List Call) :
    ∃ q, p.run host calls = some q ∧ q.holdings.Sound host := by
  induction calls generalizing p with
  | nil => exact ⟨p, rfl, h⟩
  | cons c calls ih =>
      obtain ⟨next, result, hcall, hnext, -⟩ := call_survives h c
      obtain ⟨q, hrun, hq⟩ := ih hnext
      refine ⟨q, ?_, hq⟩
      rw [Program.run, hcall]
      exact hrun

end calls

end FrontierDirectorate.Cpp
