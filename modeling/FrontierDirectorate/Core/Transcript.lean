import Mathlib
import FrontierDirectorate.Core.Clock
import FrontierDirectorate.Core.Play
import FrontierDirectorate.Core.ReplayOpen

/-!
# Transcripts

What running a list of attempts from a world says about each of them, and the
re-execution of an opened replay against it.
-/
namespace FrontierDirectorate
open Checks

/-- The record of the step from a world. -/
def World.passRecord (world : World) : ReplayRecord := recordOf (acceptedResult world world.pass)

/-- The entries of a list of attempts: the accepted ones with their positions, the rejected ones,
and the world they lead to. -/
structure Transcript where
  world : World
  records : List ReplayRecord
  positions : List Nat
  audits : List ReplayAudit

def Transcript.accept (t : Transcript) (index : Nat) (record : ReplayRecord) : Transcript :=
  { t with records := record :: t.records, positions := index :: t.positions }

def Transcript.reject (t : Transcript) (audit : ReplayAudit) : Transcript :=
  { t with audits := audit :: t.audits }

/-- The attempts from the one numbered `index` on, each given to the step of the core. -/
def transcript (world : World) (index : Nat) : List JointDecision → Transcript
  | [] => ⟨world, [], [], []⟩
  | decision :: rest =>
    match fdWorldStep world decision stepOut with
    | (next, .ok step) => (transcript next (index + 1) rest).accept index (recordOf step)
    | (next, .error failure) => (transcript next (index + 1) rest).reject
        (auditOf (UInt64.ofNat index) next.tick decision failure)

section steps

variable {world : World} {decision : JointDecision}

theorem pass_staged (world : World) : world.pass.staged = world.pass := rfl

/-- An accepted decision is the pass of its world, up to the sizes its headers announce. -/
theorem staged_eq_pass (h : StepAccepts world decision) : decision.staged = world.pass := by
  have hjoint := h.joint
  have hseats : decision.seats.map (fun seat => { seat with action := seat.action.staged }) =
      world.pass.seats := by
    refine List.Vector.ext fun seat => ?_
    have hparameters : (decision.seats.get seat).action.parameters = List.Vector.replicate 4 0 := by
      refine List.Vector.ext fun index => ?_
      rw [hjoint.parameters seat index, List.Vector.get_replicate]
    rw [List.Vector.get_map, World.pass, List.Vector.get_ofFn, Action.staged, hjoint.actor seat,
      hjoint.category seat, hjoint.parameterCount seat, hparameters]
  rw [JointDecision.staged, hseats, hjoint.seatCount, hjoint.reserved, hjoint.tick, hjoint.hash]
  rfl

theorem recordOf_accepted (h : StepAccepts world decision) :
    recordOf (acceptedResult world decision) = world.passRecord := by
  have hrecord : recordOf (acceptedResult world decision) =
      { world.passRecord with decision := decision.staged } := rfl
  rw [hrecord, staged_eq_pass h]
  rfl

/-- The staged form is accepted where the submitted one is. -/
theorem pass_accepts (h : StepAccepts world decision) : StepAccepts world world.pass where
  joint := by
    constructor <;> simp [World.pass, fdInputStructValid, fdOutputStructValid,
      JointDecision.header, Action.header, -List.Vector.replicate_succ]
  clock := h.clock
  valid := h.valid

theorem transcript_of_refused (hvalid : world.Valid) {failure : Fail}
    (h : stepRefusal world decision = some failure) (index : Nat) (rest : List JointDecision) :
    transcript world index (decision :: rest) = (transcript world (index + 1) rest).reject
      (auditOf (UInt64.ofNat index) world.tick decision failure) := by
  rw [transcript, fdWorldStep_of_valid hvalid, h]

theorem transcript_of_accepted (hvalid : world.Valid) (h : stepRefusal world decision = none)
    (index : Nat) (rest : List JointDecision) : transcript world index (decision :: rest) =
      (transcript (stepWorld world) (index + 1) rest).accept index world.passRecord := by
  rw [transcript, fdWorldStep_of_valid hvalid, h]
  simp only [recordOf_accepted ((stepRefusal_eq_none_iff hvalid).mp h)]

/-- Steps taken one after the other, with their records. -/
inductive PassRun : World → List ReplayRecord → World → Prop
  | nil (world : World) : PassRun world [] world
  | cons {world last : World} {records : List ReplayRecord}
      (clock : world.tick ≤ UInt64.ofNat uint64Max - fdOperationalTicks)
      (rest : PassRun (stepWorld world) records last) :
      PassRun world (world.passRecord :: records) last

/-- Facts about every transcript, by one induction over the attempts. -/
theorem transcript_passRun (hvalid : world.Valid) (index : Nat) (decisions : List JointDecision) :
    PassRun world (transcript world index decisions).records
      (transcript world index decisions).world := by
  induction decisions generalizing world index with
  | nil => exact .nil world
  | cons decision rest ih =>
      cases h : stepRefusal world decision with
      | some failure =>
          rw [transcript_of_refused hvalid h]
          exact ih hvalid (index + 1)
      | none =>
          rw [transcript_of_accepted hvalid h]
          exact .cons ((stepRefusal_eq_none_iff hvalid).mp h).clock
            (ih (valid_stepWorld hvalid) (index + 1))

/-- Every attempt is a record or an audit, and its position is the one it has in the list. -/
theorem transcript_positions (hvalid : world.Valid) (index : Nat) (decisions : List JointDecision)
    (hbound : index + decisions.length ≤ 18446744073709551616) :
    (transcript world index decisions).positions.length =
        (transcript world index decisions).records.length ∧
      ((transcript world index decisions).positions ++
        (transcript world index decisions).audits.map (·.attemptIndex.toNat)).Perm
          (List.range' index decisions.length) := by
  induction decisions generalizing world index with
  | nil => exact ⟨rfl, List.Perm.refl _⟩
  | cons decision rest ih =>
      rw [List.length_cons] at hbound
      rw [List.length_cons, List.range'_succ]
      cases h : stepRefusal world decision with
      | some failure =>
          obtain ⟨hlength, hperm⟩ := ih hvalid (index + 1) (by omega)
          have hindex : (UInt64.ofNat index).toNat = index :=
            UInt64.toNat_ofNat_of_lt' (by rw [UInt64.size]; omega)
          rw [transcript_of_refused hvalid h]
          refine ⟨hlength, ?_⟩
          simp only [Transcript.reject, List.map_cons, auditOf, hindex]
          exact List.perm_middle.trans (hperm.cons index)
      | none =>
          obtain ⟨hlength, hperm⟩ := ih (valid_stepWorld hvalid) (index + 1) (by omega)
          rw [transcript_of_accepted hvalid h]
          refine ⟨congrArg (· + 1) hlength, ?_⟩
          exact hperm.cons index

end steps

section merge

variable {world last : World}

/-- The audits of the attempts from `index` on name no earlier one. -/
theorem transcript_audit_index (hvalid : world.Valid) (index : Nat) (decisions : List JointDecision)
    (hbound : index + decisions.length ≤ 18446744073709551616) :
    ∀ audit ∈ (transcript world index decisions).audits, index ≤ audit.attemptIndex.toNat := by
  intro audit haudit
  obtain ⟨-, hperm⟩ := transcript_positions hvalid index decisions hbound
  have hmem := hperm.subset (List.mem_append_right _
    (List.mem_map_of_mem (f := fun a : ReplayAudit => a.attemptIndex.toNat) haudit))
  exact (List.mem_range'_1.mp hmem).1

/-- A transcript passes the re-execution and is consumed by it. -/
theorem merge_transcript (hvalid : world.Valid) (index : Nat) (decisions : List JointDecision)
    (hbound : index + decisions.length ≤ 18446744073709551616) :
    forEach (List.range' index decisions.length) mergeAttempt
      ⟨world, (transcript world index decisions).records,
        (transcript world index decisions).audits⟩ =
      .ok ⟨(transcript world index decisions).world, [], []⟩ := by
  induction decisions generalizing world index with
  | nil => rfl
  | cons decision rest ih =>
      rw [List.length_cons] at hbound
      rw [List.length_cons, List.range'_succ, forEach_cons]
      cases h : stepRefusal world decision with
      | some failure =>
          have hrest := ih hvalid (index + 1) (by omega)
          have hindex : (UInt64.ofNat index).toNat = index :=
            UInt64.toNat_ofNat_of_lt' (by rw [UInt64.size]; omega)
          have hstep : mergeAttempt ⟨world, (transcript world index (decision :: rest)).records,
              (transcript world index (decision :: rest)).audits⟩ index =
              .ok ⟨world, (transcript world (index + 1) rest).records,
                (transcript world (index + 1) rest).audits⟩ := by
            rw [transcript_of_refused hvalid h]
            simp only [Transcript.reject, mergeAttempt, ReplayMerge.nextAudit, auditOf, hindex,
              if_true, mergeAudit, fdWorldStep_of_valid hvalid, h]
            rw [failIf_bind_of_not (by simp)]
          rw [hstep, ok_bind, hrest, transcript_of_refused hvalid h]
          rfl
      | none =>
          have haccepts := (stepRefusal_eq_none_iff hvalid).mp h
          have hnext := valid_stepWorld hvalid
          have hrest := ih hnext (index + 1) (by omega)
          have hlater : ReplayMerge.nextAudit ⟨world,
              (transcript world index (decision :: rest)).records,
              (transcript world index (decision :: rest)).audits⟩ index = none := by
            have hindices := transcript_audit_index hnext (index + 1) rest (by omega)
            rw [transcript_of_accepted hvalid h]
            simp only [Transcript.accept, ReplayMerge.nextAudit]
            cases haudits : (transcript (stepWorld world) (index + 1) rest).audits with
            | nil => rfl
            | cons audit audits =>
                have hge := hindices audit (by rw [haudits]; exact List.mem_cons_self)
                exact if_neg (by omega)
          have hpass := (stepRefusal_eq_none_iff hvalid).mpr (pass_accepts haccepts)
          have hstep : mergeAttempt ⟨world, (transcript world index (decision :: rest)).records,
              (transcript world index (decision :: rest)).audits⟩ index =
              .ok ⟨stepWorld world, (transcript (stepWorld world) (index + 1) rest).records,
                (transcript (stepWorld world) (index + 1) rest).audits⟩ := by
            have hdecision : world.passRecord.decision = world.pass := pass_staged world
            simp only [mergeAttempt, hlater]
            rw [transcript_of_accepted hvalid h]
            simp only [Transcript.accept, mergeRecord, hdecision, fdWorldStep_of_valid hvalid, hpass]
            rw [failIf_bind_of_not, failIf_bind_of_not]
            · simp only [not_or, not_not]
              exact ⟨rfl, rfl, rfl⟩
            · simp only [not_or, not_not]
              exact ⟨rfl, rfl⟩
          rw [hstep, ok_bind, hrest, transcript_of_accepted hvalid h]
          rfl

/-- The attempts of an opened replay: the audits at their attempt numbers, the records in the
remaining places. -/
def mergeDecisions : (n index : Nat) → List ReplayRecord → List ReplayAudit → List JointDecision
  | 0, _, _, _ => []
  | n + 1, index, records, audit :: audits =>
      if audit.attemptIndex.toNat = index then
        audit.decision :: mergeDecisions n (index + 1) records audits
      else
        match records with
        | [] => []
        | record :: records =>
            record.decision :: mergeDecisions n (index + 1) records (audit :: audits)
  | n + 1, index, record :: records, [] =>
      record.decision :: mergeDecisions n (index + 1) records []
  | _ + 1, _, [], [] => []

/-- What the decoder demands of a record besides its chain. -/
structure ReplayRecord.Canonical (record : ReplayRecord) : Prop where
  staged : record.decision.staged = record.decision
  rngDomainCount : record.rngDomainCount = 0

/-- The audits from the one numbered `index` on were tried after as many accepted attempts as
their tick says. -/
def Chronological : Nat → List ReplayAudit → Prop
  | _, [] => True
  | index, audit :: audits =>
      audit.tick.toNat = (audit.attemptIndex.toNat - index) * 24 ∧ Chronological (index + 1) audits

theorem mergeAudit_eq_ok (hvalid : world.Valid) {s t : ReplayMerge} (hworld : s.world = world)
    {index : Nat} {audit : ReplayAudit} {audits : List ReplayAudit}
    (h : mergeAudit s index audit audits = .ok t) :
    ∃ failure, stepRefusal world audit.decision = some failure ∧
      failure.code = audit.result ∧ failure.fieldId = audit.fieldId ∧
      failure.itemIndex = audit.itemIndex ∧ diagMessage failure = audit.message ∧
      t = ⟨world, s.records, audits⟩ := by
  unfold mergeAudit at h
  simp only [hworld, fdWorldStep_of_valid hvalid] at h
  cases hrefusal : stepRefusal world audit.decision with
  | none =>
      simp only [hrefusal] at h
      cases h
  | some failure =>
      simp only [hrefusal] at h
      obtain ⟨hsame, hnext⟩ := failIf_bind_eq_ok.mp h
      simp only [not_or, not_not] at hsame
      obtain ⟨hcode, hfield, hitem, -, hmessage, -, -⟩ := hsame
      cases hnext
      exact ⟨failure, rfl, hcode, hfield, hitem, hmessage, rfl⟩

theorem mergeRecord_eq_ok (hvalid : world.Valid) {s t : ReplayMerge} (hworld : s.world = world)
    {index : Nat} (hcanonical : ∀ record ∈ s.records, record.Canonical)
    (h : mergeRecord s index = .ok t) :
    ∃ records, s.records = world.passRecord :: records ∧
      StepAccepts world world.pass ∧ t = ⟨stepWorld world, records, s.audits⟩ := by
  unfold mergeRecord at h
  cases hrecords : s.records with
  | nil =>
      simp only [hrecords] at h
      cases h
  | cons record records =>
      simp only [hrecords, hworld] at h
      obtain ⟨hbefore, h⟩ := failIf_bind_eq_ok.mp h
      simp only [not_or, not_not, fdWorldStep_of_valid hvalid] at hbefore h
      cases hrefusal : stepRefusal world record.decision with
      | some failure =>
          simp only [hrefusal] at h
          cases h
      | none =>
          simp only [hrefusal] at h
          obtain ⟨hafter, hnext⟩ := failIf_bind_eq_ok.mp h
          simp only [not_or, not_not] at hafter
          have haccepts := (stepRefusal_eq_none_iff hvalid).mp hrefusal
          have hrecord := hcanonical record (by rw [hrecords]; exact List.mem_cons_self)
          have hdecision : record.decision = world.pass := by
            rw [← hrecord.staged, staged_eq_pass haccepts]
          have hsame : record = world.passRecord := by
            obtain ⟨tickBefore, tickAfter, decision, rngDomainCount, preHash, postHash, eventHash⟩ :=
              record
            obtain ⟨htick, hpre⟩ := hbefore
            obtain ⟨hnextTick, hpost, hevent⟩ := hafter
            have hrng := hrecord.rngDomainCount
            simp only at htick hpre hnextTick hpost hevent hrng hdecision
            rw [htick, hnextTick, hdecision, hrng, hpre, hpost, hevent]
            rfl
          cases hnext
          exact ⟨records, by rw [hsame], pass_accepts haccepts, rfl⟩

/-- What the re-execution accepts is a transcript: neither list can hold anything else. -/
theorem transcript_of_merge (n index first : Nat) {records : List ReplayRecord}
    {audits : List ReplayAudit} (hvalid : world.Valid) (hfirst : first ≤ index)
    (hclock : world.tick.toNat = (index - first) * 24)
    (hbound : index + n ≤ 18446744073709551616)
    (hcanonical : ∀ record ∈ records, record.Canonical) (hchronological : Chronological first audits)
    (h : forEach (List.range' index n) mergeAttempt ⟨world, records, audits⟩ =
      .ok ⟨last, [], []⟩) :
    (mergeDecisions n index records audits).length = n ∧
      (transcript world index (mergeDecisions n index records audits)).world = last ∧
      (transcript world index (mergeDecisions n index records audits)).records = records ∧
      (transcript world index (mergeDecisions n index records audits)).audits = audits := by
  induction n generalizing world index first records audits with
  | zero =>
      cases h
      exact ⟨rfl, rfl, rfl, rfl⟩
  | succ n ih =>
      rw [List.range'_succ, forEach_cons] at h
      obtain ⟨t, ht, hrest⟩ := bind_eq_ok.mp h
      -- an accepted attempt, when the next audit is not about it
      have hrecord : mergeRecord ⟨world, records, audits⟩ index = .ok t →
          (∀ record later, records = record :: later → mergeDecisions (n + 1) index records audits =
            record.decision :: mergeDecisions n (index + 1) later audits) →
          (mergeDecisions (n + 1) index records audits).length = n + 1 ∧
          (transcript world index (mergeDecisions (n + 1) index records audits)).world = last ∧
          (transcript world index (mergeDecisions (n + 1) index records audits)).records = records ∧
          (transcript world index (mergeDecisions (n + 1) index records audits)).audits = audits := by
        intro ht hmerged
        obtain ⟨later, hrecords, haccepts, rfl⟩ := mergeRecord_eq_ok hvalid rfl hcanonical ht
        change records = _ at hrecords
        have hnext : (stepWorld world).tick.toNat = world.tick.toNat + 24 := tick_add haccepts.clock
        obtain ⟨hlength, hworld, hlater, haudits⟩ := ih (index + 1) first (valid_stepWorld hvalid)
          (by omega) (by omega) (by omega)
          (fun record h => hcanonical record (by rw [hrecords]; exact List.mem_cons_of_mem _ h))
          hchronological hrest
        rw [hmerged _ later hrecords, show world.passRecord.decision = world.pass from rfl,
          transcript_of_accepted hvalid ((stepRefusal_eq_none_iff hvalid).mpr haccepts)]
        refine ⟨congrArg (· + 1) hlength, hworld, ?_, haudits⟩
        rw [hrecords]
        exact congrArg (world.passRecord :: ·) hlater
      cases audits with
      | nil =>
          refine hrecord ht fun record later hrecords => ?_
          rw [hrecords]
          rfl
      | cons audit later =>
          by_cases hindex : audit.attemptIndex.toNat = index
          · have haudit : mergeAudit ⟨world, records, audit :: later⟩ index audit later = .ok t := by
              simp only [mergeAttempt, ReplayMerge.nextAudit, if_pos hindex] at ht
              exact ht
            obtain ⟨failure, hrefused, hcode, hfield, hitem, hmessage, rfl⟩ :=
              mergeAudit_eq_ok hvalid rfl haudit
            obtain ⟨htick, hchronological⟩ := hchronological
            have hsame : auditOf (UInt64.ofNat index) world.tick audit.decision failure = audit := by
              obtain ⟨attemptIndex, tick, decision, result, fieldId, itemIndex, message⟩ := audit
              simp only at hindex htick hcode hfield hitem hmessage
              rw [hindex, ← hclock] at htick
              rw [← hindex, UInt64.ofNat_toNat, ← UInt64.toNat_inj.mp htick, auditOf, hcode, hfield,
                hitem, hmessage]
            obtain ⟨hlength, hworld, hrecords, haudits⟩ := ih (index + 1) (first + 1) hvalid
              (by omega) (by rw [hclock]; congr 1; omega) (by omega) hcanonical hchronological hrest
            have hmerged : mergeDecisions (n + 1) index records (audit :: later) =
                audit.decision :: mergeDecisions n (index + 1) records later := by
              cases records <;> exact if_pos hindex
            rw [hmerged, transcript_of_refused hvalid hrefused, hsame]
            exact ⟨congrArg (· + 1) hlength, hworld, hrecords, congrArg (audit :: ·) haudits⟩
          · have hnone : mergeRecord ⟨world, records, audit :: later⟩ index = .ok t := by
              simp only [mergeAttempt, ReplayMerge.nextAudit, if_neg hindex] at ht
              exact ht
            refine hrecord hnone fun record rest hrecords => ?_
            rw [hrecords]
            exact if_neg hindex

end merge

end FrontierDirectorate
