import Mathlib
import FrontierDirectorate.Core.Endian
import FrontierDirectorate.Core.Step
import FrontierDirectorate.Core.Wire

/-!
# Records of the replay format

The wire forms of accepted transitions, submitted decisions and audited
rejections, with their decoders' checks.
-/
namespace FrontierDirectorate
open ByteCodec Checks

abbrev fdReplayRecordWireSize : Nat := 228
abbrev fdReplayAuditWireSize : Nat := 328
/-- `sizeof` of the message array of a diagnostic. -/
abbrev fdDiagMessageBytes : Nat := 160

/-- An accepted transition. -/
structure ReplayRecord where
  tickBefore : UInt64
  tickAfter : UInt64
  decision : JointDecision
  rngDomainCount : UInt32
  preHash : Digest
  postHash : Digest
  eventHash : Digest
deriving DecidableEq

/-- A rejected attempt; `message` holds the `message_length` bytes of the diagnostic. -/
structure ReplayAudit where
  attemptIndex : UInt64
  tick : UInt64
  decision : JointDecision
  result : FdResult
  fieldId : UInt32
  itemIndex : UInt32
  message : List UInt8
deriving DecidableEq

def parametersCodec : Codec (List.Vector UInt32 4) := u32Codec.vector 4

/-- A seat of a record; the headers of its action are not written. -/
def encodeRecordSeat (seat : SeatDecision) : List UInt8 :=
  fdStoreU64Le seat.actorId ++ (fdStoreU32Le seat.action.category ++
    (fdStoreU32Le seat.action.parameterCount ++ parametersCodec.encode seat.action.parameters))

def decodeRecordSeat (p : List UInt8) : SeatDecision where
  actorId := fdLoadU64Le p
  action := {
    structSize := sizeofFdAction
    abiVersion := fdAbiVersion
    category := fdLoadU32Le (p.drop 8)
    parameterCount := fdLoadU32Le (p.drop 12)
    parameters := parametersCodec.decode (p.drop 16) }

/-- The 64 bytes of a record before its seats. -/
def encodeRecordHead (record : ReplayRecord) : List UInt8 :=
  fdStoreU64Le record.tickBefore ++ (fdStoreU64Le record.tickAfter ++
    (fdStoreU64Le record.decision.expectedTick ++
      (record.decision.expectedPreStateSha256.toList ++
        (fdStoreU32Le record.decision.seatCount ++ fdStoreU32Le record.decision.reserved))))

def fdEncodeReplayRecord (record : ReplayRecord) : List UInt8 :=
  encodeRecordHead record ++ (encodeRecordSeat (record.decision.seats.get 0) ++
    (encodeRecordSeat (record.decision.seats.get 1) ++ (record.preHash.toList ++
      (record.postHash.toList ++ (record.eventHash.toList ++
        fdStoreU32Le record.rngDomainCount)))))

/-- The fields of a record, before they are checked. -/
def readReplayRecord (p : List UInt8) : ReplayRecord where
  tickBefore := fdLoadU64Le p
  tickAfter := fdLoadU64Le (p.drop 8)
  decision := {
    structSize := sizeofFdJointDecision
    abiVersion := fdAbiVersion
    expectedTick := fdLoadU64Le (p.drop 16)
    expectedPreStateSha256 := bytesOf 32 (p.drop 24)
    seatCount := fdLoadU32Le (p.drop 56)
    reserved := fdLoadU32Le (p.drop 60)
    seats := ⟨[decodeRecordSeat (p.drop 64), decodeRecordSeat (p.drop 96)], rfl⟩ }
  preHash := bytesOf 32 (p.drop 128)
  postHash := bytesOf 32 (p.drop 160)
  eventHash := bytesOf 32 (p.drop 192)
  rngDomainCount := fdLoadU32Le (p.drop 224)

def fdDecodeReplayRecord (p : List UInt8) (index : Nat) : Except Fail ReplayRecord := do
  let record := readReplayRecord p
  failIf (record.decision.seatCount ≠ fdU01SeatCount ∨ record.decision.reserved ≠ 0 ∨
      record.decision.expectedTick ≠ record.tickBefore ∨ record.rngDomainCount ≠ 0 ∨
      record.decision.expectedPreStateSha256 ≠ record.preHash ∨
      UInt64.ofNat uint64Max - fdOperationalTicks < record.tickBefore ∨
      record.tickBefore % fdOperationalTicks ≠ 0 ∨
      record.tickAfter ≠ record.tickBefore + fdOperationalTicks ∨
      (0 < index ∧ record.tickBefore < fdOperationalTicks))
    (fdDiagSet fdErrFormat fdFieldAction (UInt32.ofNat index) "noncanonical replay decision record")
  .ok record

/-- A seat of a submitted decision, headers included. -/
def encodeSeatWire (seat : SeatDecision) : List UInt8 :=
  fdStoreU64Le seat.actorId ++ (fdStoreU32Le seat.action.structSize ++
    (fdStoreU32Le seat.action.abiVersion ++ (fdStoreU32Le seat.action.category ++
      (fdStoreU32Le seat.action.parameterCount ++ parametersCodec.encode seat.action.parameters))))

def decodeSeatWire (p : List UInt8) : SeatDecision where
  actorId := fdLoadU64Le p
  action := {
    structSize := fdLoadU32Le (p.drop 8)
    abiVersion := fdLoadU32Le (p.drop 12)
    category := fdLoadU32Le (p.drop 16)
    parameterCount := fdLoadU32Le (p.drop 20)
    parameters := parametersCodec.decode (p.drop 24) }

/-- The 56 bytes of a submitted decision before its seats. -/
def encodeJointHead (decision : JointDecision) : List UInt8 :=
  fdStoreU32Le decision.structSize ++ (fdStoreU32Le decision.abiVersion ++
    (fdStoreU32Le decision.seatCount ++ (fdStoreU32Le decision.reserved ++
      (fdStoreU64Le decision.expectedTick ++ decision.expectedPreStateSha256.toList))))

def fdEncodeJointWire (decision : JointDecision) : List UInt8 :=
  encodeJointHead decision ++ (encodeSeatWire (decision.seats.get 0) ++
    encodeSeatWire (decision.seats.get 1))

def fdDecodeJointWire (p : List UInt8) : JointDecision where
  structSize := fdLoadU32Le p
  abiVersion := fdLoadU32Le (p.drop 4)
  seatCount := fdLoadU32Le (p.drop 8)
  reserved := fdLoadU32Le (p.drop 12)
  expectedTick := fdLoadU64Le (p.drop 16)
  expectedPreStateSha256 := bytesOf 32 (p.drop 24)
  seats := ⟨[decodeSeatWire (p.drop 56), decodeSeatWire (p.drop 96)], rfl⟩

/-- The message of a diagnostic, cut to its array. -/
def diagMessage (diagnostic : Fail) : List UInt8 :=
  (asciiBytes diagnostic.message).take (fdDiagMessageBytes - 1)

/-- The audit of a rejected attempt. -/
def auditOf (attemptIndex tick : UInt64) (decision : JointDecision) (diagnostic : Fail) :
    ReplayAudit where
  attemptIndex := attemptIndex
  tick := tick
  decision := decision
  result := diagnostic.code
  fieldId := diagnostic.fieldId
  itemIndex := diagnostic.itemIndex
  message := diagMessage diagnostic

/-- The wire form of an audit: 168 bytes of fields and the zero-filled message array. -/
def ReplayAudit.encode (audit : ReplayAudit) : List UInt8 :=
  fdStoreU64Le audit.attemptIndex ++ (fdStoreU64Le audit.tick ++
    (fdEncodeJointWire audit.decision ++ (fdStoreU32Le audit.result ++
      (fdStoreU32Le audit.fieldId ++ (fdStoreU32Le audit.itemIndex ++
        (fdStoreU32Le (UInt32.ofNat audit.message.length) ++ (audit.message ++
          List.replicate (fdDiagMessageBytes - audit.message.length) 0)))))))

def fdEncodeAudit (attemptIndex tick : UInt64) (decision : JointDecision) (diagnostic : Fail) :
    List UInt8 := (auditOf attemptIndex tick decision diagnostic).encode

def fdReplayResultIsAuditable (result : FdResult) : Bool :=
  result == fdErrInvalidArgument || result == fdErrInvalidSize || result == fdErrOutOfRange ||
    result == fdErrCapacity || result == fdErrInvalidAction

/-- The text of a diagnostic is printable. -/
def printableByte (b : UInt8) : Bool := decide (0x20 ≤ b) && decide (b ≤ 0x7e)

/-- `previous` is the attempt index of the audit before, if there is one. -/
def fdDecodeAudit (p : List UInt8) (totalAttempts : Nat) (previous : Option UInt64) :
    Except Fail ReplayAudit := do
  let attemptIndex := fdLoadU64Le p
  let tick := fdLoadU64Le (p.drop 8)
  let result := fdLoadU32Le (p.drop 152)
  let fieldId := fdLoadU32Le (p.drop 156)
  let messageLength := (fdLoadU32Le (p.drop 164)).toNat
  let item := attemptIndex.toUInt32
  failIf (totalAttempts ≤ attemptIndex.toNat ∨ previous.any (attemptIndex ≤ ·) ∨
      tick % fdOperationalTicks ≠ 0 ∨ ¬ fdReplayResultIsAuditable result ∨
      fdFieldAsciiMessage < fieldId ∨ fdDiagMessageBytes ≤ messageLength)
    (fdDiagSet fdErrFormat fdFieldAction item "noncanonical replay audit record")
  failIf (¬ (slice p 168 messageLength).all printableByte)
    (fdDiagSet fdErrFormat fdFieldAction item "invalid replay audit diagnostic text")
  failIf (¬ (slice p (168 + messageLength) (fdDiagMessageBytes - messageLength)).all (· == 0))
    (fdDiagSet fdErrFormat fdFieldAction item "nonzero replay audit padding")
  .ok {
    attemptIndex := attemptIndex
    tick := tick
    decision := fdDecodeJointWire (p.drop 16)
    result := result
    fieldId := fieldId
    itemIndex := fdLoadU32Le (p.drop 160)
    message := slice p 168 messageLength }

section laws

theorem parametersCodec_width : parametersCodec.width = 16 := rfl

@[simp] theorem parametersCodec_length (parameters : List.Vector UInt32 4) :
    (parametersCodec.encode parameters).length = 16 := parametersCodec.encode_length parameters

@[simp] theorem encodeSeatWire_length (seat : SeatDecision) :
    (encodeSeatWire seat).length = 40 := by simp [encodeSeatWire]

@[simp] theorem encodeRecordSeat_length (seat : SeatDecision) :
    (encodeRecordSeat seat).length = 32 := by simp [encodeRecordSeat]

theorem decodeSeatWire_encodeSeatWire (seat : SeatDecision) (rest : List UInt8) :
    decodeSeatWire (encodeSeatWire seat ++ rest) = seat := by
  simp [encodeSeatWire, decodeSeatWire, parametersCodec.decode_encode]

theorem encodeSeatWire_decodeSeatWire (p : List UInt8) (h : 40 ≤ p.length) :
    encodeSeatWire (decodeSeatWire p) = p.take 40 := by
  have h0 := fdStoreU64Le_load_drop p 0 (by omega)
  have h24 := parametersCodec.encode_decode_drop p 24 (by rw [parametersCodec_width]; omega)
  rw [List.drop_zero] at h0
  rw [parametersCodec_width] at h24
  simp only [encodeSeatWire, decodeSeatWire, h0, h24]
  rw [fdStoreU32Le_load_drop p 8 (by omega), fdStoreU32Le_load_drop p 12 (by omega),
    fdStoreU32Le_load_drop p 16 (by omega), fdStoreU32Le_load_drop p 20 (by omega)]
  simp only [slice_append_slice, Nat.reduceAdd]
  exact slice_zero p _

def seatWireCodec : Codec SeatDecision where
  width := 40
  encode := encodeSeatWire
  decode := decodeSeatWire
  encode_length := encodeSeatWire_length
  decode_encode := decodeSeatWire_encodeSeatWire
  encode_decode := encodeSeatWire_decodeSeatWire

theorem drop_encodeSeatWire (seat : SeatDecision) (rest : List UInt8) :
    (encodeSeatWire seat ++ rest).drop 40 = rest :=
  List.drop_left' (encodeSeatWire_length seat)

@[simp] theorem encodeJointHead_length (decision : JointDecision) :
    (encodeJointHead decision).length = 56 := by simp [encodeJointHead]

theorem fdDecodeJointWire_encode (decision : JointDecision) (rest : List UInt8) :
    fdDecodeJointWire (fdEncodeJointWire decision ++ rest) = decision := by
  have hsplit : fdEncodeJointWire decision ++ rest = encodeJointHead decision ++
      (encodeSeatWire (decision.seats.get 0) ++ (encodeSeatWire (decision.seats.get 1) ++ rest)) := by
    simp only [fdEncodeJointWire, List.append_assoc]
  have h56 : (fdEncodeJointWire decision ++ rest).drop 56 =
      encodeSeatWire (decision.seats.get 0) ++ (encodeSeatWire (decision.seats.get 1) ++ rest) := by
    rw [hsplit]
    exact List.drop_left' (encodeJointHead_length decision)
  have h96 : (fdEncodeJointWire decision ++ rest).drop 96 =
      encodeSeatWire (decision.seats.get 1) ++ rest := by
    have hdrop : ((fdEncodeJointWire decision ++ rest).drop 56).drop 40 =
        (fdEncodeJointWire decision ++ rest).drop 96 := List.drop_drop
    rw [← hdrop, h56, drop_encodeSeatWire]
  simp only [fdDecodeJointWire, h56, h96, decodeSeatWire_encodeSeatWire, pair_eta]
  simp [hsplit, encodeJointHead, bytesOf_append]

theorem fdEncodeJointWire_decode (p : List UInt8) (h : 136 ≤ p.length) :
    fdEncodeJointWire (fdDecodeJointWire p) = p.take 136 := by
  have h0 := fdStoreU32Le_load_drop p 0 (by omega)
  have h24 : (bytesOf 32 (p.drop 24)).toList = slice p 24 32 :=
    toList_bytesOf (by rw [List.length_drop]; omega)
  have h56 : encodeSeatWire (decodeSeatWire (p.drop 56)) = slice p 56 40 :=
    seatWireCodec.encode_decode_drop p 56 (by change 56 + 40 ≤ _; omega)
  have h96 : encodeSeatWire (decodeSeatWire (p.drop 96)) = slice p 96 40 :=
    seatWireCodec.encode_decode_drop p 96 (by change 96 + 40 ≤ _; omega)
  rw [List.drop_zero] at h0
  simp only [fdEncodeJointWire, encodeJointHead, fdDecodeJointWire, pair_get_zero, pair_get_one,
    h0, h24, h56, h96]
  rw [fdStoreU32Le_load_drop p 4 (by omega), fdStoreU32Le_load_drop p 8 (by omega),
    fdStoreU32Le_load_drop p 12 (by omega), fdStoreU64Le_load_drop p 16 (by omega)]
  simp only [slice_append_slice, Nat.reduceAdd]
  exact slice_zero p _

/-- Submitted decisions travel whole, headers included. -/
def jointWireCodec : Codec JointDecision where
  width := 136
  encode := fdEncodeJointWire
  decode := fdDecodeJointWire
  encode_length decision := by simp [fdEncodeJointWire]
  decode_encode := fdDecodeJointWire_encode
  encode_decode := fdEncodeJointWire_decode

theorem encodeRecordSeat_decodeRecordSeat (p : List UInt8) (h : 32 ≤ p.length) :
    encodeRecordSeat (decodeRecordSeat p) = p.take 32 := by
  have h0 := fdStoreU64Le_load_drop p 0 (by omega)
  have h16 := parametersCodec.encode_decode_drop p 16 (by rw [parametersCodec_width]; omega)
  rw [List.drop_zero] at h0
  rw [parametersCodec_width] at h16
  simp only [encodeRecordSeat, decodeRecordSeat, h0, h16]
  rw [fdStoreU32Le_load_drop p 8 (by omega), fdStoreU32Le_load_drop p 12 (by omega)]
  simp only [slice_append_slice, Nat.reduceAdd]
  exact slice_zero p _

theorem encodeRecordSeat_drop (p : List UInt8) (k : Nat) (h : k + 32 ≤ p.length) :
    encodeRecordSeat (decodeRecordSeat (p.drop k)) = slice p k 32 :=
  encodeRecordSeat_decodeRecordSeat _ (by rw [List.length_drop]; omega)

/-- A seat comes back with the headers every record has. -/
theorem decodeRecordSeat_encodeRecordSeat (seat : SeatDecision) (rest : List UInt8) :
    decodeRecordSeat (encodeRecordSeat seat ++ rest) = { seat with action := seat.action.staged } := by
  simp [encodeRecordSeat, decodeRecordSeat, parametersCodec.decode_encode, Action.staged]

@[simp] theorem encodeRecordHead_length (record : ReplayRecord) :
    (encodeRecordHead record).length = 64 := by simp [encodeRecordHead]

@[simp] theorem fdEncodeReplayRecord_length (record : ReplayRecord) :
    (fdEncodeReplayRecord record).length = fdReplayRecordWireSize := by
  simp [fdEncodeReplayRecord]

/-- A decision as records carry it. -/
theorem JointDecision.staged_eq (decision : JointDecision) :
    decision.staged = { decision with
      structSize := sizeofFdJointDecision
      abiVersion := fdAbiVersion
      seats := ⟨[{ decision.seats.get 0 with action := (decision.seats.get 0).action.staged },
        { decision.seats.get 1 with action := (decision.seats.get 1).action.staged }], rfl⟩ } := by
  rw [JointDecision.staged]
  congr 1
  match decision.seats with
  | ⟨[_, _], _⟩ => rfl

theorem readReplayRecord_encode (record : ReplayRecord) (rest : List UInt8) :
    readReplayRecord (fdEncodeReplayRecord record ++ rest) =
      { record with decision := record.decision.staged } := by
  obtain ⟨tail, htail⟩ : ∃ tail, tail = record.preHash.toList ++ (record.postHash.toList ++
    (record.eventHash.toList ++ (fdStoreU32Le record.rngDomainCount ++ rest))) := ⟨_, rfl⟩
  have hsplit : fdEncodeReplayRecord record ++ rest = encodeRecordHead record ++
      (encodeRecordSeat (record.decision.seats.get 0) ++
        (encodeRecordSeat (record.decision.seats.get 1) ++ tail)) := by
    simp only [fdEncodeReplayRecord, List.append_assoc, htail]
  generalize fdEncodeReplayRecord record ++ rest = bytes at hsplit
  have h64 : bytes.drop 64 = encodeRecordSeat (record.decision.seats.get 0) ++
      (encodeRecordSeat (record.decision.seats.get 1) ++ tail) := by
    rw [hsplit]
    exact List.drop_left' (encodeRecordHead_length record)
  have h96 : bytes.drop 96 = encodeRecordSeat (record.decision.seats.get 1) ++ tail := by
    have hdrop : (bytes.drop 64).drop 32 = bytes.drop 96 := List.drop_drop
    rw [← hdrop, h64]
    exact List.drop_left' (encodeRecordSeat_length _)
  have h128 : bytes.drop 128 = tail := by
    have hdrop : (bytes.drop 96).drop 32 = bytes.drop 128 := List.drop_drop
    rw [← hdrop, h96]
    exact List.drop_left' (encodeRecordSeat_length _)
  have h160 : bytes.drop 160 = tail.drop 32 := by rw [← h128, List.drop_drop]
  have h192 : bytes.drop 192 = (tail.drop 32).drop 32 := by rw [← h160, List.drop_drop]
  have h224 : bytes.drop 224 = ((tail.drop 32).drop 32).drop 32 := by rw [← h192, List.drop_drop]
  have hskip : ∀ (d : Digest) (q : List UInt8), (d.toList ++ q).drop 32 = q :=
    fun d q => List.drop_left' d.toList_length
  have hskip4 : ∀ (d : Digest) (q : List UInt8), (d.toList ++ q).drop 36 = q.drop 4 :=
    fun d q => drop_toList d q 4
  simp only [readReplayRecord, h64, h96, h128, h160, h192, h224, htail, hskip, bytesOf_append,
    fdLoadU32Le_store, decodeRecordSeat_encodeRecordSeat, JointDecision.staged_eq]
  simp [hsplit, encodeRecordHead, bytesOf_append, hskip4]

theorem fdEncodeReplayRecord_read (p : List UInt8) (h : 228 ≤ p.length) :
    fdEncodeReplayRecord (readReplayRecord p) = p.take 228 := by
  have h0 := fdStoreU64Le_load_drop p 0 (by omega)
  have hdigest : ∀ k, k + 32 ≤ 228 → (bytesOf 32 (p.drop k)).toList = slice p k 32 := by
    intro k hk
    exact toList_bytesOf (by rw [List.length_drop]; omega)
  rw [List.drop_zero] at h0
  simp only [fdEncodeReplayRecord, encodeRecordHead, readReplayRecord, pair_get_zero, pair_get_one,
    h0, hdigest 24 (by omega), hdigest 128 (by omega), hdigest 160 (by omega),
    hdigest 192 (by omega), encodeRecordSeat_drop p 64 (by omega),
    encodeRecordSeat_drop p 96 (by omega)]
  rw [fdStoreU64Le_load_drop p 8 (by omega), fdStoreU64Le_load_drop p 16 (by omega),
    fdStoreU32Le_load_drop p 56 (by omega), fdStoreU32Le_load_drop p 60 (by omega),
    fdStoreU32Le_load_drop p 224 (by omega)]
  simp only [slice_append_slice, Nat.reduceAdd]
  exact slice_zero p _

/-- What the decoder demands of an audit. -/
structure ReplayAudit.WellFormed (audit : ReplayAudit) (totalAttempts : Nat)
    (previous : Option UInt64) : Prop where
  index : audit.attemptIndex.toNat < totalAttempts
  order : ¬ previous.any (audit.attemptIndex ≤ ·)
  tick : audit.tick % fdOperationalTicks = 0
  auditable : fdReplayResultIsAuditable audit.result = true
  field : audit.fieldId ≤ fdFieldAsciiMessage
  short : audit.message.length < fdDiagMessageBytes
  text : audit.message.all printableByte = true

/-- The fixed part of an audit in front of its message. -/
def ReplayAudit.encodeHead (audit : ReplayAudit) : List UInt8 :=
  fdStoreU64Le audit.attemptIndex ++ (fdStoreU64Le audit.tick ++
    (fdEncodeJointWire audit.decision ++ (fdStoreU32Le audit.result ++
      (fdStoreU32Le audit.fieldId ++ (fdStoreU32Le audit.itemIndex ++
        fdStoreU32Le (UInt32.ofNat audit.message.length))))))

@[simp] theorem fdEncodeJointWire_length (decision : JointDecision) :
    (fdEncodeJointWire decision).length = 136 := jointWireCodec.encode_length decision

@[simp] theorem ReplayAudit.encodeHead_length (audit : ReplayAudit) :
    audit.encodeHead.length = 168 := by simp [ReplayAudit.encodeHead]

theorem ReplayAudit.encode_eq (audit : ReplayAudit) : audit.encode = audit.encodeHead ++
    (audit.message ++ List.replicate (fdDiagMessageBytes - audit.message.length) 0) := by
  simp only [ReplayAudit.encode, ReplayAudit.encodeHead, List.append_assoc]

theorem ReplayAudit.encode_length {audit : ReplayAudit}
    (h : audit.message.length < 160) :
    audit.encode.length = fdReplayAuditWireSize := by
  have hsum : 168 + (audit.message.length + (160 - audit.message.length)) = 328 := by omega
  rw [audit.encode_eq]
  simp only [List.length_append, encodeHead_length, List.length_replicate]
  exact hsum

/-- The fields in front of the message, read back. -/
theorem ReplayAudit.read_encodeHead (audit : ReplayAudit) (rest : List UInt8) :
    fdLoadU64Le (audit.encodeHead ++ rest) = audit.attemptIndex ∧
      fdLoadU64Le ((audit.encodeHead ++ rest).drop 8) = audit.tick ∧
      fdDecodeJointWire ((audit.encodeHead ++ rest).drop 16) = audit.decision ∧
      fdLoadU32Le ((audit.encodeHead ++ rest).drop 152) = audit.result ∧
      fdLoadU32Le ((audit.encodeHead ++ rest).drop 156) = audit.fieldId ∧
      fdLoadU32Le ((audit.encodeHead ++ rest).drop 160) = audit.itemIndex ∧
      fdLoadU32Le ((audit.encodeHead ++ rest).drop 164) =
        UInt32.ofNat audit.message.length := by
  obtain ⟨tail, htail⟩ : ∃ tail, tail = fdStoreU32Le audit.result ++
    (fdStoreU32Le audit.fieldId ++ (fdStoreU32Le audit.itemIndex ++
      (fdStoreU32Le (UInt32.ofNat audit.message.length) ++ rest))) := ⟨_, rfl⟩
  have hsplit : audit.encodeHead ++ rest = fdStoreU64Le audit.attemptIndex ++
      (fdStoreU64Le audit.tick ++ (fdEncodeJointWire audit.decision ++ tail)) := by
    simp only [ReplayAudit.encodeHead, List.append_assoc, htail]
  generalize audit.encodeHead ++ rest = bytes at hsplit
  have h16 : bytes.drop 16 = fdEncodeJointWire audit.decision ++ tail := by
    rw [hsplit]
    simp
  have h152 : bytes.drop 152 = tail := by
    have hdrop : (bytes.drop 16).drop 136 = bytes.drop 152 := List.drop_drop
    rw [← hdrop, h16]
    exact List.drop_left' (fdEncodeJointWire_length audit.decision)
  have h156 : bytes.drop 156 = tail.drop 4 := by rw [← h152, List.drop_drop]
  have h160 : bytes.drop 160 = tail.drop 8 := by rw [← h152, List.drop_drop]
  have h164 : bytes.drop 164 = tail.drop 12 := by rw [← h152, List.drop_drop]
  refine ⟨by rw [hsplit, fdLoadU64Le_store], by simp [hsplit], ?_, ?_, ?_, ?_, ?_⟩
  · rw [h16, fdDecodeJointWire_encode]
  · rw [h152, htail, fdLoadU32Le_store]
  · simp [h156, htail]
  · simp [h160, htail]
  · simp [h164, htail]

theorem fdDecodeAudit_encode {audit : ReplayAudit} {totalAttempts : Nat} {previous : Option UInt64}
    (h : audit.WellFormed totalAttempts previous) (rest : List UInt8) :
    fdDecodeAudit (audit.encode ++ rest) totalAttempts previous = .ok audit := by
  have hlength : (UInt32.ofNat audit.message.length).toNat = audit.message.length := by
    have hshort : audit.message.length < 160 := h.short
    rw [UInt32.toNat_ofNat']
    exact Nat.mod_eq_of_lt (by omega)
  have hsplit : audit.encode ++ rest = audit.encodeHead ++ (audit.message ++
      (List.replicate (fdDiagMessageBytes - audit.message.length) 0 ++ rest)) := by
    rw [audit.encode_eq]
    simp only [List.append_assoc]
  rw [hsplit]
  obtain ⟨hindex, htick, hdecision, hresult, hfield, hitem, hcount⟩ :=
    audit.read_encodeHead (audit.message ++
      (List.replicate (fdDiagMessageBytes - audit.message.length) 0 ++ rest))
  generalize hbytes : audit.encodeHead ++ (audit.message ++
    (List.replicate (fdDiagMessageBytes - audit.message.length) 0 ++ rest)) = bytes at *
  have h168 : bytes.drop 168 = audit.message ++
      (List.replicate (fdDiagMessageBytes - audit.message.length) 0 ++ rest) := by
    rw [← hbytes]
    exact List.drop_left' audit.encodeHead_length
  have hmessage : slice bytes 168 audit.message.length = audit.message := by
    rw [slice, h168, List.take_left]
  have hpadding : slice bytes (168 + audit.message.length)
      (fdDiagMessageBytes - audit.message.length) =
        List.replicate (fdDiagMessageBytes - audit.message.length) 0 := by
    rw [slice, ← List.drop_drop, h168, List.drop_left]
    exact List.take_left' (by rw [List.length_replicate])
  unfold fdDecodeAudit
  simp only [hindex, htick, hdecision, hresult, hfield, hitem, hcount, hlength, hmessage, hpadding]
  rw [failIf_bind_of_not, failIf_bind_of_not, failIf_bind_of_not]
  · simp [List.all_replicate]
  · rw [not_not]
    exact h.text
  · simp only [not_or, not_le, not_not, UInt32.not_lt]
    exact ⟨h.index, h.order, h.tick, h.auditable, h.field, h.short⟩

theorem eq_replicate_of_all_zero {p : List UInt8} (h : p.all (· == 0) = true) :
    p = List.replicate p.length 0 := by
  refine List.eq_replicate_iff.mpr ⟨rfl, ?_⟩
  simpa only [List.all_eq_true, beq_iff_eq] using h

/-- Every byte of an accepted audit is pinned. -/
theorem fdDecodeAudit_eq_ok {p : List UInt8} {audit : ReplayAudit} {totalAttempts : Nat}
    {previous : Option UInt64} (hp : 328 ≤ p.length)
    (h : fdDecodeAudit p totalAttempts previous = .ok audit) :
    audit.WellFormed totalAttempts previous ∧ audit.encode = p.take 328 := by
  simp only [fdDecodeAudit, failIf_bind_eq_ok, not_or, not_not, not_le] at h
  obtain ⟨⟨hindex, horder, htick, hauditable, hfield, hshort⟩, htext, hpadding, hresult⟩ := h
  have hsmall : (fdLoadU32Le (p.drop 164)).toNat < 160 := hshort
  have hmessage : (slice p 168 (fdLoadU32Le (p.drop 164)).toNat).length =
      (fdLoadU32Le (p.drop 164)).toNat := by
    rw [slice_length]
    omega
  cases hresult
  refine ⟨⟨hindex, horder, htick, hauditable, UInt32.not_lt.mp hfield, ?_, htext⟩, ?_⟩
  · simp only [hmessage]
    exact hshort
  · have hzero := eq_replicate_of_all_zero hpadding
    have hlength : (slice p (168 + (fdLoadU32Le (p.drop 164)).toNat)
        (160 - (fdLoadU32Le (p.drop 164)).toNat)).length =
          160 - (fdLoadU32Le (p.drop 164)).toNat := by
      rw [slice_length]
      omega
    rw [hlength] at hzero
    have h0 := fdStoreU64Le_load_drop p 0 (by omega)
    rw [List.drop_zero] at h0
    have h16 : fdEncodeJointWire (fdDecodeJointWire (p.drop 16)) = slice p 16 136 :=
      jointWireCodec.encode_decode_drop p 16 (by change 16 + 136 ≤ _; omega)
    simp only [ReplayAudit.encode, hmessage, UInt32.ofNat_toNat, ← hzero, h0, h16]
    rw [fdStoreU64Le_load_drop p 8 (by omega), fdStoreU32Le_load_drop p 152 (by omega),
      fdStoreU32Le_load_drop p 156 (by omega), fdStoreU32Le_load_drop p 160 (by omega),
      fdStoreU32Le_load_drop p 164 (by omega)]
    simp only [slice_append_slice, Nat.reduceAdd]
    have hrest : 8 + (8 + (136 + (4 + (4 + (4 + (4 + ((fdLoadU32Le (p.drop 164)).toNat +
        (160 - (fdLoadU32Le (p.drop 164)).toNat)))))))) = 328 := by omega
    rw [hrest, slice_zero]

end laws

end FrontierDirectorate
