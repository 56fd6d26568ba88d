import Syncons.BigEndian
import Syncons.WireFormat

/-! The header in three codecs: the beat that the transmit engine builds, the reads of the
receive engine, and the bytes that the simulation's packer writes and unpacks. -/
namespace Syncons
open BitFields
open BigEndian

namespace HeaderCodec

section Reads

def rd16 (d : BitVec 512) (off : Nat) : BitVec 16 := readBytes d off 2
def rd32 (d : BitVec 512) (off : Nat) : BitVec 32 := readBytes d off 4
def rd64 (d : BitVec 512) (off : Nat) : BitVec 64 := readBytes d off 8

def readHeader (d : BitVec 512) : Header where
  nodeId := byteAt d ssrOffNodeId
  row := byteAt d ssrOffRow
  runId := rd32 d ssrOffRunId
  roundId := rd64 d ssrOffRoundId
  length := rd16 d ssrOffLength

def wireBytes (d : BitVec 512) : List Byte := octets d 0 64

end Reads

section Packer

-- The arguments of `struct.pack("!BBIQH", ...)`.
structure Fields where
  nodeId : Nat
  row : Nat
  runId : Nat
  roundId : Nat
  length : Nat
  deriving DecidableEq, Repr

inductive PackError where
  | structError | assertionError
  deriving DecidableEq, Repr

def ethertype : Nat := 0x88B5
def headerUsedBytes : Nat := 30
def headerBeatBytes : Nat := 64

def encodeConsensusHeader (f : Fields) : Except PackError (List Byte) :=
  if f.nodeId < 2 ^ 8 ∧ f.row < 2 ^ 8 ∧ f.runId < 2 ^ 32 ∧ f.roundId < 2 ^ 64 ∧ f.length < 2 ^ 16 then
    .ok (toBytes 1 f.nodeId ++ toBytes 1 f.row ++ toBytes 4 f.runId ++ toBytes 8 f.roundId ++
      toBytes 2 f.length)
  else .error .structError

def encodeHeaderBeat (dstMac srcMac : List Byte) (f : Fields) : Except PackError (List Byte) := do
  let beat := dstMac ++ srcMac ++ toBytes 2 ethertype ++ (← encodeConsensusHeader f)
  if beat.length = headerUsedBytes then
    .ok (beat ++ List.replicate (headerBeatBytes - headerUsedBytes) 0)
  else .error .assertionError

def decodeConsensusHeader (raw : List Byte) : Except PackError Fields :=
  if raw.length = 16 then
    .ok ⟨fromBytes (raw.take 1),fromBytes ((raw.drop 1).take 1),fromBytes ((raw.drop 2).take 4),
      fromBytes ((raw.drop 6).take 8),fromBytes ((raw.drop 14).take 2)⟩
  else .error .structError

def fieldsOf (h : Header) : Fields :=
  ⟨h.nodeId.toNat,h.row.toNat,h.runId.toNat,h.roundId.toNat,h.length.toNat⟩

def macBytes (mac : BitVec 48) : List Byte := toBytes 6 mac.toNat

end Packer

/- The bytes around the fields are those that the encoders write. -/
structure Enveloped (dstMac srcMac : BitVec 48) (d : BitVec 512) : Prop where
  dstMac : field d (8 * 0) (8 * 6) = be48 dstMac
  srcMac : field d (8 * 6) (8 * 6) = be48 srcMac
  ethertype : field d (8 * 12) (8 * 2) = be16 ssrEthertype
  reserved : field d (8 * 30) (8 * 34) = 0

section Codec
variable {dstMac srcMac : BitVec 48} {h : Header} {d d' : BitVec 512}

theorem enveloped (dstMac srcMac : BitVec 48) (h : Header) :
    Enveloped dstMac srcMac (headerBits dstMac srcMac h) := by
  have fields := headerFields dstMac srcMac h
  refine ⟨?_,?_,fields.ethertype,fields.reserved⟩
  · simp only [headerBits,ssrOffDstMac,ssrOffSrcMac,ssrOffEthertype,ssrOffNodeId,ssrOffRow,ssrOffRunId,
      ssrOffRoundId,ssrOffLength]
    repeat rw [fieldPutOther (by omega) (by omega)]
    exact fieldPut (by omega)
  · simp only [headerBits,ssrOffDstMac,ssrOffSrcMac,ssrOffEthertype,ssrOffNodeId,ssrOffRow,ssrOffRunId,
      ssrOffRoundId,ssrOffLength]
    repeat rw [fieldPutOther (by omega) (by omega)]
    exact fieldPut (by omega)

theorem readField {o k : Nat} {v : BitVec (8 * k)} (written : field d (8 * o) (8 * k) = swapBytes k v) :
    readBytes d o k = v := by
  rw [readSwapped,written,swapTwice]

theorem readWritten (h : Header) : readHeader (headerBits dstMac srcMac h) = h := by
  have fields := headerFields dstMac srcMac h
  have runId : rd32 (headerBits dstMac srcMac h) ssrOffRunId = h.runId := readField (k := 4) fields.runId
  have roundId : rd64 (headerBits dstMac srcMac h) ssrOffRoundId = h.roundId :=
    readField (k := 8) fields.roundId
  have length : rd16 (headerBits dstMac srcMac h) ssrOffLength = h.length :=
    readField (k := 2) fields.length
  simp only [readHeader,runId,roundId,length]
  rw [show byteAt (headerBits dstMac srcMac h) ssrOffNodeId = h.nodeId from fields.nodeId,
    show byteAt (headerBits dstMac srcMac h) ssrOffRow = h.row from fields.row]

theorem wireSplit (d : BitVec 512) : wireBytes d =
    octets d 0 6 ++ octets d 6 6 ++ octets d 12 2 ++ octets d 14 16 ++ octets d 30 34 := by
  rw [← octetsAppend d 0 6 6,← octetsAppend d 0 12 2,← octetsAppend d 0 14 16,← octetsAppend d 0 30 34]
  rfl

theorem consensusSplit (d : BitVec 512) : octets d 14 16 =
    octets d 14 1 ++ octets d 15 1 ++ octets d 16 4 ++ octets d 20 8 ++ octets d 28 2 := by
  rw [← octetsAppend d 14 1 1,← octetsAppend d 14 2 4,← octetsAppend d 14 6 8,← octetsAppend d 14 14 2]

-- The packer writes the field bytes of a beat from the fields that are read of it.
theorem packed (d : BitVec 512) :
    encodeConsensusHeader (fieldsOf (readHeader d)) = .ok (octets d 14 16) := by
  have bounded : (readHeader d).nodeId.toNat < 2 ^ 8 ∧ (readHeader d).row.toNat < 2 ^ 8 ∧
      (readHeader d).runId.toNat < 2 ^ 32 ∧ (readHeader d).roundId.toNat < 2 ^ 64 ∧
      (readHeader d).length.toNat < 2 ^ 16 :=
    ⟨BitVec.isLt _,BitVec.isLt _,BitVec.isLt _,BitVec.isLt _,BitVec.isLt _⟩
  have single : ∀ o, octets d o 1 = toBytes 1 (byteAt d o).toNat := by
    intro o
    simp [octets,toBytes]
  rw [encodeConsensusHeader,fieldsOf,if_pos bounded,consensusSplit,single,single,octetsRead,octetsRead,
    octetsRead]
  rfl

theorem unpacked (d : BitVec 512) :
    decodeConsensusHeader (((wireBytes d).drop 14).take 16) = .ok (fieldsOf (readHeader d)) := by
  have single : ∀ o, fromBytes (octets d o 1) = (byteAt d o).toNat := by
    intro o
    simp [octets,fromBytes]
  rw [wireBytes,octetsDrop d 0 (by decide),octetsTake d _ (by decide),decodeConsensusHeader,
    if_pos (octetsLength ..)]
  simp only [octetsDrop d _ (show 1 ≤ 16 by decide),octetsDrop d _ (show 2 ≤ 16 by decide),
    octetsDrop d _ (show 6 ≤ 16 by decide),octetsDrop d _ (show 14 ≤ 16 by decide),
    octetsTake d _ (show 1 ≤ 16 by decide),octetsTake d _ (show 1 ≤ 15 by decide),
    octetsTake d _ (show 4 ≤ 14 by decide),octetsTake d _ (show 8 ≤ 10 by decide),
    octetsTake d _ (show 2 ≤ 2 by decide),single,readSegment,Nat.zero_add]
  rfl

theorem octetsZero {o k : Nat} (zero : field d (8 * o) (8 * k) = 0) :
    octets d o k = List.replicate k 0 := by
  have swapped : swapBytes k 0 = 0 := by
    apply bytesZero
    intro j inside
    rw [swapByte inside,byteAt,fieldZero]
  have read : readBytes d o k = 0 := readField (zero.trans swapped.symm)
  have none : (readBytes d o k).toNat = 0 := (congrArg BitVec.toNat read).trans BitVec.toNat_zero
  rw [octetsRead,none]
  exact toBytesZero k

theorem encoded (envelope : Enveloped dstMac srcMac d) :
    encodeHeaderBeat (macBytes dstMac) (macBytes srcMac) (fieldsOf (readHeader d)) = .ok (wireBytes d) := by
  have dst : octets d 0 6 = macBytes dstMac := by
    rw [octetsRead,readField (k := 6) envelope.dstMac]
    rfl
  have src : octets d 6 6 = macBytes srcMac := by
    rw [octetsRead,readField (k := 6) envelope.srcMac]
    rfl
  have type : octets d 12 2 = toBytes 2 ethertype := by
    rw [octetsRead,readField (k := 2) envelope.ethertype]
    rfl
  have lengths : (octets d 0 6 ++ octets d 6 6 ++ octets d 12 2 ++ octets d 14 16).length =
      headerUsedBytes := by
    simp [octetsLength,headerUsedBytes]
  rw [encodeHeaderBeat,packed,← dst,← src,← type]
  simp only [bind,Except.bind]
  rw [if_pos lengths,wireSplit,octetsZero envelope.reserved]
  rfl

theorem wireInjective (same : wireBytes d = wireBytes d') : d = d' := by
  have whole : ∀ d : BitVec 512, field d (8 * 0) (8 * 64) = d := by
    intro d
    apply BitVec.eq_of_getLsbD_eq
    intro i bound
    rw [fieldGet]
    simp [bound]
  have numbers := congrArg fromBytes same
  rw [wireBytes,wireBytes,readSegment,readSegment] at numbers
  have words := BitVec.eq_of_toNat_eq numbers
  rw [readSwapped,readSwapped,whole,whole] at words
  have back := congrArg (swapBytes 64) words
  rwa [swapTwice,swapTwice] at back

theorem rebuilt (envelope : Enveloped dstMac srcMac d) : headerBits dstMac srcMac (readHeader d) = d := by
  have own := encoded (enveloped dstMac srcMac (readHeader d))
  rw [readWritten,encoded envelope] at own
  exact (wireInjective (Except.ok.inj own)).symm

theorem headerCodecs (dstMac srcMac : BitVec 48) (h : Header) :
    encodeHeaderBeat (macBytes dstMac) (macBytes srcMac) (fieldsOf h) =
      .ok (wireBytes (headerBits dstMac srcMac h)) ∧
    readHeader (headerBits dstMac srcMac h) = h ∧
    rd16 (headerBits dstMac srcMac h) ssrOffEthertype = ssrEthertype ∧
    decodeConsensusHeader (((wireBytes (headerBits dstMac srcMac h)).drop 14).take 16) =
      .ok (fieldsOf h) ∧
    ∀ d, Enveloped dstMac srcMac d → headerBits dstMac srcMac (readHeader d) = d ∧
      ∃ f, decodeConsensusHeader (((wireBytes d).drop 14).take 16) = .ok f ∧
        encodeHeaderBeat (macBytes dstMac) (macBytes srcMac) f = .ok (wireBytes d) := by
  have back := @readWritten dstMac srcMac h
  have writes := encoded (enveloped dstMac srcMac h)
  have reads := unpacked (headerBits dstMac srcMac h)
  rw [back] at writes reads
  refine ⟨writes,back,readField (k := 2) (enveloped dstMac srcMac h).ethertype,reads,?_⟩
  intro d envelope
  exact ⟨rebuilt envelope,_,unpacked d,encoded envelope⟩

def asymmetric : Header := ⟨0x12,0x34,0x01020304,0x1122334455667788,0xABCD⟩

theorem headerCodecsOnce :
    let d := headerBits 0x010203040506 0x0A0B0C0D0E0F asymmetric
    Enveloped 0x010203040506 0x0A0B0C0D0E0F d ∧ headerBits 0x010203040506 0x0A0B0C0D0E0F (readHeader d) = d :=
  ⟨enveloped ..,((headerCodecs _ _ asymmetric).2.2.2.2 _ (enveloped ..)).1⟩

end Codec

end HeaderCodec

end Syncons
