import FrpRs.Data.Bytes
import FrpRs.Data.Serial

/-!
# KCP segments and their wire layout

Constants, errors and segments of the state machine in
`frp-core/src/kcp/protocol.rs`.  A segment is written as a 24-byte little-endian
header `conv | cmd | frg | wnd | ts | sn | una | len` followed by its payload.
-/

namespace FrpRs
namespace Kcp

open List Bytes

def rtoNdl : UInt32 := 30
def rtoMin : UInt32 := 100
def rtoDef : UInt32 := 200
def rtoMax : UInt32 := 60000

def cmdPush : UInt8 := 81
def cmdAck : UInt8 := 82
def cmdWask : UInt8 := 83
def cmdWins : UInt8 := 84

def askSend : UInt32 := 1
def askTell : UInt32 := 2

def wndSnd : UInt16 := 32
def wndRcv : UInt16 := 128

def mtuDef : Nat := 1400
def intervalDef : UInt32 := 100
def overhead : Nat := 24
def deadLinkDef : UInt32 := 20
def threshInit : UInt16 := 2
def threshMin : UInt16 := 2
def probeInit : UInt32 := 7000
def probeLimit : UInt32 := 120000

def bound (lower v upper : UInt32) : UInt32 :=
  min (max lower v) upper

def timediff (later earlier : UInt32) : Int32 :=
  later.toInt32 - earlier.toInt32

variable {later earlier : UInt32}

theorem timediff_lt_zero :
    timediff later earlier < 0 ↔
      2147483648 ≤ Serial.offset earlier later :=
  Serial.signedDiff_lt_zero

theorem timediff_nonneg :
    timediff later earlier ≥ 0 ↔
      Serial.offset earlier later < 2147483648 :=
  Serial.signedDiff_nonneg

theorem timediff_pos :
    timediff later earlier > 0 ↔
      0 < Serial.offset earlier later ∧
        Serial.offset earlier later < 2147483648 :=
  Serial.signedDiff_pos

/-!
## Errors
-/

structure IoError where
  message : String
deriving DecidableEq, Repr

inductive Error where
  | convInconsistent (expected found : UInt32)
  | invalidMtu (mtu : Nat)
  | invalidSegmentSize (size : Nat)
  | invalidSegmentDataSize (expected found : Nat)
  | ioError (error : IoError)
  | needUpdate
  | recvQueueEmpty
  | expectingFragment
  | unexpectedFragment (frg : UInt8)
  | unsupportedCmd (cmd : UInt8)
  | userBufTooBig
  | userBufTooSmall
deriving DecidableEq, Repr

abbrev Result (α : Type) := Except Error α

/-!
## Segments
-/

structure KcpSegment where
  conv : UInt32 := 0
  cmd : UInt8 := 0
  frg : UInt8 := 0
  wnd : UInt16 := 0
  ts : UInt32 := 0
  sn : UInt32 := 0
  una : UInt32 := 0
  resendts : UInt32 := 0
  rto : UInt32 := 0
  fastack : UInt32 := 0
  xmit : UInt32 := 0
  data : List Byte := []
deriving DecidableEq, Repr

def KcpSegment.newWithData (data : List Byte) : KcpSegment :=
  { data := data }

def KcpSegment.encode (s : KcpSegment) : List Byte :=
  u32Le s.conv ++ (s.cmd :: s.frg :: (u16Le s.wnd ++ (u32Le s.ts ++
    (u32Le s.sn ++ (u32Le s.una ++
      (u32Le (UInt32.ofNat s.data.length) ++ s.data))))))

def encodeAll (segs : List KcpSegment) : List Byte :=
  (segs.map KcpSegment.encode).flatten

variable (s : KcpSegment)

@[simp] theorem encode_length :
    s.encode.length = overhead + s.data.length := by
  simp [KcpSegment.encode, overhead]
  omega

@[simp] theorem encodeAll_nil : encodeAll [] = [] := rfl

@[simp] theorem encodeAll_cons (segs : List KcpSegment) :
    encodeAll (s :: segs) = s.encode ++ encodeAll segs := rfl

theorem encodeAll_append (a b : List KcpSegment) :
    encodeAll (a ++ b) = encodeAll a ++ encodeAll b := by
  simp [encodeAll]

/-!
## Reading a header back
-/

structure SegmentHeader where
  conv : UInt32
  cmd : UInt8
  frg : UInt8
  wnd : UInt16
  ts : UInt32
  sn : UInt32
  una : UInt32
  len : Nat
deriving DecidableEq, Repr

/-- The reads made by one round of the segment loop of `input`, which has
checked that a whole header is left. -/
def readHeader (buf : List Byte) : SegmentHeader :=
  { conv := readU32Le buf
    cmd := buf.getD 4 0
    frg := buf.getD 5 0
    wnd := readU16Le (buf.drop 6)
    ts := readU32Le (buf.drop 8)
    sn := readU32Le (buf.drop 12)
    una := readU32Le (buf.drop 16)
    len := (readU32Le (buf.drop 20)).toNat }

def KcpSegment.header (s : KcpSegment) : SegmentHeader :=
  { conv := s.conv
    cmd := s.cmd
    frg := s.frg
    wnd := s.wnd
    ts := s.ts
    sn := s.sn
    una := s.una
    len := s.data.length }

variable (rest : List Byte)

theorem readHeader_encode_mod :
    readHeader (s.encode ++ rest) =
      { s.header with len := s.data.length % 4294967296 } := by
  have hlenRead : (UInt32.ofNat s.data.length).toNat = s.data.length % 4294967296 :=
    UInt32.toNat_ofNat'
  unfold readHeader KcpSegment.encode KcpSegment.header
  rw [SegmentHeader.mk.injEq]
  refine ⟨?_, ?_, ?_, ?_, ?_, ?_, ?_, ?_⟩
  · exact readU32Le_append _ _
  · simp
  · simp [getElem?_append]
  · simp [drop_append, readU16Le_append, drop_of_length_le]
  · simp [drop_append, readU32Le_append, drop_of_length_le]
  · simp [drop_append, readU32Le_append, drop_of_length_le]
  · simp [drop_append, readU32Le_append, drop_of_length_le]
  · simp [drop_append, readU32Le_append, drop_of_length_le]

theorem readHeader_encode (hlen : s.data.length < 4294967296) :
    readHeader (s.encode ++ rest) = s.header := by
  rw [readHeader_encode_mod, Nat.mod_eq_of_lt hlen]
  rfl

theorem drop_overhead_encode :
    (s.encode ++ rest).drop overhead = s.data ++ rest := by
  simp [KcpSegment.encode, overhead, drop_append, drop_of_length_le]

end Kcp
end FrpRs
