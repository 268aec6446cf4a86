import RustRcp.AcfCodec
import RustRcp.Avtp
import RustRcp.Lib.Stateful
/-!
# End-to-end protection

The safe-point CRC, the bytes it covers, the trailer that carries it, and the
check a receiver makes (`src/e2e.rs`, `check_rx_enforce_e2e` of `src/request.rs`).
-/
open Bytes Stateful

namespace RustRcp

/-! ## CRC-32 -/

def CRC32_TC18_POLY_REFLECTED : UInt32 := 0xC8DF352F
def CRC32_TC18_INIT_XOROUT : UInt32 := 0xFFFFFFFF

/-- One turn of the inner loop: a bit shifted out. -/
def crc_shift (crc : UInt32) : UInt32 :=
  if crc &&& 1 ≠ 0 then (crc >>> 1) ^^^ CRC32_TC18_POLY_REFLECTED else crc >>> 1

/-- One turn of the outer loop: a byte taken in. -/
def crc_byte (crc : UInt32) (byte : UInt8) : UInt32 := crc_shift^[8] (crc ^^^ byte.toUInt32)

def crc32_tc18 (data : List UInt8) : UInt32 :=
  data.foldl crc_byte CRC32_TC18_INIT_XOROUT ^^^ CRC32_TC18_INIT_XOROUT

/-! ## Coverage -/

def CRC32_COVERAGE_LENGTH_PREADJUST_QUADLETS : UInt16 := 1

/-- The message a CRC covers. -/
inductive AcfCoverageMessage where
  | Abb (msg : AcfAbbMessage)
  | Gbb (msg : AcfGbbMessage)
  deriving DecidableEq, Repr

/-- `u16::saturating_add`. -/
def saturating_add (a b : UInt16) : UInt16 :=
  if a.toNat + b.toNat < UInt16.size then a + b else 0xFFFF

/-- `u16::checked_add`. -/
def checked_add_u16 (a b : UInt16) : Option UInt16 :=
  if a.toNat + b.toNat < UInt16.size then some (a + b) else none

/-- `u16::checked_sub`. -/
def checked_sub_u16 (a b : UInt16) : Option UInt16 := if b ≤ a then some (a - b) else none

/-- The stream id and the timestamp, which an NTSCF header lacks. -/
def avtp_coverage : HeaderVariant → List UInt8
  | .Ntscf h => be 8 h.stream_id.toNat ++ [0, 0, 0, 0]
  | .Tscf h => be 8 h.stream_id.toNat ++ be 4 h.avtp_timestamp.toNat

def build_crc32_coverage_buffer (header : HeaderVariant) (acf : AcfCoverageMessage) :
    Except RcpError (List UInt8) :=
  let buf := avtp_coverage header
  match acf with
  | .Abb msg => do
    let adjusted_info := { msg.info with
      acf_msg_type := ACF_ABB_MSG_TYPE
      acf_msg_length := saturating_add msg.info.acf_msg_length CRC32_COVERAGE_LENGTH_PREADJUST_QUADLETS }
    let info_bytes ← encode_byte_message_info adjusted_info
    return buf ++ info_bytes ++ msg.payload
  | .Gbb msg => do
    let adjusted_info := { msg.info with
      acf_msg_type := ACF_GBB_MSG_TYPE
      acf_msg_length := saturating_add msg.info.acf_msg_length CRC32_COVERAGE_LENGTH_PREADJUST_QUADLETS }
    let info_bytes ← encode_byte_message_info adjusted_info
    return buf ++ info_bytes ++ be 8 msg.message_timestamp.toNat ++ msg.payload

/-! ## Trailer -/

def CRC_TRAILER_QUADLETS : UInt16 := CRC32_COVERAGE_LENGTH_PREADJUST_QUADLETS
def CRC_TRAILER_LEN : Nat := QUADLET_LEN

/-- Works on the frame in place: the header is rewritten, then the CRC appended. -/
def finalize_crc_trailer (crc : UInt32) : Stateful RcpError (List UInt8) Unit := do
  let frame ← get
  if frame.length < BYTE_MESSAGE_INFO_LEN then throw .ShortFrame else
  let info ← MonadExcept.ofExcept (decode_byte_message_info (frame.take BYTE_MESSAGE_INFO_LEN))
  let acf_msg_length ← MonadExcept.ofExcept (ok_or
    ((checked_add_u16 info.acf_msg_length CRC_TRAILER_QUADLETS).filter (· ≤ ACF_MSG_LENGTH_9BIT_MAX)) .InvalidSize)
  let new_header ← MonadExcept.ofExcept (encode_byte_message_info { info with acf_msg_length })
  modify fun frame => new_header ++ frame.drop BYTE_MESSAGE_INFO_LEN
  modify fun frame => frame ++ be 4 crc.toNat

def split_crc_trailer (frame : List UInt8) : Except RcpError (List UInt8 × UInt32) :=
  if frame.length < BYTE_MESSAGE_INFO_LEN + CRC_TRAILER_LEN then .error .ShortFrame else do
  let info ← decode_byte_message_info (frame.take BYTE_MESSAGE_INFO_LEN)
  let acf_msg_length ← ok_or (checked_sub_u16 info.acf_msg_length CRC_TRAILER_QUADLETS) .InvalidSize
  let new_header ← encode_byte_message_info { info with acf_msg_length }
  -- the CRC is the last four octets, wherever the message's length ends
  let crc_start := frame.length - CRC_TRAILER_LEN
  let crc := UInt32.ofNat (ofBe (frame.drop crc_start))
  let body := new_header ++ (frame.take crc_start).drop BYTE_MESSAGE_INFO_LEN
  return (body, crc)

/-! ## Checking -/

/-- How far a CRC mismatch reaches. -/
inductive E2eFailureScope where
  | DropRequest
  | LatchStream
  deriving DecidableEq, Repr

def e2e_failure_scope (rx_enforce_e2e : Bool) : E2eFailureScope :=
  if rx_enforce_e2e then .LatchStream else .DropRequest

def check_rx_enforce_e2e (coverage_buffer : List UInt8) (expected_crc : UInt32) (rx_enforce_e2e : Bool) :
    Except (RcpError × E2eFailureScope) Unit :=
  let computed_crc := crc32_tc18 coverage_buffer
  if computed_crc = expected_crc then .ok ()
  else .error (.CrcError, e2e_failure_scope rx_enforce_e2e)

/-! ## Fragment trains -/

/-- `CombinedFragmentPayload::assemble`: the segments, one after another. -/
def assemble (segments : List (List UInt8)) : List UInt8 :=
  segments.foldl (fun combined segment => combined ++ segment) []

def build_crc32_coverage_buffer_for_fragment_train (header : HeaderVariant) (final_fragment : AcfCoverageMessage)
    (segments : List (List UInt8)) : Except RcpError (List UInt8) :=
  let combined := assemble segments
  match final_fragment with
  | .Abb msg => build_crc32_coverage_buffer header (.Abb { info := msg.info, payload := combined })
  | .Gbb msg => build_crc32_coverage_buffer header
      (.Gbb { info := msg.info, message_timestamp := msg.message_timestamp, payload := combined })

def crc32_tc18_for_fragment_train (header : HeaderVariant) (final_fragment : AcfCoverageMessage)
    (segments : List (List UInt8)) : Except RcpError UInt32 := do
  let buf ← build_crc32_coverage_buffer_for_fragment_train header final_fragment segments
  return crc32_tc18 buf

inductive FragmentCrcExpectation where
  | NotExpected
  | Expected
  deriving DecidableEq, Repr

def fragment_crc_expectation (ms : Bool) : FragmentCrcExpectation :=
  if ms then .NotExpected else .Expected

def check_fragment_crc_placement (ms crc_present : Bool) : Except RcpError Unit :=
  match fragment_crc_expectation ms, crc_present with
  | .NotExpected, false => .ok ()
  | .Expected, true => .ok ()
  | _, _ => .error .InvalidParameter

end RustRcp
