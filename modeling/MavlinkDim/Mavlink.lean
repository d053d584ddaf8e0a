import MavlinkDim.ByteMemory

/-!
# MAVLink messages

What the relay uses of the MAVLink library: a parser that takes one byte at a
time and keeps its state in a channel, the id of a message, the fields of
`ENCAPSULATED_DATA`, and the bytes of a message on the wire.
-/

namespace MavlinkDim

open ByteMemory

def MAVLINK_MSG_ID_HEARTBEAT : Nat := 0
def MAVLINK_MSG_ID_SCALED_IMU : Nat := 26
def MAVLINK_MSG_ID_ATTITUDE_QUATERNION : Nat := 31
def MAVLINK_MSG_ID_LOCAL_POSITION_NED : Nat := 32
def MAVLINK_MSG_ID_SERVO_OUTPUT_RAW : Nat := 36
def MAVLINK_MSG_ID_VFR_HUD : Nat := 74
def MAVLINK_MSG_ID_ATTITUDE_TARGET : Nat := 83
def MAVLINK_MSG_ID_HIGHRES_IMU : Nat := 105
def MAVLINK_MSG_ID_TIMESYNC : Nat := 111
def MAVLINK_MSG_ID_SCALED_IMU2 : Nat := 116
def MAVLINK_MSG_ID_ENCAPSULATED_DATA : Nat := 131
def MAVLINK_MSG_ID_ACTUATOR_CONTROL_TARGET : Nat := 140
def MAVLINK_MSG_ID_BATTERY_STATUS : Nat := 147
def MAVLINK_MSG_ID_ESTIMATOR_STATUS : Nat := 230
def MAVLINK_MSG_ID_VIBRATION : Nat := 241
def MAVLINK_MSG_ID_EXTENDED_SYS_STATE : Nat := 245
def MAVLINK_MSG_ID_ODOMETRY : Nat := 331

/-- `mavlink_encapsulated_data_t` -/
structure EncapsulatedData where
  seqnr : Nat
  data : Bytes

/-- The library.  `parseChar` is `mavlink_parse_char` on a channel in a given state, and gives
    the state after it and the message that the byte completes; `idle` is the state in which a
    channel starts. -/
structure Mavlink where
  Message : Type
  Status : Type
  idle : Status
  parseChar : Status → UInt8 → Status × Option Message
  msgid : Message → Nat
  encapsulatedDataDecode : Message → EncapsulatedData
  msgToSendBuffer : Message → List UInt8

namespace Mavlink

variable (M : Mavlink)

/-- `for (int i = 0; i < recv_size; ++i) if (mavlink_parse_char(…))`: the state of the channel
    after the bytes, and the messages they complete. -/
def parse : M.Status → List UInt8 → M.Status × List M.Message
  | s, [] => (s, [])
  | s, c :: cs =>
    let (s, message) := M.parseChar s c
    let (s, messages) := parse s cs
    (s, message.toList ++ messages)

theorem parse_append (s : M.Status) (l l' : List UInt8) :
    M.parse s (l ++ l') =
      ((M.parse (M.parse s l).1 l').1, (M.parse s l).2 ++ (M.parse (M.parse s l).1 l').2) := by
  induction l generalizing s with
  | nil => rfl
  | cons c l ih => simp [parse, ih, List.append_assoc]

end Mavlink

/-! ### Frames of version 1 -/

/-- A message of a version 1 frame. -/
structure Mavlink1Message where
  seq : UInt8
  sysid : UInt8
  compid : UInt8
  msgid : UInt8
  payload : List UInt8
deriving DecidableEq, Repr

namespace Mavlink1

/-- `crc_accumulate` -/
def crcAccumulate (crc : UInt16) (data : UInt8) : UInt16 :=
  let tmp := data ^^^ crc.toUInt8
  let tmp := tmp ^^^ (tmp <<< 4)
  (crc >>> 8) ^^^ (tmp.toUInt16 <<< 8) ^^^ (tmp.toUInt16 <<< 3) ^^^ (tmp.toUInt16 >>> 4)

/-- `MAVLINK_MESSAGE_CRCS` of the two messages that are looked at. -/
def crcExtra (msgid : UInt8) : UInt8 := if msgid = 131 then 223 else 50

/-- The two bytes of the checksum behind the bytes between the start marker and it. -/
def checksum (l : List UInt8) (msgid : UInt8) : List UInt8 :=
  let crc := (l ++ [crcExtra msgid]).foldl crcAccumulate 0xFFFF
  [crc.toUInt8, (crc >>> 8).toUInt8]

def body (m : Mavlink1Message) : List UInt8 :=
  [UInt8.ofNat m.payload.length, m.seq, m.sysid, m.compid, m.msgid] ++ m.payload

def frame (m : Mavlink1Message) : List UInt8 := 0xFE :: body m ++ checksum (body m) m.msgid

/-- The message of the bytes behind a start marker, once they are all there and the checksum
    is right. -/
def message (l : List UInt8) : Option Mavlink1Message :=
  match l with
  | len :: seq :: sysid :: compid :: msgid :: rest =>
    let m : Mavlink1Message := ⟨seq, sysid, compid, msgid, rest.take len.toNat⟩
    if rest.drop len.toNat = checksum (l.take (5 + len.toNat)) msgid then some m else none
  | _ => none

/-- A channel is idle, or holds the bytes since the start marker. -/
def parseChar : Option (List UInt8) → UInt8 → Option (List UInt8) × Option Mavlink1Message
  | none, c => (if c = 0xFE then some [] else none, none)
  | some l, c =>
    let l := l ++ [c]
    if l.length < (l.headD 0).toNat + 7 then (some l, none)
    else
      match message l with
      | some m => (none, some m)
      | none => (if c = 0xFE then some [] else none, none)

end Mavlink1

/-- The library on frames of version 1 that carry one of the two messages. -/
abbrev mavlink1 : Mavlink where
  Message := Mavlink1Message
  Status := Option (List UInt8)
  idle := none
  parseChar := Mavlink1.parseChar
  msgid m := m.msgid.toNat
  encapsulatedDataDecode m :=
    ⟨(m.payload.getD 0 0).toNat + 256 * (m.payload.getD 1 0).toNat,
      fun i => m.payload.getD (i + 2) 0⟩
  msgToSendBuffer := Mavlink1.frame

/-- The parser gives back a message that was framed. -/
example : mavlink1.parse none (Mavlink1.frame ⟨7, 1, 1, 0, [1, 2, 3, 4, 5, 6, 7, 8, 9]⟩) =
    (none, [⟨7, 1, 1, 0, [1, 2, 3, 4, 5, 6, 7, 8, 9]⟩]) := by
  decide +kernel

end MavlinkDim
