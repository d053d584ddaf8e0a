import MavlinkDim.MessagePump
import MavlinkDim.SerialReader

/-!
# From the serial port to the queue

`read_message` of the port waits for a byte, reads one and parses it.  The thread that
reads the port calls it again and again and enqueues what is not for the server itself,
while another thread takes the messages out of the queue.
-/

namespace MavlinkDim

open Moodycamel

def O_NONBLOCK : Nat := 0x800

/-- What `poll` returns: 0, a negative number, or that `revents` has `POLLIN` or not. -/
inductive PollResult where
  | timeout
  | error
  | ready (pollin : Bool)
deriving DecidableEq, Repr

/-- `flags` are the flags of `fd` when the port was opened, and `status` those that it has.
    `channel` is `MAVLINK_COMM_1`. -/
structure SerialPort (M : Mavlink) where
  flags : Nat
  status : Nat
  channel : M.Status

namespace SerialPort

variable {M : Mavlink}

/-- `cp` is the byte that `_read_port` reads, if it reads one. -/
def readMessage (poll : PollResult) (cp : Option UInt8) (port : SerialPort M) :
    Option M.Message × SerialPort M :=
  let port := { port with status := port.flags ||| O_NONBLOCK }
  match poll with
  | .timeout => (none, port)
  | .error | .ready false => (none, { port with status := port.flags })
  | .ready true =>
    let port := { port with status := port.flags }
    match cp with
    | some cp =>
      let (channel, message) := M.parseChar port.channel cp
      (message, { port with channel })
    | none => (none, port)

end SerialPort

/-- What a `read_message` reads. -/
def PollResult.received (poll : PollResult) (cp : Option UInt8) : List UInt8 :=
  if poll = .ready true then cp.toList else []

/-- The two threads.  No thread reads `bytes` and `lost`: what came from the port, and how many
    messages the queue did not take. -/
structure SerialRelay (M : Mavlink) where
  port : SerialPort M
  serial : SerialReader
  queue : BlockingThreads M.Message
  bytes : List UInt8
  lost : Nat

inductive SerialStep where
  | read (poll : PollResult) (cp : Option UInt8)
  | enqueue (malloc : Bool)
  | waitDequeueTimed (timeout_usecs : Int)
  | dequeue (acquired : Bool)

variable {M : Mavlink} {MAX_BLOCK_SIZE size : Nat} {contents : Nat → ByteMemory.Bytes}

namespace SerialRelay

variable (MAX_BLOCK_SIZE contents) in
/-- A turn of the loop of `autopilot_read_message`, up to its `enqueue`. -/
def read (poll : PollResult) (cp : Option UInt8) (s : SerialRelay M) : Option (SerialRelay M) :=
  match s.queue.producer with
  | .idle | .returned _ =>
    let (result, port) := s.port.readMessage poll cp
    let (serial, action) := s.serial.next M contents result
    let s := { s with port, serial, bytes := s.bytes ++ poll.received cp }
    match action with
    | .enqueue message =>
      ((BlockingStep.enqueue .canAlloc message).run MAX_BLOCK_SIZE s.queue).map
        ({ s with queue := · })
    | _ => some s
  | _ => none

variable (contents) in
def start (flags : Nat) (q : ReaderWriterQueue M.Message) : SerialRelay M :=
  ⟨⟨flags, flags, M.idle⟩, .start contents, .start q, [], 0⟩

/-- The relay as a parser with a queue behind it. -/
def pump (s : SerialRelay M) : Pump M := ⟨s.port.channel, s.queue, s.bytes, s.lost⟩

end SerialRelay

variable (MAX_BLOCK_SIZE contents) in
def SerialStep.run : SerialStep → SerialRelay M → Option (SerialRelay M)
  | .read poll cp, s => s.read MAX_BLOCK_SIZE contents poll cp
  | .enqueue malloc, s =>
    (s.queue.producerStep MAX_BLOCK_SIZE malloc).map fun queue =>
      { s with queue, lost := s.lost + if queue.refused then 1 else 0 }
  | .waitDequeueTimed timeout_usecs, s =>
    (s.queue.wait (.wait timeout_usecs) false).map ({ s with queue := · })
  | .dequeue acquired, s =>
    (s.queue.consumerStep MAX_BLOCK_SIZE acquired).map ({ s with queue := · })

/-! ### The port is a pump -/

namespace SerialRelay

variable {s s' : SerialRelay M}

end SerialRelay

section

variable {k : Nat} {malloc : Nat → Bool} {q : ReaderWriterQueue M.Message}

end

end MavlinkDim
