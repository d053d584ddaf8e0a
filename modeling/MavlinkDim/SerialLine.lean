import MavlinkDim.SerialPort
import Mathlib.Data.Nat.Bitwise

/-!
# The serial line

Two threads share the descriptor of the serial port.  The one that reads makes it
non-blocking while it polls, and leaves it so when the poll times out; the other one
writes the messages of the ground station.  `gcs_to_serial` says which of them go out
whole.
-/

namespace Moodycamel

variable {α : Type*} {MAX_BLOCK_SIZE : Nat} {s s' : BlockingThreads α}

/-! ### What the consumer gets -/

/-- The element that the last call of the consumer returned, once it has. -/
def BlockingThreads.taken (s : BlockingThreads α) : Option α :=
  match s.consumer with
  | .returned result => result
  | _ => none

/-- The producer does not touch what the consumer has. -/
structure ConsumerKept (s s' : BlockingThreads α) : Prop where
  consumer : s'.consumer = s.consumer
  results : s'.results = s.results

theorem ConsumerKept.taken (h : ConsumerKept s s') : s'.taken = s.taken := by
  rw [BlockingThreads.taken, BlockingThreads.taken, h.consumer]

theorem BlockingStep.enqueue_kept {mode : AllocationMode} {element : α}
    (hstep : (BlockingStep.enqueue mode element).run MAX_BLOCK_SIZE s = some s') :
    ConsumerKept s s' := by
  rw [BlockingStep.run] at hstep
  split at hstep
  · obtain ⟨inner, -, rfl⟩ := Option.map_eq_some_iff.mp hstep
    exact ⟨rfl, rfl⟩
  · obtain ⟨inner, -, rfl⟩ := Option.map_eq_some_iff.mp hstep
    exact ⟨rfl, rfl⟩
  · cases hstep

theorem BlockingThreads.producerStep_kept {malloc : Bool}
    (hstep : s.producerStep MAX_BLOCK_SIZE malloc = some s') : ConsumerKept s s' := by
  rw [BlockingThreads.producerStep] at hstep
  split at hstep
  · cases hstep
  · cases hstep
  · split at hstep
    · obtain ⟨sema, -, rfl⟩ := Option.map_eq_some_iff.mp hstep
      exact ⟨rfl, rfl⟩
    · obtain rfl := Option.some.inj hstep
      exact ⟨rfl, rfl⟩
    · obtain ⟨inner, -, rfl⟩ := Option.map_eq_some_iff.mp hstep
      exact ⟨rfl, rfl⟩
  · obtain ⟨sema, -, rfl⟩ := Option.map_eq_some_iff.mp hstep
    exact ⟨rfl, rfl⟩

theorem BlockingThreads.wait_results {waiter : Waiter} {again : Bool}
    (hstep : s.wait waiter again = some s') : s'.results = s.results := by
  rw [BlockingThreads.wait] at hstep
  split at hstep
  · obtain ⟨sema, -, rfl⟩ := Option.map_eq_some_iff.mp hstep
    rfl
  · obtain ⟨sema, -, rfl⟩ := Option.map_eq_some_iff.mp hstep
    rfl
  · cases hstep

/-- A step of a call, which may be its last. -/
theorem BlockingThreads.consumerStep_results {acquired : Bool}
    (hstep : s.consumerStep MAX_BLOCK_SIZE acquired = some s') :
    s.taken = none ∧ s'.results.filterMap id = s.results.filterMap id ++ s'.taken.toList := by
  have hgoes (h : s'.results = s.results) (hnone : s'.taken = none) :
      s'.results.filterMap id = s.results.filterMap id ++ s'.taken.toList := by
    rw [h, hnone, Option.toList_none, List.append_nil]
  cases hpc : s.consumer with
  | idle | returned _ | failed =>
    rw [BlockingThreads.consumerStep, hpc] at hstep
    cases hstep
  | wait again =>
    refine ⟨by rw [BlockingThreads.taken, hpc], ?_⟩
    simp only [BlockingThreads.consumerStep, hpc] at hstep
    split at hstep
    · obtain ⟨inner, -, rfl⟩ := Option.map_eq_some_iff.mp hstep
      exact hgoes rfl rfl
    · split at hstep
      · obtain ⟨sema, -, rfl⟩ := Option.map_eq_some_iff.mp hstep
        exact hgoes rfl rfl
      · obtain rfl := Option.some.inj hstep
        simp [BlockingThreads.taken]
    · obtain ⟨sema, -, rfl⟩ := Option.map_eq_some_iff.mp hstep
      exact hgoes rfl rfl
  | dequeue =>
    refine ⟨by rw [BlockingThreads.taken, hpc], ?_⟩
    simp only [BlockingThreads.consumerStep, hpc] at hstep
    split at hstep
    · obtain rfl := Option.some.inj hstep
      simp [BlockingThreads.taken]
    · obtain rfl := Option.some.inj hstep
      exact hgoes rfl rfl
    · obtain ⟨inner, -, rfl⟩ := Option.map_eq_some_iff.mp hstep
      exact hgoes rfl rfl

end Moodycamel

namespace MavlinkDim

open Moodycamel

/-! ### The reading thread, step by step -/

/-- Where the thread is in `read_message`: outside, in `poll`, or before `_read_port`. -/
inductive PortReader where
  | idle
  | polling
  | reading
deriving DecidableEq, Repr

namespace SerialPort

variable {M : Mavlink}

/-- Up to the call of `poll`. -/
def beginPoll (port : SerialPort M) : SerialPort M :=
  { port with status := port.flags ||| O_NONBLOCK }

/-- From the return of `poll`. -/
def endPoll (poll : PollResult) (port : SerialPort M) : PortReader × SerialPort M :=
  match poll with
  -- the descriptor stays non-blocking
  | .timeout => (.idle, port)
  | .error | .ready false => (.idle, { port with status := port.flags })
  | .ready true => (.reading, { port with status := port.flags })

/-- From the call of `_read_port`. -/
def readByte (cp : Option UInt8) (port : SerialPort M) : Option M.Message × SerialPort M :=
  match cp with
  | some cp =>
    let (channel, message) := M.parseChar port.channel cp
    (message, { port with channel })
  | none => (none, port)

/-- The three parts make up `read_message`. -/
theorem readMessage_eq (poll : PollResult) (cp : Option UInt8) (port : SerialPort M) :
    port.readMessage poll cp =
      match port.beginPoll.endPoll poll with
      | (.reading, port) => port.readByte cp
      | (_, port) => (none, port) := by
  cases poll with
  | timeout | error => rfl
  | ready pollin =>
    cases pollin with
    | false => rfl
    | true => cases cp <;> rfl

end SerialPort

/-- The flags that `F_SETFL` can change: `O_APPEND`, `O_NONBLOCK`, `O_ASYNC`, `O_DIRECT` and
    `O_NOATIME`. -/
def SETFL_MASK : Nat := 0x46c00

/-- `fcntl(fd, F_SETFL, arg)` -/
def setStatusFlags (arg status : Nat) : Nat := status.ldiff SETFL_MASK ||| (arg &&& SETFL_MASK)

/-- `_open_port`, for the flags that the descriptor has from `open`. -/
def openPort (status : Nat) : Nat := setStatusFlags 0 status

/-- `start` reads the flags when the port is open. -/
def SerialPort.start {M : Mavlink} (status : Nat) : SerialPort M :=
  let status := openPort status
  { flags := status, status, channel := M.idle }

/-- The port is opened with `O_NDELAY`, which is not among its flags when it is open. -/
theorem openPort_blocking (status : Nat) : openPort status &&& O_NONBLOCK = 0 := by
  apply Nat.eq_of_testBit_eq
  intro i
  rw [openPort, setStatusFlags, Nat.zero_and, Nat.or_zero, Nat.testBit_and, Nat.testBit_ldiff,
    Nat.zero_testBit]
  by_cases hi : i = 11
  · have hmask : SETFL_MASK.testBit 11 = true := by decide
    rw [hi, hmask, Bool.not_true, Bool.and_false, Bool.false_and]
  · rw [show O_NONBLOCK = 2 ^ 11 from rfl, Nat.testBit_two_pow_of_ne (Ne.symm hi), Bool.and_false]

/-- How many of `len` bytes `write` takes.  It waits for room unless the descriptor is non-blocking;
    `room` is the room there is. -/
def bytesTaken (status room len : Nat) : Nat :=
  if status &&& O_NONBLOCK = 0 then len else min room len

/-! ### The threads -/

/-- A call of `write_message`: how much of the frame was taken, and whether the reading thread had
    made the descriptor non-blocking. -/
structure LineWrite (M : Mavlink) where
  message : M.Message
  bytesWritten : Nat
  polled : Bool

/-- The port with the threads that read and write it, and the one that feeds `q_to_autopilot`.
    `writing` is the message that `autopilot_write_message` has taken and not written.  No thread
    reads `lastPoll`, `writes` and `line`, which is what went out. -/
structure SerialLine (M : Mavlink) where
  port : SerialPort M
  reader : PortReader
  lastPoll : Option PollResult
  pump : Pump M
  writing : Option M.Message
  writes : List (LineWrite M)
  line : List UInt8

inductive LineStep where
  | poll
  | polled (result : PollResult)
  | read (cp : Option UInt8)
  | parseByte (c : UInt8)
  | enqueue (malloc : Bool)
  | waitDequeueTimed (timeout_usecs : Int)
  | dequeue (acquired : Bool)
  | write (room : Nat)

variable {M : Mavlink} {MAX_BLOCK_SIZE size : Nat}

namespace SerialLine

/-- `status` are the flags from `open`. -/
def start (status : Nat) (q : ReaderWriterQueue M.Message) : SerialLine M :=
  ⟨.start status, .idle, none, .start q, none, [], []⟩

/-- The reading thread is in `poll`, or the last one timed out. -/
def polled (s : SerialLine M) : Bool :=
  match s.reader with
  | .idle => s.lastPoll = some .timeout
  | .polling => true
  | .reading => false

/-- `write_message` -/
def write (room : Nat) (message : M.Message) (s : SerialLine M) : SerialLine M :=
  let buf := M.msgToSendBuffer message
  let bytesWritten := bytesTaken s.port.status room buf.length
  { s with
    writing := none
    writes := s.writes ++ [⟨message, bytesWritten, s.polled⟩]
    line := s.line ++ buf.take bytesWritten }

end SerialLine

variable (MAX_BLOCK_SIZE) in
def LineStep.run : LineStep → SerialLine M → Option (SerialLine M)
  | .poll, s =>
    match s.reader with
    | .idle => some { s with port := s.port.beginPoll, reader := .polling }
    | _ => none
  | .polled result, s =>
    match s.reader with
    | .polling =>
      let (reader, port) := s.port.endPoll result
      some { s with port, reader, lastPoll := some result }
    | _ => none
  | .read cp, s =>
    match s.reader with
    | .reading => some { s with port := (s.port.readByte cp).2, reader := .idle }
    | _ => none
  | .parseByte c, s =>
    ((PumpStep.parseByte c).run MAX_BLOCK_SIZE (fun _ => true) s.pump).map ({ s with pump := · })
  | .enqueue malloc, s =>
    ((PumpStep.enqueue malloc).run MAX_BLOCK_SIZE (fun _ => true) s.pump).map ({ s with pump := · })
  | .waitDequeueTimed timeout_usecs, s =>
    match s.writing with
    | none =>
      ((PumpStep.waitDequeueTimed timeout_usecs).run MAX_BLOCK_SIZE (fun _ => true) s.pump).map
        ({ s with pump := · })
    | some _ => none
  | .dequeue acquired, s =>
    ((PumpStep.dequeue acquired).run MAX_BLOCK_SIZE (fun _ => true) s.pump).map fun pump =>
      { s with pump, writing := pump.queue.taken }
  | .write room, s => s.writing.map fun message => s.write room message

/-! ### The invariant -/

theorem Pump.parseByte_kept {p p' : Pump M} {keep : M.Message → Bool} {c : UInt8}
    (hstep : p.parseByte MAX_BLOCK_SIZE keep c = some p') : ConsumerKept p.queue p'.queue := by
  unfold Pump.parseByte at hstep
  split at hstep
  · split at hstep
    dsimp only at hstep
    split at hstep
    · obtain ⟨queue, hqueue, rfl⟩ := Option.map_eq_some_iff.mp hstep
      exact BlockingStep.enqueue_kept hqueue
    · obtain rfl := Option.some.inj hstep
      exact ⟨rfl, rfl⟩
  · split at hstep
    dsimp only at hstep
    split at hstep
    · obtain ⟨queue, hqueue, rfl⟩ := Option.map_eq_some_iff.mp hstep
      exact BlockingStep.enqueue_kept hqueue
    · obtain rfl := Option.some.inj hstep
      exact ⟨rfl, rfl⟩
  · cases hstep

/-- The messages that were written or are to be written next are what the queue gave, and the
    descriptor has the flags it was opened with unless the reading thread has polled. -/
structure LineOk (flags size : Nat) (s : SerialLine M) : Prop where
  pump : PumpOk (fun _ => true) size s.pump
  opened : s.port.flags = flags
  status : s.polled = false → s.port.status = flags
  writing : s.writing = none ∨ s.writing = s.pump.queue.taken
  written : s.writes.map LineWrite.message ++ s.writing.toList =
    s.pump.queue.results.filterMap id
  line : s.line = s.writes.flatMap fun w => (M.msgToSendBuffer w.message).take w.bytesWritten
  whole : ∀ w ∈ s.writes, w.polled = false → w.bytesWritten = (M.msgToSendBuffer w.message).length

namespace LineOk

variable {flags : Nat} {s s' : SerialLine M}

/-- A step of the reading thread. -/
theorem of_port (h : LineOk flags size s) {port : SerialPort M} {reader : PortReader}
    {lastPoll : Option PollResult} (hflags : port.flags = flags)
    (hstatus : ({ s with port, reader, lastPoll } : SerialLine M).polled = false →
      port.status = flags) : LineOk flags size { s with port, reader, lastPoll } :=
  ⟨h.pump, hflags, hstatus, h.writing, h.written, h.line, h.whole⟩

/-- A step of the thread that parses. -/
theorem of_pump (h : LineOk flags size s) {pump : Pump M} (hpump : PumpOk (fun _ => true) size pump)
    (hkept : ConsumerKept s.pump.queue pump.queue) : LineOk flags size { s with pump } := by
  refine ⟨hpump, h.opened, h.status, ?_, ?_, h.line, h.whole⟩
  · rw [hkept.taken]
    exact h.writing
  · rw [hkept.results]
    exact h.written

theorem write (h : LineOk flags size s) (hflags : flags &&& O_NONBLOCK = 0) (room : Nat)
    {message : M.Message} (hwriting : s.writing = some message) :
    LineOk flags size (s.write room message) := by
  refine ⟨h.pump, h.opened, h.status, Or.inl rfl, ?_, ?_, ?_⟩
  · have hwritten := h.written
    rw [hwriting] at hwritten
    simpa [SerialLine.write] using hwritten
  · simp only [SerialLine.write, List.flatMap_append, List.flatMap_cons, List.flatMap_nil,
      List.append_nil, h.line]
  · intro w hw hpolled
    rcases List.mem_append.mp hw with hw | hw
    · exact h.whole w hw hpolled
    · obtain rfl := List.mem_singleton.mp hw
      have hstatus : s.port.status = flags := h.status hpolled
      show bytesTaken s.port.status room _ = _
      rw [hstatus, bytesTaken, if_pos hflags]

theorem run (h : LineOk flags size s) (hflags : flags &&& O_NONBLOCK = 0) (step : LineStep)
    (hstep : step.run MAX_BLOCK_SIZE s = some s') : LineOk flags size s' := by
  cases step with
  | poll =>
    rw [LineStep.run] at hstep
    split at hstep
    · obtain rfl := Option.some.inj hstep
      exact h.of_port h.opened (by rintro ⟨⟩)
    · cases hstep
  | polled result =>
    rw [LineStep.run] at hstep
    split at hstep
    · obtain rfl := Option.some.inj hstep
      cases result with
      | timeout => exact h.of_port h.opened (by rintro ⟨⟩)
      | error => exact h.of_port h.opened fun _ => h.opened
      | ready pollin => cases pollin <;> exact h.of_port h.opened fun _ => h.opened
    · cases hstep
  | read cp =>
    rw [LineStep.run] at hstep
    split at hstep
    · rename_i hreading
      obtain rfl := Option.some.inj hstep
      have hstatus : s.port.status = flags := h.status (by rw [SerialLine.polled, hreading])
      cases cp with
      | none => exact h.of_port h.opened fun _ => hstatus
      | some c => exact h.of_port h.opened fun _ => hstatus
    · cases hstep
  | parseByte c =>
    obtain ⟨pump, hpump, rfl⟩ := Option.map_eq_some_iff.mp hstep
    exact h.of_pump (h.pump.run (.parseByte c) hpump) (Pump.parseByte_kept hpump)
  | enqueue malloc =>
    obtain ⟨pump, hpump, rfl⟩ := Option.map_eq_some_iff.mp hstep
    obtain ⟨queue, hqueue, rfl⟩ := Option.map_eq_some_iff.mp hpump
    exact h.of_pump (h.pump.run (.enqueue malloc) hpump)
      (BlockingThreads.producerStep_kept hqueue)
  | waitDequeueTimed timeout_usecs =>
    rw [LineStep.run] at hstep
    split at hstep
    · rename_i hnone
      obtain ⟨pump, hpump, rfl⟩ := Option.map_eq_some_iff.mp hstep
      obtain ⟨queue, hqueue, rfl⟩ := Option.map_eq_some_iff.mp hpump
      refine ⟨h.pump.run (.waitDequeueTimed timeout_usecs) hpump, h.opened, h.status,
        Or.inl hnone, ?_, h.line, h.whole⟩
      show _ = queue.results.filterMap id
      rw [BlockingThreads.wait_results hqueue]
      exact h.written
    · cases hstep
  | dequeue acquired =>
    obtain ⟨pump, hpump, rfl⟩ := Option.map_eq_some_iff.mp hstep
    obtain ⟨queue, hqueue, rfl⟩ := Option.map_eq_some_iff.mp hpump
    obtain ⟨hnone, hresults⟩ := BlockingThreads.consumerStep_results hqueue
    have hidle : s.writing = none := h.writing.elim id fun hwriting => hwriting.trans hnone
    have hwritten := h.written
    rw [hidle, Option.toList_none, List.append_nil] at hwritten
    refine ⟨h.pump.run (.dequeue acquired) hpump, h.opened, h.status, Or.inr rfl, ?_, h.line,
      h.whole⟩
    show s.writes.map LineWrite.message ++ queue.taken.toList = queue.results.filterMap id
    rw [hwritten, hresults]
  | write room =>
    obtain ⟨message, hwriting, rfl⟩ := Option.map_eq_some_iff.mp hstep
    exact h.write hflags room hwriting

end LineOk

/-- What goes out: of each message that the queue gives, in their order, as much as its write took.
    A message is cut only if the reading thread was in its poll then or the last poll had timed
    out; without that, and if there was memory for each message in the queue, what has gone out
    are the frames of the first messages that were parsed. -/
structure SerialLine.Sent (s : SerialLine M) : Prop where
  messages : s.pump.InOrder fun _ => true
  written : s.writes.map LineWrite.message ++ s.writing.toList =
    s.pump.queue.results.filterMap id
  line : s.line = s.writes.flatMap fun w => (M.msgToSendBuffer w.message).take w.bytesWritten
  cut : ∀ w ∈ s.writes, w.bytesWritten < (M.msgToSendBuffer w.message).length → w.polled = true
  whole : (∀ w ∈ s.writes, w.polled = false) → s.pump.lost = 0 →
    s.line <+: (M.parse M.idle s.pump.bytes).2.flatMap M.msgToSendBuffer

theorem LineOk.sent {flags : Nat} {s : SerialLine M} (h : LineOk flags size s) : s.Sent := by
  have hmessages := h.pump.inOrder
  refine ⟨hmessages, h.written, h.line, ?_, ?_⟩
  · intro w hw hcut
    by_contra hpolled
    have hwhole := h.whole w hw (Bool.eq_false_iff.mpr hpolled)
    exact absurd hwhole (Nat.ne_of_lt hcut)
  · intro hpolled hlost
    have hline : s.line = (s.writes.map LineWrite.message).flatMap M.msgToSendBuffer := by
      rw [h.line, List.flatMap_map]
      apply List.flatMap_congr
      intro w hw
      rw [h.whole w hw (hpolled w hw), List.take_length]
    have hall := hmessages.all hlost
    rw [List.filter_true] at hall
    have hprefix : s.writes.map LineWrite.message <+: (M.parse M.idle s.pump.bytes).2 := by
      have htaken := hmessages.taken
      rw [← h.written] at htaken
      rw [← hall]
      exact ((List.prefix_append _ _).trans htaken).trans (List.prefix_append _ _)
    obtain ⟨rest, hrest⟩ := hprefix
    rw [hline, ← hrest, List.flatMap_append]
    exact List.prefix_append _ _

/-! ### Runs -/

section

variable {k : Nat} {malloc : Nat → Bool} {q : ReaderWriterQueue M.Message}

/-- **From the ground station to the port.**  However the three threads interleave, whatever the
    polls return and however much room the port has at each write, what goes out are messages
    that were parsed, in order and each at most once, whole unless the write fell into the time
    in which the reading thread keeps the descriptor non-blocking.  If no write does and the
    queue took all of them, the output is the frames of the first messages. -/
theorem gcs_to_serial (hM : MAX_BLOCK_SIZE = 2 ^ (k + 1)) (hpos : 0 < size)
    (hsize : size < 2 ^ 63)
    (hq : ReaderWriterQueue.construct MAX_BLOCK_SIZE malloc size = some q) (status : Nat)
    (steps : List LineStep) :
    ∀ s ∈ Runs.states (LineStep.run MAX_BLOCK_SIZE) (SerialLine.start status q) steps,
      s.Sent := by
  intro s hs
  have hok : LineOk (openPort status) size s := by
    refine Runs.states_induction (P := LineOk (openPort status) size) ?_ ?_ steps s hs
    · intro step s s' hstep h
      exact h.run (openPort_blocking status) step hstep
    · exact ⟨PumpOk.start hM hpos hsize hq, rfl, fun _ => rfl, Or.inl rfl, rfl, rfl, by
        rintro w ⟨⟩⟩
  exact hok.sent

/-- The autopilot is silent, so the poll times out; then there is room for three bytes. -/
theorem gcs_to_serial_cut :
    let steps := LineStep.poll :: .polled .timeout ::
      (mavlink1.msgToSendBuffer heartbeat).map LineStep.parseByte ++ [.waitDequeueTimed 1000] ++
      List.replicate 4 (.enqueue true) ++ List.replicate 7 (.dequeue true) ++ [.write 3]
    let states := Runs.states (LineStep.run 2) (SerialLine.start (M := mavlink1) 0x802
      ⟨ReaderWriterQueue.makeBlocks 2 1, 1, 0, 0, 2⟩) steps
    states.getLast?.map (fun s => s.line) =
      some ((mavlink1.msgToSendBuffer heartbeat).take 3) ∧ ∀ s ∈ states, s.Sent := by
  intro steps states
  refine ⟨by decide +kernel, ?_⟩
  exact gcs_to_serial (k := 0) rfl (by decide) (by decide) construct_two 0x802 steps

end

end MavlinkDim
