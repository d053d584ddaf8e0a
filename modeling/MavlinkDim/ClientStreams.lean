import MavlinkDim.Client
import MavlinkDim.Transducer

/-!
# The two streams of the client

`gcs_read_message` parses the bytes of the GCS and `autopilot_read_message` those
of the autopilot, on two threads and both on `MAVLINK_COMM_0`.
`streams_undisturbed_iff` says in which interleavings each queue gets the messages
of its own stream.
-/

namespace MavlinkDim

open ByteMemory Transducer

/-- The threads that parse. -/
inductive Reader where
  | gcs
  | autopilot
deriving DecidableEq, Repr

variable {M : Mavlink} {σ : Type} {W : ClientHost σ} {fuel : Nat} {L : ClientLocals}

namespace Client

/-- `mavlink_parse_char` and `q_to_autopilot.enqueue` of `gcs_read_message`. -/
def gcsReadByte (c : UInt8) (s : Client M σ) : Client M σ :=
  let (channel, message) := M.parseChar s.channel c
  { s with channel, qToAutopilot := s.qToAutopilot ++ message.toList }

/-- `mavlink_parse_char` and `q_to_gcs.enqueue` of `autopilot_read_message`. -/
def autopilotReadByte (c : UInt8) (s : Client M σ) : Client M σ :=
  let (channel, message) := M.parseChar s.channel c
  { s with channel, qToGcs := s.qToGcs ++ message.toList }

/-- A reader parses its next byte. -/
def readByte (e : Reader × UInt8) (s : Client M σ) : Client M σ :=
  match e.1 with
  | .gcs => s.gcsReadByte e.2
  | .autopilot => s.autopilotReadByte e.2

/-- The bytes of the two readers in the order in which they are parsed. -/
def readBytes (s : Client M σ) (l : List (Reader × UInt8)) : Client M σ :=
  l.foldl (fun s e => s.readByte e) s

/-- The queue that a reader fills. -/
def queue (s : Client M σ) : Reader → List M.Message
  | .gcs => s.qToAutopilot
  | .autopilot => s.qToGcs

end Client

/-! ### The loops of the readers, byte by byte -/

theorem Mavlink.parse_eq_run (s : M.Status) (l : List UInt8) :
    M.parse s l = Transducer.run M.parseChar s l := by
  induction l generalizing s with
  | nil => rfl
  | cons c l ih => simp only [Mavlink.parse, run_cons, ih]

namespace Client

variable {s s' : Client M σ}

theorem readBytes_cons (e : Reader × UInt8) (l : List (Reader × UInt8)) :
    s.readBytes (e :: l) = (s.readByte e).readBytes l := rfl

theorem readBytes_gcs (bytes : List UInt8) :
    s.readBytes (tagged .gcs bytes) = s.gcsRead bytes := by
  induction bytes generalizing s with
  | nil => simp [readBytes, tagged, gcsRead, Mavlink.parse]
  | cons c bytes ih =>
    have hcons : s.readBytes (tagged .gcs (c :: bytes)) =
        (s.gcsReadByte c).readBytes (tagged .gcs bytes) := rfl
    rw [hcons, ih]
    simp [gcsRead, gcsReadByte, Mavlink.parse]

theorem readBytes_autopilot (bytes : List UInt8) :
    s.readBytes (tagged .autopilot bytes) =
      { s with channel := (M.parse s.channel bytes).1
               qToGcs := s.qToGcs ++ (M.parse s.channel bytes).2 } := by
  induction bytes generalizing s with
  | nil => simp [readBytes, tagged, Mavlink.parse]
  | cons c bytes ih =>
    have hcons : s.readBytes (tagged .autopilot (c :: bytes)) =
        (s.autopilotReadByte c).readBytes (tagged .autopilot bytes) := rfl
    rw [hcons, ih]
    simp [autopilotReadByte, Mavlink.parse]

/-- What a turn of `autopilot_read_message` does with the channel and its queue is to parse some
    bytes. -/
theorem autopilotReadMessage_readBytes {result : Option Int}
    (h : s.autopilotReadMessage W fuel L = some (result, s')) :
    ∃ bytes, s' = { s.readBytes (tagged .autopilot bytes) with
      life := s'.life, recvSize := s'.recvSize } := by
  obtain ⟨life, channel, recvSize, messages, hreceive, rfl⟩ := autopilotReadMessage_cases h
  obtain ⟨bytes, hchannel, hmessages⟩ := receive_parses hreceive
  refine ⟨bytes, ?_⟩
  rw [readBytes_autopilot, ← hchannel, ← hmessages]

theorem readByte_channel (e : Reader × UInt8) :
    (s.readByte e).channel = (M.parseChar s.channel e.2).1 := by
  obtain ⟨k, c⟩ := e
  cases k <;> rfl

theorem readByte_queue (e : Reader × UInt8) (k : Reader) :
    (s.readByte e).queue k = s.queue k ++ Transducer.received M.parseChar k s.channel [e] := by
  obtain ⟨k', c⟩ := e
  cases hout : (M.parseChar s.channel c).2 <;> cases k <;> cases k' <;>
    simp [readByte, gcsReadByte, autopilotReadByte, queue, Transducer.received, run, sharedStep,
      own, hout]

/-- Each queue gets what its reader receives from the parser that both share. -/
theorem readBytes_queue (l : List (Reader × UInt8)) (k : Reader) :
    (s.readBytes l).queue k = s.queue k ++ Transducer.received M.parseChar k s.channel l := by
  induction l generalizing s with
  | nil => simp [readBytes, Transducer.received, run, own]
  | cons e l ih =>
    have hsplit : Transducer.received M.parseChar k s.channel (e :: l) =
        Transducer.received M.parseChar k s.channel [e] ++
          Transducer.received M.parseChar k (M.parseChar s.channel e.2).1 l :=
      Transducer.received_append k s.channel [e] l
    rw [readBytes_cons, ih, readByte_channel, readByte_queue, hsplit, List.append_assoc]

end Client

/-! ### Runs of the threads -/

namespace Client

variable {s s' : Client M σ}

/-- Between two states of a run the readers have parsed the bytes of an interleaving, in which
    each queue got what it still has and what was taken out of it. -/
structure Parsed (s : Client M σ) (l : List (Reader × UInt8)) (s' : Client M σ) : Prop where
  channel : s'.channel = (s.readBytes l).channel
  queue : ∀ k, ∃ taken, (s.readBytes l).queue k = taken ++ s'.queue k

theorem Parsed.of_eq (hchannel : s'.channel = s.channel)
    (hqToAutopilot : s'.qToAutopilot = s.qToAutopilot) (hqToGcs : s'.qToGcs = s.qToGcs) :
    s.Parsed [] s' := by
  refine ⟨hchannel, fun k => ⟨[], ?_⟩⟩
  cases k with
  | gcs => exact hqToAutopilot.symm
  | autopilot => exact hqToGcs.symm

theorem readBytes_channel (l : List (Reader × UInt8)) :
    (s.readBytes l).channel = (M.parse s.channel (l.map Prod.snd)).1 := by
  induction l generalizing s with
  | nil => rfl
  | cons e l ih => rw [readBytes_cons, ih, readByte_channel, List.map_cons, Mavlink.parse]

theorem Parsed.trans {s'' : Client M σ} {l l' : List (Reader × UInt8)} (h : s.Parsed l s')
    (h' : s'.Parsed l' s'') : s.Parsed (l ++ l') s'' := by
  constructor
  · rw [h'.channel, readBytes_channel, readBytes_channel, h.channel, readBytes_channel,
      List.map_append, Mavlink.parse_append]
  · intro k
    obtain ⟨taken, htaken⟩ := h.queue k
    obtain ⟨taken', htaken'⟩ := h'.queue k
    refine ⟨taken ++ taken', ?_⟩
    rw [readBytes_queue] at htaken htaken' ⊢
    rw [Transducer.received_append, ← List.append_assoc, htaken, List.append_assoc,
      List.append_assoc, ← htaken', h.channel, readBytes_channel, Mavlink.parse_eq_run]

theorem reconnect_parsed (h : s.reconnect W fuel = some s') : s.Parsed [] s' := by
  obtain ⟨result, result', life, stop, -, -, rfl⟩ := reconnect_cases h
  exact .of_eq rfl rfl rfl

theorem poll_parsed (h : s.poll W fuel L = some s') : s.Parsed [] s' := by
  rcases poll_cases h with ⟨-, hreconnect⟩ | ⟨-, rfl⟩ | ⟨-, _, -, _, _, rfl⟩
  · have hpolled : s.Parsed [] { s with life := polled W s.life } := .of_eq rfl rfl rfl
    exact hpolled.trans (reconnect_parsed hreconnect)
  · exact .of_eq rfl rfl rfl
  · exact .of_eq rfl rfl rfl

theorem read_parsed (hpc : s.readWritePc = .read) (h : s.readWrite W fuel L = some s') :
    ∃ l, s.Parsed l s' := by
  obtain ⟨result, s₁, hread, hcase⟩ := readWrite_read hpc h
  obtain ⟨bytes, hbytes⟩ := autopilotReadMessage_readBytes hread
  have hs₁ : s.Parsed (tagged .autopilot bytes) s₁ := by
    refine ⟨?_, fun k => ⟨[], ?_⟩⟩
    · rw [hbytes]
    · rw [hbytes]
      cases k <;> rfl
  rcases hcase with rfl | ⟨code, -, -, hreconnect⟩ | rfl
  · exact ⟨_, hs₁⟩
  · exact ⟨_, hs₁.trans (reconnect_parsed hreconnect)⟩
  · exact ⟨_, hs₁.trans (.of_eq rfl rfl rfl)⟩

theorem write_parsed (hpc : s.readWritePc = .write) (h : s.readWrite W fuel L = some s') :
    ∃ l, s.Parsed l s' := by
  obtain ⟨result, s₁, hwrite, hcase⟩ := readWrite_write hpc h
  have hs₁ : s.Parsed [] s₁ := by
    rcases autopilotWriteMessage_cases hwrite with
      ⟨rfl, -⟩ | ⟨message, qToAutopilot, life, hqueue, rfl, -, -⟩
    · exact .of_eq rfl rfl rfl
    · refine ⟨rfl, ?_⟩
      intro k
      cases k with
      | gcs => exact ⟨[message], hqueue⟩
      | autopilot => exact ⟨[], rfl⟩
  rcases hcase with ⟨-, hreconnect⟩ | ⟨-, rfl⟩
  · exact ⟨_, hs₁.trans (reconnect_parsed hreconnect)⟩
  · exact ⟨_, hs₁.trans (.of_eq rfl rfl rfl)⟩

theorem step_parsed (step : ClientStep) (h : step.run W fuel L s = some s') :
    ∃ l, s.Parsed l s' := by
  cases step with
  | readWrite =>
    cases hpc : s.readWritePc with
    | poll => exact ⟨[], poll_parsed (readWrite_poll hpc h)⟩
    | read => exact read_parsed hpc h
    | write => exact write_parsed hpc h
  | gcsRead bytes =>
    obtain rfl := Option.some.inj h
    refine ⟨tagged .gcs bytes, ?_, fun k => ⟨[], ?_⟩⟩
    · rw [readBytes_gcs]
    · rw [readBytes_gcs]
      rfl
  | gcsWrite =>
    obtain rfl := Option.some.inj h
    refine ⟨[], ?_⟩
    rw [gcsWrite]
    split
    · exact .of_eq rfl rfl rfl
    · rename_i message qToGcs hqueue
      refine ⟨rfl, ?_⟩
      intro k
      cases k with
      | gcs => exact ⟨[], rfl⟩
      | autopilot => exact ⟨[message], hqueue⟩

/-- Whatever the threads do, the readers have parsed an interleaving of bytes. -/
theorem run_parsed (life : Life σ) (steps : List ClientStep) :
    ∀ s ∈ Runs.states (ClientStep.run W fuel L) (Client.start (M := M) W fuel life) steps,
      ∃ l, (Client.start W fuel life).Parsed l s := by
  apply Runs.states_induction
  · rintro step s s' h ⟨l, hl⟩
    obtain ⟨l', hl'⟩ := step_parsed step h
    exact ⟨l ++ l', hl.trans hl'⟩
  · exact ⟨[], .of_eq rfl rfl rfl⟩

end Client

/-! ### The streams -/

/-- Both queues of a client that starts are empty, and its channel is idle. -/
theorem start_queue (life : Life σ) (l : List (Reader × UInt8)) (k : Reader) :
    ((Client.start (M := M) W fuel life).readBytes l).queue k =
      Transducer.received M.parseChar k M.idle l := by
  rw [Client.readBytes_queue]
  cases k <;> rfl

/-- **When the streams do not interfere.**  An interleaving of the bytes of the two readers is
    one in which every reader that comes, with any bytes, has and gets in its queue the messages
    of its own stream, exactly if the channel is as good as idle whenever the reader changes.
    Then each queue depends on its own stream only; and it does so in all interleavings exactly
    if the parser keeps nothing from one byte to the next. -/
theorem streams_undisturbed_iff (life : Life σ) :
    let read (l : List (Reader × UInt8)) := (Client.start (M := M) W fuel life).readBytes l
    (∀ l, (∀ pre e post, l = pre ++ e :: post → ∀ bytes,
        (read (pre ++ tagged e.1 bytes)).queue e.1 = (M.parse M.idle (own e.1 pre ++ bytes)).2) ↔
          Clean M.parseChar M.idle l) ∧
      (∀ l, Clean M.parseChar M.idle l →
        (read l).qToAutopilot = (M.parse M.idle (own .gcs l)).2 ∧
          (read l).qToGcs = (M.parse M.idle (own .autopilot l)).2) ∧
      ((∀ l l', (∀ k, own k l = own k l') →
          (read l).qToAutopilot = (read l').qToAutopilot ∧ (read l).qToGcs = (read l').qToGcs) ↔
        Memoryless M.parseChar M.idle) := by
  intro read
  have hqueue : ∀ l k, (read l).queue k = Transducer.received M.parseChar k M.idle l :=
    start_queue life
  refine ⟨?_, ?_, ?_⟩
  · intro l
    simp only [hqueue, Mavlink.parse_eq_run]
    exact undisturbed_iff
  · intro l hclean
    have hown : ∀ k, (read l).queue k = (M.parse M.idle (own k l)).2 := by
      intro k
      rw [hqueue, (hclean.found k).received, Mavlink.parse_eq_run]
    exact ⟨hown .gcs, hown .autopilot⟩
  · have hne : Reader.gcs ≠ Reader.autopilot := by decide
    rw [← noninterfering_iff hne]
    apply forall₂_congr
    intro l l'
    apply forall_congr'
    intro howns
    constructor
    · rintro ⟨hgcs, hautopilot⟩ k
      rw [← hqueue, ← hqueue]
      cases k with
      | gcs => exact hgcs
      | autopilot => exact hautopilot
    · intro hreceived
      simp only [← hqueue] at hreceived
      exact ⟨hreceived .gcs, hreceived .autopilot⟩

/-- A heartbeat of the GCS. -/
def gcsHeartbeat : List UInt8 := Mavlink1.frame ⟨0, 255, 190, 0, [0, 0, 0, 0, 6, 8, 192, 4, 3]⟩

/-- A heartbeat of the autopilot. -/
def autopilotHeartbeat : List UInt8 := Mavlink1.frame ⟨0, 1, 1, 0, [0, 0, 0, 0, 2, 3, 81, 3, 3]⟩

/-- Each heartbeat arrives at its queue when the readers take turns by frames; when they take
    turns by bytes, none does. -/
theorem streams_interfere :
    let read (l : List (Reader × UInt8)) :=
      (Client.start (M := mavlink1) healthyHost 1 ⟨refused, []⟩).readBytes l
    let frames := tagged Reader.gcs gcsHeartbeat ++ tagged Reader.autopilot autopilotHeartbeat
    let bytes := (List.zipWith (fun c c' => [(Reader.gcs, c), (Reader.autopilot, c')])
      gcsHeartbeat autopilotHeartbeat).flatten
    (∀ k, own k frames = own k bytes) ∧
      (read frames).qToAutopilot.length = 1 ∧ (read frames).qToGcs.length = 1 ∧
        (read bytes).qToAutopilot = [] ∧ (read bytes).qToGcs = [] := by
  intro read frames bytes
  refine ⟨?_, ?_⟩
  · intro k
    cases k <;> decide +kernel
  · decide +kernel

end MavlinkDim
