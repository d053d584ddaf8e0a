import MavlinkDim.EndlessRuns
import MavlinkDim.WholeRecords

/-!
# When a handshake ends

The rounds of a handshake go on as long as the device answers success.  They take no
notice of a socket that is at its end, nor of a device that consumes nothing of its
input.  A `Dialogue` is what the device and the peer do to each other, without the
buffers of the driver; a round of the handshake is a step of it.  With a peer that sends
finitely many bytes, `handshake_returns_iff` leaves one way not to return: a device that
answers success for ever and from some round on consumes nothing.
-/

namespace MavlinkDim

open ByteMemory EndlessRuns

variable {δ : Type}

/-! ### The dialogue of the device and the peer -/

def nextInput (response : List UInt8) : UInt8 := ofList response 4

def responseRecordLen (response : List UInt8) : Nat :=
  word (ofList response 5) (ofList response 6)

def handshakeRequest (cmd l : List UInt8) : List UInt8 := cmd ++ bytes16 l.length ++ l

/-- What the next round finds of the input: the response is received over the request, and the
    unused input is the end of the request. -/
def leftover (request response : List UInt8) : List UInt8 :=
  slice (put (ofList request) 0 response) (request.length - unusedInputLen response)
    (unusedInputLen response)

@[simp] theorem length_leftover (request response : List UInt8) :
    (leftover request response).length = unusedInputLen response := by
  rw [leftover, length_slice]

section Net

variable (N : Net δ) (socketDesc : Int)

/-- What the socket gives with one read, if it is in order. -/
def Net.recv (count : Nat) (env : δ) : Option (List UInt8) × δ :=
  let (iRv, error, env) := N.getsockopt env socketDesc
  if iRv = -1 then (none, env)
  else if error ≠ 0 then (none, env)
  else
    let (l, env) := N.read env socketDesc count
    (l.map Subtype.val, env)

/-- Whether the socket takes `count` bytes with one write, all of them or a part. -/
def Net.send (data : Bytes) (count : Nat) (env : δ) : Bool × δ :=
  let (iRv, error, env) := N.getsockopt env socketDesc
  if iRv = -1 then (false, env)
  else if error ≠ 0 then (false, env)
  else
    let (k, env) := N.write env socketDesc data count
    (k.isSome, env)

/-- An empty record is not sent. -/
def Net.sendRecord (record : List UInt8) (env : δ) : Bool × δ :=
  if record.length > 0 then N.send socketDesc (ofList record) record.length env else (true, env)

end Net

/-- The device and the network, whether the device asks for input, and what is left of the
    input it was given before. -/
structure Dialogue (δ : Type) where
  env : δ
  bNextInput : UInt8
  left : List UInt8

namespace Dialogue

variable (D : Device δ) (N : Net δ) (socketDesc : Int) (cmd : List UInt8)

/-- What the device is given: what is left, or one read of the socket. -/
def input (d : Dialogue δ) : Option (List UInt8) × δ :=
  if d.bNextInput = KSE_TRUE then
    if d.left = [] then N.recv socketDesc MAX_IO_DATA_SIZE d.env else (some d.left, d.env)
  else (some [], d.env)

/-- The device answers success, and the socket takes its record. -/
def reply (l : List UInt8) (env : δ) : Option (Dialogue δ) :=
  let request := handshakeRequest cmd l
  let (response, env) := D.exec env request
  if responseStatus response = KSE_SUCCESS then
    let (sent, env) :=
      N.sendRecord socketDesc (slice (ofList response) 7 (responseRecordLen response)) env
    if sent then some ⟨env, nextInput response, leftover request response⟩ else none
  else none

def next (d : Dialogue δ) : Option (Dialogue δ) :=
  match d.input N socketDesc with
  | (none, _) => none
  | (some l, env) => reply D N socketDesc cmd l env

/-- The device consumes nothing of what it is given. -/
def Idle (d : Dialogue δ) : Prop :=
  match d.input N socketDesc with
  | (none, _) => False
  | (some l, env) => unusedInputLen (D.exec env (handshakeRequest cmd l)).1 = l.length

end Dialogue

/-! ### What is assumed of the device and the peer -/

/-- A response to a handshake command with `sInLen` bytes of input: two bytes with a status that
    is not success, or the seven bytes of the fields and the record that they announce. -/
def InReplyFormat (sInLen : Nat) (response : List UInt8) : Prop :=
  response.length ≤ MAX_IO_BUFFER_SIZE ∧
    (response.length = 2 ∧ responseStatus response ≠ KSE_SUCCESS ∨
      response.length = 7 + responseRecordLen response ∧ unusedInputLen response ≤ sInLen)

theorem InReplyFormat.unused_le {sInLen : Nat} {response : List UInt8}
    (h : InReplyFormat sInLen response) (hstatus : responseStatus response = KSE_SUCCESS) :
    unusedInputLen response ≤ sInLen := by
  obtain ⟨-, ⟨-, hfailed⟩ | ⟨-, hunused⟩⟩ := h
  · exact absurd hstatus hfailed
  · exact hunused

/-- The device follows the reply format of the handshake commands. -/
def FollowsReplyFormat (D : Device δ) (cmd : List UInt8) : Prop :=
  ∀ env l, l.length ≤ MAX_IO_DATA_SIZE →
    InReplyFormat l.length (D.exec env (handshakeRequest cmd l)).1

/-- `write` looks at the bytes that it is to write, and at no others. -/
def WritesOnlyCount (N : Net δ) : Prop :=
  ∀ env socketDesc data data' count, (∀ i < count, data i = data' i) →
    N.write env socketDesc data count = N.write env socketDesc data' count

theorem WritesOnlyCount.send_congr {N : Net δ} (h : WritesOnlyCount N) {socketDesc : Int}
    {data data' : Bytes} {count : Nat} (hdata : ∀ i < count, data i = data' i) :
    N.send socketDesc data count = N.send socketDesc data' count := by
  funext env
  simp only [Net.send, h _ socketDesc data data' count hdata]

/-- The peer sends at most `unsent` more bytes.  What is received is no longer unsent, and nothing
    else that happens gives it more to send. -/
structure FinitePeer (D : Device δ) (N : Net δ) (socketDesc : Int) (unsent : δ → Nat) : Prop where
  exec : ∀ env request, unsent (D.exec env request).2 ≤ unsent env
  getsockopt : ∀ env, unsent (N.getsockopt env socketDesc).2.2 ≤ unsent env
  write : ∀ env data count, unsent (N.write env socketDesc data count).2 ≤ unsent env
  read : ∀ env count l env', N.read env socketDesc count = (some l, env') →
    l.val.length + unsent env' ≤ unsent env

/-! ### The progress of a dialogue -/

section Progress

variable {D : Device δ} {N : Net δ} {socketDesc : Int} {cmd : List UInt8} {unsent : δ → Nat}

/-- What is received is the result of a `read` of a socket that is in order. -/
theorem Net.recv_read {count : Nat} {env env' : δ} {l : List UInt8}
    (h : N.recv socketDesc count env = (some l, env')) :
    ∃ l', N.read (N.getsockopt env socketDesc).2.2 socketDesc count = (some l', env') ∧
      l'.val = l := by
  rcases hcall : N.getsockopt env socketDesc with ⟨iRv, error, env₁⟩
  rcases hread : N.read env₁ socketDesc count with ⟨r, env₂⟩
  simp only [Net.recv, hcall, hread] at h
  split at h
  · cases h
  · split at h
    · cases h
    · cases r with
      | none => cases h
      | some l' =>
        cases h
        exact ⟨l', rfl, rfl⟩

theorem Net.recv_length {count : Nat} {env env' : δ} {l : List UInt8}
    (h : N.recv socketDesc count env = (some l, env')) : l.length ≤ count := by
  obtain ⟨l', -, rfl⟩ := Net.recv_read h
  exact l'.property

theorem FinitePeer.recv (hpeer : FinitePeer D N socketDesc unsent) {count : Nat} {env env' : δ}
    {l : List UInt8} (h : N.recv socketDesc count env = (some l, env')) :
    l.length + unsent env' ≤ unsent env := by
  obtain ⟨l', hread, rfl⟩ := Net.recv_read h
  exact (hpeer.read _ _ l' env' hread).trans (hpeer.getsockopt env)

theorem FinitePeer.send (hpeer : FinitePeer D N socketDesc unsent) (data : Bytes) (count : Nat)
    (env : δ) : unsent (N.send socketDesc data count env).2 ≤ unsent env := by
  have hopt := hpeer.getsockopt env
  rcases hcall : N.getsockopt env socketDesc with ⟨iRv, error, env₁⟩
  rw [hcall] at hopt
  rw [Net.send, hcall]
  dsimp only
  split
  · exact hopt
  · split
    · exact hopt
    · exact (hpeer.write env₁ data count).trans hopt

theorem FinitePeer.sendRecord (hpeer : FinitePeer D N socketDesc unsent) (record : List UInt8)
    (env : δ) : unsent (N.sendRecord socketDesc record env).2 ≤ unsent env := by
  rw [Net.sendRecord]
  split
  · exact hpeer.send (ofList record) record.length env
  · exact Nat.le_refl _

namespace Dialogue

theorem reply_cases {l : List UInt8} {env : δ} {d : Dialogue δ}
    (h : reply D N socketDesc cmd l env = some d) :
    responseStatus (D.exec env (handshakeRequest cmd l)).1 = KSE_SUCCESS ∧
      d.env = (N.sendRecord socketDesc
        (slice (ofList (D.exec env (handshakeRequest cmd l)).1) 7
          (responseRecordLen (D.exec env (handshakeRequest cmd l)).1))
        (D.exec env (handshakeRequest cmd l)).2).2 ∧
      d.left = leftover (handshakeRequest cmd l) (D.exec env (handshakeRequest cmd l)).1 := by
  rw [reply] at h
  rcases hexec : D.exec env (handshakeRequest cmd l) with ⟨response, env₁⟩
  rw [hexec] at h
  dsimp only at h ⊢
  split at h
  · rename_i hstatus
    split at h
    · cases h
      exact ⟨hstatus, rfl, rfl⟩
    · cases h
  · cases h

/-- A measure of what the peer has not sent and the device has not consumed. -/
def pendingInput (unsent : δ → Nat) (d : Dialogue δ) : Nat := 2 * unsent d.env + d.left.length

/-- The input of a round comes out of what was left or was not sent; what was received counts
    twice before it is. -/
theorem input_le (hpeer : FinitePeer D N socketDesc unsent) {d : Dialogue δ} {l : List UInt8}
    {env : δ} (h : d.input N socketDesc = (some l, env)) :
    2 * unsent env + l.length ≤ pendingInput unsent d := by
  rw [input] at h
  rw [pendingInput]
  split at h
  · split at h
    · have hlen := hpeer.recv h
      omega
    · cases h
      exact Nat.le_refl _
  · cases h
    exact Nat.le_add_right _ _

theorem input_length {d : Dialogue δ} (hleft : d.left.length ≤ MAX_IO_DATA_SIZE) {l : List UInt8}
    {env : δ} (h : d.input N socketDesc = (some l, env)) : l.length ≤ MAX_IO_DATA_SIZE := by
  rw [input] at h
  split at h
  · split at h
    · exact Net.recv_length h
    · cases h
      exact hleft
  · cases h
    exact Nat.zero_le _

/-- A step that is made has an input, and the answer to it is the next state. -/
theorem next_cases {d d' : Dialogue δ} (h : d.next D N socketDesc cmd = some d') :
    ∃ l env, d.input N socketDesc = (some l, env) ∧
      reply D N socketDesc cmd l env = some d' := by
  rw [next] at h
  rcases hinput : d.input N socketDesc with ⟨_ | l, env⟩
  · rw [hinput] at h
    cases h
  · rw [hinput] at h
    exact ⟨l, env, rfl, h⟩

/-- A step leaves no more behind than the input it was given. -/
theorem next_left (hD : FollowsReplyFormat D cmd) {d d' : Dialogue δ}
    (hleft : d.left.length ≤ MAX_IO_DATA_SIZE) (h : d.next D N socketDesc cmd = some d') :
    d'.left.length ≤ MAX_IO_DATA_SIZE := by
  obtain ⟨l, env, hinput, hreply⟩ := next_cases h
  have hl := input_length hleft hinput
  obtain ⟨-, -, hleft'⟩ := reply_cases hreply
  rw [hleft', length_leftover]
  exact ((hD env l hl).unused_le (reply_cases hreply).1).trans hl

/-- A step leaves less unless the device is idle. -/
theorem next_pendingInput (hD : FollowsReplyFormat D cmd)
    (hpeer : FinitePeer D N socketDesc unsent) {d d' : Dialogue δ}
    (hleft : d.left.length ≤ MAX_IO_DATA_SIZE) (h : d.next D N socketDesc cmd = some d') :
    pendingInput unsent d' ≤ pendingInput unsent d ∧
      (pendingInput unsent d' = pendingInput unsent d → d.Idle D N socketDesc cmd) := by
  obtain ⟨l, env, hinput, hreply⟩ := next_cases h
  obtain ⟨hstatus, henv, hleft'⟩ := reply_cases hreply
  have hunused := (hD env l (input_length hleft hinput)).unused_le hstatus
  have hsend := hpeer.sendRecord (slice (ofList (D.exec env (handshakeRequest cmd l)).1) 7
    (responseRecordLen (D.exec env (handshakeRequest cmd l)).1))
    (D.exec env (handshakeRequest cmd l)).2
  have hexec := hpeer.exec env (handshakeRequest cmd l)
  have hgiven := input_le hpeer hinput
  have hnext : pendingInput unsent d' =
      2 * unsent d'.env + unusedInputLen (D.exec env (handshakeRequest cmd l)).1 := by
    rw [pendingInput, hleft', length_leftover]
  rw [← henv] at hsend
  refine ⟨by omega, fun heq => ?_⟩
  rw [Idle, hinput]
  show unusedInputLen _ = l.length
  omega

/-- In an endless dialogue with a peer that sends finitely many bytes the device is idle from some
    step on. -/
theorem idle_of_endless (hD : FollowsReplyFormat D cmd)
    (hpeer : FinitePeer D N socketDesc unsent) {d : Dialogue δ} {run : Nat → Dialogue δ}
    (hleft : d.left.length ≤ MAX_IO_DATA_SIZE)
    (h : Endless (next D N socketDesc cmd) d run) :
    ∃ K, ∀ k ≥ K, (run k).Idle D N socketDesc cmd := by
  have hlength := h.invariant hleft fun hleft hstep => next_left hD hleft hstep
  obtain ⟨K, hK⟩ := h.settles hlength fun hleft hstep => (next_pendingInput hD hpeer hleft hstep).1
  exact ⟨K, fun k hk => (next_pendingInput hD hpeer (hlength k) (h.step k)).2 (hK k hk)⟩

end Dialogue

end Progress

/-! ### A round is a step of the dialogue -/

section Rounds

variable {D : Device δ} {N : Net δ} {indeterminate : δ → Int} {fuel : Nat} {socketDesc : Int}
  {cmd : List UInt8}

theorem tlsRecv_net (offset : Nat) (sDataBufferLen : Int) (x : Kse (Frame δ)) :
    ∃ w : Frame δ, w.request = x.world.request ∧
      match N.recv socketDesc (sizeT sDataBufferLen) x.world.env with
      | (none, _) =>
        tlsRecv (frameWorld D N indeterminate) offset sDataBufferLen socketDesc x =
          (-1, { x with world := w })
      | (some l, env) => w.env = env ∧
        tlsRecv (frameWorld D N indeterminate) offset sDataBufferLen socketDesc x =
          (int16 l.length,
            { x with gabTxRxData := put x.gabTxRxData offset l, world := w
                     trace := x.trace ++ [.received l] }) := by
  rcases hcall : N.getsockopt x.world.env socketDesc with ⟨iRv, error, env₁⟩
  rcases hread : N.read env₁ socketDesc (sizeT sDataBufferLen) with ⟨r, env₂⟩
  simp only [tlsRecv, frameWorld, Net.recv, hcall, hread]
  by_cases hrv : iRv = -1
  · refine ⟨{ x.world with env := env₁ }, rfl, ?_⟩
    simp only [if_pos hrv]
  · by_cases herror : error = 0
    · refine ⟨{ x.world with env := env₂ }, rfl, ?_⟩
      simp only [if_neg hrv, if_neg (not_not.mpr herror)]
      cases r with
      | none => rfl
      | some l => exact ⟨rfl, rfl⟩
    · refine ⟨{ x.world with env := env₁ }, rfl, ?_⟩
      simp only [if_neg hrv, if_pos herror]

theorem tlsSend_net {sDataBufferLen : Int} (hshort : sizeT sDataBufferLen < 32768) (offset : Nat)
    (x : Kse (Frame δ)) :
    ∃ w : Frame δ, ∃ sOutLen, w.request = x.world.request ∧
      N.send socketDesc (fun i => x.gabTxRxData (offset + i)) (sizeT sDataBufferLen) x.world.env =
        (decide (0 ≤ sOutLen), w.env) ∧
      tlsSend (frameWorld D N indeterminate) socketDesc offset sDataBufferLen x =
        (sOutLen,
          { x with world := w, trace := x.trace ++ [.sent offset (sizeT sDataBufferLen)] }) := by
  rcases hcall : N.getsockopt x.world.env socketDesc with ⟨iRv, error, env₁⟩
  rcases hk : N.write env₁ socketDesc (fun i => x.gabTxRxData (offset + i))
    (sizeT sDataBufferLen) with ⟨k, env₂⟩
  simp only [tlsSend, frameWorld, Net.send, hcall, hk]
  by_cases hrv : iRv = -1
  · refine ⟨{ x.world with env := env₁ }, -1, rfl, ?_, ?_⟩
    · simp only [if_pos hrv]
      rfl
    · simp only [if_pos hrv]
  · by_cases herror : error = 0
    · simp only [if_neg hrv, if_neg (not_not.mpr herror)]
      cases k with
      | none => exact ⟨{ x.world with env := env₂ }, -1, rfl, rfl, rfl⟩
      | some k =>
        have hcount : int16 k.val = k.val :=
          int16_of_lt (by omega) (by exact_mod_cast k.property.trans_lt hshort)
        refine ⟨{ x.world with env := env₂ }, int16 k.val, rfl, ?_, rfl⟩
        simp [hcount]
    · refine ⟨{ x.world with env := env₁ }, -1, rfl, ?_, ?_⟩
      · simp only [if_neg hrv, if_pos herror]
        rfl
      · simp only [if_neg hrv, if_pos herror]

/-- The record of a response that is in the buffer is what the dialogue sends. -/
theorem sendRecord_net (hwrite : WritesOnlyCount N) {response : List UInt8} {usRecordLen : Nat}
    (hlen : 7 + usRecordLen ≤ response.length) (hmax : response.length ≤ MAX_IO_BUFFER_SIZE)
    {x : Kse (Frame δ)} {m : Bytes} (hm : x.gabTxRxData = put m 0 response) :
    ∃ w : Frame δ, ∃ sOutLen sent es, w.request = x.world.request ∧
      N.sendRecord socketDesc (slice (ofList response) 7 usRecordLen) x.world.env =
        (sent, w.env) ∧
      sendRecord (frameWorld D N indeterminate) socketDesc 7 usRecordLen x =
        (!sent, sOutLen, { x with world := w, trace := x.trace ++ es }) := by
  simp only [MAX_IO_BUFFER_SIZE, MAX_IO_DATA_SIZE, MAX_IO_CTRL_LEN] at hmax
  rw [Net.sendRecord, sendRecord, length_slice]
  by_cases hpos : usRecordLen > 0
  · have hcount : sizeT (int16 usRecordLen) = usRecordLen := by
      rw [int16_of_lt (by omega) (by omega), sizeT_of_nonneg (by omega) (by omega)]
      exact Int.toNat_natCast _
    obtain ⟨w, sOutLen, hw, hsent, hcall⟩ := @tlsSend_net δ D N indeterminate socketDesc
      (int16 usRecordLen) (by omega) 7 x
    have hsame : N.send socketDesc (ofList (slice (ofList response) 7 usRecordLen)) usRecordLen =
        N.send socketDesc (fun i => x.gabTxRxData (7 + i)) usRecordLen := by
      apply hwrite.send_congr
      intro i hi
      rw [ofList_slice _ _ hi, hm, put_in m (Nat.zero_le _) (by omega)]
      simp [ofList, show 7 + i < response.length by omega]
    rw [hcount] at hsent hcall
    rw [if_pos hpos, if_pos hpos, hsame, hcall]
    refine ⟨w, sOutLen, decide (0 ≤ sOutLen), [.sent 7 usRecordLen], hw, hsent, ?_⟩
    have hreturned : decide (sOutLen < 0) = !decide (0 ≤ sOutLen) := by
      rw [← decide_not, decide_eq_decide, Int.not_le]
    dsimp only
    rw [hreturned]
  · rw [if_neg hpos, if_neg hpos]
    exact ⟨x.world, _, true, [], rfl, rfl, by rw [List.append_nil]; rfl⟩

/-- The driver is ready for the next round of the dialogue. -/
structure Agrees (h : Handshake (Frame δ)) (d : Dialogue δ) : Prop where
  ready : Ready h.kse
  env : h.kse.world.env = d.env
  bNextInput : h.bNextInput = d.bNextInput
  pending : h.kse.pending = d.left

variable (D N indeterminate socketDesc) in
/-- What a round gives the device, and whether it returns before. -/
def roundInput (offset : Nat) (h : Handshake (Frame δ)) : Bool × Int × Kse (Frame δ) :=
  if h.bNextInput = KSE_TRUE then
    receiveRecord (frameWorld D N indeterminate) offset socketDesc h.kse
  else (false, 0, h.kse)

/-- It is the input of the dialogue. -/
theorem roundInput_agrees {h : Handshake (Frame δ)} {d : Dialogue δ} (hagrees : Agrees h d)
    (offset : Nat) {r : Option (List UInt8)} {env : δ} (hin : d.input N socketDesc = (r, env)) :
    (r = none ∧ (roundInput D N indeterminate socketDesc offset h).1 = true) ∨
      ∃ l w es, r = some l ∧ w.request = [] ∧ w.env = env ∧
        roundInput D N indeterminate socketDesc offset h =
          (false, (l.length : Int),
            { h.kse with gabTxRxData := put h.kse.gabTxRxData offset l, world := w
                         trace := h.kse.trace ++ es }) := by
  have hready := hagrees.ready
  have hmax : h.kse.gusTxRxDataLength ≤ 2944 := hready.length
  have hlength : h.kse.gusTxRxDataLength = d.left.length := by
    rw [← hagrees.pending, Kse.pending, length_slice]
  rw [Dialogue.input] at hin
  rw [roundInput, hagrees.bNextInput, receiveRecord, hlength]
  by_cases hnext : d.bNextInput = KSE_TRUE
  · rw [if_pos hnext] at hin ⊢
    by_cases hempty : d.left = []
    · rw [if_pos hempty] at hin
      rw [if_pos (List.length_eq_zero_iff.mpr hempty)]
      obtain ⟨w, hw, hrecv⟩ := @tlsRecv_net δ D N indeterminate socketDesc offset
        MAX_IO_DATA_SIZE h.kse
      have hcount : sizeT (MAX_IO_DATA_SIZE : Int) = MAX_IO_DATA_SIZE := by
        rw [sizeT_of_nonneg (by simp) (by simp)]
        rfl
      rw [hcount, hagrees.env, hin] at hrecv
      cases r with
      | none =>
        dsimp only at hrecv
        exact Or.inl ⟨rfl, by rw [hrecv]; rfl⟩
      | some l =>
        have hl : l.length ≤ 2944 := Net.recv_length hin
        obtain ⟨henv, hcall⟩ := hrecv
        refine Or.inr ⟨l, w, [.received l], rfl, hw.trans hready.idle, henv, ?_⟩
        rw [hcall, int16_of_lt (by omega) (by omega)]
        simp
    · rw [if_neg hempty] at hin
      rw [if_neg (fun hzero => hempty (List.length_eq_zero_iff.mp hzero))]
      obtain ⟨rfl, rfl⟩ := Prod.mk.inj hin
      refine Or.inr ⟨d.left, h.kse.world, [], rfl, hready.idle, hagrees.env, ?_⟩
      rw [int16_of_lt (by omega) (by omega), cpy_eq_blit, blit_eq_put, ← hlength,
        ← hagrees.pending, List.append_nil]
      rfl
  · rw [if_neg hnext] at hin ⊢
    obtain ⟨rfl, rfl⟩ := Prod.mk.inj hin
    refine Or.inr ⟨[], h.kse.world, [], rfl, hready.idle, hagrees.env, ?_⟩
    rw [put_nil, List.append_nil]
    rfl

/-- What the command of a round leaves in the buffer: the response over the request. -/
structure Replied (cmd l response : List UInt8) (e : Exchange) : Prop where
  sRv : e.sRv = some KSE_SUCCESS
  usLen : e.usLen = response.length
  buffer : ∃ m, slice m 0 (handshakeRequest cmd l).length = handshakeRequest cmd l ∧
    e.gabTxRxData = put m 0 response

theorem length_handshakeRequest (cmd l : List UInt8) :
    (handshakeRequest cmd l).length = cmd.length + 2 + l.length := by
  simp [handshakeRequest, Nat.add_assoc]

/-- The command of a round to a device that follows the reply format. -/
theorem replied_frame (hcmd : cmd.length ≤ 7) (hfuel : 51 ≤ fuel) {y : Kse (Frame δ)}
    {l : List UInt8} {m : Bytes} (hm : y.gabTxRxData = put m (cmd.length + 2) l)
    (hl : l.length ≤ MAX_IO_DATA_SIZE) (hdev : ∃ d, y.ghDev = some d)
    (hidle : y.world.request = []) {response : List UInt8} {env : δ}
    (hexec : D.exec y.world.env (handshakeRequest cmd l) = (response, env))
    (hmax : response.length ≤ MAX_IO_BUFFER_SIZE) {e : Exchange} {w : Frame δ}
    (hof : e.Of (frameWorld D N indeterminate) fuel w
      (uint16 ((l.length : Int) + ((cmd.length : Int) + 2)))
      (y.store 0 (cmd ++ bytes16 (uint16 l.length)))) :
    Replied cmd l response e ∧ w.request = [] ∧ w.env = env := by
  have hl' : l.length ≤ 2944 := hl
  have hlen : uint16 ((l.length : Int) + ((cmd.length : Int) + 2)) = cmd.length + 2 + l.length := by
    simp only [uint16]
    omega
  rw [hlen, uint16_of_lt (by omega)] at hof
  have hrequest : slice (y.store 0 (cmd ++ bytes16 l.length)).gabTxRxData 0
      (cmd.length + 2 + l.length) = handshakeRequest cmd l := by
    have hput := slice_put_put m 0 (cmd ++ bytes16 l.length) l
    simp only [Nat.zero_add, List.length_append, length_bytes16] at hput
    rw [Kse.store_gabTxRxData, hm, hput, handshakeRequest]
  obtain ⟨hok, -, husLen, hbuf, hw, henv⟩ := hof.frame D N indeterminate fuel hdev hidle hfuel
    hrequest (by omega) (by simp; omega) hexec hmax
  refine ⟨⟨hok, husLen, _, ?_, hbuf⟩, hw, henv⟩
  rw [length_handshakeRequest, hrequest]

namespace Replied

variable {l response : List UInt8} {e : Exchange}

theorem status_eq (h : Replied cmd l response e) (htwo : 2 ≤ response.length) :
    status e.gabTxRxData = responseStatus response := by
  obtain ⟨m, -, hbuf⟩ := h.buffer
  rw [hbuf, status_put m htwo]

theorem field_eq (h : Replied cmd l response e) {offset : Nat}
    (hoffset : offset + 1 < response.length) :
    e.field offset = word (ofList response offset) (ofList response (offset + 1)) := by
  obtain ⟨m, -, hbuf⟩ := h.buffer
  rw [Exchange.field, hbuf, word_put m hoffset]

theorem nextInput_eq (h : Replied cmd l response e) (hseven : 7 ≤ response.length) :
    e.gabTxRxData 4 = nextInput response := by
  obtain ⟨m, -, hbuf⟩ := h.buffer
  rw [hbuf, put_in m (Nat.zero_le _) (by omega)]
  simp [nextInput, ofList, show 4 < response.length by omega]

/-- The unused input of the response is pending. -/
theorem leftover_eq (h : Replied cmd l response e)
    (hunused : unusedInputLen response ≤ l.length) :
    slice e.gabTxRxData (l.length + (cmd.length + 2) - unusedInputLen response)
      (unusedInputLen response) = leftover (handshakeRequest cmd l) response := by
  obtain ⟨m, hrequest, hbuf⟩ := h.buffer
  have hlen := length_handshakeRequest cmd l
  have hsame : slice m 0 (handshakeRequest cmd l).length =
      slice (ofList (handshakeRequest cmd l)) 0 (handshakeRequest cmd l).length := by
    rw [hrequest, slice_ofList]
  have htotal : l.length + (cmd.length + 2) = (handshakeRequest cmd l).length := by omega
  rw [hbuf, leftover, htotal]
  exact slice_put_congr hsame response (by omega)

end Replied

/-- The record of an accepted response is sent as in the dialogue, and then the driver is ready
    for the next round. -/
theorem Replied.sendRecord_agrees {l response : List UInt8} {e : Exchange}
    (hreplied : Replied cmd l response e) (hwrite : WritesOnlyCount N) (hcmd : cmd.length ≤ 7)
    (hl : l.length ≤ MAX_IO_DATA_SIZE) (hmax : response.length ≤ MAX_IO_BUFFER_SIZE)
    (hlen : response.length = 7 + responseRecordLen response)
    (hunused : unusedInputLen response ≤ l.length) {x z : Kse (Frame δ)}
    (hgab : x.gabTxRxData = e.gabTxRxData) (hpower : x.gusKsePower = .on)
    (hdev : ∃ d, x.ghDev = some d) (hidle : x.world.request = []) {returned : Bool}
    {sOutLen : Int} (hsend : sendRecord (frameWorld D N indeterminate) socketDesc 7 (e.field 5) x =
      (returned, sOutLen, z)) :
    N.sendRecord socketDesc (slice (ofList response) 7 (responseRecordLen response))
        x.world.env = (!returned, z.world.env) ∧
      Agrees ⟨e.gabTxRxData 4, z.next l.length (cmd.length + 2) (e.field 2)⟩
        ⟨z.world.env, nextInput response, leftover (handshakeRequest cmd l) response⟩ := by
  have hl' : l.length ≤ 2944 := hl
  obtain ⟨m, -, hbuf⟩ := hreplied.buffer
  have hfield : e.field 5 = responseRecordLen response := hreplied.field_eq (by omega)
  have hunusedLen : e.field 2 = unusedInputLen response := hreplied.field_eq (by omega)
  obtain ⟨w, sOutLen', sent, es, hw, hsent, hcall⟩ := @sendRecord_net δ D N indeterminate
    socketDesc hwrite response (responseRecordLen response) (by omega) hmax x m (hgab.trans hbuf)
  rw [hfield] at hsend
  have hz := hcall.symm.trans hsend
  simp only [Prod.mk.injEq] at hz
  obtain ⟨rfl, -, rfl⟩ := hz
  rw [Bool.not_not, hunusedLen]
  refine ⟨hsent, ?_, ?_, hreplied.nextInput_eq (by omega), ?_⟩
  · apply ready_next
    · exact hpower
    · exact hdev
    · exact hw.trans hidle
    · exact hunused.trans hl
  · rw [Kse.next_world]
  · rw [← hreplied.leftover_eq hunused, ← hgab]
    exact Kse.next_pending _ hunused (by omega)

/-- A round of the handshake is a step of the dialogue, and the driver returns where the dialogue
    ends. -/
theorem handshakeRound_dialogue (hwrite : WritesOnlyCount N) (hD : FollowsReplyFormat D cmd)
    (hcmd : cmd.length ≤ 7) (hfuel : 51 ≤ fuel) {h : Handshake (Frame δ)} {d : Dialogue δ}
    (hagrees : Agrees h d) :
    (d.next D N socketDesc cmd = none ∧ ∃ sRv x,
      handshakeRound (frameWorld D N indeterminate) fuel cmd socketDesc h = .done (some sRv) x) ∨
    ∃ d' h', d.next D N socketDesc cmd = some d' ∧
      handshakeRound (frameWorld D N indeterminate) fuel cmd socketDesc h = .again h' ∧
      Agrees h' d' := by
  have hleft : d.left.length ≤ MAX_IO_DATA_SIZE := by
    rw [← hagrees.pending, Kse.pending, length_slice]
    exact hagrees.ready.length
  obtain ⟨returned, sInLen, y, hinput, hcases⟩ :=
    handshakeRound_cases (frameWorld D N indeterminate) fuel cmd socketDesc h
  rcases hin : d.input N socketDesc with ⟨r, env⟩
  have hgiven := @roundInput_agrees δ D N indeterminate socketDesc h d hagrees (cmd.length + 2)
    r env hin
  rw [roundInput, hinput] at hgiven
  obtain ⟨rfl, hreturned⟩ | ⟨l, w, es, rfl, hw, henv, hgiven⟩ := hgiven
  · rcases hcases with ⟨-, hround⟩ | ⟨hfalse, -⟩
    · exact Or.inl ⟨by rw [Dialogue.next, hin], _, _, hround⟩
    · exact absurd (hfalse.symm.trans hreturned) (by decide)
  · simp only [Prod.mk.injEq] at hgiven
    obtain ⟨rfl, rfl, hy⟩ := hgiven
    have hpower : y.gusKsePower = .on := by rw [hy]; exact hagrees.ready.power
    have hdev : ∃ d, y.ghDev = some d := by rw [hy]; exact hagrees.ready.dev
    have hidle : y.world.request = [] := by rw [hy]; exact hw
    have hyenv : y.world.env = env := by rw [hy, ← henv]
    rcases hcases with ⟨htrue, -⟩ | ⟨-, e, w', hof, hcases⟩
    · cases htrue
    · have hl := Dialogue.input_length hleft hin
      rcases hexec : D.exec env (handshakeRequest cmd l) with ⟨response, env'⟩
      have hformat : InReplyFormat l.length response := by
        have hreply := hD env l hl
        rwa [hexec] at hreply
      have hnext : d.next D N socketDesc cmd = Dialogue.reply D N socketDesc cmd l env := by
        rw [Dialogue.next, hin]
      rw [hnext, Dialogue.reply, hexec]
      rw [← hyenv] at hexec
      obtain ⟨hreplied, hw', henv'⟩ := replied_frame hcmd hfuel (m := h.kse.gabTxRxData)
        (by rw [hy]) hl hdev hidle hexec hformat.1 hof
      have htwo : 2 ≤ response.length := by
        rcases hformat.2 with ⟨hlen, -⟩ | ⟨hlen, -⟩ <;> omega
      rw [hreplied.status_eq htwo, hreplied.usLen] at hcases
      dsimp only
      by_cases hstatus : responseStatus response = KSE_SUCCESS
      · rw [if_pos hstatus]
        rcases hformat.2 with ⟨-, hfailed⟩ | ⟨hlen, hunused⟩
        · exact absurd hstatus hfailed
        · have hlong : response.length > 2 := by omega
          rcases hcases with ⟨hfailed, -⟩ | ⟨-, -, returned, sOutLen, z, hsend, hround⟩
          · exact absurd ⟨hreplied.sRv, fun hshort => by omega⟩ hfailed
          · rw [if_pos hlong] at hsend
            obtain ⟨hsent, hagrees'⟩ := @Replied.sendRecord_agrees δ D N indeterminate socketDesc
              cmd l response e hreplied hwrite hcmd hl hformat.1 hlen hunused
              (Kse.exchanged _ e w') z rfl hpower hdev hw' returned sOutLen hsend
            rw [← henv', show w'.env = (Kse.exchanged _ e w').world.env from rfl, hsent]
            cases returned with
            | true => exact Or.inl ⟨rfl, _, _, hround⟩
            | false =>
              rw [if_neg Bool.false_ne_true, if_pos hstatus, if_pos hlong, if_pos hlong] at hround
              exact Or.inr ⟨_, _, rfl, hround, hagrees'⟩
      · rw [if_neg hstatus]
        refine Or.inl ⟨rfl, ?_⟩
        rcases hcases with ⟨hfailed, -⟩ | ⟨-, -, returned, sOutLen, z, hsend, hround⟩
        · exact absurd ⟨hreplied.sRv, fun hshort => hstatus hshort.1⟩ hfailed
        · rw [if_neg hstatus] at hround
          cases returned with
          | true => exact ⟨_, _, hround⟩
          | false => exact ⟨_, _, hround⟩

/-- The loop still runs as long as the dialogue does. -/
theorem handshakeLoop_dialogue (hwrite : WritesOnlyCount N) (hD : FollowsReplyFormat D cmd)
    (hcmd : cmd.length ≤ 7) (hfuel : 51 ≤ fuel) (rounds : Nat) {h : Handshake (Frame δ)}
    {d : Dialogue δ} (hagrees : Agrees h d) :
    (handshakeLoop (frameWorld D N indeterminate) fuel cmd socketDesc rounds h).1 = none ↔
      after (Dialogue.next D N socketDesc cmd) rounds d ≠ none := by
  induction rounds generalizing h d with
  | zero => simp [handshakeLoop, after]
  | succ rounds ih =>
    rw [handshakeLoop]
    rcases @handshakeRound_dialogue δ D N indeterminate fuel socketDesc cmd hwrite hD hcmd hfuel
      h d hagrees with ⟨hnext, sRv, x, hround⟩ | ⟨d', h', hnext, hround, hagrees'⟩
    · rw [hround, after_succ_of_none hnext]
      simp
    · rw [hround, after_succ_of_some hnext]
      exact ih hagrees'

end Rounds

/-! ### When a call returns -/

/-- The device answers success for ever, though it consumes nothing, and the socket takes its
    records. -/
def Dialogue.Stalled (D : Device δ) (N : Net δ) (socketDesc : Int) (cmd : List UInt8)
    (d : Dialogue δ) : Prop :=
  ∃ run, Endless (Dialogue.next D N socketDesc cmd) d run ∧
    ∀ k, (run k).Idle D N socketDesc cmd

namespace HandshakeCall

/-- The call returns a code: it does for all fuel from some amount on. -/
def Returns {σ : Type} (W : World σ) (socketDesc : Int) (call : HandshakeCall) (x : Kse σ) :
    Prop :=
  ∃ n, ∀ fuel ≥ n, (call.run W fuel socketDesc x).1 ≠ none

/-- Where the dialogue of a call starts. -/
def dialogue (call : HandshakeCall) (x : Kse (Frame δ)) : Dialogue δ :=
  ⟨x.world.env, call.bNextInput, x.pending⟩

theorem command_length_le (socketDesc : Int) (call : HandshakeCall) :
    (call.command socketDesc).length ≤ 7 := by
  cases call <;> simp [command]

variable {D : Device δ} {N : Net δ} {indeterminate : δ → Int} {socketDesc : Int}
  {call : HandshakeCall} {x : Kse (Frame δ)}

/-- A call that goes past its input check runs until its dialogue ends. -/
theorem run_dialogue {fuel : Nat} (hwrite : WritesOnlyCount N)
    (hD : FollowsReplyFormat D (call.command socketDesc)) (hx : Ready x)
    (hsocket : socketDesc ≠ INVALID_SOCKET) (hfuel : 51 ≤ fuel) :
    (call.run (frameWorld D N indeterminate) fuel socketDesc x).1 = none ↔
      after (Dialogue.next D N socketDesc (call.command socketDesc)) fuel (call.dialogue x) ≠
        none := by
  rw [run_eq, if_neg (not_not.mpr hx.power), if_neg hsocket]
  exact handshakeLoop_dialogue hwrite hD (command_length_le socketDesc call) hfuel fuel
    ⟨hx, rfl, rfl, rfl⟩

theorem returns_iff_after (hwrite : WritesOnlyCount N)
    (hD : FollowsReplyFormat D (call.command socketDesc)) (hx : Ready x)
    (hsocket : socketDesc ≠ INVALID_SOCKET) :
    call.Returns (frameWorld D N indeterminate) socketDesc x ↔
      ∃ n, after (Dialogue.next D N socketDesc (call.command socketDesc)) n (call.dialogue x) =
        none := by
  have hrun : ∀ fuel, 51 ≤ fuel → _ := fun fuel hfuel =>
    @run_dialogue δ D N indeterminate socketDesc call x fuel hwrite hD hx hsocket hfuel
  constructor
  · rintro ⟨n, hn⟩
    refine ⟨max 51 n, ?_⟩
    by_contra hafter
    exact hn _ (Nat.le_max_right 51 n) ((hrun _ (Nat.le_max_left 51 n)).mpr hafter)
  · rintro ⟨n, hn⟩
    refine ⟨max 51 n, fun fuel hfuel hnone => ?_⟩
    exact (hrun fuel ((Nat.le_max_left 51 n).trans hfuel)).mp hnone
      (after_mono ((Nat.le_max_right 51 n).trans hfuel) hn)

/-- A call that does not go past its input check returns. -/
theorem returns_of_refused {σ : Type} {W : World σ} {y : Kse σ}
    (h : ¬(y.gusKsePower = .on ∧ socketDesc ≠ INVALID_SOCKET)) :
    call.Returns W socketDesc y := by
  refine ⟨0, fun fuel _ => ?_⟩
  rw [run_eq]
  by_cases hpower : y.gusKsePower = .on
  · rw [if_neg (not_not.mpr hpower), if_pos (by_contra fun hsocket => h ⟨hpower, hsocket⟩)]
    exact Option.some_ne_none _
  · rw [if_pos hpower]
    exact Option.some_ne_none _

end HandshakeCall

/-- **When a handshake returns.**  For every device that follows the reply format and every peer
    that sends finitely many bytes, `_ksetlsTlsClientHandshake` and `_ksetlsTlsServerHandshake`
    return, unless they go past their input check and the dialogue comes to a point from which the
    device consumes nothing and still answers success for ever. -/
theorem handshake_returns_iff {D : Device δ} {N : Net δ} {indeterminate : δ → Int}
    {socketDesc : Int} {unsent : δ → Nat} (call : HandshakeCall) {x : Kse (Frame δ)}
    (hwrite : WritesOnlyCount N) (hD : FollowsReplyFormat D (call.command socketDesc))
    (hpeer : FinitePeer D N socketDesc unsent) (hx : x.gusKsePower = .on → Ready x) :
    call.Returns (frameWorld D N indeterminate) socketDesc x ↔
      ¬((x.gusKsePower = .on ∧ socketDesc ≠ INVALID_SOCKET) ∧ ∃ n d,
        after (Dialogue.next D N socketDesc (call.command socketDesc)) n (call.dialogue x) =
            some d ∧
          d.Stalled D N socketDesc (call.command socketDesc)) := by
  by_cases haccepted : x.gusKsePower = .on ∧ socketDesc ≠ INVALID_SOCKET
  · obtain ⟨hpower, hsocket⟩ := haccepted
    have hready := hx hpower
    have hleft : (call.dialogue x).left.length ≤ MAX_IO_DATA_SIZE := by
      rw [HandshakeCall.dialogue, Kse.pending, length_slice]
      exact hready.length
    rw [HandshakeCall.returns_iff_after hwrite hD hready hsocket,
      and_iff_right (And.intro hpower hsocket), ← not_iff_not, not_not, not_exists]
    constructor
    · intro hrunning
      obtain ⟨run, hrun⟩ := exists_endless_iff.mpr hrunning
      obtain ⟨K, hidle⟩ := Dialogue.idle_of_endless hD hpeer hleft hrun
      exact ⟨K, run K, hrun.after_eq K, _, hrun.tail K, fun k => hidle _ (Nat.le_add_right K k)⟩
    · rintro ⟨n, d, hreach, run, hrun, -⟩
      exact hrun.not_ended hreach
  · apply iff_of_true (HandshakeCall.returns_of_refused haccepted)
    intro hstalls
    exact haccepted hstalls.1

/-! ### A device that waits for input that never comes -/

/-- A device that answers every request with the same response. -/
def alwaysAnswers (δ : Type) (response : List UInt8) : Device δ where
  exec env _ := (response, env)
  fill _ := fun _ => 0
  behind _ := fun _ => 0

/-- A peer that sends the bytes of a list and then closes; it takes everything. -/
def sending : Net (List UInt8) where
  getsockopt l _ := (0, 0, l)
  read l _ count := (some ⟨l.take count, List.length_take_le _ _⟩, l.drop count)
  write l _ _ count := (some ⟨count, Nat.le_refl count⟩, l)

theorem writesOnlyCount_sending : WritesOnlyCount sending := by
  intro l socketDesc data data' count _
  rfl

theorem finitePeer_sending (response : List UInt8) (socketDesc : Int) :
    FinitePeer (alwaysAnswers (List UInt8) response) sending socketDesc List.length := by
  refine ⟨fun _ _ => Nat.le_refl _, fun _ => Nat.le_refl _, fun _ _ _ => Nat.le_refl _, ?_⟩
  rintro l count l' rest hread
  cases hread
  rw [← List.length_append, List.take_append_drop]

theorem followsReplyFormat_alwaysAnswers {response : List UInt8} (h : InReplyFormat 0 response)
    (cmd : List UInt8) : FollowsReplyFormat (alwaysAnswers δ response) cmd := by
  intro env l _
  refine ⟨h.1, h.2.imp_right ?_⟩
  rintro ⟨hlen, hunused⟩
  exact ⟨hlen, hunused.trans (Nat.zero_le _)⟩

/-- Success, nothing unused, input wanted and no record. -/
def wantsInput : List UInt8 := [0, 0, 0, 0, KSE_TRUE, 0, 0]

/-- Nothing ends the dialogue of a device that wants input with a peer that never fails. -/
theorem next_wantsInput (socketDesc : Int) (cmd : List UInt8) (d : Dialogue (List UInt8)) :
    d.next (alwaysAnswers (List UInt8) wantsInput) sending socketDesc cmd ≠ none := by
  have hstatus : responseStatus wantsInput = KSE_SUCCESS := by decide
  have hrecord : responseRecordLen wantsInput = 0 := by decide
  have hreply : ∀ l env, Dialogue.reply (alwaysAnswers (List UInt8) wantsInput) sending socketDesc
      cmd l env = some ⟨env, nextInput wantsInput,
        leftover (handshakeRequest cmd l) wantsInput⟩ := by
    intro l env
    simp only [Dialogue.reply, alwaysAnswers, if_pos hstatus, hrecord, slice_zero, Net.sendRecord,
      List.length_nil, gt_iff_lt, Nat.lt_irrefl, if_false, if_true]
  rw [Dialogue.next]
  rcases hin : d.input sending socketDesc with ⟨_ | l, env⟩
  · simp only [Dialogue.input, Net.recv, sending] at hin
    split at hin
    · split at hin <;> cases hin
    · cases hin
  · dsimp only
    rw [hreply]
    exact Option.some_ne_none _

theorem inReplyFormat_wantsInput : InReplyFormat 0 wantsInput :=
  ⟨by decide, Or.inr ⟨by decide, by decide⟩⟩

/-- The peer sends three bytes and closes, and the device goes on asking for input: neither
    handshake returns. -/
theorem handshake_returns_never :
    let D := alwaysAnswers (List UInt8) wantsInput
    let x := poweredOn (fun _ => 0) (Frame.idle [0x16, 0x03, 0x03])
    FollowsReplyFormat D (HandshakeCall.server.command 5) ∧
      FollowsReplyFormat D ((HandshakeCall.client 0).command 5) ∧
      FinitePeer D sending 5 List.length ∧ WritesOnlyCount sending ∧ Ready x ∧
      ¬HandshakeCall.server.Returns (frameWorld D sending fun _ => 0) 5 x ∧
      ¬(HandshakeCall.client 0).Returns (frameWorld D sending fun _ => 0) 5 x := by
  intro D x
  have hformat : ∀ cmd, FollowsReplyFormat D cmd :=
    followsReplyFormat_alwaysAnswers inReplyFormat_wantsInput
  have hready : Ready x := ⟨rfl, ⟨0, rfl⟩, rfl, Nat.zero_le _⟩
  have hnever : ∀ call : HandshakeCall,
      ¬call.Returns (frameWorld D sending fun _ => 0) 5 x := by
    intro call hreturns
    obtain ⟨n, hn⟩ := (HandshakeCall.returns_iff_after writesOnlyCount_sending (hformat _) hready
      (by decide)).mp hreturns
    exact after_ne_none (next_wantsInput 5 _) n _ hn
  exact ⟨hformat _, hformat _, finitePeer_sending _ 5, writesOnlyCount_sending, hready,
    hnever _, hnever _⟩

/-- A device that is done with the first bytes it gets. -/
theorem handshake_returns_done :
    let D := alwaysAnswers (List UInt8) [0, 1]
    let x := poweredOn (fun _ => 0) (Frame.idle [0x16, 0x03, 0x03])
    HandshakeCall.server.Returns (frameWorld D sending fun _ => 0) 5 x ↔
      ¬((x.gusKsePower = .on ∧ (5 : Int) ≠ INVALID_SOCKET) ∧ ∃ n d,
        after (Dialogue.next D sending 5 (HandshakeCall.server.command 5)) n
            (HandshakeCall.server.dialogue x) = some d ∧
          d.Stalled D sending 5 (HandshakeCall.server.command 5)) :=
  handshake_returns_iff HandshakeCall.server writesOnlyCount_sending
    (followsReplyFormat_alwaysAnswers ⟨by decide, Or.inl ⟨rfl, by decide⟩⟩ _)
    (finitePeer_sending _ 5) fun _ => ⟨rfl, ⟨0, rfl⟩, rfl, Nat.zero_le _⟩

end MavlinkDim
