import MavlinkDim.SlotTiling
import MavlinkDim.Transceive

/-!
# The receive phase of `_kseTransceive`

The host takes each block's length from byte 3 of its report and its position
from byte 2.  The overflow test bounds the running length only, and the
sequence number is not compared with the number of the block.  What follows for
the bytes of the response (`response_fresh_iff`) and for the bounds of the
copies (`receive_safe_iff`) is a condition on those two header bytes, for any
device and any number of blocks.
-/

namespace MavlinkDim

open ByteMemory SlotTiling

/-! ### Blocks -/

def Block.seq (b : Block) : Nat := (b.abInReport 2).toNat

def Block.len (b : Block) : Nat := (b.abInReport 3).toNat

/-- The copy uses the header of the report it copies from. -/
def Block.FromHeader (b : Block) : Prop := b.usOffset = b.seq ∧ b.usLen = b.len

def Block.Reads (b : Block) (a : Nat) : Prop := 4 ≤ a ∧ a < 4 + b.usLen

def Block.Writes (b : Block) (a : Nat) : Prop :=
  b.usOffset * 60 ≤ a ∧ a < b.usOffset * 60 + b.usLen

/-- The copy of a block stays inside `abInReport` and inside the receive buffer. -/
def Block.InBounds (b : Block) : Prop :=
  (∀ a, b.Reads a → a < REPORT_SIZE) ∧ ∀ a, b.Writes a → a < MAX_IO_BUFFER_SIZE

/-- A header that keeps its block inside both arrays: no more than a report's
    payload, and no number past the last slot of the receive buffer. -/
def Block.WellPlaced (b : Block) : Prop :=
  b.len = 0 ∨ b.len ≤ 60 ∧ (b.seq ≤ 50 ∨ b.seq = 51 ∧ b.len ≤ 12)

theorem Block.inBounds_iff {b : Block} (h : b.FromHeader) : b.InBounds ↔ b.WellPlaced := by
  obtain ⟨hseq, hlen⟩ := h
  simp only [InBounds, Reads, Writes, WellPlaced, ← hseq, ← hlen, REPORT_SIZE,
    MAX_IO_BUFFER_SIZE, MAX_IO_DATA_SIZE, MAX_IO_CTRL_LEN]
  constructor
  · rintro ⟨hread, hwrite⟩
    rcases Nat.eq_zero_or_pos b.usLen with hz | hpos
    · exact Or.inl hz
    · have hr := hread (4 + b.usLen - 1) (by omega)
      have hw := hwrite (b.usOffset * 60 + b.usLen - 1) (by omega)
      omega
  · intro h
    constructor
    · intro a _
      omega
    · intro a _
      omega

/-! ### The invariant of the receive loop -/

/-- A memory that holds the copies of `blocks`, in order, and blocks that fit the
    receive buffer by their total length. -/
structure Copied (m : Bytes) (pbRecvData : Nat) (mem : Bytes) (blocks : List Block) :
    Prop where
  mem_eq : mem = copyAll Block.abInReport Block.usOffset Block.usLen 60 pbRecvData 4 m blocks
  fits : total Block.usLen blocks ≤ MAX_IO_BUFFER_SIZE
  header : ∀ b ∈ blocks, b.FromHeader

variable {σ : Type} {U : Usb σ} {m : Bytes} {pbRecvData : Nat}

theorem Copied.seq {mem : Bytes} {blocks : List Block} (h : Copied m pbRecvData mem blocks) :
    ∀ b ∈ blocks, b.usOffset = b.seq := fun b hb => (h.header b hb).1

theorem Copied.len {mem : Bytes} {blocks : List Block} (h : Copied m pbRecvData mem blocks) :
    ∀ b ∈ blocks, b.usLen = b.len := fun b hb => (h.header b hb).2

/-- A round fails and copies nothing, or it takes one more block that fits the
    running length. -/
theorem recvRound_cases (x : Receive σ) :
    (∃ sRv y, recvRound U pbRecvData x = .done sRv y ∧ sRv < 0 ∧ y.mem = x.mem ∧
      y.blocks = x.blocks ∧
      (y.usRecvLen = x.usRecvLen ∨
        MAX_IO_BUFFER_SIZE < y.usRecvLen ∧ sRv = KSE_FAIL_RECV_BUF_OVERFLOW)) ∨
    ∃ y, (x.usRecvLen + (y.abInReport 3).toNat) % 65536 ≤ MAX_IO_BUFFER_SIZE ∧
      (recvRound U pbRecvData x = .again (x.take pbRecvData y) ∨
        recvRound U pbRecvData x = .done KSE_SUCCESS (x.take pbRecvData y)) := by
  simp only [recvRound]
  split
  · rename_i hfail
    exact Or.inl ⟨_, _, rfl, transferReports_neg U hfail, rfl, rfl, Or.inl rfl⟩
  · split
    · exact Or.inl ⟨_, _, rfl, by simp, rfl, rfl, Or.inl rfl⟩
    · split
      · rename_i hover
        exact Or.inl ⟨_, _, rfl, by simp, rfl, rfl, Or.inr ⟨hover, rfl⟩⟩
      · rename_i hfits
        refine Or.inr ⟨_, Nat.le_of_not_lt hfits, ?_⟩
        split
        · exact Or.inl rfl
        · exact Or.inr rfl

theorem Copied.nil (m : Bytes) (pbRecvData : Nat) : Copied m pbRecvData m [] :=
  ⟨rfl, by simp, by simp⟩

theorem Copied.append {mem : Bytes} {blocks : List Block} {b : Block}
    (h : Copied m pbRecvData mem blocks) (hb : b.FromHeader)
    (hfits : total Block.usLen blocks + b.usLen ≤ MAX_IO_BUFFER_SIZE) :
    Copied m pbRecvData (cpyFrom mem (pbRecvData + b.usOffset * 60) b.abInReport 4 b.usLen)
      (blocks ++ [b]) := by
  refine ⟨?_, ?_, ?_⟩
  · rw [copyAll_append, ← h.mem_eq, Nat.mul_comm 60, cpyFrom]
  · rw [total_append, total_singleton]
    exact hfits
  · intro c hc
    rcases List.mem_append.mp hc with hc | hc
    · exact h.header c hc
    · rwa [List.mem_singleton.mp hc]

structure Receiving (m : Bytes) (pbRecvData : Nat) (x : Receive σ) : Prop where
  copied : Copied m pbRecvData x.mem x.blocks
  recvLen : x.usRecvLen = total Block.usLen x.blocks

/-- What holds after the receive phase, returned or not: only the overflow test
    leaves a running length that is not the length of what was copied, and no
    return code is positive. -/
structure Received (m : Bytes) (pbRecvData : Nat) (sRv : Option Int) (mem : Bytes)
    (usRecvLen : Nat) (blocks : List Block) : Prop where
  copied : Copied m pbRecvData mem blocks
  recvLen : usRecvLen = total Block.usLen blocks ∨
    MAX_IO_BUFFER_SIZE < usRecvLen ∧ sRv = some KSE_FAIL_RECV_BUF_OVERFLOW
  code_le : ∀ code, sRv = some code → code ≤ 0

theorem Receiving.received {x : Receive σ} (h : Receiving m pbRecvData x) {sRv : Option Int}
    (hcode : ∀ code, sRv = some code → code ≤ 0) :
    Received m pbRecvData sRv x.mem x.usRecvLen x.blocks :=
  ⟨h.copied, Or.inl h.recvLen, hcode⟩

theorem Receiving.take {x : Receive σ} {y : Reports σ} (h : Receiving m pbRecvData x)
    (hfits : (x.usRecvLen + (y.abInReport 3).toNat) % 65536 ≤ MAX_IO_BUFFER_SIZE) :
    Receiving m pbRecvData (x.take pbRecvData y) := by
  have hbyte := (y.abInReport 3).toNat_lt
  have hsmall := h.copied.fits
  rw [← h.recvLen] at hsmall
  have hmod : (x.usRecvLen + (y.abInReport 3).toNat) % 65536 =
      x.usRecvLen + (y.abInReport 3).toNat := by
    simp only [MAX_IO_BUFFER_SIZE, MAX_IO_DATA_SIZE, MAX_IO_CTRL_LEN] at hsmall
    omega
  rw [hmod] at hfits
  refine ⟨?_, ?_⟩
  · exact @Copied.append _ _ _ _ ⟨y.abInReport, (y.abInReport 2).toNat, (y.abInReport 3).toNat⟩
      h.copied ⟨rfl, rfl⟩ (by rw [← h.recvLen]; exact hfits)
  · simp only [Receive.take, Receive.copyBlock, total_append, total_singleton]
    rw [hmod, h.recvLen]

theorem recvRound_inv {x : Receive σ} (h : Receiving m pbRecvData x) :
    match recvRound U pbRecvData x with
    | .again y => Receiving m pbRecvData y
    | .done sRv y => Received m pbRecvData (some sRv) y.mem y.usRecvLen y.blocks := by
  rcases @recvRound_cases σ U pbRecvData x with
    ⟨sRv, y, hround, hneg, hmem, hblocks, hlen⟩ | ⟨y, hfits, hround | hround⟩
  · rw [hround]
    refine ⟨by rw [hmem, hblocks]; exact h.copied, ?_, ?_⟩
    · rw [hblocks, ← h.recvLen]
      rcases hlen with hlen | ⟨hover, hrv⟩
      · exact Or.inl hlen
      · exact Or.inr ⟨hover, by rw [hrv]⟩
    · rintro code ⟨⟩
      omega
  · rw [hround]
    exact h.take hfits
  · rw [hround]
    exact (h.take hfits).received (by simp)

theorem recvLoop_inv (fuel : Nat) {x : Receive σ} (h : Receiving m pbRecvData x) :
    Received m pbRecvData (recvLoop U pbRecvData fuel x).1 (recvLoop U pbRecvData fuel x).2.mem
      (recvLoop U pbRecvData fuel x).2.usRecvLen (recvLoop U pbRecvData fuel x).2.blocks := by
  induction fuel generalizing x with
  | zero => exact h.received (by simp [recvLoop])
  | succ fuel ih =>
    have hround := @recvRound_inv σ U m pbRecvData x h
    rw [recvLoop]
    cases hcase : recvRound U pbRecvData x with
    | again y =>
      rw [hcase] at hround
      exact ih hround
    | done sRv y =>
      rw [hcase] at hround
      exact hround

theorem receive_inv (fuel : Nat) {x : Reports σ} {y : Receive σ} {sRv : Option Int}
    (hack : x.abInReport 2 = 0) (h : receive U fuel pbRecvData m x = (sRv, y)) :
    Received m pbRecvData sRv y.mem y.usRecvLen y.blocks := by
  have hbyte := (x.abInReport 3).toNat_lt
  have hfits : (x.abInReport 3).toNat ≤ MAX_IO_BUFFER_SIZE := by
    simp only [MAX_IO_BUFFER_SIZE, MAX_IO_DATA_SIZE, MAX_IO_CTRL_LEN]
    omega
  have hcopied := @Copied.append _ _ _ _ ⟨x.abInReport, 0, (x.abInReport 3).toNat⟩
    (Copied.nil m pbRecvData) ⟨by simp [Block.seq, hack], rfl⟩ (by simpa using hfits)
  have hfirst : Receiving m pbRecvData (Receive.copyBlock pbRecvData 0 (x.abInReport 3).toNat
      { x with mem := m, usRecvLen := (x.abInReport 3).toNat, blocks := [] }) :=
    ⟨hcopied, by simp [Receive.copyBlock]⟩
  simp only [receive, if_neg (Nat.not_lt.mpr hfits)] at h
  split at h
  · have hloop := @recvLoop_inv σ U m pbRecvData fuel _ hfirst
    rw [h] at hloop
    exact hloop
  · obtain ⟨rfl, rfl⟩ := Prod.mk.inj h
    exact hfirst.received (by simp)

/-- **What a call has copied**, for every device and any number of rounds. -/
theorem kseTransceive_received (fuel : Nat) (ghDev : Option Nat) (pbSendData usSendLen : Nat)
    (s : σ) {r : Transceived σ}
    (hr : kseTransceive U fuel ghDev m pbRecvData pbSendData usSendLen s = r) :
    Received m pbRecvData r.sRv r.mem r.usRecvLen r.blocks := by
  rcases kseTransceive_cases U fuel ghDev m pbRecvData pbSendData usSendLen s with
    ⟨sRv, s', hneg, hcall⟩ | ⟨x, sRv, y, hrecv, hack, hcall⟩
  · rw [← hr, hcall]
    refine ⟨Copied.nil m pbRecvData, Or.inl rfl, ?_⟩
    rintro code ⟨⟩
    omega
  · rw [← hr, hcall]
    exact receive_inv fuel hack hrecv

/-! ### The bytes of a response -/

/-- Byte `i` of the receive buffer is a payload byte of a report of this response:
    the last copy that wrote it took it from the 60 payload bytes of `abInReport`. -/
def Transceived.FromResponse (pbRecvData : Nat) (r : Transceived σ) (i : Nat) : Prop :=
  ∃ b ∈ r.blocks, ∃ k < 60, i = b.usOffset * 60 + k ∧
    lastWriter Block.usOffset Block.usLen 60 r.blocks i = some b ∧
    r.mem (pbRecvData + i) = b.abInReport (4 + k)

theorem Copied.fromResponse_iff {r : Transceived σ}
    (h : Copied m pbRecvData r.mem r.blocks) (i : Nat) :
    r.FromResponse pbRecvData i ↔ Fresh Block.usOffset Block.usLen 60 r.blocks i := by
  constructor
  · rintro ⟨b, -, k, hk, rfl, hlast, -⟩
    exact ⟨b, hlast, by omega⟩
  · rintro ⟨b, hlast, hk⟩
    obtain ⟨hmem, hwrites⟩ := lastWriter_some hlast
    have hle := hwrites.1
    refine ⟨b, hmem, i - 60 * b.usOffset, hk, by omega, hlast, ?_⟩
    rw [h.mem_eq, copyAll_apply, hlast]

/-- **When the reported length is right.**  For every request and every device, a
    successful call reports only bytes of its own response exactly when the blocks
    tile the response: no block is longer than a report's payload, the non-empty
    ones are numbered `0, …, k - 1` in some order, and all but number `k - 1` are full. -/
theorem response_fresh_iff (fuel : Nat) (ghDev : Option Nat)
    (m : Bytes) (pbRecvData pbSendData usSendLen : Nat) (s : σ) {r : Transceived σ}
    (hr : kseTransceive U fuel ghDev m pbRecvData pbSendData usSendLen s = r)
    (hok : r.sRv = some KSE_SUCCESS) :
    (∀ i < r.usRecvLen, r.FromResponse pbRecvData i) ↔
      Tiled Block.seq Block.len 60 r.blocks := by
  have hrecv := kseTransceive_received fuel ghDev pbSendData usSendLen s hr
  have hlen : r.usRecvLen = total Block.usLen r.blocks := by
    rcases hrecv.recvLen with hlen | ⟨-, hover⟩
    · exact hlen
    · simp [hok] at hover
  simp only [hrecv.copied.fromResponse_iff, hlen, tiled_iff_fresh (show 0 < 60 by omega)]
  constructor
  · exact Tiled.congr hrecv.copied.seq hrecv.copied.len
  · apply Tiled.congr
    · intro b hb
      exact (hrecv.copied.seq b hb).symm
    · intro b hb
      exact (hrecv.copied.len b hb).symm

/-- A request of two bytes answered by a full first block and a last block that
    names slot 5: the call reports 70 bytes. -/
def skippingResponse : Transceived (List Report) :=
  kseTransceive scripted 1 (some 0) (ofList (List.replicate 100 0x4B)) 0 0 2
    [Report.ofList [REP_FIRST_BLOCK, 0x06, 0, 60], Report.ofList [REP_LAST_BLOCK, 0x06, 5, 10]]

theorem skippingResponse_blocks : skippingResponse.blocks.map (fun b => (b.usOffset, b.usLen)) =
    [(0, 60), (5, 10)] := by
  decide +kernel

/-- Bytes 60 to 69 are the request's bytes, and are reported as the response's. -/
theorem response_fresh_skipping :
    skippingResponse.sRv = some KSE_SUCCESS ∧ skippingResponse.usRecvLen = 70 ∧
      skippingResponse.mem 60 = 0x4B ∧ ¬skippingResponse.FromResponse 0 60 := by
  refine ⟨by decide +kernel, by decide +kernel, by decide +kernel, ?_⟩
  rintro ⟨b, hb, k, hk, hi, -⟩
  have hpos : (b.usOffset, b.usLen) ∈ skippingResponse.blocks.map fun b => (b.usOffset, b.usLen) :=
    List.mem_map_of_mem hb
  rw [skippingResponse_blocks] at hpos
  simp only [List.mem_cons, Prod.mk.injEq, List.not_mem_nil, or_false] at hpos
  omega

/-- A full block 0 and a last block 1 tile a response of 70 bytes. -/
theorem response_fresh_two_blocks :
    let r := kseTransceive scripted 1 (some 0) (ofList []) 0 0 2
      [Report.ofList [REP_FIRST_BLOCK, 0x06, 0, 60],
        Report.ofList [REP_LAST_BLOCK, 0x06, 1, 10]]
    (∀ i < r.usRecvLen, r.FromResponse 0 i) ↔ Tiled Block.seq Block.len 60 r.blocks :=
  response_fresh_iff 1 (some 0) (ofList []) 0 0 2 _ rfl (by decide +kernel)

/-! ### The bounds of the copies -/

/-- Every copy made so far stays inside its two arrays, nothing outside the receive
    buffer has changed, and a response too long for it is rejected. -/
structure Transceived.Safe (m : Bytes) (pbRecvData : Nat) (r : Transceived σ) : Prop where
  inBounds : ∀ b ∈ r.blocks, b.InBounds
  outside : ∀ a, a < pbRecvData ∨ pbRecvData + MAX_IO_BUFFER_SIZE ≤ a → r.mem a = m a
  rejected : MAX_IO_BUFFER_SIZE < r.usRecvLen → r.sRv = some KSE_FAIL_RECV_BUF_OVERFLOW

theorem Copied.outside {mem : Bytes} {blocks : List Block}
    (h : Copied m pbRecvData mem blocks) (hin : ∀ b ∈ blocks, b.InBounds) {a : Nat}
    (ha : a < pbRecvData ∨ pbRecvData + MAX_IO_BUFFER_SIZE ≤ a) : mem a = m a := by
  rw [h.mem_eq]
  rcases ha with ha | ha
  · exact copyAll_before _ _ _ _ _ ha
  · obtain ⟨i, rfl⟩ := Nat.exists_eq_add_of_le (Nat.le_of_add_right_le ha)
    rw [copyAll_apply]
    cases hlast : lastWriter Block.usOffset Block.usLen 60 blocks i with
    | none => rfl
    | some b =>
      obtain ⟨hb, hwrites⟩ := lastWriter_some hlast
      have := (hin b hb).2 i ⟨by have := hwrites.1; omega, by have := hwrites.2; omega⟩
      omega

/-- **When the copies stay in bounds.**  For every request, every device and any
    number of rounds, exactly when the header of every block keeps it inside both
    arrays. -/
theorem receive_safe_iff (fuel : Nat) (ghDev : Option Nat) (m : Bytes)
    (pbRecvData pbSendData usSendLen : Nat) (s : σ) :
    (kseTransceive U fuel ghDev m pbRecvData pbSendData usSendLen s).Safe m pbRecvData ↔
      ∀ b ∈ (kseTransceive U fuel ghDev m pbRecvData pbSendData usSendLen s).blocks,
        b.WellPlaced := by
  have hrecv := @kseTransceive_received σ U m pbRecvData fuel ghDev pbSendData usSendLen s _ rfl
  have hin : ∀ b ∈ (kseTransceive U fuel ghDev m pbRecvData pbSendData usSendLen s).blocks,
      b.InBounds ↔ b.WellPlaced := by
    intro b hb
    exact Block.inBounds_iff (hrecv.copied.header b hb)
  constructor
  · intro h b hb
    exact (hin b hb).mp (h.inBounds b hb)
  · intro hplaced
    have hbounds := fun b hb => (hin b hb).mpr (hplaced b hb)
    refine ⟨hbounds, fun a ha => hrecv.copied.outside hbounds ha, ?_⟩
    intro hover
    rcases hrecv.recvLen with hlen | ⟨-, hrv⟩
    · have := hrecv.copied.fits
      omega
    · exact hrv

/-- A last block of one byte that names slot 255 is written at address 15300, 12228
    bytes past the end of the receive buffer, and the call succeeds. -/
theorem receive_safe_slot_255 :
    let r := kseTransceive scripted 1 (some 0) (ofList []) 0 0 2
      [Report.ofList [REP_FIRST_BLOCK, 0x06, 0, 60],
        Report.ofList [REP_LAST_BLOCK, 0x06, 255, 1, 0x4B]]
    r.sRv = some KSE_SUCCESS ∧ r.mem 15300 = 0x4B ∧ ¬r.Safe (ofList []) 0 := by
  refine ⟨by decide +kernel, by decide +kernel, ?_⟩
  intro hsafe
  have hout := hsafe.outside 15300 (by simp)
  revert hout
  decide +kernel

end MavlinkDim
