import MavlinkDim.SlotTiling
import MavlinkDim.Transceive

/-!
# USB framing round trip

A conforming device reassembles the request from its reports, executes it and
sends the response back in blocks of 60 bytes.  `kseTransceive_frame` says that
a call against such a device delivers the request and returns the response, for
every length up to the size of the receive buffer and wherever the two buffers
lie.
-/

namespace MavlinkDim

open ByteMemory SlotTiling

/-! ### Blocks of a message -/

def blockCount (n : Nat) : Nat := (n + 59) / 60

def payload (l : List UInt8) (k : Nat) : List UInt8 := (l.drop (60 * k)).take 60

/-- The marker of block `k` of a message of `n` bytes. -/
def blockMarker (n k : Nat) : UInt8 :=
  if n ≤ 60 then REP_ONE_BLOCK
  else if k = 0 then REP_FIRST_BLOCK
  else if 60 * (k + 1) < n then REP_MIDDLE_BLOCK
  else REP_LAST_BLOCK

/-- Which block a report carries. -/
def Report.marker (r : Report) : UInt8 := r[0]

/-- Whether it is of a request or of a response. -/
def Report.tag (r : Report) : UInt8 := r[1]

/-- A report that carries block `k` of the message `l`; byte 1 tells requests from
    responses, and what follows the payload is free. -/
structure IsBlock (tag : UInt8) (l : List UInt8) (k : Nat) (ab : Bytes) : Prop where
  marker : ab 0 = blockMarker l.length k
  tag : ab 1 = tag
  seq : ab 2 = UInt8.ofNat k
  len : ab 3 = UInt8.ofNat (payload l k).length
  data : slice ab 4 (payload l k).length = payload l k

theorem length_payload (l : List UInt8) (k : Nat) :
    (payload l k).length = min 60 (l.length - 60 * k) := by
  simp [payload]

theorem length_payload_le (l : List UInt8) (k : Nat) : (payload l k).length ≤ 60 := by
  rw [length_payload]
  omega

theorem take_append_payload (l : List UInt8) (k : Nat) :
    l.take (60 * k) ++ payload l k = l.take (60 * (k + 1)) := by
  rw [payload, Nat.mul_succ, List.take_add]

theorem payload_zero (l : List UInt8) : payload l 0 = l.take 60 := by
  simp [payload]

variable {tag : UInt8} {l : List UInt8} {k : Nat} {ab : Bytes}

theorem IsBlock.seq_toNat (h : IsBlock tag l k ab) (hk : k < 256) : (ab 2).toNat = k := by
  rw [h.seq, UInt8.toNat_ofNat']
  omega

theorem IsBlock.len_toNat (h : IsBlock tag l k ab) : (ab 3).toNat = (payload l k).length := by
  have := length_payload_le l k
  rw [h.len, UInt8.toNat_ofNat']
  omega

theorem IsBlock.copy (h : IsBlock tag l k ab) (hk : 60 * k ≤ l.length) (mem : Bytes)
    (base : Nat) :
    blit (put mem base (l.take (60 * k))) (base + 60 * k) ab 4 (ab 3).toNat =
      put mem base (l.take (60 * (k + 1))) := by
  rw [h.len_toNat, blit_eq_put, h.data, ← take_append_payload, ← put_put_append,
    List.length_take, Nat.min_eq_left hk]

theorem isBlock_toArray_ofArray (behind : Bytes) (h : IsBlock tag l k ab) :
    IsBlock tag l k ((Report.ofArray ab).toArray behind) := by
  have hget : ∀ i < 64, (Report.ofArray ab).toArray behind i = ab i := by
    intro i hi
    rw [Report.toArray_of_lt _ _ hi, Report.getElem_ofArray]
  have hlen := length_payload_le l k
  refine ⟨?_, ?_, ?_, ?_, ?_⟩
  · rw [hget 0 (by omega), h.marker]
  · rw [hget 1 (by omega), h.tag]
  · rw [hget 2 (by omega), h.seq]
  · rw [hget 3 (by omega), h.len]
  · rw [slice_congr fun i hi => hget (4 + i) (by omega), h.data]

/-! ### Reassembly -/

def Report.seq (r : Report) : Nat := r[2].toNat

def Report.len (r : Report) : Nat := r[3].toNat

/-- The payloads of the reports, placed by sequence number and length. -/
def reassemble (reports : List Report) : List UInt8 :=
  slice (copyAll (fun r => Report.toArray r fun _ => 0) Report.seq Report.len 60 0 4
    (fun _ => 0) reports) 0 (total Report.len reports)

/-- The reports carry the first blocks of `l`, in order. -/
def AreBlocks (tag : UInt8) (l : List UInt8) (reports : List Report) : Prop :=
  ∀ k r, reports[k]? = some r → IsBlock tag l k (Report.toArray r fun _ => 0) ∧ 60 * k < l.length

theorem AreBlocks.nil : AreBlocks tag l [] := by
  intro k r h
  simp at h

theorem areBlocks_append {reports : List Report} {r : Report} :
    AreBlocks tag l (reports ++ [r]) ↔ AreBlocks tag l reports ∧
      IsBlock tag l reports.length (Report.toArray r fun _ => 0) ∧
      60 * reports.length < l.length := by
  constructor
  · intro h
    refine ⟨?_, h reports.length r (by simp)⟩
    intro k r' hr'
    apply h k r'
    rw [List.getElem?_append_left (List.getElem?_eq_some_iff.mp hr').1, hr']
  · rintro ⟨h, hlast⟩ k r' hr'
    by_cases hk : k < reports.length
    · exact h k r' (by rwa [List.getElem?_append_left hk] at hr')
    · rw [List.getElem?_append_right (by omega), List.getElem?_singleton] at hr'
      split at hr'
      · obtain rfl := Option.some.inj hr'
        have hlen : k = reports.length := by omega
        rwa [hlen]
      · cases hr'

theorem copyAll_blocks {reports : List Report} (h : AreBlocks tag l reports)
    (hlen : l.length ≤ MAX_IO_BUFFER_SIZE) (mem : Bytes) (base : Nat) :
    copyAll (fun r => Report.toArray r fun _ => 0) Report.seq Report.len 60 base 4 mem reports =
        put mem base (l.take (60 * reports.length)) ∧
      total Report.len reports = (l.take (60 * reports.length)).length := by
  induction reports using List.reverseRecOn with
  | nil => simp [copyAll]
  | append_singleton reports r ih =>
    obtain ⟨hinit, hblock, hlt⟩ := areBlocks_append.mp h
    obtain ⟨hcopy, htotal⟩ := ih hinit
    simp only [MAX_IO_BUFFER_SIZE, MAX_IO_DATA_SIZE, MAX_IO_CTRL_LEN] at hlen
    have hseq : r.seq = reports.length := hblock.seq_toNat (by omega)
    have hrlen : r.len = ((Report.toArray r fun _ => 0) 3).toNat := rfl
    rw [List.length_append, List.length_singleton]
    constructor
    · rw [copyAll_append, hcopy, hseq, hrlen]
      exact hblock.copy (Nat.le_of_lt hlt) mem base
    · rw [total_append, total_singleton, htotal, hrlen, hblock.len_toNat,
        ← take_append_payload, List.length_append]

/-- All blocks of a message give the message back. -/
theorem reassemble_blocks {reports : List Report} (h : AreBlocks tag l reports)
    (hlen : l.length ≤ MAX_IO_BUFFER_SIZE) (hall : l.length ≤ 60 * reports.length) :
    reassemble reports = l := by
  obtain ⟨hcopy, htotal⟩ := copyAll_blocks h hlen (fun _ => 0) 0
  rw [reassemble, hcopy, htotal, List.take_of_length_le hall, slice_put_same]

/-! ### The conforming device -/

/-- The command interpreter of a device.  `fill` is what a report holds where the
    protocol leaves it free, `behind` what lies behind the host's report buffer. -/
structure Device (δ : Type) where
  exec : δ → List UInt8 → List UInt8 × δ
  fill : δ → Bytes
  behind : δ → Bytes

/-- The framing state of a device: the reports of the request that is coming in, of
    the requests that are complete, the response, the block sent last, and the
    report that the next IN transfer reads. -/
structure Frame (δ : Type) where
  env : δ
  request : List Report
  requests : List (List Report)
  response : List UInt8
  block : Nat
  answer : Option Report

def Frame.idle {δ : Type} (env : δ) : Frame δ := ⟨env, [], [], [], 0, none⟩

variable {δ : Type} (D : Device δ)

def Device.blockReport (e : δ) (response : List UInt8) (k : Nat) : Report :=
  Report.ofArray (put (put (D.fill e) 4 (payload response k)) 0
    [blockMarker response.length k, 0x06, UInt8.ofNat k,
      UInt8.ofNat (payload response k).length])

/-- The acknowledgement of a request report that is not the last one. -/
def Device.echoReport (e : δ) (r : Report) : Report :=
  Report.ofArray (put (D.fill e) 0 [r[0], 0xFE, r[2], r[3]])

/-- The host's echo of the header of block `k`. -/
def Device.IsEcho (response : List UInt8) (k : Nat) (r : Report) : Bool :=
  decide (r[0] = blockMarker response.length k) && decide (r[1] = 0xFE) &&
    decide (r[2] = UInt8.ofNat k) && decide (r[3] = UInt8.ofNat (payload response k).length)

/-- The device as libusb shows it.  A report that the protocol does not foresee
    makes the transfer fail. -/
def frameUsb : Usb (Frame δ) where
  bulkOut f r :=
    if r[1] = 0x05 then
      let request := f.request ++ [r]
      if r[0] = REP_ONE_BLOCK ∨ r[0] = REP_LAST_BLOCK then
        let (response, env) := D.exec f.env (reassemble request)
        (⟨0, REPORT_SIZE⟩,
          { f with env, request := [], requests := f.requests ++ [request], response
                   block := 0, answer := some (D.blockReport env response 0) })
      else (⟨0, REPORT_SIZE⟩, { f with request, answer := some (D.echoReport f.env r) })
    else if Device.IsEcho f.response f.block r ∧ 60 * (f.block + 1) < f.response.length then
      (⟨0, REPORT_SIZE⟩,
        { f with block := f.block + 1
                 answer := some (D.blockReport f.env f.response (f.block + 1)) })
    else (⟨-1, 0⟩, f)
  bulkIn f :=
    match f.answer with
    | some r => (⟨0, REPORT_SIZE⟩, r, { f with answer := none })
    | none => (⟨-1, 0⟩, Vector.replicate 64 0, f)
  behind f := D.behind f.env

theorem isBlock_blockReport (e : δ) (response : List UInt8) (k : Nat) (behind : Bytes) :
    IsBlock 0x06 response k ((D.blockReport e response k).toArray behind) := by
  apply isBlock_toArray_ofArray
  refine ⟨?_, ?_, ?_, ?_, ?_⟩
  · exact put_in _ (Nat.zero_le _) (by simp)
  · exact put_in _ (Nat.zero_le _) (by simp)
  · exact put_in _ (Nat.zero_le _) (by simp)
  · exact put_in _ (Nat.zero_le _) (by simp)
  · rw [slice_put_disjoint _ (by simp), slice_put_same]

/-! ### The send loop against the device -/

section Send

variable {D} {m : Bytes} {pbSendData usSendLen : Nat} {f : Frame δ}

theorem requestMarker_eq {marker : UInt8} (hmarker : marker = 0 ↔ k = 0)
    (hk : 60 * k < usSendLen) :
    requestMarker marker (usSendLen - 60 * k) = blockMarker usSendLen k := by
  simp only [requestMarker, blockMarker]
  rcases Nat.eq_zero_or_pos k with rfl | hpos
  · have hm : marker = 0 := hmarker.mpr rfl
    by_cases hone : usSendLen ≤ 60
    · simp [hone, hm]
    · simp [hone, hm, show usSendLen > 60 by omega]
  · have hm : ¬marker = 0 := fun h => by have := hmarker.mp h; omega
    have hk0 : ¬k = 0 := by omega
    have hlong : ¬usSendLen ≤ 60 := by omega
    by_cases hnext : 60 * (k + 1) < usSendLen
    · simp [hm, hk0, hlong, hnext, show usSendLen - 60 * k > 60 by omega]
    · simp [hm, hk0, hlong, hnext, show ¬usSendLen - 60 * k > 60 by omega]

theorem isBlock_requestReport {ab : Bytes} (hmarker : ab 0 = 0 ↔ k = 0)
    (hk : 60 * k < usSendLen) :
    IsBlock 0x05 (slice m pbSendData usSendLen) k
      (requestReport m pbSendData (usSendLen - 60 * k) k ab) := by
  have hlen : (payload (slice m pbSendData usSendLen) k).length =
      if usSendLen - 60 * k > 60 then 60 else usSendLen - 60 * k := by
    rw [length_payload, length_slice]
    split <;> omega
  refine ⟨?_, ?_, ?_, ?_, ?_⟩
  · rw [requestReport_marker, length_slice]
    exact requestMarker_eq hmarker hk
  · simp only [requestReport, cpyFrom]
    rw [blit_out _ _ (by omega)]
    simp
  · simp only [requestReport, cpyFrom]
    rw [blit_out _ _ (by omega)]
    simp [loByte]
  · simp only [requestReport, cpyFrom]
    rw [blit_out _ _ (by omega), hlen]
    simp [loByte]
  · simp only [requestReport, cpyFrom, hlen]
    rw [slice_blit_same, payload, drop_slice m pbSendData (Nat.le_of_lt hk)]
    split
    · rw [take_slice _ _ (by omega), Nat.mul_comm 60]
    · rw [List.take_of_length_le (by simp; omega), Nat.mul_comm 60]

/-- The invariant between two rounds of the send loop: the device holds the first
    `k` blocks of the request. -/
structure Sending (f : Frame δ) (l : List UInt8) (k : Nat) (x : Reports (Frame δ)) : Prop where
  marker : x.abOutReport 0 = 0 ↔ k = 0
  blocks : AreBlocks 0x05 l x.usb.request
  count : x.usb.request.length = k
  usb : x.usb = { f with request := x.usb.request, answer := x.usb.answer }

/-- The device has executed the request `l` and delivered block 0 of its response. -/
structure Executed (D : Device δ) (f : Frame δ) (l : List UInt8) (reports : List Report)
    (x : Reports (Frame δ)) : Prop where
  blocks : AreBlocks 0x05 l reports
  count : reports.length = blockCount l.length
  usb : x.usb = { env := (D.exec f.env l).2, request := [], requests := f.requests ++ [reports]
                  response := (D.exec f.env l).1, block := 0, answer := none }
  block : IsBlock 0x06 (D.exec f.env l).1 0 x.abInReport

theorem blockMarker_last {n k : Nat} (h : n ≤ 60 * (k + 1)) :
    blockMarker n k = REP_ONE_BLOCK ∨ blockMarker n k = REP_LAST_BLOCK := by
  simp only [blockMarker]
  by_cases hone : n ≤ 60
  · simp [hone]
  · simp [hone, show ¬k = 0 by omega, show ¬60 * (k + 1) < n by omega]

theorem blockMarker_next {n k : Nat} (h : 60 * (k + 1) < n) :
    blockMarker n k = if k = 0 then REP_FIRST_BLOCK else REP_MIDDLE_BLOCK := by
  simp [blockMarker, h, show ¬n ≤ 60 by omega]

theorem blockMarker_ne_zero (n k : Nat) : blockMarker n k ≠ 0 := by
  simp only [blockMarker]
  repeat' split
  all_goals decide

/-- An OUT transfer that the device takes is followed by the IN transfer of its answer. -/
theorem transferReports_answer {x : Reports (Frame δ)} {f : Frame δ} {r : Report}
    (hout : (frameUsb D).bulkOut x.usb (Report.ofArray x.abOutReport) = (⟨0, REPORT_SIZE⟩, f))
    (hanswer : f.answer = some r) :
    transferReports (frameUsb D) x = (KSE_SUCCESS,
      { x with abInReport := r.toArray (D.behind f.env), usb := { f with answer := none } }) := by
  have hin : (frameUsb D).bulkIn f = (⟨0, REPORT_SIZE⟩, r, { f with answer := none }) := by
    simp [frameUsb, hanswer]
  simp only [transferReports, hout, hin]
  rfl

theorem transferReports_next {x : Reports (Frame δ)} (h : IsBlock 0x05 l k x.abOutReport)
    (hnext : 60 * (k + 1) < l.length) :
    ∃ ab, transferReports (frameUsb D) x = (KSE_SUCCESS,
        { x with abInReport := ab
                 usb := { x.usb with request := x.usb.request ++ [Report.ofArray x.abOutReport]
                                     answer := none } }) ∧
      ab 0 = x.abOutReport 0 ∧ ab 1 = 0xFE ∧ ab 2 = x.abOutReport 2 ∧
      ab 3 = x.abOutReport 3 := by
  have hmarker : ¬(x.abOutReport 0 = REP_ONE_BLOCK ∨ x.abOutReport 0 = REP_LAST_BLOCK) := by
    rw [h.marker, blockMarker_next hnext]
    split <;> decide
  have hout : (frameUsb D).bulkOut x.usb (Report.ofArray x.abOutReport) = (⟨0, REPORT_SIZE⟩,
      { x.usb with request := x.usb.request ++ [Report.ofArray x.abOutReport]
                   answer := some (D.echoReport x.usb.env (Report.ofArray x.abOutReport)) }) := by
    simp [frameUsb, h.tag, hmarker]
  have htransfer := transferReports_answer hout rfl
  refine ⟨_, htransfer, ?_, ?_, ?_, ?_⟩
  all_goals
    rw [Report.toArray_of_lt _ _ (by omega)]
    simp only [Device.echoReport, Report.getElem_ofArray]
    exact put_in _ (Nat.zero_le _) (by simp)

/-- The device executes the request with its last report and answers with block 0
    of the response. -/
theorem transferReports_last {x : Reports (Frame δ)} {request : List Report}
    (h : IsBlock 0x05 l k x.abOutReport) (hlast : l.length ≤ 60 * (k + 1))
    (hrequest : request = x.usb.request ++ [Report.ofArray x.abOutReport]) :
    ∃ ab, transferReports (frameUsb D) x = (KSE_SUCCESS,
        { x with abInReport := ab
                 usb := { env := (D.exec x.usb.env (reassemble request)).2, request := []
                          requests := x.usb.requests ++ [request]
                          response := (D.exec x.usb.env (reassemble request)).1, block := 0
                          answer := none } }) ∧
      IsBlock 0x06 (D.exec x.usb.env (reassemble request)).1 0 ab := by
  have hmarker : x.abOutReport 0 = REP_ONE_BLOCK ∨ x.abOutReport 0 = REP_LAST_BLOCK := by
    rw [h.marker]
    exact blockMarker_last hlast
  have hout : (frameUsb D).bulkOut x.usb (Report.ofArray x.abOutReport) = (⟨0, REPORT_SIZE⟩,
      { env := (D.exec x.usb.env (reassemble request)).2, request := []
        requests := x.usb.requests ++ [request]
        response := (D.exec x.usb.env (reassemble request)).1, block := 0
        answer := some (D.blockReport (D.exec x.usb.env (reassemble request)).2
          (D.exec x.usb.env (reassemble request)).1 0) }) := by
    simp [frameUsb, h.tag, hmarker, hrequest]
  have htransfer := transferReports_answer hout rfl
  exact ⟨_, htransfer, isBlock_blockReport D _ _ 0 _⟩

theorem unexpectedAck_echo {abOut abIn : Bytes} (h0 : abIn 0 = abOut 0) (h1 : abIn 1 = 0xFE)
    (h2 : abIn 2 = abOut 2) (h3 : abIn 3 = abOut 3)
    (hmarker : abOut 0 = REP_FIRST_BLOCK ∨ abOut 0 = REP_MIDDLE_BLOCK) :
    unexpectedAck abOut abIn = false := by
  rcases hmarker with hm | hm <;>
    simp [unexpectedAck, h0, h1, h2, h3, hm, REP_ONE_BLOCK, REP_LAST_BLOCK, REP_FIRST_BLOCK,
      REP_MIDDLE_BLOCK]

theorem unexpectedAck_block {abOut abIn : Bytes} (h : IsBlock 0x06 l 0 abIn)
    (hmarker : abOut 0 = REP_ONE_BLOCK ∨ abOut 0 = REP_LAST_BLOCK) :
    unexpectedAck abOut abIn = false := by
  rcases hmarker with hm | hm <;>
    simp [unexpectedAck, h.tag, h.seq, hm, REP_ONE_BLOCK, REP_LAST_BLOCK, REP_FIRST_BLOCK,
      REP_MIDDLE_BLOCK]

theorem sendRound_next {x : Reports (Frame δ)}
    (h : Sending f (slice m pbSendData usSendLen) k x) (hnext : 60 * (k + 1) < usSendLen) :
    ∃ y, sendRound (frameUsb D) m pbSendData (usSendLen - 60 * k) k x = .again y ∧
      Sending f (slice m pbSendData usSendLen) (k + 1) y := by
  have hblock := @isBlock_requestReport k m pbSendData usSendLen _ h.marker (by omega)
  have hnext' : 60 * (k + 1) < (slice m pbSendData usSendLen).length := by
    rwa [length_slice]
  obtain ⟨ab, htransfer, h0, h1, h2, h3⟩ := @transferReports_next _ _ _ D
    { x with abOutReport := requestReport m pbSendData (usSendLen - 60 * k) k x.abOutReport }
    hblock hnext'
  have hmarker : requestReport m pbSendData (usSendLen - 60 * k) k x.abOutReport 0 =
      REP_FIRST_BLOCK ∨
      requestReport m pbSendData (usSendLen - 60 * k) k x.abOutReport 0 = REP_MIDDLE_BLOCK := by
    rw [hblock.marker, blockMarker_next hnext']
    split <;> simp
  have hround := sendRound_again (frameUsb D) htransfer (unexpectedAck_echo h0 h1 h2 h3 hmarker)
  refine ⟨_, hround, ?_, ?_, ?_, ?_⟩
  · simp [hblock.marker, blockMarker_ne_zero]
  · refine areBlocks_append.mpr ⟨h.blocks, ?_, ?_⟩
    · rw [h.count]
      exact isBlock_toArray_ofArray _ hblock
    · rw [h.count, length_slice]
      omega
  · simp [h.count]
  · rw [h.usb]

theorem sendRound_last {x : Reports (Frame δ)}
    (h : Sending f (slice m pbSendData usSendLen) k x) (hk : 60 * k < usSendLen)
    (hlast : usSendLen ≤ 60 * (k + 1)) (hlen : usSendLen ≤ MAX_IO_BUFFER_SIZE) :
    ∃ y reports, sendRound (frameUsb D) m pbSendData (usSendLen - 60 * k) k x = .again y ∧
      Executed D f (slice m pbSendData usSendLen) reports y := by
  have hblock := @isBlock_requestReport k m pbSendData usSendLen _ h.marker hk
  obtain ⟨ab, htransfer, hack⟩ := @transferReports_last _ _ _ D
    { x with abOutReport := requestReport m pbSendData (usSendLen - 60 * k) k x.abOutReport }
    _ hblock (by rwa [length_slice]) rfl
  have hblocks : AreBlocks 0x05 (slice m pbSendData usSendLen) (x.usb.request ++
      [Report.ofArray (requestReport m pbSendData (usSendLen - 60 * k) k x.abOutReport)]) := by
    refine areBlocks_append.mpr ⟨h.blocks, ?_, ?_⟩
    · rw [h.count]
      exact isBlock_toArray_ofArray _ hblock
    · rwa [h.count, length_slice]
  have hwhole := reassemble_blocks hblocks (by rwa [length_slice])
    (by rw [length_slice, List.length_append, h.count, List.length_singleton]; exact hlast)
  have hmarker : requestReport m pbSendData (usSendLen - 60 * k) k x.abOutReport 0 =
      REP_ONE_BLOCK ∨
      requestReport m pbSendData (usSendLen - 60 * k) k x.abOutReport 0 = REP_LAST_BLOCK := by
    rw [hblock.marker, length_slice]
    exact blockMarker_last hlast
  have henv : x.usb.env = f.env := by rw [h.usb]
  have hrequests : x.usb.requests = f.requests := by rw [h.usb]
  simp only [hwhole, henv, hrequests] at htransfer hack
  have hround := sendRound_again (frameUsb D) htransfer (unexpectedAck_block hack hmarker)
  refine ⟨_, _, hround, hblocks, ?_, rfl, hack⟩
  rw [List.length_append, h.count, List.length_singleton, length_slice, blockCount]
  omega

/-- The send loop delivers the request, by induction on the blocks still to be sent. -/
theorem sendLoop_frame {x : Reports (Frame δ)} (hlen : usSendLen ≤ MAX_IO_BUFFER_SIZE)
    (hk : 60 * k < usSendLen) (h : Sending f (slice m pbSendData usSendLen) k x) :
    ∃ y reports, sendLoop (frameUsb D) m pbSendData (usSendLen - 60 * k) k x =
      (KSE_SUCCESS, y) ∧ Executed D f (slice m pbSendData usSendLen) reports y := by
  induction hrest : usSendLen - 60 * k using Nat.strongRecOn generalizing k x with
  | ind rest ih =>
    subst hrest
    rw [sendLoop, if_pos (by omega)]
    by_cases hlast : usSendLen ≤ 60 * (k + 1)
    · obtain ⟨y, reports, hround, hexec⟩ := @sendRound_last _ _ D m _ _ f x h hk hlast hlen
      refine ⟨y, reports, ?_, hexec⟩
      have hstop : usSendLen - 60 * k -
          (if usSendLen - 60 * k > 60 then 60 else usSendLen - 60 * k) = 0 := by
        split <;> omega
      simp only [hround, hstop]
      rw [sendLoop]
      rfl
    · obtain ⟨y, hround, hsending⟩ := @sendRound_next _ _ D m _ _ f x h (by omega)
      have hstep : usSendLen - 60 * k -
          (if usSendLen - 60 * k > 60 then 60 else usSendLen - 60 * k) =
            usSendLen - 60 * (k + 1) := by
        split <;> omega
      simp only [hround, hstep]
      exact ih _ (by omega) (by omega) hsending rfl

end Send

/-! ### The receive loop against the device -/

section Receive

variable {D} {m : Bytes} {pbRecvData : Nat} {f : Frame δ}

/-- The invariant between two rounds of the receive loop: blocks `0` to `k` stand in
    the receive buffer, and the device waits for the echo of block `k`. -/
structure Delivering (f : Frame δ) (m : Bytes) (pbRecvData k : Nat)
    (x : Receive (Frame δ)) : Prop where
  block : IsBlock 0x06 f.response k x.abInReport
  mem : x.mem = put m pbRecvData (f.response.take (60 * (k + 1)))
  recvLen : x.usRecvLen = (f.response.take (60 * (k + 1))).length
  usb : x.usb = { f with block := k, answer := none }

theorem transferReports_block {x : Reports (Frame δ)}
    (hecho : IsBlock 0xFE f.response k (put x.abOutReport 4 (payload f.response k)))
    (hnext : 60 * (k + 1) < f.response.length)
    (husb : x.usb = { f with block := k, answer := none }) :
    ∃ y, transferReports (frameUsb D) x = (KSE_SUCCESS, y) ∧
      IsBlock 0x06 f.response (k + 1) y.abInReport ∧
      y.usb = { f with block := k + 1, answer := none } := by
  have hget : ∀ i < 4, put x.abOutReport 4 (payload f.response k) i = x.abOutReport i :=
    fun i hi => put_out _ (Or.inl hi)
  have h0 := (hget 0 (by omega)).symm.trans hecho.marker
  have h1 := (hget 1 (by omega)).symm.trans hecho.tag
  have h2 := (hget 2 (by omega)).symm.trans hecho.seq
  have h3 := (hget 3 (by omega)).symm.trans hecho.len
  have hout : (frameUsb D).bulkOut x.usb (Report.ofArray x.abOutReport) = (⟨0, REPORT_SIZE⟩,
      { f with block := k + 1
               answer := some (D.blockReport f.env f.response (k + 1)) }) := by
    simp [frameUsb, Device.IsEcho, husb, h0, h1, h2, h3, hnext]
  have htransfer := transferReports_answer hout rfl
  exact ⟨_, htransfer, isBlock_blockReport D _ _ (k + 1) _, rfl⟩

/-- One round of the receive loop takes the next block, and ends the loop with the
    last one. -/
theorem recvRound_frame {x : Receive (Frame δ)} (h : Delivering f m pbRecvData k x)
    (hlen : f.response.length ≤ MAX_IO_BUFFER_SIZE)
    (hnext : 60 * (k + 1) < f.response.length) :
    ∃ y, recvRound (frameUsb D) pbRecvData x =
        (if 60 * (k + 2) < f.response.length then .again y else .done KSE_SUCCESS y) ∧
      Delivering f m pbRecvData (k + 1) y := by
  have hecho : IsBlock 0xFE f.response k
      (put (poke (cpyFrom x.abOutReport 0 x.abInReport 0 4) 1 0xFE) 4 (payload f.response k)) := by
    have hget : ∀ i < 4, i ≠ 1 → put (poke (cpyFrom x.abOutReport 0 x.abInReport 0 4) 1 0xFE) 4
        (payload f.response k) i = x.abInReport i := by
      intro i hi hne
      rw [put_out _ (Or.inl hi), poke_ne _ _ hne, cpyFrom, blit_in _ _ (by omega) (by omega)]
      simp
    refine ⟨?_, ?_, ?_, ?_, slice_put_same _ 4 _⟩
    · rw [hget 0 (by omega) (by omega), h.block.marker]
    · rw [put_out _ (Or.inl (by omega)), poke_same]
    · rw [hget 2 (by omega) (by omega), h.block.seq]
    · rw [hget 3 (by omega) (by omega), h.block.len]
  obtain ⟨y, htransfer, hblock, husb⟩ := @transferReports_block k δ D f
    { x.toReports with abOutReport := poke (cpyFrom x.abOutReport 0 x.abInReport 0 4) 1 0xFE }
    hecho hnext h.usb
  have htake := take_append_payload f.response (k + 1)
  have hlens : x.usRecvLen + (y.abInReport 3).toNat = (f.response.take (60 * (k + 2))).length := by
    rw [h.recvLen, hblock.len_toNat, ← htake, List.length_append]
  have hle : (f.response.take (60 * (k + 2))).length ≤ MAX_IO_BUFFER_SIZE :=
    (List.length_take_le' _ _).trans hlen
  have hmod : (x.usRecvLen + (y.abInReport 3).toNat) % 65536 =
      (f.response.take (60 * (k + 2))).length := by
    rw [hlens]
    simp only [MAX_IO_BUFFER_SIZE, MAX_IO_DATA_SIZE, MAX_IO_CTRL_LEN] at hle
    omega
  have hround := @recvRound_take _ (frameUsb D) pbRecvData _ _ htransfer hblock.tag
    (by rw [hmod]; exact hle)
  have hseq : (y.abInReport 2).toNat = k + 1 := by
    simp only [MAX_IO_BUFFER_SIZE, MAX_IO_DATA_SIZE, MAX_IO_CTRL_LEN] at hlen
    exact hblock.seq_toNat (by omega)
  refine ⟨x.take pbRecvData y, ?_, hblock, ?_, hmod, husb⟩
  · rw [hround]
    by_cases hmore : 60 * (k + 2) < f.response.length
    · rw [if_pos (by rw [hblock.marker, blockMarker_next hmore]; simp), if_pos hmore]
    · rw [if_neg, if_neg hmore]
      rw [hblock.marker]
      rcases @blockMarker_last f.response.length (k + 1) (by omega) with hm | hm <;>
        rw [hm] <;> decide
  · simp only [Receive.take, Receive.copyBlock, hseq, cpyFrom]
    rw [h.mem, Nat.mul_comm (k + 1)]
    exact hblock.copy (Nat.le_of_lt hnext) m pbRecvData

/-- The receive loop delivers the response, by induction on the blocks still to come. -/
theorem recvLoop_frame {fuel : Nat} {x : Receive (Frame δ)} (h : Delivering f m pbRecvData k x)
    (hlen : f.response.length ≤ MAX_IO_BUFFER_SIZE)
    (hnext : 60 * (k + 1) < f.response.length)
    (hfuel : blockCount f.response.length ≤ fuel + (k + 1)) :
    ∃ y last, recvLoop (frameUsb D) pbRecvData fuel x = (some KSE_SUCCESS, y) ∧
      f.response.length ≤ 60 * (last + 1) ∧ Delivering f m pbRecvData last y := by
  induction fuel generalizing k x with
  | zero =>
    simp only [blockCount] at hfuel
    omega
  | succ fuel ih =>
    obtain ⟨y, hround, hy⟩ := @recvRound_frame _ _ D m pbRecvData f x h hlen hnext
    rw [recvLoop, hround]
    by_cases hmore : 60 * (k + 2) < f.response.length
    · rw [if_pos hmore]
      exact ih hy hmore (by omega)
    · rw [if_neg hmore]
      exact ⟨y, k + 1, rfl, by omega, hy⟩

theorem receive_frame {fuel : Nat} {x : Reports (Frame δ)}
    (hblock : IsBlock 0x06 x.usb.response 0 x.abInReport)
    (husb : x.usb = { x.usb with block := 0, answer := none })
    (hlen : x.usb.response.length ≤ MAX_IO_BUFFER_SIZE)
    (hfuel : blockCount x.usb.response.length ≤ fuel + 1) :
    ∃ y last, receive (frameUsb D) fuel pbRecvData m x = (some KSE_SUCCESS, y) ∧
      x.usb.response.length ≤ 60 * (last + 1) ∧ Delivering x.usb m pbRecvData last y := by
  have hfirst : Delivering x.usb m pbRecvData 0
      (Receive.copyBlock pbRecvData 0 (x.abInReport 3).toNat
        { x with mem := m, usRecvLen := (x.abInReport 3).toNat, blocks := [] }) := by
    refine ⟨hblock, ?_, ?_, husb⟩
    · have hcopy := hblock.copy (Nat.zero_le _) m pbRecvData
      simpa [Receive.copyBlock, cpyFrom] using hcopy
    · simp [Receive.copyBlock, hblock.len_toNat, payload_zero]
  have hbyte := (x.abInReport 3).toNat_lt
  have hfits : ¬(x.abInReport 3).toNat > MAX_IO_BUFFER_SIZE := by
    simp only [MAX_IO_BUFFER_SIZE, MAX_IO_DATA_SIZE, MAX_IO_CTRL_LEN]
    omega
  simp only [receive, if_neg hfits]
  by_cases hmore : 60 * (0 + 1) < x.usb.response.length
  · rw [if_pos]
    · exact recvLoop_frame hfirst hlen hmore (by omega)
    · show x.abInReport 0 = REP_FIRST_BLOCK
      rw [hblock.marker, blockMarker_next hmore]
      simp
  · rw [if_neg]
    · exact ⟨_, 0, rfl, by omega, hfirst⟩
    · show ¬x.abInReport 0 = REP_FIRST_BLOCK
      rw [hblock.marker]
      rcases @blockMarker_last x.usb.response.length 0 (by omega) with hm | hm <;>
        rw [hm] <;> decide

end Receive

/-! ### The round trip -/

/-- **The framing round trip.**  Against a conforming device that waits for a request,
    a call with a request of up to 3072 bytes sends exactly its blocks, in order, and
    the device executes the request.  It returns with the response, of up to 3072
    bytes, at the start of the receive buffer and with nothing else changed, wherever
    the two buffers lie. -/
theorem kseTransceive_frame (f : Frame δ) (fuel dev : Nat) (m : Bytes)
    (pbRecvData pbSendData usSendLen : Nat) (hidle : f.request = [])
    (hsend : 0 < usSendLen) (hsendMax : usSendLen ≤ MAX_IO_BUFFER_SIZE)
    (hrecvMax : (D.exec f.env (slice m pbSendData usSendLen)).1.length ≤ MAX_IO_BUFFER_SIZE)
    (hfuel : blockCount (D.exec f.env (slice m pbSendData usSendLen)).1.length ≤ fuel + 1) :
    ∃ r reports, kseTransceive (frameUsb D) fuel (some dev) m pbRecvData pbSendData usSendLen f =
        r ∧
      reports.length = blockCount usSendLen ∧
      reassemble reports = slice m pbSendData usSendLen ∧
      r.sRv = some KSE_SUCCESS ∧
      r.usRecvLen = (D.exec f.env (slice m pbSendData usSendLen)).1.length ∧
      slice r.mem pbRecvData r.usRecvLen = (D.exec f.env (slice m pbSendData usSendLen)).1 ∧
      r.mem = put m pbRecvData (D.exec f.env (slice m pbSendData usSendLen)).1 ∧
      r.usb.env = (D.exec f.env (slice m pbSendData usSendLen)).2 ∧
      r.usb.requests = f.requests ++ [reports] ∧ r.usb.request = [] := by
  have hstart : Sending f (slice m pbSendData usSendLen) 0
      ⟨Report.toArray (Vector.replicate 64 0) (D.behind f.env),
        Report.toArray (Vector.replicate 64 0) (D.behind f.env), f⟩ := by
    refine ⟨by simp [Report.toArray], ?_, by simp [hidle], rfl⟩
    simp only [hidle]
    exact AreBlocks.nil
  obtain ⟨y, reports, hloop, hexec⟩ := @sendLoop_frame 0 δ D _ _ _ f _ hsendMax (by omega) hstart
  simp only [Nat.mul_zero, Nat.sub_zero] at hloop
  have hresponse : y.usb.response = (D.exec f.env (slice m pbSendData usSendLen)).1 := by
    rw [hexec.usb]
  rw [← hresponse] at hrecvMax hfuel
  obtain ⟨z, last, hreceive, hall, hz⟩ := @receive_frame δ D m pbRecvData fuel y
    (by rw [hresponse]; exact hexec.block) (by rw [hexec.usb]) hrecvMax hfuel
  have hmem := hz.mem
  have hrecvLen := hz.recvLen
  rw [List.take_of_length_le hall, hresponse] at hmem hrecvLen
  refine ⟨_, reports, rfl, by rw [hexec.count, length_slice], ?_, ?_⟩
  · exact reassemble_blocks hexec.blocks (by rwa [length_slice]) (by
      rw [hexec.count, length_slice, blockCount]; omega)
  · simp only [kseTransceive, reduceCtorEq, if_false]
    have hbehind : (frameUsb D).behind f = D.behind f.env := rfl
    simp only [hbehind, hloop, hreceive]
    rw [if_neg (by simp)]
    refine ⟨rfl, hrecvLen, ?_, hmem, ?_, ?_, ?_⟩
    · rw [hmem, hrecvLen, slice_put_same]
    · rw [hz.usb, hexec.usb]
    · rw [hz.usb, hexec.usb]
    · rw [hz.usb, hexec.usb]

/-- A device that answers every request with the request in reverse. -/
def mirror : Device Unit where
  exec _ request := (request.reverse, ())
  fill _ := fun _ => 0
  behind _ := fun _ => 0

/-- Two blocks each way through one array. -/
theorem kseTransceive_frame_mirror :
    let m := ofList (List.replicate 60 1 ++ [2])
    ∃ r reports, kseTransceive (frameUsb mirror) 1 (some 0) m 0 0 61 (Frame.idle ()) = r ∧
      reports.length = blockCount 61 ∧ reassemble reports = slice m 0 61 ∧
      r.sRv = some KSE_SUCCESS ∧ r.usRecvLen = (slice m 0 61).reverse.length ∧
      slice r.mem 0 r.usRecvLen = (slice m 0 61).reverse ∧
      r.mem = put m 0 (slice m 0 61).reverse ∧ r.usb.env = () ∧
      r.usb.requests = [] ++ [reports] ∧ r.usb.request = [] :=
  kseTransceive_frame mirror (Frame.idle ()) 1 0 _ 0 0 61 rfl (by decide) (by decide)
    (by simp [mirror]) (by simp [mirror, blockCount])

end MavlinkDim
