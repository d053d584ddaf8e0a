import MavlinkDim.HashSteps

/-!
# The layout of a request

A command writes its request into `gabTxRxData` one byte and one `_cpy` at a time,
and computes the length that it hands to `_kseTransceive` apart from the writes: a
constant, a sum, or a running `uint16_t` index.  Here each request is built as the
source builds it; `Built.Packed` says that the parts fit together.
-/

namespace MavlinkDim

open ByteMemory

/-- The writes that build a request, and the length that is handed to `_kseTransceive`. -/
structure Built where
  writes : List Write
  usSendLen : Nat

namespace Built

/-- `_cpy(gabTxRxData + i, pb, n); i += n;`, and `gabTxRxData[i++] = b;` for a single byte. -/
def append (b : Built) (l : List UInt8) : Built :=
  ⟨b.writes ++ [⟨b.usSendLen, l⟩], uint16 (b.usSendLen + l.length)⟩

/-- A word, high byte first, at the running index. -/
def append16 (b : Built) (us : Nat) : Built := (b.append [hiByte us]).append [loByte us]

/-- The writes make up `l` from the start of the buffer without a gap, and its length is the
    length that is handed over. -/
structure Packed (b : Built) (l : List UInt8) : Prop where
  consecutive : Consecutive 0 b.writes
  bytes : b.writes.flatMap Write.bytes = l
  usSendLen : b.usSendLen = l.length

/-- Every byte that is written lies in the buffer, the writes leave no gap, and the length that
    is handed over is that of what was written. -/
structure Fits (b : Built) : Prop where
  inside : ∀ w ∈ b.writes, w.addr + w.bytes.length ≤ MAX_IO_BUFFER_SIZE
  consecutive : Consecutive 0 b.writes
  usSendLen : b.usSendLen = (b.writes.flatMap Write.bytes).length
  le_max : b.usSendLen ≤ MAX_IO_BUFFER_SIZE

theorem Packed.fits {b : Built} {l : List UInt8} (h : b.Packed l)
    (hmax : l.length ≤ MAX_IO_BUFFER_SIZE) : b.Fits := by
  refine ⟨?_, h.consecutive, ?_, ?_⟩
  · intro w hw
    have hend := h.consecutive.end_le hw
    rw [h.bytes, Nat.zero_add] at hend
    exact hend.trans hmax
  · rw [h.usSendLen, h.bytes]
  · rw [h.usSendLen]
    exact hmax

theorem packed_header (l : List UInt8) : Packed ⟨pokes 0 l, l.length⟩ l :=
  ⟨pokes_consecutive 0 l, pokes_bytes 0 l, rfl⟩

/-- The running index is where the next write goes, as long as it does not wrap. -/
theorem Packed.append {b : Built} {l : List UInt8} (h : b.Packed l) {l' : List UInt8}
    (hwrap : l.length + l'.length < 65536) : (b.append l').Packed (l ++ l') := by
  refine ⟨?_, ?_, ?_⟩
  · rw [Built.append, consecutive_append, h.bytes, Nat.zero_add]
    exact ⟨h.consecutive, (consecutive_singleton _ _).mpr h.usSendLen⟩
  · rw [Built.append, List.flatMap_append, h.bytes]
    simp
  · rw [Built.append, List.length_append, h.usSendLen]
    exact_mod_cast uint16_of_lt hwrap

theorem Packed.append16 {b : Built} {l : List UInt8} (h : b.Packed l) (us : Nat)
    (hwrap : l.length + 2 < 65536) : (b.append16 us).Packed (l ++ bytes16 us) := by
  have hhi : (b.append [hiByte us]).Packed (l ++ [hiByte us]) :=
    h.append (by simp only [List.length_singleton]; omega)
  have hlo := @Packed.append _ _ hhi [loByte us]
    (by simp only [List.length_append, List.length_singleton]; omega)
  rwa [List.append_assoc] at hlo

theorem Packed.appendIf {b : Built} {l : List UInt8} (h : b.Packed l) (p : Prop) [Decidable p]
    {l' : List UInt8} (hwrap : l.length + l'.length < 65536) :
    (if p then b.append l' else b).Packed (l ++ if p then l' else []) := by
  split
  · exact h.append hwrap
  · rwa [List.append_nil]

theorem Packed.append16If {b : Built} {l : List UInt8} (h : b.Packed l) (p : Prop) [Decidable p]
    (us : Nat) (hwrap : l.length + 2 < 65536) :
    (if p then b.append16 us else b).Packed (l ++ if p then bytes16 us else []) := by
  split
  · exact h.append16 us hwrap
  · rwa [List.append_nil]

/-- A header at constant indices, and a copy behind it. -/
theorem packed_copy {header l : List UInt8} {offset usSendLen : Nat}
    (hoffset : offset = header.length) (hlen : usSendLen = header.length + l.length) :
    Packed ⟨pokes 0 header ++ [⟨offset, l⟩], usSendLen⟩ (header ++ l) := by
  refine ⟨?_, ?_, ?_⟩
  · rw [consecutive_append, pokes_bytes, Nat.zero_add, consecutive_singleton]
    exact ⟨pokes_consecutive 0 header, hoffset⟩
  · simp
  · rw [hlen, List.length_append]

/-- One more copy. -/
theorem Packed.copy {b : Built} {l : List UInt8} (h : b.Packed l) {l' : List UInt8}
    {offset usSendLen : Nat} (hoffset : offset = l.length)
    (hlen : usSendLen = l.length + l'.length) :
    Packed ⟨b.writes ++ [⟨offset, l'⟩], usSendLen⟩ (l ++ l') := by
  refine ⟨?_, ?_, ?_⟩
  · rw [consecutive_append, h.bytes, Nat.zero_add, consecutive_singleton]
    exact ⟨h.consecutive, hoffset⟩
  · simp [h.bytes]
  · rw [hlen, List.length_append]

end Built

/-! ### Keys -/

variable {σ : Type}

/-- The indices 5 and 6 are written for an HMAC key only. -/
def kcmvpGenerateKeyRequest (bKeyType : UInt8) (usKeyIndex : Nat) : Built :=
  let usCmdSize : Nat := if bKeyType ≠ KCMVP_HMAC_KEY then 5 else 7
  ⟨pokes 0 ([0x02, 0x00, bKeyType] ++ bytes16 usKeyIndex) ++
    (if bKeyType ≠ KCMVP_HMAC_KEY then [] else pokes 5 (bytes16 usKeyIndex)), usCmdSize⟩

def kcmvpPutKeyRequest (bKeyType : UInt8) (usKeyIndex pbKey usKeySize : Nat) (x : Kse σ) : Built :=
  let usCmdSize : Nat := if bKeyType ≠ KCMVP_HMAC_KEY then 5 else 7
  ⟨pokes 0 ([0x02, 0x01, bKeyType] ++ bytes16 usKeyIndex) ++
    (if bKeyType ≠ KCMVP_HMAC_KEY then [] else pokes 5 (bytes16 usKeySize)) ++
    [⟨usCmdSize, x.arg pbKey usKeySize⟩], uint16 (usCmdSize + usKeySize)⟩

theorem kcmvpGenerateKeyRequest_packed (bKeyType : UInt8) (usKeyIndex : Nat) :
    (kcmvpGenerateKeyRequest bKeyType usKeyIndex).Packed
      ([0x02, 0x00, bKeyType] ++ bytes16 usKeyIndex ++
        if bKeyType ≠ KCMVP_HMAC_KEY then [] else bytes16 usKeyIndex) := by
  unfold kcmvpGenerateKeyRequest
  split
  · simpa using Built.packed_header ([0x02, 0x00, bKeyType] ++ bytes16 usKeyIndex)
  · exact Built.packed_header ([0x02, 0x00, bKeyType] ++ bytes16 usKeyIndex ++ bytes16 usKeyIndex)

theorem kcmvpPutKeyRequest_packed (bKeyType : UInt8) (usKeyIndex pbKey : Nat) {usKeySize : Nat}
    (hsize : usKeySize ≤ 255) (x : Kse σ) :
    (kcmvpPutKeyRequest bKeyType usKeyIndex pbKey usKeySize x).Packed
      ([0x02, 0x01, bKeyType] ++ bytes16 usKeyIndex ++
        (if bKeyType ≠ KCMVP_HMAC_KEY then [] else bytes16 usKeySize) ++
        x.arg pbKey usKeySize) := by
  have hkey : (x.arg pbKey usKeySize).length = usKeySize := length_slice _ _ _
  unfold kcmvpPutKeyRequest
  generalize x.arg pbKey usKeySize = key at *
  split
  · rw [List.append_nil, List.append_nil]
    refine Built.packed_copy rfl ?_
    rw [hkey]
    exact uint16_of_lt (by omega : 5 + usKeySize < 65536)
  · refine @Built.packed_copy
      ([0x02, 0x01, bKeyType] ++ bytes16 usKeyIndex ++ bytes16 usKeySize) key 7 _ rfl ?_
    rw [hkey]
    exact uint16_of_lt (by omega : 7 + usKeySize < 65536)

/-! ### Block ciphers -/

section BlockCiphers

variable (bKeyType : UInt8) (usKeyIndex : Nat) (bEnDe bAlg : UInt8)

def kcmvpEcbRequest (input : List UInt8) : Built :=
  let usSize := input.length
  ⟨pokes 0 ([0x02, bAlg ||| 0x04, bKeyType] ++ bytes16 usKeyIndex ++ [bEnDe] ++ bytes16 usSize) ++
    [⟨8, input⟩], uint16 (usSize + 8)⟩

def kcmvpCbcRequest (pbIv input : List UInt8) : Built :=
  let usSize := input.length
  ⟨pokes 0 ([0x02, bAlg ||| 0x05, bKeyType] ++ bytes16 usKeyIndex ++ [bEnDe] ++ bytes16 usSize) ++
    [⟨8, pbIv⟩] ++ [⟨24, input⟩], uint16 (usSize + 24)⟩

def kcmvpCtrRequest (abCtr input : List UInt8) : Built :=
  let usSize := input.length
  ⟨pokes 0 ([0x02, bAlg ||| 0x06, bKeyType] ++ bytes16 usKeyIndex ++ bytes16 usSize) ++
    [⟨7, abCtr⟩] ++ [⟨23, input⟩], uint16 (usSize + 23)⟩

/-- `usInSize` runs over the four parts that the caller sizes. -/
def kcmvpGcmRequest (pbInput usInputSize pbIv usIvSize pbAuth usAuthSize pbTag usTagSize : Nat)
    (x : Kse σ) : Built :=
  let b : Built := ⟨pokes 0 ([0x02, bAlg ||| 0x07, bKeyType] ++ bytes16 usKeyIndex ++ [bEnDe] ++
    bytes16 usIvSize ++ bytes16 usInputSize ++ bytes16 usAuthSize ++ bytes16 usTagSize), 14⟩
  let b := b.append (x.arg pbIv usIvSize)
  let b := b.append (x.arg pbInput usInputSize)
  let b := b.append (x.arg pbAuth usAuthSize)
  if bEnDe = ENCRYPT then b else b.append (x.arg pbTag usTagSize)

theorem kcmvpEcbRequest_packed (chaining : List UInt8) {input : List UInt8}
    (hmax : input.length ≤ MAX_IO_DATA_SIZE) :
    (kcmvpEcbRequest bKeyType usKeyIndex bEnDe bAlg input).Packed
      ((ecbMode bKeyType usKeyIndex bEnDe bAlg).request chaining input.length input) := by
  refine Built.packed_copy rfl ?_
  simp only [MAX_IO_DATA_SIZE] at hmax
  rw [show (input.length : Int) + 8 = ((input.length + 8 : Nat) : Int) by omega,
    uint16_of_lt (by omega), Nat.add_comm]
  rfl

theorem kcmvpCbcRequest_packed {pbIv input : List UInt8} (hiv : pbIv.length = 16)
    (hmax : input.length ≤ MAX_IO_DATA_SIZE) :
    (kcmvpCbcRequest bKeyType usKeyIndex bEnDe bAlg pbIv input).Packed
      ((cbcMode bKeyType usKeyIndex bEnDe bAlg).request pbIv input.length input) := by
  have hfirst := @Built.packed_copy
    ([0x02, bAlg ||| 0x05, bKeyType] ++ bytes16 usKeyIndex ++ [bEnDe] ++ bytes16 input.length)
    pbIv 8 24 rfl (by rw [hiv]; rfl)
  refine hfirst.copy ?_ ?_
  · rw [List.length_append, hiv]
    rfl
  · simp only [MAX_IO_DATA_SIZE] at hmax
    rw [show (input.length : Int) + 24 = ((input.length + 24 : Nat) : Int) by omega,
      uint16_of_lt (by omega), List.length_append, hiv, Nat.add_comm]
    rfl

theorem kcmvpCtrRequest_packed {abCtr input : List UInt8} (hctr : abCtr.length = 16)
    (hmax : input.length ≤ MAX_IO_DATA_SIZE) :
    (kcmvpCtrRequest bKeyType usKeyIndex bAlg abCtr input).Packed
      ((ctrMode bKeyType usKeyIndex bAlg).request abCtr input.length input) := by
  have hfirst := @Built.packed_copy
    ([0x02, bAlg ||| 0x06, bKeyType] ++ bytes16 usKeyIndex ++ bytes16 input.length)
    abCtr 7 23 rfl (by rw [hctr]; rfl)
  have hrequest : (ctrMode bKeyType usKeyIndex bAlg).request abCtr input.length input =
      [0x02, bAlg ||| 0x06, bKeyType] ++ bytes16 usKeyIndex ++ bytes16 input.length ++ abCtr ++
        input := rfl
  rw [hrequest]
  refine hfirst.copy ?_ ?_
  · rw [List.length_append, hctr]
    rfl
  · simp only [MAX_IO_DATA_SIZE] at hmax
    rw [show (input.length : Int) + 23 = ((input.length + 23 : Nat) : Int) by omega,
      uint16_of_lt (by omega), List.length_append, hctr, Nat.add_comm]
    rfl

/-- The sum that `_kcmvpGcm` checks keeps `usInSize` from wrapping, with the tag that it does not
    count. -/
theorem kcmvpGcmRequest_packed (pbInput pbIv pbAuth pbTag : Nat)
    {usInputSize usIvSize usAuthSize usTagSize : Nat}
    (hsizes : usInputSize + usIvSize + usAuthSize ≤ MAX_IO_DATA_SIZE) (htag : usTagSize ≤ 16)
    (x : Kse σ) :
    (kcmvpGcmRequest bKeyType usKeyIndex bEnDe bAlg pbInput usInputSize pbIv usIvSize pbAuth
        usAuthSize pbTag usTagSize x).Packed
      ([0x02, bAlg ||| 0x07, bKeyType] ++ bytes16 usKeyIndex ++ [bEnDe] ++ bytes16 usIvSize ++
        bytes16 usInputSize ++ bytes16 usAuthSize ++ bytes16 usTagSize ++
        x.arg pbIv usIvSize ++ x.arg pbInput usInputSize ++ x.arg pbAuth usAuthSize ++
        if bEnDe = ENCRYPT then [] else x.arg pbTag usTagSize) := by
  have hiv : (x.arg pbIv usIvSize).length = usIvSize := length_slice _ _ _
  have hinput : (x.arg pbInput usInputSize).length = usInputSize := length_slice _ _ _
  have hauth : (x.arg pbAuth usAuthSize).length = usAuthSize := length_slice _ _ _
  have htagLen : (x.arg pbTag usTagSize).length = usTagSize := length_slice _ _ _
  have hheader := Built.packed_header ([0x02, bAlg ||| 0x07, bKeyType] ++ bytes16 usKeyIndex ++
    [bEnDe] ++ bytes16 usIvSize ++ bytes16 usInputSize ++ bytes16 usAuthSize ++ bytes16 usTagSize)
  unfold kcmvpGcmRequest
  simp only [MAX_IO_DATA_SIZE] at hsizes
  generalize hh : [0x02, bAlg ||| 0x07, bKeyType] ++ bytes16 usKeyIndex ++ [bEnDe] ++
    bytes16 usIvSize ++ bytes16 usInputSize ++ bytes16 usAuthSize ++ bytes16 usTagSize = header
    at *
  have hlen : header.length = 14 := by
    rw [← hh]
    rfl
  rw [hlen] at hheader
  have hivPacked := @Built.Packed.append _ _ hheader (x.arg pbIv usIvSize) (by omega)
  have hinputPacked := @Built.Packed.append _ _ hivPacked (x.arg pbInput usInputSize)
    (by rw [List.length_append]; omega)
  have hauthPacked := @Built.Packed.append _ _ hinputPacked (x.arg pbAuth usAuthSize)
    (by simp only [List.length_append]; omega)
  split
  · rw [List.append_nil]
    exact hauthPacked
  · exact hauthPacked.append (by simp only [List.length_append]; omega)

end BlockCiphers

/-! ### Hashes and signatures -/

/-- One step, or `End`: `i` runs over the key index, if it is carried, the size, the message,
    and what is to be verified. -/
def hashFinalRequest (bCmd : UInt8) (carriesKey : Prop) [Decidable carriesKey] (usKeyIndex : Nat)
    (bAlg : UInt8) (inOut1 inOut2 message : List UInt8) : Built :=
  let b : Built := ⟨pokes 0 [0x02, bCmd], 2⟩
  let b := if carriesKey then b.append16 usKeyIndex else b
  let b := b.append16 message.length
  let b := b.append message
  let b := if bAlg = KCMVP_HMAC_VERI ∨ bAlg = KCMVP_ECDSA_VERI then b.append inOut1 else b
  if bAlg = KCMVP_ECDSA_VERI then b.append inOut2 else b

/-- `Begin`: the length is `MAX_IO_DATA_SIZE + i`. -/
def hashBeginRequest (usKeyIndex : Nat) (bAlg : UInt8) (message : List UInt8) : Built :=
  let b : Built := ⟨pokes 0 [0x02, bAlg ||| 0x05], 2⟩
  let b := if bAlg = KCMVP_HMAC_GEN ∨ bAlg = KCMVP_HMAC_VERI then b.append16 usKeyIndex else b
  let b := b.append16 MAX_IO_DATA_SIZE
  ⟨b.writes ++ [⟨b.usSendLen, message⟩], uint16 (MAX_IO_DATA_SIZE + b.usSendLen)⟩

def hashMidRequest (bAlg : UInt8) (message : List UInt8) : Built :=
  ⟨pokes 0 ([0x02, bAlg ||| 0x06] ++ bytes16 MAX_IO_DATA_SIZE) ++ [⟨4, message⟩],
    uint16 (MAX_IO_DATA_SIZE + 4)⟩

def kcmvpHashDsaRequest (usKeyIndex : Nat) (bAlg : UInt8) (inOut1 inOut2 : List UInt8)
    (c : HashCommand) : Built :=
  match c.step with
  | .one => hashFinalRequest (bAlg ||| 0x04) (bAlg ≠ KCMVP_SHA) usKeyIndex bAlg inOut1 inOut2
      c.message
  | .begin_ => hashBeginRequest usKeyIndex bAlg c.message
  | .mid => hashMidRequest bAlg c.message
  | .end_ => hashFinalRequest (bAlg ||| 0x07) (bAlg = KCMVP_ECDSA_SIGN ∨ bAlg = KCMVP_ECDSA_VERI)
      usKeyIndex bAlg inOut1 inOut2 c.message

theorem hashFinalRequest_packed (bCmd : UInt8) (carriesKey : Prop) [Decidable carriesKey]
    (usKeyIndex : Nat) (bAlg : UInt8) {inOut1 inOut2 message : List UInt8}
    (h1 : inOut1.length = 32) (h2 : inOut2.length = 32)
    (hmax : message.length ≤ MAX_IO_DATA_SIZE) :
    (hashFinalRequest bCmd carriesKey usKeyIndex bAlg inOut1 inOut2 message).Packed
      ([0x02, bCmd] ++ (if carriesKey then bytes16 usKeyIndex else []) ++
        bytes16 message.length ++ message ++ hashPresented bAlg inOut1 inOut2) := by
  have hkeyLen : (if carriesKey then bytes16 usKeyIndex else []).length ≤ 2 := by
    split <;> simp
  have hmacLen : (if bAlg = KCMVP_HMAC_VERI ∨ bAlg = KCMVP_ECDSA_VERI then inOut1 else []).length
      ≤ 32 := by
    split <;> simp [h1]
  have hheader : Built.Packed ⟨pokes 0 [0x02, bCmd], 2⟩ [0x02, bCmd] := Built.packed_header _
  have hkey := hheader.append16If carriesKey usKeyIndex (by simp)
  unfold hashFinalRequest hashPresented
  simp only [MAX_IO_DATA_SIZE] at hmax
  generalize (if carriesKey then bytes16 usKeyIndex else []) = key at *
  have hsize := hkey.append16 message.length
    (by simp only [List.length_append, List.length_cons, List.length_nil]; omega)
  have hmessage := @Built.Packed.append _ _ hsize message
    (by simp only [List.length_append, List.length_cons, List.length_nil, length_bytes16]; omega)
  have hmac := @Built.Packed.appendIf _ _ hmessage
    (bAlg = KCMVP_HMAC_VERI ∨ bAlg = KCMVP_ECDSA_VERI) _ inOut1
    (by simp only [List.length_append, List.length_cons, List.length_nil, length_bytes16]; omega)
  rw [← List.append_assoc]
  exact hmac.appendIf (bAlg = KCMVP_ECDSA_VERI)
    (by simp only [List.length_append, List.length_cons, List.length_nil, length_bytes16]; omega)

theorem hashBeginRequest_packed (usKeyIndex : Nat) (bAlg : UInt8) {message : List UInt8}
    (hfull : message.length = MAX_IO_DATA_SIZE) :
    (hashBeginRequest usKeyIndex bAlg message).Packed
      ([0x02, bAlg ||| 0x05] ++ hashBeginKey bAlg usKeyIndex ++ bytes16 message.length ++
        message) := by
  have hkeyLen : (hashBeginKey bAlg usKeyIndex).length ≤ 2 := by
    unfold hashBeginKey
    split <;> simp
  have hheader : Built.Packed ⟨pokes 0 [0x02, bAlg ||| 0x05], 2⟩ [0x02, bAlg ||| 0x05] :=
    Built.packed_header _
  have hkey := hheader.append16If (bAlg = KCMVP_HMAC_GEN ∨ bAlg = KCMVP_HMAC_VERI) usKeyIndex
    (by simp)
  rw [hfull]
  unfold hashBeginRequest
  rw [← hashBeginKey] at hkey
  generalize hashBeginKey bAlg usKeyIndex = key at *
  have hsize := hkey.append16 MAX_IO_DATA_SIZE
    (by simp only [List.length_append, List.length_cons, List.length_nil]; omega)
  refine hsize.copy hsize.usSendLen ?_
  rw [hsize.usSendLen, hfull]
  simp only [List.length_append, List.length_cons, List.length_nil, length_bytes16,
    MAX_IO_DATA_SIZE, uint16]
  omega

theorem hashMidRequest_packed (bAlg : UInt8) {message : List UInt8}
    (hfull : message.length = MAX_IO_DATA_SIZE) :
    (hashMidRequest bAlg message).Packed
      ([0x02, bAlg ||| 0x06] ++ bytes16 message.length ++ message) := by
  rw [hfull]
  refine Built.packed_copy rfl ?_
  rw [hfull]
  rfl

/-- `Begin` and `Mid` carry a full chunk, the final commands at most one. -/
def HashCommand.Sized (c : HashCommand) : Prop :=
  match c.step with
  | .one | .end_ => c.message.length ≤ MAX_IO_DATA_SIZE
  | .begin_ | .mid => c.message.length = MAX_IO_DATA_SIZE

theorem HashCommand.Sized.length_le {c : HashCommand} (h : c.Sized) :
    c.message.length ≤ MAX_IO_DATA_SIZE := by
  obtain ⟨step, message⟩ := c
  cases step with
  | one | end_ => exact h
  | begin_ | mid => exact Nat.le_of_eq h

theorem hashPresented_le {bAlg : UInt8} {inOut1 inOut2 : List UInt8} (h1 : inOut1.length = 32)
    (h2 : inOut2.length = 32) : (hashPresented bAlg inOut1 inOut2).length ≤ 64 := by
  unfold hashPresented
  rw [List.length_append]
  split <;> split <;> simp [h1, h2]

theorem kcmvpHashDsaRequest_packed (usKeyIndex : Nat) (bAlg : UInt8) {inOut1 inOut2 : List UInt8}
    (h1 : inOut1.length = 32) (h2 : inOut2.length = 32) {c : HashCommand} (hsized : c.Sized) :
    (kcmvpHashDsaRequest usKeyIndex bAlg inOut1 inOut2 c).Packed
      (c.request bAlg usKeyIndex (hashPresented bAlg inOut1 inOut2)) := by
  obtain ⟨step, message⟩ := c
  cases step with
  | one =>
    exact hashFinalRequest_packed (bAlg ||| 0x04) (bAlg ≠ KCMVP_SHA) usKeyIndex bAlg h1 h2 hsized
  | begin_ =>
    simp only [HashCommand.request, HashStep.presented, List.append_nil]
    exact hashBeginRequest_packed usKeyIndex bAlg hsized
  | mid =>
    simp only [HashCommand.request, HashStep.presented, HashStep.key, List.append_nil]
    exact hashMidRequest_packed bAlg hsized
  | end_ =>
    exact hashFinalRequest_packed (bAlg ||| 0x07)
      (bAlg = KCMVP_ECDSA_SIGN ∨ bAlg = KCMVP_ECDSA_VERI) usKeyIndex bAlg h1 h2 hsized

end MavlinkDim
