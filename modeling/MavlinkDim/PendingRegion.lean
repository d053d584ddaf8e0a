import MavlinkDim.Runs
import MavlinkDim.TlsReplies

/-!
# The pending region

The device says how much of its input it did not consume, and the driver takes
the count as it is: the pending region ends where the input ended and begins
`usUnusedInputLen` bytes before.  `pending_region_iff` says which counts keep it
inside the shared buffer, over every sequence of the functions that use it.
-/

namespace MavlinkDim

open ByteMemory

variable {σ : Type} (W : World σ) (fuel : Nat)

/-- The pending region is empty, or lies behind the header of a parse command and inside the
    shared buffer; and the length that the next call presents again is one of an input. -/
structure Kse.RegionValid (x : Kse σ) : Prop where
  region : x.gusTxRxDataLength = 0 ∨
    8 ≤ x.gusTxRxDataOffset ∧ x.gusTxRxDataOffset + x.gusTxRxDataLength ≤ MAX_IO_BUFFER_SIZE
  input : 0 ≤ int16 x.gusTxRxDataLength ∧ int16 x.gusTxRxDataLength ≤ MAX_IO_DATA_SIZE

/-- The count of unused input in a response. -/
def Exchange.unused (e : Exchange) : Nat := if e.usLen > 2 then e.field 2 else 0

/-- The device leaves nothing of its input, or no more than the request holds behind the first
    eight bytes and than an input can have. -/
def Exchange.CountFits (e : Exchange) : Prop :=
  e.unused = 0 ∨ e.unused + 8 ≤ e.usSendLen ∧ e.unused ≤ MAX_IO_DATA_SIZE

instance (e : Exchange) : Decidable e.CountFits := by
  unfold Exchange.CountFits; infer_instance

/-! ### The functions that move the region -/

/-- `y` says the same about the pending input as `x`. -/
structure SameRegion (x y : Kse σ) : Prop where
  gusTxRxDataOffset : y.gusTxRxDataOffset = x.gusTxRxDataOffset
  gusTxRxDataLength : y.gusTxRxDataLength = x.gusTxRxDataLength

theorem SameRegion.refl (x : Kse σ) : SameRegion x x := ⟨rfl, rfl⟩

theorem SameRegion.trans {x y z : Kse σ} (h : SameRegion x y) (h' : SameRegion y z) :
    SameRegion x z :=
  ⟨h'.gusTxRxDataOffset.trans h.gusTxRxDataOffset,
    h'.gusTxRxDataLength.trans h.gusTxRxDataLength⟩

theorem SameRegion.valid {x y : Kse σ} (h : SameRegion x y) (hx : x.RegionValid) :
    y.RegionValid := by
  refine ⟨?_, ?_⟩
  · rw [h.gusTxRxDataOffset, h.gusTxRxDataLength]
    exact hx.region
  · rw [h.gusTxRxDataLength]
    exact hx.input

theorem Kse.regionValid_of_zero {x : Kse σ} (h : x.gusTxRxDataLength = 0) : x.RegionValid := by
  refine ⟨Or.inl h, ?_⟩
  rw [h]
  decide

/-- A valid region of an input that is not longer than `MAX_IO_DATA_SIZE`. -/
theorem Kse.next_valid_iff (x : Kse σ) {sInLen offset usUnusedInputLen : Nat}
    (hin : sInLen ≤ MAX_IO_DATA_SIZE) (hoffset : offset ≤ MAX_IO_CTRL_LEN)
    (hword : usUnusedInputLen < 65536) :
    (x.next sInLen offset usUnusedInputLen).RegionValid ↔ usUnusedInputLen = 0 ∨
      usUnusedInputLen + 8 ≤ sInLen + offset ∧ usUnusedInputLen ≤ MAX_IO_DATA_SIZE := by
  rcases Nat.eq_zero_or_pos usUnusedInputLen with rfl | hpos
  · apply iff_of_true _ (Or.inl rfl)
    exact Kse.regionValid_of_zero rfl
  · have hnext : x.next sInLen offset usUnusedInputLen =
        { x with gusTxRxDataOffset := uint16 (sInLen + offset - usUnusedInputLen)
                 gusTxRxDataLength := usUnusedInputLen } := if_pos hpos
    simp only [MAX_IO_DATA_SIZE, MAX_IO_CTRL_LEN] at hin hoffset ⊢
    rw [hnext]
    constructor
    · rintro ⟨hregion, hinput⟩
      simp only [uint16, MAX_IO_BUFFER_SIZE, MAX_IO_DATA_SIZE, MAX_IO_CTRL_LEN, int16]
        at hregion hinput
      split at hinput <;> omega
    · intro hfits
      refine ⟨?_, ?_⟩
      · simp only [uint16, MAX_IO_BUFFER_SIZE, MAX_IO_DATA_SIZE, MAX_IO_CTRL_LEN]
        omega
      · change 0 ≤ int16 usUnusedInputLen ∧ int16 usUnusedInputLen ≤ MAX_IO_DATA_SIZE
        rw [int16_of_lt (by omega) (by omega)]
        simp only [MAX_IO_DATA_SIZE]
        omega

theorem receiveRecord_region (offset : Nat) (socketDesc : Int) (x : Kse σ) :
    SameRegion x (receiveRecord W offset socketDesc x).2.2 := by
  rcases receiveRecord_cases W offset socketDesc x with
    ⟨-, w, h⟩ | ⟨-, l, w, -, h⟩ | ⟨-, h⟩ <;> rw [h] <;> exact ⟨rfl, rfl⟩

/-- The length of an input: what `_tlsRecv` read, or what a valid region holds. -/
theorem receiveRecord_input {offset : Nat} {socketDesc sInLen : Int} {x y : Kse σ}
    (hx : x.RegionValid) (h : receiveRecord W offset socketDesc x = (false, sInLen, y)) :
    ∃ n : Nat, sInLen = n ∧ n ≤ MAX_IO_DATA_SIZE := by
  rcases receiveRecord_cases W offset socketDesc x with
    ⟨-, w, hcall⟩ | ⟨-, l, w, hlen, hcall⟩ | ⟨-, hcall⟩
  · rw [hcall] at h
    cases h
  · rw [hcall, Prod.mk.injEq, Prod.mk.injEq] at h
    exact ⟨l.length, h.2.1.symm, hlen⟩
  · rw [hcall, Prod.mk.injEq, Prod.mk.injEq] at h
    obtain ⟨n, hn⟩ := Int.eq_ofNat_of_zero_le hx.input.1
    have hle := hx.input.2
    rw [hn] at h hle
    exact ⟨n, h.2.1.symm, by exact_mod_cast hle⟩

theorem sendRecord_region (socketDesc : Int) (offset usRecordLen : Nat) (x : Kse σ) :
    SameRegion x (sendRecord W socketDesc offset usRecordLen x).2.2 := by
  obtain ⟨_, _, _, h⟩ := sendRecord_eq W socketDesc offset usRecordLen x
  rw [h]
  exact ⟨rfl, rfl⟩

theorem setAlert_region (socketDesc : Int) (x : Kse σ) :
    SameRegion x (setAlert W fuel socketDesc x).2.2 := by
  obtain ⟨e, w, y, -, -, hy, hcases⟩ := setAlert_cases W fuel socketDesc x
  have hexchange : SameRegion x (y.exchanged e w) := by
    rw [hy]
    exact ⟨rfl, rfl⟩
  rcases hcases with ⟨-, sRv, hcall, -⟩ | ⟨-, returned, sOutLen, z, hsend, hcall⟩
  · rw [hcall]
    exact hexchange
  · have hz := sendRecord_region W socketDesc 4 (e.field 2) (y.exchanged e w)
    rw [hsend] at hz
    rw [hcall]
    exact hexchange.trans hz

/-- The region is the same, or empty. -/
def RegionKept (x y : Kse σ) : Prop := SameRegion x y ∨ y.gusTxRxDataLength = 0

theorem SameRegion.kept {x y z : Kse σ} (h : SameRegion x y) (h' : RegionKept y z) :
    RegionKept x z := by
  rcases h' with h' | h'
  · exact Or.inl (h.trans h')
  · exact Or.inr h'

theorem RegionKept.valid {x y : Kse σ} (h : RegionKept x y) (hx : x.RegionValid) :
    y.RegionValid := by
  rcases h with h | h
  · exact h.valid hx
  · exact Kse.regionValid_of_zero h

theorem writeRecord_region (socketDesc : Int) (usSendLen : Nat) (x : Kse σ) :
    RegionKept x (writeRecord W fuel socketDesc usSendLen x).2 := by
  obtain ⟨e, w, -, ⟨-, sRv, hcall⟩ | ⟨-, returned, sOutLen, y, hsend, hcall⟩⟩ :=
    writeRecord_cases W fuel socketDesc usSendLen x
  · rw [hcall]
    exact Or.inl ⟨rfl, rfl⟩
  · have hexchange : SameRegion x (x.exchanged e w) := ⟨rfl, rfl⟩
    have hy := sendRecord_region W socketDesc 4 (e.field 2) (x.exchanged e w)
    rw [hsend] at hy
    rw [hcall]
    cases returned with
    | true => exact Or.inl (hexchange.trans hy)
    | false => exact Or.inr rfl

theorem ksetlsTlsWrite_region (socketDesc : Int) (pbOutAppData : Nat) (sOutAppDataLen : Int)
    (x : Kse σ) :
    RegionKept x (ksetlsTlsWrite W fuel socketDesc pbOutAppData sOutAppDataLen x).2 := by
  unfold ksetlsTlsWrite
  split
  · exact Or.inl (.refl x)
  · split
    · exact Or.inl (.refl x)
    · apply SameRegion.kept _ (writeRecord_region W fuel socketDesc _ _)
      exact ⟨rfl, rfl⟩

theorem ksetlsTlsCloseNotify_region (socketDesc : Int) (x : Kse σ) :
    RegionKept x (ksetlsTlsCloseNotify W fuel socketDesc x).2 := by
  unfold ksetlsTlsCloseNotify
  split
  · exact Or.inl (.refl x)
  · split
    · exact Or.inl (.refl x)
    · apply SameRegion.kept _ (writeRecord_region W fuel socketDesc _ _)
      exact ⟨rfl, rfl⟩

theorem ksetlsClose_region (socketDesc : Int) (x : Kse σ) :
    RegionKept x (ksetlsClose W fuel socketDesc x).2 := by
  simp only [ksetlsClose]
  repeat' split
  · exact Or.inl (.refl x)
  · exact Or.inl (.refl x)
  · exact Or.inl ⟨rfl, rfl⟩
  · exact Or.inl ⟨rfl, rfl⟩
  · exact Or.inl ⟨rfl, rfl⟩
  · exact Or.inr rfl

theorem ksetlsOpen_region (socketDesc : Int) (bMode bEndpoint : UInt8)
    (usCertIndex usCaCertIndex usRfu : Nat) (bSaveOption : UInt8) (x : Kse σ) :
    RegionKept x (ksetlsOpen W fuel socketDesc bMode bEndpoint usCertIndex usCaCertIndex usRfu
        bSaveOption x).2 ∧
      ((ksetlsOpen W fuel socketDesc bMode bEndpoint usCertIndex usCaCertIndex usRfu bSaveOption
          x).1 = some KSE_SUCCESS →
        (ksetlsOpen W fuel socketDesc bMode bEndpoint usCertIndex usCaCertIndex usRfu bSaveOption
          x).2.gusTxRxDataLength = 0) := by
  simp only [ksetlsOpen]
  repeat' split
  · exact ⟨Or.inl (.refl x), by simp⟩
  · exact ⟨Or.inl (.refl x), by simp⟩
  · rename_i hfail
    exact ⟨Or.inl ⟨rfl, rfl⟩, fun h => absurd h hfail⟩
  · exact ⟨Or.inl ⟨rfl, rfl⟩, by simp⟩
  · exact ⟨Or.inr rfl, fun _ => rfl⟩

/-! ### The responses whose count is taken -/

/-- `e` is the response whose count a round takes: the input is there, the device answers, and
    the record in its answer, if there is one, is sent. -/
def RoundCounts (cmd : List UInt8) (socketDesc : Int) (h : Handshake σ) (e : Exchange) : Prop :=
  ∃ sInLen y w,
    (if h.bNextInput = KSE_TRUE then receiveRecord W (cmd.length + 2) socketDesc h.kse
      else (false, 0, h.kse)) = (false, sInLen, y) ∧
    e.Of W fuel w (uint16 (sInLen + (cmd.length + 2)))
      (y.store 0 (cmd ++ bytes16 (uint16 sInLen))) ∧
    e.sRv = some KSE_SUCCESS ∧ ¬(status e.gabTxRxData = KSE_SUCCESS ∧ e.usLen < 7) ∧
    (sendRecord W socketDesc 7 (if e.usLen > 2 then e.field 5 else 0)
      ((y.store 0 (cmd ++ bytes16 (uint16 sInLen))).exchanged e w)).1 = false

/-- `e` is the response whose count `_ksetlsTlsRead` takes: the input is there, and the device
    accepts it. -/
def ReadCounts (pbInAppData : Nat) (psInAppDataLen : Option Int) (socketDesc : Int) (x : Kse σ)
    (e : Exchange) : Prop :=
  x.gusKsePower = .on ∧
    ¬(pbInAppData = NULL_PTR ∨ psInAppDataLen = none ∨ socketDesc = INVALID_SOCKET) ∧
    ∃ sInLen y w, receiveRecord W 8 socketDesc x = (false, sInLen, y) ∧
      e.Of W fuel w (uint16 (sInLen + 8))
        (y.store 0 (tlsHeader 0x20 socketDesc ++ bytes16 (uint16 sInLen))) ∧
      e.Accepted 6

/-- The region that the count of a response sets. -/
theorem Exchange.next_valid_iff {e : Exchange} {n offset : Nat} (x : Kse σ)
    (hlen : e.usSendLen = uint16 (n + offset : Nat)) (hn : n ≤ MAX_IO_DATA_SIZE)
    (hoffset : offset ≤ MAX_IO_CTRL_LEN) :
    (x.next n offset e.unused).RegionValid ↔ e.CountFits := by
  have hword : e.unused < 65536 := by
    have hfield := e.field_lt 2
    unfold Exchange.unused
    split <;> omega
  simp only [MAX_IO_DATA_SIZE, MAX_IO_CTRL_LEN] at hn hoffset
  rw [Kse.next_valid_iff x (by simpa using hn) (by simpa using hoffset) hword, Exchange.CountFits,
    hlen, uint16_of_lt (by omega)]

/-- The input of a round, received or not, leaves the region. -/
theorem roundInput_same {offset : Nat} {socketDesc : Int} {h : Handshake σ} {returned : Bool}
    {sInLen : Int} {y : Kse σ}
    (hinput : (if h.bNextInput = KSE_TRUE then receiveRecord W offset socketDesc h.kse
      else (false, 0, h.kse)) = (returned, sInLen, y)) : SameRegion h.kse y := by
  by_cases hnext : h.bNextInput = KSE_TRUE
  · rw [if_pos hnext] at hinput
    have hregion := receiveRecord_region W offset socketDesc h.kse
    rwa [hinput] at hregion
  · rw [if_neg hnext] at hinput
    cases hinput
    exact .refl _

/-- It fits into the buffer. -/
theorem roundInput_length {offset : Nat} {socketDesc : Int} {h : Handshake σ}
    (hx : h.kse.RegionValid) {sInLen : Int} {y : Kse σ}
    (hinput : (if h.bNextInput = KSE_TRUE then receiveRecord W offset socketDesc h.kse
      else (false, 0, h.kse)) = (false, sInLen, y)) :
    ∃ n : Nat, sInLen = n ∧ n ≤ MAX_IO_DATA_SIZE := by
  by_cases hnext : h.bNextInput = KSE_TRUE
  · rw [if_pos hnext] at hinput
    exact receiveRecord_input W hx hinput
  · rw [if_neg hnext] at hinput
    cases hinput
    exact ⟨0, rfl, Nat.zero_le _⟩

/-- The response of a round is the only one whose count it can take. -/
theorem RoundCounts.unique {cmd : List UInt8} {socketDesc : Int} {h : Handshake σ} {sInLen : Int}
    {y : Kse σ} {e e' : Exchange} {w : σ}
    (hinput : (if h.bNextInput = KSE_TRUE then
        receiveRecord W (cmd.length + 2) socketDesc h.kse
      else (false, 0, h.kse)) = (false, sInLen, y))
    (hof : e.Of W fuel w (uint16 (sInLen + (cmd.length + 2)))
      (y.store 0 (cmd ++ bytes16 (uint16 sInLen))))
    (hcounts : RoundCounts W fuel cmd socketDesc h e') :
    e' = e ∧ e.sRv = some KSE_SUCCESS ∧ ¬(status e.gabTxRxData = KSE_SUCCESS ∧ e.usLen < 7) ∧
      (sendRecord W socketDesc 7 (if e.usLen > 2 then e.field 5 else 0)
        ((y.store 0 (cmd ++ bytes16 (uint16 sInLen))).exchanged e w)).1 = false := by
  obtain ⟨sInLen', y', w', hinput', hof', hok, hlong, hsent⟩ := hcounts
  rw [hinput] at hinput'
  cases hinput'
  obtain ⟨rfl, rfl⟩ := hof'.unique W fuel hof
  exact ⟨rfl, hok, hlong, hsent⟩

/-- What a round does with its response: the exchange, then perhaps a record that is sent, and
    `Next` if the count of the response is taken. -/
theorem handshakeRound_next {cmd : List UInt8} {socketDesc : Int} {h : Handshake σ} {sInLen : Int}
    {y : Kse σ} {e : Exchange} {w : σ}
    (hinput : (if h.bNextInput = KSE_TRUE then receiveRecord W (cmd.length + 2) socketDesc h.kse
      else (false, 0, h.kse)) = (false, sInLen, y))
    (hof : e.Of W fuel w (uint16 (sInLen + (cmd.length + 2)))
      (y.store 0 (cmd ++ bytes16 (uint16 sInLen)))) :
    ∃ (z : Kse σ) (es : List Event), z.gabTxRxData = e.gabTxRxData ∧
      z.trace = y.trace ++ .exchange e :: es ∧ SameRegion y z ∧
      ((RoundCounts W fuel cmd socketDesc h e ∧ (handshakeRound W fuel cmd socketDesc h).kse =
          z.next sInLen (cmd.length + 2) e.unused) ∨
        (¬RoundCounts W fuel cmd socketDesc h e ∧
          (handshakeRound W fuel cmd socketDesc h).kse = z)) := by
  obtain ⟨returned, sInLen', y', hinput', hcases⟩ := handshakeRound_cases W fuel cmd socketDesc h
  rw [hinput] at hinput'
  cases hinput'
  rcases hcases with ⟨hreturned, -⟩ | ⟨-, e', w', hof', hcases⟩
  · cases hreturned
  · obtain ⟨rfl, rfl⟩ := hof'.unique W fuel hof
    rcases hcases with ⟨hfailed, sRv, hcall⟩ | ⟨hok, hlong, returned, sOutLen, z, hsend, hcall⟩
    · -- the device does not answer as a round expects
      refine ⟨_, [], Kse.exchanged_gabTxRxData _ _ w', Kse.exchanged_trace _ _ _, ⟨rfl, rfl⟩,
        Or.inr ⟨?_, ?_⟩⟩
      · intro hcounts
        obtain ⟨-, hok, hlong, -⟩ := hcounts.unique W fuel hinput hof
        exact hfailed ⟨hok, hlong⟩
      · rw [hcall]
        rfl
    · have hexchange : SameRegion y
          ((y.store 0 (cmd ++ bytes16 (uint16 sInLen))).exchanged e' w') := ⟨rfl, rfl⟩
      have hregion := sendRecord_region W socketDesc 7 (if e'.usLen > 2 then e'.field 5 else 0)
        ((y.store 0 (cmd ++ bytes16 (uint16 sInLen))).exchanged e' w')
      obtain ⟨_, _, w'', hsent⟩ := sendRecord_eq W socketDesc 7
        (if e'.usLen > 2 then e'.field 5 else 0)
        ((y.store 0 (cmd ++ bytes16 (uint16 sInLen))).exchanged e' w')
      have hz := congrArg (fun r => (r.2.2.gabTxRxData, r.2.2.trace)) (hsend.symm.trans hsent)
      simp only [Prod.mk.injEq, Kse.exchanged_gabTxRxData, Kse.exchanged_trace, Kse.store_trace,
        List.append_assoc] at hz
      rw [hsend] at hregion
      refine ⟨z, _, hz.1, hz.2, hexchange.trans hregion, ?_⟩
      cases returned with
      | true =>
        -- the record is not sent
        refine Or.inr ⟨?_, ?_⟩
        · intro hcounts
          obtain ⟨-, -, -, hnot⟩ := hcounts.unique W fuel hinput hof
          rw [hsend] at hnot
          cases hnot
        · rw [hcall]
          rfl
      | false =>
        refine Or.inl ⟨⟨sInLen, y, w', hinput, hof, hok, hlong, by rw [hsend]⟩, ?_⟩
        rw [hcall]
        simp only [Bool.false_eq_true, if_false]
        split <;> rfl

theorem handshakeRound_valid_iff {cmd : List UInt8} (hcmd : cmd.length + 2 ≤ MAX_IO_CTRL_LEN)
    (socketDesc : Int) {h : Handshake σ} (hx : h.kse.RegionValid) :
    (handshakeRound W fuel cmd socketDesc h).kse.RegionValid ↔
      ∀ e, RoundCounts W fuel cmd socketDesc h e → e.CountFits := by
  obtain ⟨returned, sInLen, y, hinput, hcases⟩ := handshakeRound_cases W fuel cmd socketDesc h
  have hy := roundInput_same W hinput
  rcases hcases with ⟨rfl, hcall⟩ | ⟨rfl, e, w, hof, -⟩
  · -- the input is not there
    apply iff_of_true
    · rw [hcall]
      exact hy.valid hx
    · rintro e ⟨_, _, _, hinput', -⟩
      rw [hinput] at hinput'
      cases hinput'
  · obtain ⟨n, rfl, hn⟩ := roundInput_length W hx hinput
    obtain ⟨z, -, -, -, hz, ⟨hcounts, hround⟩ | ⟨hnot, hround⟩⟩ :=
      handshakeRound_next W fuel hinput hof
    · rw [hround, Exchange.next_valid_iff z (by rw [hof.usSendLen]; simp) hn hcmd]
      constructor
      · intro hfits e' hcounts'
        rw [(hcounts'.unique W fuel hinput hof).1]
        exact hfits
      · intro hall
        exact hall e hcounts
    · apply iff_of_true
      · rw [hround]
        exact (hy.trans hz).valid hx
      · intro e' hcounts'
        obtain ⟨rfl, -⟩ := hcounts'.unique W fuel hinput hof
        exact absurd hcounts' hnot

theorem parseRecord_valid_iff (pbInAppData : Nat) (psInAppDataLen : Option Int)
    (socketDesc : Int) {n : Nat} (hn : n ≤ MAX_IO_DATA_SIZE) {x : Kse σ} (hx : x.RegionValid) :
    (parseRecord W fuel pbInAppData psInAppDataLen socketDesc n x).2.2.RegionValid ↔
      ∀ (e : Exchange) (w : σ), e.Of W fuel w (uint16 (n + 8))
        (x.store 0 (tlsHeader 0x20 socketDesc ++ bytes16 (uint16 n))) → e.Accepted 6 →
        e.CountFits := by
  obtain ⟨e, w, y, rfl, hof, hcases⟩ :=
    parseRecord_cases W fuel pbInAppData psInAppDataLen socketDesc n x
  have hexchange : SameRegion x (Kse.exchanged (x.store 0 (tlsHeader 0x20 socketDesc ++
      bytes16 (uint16 n))) e w) := ⟨rfl, rfl⟩
  have hrejected : ¬e.Accepted 6 → ∀ (e' : Exchange) (w' : σ), e'.Of W fuel w' (uint16 (n + 8))
      (x.store 0 (tlsHeader 0x20 socketDesc ++ bytes16 (uint16 n))) → e'.Accepted 6 →
      e'.CountFits := by
    intro hno e' w' hof' haccepted
    obtain ⟨rfl, rfl⟩ := hof'.unique W fuel hof
    exact absurd haccepted hno
  rcases hcases with ⟨hno, sRv, z, hcall, hz, -⟩ | ⟨hno, -, returned, sRv, z, hset, hcall⟩ |
    ⟨haccepted, hcall⟩
  · apply iff_of_true _ (hrejected hno)
    rw [hcall]
    rcases hz with rfl | rfl
    · exact hexchange.valid hx
    · exact Kse.regionValid_of_zero rfl
  · apply iff_of_true _ (hrejected hno)
    have hz := setAlert_region W fuel socketDesc
      (Kse.exchanged (x.store 0 (tlsHeader 0x20 socketDesc ++ bytes16 (uint16 n))) e w)
    rw [hset] at hz
    rw [hcall]
    cases returned with
    | true => exact (hexchange.trans hz).valid hx
    | false => exact Kse.regionValid_of_zero rfl
  · have hunused : e.field 2 = e.unused := by
      have hlen := haccepted.2.2
      rw [Exchange.unused, if_pos (by omega)]
    rw [hcall, hunused]
    rw [Exchange.next_valid_iff _ (by rw [hof.usSendLen]; simp) hn (by simp)]
    constructor
    · intro hfits e' w' hof' _
      obtain ⟨rfl, rfl⟩ := hof'.unique W fuel hof
      exact hfits
    · intro hall
      exact hall e w hof haccepted

theorem ksetlsTlsRead_valid_iff (pbInAppData : Nat) (psInAppDataLen : Option Int)
    (socketDesc : Int) {x : Kse σ} (hx : x.RegionValid) :
    (ksetlsTlsRead W fuel pbInAppData psInAppDataLen socketDesc x).2.2.RegionValid ↔
      ∀ e, ReadCounts W fuel pbInAppData psInAppDataLen socketDesc x e → e.CountFits := by
  have hregion := receiveRecord_region W 8 socketDesc x
  unfold ksetlsTlsRead ReadCounts
  by_cases hpower : x.gusKsePower = .on
  · rw [if_neg (not_not.mpr hpower)]
    by_cases hargs : pbInAppData = NULL_PTR ∨ psInAppDataLen = none ∨ socketDesc = INVALID_SOCKET
    · rw [if_pos hargs]
      exact iff_of_true hx fun _ h => absurd hargs h.2.1
    · rw [if_neg hargs]
      rcases hrecv : receiveRecord W 8 socketDesc x with ⟨returned, sInLen, y⟩
      rw [hrecv] at hregion
      cases returned with
      | true =>
        simp only [if_true]
        apply iff_of_true (hregion.valid hx)
        rintro e ⟨-, -, _, _, _, hrecv', -⟩
        cases hrecv'
      | false =>
        obtain ⟨n, rfl, hn⟩ := receiveRecord_input W hx hrecv
        simp only [Bool.false_eq_true, if_false]
        rw [parseRecord_valid_iff W fuel _ _ _ hn (hregion.valid hx)]
        constructor
        · rintro hall e ⟨-, -, _, _, w, hrecv', hof, haccepted⟩
          cases hrecv'
          exact hall e w hof haccepted
        · intro hall e w hof haccepted
          exact hall e ⟨hpower, hargs, n, y, w, rfl, hof, haccepted⟩
  · rw [if_pos hpower]
    exact iff_of_true hx fun _ h => absurd h.1 hpower

/-! ### Sequences of calls -/

/-- What uses the region of an open channel: a handshake, round by round, and the other calls.
    `app` is the application writing its memory between two calls. -/
inductive TlsOp where
  | clientRound (socketDesc : Int) (bType bNextInput : UInt8)
  | serverRound (socketDesc : Int) (bNextInput : UInt8)
  | read (pbInAppData : Nat) (psInAppDataLen : Option Int) (socketDesc : Int)
  | write (socketDesc : Int) (pbOutAppData : Nat) (sOutAppDataLen : Int)
  | closeNotify (socketDesc : Int)
  | close (socketDesc : Int)
  | app (m : Bytes)

def TlsOp.run : TlsOp → Kse σ → Kse σ
  | .clientRound socketDesc bType bNextInput, x =>
    (handshakeRound W fuel (tlsHeader 0x10 socketDesc ++ [bType]) socketDesc ⟨bNextInput, x⟩).kse
  | .serverRound socketDesc bNextInput, x =>
    (handshakeRound W fuel (tlsHeader 0x11 socketDesc) socketDesc ⟨bNextInput, x⟩).kse
  | .read pbInAppData psInAppDataLen socketDesc, x =>
    (ksetlsTlsRead W fuel pbInAppData psInAppDataLen socketDesc x).2.2
  | .write socketDesc pbOutAppData sOutAppDataLen, x =>
    (ksetlsTlsWrite W fuel socketDesc pbOutAppData sOutAppDataLen x).2
  | .closeNotify socketDesc, x => (ksetlsTlsCloseNotify W fuel socketDesc x).2
  | .close socketDesc, x => (ksetlsClose W fuel socketDesc x).2
  | .app m, x => { x with app := m }

/-- `e` is the response whose count of unused input the operation takes. -/
def TlsOp.Counts : TlsOp → Kse σ → Exchange → Prop
  | .clientRound socketDesc bType bNextInput, x, e =>
    RoundCounts W fuel (tlsHeader 0x10 socketDesc ++ [bType]) socketDesc ⟨bNextInput, x⟩ e
  | .serverRound socketDesc bNextInput, x, e =>
    RoundCounts W fuel (tlsHeader 0x11 socketDesc) socketDesc ⟨bNextInput, x⟩ e
  | .read pbInAppData psInAppDataLen socketDesc, x, e =>
    ReadCounts W fuel pbInAppData psInAppDataLen socketDesc x e
  | _, _, _ => False

theorem TlsOp.run_valid_iff (op : TlsOp) {x : Kse σ} (hx : x.RegionValid) :
    (op.run W fuel x).RegionValid ↔ ∀ e, op.Counts W fuel x e → e.CountFits := by
  cases op with
  | clientRound socketDesc bType bNextInput =>
    exact handshakeRound_valid_iff W fuel (by simp) socketDesc (h := ⟨bNextInput, x⟩) hx
  | serverRound socketDesc bNextInput =>
    exact handshakeRound_valid_iff W fuel (by simp) socketDesc (h := ⟨bNextInput, x⟩) hx
  | read pbInAppData psInAppDataLen socketDesc =>
    exact ksetlsTlsRead_valid_iff W fuel pbInAppData psInAppDataLen socketDesc hx
  | write socketDesc pbOutAppData sOutAppDataLen =>
    exact iff_of_true ((ksetlsTlsWrite_region W fuel _ _ _ x).valid hx) fun _ h => h.elim
  | closeNotify socketDesc =>
    exact iff_of_true ((ksetlsTlsCloseNotify_region W fuel _ x).valid hx) fun _ h => h.elim
  | close socketDesc =>
    exact iff_of_true ((ksetlsClose_region W fuel _ x).valid hx) fun _ h => h.elim
  | app m => exact iff_of_true ⟨hx.region, hx.input⟩ fun _ h => h.elim

/-- The states that a sequence of operations goes through. -/
def TlsOp.states (x : Kse σ) (ops : List TlsOp) : List (Kse σ) :=
  Runs.states (fun op x => some (op.run W fuel x)) x ops

/-- The rounds of a handshake are a sequence of operations, with one `op` for each. -/
theorem handshakeLoop_ops {cmd : List UInt8} {socketDesc : Int} (op : UInt8 → TlsOp)
    (hop : ∀ bNextInput (x : Kse σ), (op bNextInput).run W fuel x =
      (handshakeRound W fuel cmd socketDesc ⟨bNextInput, x⟩).kse) (rounds : Nat)
    (h : Handshake σ) :
    ∃ ops : List TlsOp, (handshakeLoop W fuel cmd socketDesc rounds h).2 =
      ops.foldl (fun x op => op.run W fuel x) h.kse := by
  induction rounds generalizing h with
  | zero => exact ⟨[], rfl⟩
  | succ rounds ih =>
    have hround := hop h.bNextInput h.kse
    rw [handshakeLoop]
    cases hnext : handshakeRound W fuel cmd socketDesc h with
    | again h' =>
      obtain ⟨ops, hops⟩ := ih h'
      refine ⟨op h.bNextInput :: ops, ?_⟩
      rw [List.foldl_cons, hround, hnext]
      exact hops
    | done sRv x =>
      refine ⟨[op h.bNextInput], ?_⟩
      rw [List.foldl_cons, hround, hnext]
      rfl

/-- A call of kseTLS is a sequence of operations. -/
theorem TlsCall.run_ops (call : TlsCall) (x : Kse σ) :
    ∃ ops : List TlsOp, call.run W fuel x = ops.foldl (fun x op => op.run W fuel x) x := by
  cases call with
  | clientHandshake socketDesc bType =>
    simp only [TlsCall.run, ksetlsTlsClientHandshake]
    split
    · exact ⟨[], rfl⟩
    · split
      · exact ⟨[], rfl⟩
      · exact handshakeLoop_ops W fuel (.clientRound socketDesc bType)
          (fun _ _ => rfl) fuel ⟨KSE_FALSE, x⟩
  | serverHandshake socketDesc =>
    simp only [TlsCall.run, ksetlsTlsServerHandshake]
    split
    · exact ⟨[], rfl⟩
    · split
      · exact ⟨[], rfl⟩
      · exact handshakeLoop_ops W fuel (.serverRound socketDesc)
          (fun _ _ => rfl) fuel ⟨KSE_TRUE, x⟩
  | read pbInAppData psInAppDataLen socketDesc =>
    exact ⟨[.read pbInAppData psInAppDataLen socketDesc], rfl⟩
  | write socketDesc pbOutAppData sOutAppDataLen =>
    exact ⟨[.write socketDesc pbOutAppData sOutAppDataLen], rfl⟩
  | closeNotify socketDesc => exact ⟨[.closeNotify socketDesc], rfl⟩

/-- So what a sequence of calls leaves is a state of a sequence of operations. -/
theorem TlsCall.runs_mem_states (calls : List TlsCall) (x : Kse σ) :
    ∃ ops, calls.foldl (fun x call => call.run W fuel x) x ∈ x :: TlsOp.states W fuel x ops := by
  have hops : ∀ ops : List TlsOp, ∀ x : Kse σ, ops.foldl (fun x op => op.run W fuel x) x ∈
      x :: TlsOp.states W fuel x ops := by
    intro ops
    induction ops with
    | nil => exact fun x => List.mem_cons_self ..
    | cons op ops ih =>
      intro x
      rw [TlsOp.states, Runs.states_cons_some rfl]
      exact List.mem_cons_of_mem _ (ih (op.run W fuel x))
  have hcalls : ∃ ops : List TlsOp, calls.foldl (fun x call => call.run W fuel x) x =
      ops.foldl (fun x op => op.run W fuel x) x := by
    induction calls generalizing x with
    | nil => exact ⟨[], rfl⟩
    | cons call calls ih =>
      obtain ⟨ops, hfirst⟩ := call.run_ops W fuel x
      obtain ⟨ops', hrest⟩ := ih (call.run W fuel x)
      refine ⟨ops ++ ops', ?_⟩
      rw [List.foldl_cons, hrest, hfirst, List.foldl_append]
  obtain ⟨ops, heq⟩ := hcalls
  exact ⟨ops, heq ▸ hops ops x⟩

/-- **When the pending region stays in the buffer.**  After `_ksetlsOpen` succeeded, every state
    of every sequence of operations has a valid region exactly when every count that one of them
    takes fits its request. -/
theorem pending_region_iff {socketDesc : Int} {bMode bEndpoint : UInt8}
    {usCertIndex usCaCertIndex usRfu : Nat} {bSaveOption : UInt8} {x y : Kse σ}
    (hopen : ksetlsOpen W fuel socketDesc bMode bEndpoint usCertIndex usCaCertIndex usRfu
      bSaveOption x = (some KSE_SUCCESS, y)) (ops : List TlsOp) :
    (∀ z ∈ y :: TlsOp.states W fuel y ops, z.RegionValid) ↔
      Runs.Along (fun op z => some (op.run W fuel z))
        (fun op z => ∀ e, op.Counts W fuel z e → e.CountFits) y ops := by
  have hempty := (ksetlsOpen_region W fuel socketDesc bMode bEndpoint usCertIndex usCaCertIndex
    usRfu bSaveOption x).2
  rw [hopen] at hempty
  have hy : y.RegionValid := Kse.regionValid_of_zero (hempty rfl)
  rw [List.forall_mem_cons, and_iff_right hy, TlsOp.states]
  refine Runs.forall_states_iff (I := fun _ => True) (fun _ _ _ _ _ => trivial) ?_ trivial hy ops
  rintro op z _ ⟨⟩ - hz
  exact op.run_valid_iff W fuel hz

/-- An open channel whose device answers a read with `usUnusedInputLen` and an empty message,
    and whose peer sends a record of ten bytes. -/
def readChannel (usUnusedInputLen : Nat) : Kse Script :=
  (ksetlsOpen scriptedWorld 1 5 KSETLS_MODE_TLS KSETLS_SERVER 1 0 0 SESSION
    (poweredOn (fun _ => 0)
      ⟨[Report.ofList [REP_ONE_BLOCK, 0x06, 0, 2],
        Report.ofList ([REP_ONE_BLOCK, 0x06, 0, 6, 0, 0] ++ bytes16 usUnusedInputLen)],
        [List.replicate 10 0x17], []⟩)).2

/-- Four of the ten bytes are left over: bytes 14 to 17 of the buffer. -/
theorem pending_region_within :
    (∀ z ∈ TlsOp.states scriptedWorld 1 (readChannel 4) [.read 1 (some 0) 5],
        (z.gusTxRxDataOffset, z.gusTxRxDataLength) = (14, 4)) ∧
      ∀ e, (TlsOp.read 1 (some 0) 5).Counts scriptedWorld 1 (readChannel 4) e →
        e.CountFits := by
  have hstates : ∀ z ∈ TlsOp.states scriptedWorld 1 (readChannel 4) [.read 1 (some 0) 5],
      (z.gusTxRxDataOffset, z.gusTxRxDataLength) = (14, 4) := by
    decide +kernel
  refine ⟨hstates, ?_⟩
  have hopen : ksetlsOpen scriptedWorld 1 5 KSETLS_MODE_TLS KSETLS_SERVER 1 0 0 SESSION
      (poweredOn (fun _ => 0)
        ⟨[Report.ofList [REP_ONE_BLOCK, 0x06, 0, 2],
          Report.ofList ([REP_ONE_BLOCK, 0x06, 0, 6, 0, 0] ++ bytes16 4)],
          [List.replicate 10 0x17], []⟩) = (some KSE_SUCCESS, readChannel 4) := by
    apply Prod.ext
    · decide +kernel
    · rfl
  have hrun := (pending_region_iff scriptedWorld 1 hopen [.read 1 (some 0) 5]).mp ?_
  · exact ((Runs.along_cons_some rfl []).mp hrun).1
  · intro z hz
    rcases List.mem_cons.mp hz with rfl | hmem
    · exact Kse.regionValid_of_zero (by decide +kernel)
    · have hregion := Prod.mk.inj (hstates z hmem)
      refine ⟨Or.inr ?_, ?_⟩
      · rw [hregion.1, hregion.2]
        decide
      · rw [hregion.2]
        decide

/-- The device says that 100 of ten bytes are left over: the region begins 82 bytes before the
    buffer, as a `uint16_t`, and the next read presents 100 bytes from there. -/
theorem pending_region_outside :
    ∃ z ∈ TlsOp.states scriptedWorld 1 (readChannel 100) [.read 1 (some 0) 5],
      (z.gusTxRxDataOffset, z.gusTxRxDataLength) = (65536 - 82, 100) ∧ ¬z.RegionValid := by
  refine ⟨(TlsOp.read 1 (some 0) 5).run scriptedWorld 1 (readChannel 100),
    List.mem_cons_self .., by decide +kernel, ?_⟩
  intro hvalid
  have hregion := hvalid.region
  revert hregion
  decide +kernel

end MavlinkDim
