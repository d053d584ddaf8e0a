import Mathlib.Logic.Relation
import MavlinkDim.Kcmvp
import MavlinkDim.Tls

/-!
# Commands between two reads

A command outside TLS writes its request over the start of the shared buffer and
receives its response there, while `gusTxRxDataOffset` and `gusTxRxDataLength`
go on saying where the pending TLS input is.  Every command is a run of the
three steps of `CommandStep`; from what such a run writes,
`pending_presented_iff` says when the next `_ksetlsTlsRead` presents the
pending input to the device.
-/

namespace MavlinkDim

open ByteMemory SlotTiling

variable {σ : Type} (W : World σ) (fuel : Nat)

/-! ### The steps of a command -/

/-- What a command does to the state: an exchange whose request it stores at the start of the
    shared buffer, or an output to the application. -/
inductive CommandStep : Kse σ → Kse σ → Prop where
  | exchange (x : Kse σ) (request : List UInt8) {e : Exchange} {w : σ} :
      e.Of W fuel w request.length (x.store 0 request) →
      CommandStep x ((x.store 0 request).exchanged e w)
  | copyOut (x : Kse σ) (pb offset n : Nat) : CommandStep x (x.copyOut pb offset n)
  | store16 (x : Kse σ) (pus us : Nat) : CommandStep x (x.store16 pus us)

abbrev CommandRun : Kse σ → Kse σ → Prop := Relation.ReflTransGen (CommandStep W fuel)

def Block.write (b : Block) : Write := ⟨60 * b.usOffset, slice b.abInReport 4 b.usLen⟩

/-- What an exchange writes to the shared buffer: the request, and then the blocks of the
    response. -/
def Exchange.writes (e : Exchange) : List Write := ⟨0, e.request⟩ :: e.blocks.map Block.write

def Event.writes : Event → List Write
  | .exchange e => e.writes
  | _ => []

/-- A run of a command: the buffer holds what was written to it, and where the pending input
    is said to be does not change. -/
structure Commanded (x y : Kse σ) : Prop where
  written : ∃ es, y.trace = x.trace ++ es ∧
    y.gabTxRxData = writeAll x.gabTxRxData (es.flatMap Event.writes)
  gusKsePower : y.gusKsePower = x.gusKsePower
  gusTxRxDataOffset : y.gusTxRxDataOffset = x.gusTxRxDataOffset
  gusTxRxDataLength : y.gusTxRxDataLength = x.gusTxRxDataLength

theorem Commanded.refl (x : Kse σ) : Commanded x x := ⟨⟨[], by simp, rfl⟩, rfl, rfl, rfl⟩

theorem Commanded.trans {x y z : Kse σ} (h : Commanded x y) (h' : Commanded y z) :
    Commanded x z := by
  obtain ⟨es, htrace, hgab⟩ := h.written
  obtain ⟨es', htrace', hgab'⟩ := h'.written
  refine ⟨⟨es ++ es', ?_, ?_⟩, h'.gusKsePower.trans h.gusKsePower,
    h'.gusTxRxDataOffset.trans h.gusTxRxDataOffset,
    h'.gusTxRxDataLength.trans h.gusTxRxDataLength⟩
  · rw [htrace', htrace, List.append_assoc]
  · rw [hgab', hgab, List.flatMap_append, writeAll_append]

theorem copyAll_eq_writeAll (m : Bytes) (blocks : List Block) :
    copyAll Block.abInReport Block.usOffset Block.usLen 60 0 4 m blocks =
      writeAll m (blocks.map Block.write) := by
  simp only [copyAll, writeAll, List.foldl_map, Block.write, blit_eq_put, Nat.zero_add]

theorem Exchange.Of.gab_eq {W : World σ} {fuel : Nat} {e : Exchange} {w : σ} {x : Kse σ}
    {request : List UInt8} (hof : e.Of W fuel w request.length (x.store 0 request)) :
    e.gabTxRxData = writeAll x.gabTxRxData e.writes := by
  rw [hof.copied.mem_eq, copyAll_eq_writeAll, Exchange.writes, hof.request_eq]
  rfl

theorem CommandStep.commanded {x y : Kse σ} (h : CommandStep W fuel x y) : Commanded x y := by
  cases h with
  | exchange request hof =>
    refine ⟨⟨[.exchange _], rfl, ?_⟩, rfl, rfl, rfl⟩
    rw [Kse.exchanged_gabTxRxData, hof.gab_eq, List.flatMap_singleton]
    rfl
  | copyOut pb offset n => exact ⟨⟨[.copied offset n], rfl, rfl⟩, rfl, rfl, rfl⟩
  | store16 pus us => exact ⟨⟨[], by simp [Kse.store16], rfl⟩, rfl, rfl, rfl⟩

theorem CommandRun.commanded {x y : Kse σ} (h : CommandRun W fuel x y) : Commanded x y := by
  induction h with
  | refl => exact .refl x
  | tail _ hstep ih => exact ih.trans hstep.commanded

/-! ### Every command is such a run -/

theorem transceive_run (request : List UInt8) (x : Kse σ) :
    CommandRun W fuel x (transceive W fuel request.length (x.store 0 request)).2.2 := by
  obtain ⟨e, w, hof⟩ := exists_exchange W fuel request.length (x.store 0 request)
  rw [hof.call]
  exact .single (.exchange x request hof)

theorem copyOut_run {x y : Kse σ} (h : CommandRun W fuel x y) (pb offset n : Nat) :
    CommandRun W fuel x (y.copyOut pb offset n) :=
  h.tail (.copyOut y pb offset n)

theorem takeSized_run {x y : Kse σ} (h : CommandRun W fuel x y) (pb pusSize usLen : Nat) :
    CommandRun W fuel x (y.takeSized pb pusSize usLen) := by
  simp only [Kse.takeSized]
  split
  · exact (copyOut_run W fuel h _ _ _).tail (.store16 _ _ _)
  · exact h.tail (.store16 _ _ _)

theorem checked_run {wrongInput : Prop} [Decidable wrongInput]
    {body : Kse σ → Option Int × Kse σ} {x : Kse σ} (h : CommandRun W fuel x (body x).2) :
    CommandRun W fuel x (checked wrongInput body x).2 := by
  unfold checked
  split
  · exact .refl
  · split
    · exact .refl
    · exact h

theorem statusCommand_run (request : List UInt8) (x : Kse σ) :
    CommandRun W fuel x (statusCommand W fuel request x).2 := by
  have hrun := transceive_run W fuel request x
  simp only [statusCommand]
  repeat' split
  all_goals exact hrun

theorem dataCommand_run (request : List UInt8) {wrongLen : Nat → Prop}
    [DecidablePred wrongLen] {take : Nat → Kse σ → Kse σ} (x : Kse σ)
    (htake : ∀ usLen y, CommandRun W fuel x y → CommandRun W fuel x (take usLen y)) :
    CommandRun W fuel x (dataCommand W fuel request wrongLen take x).2 := by
  have hrun := transceive_run W fuel request x
  simp only [dataCommand]
  repeat' split
  · exact hrun
  · exact hrun
  · exact hrun
  · exact htake _ _ hrun

theorem outputCommand_run (request : List UInt8) (usSize pbOutput : Nat) (x : Kse σ) :
    CommandRun W fuel x (dataCommand W fuel request (fun usLen => usLen ≠ usSize + 2)
      (fun _ x => x.copyOut pbOutput 2 usSize) x).2 :=
  dataCommand_run W fuel request x fun _ _ h => copyOut_run W fuel h pbOutput 2 usSize

theorem modeLoop_run (mode : Mode) (pbOutput pbInput usInputSize : Nat) (chaining : List UInt8)
    (x : Kse σ) :
    CommandRun W fuel x (modeLoop W fuel mode pbOutput pbInput usInputSize chaining x).2 := by
  fun_induction modeLoop W fuel mode pbOutput pbInput usInputSize chaining x with
  | case1 pbOutput _ _ chaining x usSize input sRv y hcall =>
    have hrun := outputCommand_run W fuel (mode.request chaining usSize input) usSize pbOutput x
    rwa [hcall] at hrun
  | case2 pbOutput _ _ chaining x usSize input sRv y hcall _ _ ih =>
    have hrun := outputCommand_run W fuel (mode.request chaining usSize input) usSize pbOutput x
    rw [hcall] at hrun
    exact hrun.trans ih
  | case3 pbOutput _ _ chaining x usSize input sRv y hcall =>
    have hrun := outputCommand_run W fuel (mode.request chaining usSize input) usSize pbOutput x
    rwa [hcall] at hrun

theorem kcmvpEcb_run (pbOutput pbInput usInputSize : Nat) (bKeyType : UInt8) (usKeyIndex : Nat)
    (bEnDe bAlg : UInt8) (x : Kse σ) :
    CommandRun W fuel x
      (kcmvpEcb W fuel pbOutput pbInput usInputSize bKeyType usKeyIndex bEnDe bAlg x).2 :=
  checked_run W fuel (modeLoop_run W fuel _ _ _ _ _ x)

theorem kcmvpCbc_run (pbOutput pbInput usInputSize : Nat) (bKeyType : UInt8)
    (usKeyIndex pbIv : Nat) (bEnDe bAlg : UInt8) (x : Kse σ) :
    CommandRun W fuel x
      (kcmvpCbc W fuel pbOutput pbInput usInputSize bKeyType usKeyIndex pbIv bEnDe bAlg x).2 :=
  checked_run W fuel (modeLoop_run W fuel _ _ _ _ _ x)

theorem kcmvpCtr_run (pbOutput pbInput usInputSize : Nat) (bKeyType : UInt8)
    (usKeyIndex pbCtr : Nat) (bAlg : UInt8) (x : Kse σ) :
    CommandRun W fuel x
      (kcmvpCtr W fuel pbOutput pbInput usInputSize bKeyType usKeyIndex pbCtr bAlg x).2 :=
  checked_run W fuel (modeLoop_run W fuel _ _ _ _ _ x)

theorem kcmvpGcm_run (pbOutput pbInput usInputSize : Nat) (bKeyType : UInt8)
    (usKeyIndex pbIv usIvSize pbAuth usAuthSize pbTag usTagSize : Nat) (bEnDe bAlg : UInt8)
    (x : Kse σ) :
    CommandRun W fuel x (kcmvpGcm W fuel pbOutput pbInput usInputSize bKeyType usKeyIndex pbIv
      usIvSize pbAuth usAuthSize pbTag usTagSize bEnDe bAlg x).2 := by
  apply checked_run
  apply dataCommand_run
  intro _ y h
  have houtput := copyOut_run W fuel h pbOutput 2 usInputSize
  dsimp only
  split
  · exact copyOut_run W fuel houtput pbTag (usInputSize + 2) usTagSize
  · exact houtput

theorem hashFinal_run (bCmd : UInt8) (usKeyIndex : List UInt8) (pbInOut1 pbInOut2 : Nat)
    (bAlg : UInt8) (pbMessage usMessageSize : Nat) (x : Kse σ) :
    CommandRun W fuel x (hashFinal W fuel bCmd usKeyIndex pbInOut1 pbInOut2 bAlg pbMessage
      usMessageSize x).2 := by
  apply dataCommand_run
  intro _ y h
  have hfirst := copyOut_run W fuel h pbInOut1 2 32
  split
  · exact hfirst
  · split
    · exact copyOut_run W fuel hfirst pbInOut2 34 32
    · exact h

theorem hashMid_run (bAlg : UInt8) {hashEnd : Nat → Nat → Kse σ → Option Int × Kse σ}
    (hend : ∀ pbMessage usMessageSize x,
      CommandRun W fuel x (hashEnd pbMessage usMessageSize x).2)
    (pbMessage usMessageSize : Nat) (x : Kse σ) :
    CommandRun W fuel x (hashMid W fuel bAlg hashEnd pbMessage usMessageSize x).2 := by
  fun_induction hashMid W fuel bAlg hashEnd pbMessage usMessageSize x with
  | case1 pbMessage _ x _ sRv y hcall =>
    have hrun := statusCommand_run W fuel ([0x02, bAlg ||| 0x06] ++ bytes16 MAX_IO_DATA_SIZE ++
      x.arg pbMessage MAX_IO_DATA_SIZE) x
    rwa [hcall] at hrun
  | case2 pbMessage _ x _ sRv y hcall _ ih =>
    have hrun := statusCommand_run W fuel ([0x02, bAlg ||| 0x06] ++ bytes16 MAX_IO_DATA_SIZE ++
      x.arg pbMessage MAX_IO_DATA_SIZE) x
    rw [hcall] at hrun
    exact hrun.trans ih
  | case3 pbMessage usMessageSize x => exact hend pbMessage usMessageSize x

theorem kcmvpHashDsa_run (pbInOut1 pbInOut2 pbMessage usMessageSize usKeyIndex : Nat)
    (bAlg : UInt8) (x : Kse σ) :
    CommandRun W fuel x
      (kcmvpHashDsa W fuel pbInOut1 pbInOut2 pbMessage usMessageSize usKeyIndex bAlg x).2 := by
  apply checked_run
  by_cases hsize : usMessageSize ≤ MAX_IO_DATA_SIZE
  · simp only [if_pos hsize]
    exact hashFinal_run W fuel _ _ _ _ _ _ _ x
  · simp only [if_neg hsize]
    have hbegin := statusCommand_run W fuel ([0x02, bAlg ||| 0x05] ++
      (if bAlg = KCMVP_HMAC_GEN ∨ bAlg = KCMVP_HMAC_VERI then bytes16 usKeyIndex else []) ++
      bytes16 MAX_IO_DATA_SIZE ++ x.arg pbMessage MAX_IO_DATA_SIZE) x
    revert hbegin
    generalize statusCommand W fuel _ x = r
    intro hbegin
    by_cases hsRv : r.1 ≠ some KSE_SUCCESS
    · rwa [if_pos hsRv]
    · rw [if_neg hsRv]
      exact hbegin.trans (hashMid_run W fuel bAlg
        (fun _ _ y => hashFinal_run W fuel _ _ _ _ _ _ _ y) _ _ _)

/-! ### The commands of the module -/

/-- A call of a command outside TLS, with its arguments. -/
inductive Command where
  | readInfoFile (pbData usOffset usSize : Nat)
  | writeInfoFile (pbData usSize usOffset : Nat)
  | generateKey (bKeyType : UInt8) (usKeyIndex usHmacKeySize : Nat)
  | putKey (bKeyType : UInt8) (usKeyIndex pbKey usKeySize : Nat)
  | getKey (pbKey pusKeySize : Nat) (bKeyType : UInt8) (usKeyIndex : Nat)
  | eraseKey (bKeyType : UInt8) (usKeyIndex : Nat)
  | drbg (pbRandom usRandomSize : Nat)
  | aesEcb (pbOutput pbInput usInputSize : Nat) (bKeyType : UInt8) (usKeyIndex : Nat)
      (bEnDe : UInt8)
  | aesCbc (pbOutput pbInput usInputSize : Nat) (bKeyType : UInt8) (usKeyIndex pbIv : Nat)
      (bEnDe : UInt8)
  | aesCtr (pbOutput pbInput usInputSize : Nat) (bKeyType : UInt8) (usKeyIndex pbCtr : Nat)
  | aesGcm (pbOutput pbInput usInputSize : Nat) (bKeyType : UInt8)
      (usKeyIndex pbIv usIvSize pbAuth usAuthSize pbTag usTagSize : Nat) (bEnDe : UInt8)
  | ariaEcb (pbOutput pbInput usInputSize : Nat) (bKeyType : UInt8) (usKeyIndex : Nat)
      (bEnDe : UInt8)
  | ariaCbc (pbOutput pbInput usInputSize : Nat) (bKeyType : UInt8) (usKeyIndex pbIv : Nat)
      (bEnDe : UInt8)
  | ariaCtr (pbOutput pbInput usInputSize : Nat) (bKeyType : UInt8) (usKeyIndex pbCtr : Nat)
  | ariaGcm (pbOutput pbInput usInputSize : Nat) (bKeyType : UInt8)
      (usKeyIndex pbIv usIvSize pbAuth usAuthSize pbTag usTagSize : Nat) (bEnDe : UInt8)
  | sha256 (pbHash pbMessage usMessageSize : Nat)
  | hmacSha256 (pbHmac pbMessage usMessageSize usKeyIndex : Nat)
  | hmacSha256Verify (pbMessage usMessageSize pbHmac usKeyIndex : Nat)
  | ecdsaSign (pbR pbS pbMessage usMessageSize usKeyIndex : Nat)
  | ecdsaVerify (pbMessage usMessageSize pbR pbS usKeyIndex : Nat)
  | ecdhExchKey (pbSesKey pbPubKeytoken usKeyIndex : Nat)
  | getClibState (pbClibState : Nat)
  | generateKeypair (bKeyType : UInt8) (usCertIndex : Nat)
  | putPriKey (bKeyType : UInt8) (pbPriKey usCertIndex : Nat)
  | putPubKey (bKeyType : UInt8) (pbPubKey usCertIndex : Nat)
  | getPriKey (pbKeyState pbPriKey usCertIndex : Nat)
  | getPriKeyState (pbKeyState usCertIndex : Nat)
  | getPubKey (pbKeyState pbPubKey usCertIndex : Nat)
  | getPubKeyCsr (pbCsr usCertIndex : Nat)
  | putCert (pbCert usCertIndex : Nat)
  | putCertPubKey (pbCert usCertIndex usCaCertIndex : Nat)
  | getCert (pbCert usCertIndex : Nat)
  | getCertField (pbField pusSize : Nat) (bFieldIndex : UInt8) (usCertIndex : Nat)
  | eraseCertKey (bOpt : UInt8) (usCertIndex : Nat)

def Command.run : Command → Kse σ → Option Int × Kse σ
  | .readInfoFile pbData usOffset usSize => kseReadInfoFile W fuel pbData usOffset usSize
  | .writeInfoFile pbData usSize usOffset => kseWriteInfoFile W fuel pbData usSize usOffset
  | .generateKey bKeyType usKeyIndex usHmacKeySize =>
      kcmvpGenerateKey W fuel bKeyType usKeyIndex usHmacKeySize
  | .putKey bKeyType usKeyIndex pbKey usKeySize =>
      kcmvpPutKey W fuel bKeyType usKeyIndex pbKey usKeySize
  | .getKey pbKey pusKeySize bKeyType usKeyIndex =>
      kcmvpGetKey W fuel pbKey pusKeySize bKeyType usKeyIndex
  | .eraseKey bKeyType usKeyIndex => kcmvpEraseKey W fuel bKeyType usKeyIndex
  | .drbg pbRandom usRandomSize => kcmvpDrbg W fuel pbRandom usRandomSize
  | .aesEcb pbOutput pbInput usInputSize bKeyType usKeyIndex bEnDe =>
      kcmvpAesEcb W fuel pbOutput pbInput usInputSize bKeyType usKeyIndex bEnDe
  | .aesCbc pbOutput pbInput usInputSize bKeyType usKeyIndex pbIv bEnDe =>
      kcmvpAesCbc W fuel pbOutput pbInput usInputSize bKeyType usKeyIndex pbIv bEnDe
  | .aesCtr pbOutput pbInput usInputSize bKeyType usKeyIndex pbCtr =>
      kcmvpAesCtr W fuel pbOutput pbInput usInputSize bKeyType usKeyIndex pbCtr
  | .aesGcm pbOutput pbInput usInputSize bKeyType usKeyIndex pbIv usIvSize pbAuth usAuthSize
      pbTag usTagSize bEnDe =>
      kcmvpAesGcm W fuel pbOutput pbInput usInputSize bKeyType usKeyIndex pbIv usIvSize pbAuth
        usAuthSize pbTag usTagSize bEnDe
  | .ariaEcb pbOutput pbInput usInputSize bKeyType usKeyIndex bEnDe =>
      kcmvpAriaEcb W fuel pbOutput pbInput usInputSize bKeyType usKeyIndex bEnDe
  | .ariaCbc pbOutput pbInput usInputSize bKeyType usKeyIndex pbIv bEnDe =>
      kcmvpAriaCbc W fuel pbOutput pbInput usInputSize bKeyType usKeyIndex pbIv bEnDe
  | .ariaCtr pbOutput pbInput usInputSize bKeyType usKeyIndex pbCtr =>
      kcmvpAriaCtr W fuel pbOutput pbInput usInputSize bKeyType usKeyIndex pbCtr
  | .ariaGcm pbOutput pbInput usInputSize bKeyType usKeyIndex pbIv usIvSize pbAuth usAuthSize
      pbTag usTagSize bEnDe =>
      kcmvpAriaGcm W fuel pbOutput pbInput usInputSize bKeyType usKeyIndex pbIv usIvSize pbAuth
        usAuthSize pbTag usTagSize bEnDe
  | .sha256 pbHash pbMessage usMessageSize =>
      kcmvpSha256 W fuel pbHash pbMessage usMessageSize
  | .hmacSha256 pbHmac pbMessage usMessageSize usKeyIndex =>
      kcmvpHmacSha256 W fuel pbHmac pbMessage usMessageSize usKeyIndex
  | .hmacSha256Verify pbMessage usMessageSize pbHmac usKeyIndex =>
      kcmvpHmacSha256Verify W fuel pbMessage usMessageSize pbHmac usKeyIndex
  | .ecdsaSign pbR pbS pbMessage usMessageSize usKeyIndex =>
      kcmvpEcdsaSign W fuel pbR pbS pbMessage usMessageSize usKeyIndex
  | .ecdsaVerify pbMessage usMessageSize pbR pbS usKeyIndex =>
      kcmvpEcdsaVerify W fuel pbMessage usMessageSize pbR pbS usKeyIndex
  | .ecdhExchKey pbSesKey pbPubKeytoken usKeyIndex =>
      kcmvpEcdhExchKey W fuel pbSesKey pbPubKeytoken usKeyIndex
  | .getClibState pbClibState => kcmvpGetClibState W fuel pbClibState
  | .generateKeypair bKeyType usCertIndex => certGenerateKeypair W fuel bKeyType usCertIndex
  | .putPriKey bKeyType pbPriKey usCertIndex =>
      certPutPriKey W fuel bKeyType pbPriKey usCertIndex
  | .putPubKey bKeyType pbPubKey usCertIndex =>
      certPutPubKey W fuel bKeyType pbPubKey usCertIndex
  | .getPriKey pbKeyState pbPriKey usCertIndex =>
      certGetPriKey W fuel pbKeyState pbPriKey usCertIndex
  | .getPriKeyState pbKeyState usCertIndex => certGetPriKeyState W fuel pbKeyState usCertIndex
  | .getPubKey pbKeyState pbPubKey usCertIndex =>
      certGetPubKey W fuel pbKeyState pbPubKey usCertIndex
  | .getPubKeyCsr pbCsr usCertIndex => certGetPubKeyCsr W fuel pbCsr usCertIndex
  | .putCert pbCert usCertIndex => certPutCert W fuel pbCert usCertIndex
  | .putCertPubKey pbCert usCertIndex usCaCertIndex =>
      certPutCertPubKey W fuel pbCert usCertIndex usCaCertIndex
  | .getCert pbCert usCertIndex => certGetCert W fuel pbCert usCertIndex
  | .getCertField pbField pusSize bFieldIndex usCertIndex =>
      certGetCertField W fuel pbField pusSize bFieldIndex usCertIndex
  | .eraseCertKey bOpt usCertIndex => certEraseCertKey W fuel bOpt usCertIndex

theorem Command.run_run (c : Command) (x : Kse σ) : CommandRun W fuel x (c.run W fuel x).2 := by
  cases c with
  | writeInfoFile | generateKey | putKey | eraseKey | generateKeypair | putPriKey | putPubKey
    | putCert | putCertPubKey | eraseCertKey =>
    simp only [Command.run, kseWriteInfoFile, kcmvpGenerateKey, kcmvpPutKey, kcmvpEraseKey,
      certGenerateKeypair, certPutPriKey, certPutPubKey, certPutCert, certPutCertPubKey,
      certEraseCertKey]
    exact checked_run W fuel (statusCommand_run W fuel _ x)
  | readInfoFile pb | drbg pb | ecdhExchKey pb | getClibState pb | getPriKeyState pb
    | getPubKeyCsr pb | getCert pb =>
    simp only [Command.run, kseReadInfoFile, kcmvpDrbg, kcmvpEcdhExchKey, kcmvpGetClibState,
      certGetPriKeyState, certGetPubKeyCsr, certGetCert]
    exact checked_run W fuel (dataCommand_run W fuel _ x fun _ _ h => copyOut_run W fuel h pb 2 _)
  | getPriKey pbKeyState pb | getPubKey pbKeyState pb =>
    simp only [Command.run, certGetPriKey, certGetPubKey]
    exact checked_run W fuel (dataCommand_run W fuel _ x fun _ _ h =>
      copyOut_run W fuel (copyOut_run W fuel h pbKeyState 2 1) pb 3 _)
  | getKey pb pusSize | getCertField pb pusSize =>
    simp only [Command.run, kcmvpGetKey, certGetCertField]
    exact checked_run W fuel (dataCommand_run W fuel _ x fun usLen _ h =>
      takeSized_run W fuel h pb pusSize usLen)
  | aesEcb | ariaEcb => exact kcmvpEcb_run W fuel _ _ _ _ _ _ _ x
  | aesCbc | ariaCbc => exact kcmvpCbc_run W fuel _ _ _ _ _ _ _ _ x
  | aesCtr | ariaCtr => exact kcmvpCtr_run W fuel _ _ _ _ _ _ _ x
  | aesGcm | ariaGcm => exact kcmvpGcm_run W fuel _ _ _ _ _ _ _ _ _ _ _ _ _ x
  | sha256 | hmacSha256 | hmacSha256Verify | ecdsaSign | ecdsaVerify =>
    exact kcmvpHashDsa_run W fuel _ _ _ _ _ _ x

/-! ### The next read -/

/-- The next `_ksetlsTlsRead`, called with valid arguments, presents `l` to the device. -/
def Presents (l : List UInt8) (y : Kse σ) : Prop :=
  ∀ pbInAppData sInAppDataLen socketDesc, pbInAppData ≠ NULL_PTR → socketDesc ≠ INVALID_SOCKET →
    Parsed socketDesc l y
      (ksetlsTlsRead W fuel pbInAppData (some sInAppDataLen) socketDesc y).2.2

theorem presents_iff {y : Kse σ} (hpending : 0 < y.gusTxRxDataLength) {l : List UInt8}
    (hl : l.length = y.gusTxRxDataLength) :
    Presents W fuel l y ↔
      y.gusKsePower = .on ∧ y.gusTxRxDataLength + 8 < 65536 ∧ l = y.pending := by
  constructor
  · intro h
    obtain ⟨⟨hpower, -⟩, hread⟩ := (ksetlsTlsRead_parsed_iff W fuel hpending 1 (some 0) 0 hl).mp
      (h 1 0 0 (by simp) (by decide))
    exact ⟨hpower, hread⟩
  · rintro ⟨hpower, hread⟩ pbInAppData sInAppDataLen socketDesc hpb hsocket
    exact (ksetlsTlsRead_parsed_iff W fuel hpending pbInAppData (some sInAppDataLen) socketDesc
      hl).mpr ⟨⟨hpower, hpb, by simp, hsocket⟩, hread⟩

/-- What a call writes to the shared buffer. -/
def Command.writes (c : Command) (x : Kse σ) : List Write :=
  ((c.run W fuel x).2.trace.drop x.trace.length).flatMap Event.writes

/-- **When a command leaves the pending input to the next read.**  For every state with input
    pending, every command and every device, the next `_ksetlsTlsRead` presents that input
    exactly when it can send the command for it, and each byte of it is last written by the
    command with the value it had, or not at all. -/
theorem pending_presented_iff (c : Command) (x : Kse σ) (hpending : 0 < x.gusTxRxDataLength) :
    Presents W fuel x.pending (c.run W fuel x).2 ↔
      x.gusKsePower = .on ∧ x.gusTxRxDataLength + 8 < 65536 ∧
        Undisturbed x.gabTxRxData (c.writes W fuel x) x.gusTxRxDataOffset
          x.gusTxRxDataLength := by
  have hcommand := (c.run_run W fuel x).commanded
  obtain ⟨es, htrace, hgab⟩ := hcommand.written
  have hwrites : c.writes W fuel x = es.flatMap Event.writes := by
    rw [Command.writes, htrace, List.drop_left]
  rw [presents_iff W fuel (by rw [hcommand.gusTxRxDataLength]; exact hpending)
      (by simp [Kse.pending, hcommand.gusTxRxDataLength]),
    hcommand.gusKsePower, hcommand.gusTxRxDataLength, hwrites, ← slice_writeAll_eq_iff, ← hgab]
  have hpending : x.pending = (c.run W fuel x).2.pending ↔
      slice (c.run W fuel x).2.gabTxRxData x.gusTxRxDataOffset x.gusTxRxDataLength =
        slice x.gabTxRxData x.gusTxRxDataOffset x.gusTxRxDataLength := by
    simp only [Kse.pending, hcommand.gusTxRxDataOffset, hcommand.gusTxRxDataLength]
    exact eq_comm
  rw [hpending]

/-- Two records of three bytes arrived together and a read has consumed the first; `reports`
    are what the device sends to the commands after it. -/
def coalescedRead (reports : List Report) : Kse Script :=
  (ksetlsTlsRead scriptedWorld 5 1 (some 0) 3 (poweredOn (fun _ => 0x4B)
    ⟨Report.ofList [REP_ONE_BLOCK, 0x06, 0, 7, 0, 0, 0, 3, 0, 1, 0x41] :: reports,
      [[1, 2, 3, 4, 5, 6]], []⟩)).2.2

/-- A short command and its two-byte response end before the pending input. -/
theorem pending_presented_clibState :
    let x := coalescedRead [Report.ofList [REP_ONE_BLOCK, 0x06, 0, 2, 0xFE, 0]]
    x.pending = [4, 5, 6] ∧
      Presents scriptedWorld 5 x.pending ((Command.getClibState 1).run scriptedWorld 5 x).2 := by
  intro x
  refine ⟨by decide +kernel, ?_⟩
  exact (pending_presented_iff scriptedWorld 5 (.getClibState 1) x (by decide +kernel)).mpr
    ⟨by decide +kernel, by decide +kernel, undisturbed_of_disjoint _ (by decide +kernel)⟩

/-- The `_kcmvpAriaGcm` call of the server between two reads. -/
def decryptCall : Command :=
  .ariaGcm 2000 1000 256 KCMVP_ARIA128_KEY 0 3000 16 3100 128 3300 16 DECRYPT

/-- The device takes the 430 bytes of the request and answers with 258 bytes, all zero. -/
def decryptReports : List Report :=
  Report.ofList [REP_FIRST_BLOCK, 0xFE, 0, 60] ::
    [1, 2, 3, 4, 5, 6].map (fun k => Report.ofList [REP_MIDDLE_BLOCK, 0xFE, k, 60]) ++
    Report.ofList [REP_FIRST_BLOCK, 0x06, 0, 60] ::
    [1, 2, 3].map (fun k => Report.ofList [REP_MIDDLE_BLOCK, 0x06, k, 60]) ++
    [Report.ofList [REP_LAST_BLOCK, 0x06, 4, 18]]

/-- The call succeeds, and the next read presents bytes of its response as input. -/
theorem pending_presented_overwritten :
    let x := coalescedRead decryptReports
    let r := decryptCall.run scriptedWorld 5 x
    x.pending = [4, 5, 6] ∧ r.1 = some KSE_SUCCESS ∧ r.2.pending = [0, 0, 0] ∧
      ¬Presents scriptedWorld 5 x.pending r.2 := by
  intro x r
  have hbefore : x.pending = [4, 5, 6] := by decide +kernel
  have hafter : r.2.pending = [0, 0, 0] := by decide +kernel
  refine ⟨hbefore, by decide +kernel, hafter, ?_⟩
  rw [presents_iff scriptedWorld 5 (by decide +kernel) (by rw [hbefore]; decide +kernel),
    hbefore, hafter]
  simp

end MavlinkDim
