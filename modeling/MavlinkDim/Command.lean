import MavlinkDim.Driver

/-!
# Commands outside TLS

Every command checks the power state and its input, writes its request over the
start of the shared buffer, and takes the response from the same place.  The
parts that the commands share come first; the info-file and the certificate
commands follow, each under the name of its C function, without the underscore,
and with its own values.
-/

namespace MavlinkDim

open ByteMemory

variable {σ : Type} (W : World σ) (fuel : Nat)

/-! ### The parts of a command -/

/-- The power check and the input check. -/
def checked (wrongInput : Prop) [Decidable wrongInput] (body : Kse σ → Option Int × Kse σ)
    (x : Kse σ) : Option Int × Kse σ :=
  if x.gusKsePower ≠ .on then (some KSE_FAIL_NOT_POWERED_ON, x)
  else if wrongInput then (some KSE_FAIL_WRONG_INPUT, x)
  else body x

theorem checked_right {wrongInput : Prop} [Decidable wrongInput] (h : ¬wrongInput)
    (body : Kse σ → Option Int × Kse σ) {x : Kse σ} (hpower : x.gusKsePower = .on) :
    checked wrongInput body x = body x := by
  rw [checked, if_neg (not_not.mpr hpower), if_neg h]

theorem checked_wrong {wrongInput : Prop} [Decidable wrongInput] (h : wrongInput)
    (body : Kse σ → Option Int × Kse σ) {x : Kse σ} (hpower : x.gusKsePower = .on) :
    checked wrongInput body x = (some KSE_FAIL_WRONG_INPUT, x) := by
  rw [checked, if_neg (not_not.mpr hpower), if_pos h]

/-- A command whose response is its status. -/
def statusCommand (request : List UInt8) (x : Kse σ) : Option Int × Kse σ :=
  let (sRv, usLen, x) := transceive W fuel request.length (x.store 0 request)
  if sRv ≠ some KSE_SUCCESS then (sRv, x)
  else if usLen ≠ 2 then (some KSE_FAIL_UNEXPECTED_RESP_LEN, x)
  else (some (status x.gabTxRxData), x)

/-- A command whose response carries data behind its status.  `wrongLen` is the test of the
    length of a successful response, `take` what is done with such a response. -/
def dataCommand (request : List UInt8) (wrongLen : Nat → Prop) [DecidablePred wrongLen]
    (take : Nat → Kse σ → Kse σ) (x : Kse σ) : Option Int × Kse σ :=
  let (sRv, usLen, x) := transceive W fuel request.length (x.store 0 request)
  if sRv ≠ some KSE_SUCCESS then (sRv, x)
  else
    let sRv := status x.gabTxRxData
    if sRv = KSE_SUCCESS ∧ wrongLen usLen ∨ sRv ≠ KSE_SUCCESS ∧ usLen ≠ 2 then
      (some KSE_FAIL_UNEXPECTED_RESP_LEN, x)
    else if sRv ≠ KSE_SUCCESS then (some sRv, x)
    else (some sRv, take usLen x)

variable {W fuel} in
/-- A command changes the state by its exchange alone. -/
theorem statusCommand_exchange {request : List UInt8} {x : Kse σ} {e : Exchange} {w : σ}
    (hof : e.Of W fuel w request.length (x.store 0 request)) :
    (statusCommand W fuel request x).2 = (x.store 0 request).exchanged e w := by
  simp only [statusCommand, hof.call]
  split
  · rfl
  · split <;> rfl

/-- The exchange of a command succeeded, and its response has the length that the command
    expects. -/
def Exchange.Taken (wrongLen : Nat → Prop) (e : Exchange) : Prop :=
  e.sRv = some KSE_SUCCESS ∧ status e.gabTxRxData = KSE_SUCCESS ∧ ¬wrongLen e.usLen

variable {W fuel} in
/-- A command takes the response, or it fails and has taken nothing. -/
theorem dataCommand_exchange {request : List UInt8} (wrongLen : Nat → Prop)
    [DecidablePred wrongLen] (take : Nat → Kse σ → Kse σ) {x : Kse σ} {e : Exchange} {w : σ}
    (hof : e.Of W fuel w request.length (x.store 0 request)) :
    let r := dataCommand W fuel request wrongLen take x
    let y := (x.store 0 request).exchanged e w
    e.Taken wrongLen ∧ r = (some KSE_SUCCESS, take e.usLen y) ∨
      ¬e.Taken wrongLen ∧ ∃ sRv, sRv ≠ some KSE_SUCCESS ∧ r = (sRv, y) := by
  simp only [dataCommand, hof.call, Kse.exchanged_gabTxRxData]
  by_cases hok : e.sRv = some KSE_SUCCESS
  · rw [if_neg (not_not.mpr hok)]
    by_cases hstatus : status e.gabTxRxData = KSE_SUCCESS
    · by_cases hlen : wrongLen e.usLen
      · rw [if_pos (Or.inl ⟨hstatus, hlen⟩)]
        exact Or.inr ⟨fun h => h.2.2 hlen, _, by simp, rfl⟩
      · rw [if_neg (by simp only [hstatus, hlen]; simp), if_neg (not_not.mpr hstatus), hstatus]
        exact Or.inl ⟨⟨hok, hstatus, hlen⟩, rfl⟩
    · refine Or.inr ⟨fun h => hstatus h.2.1, ?_⟩
      split
      · exact ⟨_, by simp, rfl⟩
      · exact ⟨_, fun h => hstatus (Option.some.inj h), rfl⟩
  · rw [if_pos hok]
    exact Or.inr ⟨fun h => hok h.1, _, hok, rfl⟩

/-- `*pus` for a `uint16_t *` of the application. -/
def Kse.load16 (x : Kse σ) (pus : Nat) : Nat := word (x.app (pus + 1)) (x.app pus)

/-- `*pus = us` -/
def Kse.store16 (x : Kse σ) (pus us : Nat) : Kse σ :=
  { x with app := put x.app pus [loByte us, hiByte us] }

/-- The end of `_kcmvpGetKey` and `_certGetCertField`: as much of the value as fits, and its
    size. -/
def Kse.takeSized (pb pusSize usLen : Nat) (x : Kse σ) : Kse σ :=
  let usSize := uint16 (usLen - 2)
  let usLen := if usSize < x.load16 pusSize then usSize else x.load16 pusSize
  (if pb ≠ NULL_PTR then x.copyOut pb 2 usLen else x).store16 pusSize usSize

/-! ### Info file -/

def kseReadInfoFile (pbData usOffset usSize : Nat) : Kse σ → Option Int × Kse σ :=
  checked (pbData = NULL_PTR ∨ usSize > MAX_IO_DATA_SIZE ∨ usOffset + usSize > MAX_INFO_FILE_SIZE)
    (dataCommand W fuel ([0x00, 0x04] ++ bytes16 usOffset ++ bytes16 usSize)
      (fun usLen => usLen ≠ usSize + 2) fun _ x => x.copyOut pbData 2 usSize)

def kseWriteInfoFile (pbData usSize usOffset : Nat) : Kse σ → Option Int × Kse σ :=
  checked (pbData = NULL_PTR ∨ usSize > MAX_IO_DATA_SIZE ∨ usOffset + usSize > MAX_INFO_FILE_SIZE)
    fun x => statusCommand W fuel
      ([0x00, 0x05] ++ bytes16 usOffset ++ bytes16 usSize ++ x.arg pbData usSize) x

/-! ### Certificates -/

def certGenerateKeypair (bKeyType : UInt8) (usCertIndex : Nat) : Kse σ → Option Int × Kse σ :=
  checked (bKeyType ≠ CERT_KEY_INT_DEV_ECDSA ∧ bKeyType ≠ CERT_KEY_INT_DEV_ECDH ∧
      bKeyType ≠ CERT_KEY_INT_DEV_ECC ∨ usCertIndex ≥ MAX_CERT_KEY_COUNT)
    (statusCommand W fuel ([0x04, 0x00, bKeyType] ++ bytes16 usCertIndex))

def certPutPriKey (bKeyType : UInt8) (pbPriKey usCertIndex : Nat) : Kse σ → Option Int × Kse σ :=
  checked (bKeyType ≠ CERT_KEY_EXT_DEV_ECDSA ∧ bKeyType ≠ CERT_KEY_EXT_DEV_ECDH ∧
      bKeyType ≠ CERT_KEY_EXT_DEV_ECC ∨ pbPriKey = NULL_PTR ∨ usCertIndex ≥ MAX_CERT_KEY_COUNT)
    fun x => statusCommand W fuel
      ([0x04, 0x01, bKeyType] ++ bytes16 usCertIndex ++ x.arg pbPriKey 32) x

def certPutPubKey (bKeyType : UInt8) (pbPubKey usCertIndex : Nat) : Kse σ → Option Int × Kse σ :=
  checked (bKeyType ≠ CERT_KEY_EXT_DEV_ECDSA ∧ bKeyType ≠ CERT_KEY_EXT_DEV_ECDH ∧
      bKeyType ≠ CERT_KEY_EXT_DEV_ECC ∧ bKeyType ≠ CERT_KEY_EXT_CA_ECDSA ∨
      pbPubKey = NULL_PTR ∨ usCertIndex ≥ MAX_CERT_KEY_COUNT)
    fun x => statusCommand W fuel
      ([0x04, 0x03, bKeyType] ++ bytes16 usCertIndex ++ x.arg pbPubKey 64) x

def certGetPriKey (pbKeyState pbPriKey usCertIndex : Nat) : Kse σ → Option Int × Kse σ :=
  checked (pbKeyState = NULL_PTR ∨ pbPriKey = NULL_PTR ∨ usCertIndex ≥ MAX_CERT_KEY_COUNT)
    (dataCommand W fuel ([0x04, 0x04] ++ bytes16 usCertIndex) (fun usLen => usLen ≠ 35)
      fun _ x => (x.copyOut pbKeyState 2 1).copyOut pbPriKey 3 32)

def certGetPriKeyState (pbKeyState usCertIndex : Nat) : Kse σ → Option Int × Kse σ :=
  checked (pbKeyState = NULL_PTR ∨ usCertIndex ≥ MAX_CERT_KEY_COUNT)
    (dataCommand W fuel ([0x04, 0x05] ++ bytes16 usCertIndex) (fun usLen => usLen ≠ 3)
      fun _ x => x.copyOut pbKeyState 2 1)

def certGetPubKey (pbKeyState pbPubKey usCertIndex : Nat) : Kse σ → Option Int × Kse σ :=
  checked (pbKeyState = NULL_PTR ∨ pbPubKey = NULL_PTR ∨ usCertIndex ≥ MAX_CERT_KEY_COUNT)
    (dataCommand W fuel ([0x04, 0x06] ++ bytes16 usCertIndex) (fun usLen => usLen ≠ 67)
      fun _ x => (x.copyOut pbKeyState 2 1).copyOut pbPubKey 3 64)

def certGetPubKeyCsr (pbCsr usCertIndex : Nat) : Kse σ → Option Int × Kse σ :=
  checked (pbCsr = NULL_PTR ∨ usCertIndex ≥ MAX_CERT_KEY_COUNT)
    (dataCommand W fuel ([0x04, 0x07] ++ bytes16 usCertIndex) (fun usLen => usLen ≠ 502)
      fun _ x => x.copyOut pbCsr 2 500)

def certPutCert (pbCert usCertIndex : Nat) : Kse σ → Option Int × Kse σ :=
  checked (pbCert = NULL_PTR ∨ usCertIndex ≥ MAX_CERT_KEY_COUNT)
    fun x => statusCommand W fuel ([0x04, 0x10] ++ bytes16 usCertIndex ++ x.arg pbCert 500) x

def certPutCertPubKey (pbCert usCertIndex usCaCertIndex : Nat) : Kse σ → Option Int × Kse σ :=
  checked (pbCert = NULL_PTR ∨ usCertIndex ≥ MAX_CERT_KEY_COUNT ∨
      usCaCertIndex ≥ MAX_CERT_KEY_COUNT)
    fun x => statusCommand W fuel
      ([0x04, 0x11] ++ bytes16 usCertIndex ++ bytes16 usCaCertIndex ++ x.arg pbCert 500) x

def certGetCert (pbCert usCertIndex : Nat) : Kse σ → Option Int × Kse σ :=
  checked (pbCert = NULL_PTR ∨ usCertIndex ≥ MAX_CERT_KEY_COUNT)
    (dataCommand W fuel ([0x04, 0x12] ++ bytes16 usCertIndex) (fun usLen => usLen ≠ 502)
      fun _ x => x.copyOut pbCert 2 500)

def certGetCertField (pbField pusSize : Nat) (bFieldIndex : UInt8) (usCertIndex : Nat) :
    Kse σ → Option Int × Kse σ :=
  checked (pusSize = NULL_PTR ∨ bFieldIndex > CERT_BC ∨ usCertIndex ≥ MAX_CERT_KEY_COUNT)
    (dataCommand W fuel ([0x04, 0x13] ++ bytes16 usCertIndex ++ [bFieldIndex])
      (fun usLen => usLen < 2) (Kse.takeSized pbField pusSize))

def certEraseCertKey (bOpt : UInt8) (usCertIndex : Nat) : Kse σ → Option Int × Kse σ :=
  checked (bOpt ≠ SELECT_CERT ∧ bOpt ≠ SELECT_PUB_KEY ∧ bOpt ≠ SELECT_PRI_KEY ∧
      bOpt ≠ SELECT_ALL ∨ usCertIndex ≥ MAX_CERT_KEY_COUNT)
    (statusCommand W fuel ([0x04, 0x20] ++ bytes16 usCertIndex ++ [bOpt]))

end MavlinkDim
