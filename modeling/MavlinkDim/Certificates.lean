import MavlinkDim.KeyTable

/-!
# The commands for certificates

The twelve `_cert…` functions send requests under the opcode `04`, each with a layout
of its own, and take the data of the responses apart.  `certCalls_refine` says that any
sequence of their calls does to the memory of the application and to the device what
the device's own commands do, called directly.
-/

namespace MavlinkDim

open ByteMemory CallSequences

/-! ### Requests -/

/-- A command as the device reads it. -/
inductive CertRequest where
  | generateKeypair (bKeyType : UInt8) (usCertIndex : Nat)
  | putPriKey (bKeyType : UInt8) (usCertIndex : Nat) (priKey : List UInt8)
  | putPubKey (bKeyType : UInt8) (usCertIndex : Nat) (pubKey : List UInt8)
  | getPriKey (usCertIndex : Nat)
  | getPriKeyState (usCertIndex : Nat)
  | getPubKey (usCertIndex : Nat)
  | getPubKeyCsr (usCertIndex : Nat)
  | putCert (usCertIndex : Nat) (cert : List UInt8)
  | putCertPubKey (usCertIndex usCaCertIndex : Nat) (cert : List UInt8)
  | getCert (usCertIndex : Nat)
  | getCertField (usCertIndex : Nat) (bFieldIndex : UInt8)
  | eraseCertKey (usCertIndex : Nat) (bOpt : UInt8)
deriving DecidableEq, Repr

namespace CertRequest

def bytes : CertRequest → List UInt8
  | generateKeypair bKeyType usCertIndex => [0x04, 0x00, bKeyType] ++ bytes16 usCertIndex
  | putPriKey bKeyType usCertIndex priKey =>
    [0x04, 0x01, bKeyType] ++ bytes16 usCertIndex ++ priKey
  | putPubKey bKeyType usCertIndex pubKey =>
    [0x04, 0x03, bKeyType] ++ bytes16 usCertIndex ++ pubKey
  | getPriKey usCertIndex => [0x04, 0x04] ++ bytes16 usCertIndex
  | getPriKeyState usCertIndex => [0x04, 0x05] ++ bytes16 usCertIndex
  | getPubKey usCertIndex => [0x04, 0x06] ++ bytes16 usCertIndex
  | getPubKeyCsr usCertIndex => [0x04, 0x07] ++ bytes16 usCertIndex
  | putCert usCertIndex cert => [0x04, 0x10] ++ bytes16 usCertIndex ++ cert
  | putCertPubKey usCertIndex usCaCertIndex cert =>
    [0x04, 0x11] ++ bytes16 usCertIndex ++ bytes16 usCaCertIndex ++ cert
  | getCert usCertIndex => [0x04, 0x12] ++ bytes16 usCertIndex
  | getCertField usCertIndex bFieldIndex => [0x04, 0x13] ++ bytes16 usCertIndex ++ [bFieldIndex]
  | eraseCertKey usCertIndex bOpt => [0x04, 0x20] ++ bytes16 usCertIndex ++ [bOpt]

def decode (request : List UInt8) : Option CertRequest :=
  let usCertIndex := requestField request 2
  let bKeyType := request.getD 2 0
  let usKeyIndex := requestField request 3
  if request.getD 0 0 ≠ 0x04 then none
  else
    match (request.getD 1 0).toNat with
    | 0x00 => some (generateKeypair bKeyType usKeyIndex)
    | 0x01 => some (putPriKey bKeyType usKeyIndex (request.drop 5))
    | 0x03 => some (putPubKey bKeyType usKeyIndex (request.drop 5))
    | 0x04 => some (getPriKey usCertIndex)
    | 0x05 => some (getPriKeyState usCertIndex)
    | 0x06 => some (getPubKey usCertIndex)
    | 0x07 => some (getPubKeyCsr usCertIndex)
    | 0x10 => some (putCert usCertIndex (request.drop 4))
    | 0x11 => some (putCertPubKey usCertIndex (requestField request 4) (request.drop 6))
    | 0x12 => some (getCert usCertIndex)
    | 0x13 => some (getCertField usCertIndex (request.getD 4 0))
    | 0x20 => some (eraseCertKey usCertIndex (request.getD 4 0))
    | _ => none

def InRange : CertRequest → Prop
  | putCertPubKey usCertIndex usCaCertIndex _ => usCertIndex < 65536 ∧ usCaCertIndex < 65536
  | generateKeypair _ usCertIndex | putPriKey _ usCertIndex _ | putPubKey _ usCertIndex _
  | getPriKey usCertIndex | getPriKeyState usCertIndex | getPubKey usCertIndex
  | getPubKeyCsr usCertIndex | putCert usCertIndex _ | getCert usCertIndex
  | getCertField usCertIndex _ | eraseCertKey usCertIndex _ => usCertIndex < 65536

/-- No request is taken for another one. -/
theorem decode_bytes {c : CertRequest} (h : c.InRange) : decode c.bytes = some c := by
  cases c with
  | putCertPubKey usCertIndex usCaCertIndex cert =>
    obtain ⟨hindex, hca⟩ := h
    simp [bytes, decode, requestField, bytes16, word_hiByte_loByte hindex, word_hiByte_loByte hca]
  | _ =>
    have hindex := h
    simp only [InRange] at hindex
    simp [bytes, decode, requestField, bytes16, word_hiByte_loByte hindex]

/-- How much data the answer to a command carries. -/
def AnswerFits : CertRequest → Nat → Prop
  | getPriKey _, n => n = 33
  | getPriKeyState _, n => n = 1
  | getPubKey _, n => n = 65
  | getPubKeyCsr _, n | getCert _, n => n = 500
  | getCertField _ _, n => n ≤ MAX_IO_DATA_SIZE
  | _, n => n = 0

theorem AnswerFits.le {c : CertRequest} {n : Nat} (h : c.AnswerFits n) : n ≤ MAX_IO_DATA_SIZE := by
  simp only [MAX_IO_DATA_SIZE]
  cases c with
  | getCertField usCertIndex bFieldIndex => exact h
  | _ =>
    simp only [AnswerFits] at h
    omega

theorem bytes_ne_nil (c : CertRequest) : c.bytes ≠ [] := by
  cases c <;> simp [bytes]

end CertRequest

/-! ### Calls -/

/-- A function with its arguments. -/
inductive CertOp where
  | generateKeypair (bKeyType : UInt8) (usCertIndex : Nat)
  | putPriKey (bKeyType : UInt8) (pbPriKey usCertIndex : Nat)
  | putPubKey (bKeyType : UInt8) (pbPubKey usCertIndex : Nat)
  | getPriKey (pbKeyState pbPriKey usCertIndex : Nat)
  | getPriKeyState (pbKeyState usCertIndex : Nat)
  | getPubKey (pbKeyState pbPubKey usCertIndex : Nat)
  | getPubKeyCsr (pbCsr usCertIndex : Nat)
  | putCert (pbCert usCertIndex : Nat)
  | putCertPubKey (pbCert usCertIndex usCaCertIndex : Nat)
  | getCert (pbCert usCertIndex : Nat)
  | getCertField (pbField pusSize : Nat) (bFieldIndex : UInt8) (usCertIndex : Nat)
  | eraseCertKey (bOpt : UInt8) (usCertIndex : Nat)

namespace CertOp

section

variable {σ : Type} (W : World σ) (fuel : Nat)

def run : CertOp → Kse σ → Option Int × Kse σ
  | generateKeypair bKeyType usCertIndex => certGenerateKeypair W fuel bKeyType usCertIndex
  | putPriKey bKeyType pbPriKey usCertIndex => certPutPriKey W fuel bKeyType pbPriKey usCertIndex
  | putPubKey bKeyType pbPubKey usCertIndex => certPutPubKey W fuel bKeyType pbPubKey usCertIndex
  | getPriKey pbKeyState pbPriKey usCertIndex =>
    certGetPriKey W fuel pbKeyState pbPriKey usCertIndex
  | getPriKeyState pbKeyState usCertIndex => certGetPriKeyState W fuel pbKeyState usCertIndex
  | getPubKey pbKeyState pbPubKey usCertIndex =>
    certGetPubKey W fuel pbKeyState pbPubKey usCertIndex
  | getPubKeyCsr pbCsr usCertIndex => certGetPubKeyCsr W fuel pbCsr usCertIndex
  | putCert pbCert usCertIndex => certPutCert W fuel pbCert usCertIndex
  | putCertPubKey pbCert usCertIndex usCaCertIndex =>
    certPutCertPubKey W fuel pbCert usCertIndex usCaCertIndex
  | getCert pbCert usCertIndex => certGetCert W fuel pbCert usCertIndex
  | getCertField pbField pusSize bFieldIndex usCertIndex =>
    certGetCertField W fuel pbField pusSize bFieldIndex usCertIndex
  | eraseCertKey bOpt usCertIndex => certEraseCertKey W fuel bOpt usCertIndex

end

/-- What the functions refuse. -/
def Wrong : CertOp → Prop
  | generateKeypair bKeyType usCertIndex =>
    bKeyType ≠ CERT_KEY_INT_DEV_ECDSA ∧ bKeyType ≠ CERT_KEY_INT_DEV_ECDH ∧
      bKeyType ≠ CERT_KEY_INT_DEV_ECC ∨ usCertIndex ≥ MAX_CERT_KEY_COUNT
  | putPriKey bKeyType pbPriKey usCertIndex =>
    bKeyType ≠ CERT_KEY_EXT_DEV_ECDSA ∧ bKeyType ≠ CERT_KEY_EXT_DEV_ECDH ∧
      bKeyType ≠ CERT_KEY_EXT_DEV_ECC ∨ pbPriKey = NULL_PTR ∨ usCertIndex ≥ MAX_CERT_KEY_COUNT
  | putPubKey bKeyType pbPubKey usCertIndex =>
    bKeyType ≠ CERT_KEY_EXT_DEV_ECDSA ∧ bKeyType ≠ CERT_KEY_EXT_DEV_ECDH ∧
      bKeyType ≠ CERT_KEY_EXT_DEV_ECC ∧ bKeyType ≠ CERT_KEY_EXT_CA_ECDSA ∨
      pbPubKey = NULL_PTR ∨ usCertIndex ≥ MAX_CERT_KEY_COUNT
  | getPriKey pbKeyState pb usCertIndex | getPubKey pbKeyState pb usCertIndex =>
    pbKeyState = NULL_PTR ∨ pb = NULL_PTR ∨ usCertIndex ≥ MAX_CERT_KEY_COUNT
  | getPriKeyState pb usCertIndex | getPubKeyCsr pb usCertIndex | putCert pb usCertIndex
  | getCert pb usCertIndex => pb = NULL_PTR ∨ usCertIndex ≥ MAX_CERT_KEY_COUNT
  | putCertPubKey pbCert usCertIndex usCaCertIndex =>
    pbCert = NULL_PTR ∨ usCertIndex ≥ MAX_CERT_KEY_COUNT ∨ usCaCertIndex ≥ MAX_CERT_KEY_COUNT
  | getCertField _ pusSize bFieldIndex usCertIndex =>
    pusSize = NULL_PTR ∨ bFieldIndex > CERT_BC ∨ usCertIndex ≥ MAX_CERT_KEY_COUNT
  | eraseCertKey bOpt usCertIndex =>
    bOpt ≠ SELECT_CERT ∧ bOpt ≠ SELECT_PUB_KEY ∧ bOpt ≠ SELECT_PRI_KEY ∧ bOpt ≠ SELECT_ALL ∨
      usCertIndex ≥ MAX_CERT_KEY_COUNT

instance (op : CertOp) : Decidable op.Wrong := by
  cases op <;> (unfold Wrong; infer_instance)

/-- The command that a call is for; what it puts lies in the memory of the application. -/
def request (app : Bytes) : CertOp → CertRequest
  | generateKeypair bKeyType usCertIndex => .generateKeypair bKeyType usCertIndex
  | putPriKey bKeyType pbPriKey usCertIndex =>
    .putPriKey bKeyType usCertIndex (slice app pbPriKey 32)
  | putPubKey bKeyType pbPubKey usCertIndex =>
    .putPubKey bKeyType usCertIndex (slice app pbPubKey 64)
  | getPriKey _ _ usCertIndex => .getPriKey usCertIndex
  | getPriKeyState _ usCertIndex => .getPriKeyState usCertIndex
  | getPubKey _ _ usCertIndex => .getPubKey usCertIndex
  | getPubKeyCsr _ usCertIndex => .getPubKeyCsr usCertIndex
  | putCert pbCert usCertIndex => .putCert usCertIndex (slice app pbCert 500)
  | putCertPubKey pbCert usCertIndex usCaCertIndex =>
    .putCertPubKey usCertIndex usCaCertIndex (slice app pbCert 500)
  | getCert _ usCertIndex => .getCert usCertIndex
  | getCertField _ _ bFieldIndex usCertIndex => .getCertField usCertIndex bFieldIndex
  | eraseCertKey bOpt usCertIndex => .eraseCertKey usCertIndex bOpt

/-- What a call leaves in the memory of the application of the data it got. -/
def taken (app : Bytes) (data : List UInt8) : CertOp → Bytes
  | getPriKey pbKeyState pb _ | getPubKey pbKeyState pb _ =>
    put (put app pbKeyState (data.take 1)) pb (data.drop 1)
  | getPriKeyState pb _ | getPubKeyCsr pb _ | getCert pb _ => put app pb data
  | getCertField pbField pusSize _ _ => KeyCall.took app pbField pusSize data
  | _ => app

theorem request_inRange {op : CertOp} (h : ¬op.Wrong) (app : Bytes) :
    (op.request app).InRange := by
  cases op <;>
    simp only [Wrong, not_or, ge_iff_le, Nat.not_le, MAX_CERT_KEY_COUNT] at h <;>
    simp only [request, CertRequest.InRange] <;> omega

theorem length_request_le (op : CertOp) (app : Bytes) :
    (op.request app).bytes.length ≤ MAX_IO_BUFFER_SIZE := by
  have hmax : MAX_IO_BUFFER_SIZE = 3072 := rfl
  rw [hmax]
  cases op <;> simp [request, CertRequest.bytes]

end CertOp

/-- A call, and the memory of the application when it is made. -/
structure CertCall where
  op : CertOp
  app : Bytes

/-- What the device does on each command, and what it answers. -/
abbrev CertInterp (δ : Type) := CertRequest → δ → Answer × δ

namespace CertCall

variable {δ σ : Type}

def request (c : CertCall) : CertRequest := c.op.request c.app

def run (W : World σ) (fuel : Nat) (c : CertCall) (x : Kse σ) : Option Int × Kse σ :=
  c.op.run W fuel { x with app := c.app }

/-- The memory after an answer. -/
def left (c : CertCall) : Answer → Bytes
  | .accepted data => c.op.taken c.app data
  | .refused _ _ _ => c.app

/-- What a call should return and leave, and what it should do to the device. -/
def spec (interp : CertInterp δ) (c : CertCall) (env : δ) : (Int × Bytes) × δ :=
  if c.op.Wrong then ((KSE_FAIL_WRONG_INPUT, c.app), env)
  else
    let (answer, env) := interp c.request env
    ((answer.code, c.left answer), env)

/-- The requests of a call. -/
def sends (c : CertCall) : List (List UInt8) :=
  if c.op.Wrong then [] else [c.request.bytes]

end CertCall

/-- The device carries out the commands that it reads from the requests, and its answers have the
    sizes that are documented. -/
structure ExecutesCerts {δ : Type} (D : Device δ) (interp : CertInterp δ) : Prop where
  exec : ∀ env request c, CertRequest.decode request = some c →
    D.exec env request = ((interp c env).1.response, (interp c env).2)
  fits : ∀ c env data, (interp c env).1 = .accepted data → c.AnswerFits data.length

/-! ### One call -/

namespace CertCall

variable {δ : Type} {D : Device δ} (N : Net δ) (indeterminate : δ → Int) {fuel : Nat}
  {interp : CertInterp δ} {x : Kse (Frame δ)} (c : CertCall)

theorem refines_wrong (hx : Waiting x) (h : c.op.Wrong) :
    CallRefines id (c.spec interp x.world.env) c.sends x
      (c.run (frameWorld D N indeterminate) fuel x) := by
  have hrun : c.run (frameWorld D N indeterminate) fuel x =
      (some KSE_FAIL_WRONG_INPUT, { x with app := c.app }) := by
    rcases c with ⟨op, app⟩
    rw [run]
    cases op <;>
      simp only [CertOp.run, certGenerateKeypair, certPutPriKey, certPutPubKey, certGetPriKey,
        certGetPriKeyState, certGetPubKey, certGetPubKeyCsr, certPutCert, certPutCertPubKey,
        certGetCert, certGetCertField, certEraseCertKey] <;>
      exact checked_wrong h _ hx.power
  rw [hrun, spec, if_pos h, sends, if_pos h]
  exact .of_refused hx c.app

/-- A call whose command has returned. -/
theorem refines_of_requested (hD : ExecutesCerts D interp) (h : ¬c.op.Wrong)
    {y z : Kse (Frame δ)} (hy : Requested D c.request.bytes { x with app := c.app } y)
    (hz : Unpacked y z) (happ : z.app = c.left (interp c.request x.world.env).1) :
    CallRefines id (c.spec interp x.world.env) c.sends x
      (some (interp c.request x.world.env).1.code, z) := by
  have hexec := hD.exec x.world.env c.request.bytes c.request
    (CertRequest.decode_bytes (CertOp.request_inRange h c.app))
  let answer := (interp c.request x.world.env).1
  have hrefines : CallRefines id ((answer.code, z.app), (D.exec x.world.env c.request.bytes).2)
      [c.request.bytes] x (some answer.code, z) := .of_requested hy hz
  rw [happ, hexec] at hrefines
  rw [spec, if_neg h, sends, if_neg h]
  exact hrefines

/-- The device's answer to an accepted call. -/
theorem exec_request (hD : ExecutesCerts D interp) (h : ¬c.op.Wrong) (env : δ) :
    (D.exec env c.request.bytes).1 = (interp c.request env).1.response := by
  have hexec := hD.exec env _ _ (CertRequest.decode_bytes (CertOp.request_inRange h c.app))
  exact congrArg Prod.fst hexec

/-- A call that puts something or has something done: the response is a status. -/
theorem refines_status (hD : ExecutesCerts D interp) (hfuel : 51 ≤ fuel) (hx : Waiting x)
    (h : ¬c.op.Wrong) (hfits : ∀ n, c.request.AnswerFits n → n = 0)
    (htaken : ∀ data, c.op.taken c.app data = c.app) :
    CallRefines id (c.spec interp x.world.env) c.sends x
      (statusCommand (frameWorld D N indeterminate) fuel c.request.bytes
        { x with app := c.app }) := by
  have hanswer := c.exec_request hD h x.world.env
  obtain ⟨hi, lo, hstatus, hcode⟩ : ∃ hi lo,
      (interp c.request x.world.env).1.response = [hi, lo] ∧
        int16 (word hi lo) = (interp c.request x.world.env).1.code := by
    cases hcase : (interp c.request x.world.env).1 with
    | accepted data =>
      have hnil := hfits _ (hD.fits _ _ _ hcase)
      obtain rfl := List.eq_nil_of_length_eq_zero hnil
      have hzero : int16 (word 0x00 0x00) = KSE_SUCCESS := by decide
      exact ⟨0x00, 0x00, rfl, hzero⟩
    | refused hi lo hne => exact ⟨hi, lo, rfl, rfl⟩
  obtain ⟨y, hcall, hy⟩ := statusCommand_status D N indeterminate (hx.withApp c.app) hfuel
    c.request.bytes_ne_nil (c.op.length_request_le c.app) (hanswer.trans hstatus)
  rw [hcall, hcode]
  apply c.refines_of_requested hD h hy (.refl y)
  rw [hy.app]
  cases (interp c.request x.world.env).1 with
  | accepted data => exact (htaken data).symm
  | refused hi lo hne => rfl

/-- What the end of a call has to do with the data that it got. -/
structure Takes (take : Nat → Kse (Frame δ) → Kse (Frame δ)) : Prop where
  app : ∀ (y : Kse (Frame δ)) m data, y.gabTxRxData = put m 0 ([0x00, 0x00] ++ data) →
    y.app = c.app → c.request.AnswerFits data.length →
      (take (data.length + 2) y).app = c.op.taken c.app data
  unpacked : ∀ n (y : Kse (Frame δ)), Unpacked y (take n y)

/-- A call that gets something. -/
theorem refines_data (hD : ExecutesCerts D interp) (hfuel : 51 ≤ fuel) (hx : Waiting x)
    (h : ¬c.op.Wrong) (wrongLen : Nat → Prop) [DecidablePred wrongLen]
    (hright : ∀ n, c.request.AnswerFits n → ¬wrongLen (n + 2))
    {take : Nat → Kse (Frame δ) → Kse (Frame δ)} (htake : c.Takes take) :
    CallRefines id (c.spec interp x.world.env) c.sends x
      (dataCommand (frameWorld D N indeterminate) fuel c.request.bytes wrongLen take
        { x with app := c.app }) := by
  have hanswer := c.exec_request hD h x.world.env
  have hfits := hD.fits c.request x.world.env
  have hresp : (interp c.request x.world.env).1.response.length ≤ MAX_IO_BUFFER_SIZE := by
    cases hcase : (interp c.request x.world.env).1 with
    | accepted data =>
      have hle := (hfits data hcase).le
      simp only [Answer.response, List.length_append, List.length_cons, List.length_nil,
        MAX_IO_BUFFER_SIZE, MAX_IO_DATA_SIZE, MAX_IO_CTRL_LEN] at hle ⊢
      omega
    | refused hi lo hne => simp [Answer.response]
  obtain ⟨y, hcall, ⟨m, hgab⟩, hy⟩ := dataCommand_answer D N indeterminate (hx.withApp c.app)
    hfuel c.request.bytes_ne_nil (c.op.length_request_le c.app) hanswer hresp wrongLen
    (fun data hdata => hright _ (hfits data hdata)) take
  rw [hcall]
  cases hcase : (interp c.request x.world.env).1 with
  | accepted data =>
    rw [hcase] at hgab
    have happ := htake.app y m data hgab hy.app (hfits data hcase)
    have hrefines := c.refines_of_requested hD h hy (htake.unpacked (data.length + 2) y)
      (by rw [happ, hcase]; rfl)
    rwa [hcase] at hrefines
  | refused hi lo hne =>
    have hrefines := c.refines_of_requested hD h hy (.refl y) (by rw [hy.app, hcase]; rfl)
    rwa [hcase] at hrefines

end CertCall

/-! ### What is taken -/

section Taken

variable {δ : Type} {x : Kse (Frame δ)} {m : Bytes} {data : List UInt8}

theorem slice_data (hgab : x.gabTxRxData = put m 0 ([0x00, 0x00] ++ data)) :
    slice x.gabTxRxData 2 data.length = data := by
  rw [hgab]
  exact slice_put_front m [0x00, 0x00] data

/-- All the data, to one place. -/
theorem copyOut_data (hgab : x.gabTxRxData = put m 0 ([0x00, 0x00] ++ data)) {n : Nat}
    (hlen : data.length = n) (pb : Nat) : (x.copyOut pb 2 n).app = put x.app pb data := by
  subst hlen
  rw [Kse.copyOut_app, slice_data hgab]

/-- The state of a key, and the key. -/
theorem copyOut_state (hgab : x.gabTxRxData = put m 0 ([0x00, 0x00] ++ data)) {n : Nat}
    (hlen : data.length = n + 1) (pbKeyState pb : Nat) :
    ((x.copyOut pbKeyState 2 1).copyOut pb 3 n).app =
      put (put x.app pbKeyState (data.take 1)) pb (data.drop 1) := by
  have hdata := slice_data hgab
  rw [hlen] at hdata
  have hstate : slice x.gabTxRxData 2 1 = data.take 1 := by
    rw [← hdata, take_slice _ _ (Nat.le_add_left 1 n)]
  have hkey : slice x.gabTxRxData 3 n = data.drop 1 := by
    rw [← hdata, drop_slice _ _ (Nat.le_add_left 1 n)]
    rfl
  rw [Kse.copyOut_app, Kse.copyOut_app, hstate]
  exact congrArg (put _ pb) hkey

end Taken

namespace CertCall

variable {δ : Type} {D : Device δ} (N : Net δ) (indeterminate : δ → Int) {fuel : Nat}
  {interp : CertInterp δ} {x : Kse (Frame δ)}

theorem takes_data {c : CertCall} {pb n : Nat} (hfits : ∀ k, c.request.AnswerFits k → k = n)
    (htaken : ∀ data, c.op.taken c.app data = put c.app pb data) :
    c.Takes fun _ (y : Kse (Frame δ)) => y.copyOut pb 2 n := by
  refine ⟨?_, fun _ y => .copyOut y pb 2 n⟩
  intro y m data hgab happ hlen
  rw [copyOut_data hgab (hfits _ hlen), happ, htaken]

theorem takes_state {c : CertCall} {pbKeyState pb n : Nat}
    (hfits : ∀ k, c.request.AnswerFits k → k = n + 1)
    (htaken : ∀ data, c.op.taken c.app data =
      put (put c.app pbKeyState (data.take 1)) pb (data.drop 1)) :
    c.Takes fun _ (y : Kse (Frame δ)) => (y.copyOut pbKeyState 2 1).copyOut pb 3 n := by
  refine ⟨?_, fun _ y => (Unpacked.copyOut y pbKeyState 2 1).trans (.copyOut _ pb 3 n)⟩
  intro y m data hgab happ hlen
  rw [copyOut_state hgab (hfits _ hlen), happ, htaken]

/-- One call. -/
theorem run_refines (hD : ExecutesCerts D interp) (hfuel : 51 ≤ fuel) (hx : Waiting x)
    (c : CertCall) : CallRefines id (c.spec interp x.world.env) c.sends x
      (c.run (frameWorld D N indeterminate) fuel x) := by
  by_cases h : c.op.Wrong
  · exact c.refines_wrong N indeterminate hx h
  · rcases c with ⟨op, app⟩
    rw [run]
    have hstatus := refines_status N indeterminate ⟨op, app⟩ hD hfuel hx h
    cases op with
    | generateKeypair bKeyType usCertIndex =>
      rw [CertOp.run, certGenerateKeypair, checked_right]
      · exact hstatus (fun n hn => hn) fun _ => rfl
      · exact h
      · exact hx.power
    | putPriKey bKeyType pbPriKey usCertIndex =>
      rw [CertOp.run, certPutPriKey, checked_right]
      · exact hstatus (fun n hn => hn) fun _ => rfl
      · exact h
      · exact hx.power
    | putPubKey bKeyType pbPubKey usCertIndex =>
      rw [CertOp.run, certPutPubKey, checked_right]
      · exact hstatus (fun n hn => hn) fun _ => rfl
      · exact h
      · exact hx.power
    | putCert pbCert usCertIndex =>
      rw [CertOp.run, certPutCert, checked_right]
      · exact hstatus (fun n hn => hn) fun _ => rfl
      · exact h
      · exact hx.power
    | putCertPubKey pbCert usCertIndex usCaCertIndex =>
      rw [CertOp.run, certPutCertPubKey, checked_right]
      · exact hstatus (fun n hn => hn) fun _ => rfl
      · exact h
      · exact hx.power
    | eraseCertKey bOpt usCertIndex =>
      rw [CertOp.run, certEraseCertKey, checked_right]
      · exact hstatus (fun n hn => hn) fun _ => rfl
      · exact h
      · exact hx.power
    | getPriKey pbKeyState pbPriKey usCertIndex =>
      rw [CertOp.run, certGetPriKey, checked_right]
      · refine refines_data N indeterminate ⟨_, app⟩ hD hfuel hx h _ ?_ ?_
        · rintro n rfl
          decide
        · exact takes_state (fun _ hn => hn) fun _ => rfl
      · exact h
      · exact hx.power
    | getPriKeyState pbKeyState usCertIndex =>
      rw [CertOp.run, certGetPriKeyState, checked_right]
      · refine refines_data N indeterminate ⟨_, app⟩ hD hfuel hx h _ ?_ ?_
        · rintro n rfl
          decide
        · exact takes_data (fun _ hn => hn) fun _ => rfl
      · exact h
      · exact hx.power
    | getPubKey pbKeyState pbPubKey usCertIndex =>
      rw [CertOp.run, certGetPubKey, checked_right]
      · refine refines_data N indeterminate ⟨_, app⟩ hD hfuel hx h _ ?_ ?_
        · rintro n rfl
          decide
        · exact takes_state (fun _ hn => hn) fun _ => rfl
      · exact h
      · exact hx.power
    | getPubKeyCsr pbCsr usCertIndex =>
      rw [CertOp.run, certGetPubKeyCsr, checked_right]
      · refine refines_data N indeterminate ⟨_, app⟩ hD hfuel hx h _ ?_ ?_
        · rintro n rfl
          decide
        · exact takes_data (fun _ hn => hn) fun _ => rfl
      · exact h
      · exact hx.power
    | getCert pbCert usCertIndex =>
      rw [CertOp.run, certGetCert, checked_right]
      · refine refines_data N indeterminate ⟨_, app⟩ hD hfuel hx h _ ?_ ?_
        · rintro n rfl
          decide
        · exact takes_data (fun _ hn => hn) fun _ => rfl
      · exact h
      · exact hx.power
    | getCertField pbField pusSize bFieldIndex usCertIndex =>
      rw [CertOp.run, certGetCertField, checked_right]
      · refine refines_data N indeterminate ⟨_, app⟩ hD hfuel hx h _ ?_ ⟨?_, ?_⟩
        · intro n _ hn
          omega
        · intro y m data hgab happ hlen
          have hmax : data.length ≤ 2944 := hlen
          rw [takeSized_app hgab (by omega), Kse.load16, happ]
          rfl
        · exact fun n y => KeyCall.takeSized_unpacked pbField pusSize n y
      · exact h
      · exact hx.power

end CertCall

/-! ### Sequences of calls -/

/-- **The certificate commands.**  Against a device that carries out the commands it reads from
    the requests, in whatever way, any sequence of calls of the twelve functions, with any
    arguments and contents of the memory, gives the codes and leaves in that memory what the
    commands give; the device is then as the commands leave it.  A call that is refused does
    not come to the device. -/
theorem certCalls_refine {δ : Type} {D : Device δ} (N : Net δ) (indeterminate : δ → Int)
    {fuel : Nat} {interp : CertInterp δ} (hD : ExecutesCerts D interp) (hfuel : 51 ≤ fuel)
    {x : Kse (Frame δ)} (hx : Waiting x) (calls : List CertCall) :
    let r := runAll (outcome (CertCall.run (frameWorld D N indeterminate) fuel)) calls x
    let spec := runAll (CertCall.spec interp) calls x.world.env
    r.1 = spec.1.map (fun r => (some r.1, r.2)) ∧ r.2.world.env = spec.2 ∧
      requests r.2.trace = requests x.trace ++ calls.flatMap CertCall.sends ∧ Waiting r.2 := by
  intro r spec
  obtain ⟨hreplies, henv, ⟨es, htrace, hsent⟩, hwaiting⟩ :=
    calls_refine (fun c _ hx => CertCall.run_refines N indeterminate hD hfuel hx c) hx calls
  refine ⟨hreplies, henv, ?_, hwaiting⟩
  rw [htrace, requests_append, hsent]

/-! ### A device with one certificate -/

/-- It keeps the certificate that was put last, and knows no other command. -/
def oneCert : CertInterp (Option (List UInt8)) := fun c cert? =>
  match c, cert? with
  | .putCert _ cert, _ => if cert.length = 500 then (.accepted [], some cert) else
    (.refused 0xFF 0xFD (by decide), cert?)
  | .getCert _, some cert => if cert.length = 500 then (.accepted cert, cert?) else
    (.refused 0xFF 0xFD (by decide), cert?)
  | _, _ => (.refused 0xFF 0xFD (by decide), cert?)

def oneCertDevice : Device (Option (List UInt8)) where
  exec env request :=
    match CertRequest.decode request with
    | some c => ((oneCert c env).1.response, (oneCert c env).2)
    | none => ([0xFD, 0xF6], env)
  fill _ := fun _ => 0
  behind _ := fun _ => 0

theorem executesCerts_oneCertDevice : ExecutesCerts oneCertDevice oneCert := by
  constructor
  · intro env request c hdecode
    simp only [oneCertDevice, hdecode]
  · intro c env data hdata
    unfold oneCert at hdata
    split at hdata
    · split at hdata
      · obtain rfl := Answer.accepted.inj hdata
        rfl
      · cases hdata
    · split at hdata
      · rename_i hlen
        obtain rfl := Answer.accepted.inj hdata
        exact hlen
      · cases hdata
    · cases hdata

/-- A certificate is put under an index that is not there, then under one that is, and got. -/
theorem certCalls_refine_one :
    let W := frameWorld oneCertDevice silentNet fun _ => 0
    let x := poweredOn (fun _ => 0) (Frame.idle none)
    let app : Bytes := fun i => UInt8.ofNat i
    let calls : List CertCall :=
      [⟨.putCert 1 96, app⟩, ⟨.putCert 1 95, app⟩, ⟨.getCert 600 95, app⟩]
    ∃ replies y, (replies, y) = runAll (outcome (CertCall.run W 51)) calls x ∧
      replies = (runAll (CertCall.spec oneCert) calls none).1.map (fun r => (some r.1, r.2)) ∧
      y.world.env = (runAll (CertCall.spec oneCert) calls none).2 ∧ Waiting y := by
  intro W x app calls
  obtain ⟨hreplies, henv, -, hwaiting⟩ := certCalls_refine silentNet (fun _ => 0)
    executesCerts_oneCertDevice (Nat.le_refl 51) (x := x) (waiting_poweredOn _ _) calls
  exact ⟨_, _, Prod.mk.eta, hreplies, henv, hwaiting⟩

end MavlinkDim
