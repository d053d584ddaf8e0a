import MavlinkDim.Command

/-!
# KCMVP commands

Keys, random numbers, block ciphers, hashes and signatures, again under the
names of the C functions.  A long input goes through the shared buffer in chunks
of at most `MAX_IO_DATA_SIZE` bytes, one exchange for each.
-/

namespace MavlinkDim

open ByteMemory

variable {σ : Type} (W : World σ) (fuel : Nat)

/-! ### Keys -/

def symmetricKeyTypes : List UInt8 :=
  [KCMVP_AES128_KEY, KCMVP_AES192_KEY, KCMVP_AES256_KEY,
    KCMVP_ARIA128_KEY, KCMVP_ARIA192_KEY, KCMVP_ARIA256_KEY]

def generatedKeyTypes : List UInt8 :=
  symmetricKeyTypes ++ [KCMVP_HMAC_KEY, KCMVP_ECDSA_KEYPAIR, KCMVP_ECDH_KEYPAIR]

/-- The key types of `_kcmvpPutKey`, `_kcmvpGetKey` and `_kcmvpEraseKey`. -/
def storedKeyTypes : List UInt8 :=
  symmetricKeyTypes ++ [KCMVP_HMAC_KEY, KCMVP_ECDSA_PRI_KEY, KCMVP_ECDSA_PUB_KEY,
    KCMVP_ECDH_PRI_KEY, KCMVP_ECDH_PUB_KEY]

/-- A size that is not `extra` bytes more than the key of the given type has. -/
def WrongKeySize (bKeyType : UInt8) (extra usSize : Nat) : Prop :=
  (bKeyType = KCMVP_AES128_KEY ∨ bKeyType = KCMVP_ARIA128_KEY) ∧ usSize ≠ 16 + extra ∨
  (bKeyType = KCMVP_AES192_KEY ∨ bKeyType = KCMVP_ARIA192_KEY) ∧ usSize ≠ 24 + extra ∨
  (bKeyType = KCMVP_AES256_KEY ∨ bKeyType = KCMVP_ARIA256_KEY ∨
    bKeyType = KCMVP_ECDSA_PRI_KEY ∨ bKeyType = KCMVP_ECDH_PRI_KEY) ∧ usSize ≠ 32 + extra ∨
  (bKeyType = KCMVP_ECDSA_PUB_KEY ∨ bKeyType = KCMVP_ECDH_PUB_KEY) ∧ usSize ≠ 64 + extra

instance (bKeyType : UInt8) (extra usSize : Nat) :
    Decidable (WrongKeySize bKeyType extra usSize) := by
  unfold WrongKeySize; infer_instance

/-- `_kcmvpGenerateKey`.  The size field of an HMAC key is filled from `usKeyIndex`. -/
def kcmvpGenerateKey (bKeyType : UInt8) (usKeyIndex usHmacKeySize : Nat) :
    Kse σ → Option Int × Kse σ :=
  checked (bKeyType ∉ generatedKeyTypes ∨ usKeyIndex ≥ MAX_KCMVP_KEY_COUNT ∨
      bKeyType = KCMVP_HMAC_KEY ∧ usHmacKeySize > 255)
    (statusCommand W fuel ([0x02, 0x00, bKeyType] ++ bytes16 usKeyIndex ++
      if bKeyType ≠ KCMVP_HMAC_KEY then [] else bytes16 usKeyIndex))

def kcmvpPutKey (bKeyType : UInt8) (usKeyIndex pbKey usKeySize : Nat) :
    Kse σ → Option Int × Kse σ :=
  checked (bKeyType ∉ storedKeyTypes ∨ usKeyIndex ≥ MAX_KCMVP_KEY_COUNT ∨ pbKey = NULL_PTR ∨
      WrongKeySize bKeyType 0 usKeySize ∨ bKeyType = KCMVP_HMAC_KEY ∧ usKeySize > 255)
    fun x => statusCommand W fuel ([0x02, 0x01, bKeyType] ++ bytes16 usKeyIndex ++
      (if bKeyType ≠ KCMVP_HMAC_KEY then [] else bytes16 usKeySize) ++ x.arg pbKey usKeySize) x

/-- `_kcmvpGetKey`.  The range of the length is tested for every type but HMAC keys. -/
def kcmvpGetKey (pbKey pusKeySize : Nat) (bKeyType : UInt8) (usKeyIndex : Nat) :
    Kse σ → Option Int × Kse σ :=
  checked (pusKeySize = NULL_PTR ∨ bKeyType ∉ storedKeyTypes ∨
      usKeyIndex ≥ MAX_KCMVP_KEY_COUNT)
    (dataCommand W fuel ([0x02, 0x02, bKeyType] ++ bytes16 usKeyIndex)
      (fun usLen => WrongKeySize bKeyType 2 usLen ∨
        bKeyType ≠ KCMVP_HMAC_KEY ∧ (usLen < 2 ∨ usLen > 257))
      (Kse.takeSized pbKey pusKeySize))

def kcmvpEraseKey (bKeyType : UInt8) (usKeyIndex : Nat) : Kse σ → Option Int × Kse σ :=
  checked (bKeyType ∉ storedKeyTypes ∨ usKeyIndex ≥ MAX_KCMVP_KEY_COUNT)
    (statusCommand W fuel ([0x02, 0x03, bKeyType] ++ bytes16 usKeyIndex))

def kcmvpDrbg (pbRandom usRandomSize : Nat) : Kse σ → Option Int × Kse σ :=
  checked (pbRandom = NULL_PTR ∨ usRandomSize = 0 ∨ usRandomSize > 256)
    (dataCommand W fuel ([0x02, 0x10] ++ bytes16 usRandomSize)
      (fun usLen => usLen ≠ usRandomSize + 2) fun _ x => x.copyOut pbRandom 2 usRandomSize)

/-! ### Block ciphers -/

/-- Where the loops of the block cipher modes differ: what a chunk leaves free of
    `MAX_IO_DATA_SIZE`, the request of a chunk, and the chaining value after it. -/
structure Mode where
  free : Nat
  free_lt : free < MAX_IO_DATA_SIZE
  request : (chaining : List UInt8) → (usSize : Nat) → (input : List UInt8) → List UInt8
  next : (chaining : List UInt8) → (usSize : Nat) → (input output : List UInt8) → List UInt8

def Mode.usSize (mode : Mode) (usInputSize : Nat) : Nat :=
  if usInputSize + mode.free < MAX_IO_DATA_SIZE then usInputSize else MAX_IO_DATA_SIZE - mode.free

theorem Mode.usSize_pos (mode : Mode) (usInputSize : Nat) (h : 0 < usInputSize) :
    0 < mode.usSize usInputSize := by
  have := mode.free_lt
  unfold Mode.usSize
  split <;> omega

/-- The `do … while (usInputSize > 0)` of `_kcmvpEcb`, `_kcmvpCbc` and `_kcmvpCtr`. -/
def modeLoop (mode : Mode) (pbOutput pbInput usInputSize : Nat) (chaining : List UInt8)
    (x : Kse σ) : Option Int × Kse σ :=
  let usSize := mode.usSize usInputSize
  let input := x.arg pbInput usSize
  let (sRv, x) := dataCommand W fuel (mode.request chaining usSize input)
    (fun usLen => usLen ≠ usSize + 2) (fun _ x => x.copyOut pbOutput 2 usSize) x
  if sRv ≠ some KSE_SUCCESS then (sRv, x)
  else if usInputSize - usSize > 0 then
    modeLoop mode (pbOutput + usSize) (pbInput + usSize) (usInputSize - usSize)
      (mode.next chaining usSize input (x.arg pbOutput usSize)) x
  else (sRv, x)
termination_by usInputSize
decreasing_by
  have := mode.usSize_pos usInputSize
  omega

/-- `02`, the command, the key, and for ECB and CBC the direction. -/
def modeHeader (bCmd bKeyType : UInt8) (usKeyIndex : Nat) (bEnDe : List UInt8) (usSize : Nat) :
    List UInt8 :=
  [0x02, bCmd, bKeyType] ++ bytes16 usKeyIndex ++ bEnDe ++ bytes16 usSize

def ecbMode (bKeyType : UInt8) (usKeyIndex : Nat) (bEnDe bAlg : UInt8) : Mode where
  free := 0
  free_lt := by decide
  request _ usSize input :=
    modeHeader (bAlg ||| 0x04) bKeyType usKeyIndex [bEnDe] usSize ++ input
  next chaining _ _ _ := chaining

/-- The last block of ciphertext is the next `pbIv`: of the output when encrypting, of the
    input, saved in `abBuffer`, when decrypting. -/
def cbcMode (bKeyType : UInt8) (usKeyIndex : Nat) (bEnDe bAlg : UInt8) : Mode where
  free := 16
  free_lt := by decide
  request pbIv usSize input :=
    modeHeader (bAlg ||| 0x05) bKeyType usKeyIndex [bEnDe] usSize ++ pbIv ++ input
  next _ usSize input output :=
    (if bEnDe = ENCRYPT then output else input).drop (usSize - 16)

/-- `abCtr`, a big-endian number, plus `usSum`. -/
def addCtr (abCtr : List UInt8) (usSum : Nat) : List UInt8 :=
  (abCtr.foldr (fun b r => ((r.1 + b.toNat) / 256, UInt8.ofNat (r.1 + b.toNat) :: r.2))
    (usSum, [])).2

def ctrMode (bKeyType : UInt8) (usKeyIndex : Nat) (bAlg : UInt8) : Mode where
  free := 16
  free_lt := by decide
  request abCtr usSize input :=
    modeHeader (bAlg ||| 0x06) bKeyType usKeyIndex [] usSize ++ abCtr ++ input
  next abCtr usSize _ _ := addCtr abCtr (usSize / 16)

def kcmvpEcb (pbOutput pbInput usInputSize : Nat) (bKeyType : UInt8) (usKeyIndex : Nat)
    (bEnDe bAlg : UInt8) : Kse σ → Option Int × Kse σ :=
  checked (pbOutput = NULL_PTR ∨ pbInput = NULL_PTR ∨ usInputSize = 0 ∨
      usKeyIndex ≥ MAX_KCMVP_KEY_COUNT ∨ bEnDe ≠ ENCRYPT ∧ bEnDe ≠ DECRYPT ∨
      (bAlg &&& 0xF0) ^^^ bKeyType > 0x02 ∨ usInputSize % 16 ≠ 0)
    (modeLoop W fuel (ecbMode bKeyType usKeyIndex bEnDe bAlg) pbOutput pbInput usInputSize [])

def kcmvpCbc (pbOutput pbInput usInputSize : Nat) (bKeyType : UInt8) (usKeyIndex pbIv : Nat)
    (bEnDe bAlg : UInt8) : Kse σ → Option Int × Kse σ :=
  checked (pbOutput = NULL_PTR ∨ pbInput = NULL_PTR ∨ pbIv = NULL_PTR ∨ usInputSize = 0 ∨
      usKeyIndex ≥ MAX_KCMVP_KEY_COUNT ∨ bEnDe ≠ ENCRYPT ∧ bEnDe ≠ DECRYPT ∨
      (bAlg &&& 0xF0) ^^^ bKeyType > 0x02 ∨ usInputSize % 16 ≠ 0)
    fun x => modeLoop W fuel (cbcMode bKeyType usKeyIndex bEnDe bAlg) pbOutput pbInput
      usInputSize (x.arg pbIv 16) x

def kcmvpCtr (pbOutput pbInput usInputSize : Nat) (bKeyType : UInt8) (usKeyIndex pbCtr : Nat)
    (bAlg : UInt8) : Kse σ → Option Int × Kse σ :=
  checked (pbOutput = NULL_PTR ∨ pbInput = NULL_PTR ∨ pbCtr = NULL_PTR ∨ usInputSize = 0 ∨
      usKeyIndex ≥ MAX_KCMVP_KEY_COUNT ∨ (bAlg &&& 0xF0) ^^^ bKeyType > 0x02)
    fun x => modeLoop W fuel (ctrMode bKeyType usKeyIndex bAlg) pbOutput pbInput usInputSize
      (x.arg pbCtr 16) x

def kcmvpGcm (pbOutput pbInput usInputSize : Nat) (bKeyType : UInt8)
    (usKeyIndex pbIv usIvSize pbAuth usAuthSize pbTag usTagSize : Nat) (bEnDe bAlg : UInt8) :
    Kse σ → Option Int × Kse σ :=
  checked (pbOutput = NULL_PTR ∧ usInputSize ≠ 0 ∨ pbInput = NULL_PTR ∧ usInputSize ≠ 0 ∨
      pbIv = NULL_PTR ∨ pbAuth = NULL_PTR ∧ usAuthSize ≠ 0 ∨ pbTag = NULL_PTR ∧ usTagSize ≠ 0 ∨
      (bAlg &&& 0xF0) ^^^ bKeyType > 0x02 ∨ usKeyIndex ≥ MAX_KCMVP_KEY_COUNT ∨ usIvSize = 0 ∨
      usTagSize > 16 ∨ usInputSize + usIvSize + usAuthSize > MAX_IO_DATA_SIZE ∨
      bEnDe ≠ ENCRYPT ∧ bEnDe ≠ DECRYPT)
    fun x =>
      let usOutSize := if bEnDe = ENCRYPT then usInputSize + usTagSize else usInputSize
      dataCommand W fuel
        ([0x02, bAlg ||| 0x07, bKeyType] ++ bytes16 usKeyIndex ++ [bEnDe] ++ bytes16 usIvSize ++
          bytes16 usInputSize ++ bytes16 usAuthSize ++ bytes16 usTagSize ++
          x.arg pbIv usIvSize ++ x.arg pbInput usInputSize ++ x.arg pbAuth usAuthSize ++
          if bEnDe = ENCRYPT then [] else x.arg pbTag usTagSize)
        (fun usLen => usLen ≠ usOutSize + 2)
        (fun _ x =>
          let x := x.copyOut pbOutput 2 usInputSize
          if bEnDe = ENCRYPT then x.copyOut pbTag (usInputSize + 2) usTagSize else x)
        x

def kcmvpAesEcb (pbOutput pbInput usInputSize : Nat) (bKeyType : UInt8) (usKeyIndex : Nat)
    (bEnDe : UInt8) : Kse σ → Option Int × Kse σ :=
  kcmvpEcb W fuel pbOutput pbInput usInputSize bKeyType usKeyIndex bEnDe KCMVP_AES

def kcmvpAesCbc (pbOutput pbInput usInputSize : Nat) (bKeyType : UInt8) (usKeyIndex pbIv : Nat)
    (bEnDe : UInt8) : Kse σ → Option Int × Kse σ :=
  kcmvpCbc W fuel pbOutput pbInput usInputSize bKeyType usKeyIndex pbIv bEnDe KCMVP_AES

def kcmvpAesCtr (pbOutput pbInput usInputSize : Nat) (bKeyType : UInt8)
    (usKeyIndex pbCtr : Nat) : Kse σ → Option Int × Kse σ :=
  kcmvpCtr W fuel pbOutput pbInput usInputSize bKeyType usKeyIndex pbCtr KCMVP_AES

def kcmvpAesGcm (pbOutput pbInput usInputSize : Nat) (bKeyType : UInt8)
    (usKeyIndex pbIv usIvSize pbAuth usAuthSize pbTag usTagSize : Nat) (bEnDe : UInt8) :
    Kse σ → Option Int × Kse σ :=
  kcmvpGcm W fuel pbOutput pbInput usInputSize bKeyType usKeyIndex pbIv usIvSize pbAuth
    usAuthSize pbTag usTagSize bEnDe KCMVP_AES

def kcmvpAriaEcb (pbOutput pbInput usInputSize : Nat) (bKeyType : UInt8) (usKeyIndex : Nat)
    (bEnDe : UInt8) : Kse σ → Option Int × Kse σ :=
  kcmvpEcb W fuel pbOutput pbInput usInputSize bKeyType usKeyIndex bEnDe KCMVP_ARIA

def kcmvpAriaCbc (pbOutput pbInput usInputSize : Nat) (bKeyType : UInt8) (usKeyIndex pbIv : Nat)
    (bEnDe : UInt8) : Kse σ → Option Int × Kse σ :=
  kcmvpCbc W fuel pbOutput pbInput usInputSize bKeyType usKeyIndex pbIv bEnDe KCMVP_ARIA

def kcmvpAriaCtr (pbOutput pbInput usInputSize : Nat) (bKeyType : UInt8)
    (usKeyIndex pbCtr : Nat) : Kse σ → Option Int × Kse σ :=
  kcmvpCtr W fuel pbOutput pbInput usInputSize bKeyType usKeyIndex pbCtr KCMVP_ARIA

def kcmvpAriaGcm (pbOutput pbInput usInputSize : Nat) (bKeyType : UInt8)
    (usKeyIndex pbIv usIvSize pbAuth usAuthSize pbTag usTagSize : Nat) (bEnDe : UInt8) :
    Kse σ → Option Int × Kse σ :=
  kcmvpGcm W fuel pbOutput pbInput usInputSize bKeyType usKeyIndex pbIv usIvSize pbAuth
    usAuthSize pbTag usTagSize bEnDe KCMVP_ARIA

/-! ### Hashes and signatures -/

/-- The last command of `_kcmvpHashDsa`, with the rest of the message: the one step, or `End`.
    `usKeyIndex` is the key index as far as this command carries it. -/
def hashFinal (bCmd : UInt8) (usKeyIndex : List UInt8) (pbInOut1 pbInOut2 : Nat) (bAlg : UInt8)
    (pbMessage usMessageSize : Nat) (x : Kse σ) : Option Int × Kse σ :=
  dataCommand W fuel
    ([0x02, bCmd] ++ usKeyIndex ++ bytes16 usMessageSize ++ x.arg pbMessage usMessageSize ++
      (if bAlg = KCMVP_HMAC_VERI ∨ bAlg = KCMVP_ECDSA_VERI then x.arg pbInOut1 32 else []) ++
      if bAlg = KCMVP_ECDSA_VERI then x.arg pbInOut2 32 else [])
    (fun usLen => (bAlg = KCMVP_SHA ∨ bAlg = KCMVP_HMAC_GEN) ∧ usLen ≠ 34 ∨
      bAlg = KCMVP_ECDSA_SIGN ∧ usLen ≠ 66 ∨
      (bAlg = KCMVP_HMAC_VERI ∨ bAlg = KCMVP_ECDSA_VERI) ∧ usLen ≠ 2)
    (fun _ x =>
      if bAlg = KCMVP_SHA ∨ bAlg = KCMVP_HMAC_GEN then x.copyOut pbInOut1 2 32
      else if bAlg = KCMVP_ECDSA_SIGN then (x.copyOut pbInOut1 2 32).copyOut pbInOut2 34 32
      else x)
    x

/-- The `Mid` loop of `_kcmvpHashDsa`, and what follows it. -/
def hashMid (bAlg : UInt8) (hashEnd : Nat → Nat → Kse σ → Option Int × Kse σ)
    (pbMessage usMessageSize : Nat) (x : Kse σ) : Option Int × Kse σ :=
  if usMessageSize > MAX_IO_DATA_SIZE then
    let (sRv, x) := statusCommand W fuel ([0x02, bAlg ||| 0x06] ++ bytes16 MAX_IO_DATA_SIZE ++
      x.arg pbMessage MAX_IO_DATA_SIZE) x
    if sRv ≠ some KSE_SUCCESS then (sRv, x)
    else hashMid bAlg hashEnd (pbMessage + MAX_IO_DATA_SIZE) (usMessageSize - MAX_IO_DATA_SIZE) x
  else hashEnd pbMessage usMessageSize x
termination_by usMessageSize
decreasing_by
  simp only [MAX_IO_DATA_SIZE] at *
  omega

def kcmvpHashDsa (pbInOut1 pbInOut2 pbMessage usMessageSize usKeyIndex : Nat) (bAlg : UInt8) :
    Kse σ → Option Int × Kse σ :=
  checked (pbMessage = NULL_PTR ∧ usMessageSize ≠ 0 ∨ pbInOut1 = NULL_PTR ∨
      (bAlg = KCMVP_ECDSA_SIGN ∨ bAlg = KCMVP_ECDSA_VERI) ∧ pbInOut2 = NULL_PTR ∨
      bAlg ≠ KCMVP_SHA ∧ usKeyIndex ≥ MAX_KCMVP_KEY_COUNT)
    fun x =>
      if usMessageSize ≤ MAX_IO_DATA_SIZE then
        hashFinal W fuel (bAlg ||| 0x04) (if bAlg ≠ KCMVP_SHA then bytes16 usKeyIndex else [])
          pbInOut1 pbInOut2 bAlg pbMessage usMessageSize x
      else
        let (sRv, x) := statusCommand W fuel ([0x02, bAlg ||| 0x05] ++
          (if bAlg = KCMVP_HMAC_GEN ∨ bAlg = KCMVP_HMAC_VERI then bytes16 usKeyIndex else []) ++
          bytes16 MAX_IO_DATA_SIZE ++ x.arg pbMessage MAX_IO_DATA_SIZE) x
        if sRv ≠ some KSE_SUCCESS then (sRv, x)
        else
          hashMid W fuel bAlg
            (hashFinal W fuel (bAlg ||| 0x07)
              (if bAlg = KCMVP_ECDSA_SIGN ∨ bAlg = KCMVP_ECDSA_VERI then bytes16 usKeyIndex
                else []) pbInOut1 pbInOut2 bAlg)
            (pbMessage + MAX_IO_DATA_SIZE) (usMessageSize - MAX_IO_DATA_SIZE) x

def kcmvpSha256 (pbHash pbMessage usMessageSize : Nat) : Kse σ → Option Int × Kse σ :=
  kcmvpHashDsa W fuel pbHash NULL_PTR pbMessage usMessageSize 0 KCMVP_SHA

def kcmvpHmacSha256 (pbHmac pbMessage usMessageSize usKeyIndex : Nat) :
    Kse σ → Option Int × Kse σ :=
  kcmvpHashDsa W fuel pbHmac NULL_PTR pbMessage usMessageSize usKeyIndex KCMVP_HMAC_GEN

def kcmvpHmacSha256Verify (pbMessage usMessageSize pbHmac usKeyIndex : Nat) :
    Kse σ → Option Int × Kse σ :=
  kcmvpHashDsa W fuel pbHmac NULL_PTR pbMessage usMessageSize usKeyIndex KCMVP_HMAC_VERI

def kcmvpEcdsaSign (pbR pbS pbMessage usMessageSize usKeyIndex : Nat) :
    Kse σ → Option Int × Kse σ :=
  kcmvpHashDsa W fuel pbR pbS pbMessage usMessageSize usKeyIndex KCMVP_ECDSA_SIGN

def kcmvpEcdsaVerify (pbMessage usMessageSize pbR pbS usKeyIndex : Nat) :
    Kse σ → Option Int × Kse σ :=
  kcmvpHashDsa W fuel pbR pbS pbMessage usMessageSize usKeyIndex KCMVP_ECDSA_VERI

def kcmvpEcdhExchKey (pbSesKey pbPubKeytoken usKeyIndex : Nat) : Kse σ → Option Int × Kse σ :=
  checked (pbSesKey = NULL_PTR ∨ pbPubKeytoken = NULL_PTR ∨ usKeyIndex ≥ MAX_KCMVP_KEY_COUNT)
    fun x => dataCommand W fuel
      ([0x02, 0x94] ++ bytes16 usKeyIndex ++ x.arg pbPubKeytoken 64)
      (fun usLen => usLen ≠ 66) (fun _ x => x.copyOut pbSesKey 2 64) x

def kcmvpGetClibState (pbClibState : Nat) : Kse σ → Option Int × Kse σ :=
  checked (pbClibState = NULL_PTR)
    (dataCommand W fuel [0x02, 0x00] (fun usLen => usLen ≠ 22)
      fun _ x => x.copyOut pbClibState 2 20)

end MavlinkDim
