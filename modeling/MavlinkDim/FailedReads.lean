import MavlinkDim.Kcmvp

/-!
# Reads that fail

A command that reads has its outputs in the memory of the application.
`failedRead_frame` says that it writes there last, behind every check: a call that
does not return success has written nothing, and neither has a verification.
-/

namespace MavlinkDim

open ByteMemory

variable {σ : Type} (W : World σ) (fuel : Nat)

/-! ### Calls that write last -/

/-- A call that does not return success leaves the memory of the application as it was. -/
def Spares (f : Kse σ → Option Int × Kse σ) : Prop :=
  ∀ x, (f x).1 ≠ some KSE_SUCCESS → (f x).2.app = x.app

theorem checked_spares {wrongInput : Prop} [Decidable wrongInput]
    {body : Kse σ → Option Int × Kse σ} (h : Spares body) : Spares (checked wrongInput body) := by
  intro x hfail
  unfold checked at hfail ⊢
  split
  · rfl
  · split
    · rfl
    · next hpower hright =>
      rw [if_neg hpower, if_neg hright] at hfail
      exact h x hfail

/-- A command without an output. -/
theorem statusCommand_app (request : List UInt8) (x : Kse σ) :
    (statusCommand W fuel request x).2.app = x.app := by
  obtain ⟨e, w, hof⟩ := exists_exchange W fuel request.length (x.store 0 request)
  rw [statusCommand_exchange hof]
  rfl

theorem dataCommand_spares (request : Kse σ → List UInt8) (wrongLen : Nat → Prop)
    [DecidablePred wrongLen] (take : Nat → Kse σ → Kse σ) :
    Spares fun x => dataCommand W fuel (request x) wrongLen take x := by
  intro x hfail
  obtain ⟨e, w, hof⟩ := exists_exchange W fuel (request x).length (x.store 0 (request x))
  rcases dataCommand_exchange wrongLen take hof with ⟨-, hr⟩ | ⟨-, sRv, -, hr⟩
  · simp only [hr] at hfail
    exact absurd rfl hfail
  · simp only [hr]
    rfl

/-- A command that takes nothing from the response. -/
theorem dataCommand_app (request : List UInt8) (wrongLen : Nat → Prop)
    [DecidablePred wrongLen] {take : Nat → Kse σ → Kse σ}
    (htake : ∀ usLen y, (take usLen y).app = y.app) (x : Kse σ) :
    (dataCommand W fuel request wrongLen take x).2.app = x.app := by
  obtain ⟨e, w, hof⟩ := exists_exchange W fuel request.length (x.store 0 request)
  rcases dataCommand_exchange wrongLen take hof with ⟨-, hr⟩ | ⟨-, sRv, -, hr⟩
  · rw [hr, htake]
    rfl
  · rw [hr]
    rfl

/-! ### The hash -/

section Hash

variable (pbInOut1 pbInOut2 : Nat) (bAlg : UInt8)

theorem hashFinal_spares (bCmd : UInt8) (usKeyIndex : List UInt8) (pbMessage usMessageSize : Nat) :
    Spares (hashFinal W fuel bCmd usKeyIndex pbInOut1 pbInOut2 bAlg pbMessage usMessageSize) :=
  dataCommand_spares W fuel _ _ _

/-- The `Mid` commands write nothing: the loop fails, or it ends in what follows it. -/
theorem hashMid_cases (hashEnd : Nat → Nat → Kse σ → Option Int × Kse σ)
    (pbMessage usMessageSize : Nat) (x : Kse σ) :
    let r := hashMid W fuel bAlg hashEnd pbMessage usMessageSize x
    (r.1 ≠ some KSE_SUCCESS ∧ r.2.app = x.app) ∨
      ∃ pbMessage usMessageSize y, y.app = x.app ∧ r = hashEnd pbMessage usMessageSize y := by
  fun_induction hashMid W fuel bAlg hashEnd pbMessage usMessageSize x with
  | case1 pbMessage usMessageSize x _ sRv y hcall hfail =>
    have happ := statusCommand_app W fuel ([0x02, bAlg ||| 0x06] ++ bytes16 MAX_IO_DATA_SIZE ++
      x.arg pbMessage MAX_IO_DATA_SIZE) x
    rw [hcall] at happ
    exact Or.inl ⟨hfail, happ⟩
  | case2 pbMessage usMessageSize x _ sRv y hcall _ ih =>
    have happ := statusCommand_app W fuel ([0x02, bAlg ||| 0x06] ++ bytes16 MAX_IO_DATA_SIZE ++
      x.arg pbMessage MAX_IO_DATA_SIZE) x
    rw [hcall] at happ
    rwa [happ] at ih
  | case3 pbMessage usMessageSize x => exact Or.inr ⟨pbMessage, usMessageSize, x, rfl, rfl⟩

/-- Nor does `Begin`. -/
theorem kcmvpHashDsa_cases (pbMessage usMessageSize usKeyIndex : Nat) (x : Kse σ) :
    let r := kcmvpHashDsa W fuel pbInOut1 pbInOut2 pbMessage usMessageSize usKeyIndex bAlg x
    (r.1 ≠ some KSE_SUCCESS ∧ r.2.app = x.app) ∨
      ∃ bCmd key pbMessage usMessageSize y, y.app = x.app ∧
        r = hashFinal W fuel bCmd key pbInOut1 pbInOut2 bAlg pbMessage usMessageSize y := by
  simp only [kcmvpHashDsa, checked]
  split
  · exact Or.inl ⟨by simp, rfl⟩
  · split
    · exact Or.inl ⟨by simp, rfl⟩
    · split
      · exact Or.inr ⟨_, _, _, _, x, rfl, rfl⟩
      · have happ := statusCommand_app W fuel ([0x02, bAlg ||| 0x05] ++
          (if bAlg = KCMVP_HMAC_GEN ∨ bAlg = KCMVP_HMAC_VERI then bytes16 usKeyIndex else []) ++
          bytes16 MAX_IO_DATA_SIZE ++ x.arg pbMessage MAX_IO_DATA_SIZE) x
        revert happ
        generalize statusCommand W fuel _ x = begun
        intro happ
        split
        · next hfail => exact Or.inl ⟨hfail, happ⟩
        · have hmid := hashMid_cases W fuel bAlg
            (hashFinal W fuel (bAlg ||| 0x07)
              (if bAlg = KCMVP_ECDSA_SIGN ∨ bAlg = KCMVP_ECDSA_VERI then bytes16 usKeyIndex
                else []) pbInOut1 pbInOut2 bAlg)
            (pbMessage + MAX_IO_DATA_SIZE) (usMessageSize - MAX_IO_DATA_SIZE) begun.2
          rw [happ] at hmid
          rcases hmid with hfail | ⟨pb, n, y, hy, hend⟩
          · exact Or.inl hfail
          · exact Or.inr ⟨_, _, pb, n, y, hy, hend⟩

theorem kcmvpHashDsa_spares (pbMessage usMessageSize usKeyIndex : Nat) :
    Spares (kcmvpHashDsa W fuel pbInOut1 pbInOut2 pbMessage usMessageSize usKeyIndex bAlg) := by
  intro x hfail
  rcases kcmvpHashDsa_cases W fuel pbInOut1 pbInOut2 bAlg pbMessage usMessageSize usKeyIndex x with
    ⟨-, happ⟩ | ⟨bCmd, key, pb, n, y, hy, hend⟩
  · exact happ
  · rw [hend] at hfail ⊢
    exact (hashFinal_spares W fuel _ _ _ _ _ _ _ y hfail).trans hy

/-- A verification has no output. -/
theorem kcmvpHashDsa_verify (hverify : bAlg = KCMVP_HMAC_VERI ∨ bAlg = KCMVP_ECDSA_VERI)
    (pbMessage usMessageSize usKeyIndex : Nat) (x : Kse σ) :
    (kcmvpHashDsa W fuel pbInOut1 pbInOut2 pbMessage usMessageSize usKeyIndex bAlg x).2.app =
      x.app := by
  have hnone : ¬(bAlg = KCMVP_SHA ∨ bAlg = KCMVP_HMAC_GEN) ∧ bAlg ≠ KCMVP_ECDSA_SIGN := by
    rcases hverify with rfl | rfl <;> decide
  rcases kcmvpHashDsa_cases W fuel pbInOut1 pbInOut2 bAlg pbMessage usMessageSize usKeyIndex x with
    ⟨-, happ⟩ | ⟨bCmd, key, pb, n, y, hy, hend⟩
  · exact happ
  · rw [hend]
    refine (dataCommand_app W fuel _ _ ?_ y).trans hy
    intro usLen z
    rw [if_neg hnone.1, if_neg hnone.2]

end Hash

/-! ### The commands that read -/

/-- A call of a command that reads, with its arguments. -/
inductive ReadCall where
  | readInfoFile (pbData usOffset usSize : Nat)
  | getKey (pbKey pusKeySize : Nat) (bKeyType : UInt8) (usKeyIndex : Nat)
  | drbg (pbRandom usRandomSize : Nat)
  | gcm (pbOutput pbInput usInputSize : Nat) (bKeyType : UInt8)
      (usKeyIndex pbIv usIvSize pbAuth usAuthSize pbTag usTagSize : Nat) (bEnDe bAlg : UInt8)
  | hashDsa (pbInOut1 pbInOut2 pbMessage usMessageSize usKeyIndex : Nat) (bAlg : UInt8)
  | ecdhExchKey (pbSesKey pbPubKeytoken usKeyIndex : Nat)
  | getPriKey (pbKeyState pbPriKey usCertIndex : Nat)
  | getPriKeyState (pbKeyState usCertIndex : Nat)
  | getPubKey (pbKeyState pbPubKey usCertIndex : Nat)
  | getPubKeyCsr (pbCsr usCertIndex : Nat)
  | getCert (pbCert usCertIndex : Nat)
  | getCertField (pbField pusSize : Nat) (bFieldIndex : UInt8) (usCertIndex : Nat)

namespace ReadCall

def run : ReadCall → Kse σ → Option Int × Kse σ
  | readInfoFile pbData usOffset usSize => kseReadInfoFile W fuel pbData usOffset usSize
  | getKey pbKey pusKeySize bKeyType usKeyIndex =>
    kcmvpGetKey W fuel pbKey pusKeySize bKeyType usKeyIndex
  | drbg pbRandom usRandomSize => kcmvpDrbg W fuel pbRandom usRandomSize
  | gcm pbOutput pbInput usInputSize bKeyType usKeyIndex pbIv usIvSize pbAuth usAuthSize pbTag
      usTagSize bEnDe bAlg =>
    kcmvpGcm W fuel pbOutput pbInput usInputSize bKeyType usKeyIndex pbIv usIvSize pbAuth
      usAuthSize pbTag usTagSize bEnDe bAlg
  | hashDsa pbInOut1 pbInOut2 pbMessage usMessageSize usKeyIndex bAlg =>
    kcmvpHashDsa W fuel pbInOut1 pbInOut2 pbMessage usMessageSize usKeyIndex bAlg
  | ecdhExchKey pbSesKey pbPubKeytoken usKeyIndex =>
    kcmvpEcdhExchKey W fuel pbSesKey pbPubKeytoken usKeyIndex
  | getPriKey pbKeyState pbPriKey usCertIndex =>
    certGetPriKey W fuel pbKeyState pbPriKey usCertIndex
  | getPriKeyState pbKeyState usCertIndex => certGetPriKeyState W fuel pbKeyState usCertIndex
  | getPubKey pbKeyState pbPubKey usCertIndex =>
    certGetPubKey W fuel pbKeyState pbPubKey usCertIndex
  | getPubKeyCsr pbCsr usCertIndex => certGetPubKeyCsr W fuel pbCsr usCertIndex
  | getCert pbCert usCertIndex => certGetCert W fuel pbCert usCertIndex
  | getCertField pbField pusSize bFieldIndex usCertIndex =>
    certGetCertField W fuel pbField pusSize bFieldIndex usCertIndex

/-- The hash in one of its two verification modes. -/
def Verifies : ReadCall → Prop
  | hashDsa _ _ _ _ _ bAlg => bAlg = KCMVP_HMAC_VERI ∨ bAlg = KCMVP_ECDSA_VERI
  | _ => False

theorem run_spares (c : ReadCall) : Spares (c.run W fuel) := by
  cases c with
  | hashDsa pbInOut1 pbInOut2 => exact kcmvpHashDsa_spares W fuel pbInOut1 pbInOut2 _ _ _ _
  | _ => exact checked_spares (dataCommand_spares W fuel _ _ _)

end ReadCall

/-- **Failed reads.**  For every call of a command that reads, in every state and world: unless
    the call returns success, the memory of the application is what it was, with all outputs,
    tags, key states and sizes in it; and a verification never changes it, whatever it returns. -/
theorem failedRead_frame (c : ReadCall) (x : Kse σ) :
    ((c.run W fuel x).1 ≠ some KSE_SUCCESS → (c.run W fuel x).2.app = x.app) ∧
      (c.Verifies → (c.run W fuel x).2.app = x.app) := by
  refine ⟨c.run_spares W fuel x, ?_⟩
  intro hverify
  cases c with
  | hashDsa pbInOut1 pbInOut2 pbMessage usMessageSize usKeyIndex bAlg =>
    exact kcmvpHashDsa_verify W fuel pbInOut1 pbInOut2 bAlg hverify _ _ _ x
  | _ => exact hverify.elim

end MavlinkDim
