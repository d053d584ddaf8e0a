import MavlinkDim.ChunkFailures

/-!
# Decrypting what was encrypted

A block cipher is a permutation of the blocks.  With a device that performs the modes
with one, `_kcmvpEcb`, `_kcmvpCbc` and `_kcmvpCtr` undo themselves: the same key and
chaining value in the other direction give back the input, whichever of the two
directions comes first.
-/

namespace MavlinkDim

open ByteMemory

variable {δ : Type} {D : Device δ} (N : Net δ) (indeterminate : δ → Int) {fuel : Nat}
  {Holds : δ → Prop} {cipher : BlockCipher} {bKeyType : UInt8} {usKeyIndex : Nat}
  {bEnDe bAlg : UInt8}

/-! ### The device -/

/-- The device performs ECB on the data of a request. -/
structure PerformsEcb (D : Device δ) (Holds : δ → Prop) (cipher : BlockCipher)
    (bKeyType : UInt8) (usKeyIndex : Nat) (bEnDe bAlg : UInt8) : Prop where
  exec : ∀ env input, Holds env → input ≠ [] → 16 ∣ input.length →
    input.length ≤ MAX_IO_DATA_SIZE →
    let reply := D.exec env ([0x02, bAlg ||| 0x04, bKeyType] ++ bytes16 usKeyIndex ++ [bEnDe] ++
      bytes16 input.length ++ input)
    reply.1 = [0x00, 0x00] ++ (cipher.ecb bEnDe).crypt 16 [] input ∧ Holds reply.2

/-- The device performs the three modes under one key. -/
structure PerformsModes (D : Device δ) (Holds : δ → Prop) (cipher : BlockCipher)
    (bKeyType : UInt8) (usKeyIndex : Nat) (bAlg : UInt8) : Prop where
  ecb : ∀ bEnDe, bEnDe = ENCRYPT ∨ bEnDe = DECRYPT →
    PerformsEcb D Holds cipher bKeyType usKeyIndex bEnDe bAlg
  cbc : ∀ bEnDe, bEnDe = ENCRYPT ∨ bEnDe = DECRYPT →
    PerformsCbc D Holds cipher bKeyType usKeyIndex bEnDe bAlg
  ctr : PerformsCtr D Holds cipher bKeyType usKeyIndex bAlg

theorem ecb_crypt (cipher : BlockCipher) (bEnDe : UInt8) (v v' input : List UInt8) :
    (cipher.ecb bEnDe).crypt 16 v input = (cipher.ecb bEnDe).crypt 16 v' input := by
  rw [BlockModes.Mode.crypt, BlockModes.Mode.crypt]
  induction BlockModes.blocks 16 input with
  | nil => rfl
  | cons b bs ih =>
    rw [BlockModes.Mode.cryptBlocks, BlockModes.Mode.cryptBlocks]
    exact congrArg _ ih

theorem ecbMode_applies (hD : PerformsEcb D Holds cipher bKeyType usKeyIndex bEnDe bAlg) :
    (ecbMode bKeyType usKeyIndex bEnDe bAlg).Applies D Holds (cipher.ecb bEnDe) (fun _ => True)
      16 := by
  refine ⟨ecbMode_chains cipher bKeyType usKeyIndex bEnDe bAlg, ?_, ?_⟩
  · intro v input _ hmax
    have hmax' : input.length ≤ 2944 := hmax
    simp [ecbMode, modeHeader]
    omega
  · intro env v input hholds _ hne hmax hblocks
    have hexec := hD.exec env input hholds hne hblocks hmax
    rw [ecb_crypt cipher bEnDe v []]
    simpa [ecbMode, modeHeader] using hexec

namespace CipherCall

variable {c : CipherCall}

/-- The device performs the mode of an accepted call. -/
theorem Accepted.applies (hc : c.Accepted)
    (hD : PerformsModes D Holds cipher c.bKeyType c.usKeyIndex c.bAlg) :
    c.loop.Applies D Holds (c.cipherMode cipher) c.IsChain c.unitSize := by
  obtain ⟨mode, pbOutput, pbInput, usInputSize, bKeyType, usKeyIndex, bAlg⟩ := c
  cases mode with
  | ecb bEnDe => exact ecbMode_applies (hD.ecb bEnDe hc.mode.1)
  | cbc pbIv bEnDe => exact cbcMode_applies (hD.cbc bEnDe hc.mode.2.1)
  | ctr pbCtr => exact ctrMode_applies hD.ctr

/-- One call: the mode applied once to the whole input. -/
theorem Accepted.run_crypt (hc : c.Accepted)
    (hD : PerformsModes D Holds cipher c.bKeyType c.usKeyIndex c.bAlg) (hfuel : 51 ≤ fuel)
    {x : Kse (Frame δ)} (hx : Waiting x) (hholds : Holds x.world.env)
    (hbuffers : c.pbOutput ≤ c.pbInput ∨ c.pbInput + c.usInputSize ≤ c.pbOutput) :
    ∃ y, c.run (frameWorld D N indeterminate) fuel x = (some KSE_SUCCESS, y) ∧
      y.app = put x.app c.pbOutput
        ((c.cipherMode cipher).crypt 16 (c.chaining x) (x.arg c.pbInput c.usInputSize)) ∧
      Waiting y ∧ Holds y.world.env := by
  rw [hc.run_eq _ fuel hx.power]
  exact modeLoop_crypt N indeterminate (hc.applies hD) hfuel hx hholds (c.chain_chaining x)
    (Nat.pos_of_ne_zero hc.usInputSize) hc.unit_dvd hbuffers

end CipherCall

/-! ### The call that undoes another -/

/-- Decryption gives back every block. -/
structure BlockCipher.Permutes (cipher : BlockCipher) : Prop where
  decrypt_encrypt : ∀ b, b.length = 16 → cipher.decrypt (cipher.encrypt b) = b
  encrypt_decrypt : ∀ b, b.length = 16 → cipher.encrypt (cipher.decrypt b) = b

def otherDirection (bEnDe : UInt8) : UInt8 := if bEnDe = ENCRYPT then DECRYPT else ENCRYPT

def CipherMode.undo : CipherMode → CipherMode
  | .ecb bEnDe => .ecb (otherDirection bEnDe)
  | .cbc pbIv bEnDe => .cbc pbIv (otherDirection bEnDe)
  | .ctr pbCtr => .ctr pbCtr

namespace CipherCall

/-- The output of the call is the input of the one that undoes it. -/
def undo (c : CipherCall) (pbOutput : Nat) : CipherCall :=
  { c with mode := c.mode.undo, pbOutput, pbInput := c.pbOutput }

/-- The output does not reach the chaining value of the caller. -/
def ChainingApart (c : CipherCall) : Prop :=
  match c.mode with
  | .ecb _ => True
  | .cbc pbIv _ => pbIv + 16 ≤ c.pbOutput ∨ c.pbOutput + c.usInputSize ≤ pbIv
  | .ctr pbCtr => pbCtr + 16 ≤ c.pbOutput ∨ c.pbOutput + c.usInputSize ≤ pbCtr

variable {c : CipherCall}

theorem Accepted.undo (hc : c.Accepted) {pbOutput : Nat} (h : pbOutput ≠ NULL_PTR) :
    (c.undo pbOutput).Accepted := by
  have hother (bEnDe : UInt8) :
      otherDirection bEnDe = ENCRYPT ∨ otherDirection bEnDe = DECRYPT := by
    unfold otherDirection
    split
    · exact Or.inr rfl
    · exact Or.inl rfl
  refine ⟨h, hc.pbOutput, hc.usInputSize, hc.usKeyIndex, hc.bKeyType, ?_⟩
  obtain ⟨mode, pbOutput, pbInput, usInputSize, bKeyType, usKeyIndex, bAlg⟩ := c
  have hmode := hc.mode
  cases mode with
  | ecb bEnDe => exact ⟨hother bEnDe, hmode.2⟩
  | cbc pbIv bEnDe => exact ⟨hmode.1, hother bEnDe, hmode.2.2⟩
  | ctr pbCtr => exact hmode

theorem chaining_undo {σ : Type} {x y : Kse σ} {output : List UInt8} (hc : c.ChainingApart)
    (hlen : output.length = c.usInputSize) (happ : y.app = put x.app c.pbOutput output)
    (pbOutput : Nat) : (c.undo pbOutput).chaining y = c.chaining x := by
  have hkept (pb : Nat) (hpb : pb + 16 ≤ c.pbOutput ∨ c.pbOutput + c.usInputSize ≤ pb) :
      y.arg pb 16 = x.arg pb 16 := by
    rw [Kse.arg, happ]
    exact slice_put_disjoint _ (by rwa [hlen])
  obtain ⟨mode, _, _, _, _, _, _⟩ := c
  cases mode with
  | ecb bEnDe => rfl
  | cbc pbIv bEnDe => exact hkept pbIv hc
  | ctr pbCtr => exact hkept pbCtr hc

/-- The two modes are inverse to each other. -/
theorem Accepted.crypt_undo (hc : c.Accepted) (hcipher : cipher.Permutes) (pbOutput : Nat)
    {v l : List UInt8} (hv : c.IsChain v) (hl : c.unitSize ∣ l.length) :
    ((c.undo pbOutput).cipherMode cipher).crypt 16 v ((c.cipherMode cipher).crypt 16 v l) = l := by
  have hxor : ∀ a b : UInt8, a ^^^ b ^^^ b = a := fun a b => by rw [UInt8.xor_assoc]; simp
  obtain ⟨hDE, hED⟩ := hcipher
  have hmode := hc.mode
  obtain ⟨mode, _, _, _, _, _, _⟩ := c
  cases mode with
  | ecb bEnDe =>
    rcases hmode.1 with rfl | rfl
    · exact BlockModes.ecb_ecb (by decide) cipher.length_encrypt hDE v hl
    · exact BlockModes.ecb_ecb (by decide) cipher.length_decrypt hED v hl
  | cbc pbIv bEnDe =>
    rcases hmode.2.1 with rfl | rfl
    · exact BlockModes.cbcDecrypt_cbcEncrypt (by decide) hxor cipher.length_encrypt hDE hv hl
    · exact BlockModes.cbcEncrypt_cbcDecrypt (by decide) hxor cipher.length_decrypt hED hv hl
  | ctr pbCtr =>
    apply BlockModes.ctr_ctr (by decide) hxor cipher.length_encrypt _ hv
    intro v hv
    rw [BigEndian.increment, BigEndian.length_bytes, hv]

end CipherCall

/-- **Round trip.**  An accepted call of `_kcmvpEcb`, `_kcmvpCbc` or `_kcmvpCtr`, in either
    direction and on an input of any number of chunks, and the call that undoes it both return
    success, and the second one leaves the input of the first in its output and changes nothing
    else.  The three buffers may be the same; then the memory is as before the first call. -/
theorem cipher_round_trip {c : CipherCall}
    (hD : PerformsModes D Holds cipher c.bKeyType c.usKeyIndex c.bAlg) (hcipher : cipher.Permutes)
    (hfuel : 51 ≤ fuel) {x : Kse (Frame δ)} (hx : Waiting x) (hholds : Holds x.world.env)
    (hc : c.Accepted) (hchaining : c.ChainingApart) {pbPlain : Nat} (hplain : pbPlain ≠ NULL_PTR)
    (hbuffers : BuffersApart c.pbOutput c.pbInput c.usInputSize ∧
      BuffersApart pbPlain c.pbOutput c.usInputSize) :
    let W := frameWorld D N indeterminate
    let input := x.arg c.pbInput c.usInputSize
    ∃ y z, c.run W fuel x = (some KSE_SUCCESS, y) ∧
      (c.undo pbPlain).run W fuel y = (some KSE_SUCCESS, z) ∧
      z.arg pbPlain c.usInputSize = input ∧ z.app = put y.app pbPlain input ∧
      (c.pbInput = c.pbOutput → pbPlain = c.pbOutput → z.app = x.app) := by
  intro W input
  obtain ⟨hbuffers, hbuffers'⟩ := hbuffers
  have hinput : input.length = c.usInputSize := length_slice _ _ _
  have hunit : c.unitSize ∣ input.length := by
    rw [hinput]
    exact hc.unit_dvd
  have hchain := c.chain_chaining x
  have houtput : ((c.cipherMode cipher).crypt 16 (c.chaining x) input).length = c.usInputSize :=
    ((CipherCall.loop_chains cipher c).length _ _ hchain hunit).trans hinput
  obtain ⟨y, hrun, happ, hy, hholds'⟩ :=
    hc.run_crypt N indeterminate hD hfuel hx hholds hbuffers.above
  obtain ⟨z, hrun', happ', -⟩ :=
    (hc.undo hplain).run_crypt N indeterminate hD hfuel hy hholds' hbuffers'.above
  have hback : z.app = put y.app pbPlain input := by
    rw [happ', CipherCall.chaining_undo hchaining houtput happ, ← hc.crypt_undo hcipher pbPlain
      hchain hunit, ← arg_output happ houtput]
    rfl
  refine ⟨y, z, hrun, hrun', arg_output hback hinput, hback, ?_⟩
  intro hsame hsame'
  rw [hback, happ, hsame', put_put_same _ _ (hinput.trans houtput.symm), ← hsame]
  exact put_slice x.app c.pbInput c.usInputSize

/-- A device that performs ECB as well. -/
def modesDevice (cipher : BlockCipher) : Device Unit :=
  { ariaDevice cipher with
    exec := fun env request =>
      if request.getD 1 0 = KCMVP_ARIA ||| 0x04 then
        ([0x00, 0x00] ++ (cipher.ecb (request.getD 5 0)).crypt 16 [] (request.drop 8), ())
      else (ariaDevice cipher).exec env request }

theorem performsModes_modesDevice (cipher : BlockCipher) (bKeyType : UInt8) (usKeyIndex : Nat) :
    PerformsModes (modesDevice cipher) (fun _ => True) cipher bKeyType usKeyIndex KCMVP_ARIA := by
  refine ⟨?_, ?_, ?_⟩
  · intro bEnDe _
    refine ⟨?_⟩
    intro env input _ _ _ _
    refine ⟨?_, trivial⟩
    simp [modesDevice, bytes16]
  · intro bEnDe _
    refine ⟨?_⟩
    intro env iv input hholds hiv hne hblocks hmax
    have hexec := (performsCbc_ariaDevice cipher bKeyType usKeyIndex bEnDe).exec env iv input hholds
      hiv hne hblocks hmax
    have hcmd : KCMVP_ARIA ||| 0x05 ≠ KCMVP_ARIA ||| 0x04 := by decide
    simpa [modesDevice, hcmd] using hexec
  · refine ⟨?_⟩
    intro env ctr input hholds hctr hne hmax
    have hexec := (performsCtr_ariaDevice cipher bKeyType usKeyIndex).exec env ctr input hholds
      hctr hne hmax
    have hcmd : KCMVP_ARIA ||| 0x06 ≠ KCMVP_ARIA ||| 0x04 := by decide
    simpa [modesDevice, hcmd] using hexec

theorem reversing_permutes : reversing.Permutes := by
  refine ⟨?_, ?_⟩ <;> simp [reversing]

/-- Three chunks in place. -/
theorem cipher_round_trip_inPlace :
    let W := frameWorld (modesDevice reversing) silentNet fun _ => 0
    let c : CipherCall := ⟨.cbc 16 ENCRYPT, 32, 32, 6000, KCMVP_ARIA128_KEY, 0, KCMVP_ARIA⟩
    let x := poweredOn (fun i => UInt8.ofNat i) (Frame.idle ())
    ∃ y z, c.run W 51 x = (some KSE_SUCCESS, y) ∧
      (c.undo 32).run W 51 y = (some KSE_SUCCESS, z) ∧ z.app = x.app := by
  intro W c x
  obtain ⟨y, z, hrun, hrun', -, -, hsame⟩ := cipher_round_trip silentNet (fun _ => 0) (c := c)
    (performsModes_modesDevice reversing _ _) reversing_permutes (Nat.le_refl 51) (x := x)
    (waiting_poweredOn _ _) trivial
    ⟨by decide, by decide, by decide, by decide, by decide, by decide⟩ (Or.inl (by decide))
    (by decide : 32 ≠ NULL_PTR) ⟨Or.inl rfl, Or.inl rfl⟩
  exact ⟨y, z, hrun, hrun', hsame rfl rfl⟩

end MavlinkDim
