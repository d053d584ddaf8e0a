import MavlinkDim.BigEndian
import MavlinkDim.BlockModes
import MavlinkDim.DeviceCommands

/-!
# Chunks of a long text

The block cipher commands send a long text in chunks of at most 2944 bytes and
take the chaining value from one chunk to the next themselves.  `modeLoop_crypt`
says when the output is that of the mode applied to the whole text;
`kcmvpCtr_crypt` and `kcmvpCbc_crypt` are the two modes.
-/

namespace MavlinkDim

open ByteMemory

variable {δ : Type} {D : Device δ} (N : Net δ) (indeterminate : δ → Int) {fuel : Nat}

/-! ### The loop -/

/-- The loop chains its chunks as the mode `m` does, and a request ends with its chunk.  `Chain`
    is what a chaining value is; the text is made of pieces of `unit` bytes. -/
structure Mode.Chains (mode : Mode) (m : BlockModes.Mode (List UInt8) UInt8)
    (Chain : List UInt8 → Prop) (unit : Nat) : Prop where
  chunk : 16 ∣ MAX_IO_DATA_SIZE - mode.free
  unit_dvd : unit ∣ 16
  request : ∀ v input, input <:+ mode.request v input.length input
  length : ∀ v input, Chain v → unit ∣ input.length →
    (m.crypt 16 v input).length = input.length
  next : ∀ v input, Chain v → input ≠ [] → 16 ∣ input.length →
    mode.next v input.length input (m.crypt 16 v input) = m.after 16 v input
  chain : ∀ v input, Chain v → input ≠ [] → 16 ∣ input.length → Chain (m.after 16 v input)

/-- The loop chains its chunks as the mode `m` does, and the device applies `m` to those that the
    loop sends.  `Holds` says that the device has the key. -/
structure Mode.Applies (mode : Mode) (D : Device δ) (Holds : δ → Prop)
    (m : BlockModes.Mode (List UInt8) UInt8) (Chain : List UInt8 → Prop) (unit : Nat) :
    Prop extends mode.Chains m Chain unit where
  sendable : ∀ v input, Chain v → input.length ≤ MAX_IO_DATA_SIZE - mode.free →
    mode.request v input.length input ≠ [] ∧
      (mode.request v input.length input).length ≤ MAX_IO_BUFFER_SIZE
  exec : ∀ env v input, Holds env → Chain v → input ≠ [] →
    input.length ≤ MAX_IO_DATA_SIZE - mode.free → unit ∣ input.length →
    (D.exec env (mode.request v input.length input)).1 = [0x00, 0x00] ++ m.crypt 16 v input ∧
      Holds (D.exec env (mode.request v input.length input)).2

/-- A chunk is the rest of the text, or it is full. -/
theorem Mode.usSize_cases (mode : Mode) (n : Nat) :
    mode.usSize n ≤ MAX_IO_DATA_SIZE - mode.free ∧
      (mode.usSize n = n ∨ mode.usSize n = MAX_IO_DATA_SIZE - mode.free ∧ mode.usSize n ≤ n) := by
  have hfree := mode.free_lt
  unfold Mode.usSize
  split <;> omega

/-- A text that is made of pieces is cut between them. -/
theorem Mode.dvd_usSize (mode : Mode) {unit n : Nat} (hchunk : unit ∣ MAX_IO_DATA_SIZE - mode.free)
    (hn : unit ∣ n) : unit ∣ mode.usSize n := by
  rcases (mode.usSize_cases n).2 with hall | ⟨hfull, -⟩
  · rwa [hall]
  · rwa [hfull]

variable {mode : Mode} {Holds : δ → Prop} {m : BlockModes.Mode (List UInt8) UInt8}
  {Chain : List UInt8 → Prop} {unit : Nat}

/-- An output that was written is what is read back. -/
theorem arg_output {σ : Type} {x y : Kse σ} {pbOutput : Nat} {output : List UInt8} {n : Nat}
    (h : y.app = put x.app pbOutput output) (hlen : output.length = n) :
    y.arg pbOutput n = output := by
  rw [Kse.arg, h, ← hlen, slice_put_same]

/-- One chunk. -/
theorem chunk_crypt (h : mode.Applies D Holds m Chain unit) (hfuel : 51 ≤ fuel)
    {x : Kse (Frame δ)} (hx : Waiting x) (hholds : Holds x.world.env) {v : List UInt8}
    (hv : Chain v) {usSize : Nat} (hpos : 0 < usSize)
    (hmax : usSize ≤ MAX_IO_DATA_SIZE - mode.free) (hunit : unit ∣ usSize)
    (pbOutput pbInput : Nat) :
    ∃ y, dataCommand (frameWorld D N indeterminate) fuel
        (mode.request v usSize (x.arg pbInput usSize)) (fun usLen => usLen ≠ usSize + 2)
        (fun _ x => x.copyOut pbOutput 2 usSize) x = (some KSE_SUCCESS, y) ∧
      y.app = put x.app pbOutput (m.crypt 16 v (x.arg pbInput usSize)) ∧ Waiting y ∧
      Holds y.world.env := by
  have hlen : (x.arg pbInput usSize).length = usSize := length_slice _ _ _
  have hne : x.arg pbInput usSize ≠ [] := List.ne_nil_of_length_pos (by rwa [hlen])
  generalize x.arg pbInput usSize = input at *
  subst hlen
  obtain ⟨hrequest, hrequestMax⟩ := h.sendable v input hv hmax
  obtain ⟨hexec, hholds'⟩ := h.exec x.world.env v input hholds hv hne hmax hunit
  have hdata := h.length v input hv hunit
  obtain ⟨y, hcall, happ, hy⟩ := dataCommand_frame D N indeterminate hx hfuel hrequest hrequestMax
    hexec (by omega) (fun usLen => usLen ≠ input.length + 2) (by rw [hdata]; simp) pbOutput
  rw [hdata] at hcall happ
  refine ⟨_, hcall, happ, hy.waiting.copyOut _ _ _, ?_⟩
  have henv : (y.copyOut pbOutput 2 input.length).world.env = _ := hy.env
  rwa [henv]

/-- **Chunks.**  The loop gives what the mode gives on the whole text, wherever the output lies
    as long as no chunk is written over input that is still to come. -/
theorem modeLoop_crypt (h : mode.Applies D Holds m Chain unit) (hfuel : 51 ≤ fuel)
    {x : Kse (Frame δ)} (hx : Waiting x) (hholds : Holds x.world.env) {v : List UInt8}
    (hv : Chain v) {usInputSize pbOutput pbInput : Nat} (hpos : 0 < usInputSize)
    (hunit : unit ∣ usInputSize)
    (hbuffers : pbOutput ≤ pbInput ∨ pbInput + usInputSize ≤ pbOutput) :
    ∃ y, modeLoop (frameWorld D N indeterminate) fuel mode pbOutput pbInput usInputSize v x =
        (some KSE_SUCCESS, y) ∧
      y.app = put x.app pbOutput (m.crypt 16 v (x.arg pbInput usInputSize)) ∧ Waiting y ∧
      Holds y.world.env := by
  induction usInputSize using Nat.strongRecOn generalizing x v pbOutput pbInput with
  | _ usInputSize ih =>
    obtain ⟨hmax, hcases⟩ := mode.usSize_cases usInputSize
    have hsizePos := mode.usSize_pos usInputSize hpos
    have hsizeUnit := mode.dvd_usSize (h.unit_dvd.trans h.chunk) hunit
    rw [modeLoop]
    generalize mode.usSize usInputSize = usSize at *
    obtain ⟨y, hcall, happ, hy, hholds'⟩ := chunk_crypt N indeterminate h hfuel hx hholds hv
      hsizePos hmax hsizeUnit pbOutput pbInput
    simp only [hcall, ne_eq, not_true, if_false]
    by_cases hlast : usSize = usInputSize
    · subst hlast
      rw [if_neg (by omega)]
      exact ⟨y, rfl, happ, hy, hholds'⟩
    · obtain ⟨hfull, hle⟩ := hcases.resolve_left hlast
      have hblocks : 16 ∣ usSize := hfull ▸ h.chunk
      have hinput : (x.arg pbInput usSize).length = usSize := length_slice _ _ _
      have hne : x.arg pbInput usSize ≠ [] := List.ne_nil_of_length_pos (by rwa [hinput])
      have hblocks' : 16 ∣ (x.arg pbInput usSize).length := by rwa [hinput]
      have houtput : (m.crypt 16 v (x.arg pbInput usSize)).length = usSize := by
        rw [h.length v _ hv (by rwa [hinput]), hinput]
      have hnext : mode.next v usSize (x.arg pbInput usSize) (y.arg pbOutput usSize) =
          m.after 16 v (x.arg pbInput usSize) := by
        rw [arg_output happ houtput, ← h.next v _ hv hne hblocks', hinput]
      -- the chunk was not written over what is still to come
      have hrest : y.arg (pbInput + usSize) (usInputSize - usSize) =
          x.arg (pbInput + usSize) (usInputSize - usSize) := by
        rw [Kse.arg, happ]
        exact slice_put_disjoint _ (by omega)
      rw [if_pos (by omega), hnext]
      obtain ⟨z, hz, happz, hwz⟩ := ih (usInputSize - usSize) (by omega) hy hholds'
        (h.chain v _ hv hne hblocks') (by omega)
        ((Nat.dvd_sub_iff_left hle hsizeUnit).mpr hunit)
        (by omega : pbOutput + usSize ≤ pbInput + usSize ∨
          pbInput + usSize + (usInputSize - usSize) ≤ pbOutput + usSize)
      refine ⟨z, hz, ?_, hwz⟩
      have hall : x.arg pbInput usInputSize =
          x.arg pbInput usSize ++ x.arg (pbInput + usSize) (usInputSize - usSize) := by
        rw [Kse.arg, Kse.arg, Kse.arg, ← slice_append, Nat.add_sub_cancel' hle]
      rw [happz, happ, hrest, hall, m.crypt_append (by decide) v hblocks', ← put_put_append,
        houtput]

/-! ### The cipher of the device -/

/-- The block cipher under a key of the device. -/
structure BlockCipher where
  encrypt : List UInt8 → List UInt8
  decrypt : List UInt8 → List UInt8
  length_encrypt : ∀ b, b.length = 16 → (encrypt b).length = 16
  length_decrypt : ∀ b, b.length = 16 → (decrypt b).length = 16

namespace BlockCipher

variable (cipher : BlockCipher)

/-- CTR with a 128-bit big-endian counter that goes up by one with each block. -/
def ctr : BlockModes.Mode (List UInt8) UInt8 :=
  BlockModes.ctr (fun a b => a ^^^ b) cipher.encrypt BigEndian.increment

def ecb (bEnDe : UInt8) : BlockModes.Mode (List UInt8) UInt8 :=
  BlockModes.ecb (if bEnDe = ENCRYPT then cipher.encrypt else cipher.decrypt)

def cbc (bEnDe : UInt8) : BlockModes.Mode (List UInt8) UInt8 :=
  if bEnDe = ENCRYPT then BlockModes.cbcEncrypt (fun a b => a ^^^ b) cipher.encrypt
  else BlockModes.cbcDecrypt (fun a b => a ^^^ b) cipher.decrypt

end BlockCipher

/-- The device performs CTR on the data of a request, from the counter in it. -/
structure PerformsCtr (D : Device δ) (Holds : δ → Prop) (cipher : BlockCipher)
    (bKeyType : UInt8) (usKeyIndex : Nat) (bAlg : UInt8) : Prop where
  exec : ∀ env ctr input, Holds env → ctr.length = 16 → input ≠ [] →
    input.length ≤ MAX_IO_DATA_SIZE - 16 →
    let reply := D.exec env ([0x02, bAlg ||| 0x06, bKeyType] ++ bytes16 usKeyIndex ++
      bytes16 input.length ++ ctr ++ input)
    reply.1 = [0x00, 0x00] ++ cipher.ctr.crypt 16 ctr input ∧ Holds reply.2

/-- The device performs CBC on the data of a request, from the initial value in it. -/
structure PerformsCbc (D : Device δ) (Holds : δ → Prop) (cipher : BlockCipher)
    (bKeyType : UInt8) (usKeyIndex : Nat) (bEnDe bAlg : UInt8) : Prop where
  exec : ∀ env iv input, Holds env → iv.length = 16 → input ≠ [] → 16 ∣ input.length →
    input.length ≤ MAX_IO_DATA_SIZE - 16 →
    let reply := D.exec env ([0x02, bAlg ||| 0x05, bKeyType] ++ bytes16 usKeyIndex ++ [bEnDe] ++
      bytes16 input.length ++ iv ++ input)
    reply.1 = [0x00, 0x00] ++ (cipher.cbc bEnDe).crypt 16 iv input ∧ Holds reply.2

variable {cipher : BlockCipher} {bKeyType : UInt8} {usKeyIndex : Nat} {bEnDe bAlg : UInt8}

theorem addCtr_eq (abCtr : List UInt8) (usSum : Nat) :
    addCtr abCtr usSum = BigEndian.increment^[usSum] abCtr := by
  rw [BigEndian.increment_iterate, ← BigEndian.addCarry_eq]
  rfl

theorem length_addCtr (abCtr : List UInt8) (usSum : Nat) :
    (addCtr abCtr usSum).length = abCtr.length := by
  rw [addCtr_eq, BigEndian.increment_iterate, BigEndian.length_bytes]

theorem ctrMode_chains (cipher : BlockCipher) (bKeyType : UInt8) (usKeyIndex : Nat)
    (bAlg : UInt8) :
    (ctrMode bKeyType usKeyIndex bAlg).Chains cipher.ctr (fun v => v.length = 16) 1 := by
  have hafter : ∀ v input : List UInt8, 16 ∣ input.length →
      cipher.ctr.after 16 v input = BigEndian.increment^[input.length / 16] v := by
    intro v input hblocks
    have hcount : (input.length + 16 - 1) / 16 = input.length / 16 := by omega
    rw [BlockCipher.ctr, BlockModes.ctr_after, hcount]
  refine ⟨(by decide : 16 ∣ 2928), one_dvd 16, ?_, ?_, ?_, ?_⟩
  · intro v input
    exact List.suffix_append _ input
  · intro v input hv _
    apply BlockModes.length_ctr (by decide) cipher.length_encrypt _ hv
    intro b hb
    rw [BigEndian.increment, BigEndian.length_bytes, hb]
  · intro v input _ _ hblocks
    rw [hafter v input hblocks]
    exact addCtr_eq v _
  · intro v input hv _ hblocks
    rw [hafter v input hblocks, BigEndian.increment_iterate, BigEndian.length_bytes, hv]

theorem cbcMode_chains (cipher : BlockCipher) (bKeyType : UInt8) (usKeyIndex : Nat)
    (bEnDe bAlg : UInt8) :
    (cbcMode bKeyType usKeyIndex bEnDe bAlg).Chains (cipher.cbc bEnDe) (fun v => v.length = 16)
      16 := by
  have hlength : ∀ v input : List UInt8, v.length = 16 → 16 ∣ input.length →
      ((cipher.cbc bEnDe).crypt 16 v input).length = input.length := by
    intro v input hv hblocks
    unfold BlockCipher.cbc
    split
    · exact BlockModes.length_cbcEncrypt (by decide) cipher.length_encrypt hv hblocks
    · exact BlockModes.length_cbcDecrypt (by decide) cipher.length_decrypt hv hblocks
  have hafter : ∀ v input : List UInt8, v.length = 16 → input ≠ [] → 16 ∣ input.length →
      (cipher.cbc bEnDe).after 16 v input =
        (if bEnDe = ENCRYPT then (cipher.cbc bEnDe).crypt 16 v input else input).drop
          (input.length - 16) := by
    intro v input hv hne hblocks
    unfold BlockCipher.cbc
    split
    · exact BlockModes.cbcEncrypt_after (by decide) cipher.length_encrypt hv hne hblocks
    · exact BlockModes.cbcDecrypt_after (by decide) v hne hblocks
  refine ⟨(by decide : 16 ∣ 2928), dvd_refl 16, ?_, hlength, ?_, ?_⟩
  · intro v input
    exact List.suffix_append _ input
  · intro v input hv hne hblocks
    exact (hafter v input hv hne hblocks).symm
  · intro v input hv hne hblocks
    have hle : 16 ≤ input.length := Nat.le_of_dvd (List.length_pos_of_ne_nil hne) hblocks
    rw [hafter v input hv hne hblocks, List.length_drop]
    split
    · rw [hlength v input hv hblocks]
      omega
    · omega

theorem ctrMode_applies (hD : PerformsCtr D Holds cipher bKeyType usKeyIndex bAlg) :
    (ctrMode bKeyType usKeyIndex bAlg).Applies D Holds cipher.ctr (fun v => v.length = 16) 1 := by
  refine ⟨ctrMode_chains cipher bKeyType usKeyIndex bAlg, ?_, ?_⟩
  · intro v input hv hmax
    have hmax' : input.length ≤ 2928 := hmax
    simp [ctrMode, modeHeader, hv]
    omega
  · intro env v input hholds hv hne hmax _
    have hexec := hD.exec env v input hholds hv hne hmax
    simpa [ctrMode, modeHeader] using hexec

theorem cbcMode_applies (hD : PerformsCbc D Holds cipher bKeyType usKeyIndex bEnDe bAlg) :
    (cbcMode bKeyType usKeyIndex bEnDe bAlg).Applies D Holds (cipher.cbc bEnDe)
      (fun v => v.length = 16) 16 := by
  refine ⟨cbcMode_chains cipher bKeyType usKeyIndex bEnDe bAlg, ?_, ?_⟩
  · intro v input hv hmax
    have hmax' : input.length ≤ 2928 := hmax
    simp [cbcMode, modeHeader, hv]
    omega
  · intro env v input hholds hv hne hmax hblocks
    have hexec := hD.exec env v input hholds hv hne hblocks hmax
    simpa [cbcMode, modeHeader] using hexec

/-! ### The two commands -/

/-- The output is the input, or the two have no byte in common. -/
def BuffersApart (pbOutput pbInput usInputSize : Nat) : Prop :=
  pbOutput = pbInput ∨ pbOutput + usInputSize ≤ pbInput ∨ pbInput + usInputSize ≤ pbOutput

theorem BuffersApart.above {pbOutput pbInput usInputSize : Nat}
    (h : BuffersApart pbOutput pbInput usInputSize) :
    pbOutput ≤ pbInput ∨ pbInput + usInputSize ≤ pbOutput := by
  rcases h with h | h | h
  · exact Or.inl (Nat.le_of_eq h)
  · exact Or.inl (by omega)
  · exact Or.inr h

/-- **CTR.**  With a device that performs CTR on each request, `_kcmvpCtr` on an input of any
    length returns success, and its output is CTR applied once to the whole input from the
    counter that the caller gave, also where the input itself is the output.  It writes
    nothing else. -/
theorem kcmvpCtr_crypt (hD : PerformsCtr D Holds cipher bKeyType usKeyIndex bAlg)
    (hfuel : 51 ≤ fuel) {x : Kse (Frame δ)} (hx : Waiting x) (hholds : Holds x.world.env)
    {pbOutput pbInput usInputSize pbCtr : Nat}
    (hptr : pbOutput ≠ NULL_PTR ∧ pbInput ≠ NULL_PTR ∧ pbCtr ≠ NULL_PTR)
    (hpos : 0 < usInputSize)
    (hkey : usKeyIndex < MAX_KCMVP_KEY_COUNT ∧ (bAlg &&& 0xF0) ^^^ bKeyType ≤ 0x02)
    (hbuffers : BuffersApart pbOutput pbInput usInputSize) :
    ∃ y, kcmvpCtr (frameWorld D N indeterminate) fuel pbOutput pbInput usInputSize bKeyType
        usKeyIndex pbCtr bAlg x = (some KSE_SUCCESS, y) ∧
      y.arg pbOutput usInputSize =
        cipher.ctr.crypt 16 (x.arg pbCtr 16) (x.arg pbInput usInputSize) ∧
      y.app =
        put x.app pbOutput (cipher.ctr.crypt 16 (x.arg pbCtr 16) (x.arg pbInput usInputSize)) := by
  have hctr : (x.arg pbCtr 16).length = 16 := length_slice _ _ _
  have happlies := ctrMode_applies hD
  obtain ⟨y, hloop, happ, -⟩ := modeLoop_crypt N indeterminate happlies hfuel hx hholds hctr hpos
    (one_dvd usInputSize) hbuffers.above
  refine ⟨y, ?_, arg_output happ ?_, happ⟩
  · have hright : ¬(pbOutput = NULL_PTR ∨ pbInput = NULL_PTR ∨ pbCtr = NULL_PTR ∨
        usInputSize = 0 ∨ usKeyIndex ≥ MAX_KCMVP_KEY_COUNT ∨
        (bAlg &&& 0xF0) ^^^ bKeyType > 0x02) := by
      obtain ⟨hout, hin, hctr⟩ := hptr
      obtain ⟨hindex, htype⟩ := hkey
      simp only [not_or, ge_iff_le, gt_iff_lt, not_le]
      exact ⟨hout, hin, hctr, by omega, hindex, UInt8.not_lt.mpr htype⟩
    rw [kcmvpCtr, checked, if_neg (not_not.mpr hx.power), if_neg hright]
    exact hloop
  · rw [happlies.length _ _ hctr (one_dvd _)]
    exact length_slice _ _ _

/-- A device that performs the two modes with ARIA keys and the block cipher given. -/
def ariaDevice (cipher : BlockCipher) : Device Unit where
  exec _ request :=
    if request.getD 1 0 = KCMVP_ARIA ||| 0x06 then
      ([0x00, 0x00] ++ cipher.ctr.crypt 16 ((request.drop 7).take 16) (request.drop 23), ())
    else if request.getD 1 0 = KCMVP_ARIA ||| 0x05 then
      ([0x00, 0x00] ++ (cipher.cbc (request.getD 5 0)).crypt 16 ((request.drop 8).take 16)
        (request.drop 24), ())
    else ([0xFF, 0xFF], ())
  fill _ := fun _ => 0
  behind _ := fun _ => 0

def reversing : BlockCipher := ⟨List.reverse, List.reverse, by simp, by simp⟩

theorem performsCtr_ariaDevice (cipher : BlockCipher) (bKeyType : UInt8) (usKeyIndex : Nat) :
    PerformsCtr (ariaDevice cipher) (fun _ => True) cipher bKeyType usKeyIndex KCMVP_ARIA := by
  refine ⟨?_⟩
  intro env ctr input _ hctr _ _
  refine ⟨?_, trivial⟩
  simp [ariaDevice, bytes16, hctr]

/-- A counter that wraps, and an input of three chunks that is its own output. -/
theorem kcmvpCtr_crypt_inPlace :
    let W := frameWorld (ariaDevice reversing) silentNet fun _ => 0
    let x := poweredOn (fun i => if i < 32 then 0xFF else 7) (Frame.idle ())
    ∃ y, kcmvpCtr W 51 32 32 6001 KCMVP_ARIA128_KEY 0 16 KCMVP_ARIA x = (some KSE_SUCCESS, y) ∧
      y.arg 32 6001 = reversing.ctr.crypt 16 (x.arg 16 16) (x.arg 32 6001) ∧
      y.app = put x.app 32 (reversing.ctr.crypt 16 (x.arg 16 16) (x.arg 32 6001)) :=
  kcmvpCtr_crypt silentNet (fun _ => 0) (performsCtr_ariaDevice reversing _ _) (Nat.le_refl 51)
    (waiting_poweredOn _ _) trivial (by decide) (by decide) (by decide) (Or.inl rfl)

/-- **CBC.**  With a device that performs CBC on each request, `_kcmvpCbc` on an input of whole
    blocks returns success, in both directions, and its output is CBC applied once to the whole
    input with the initial value that the caller gave, also where the input itself is the
    output.  It writes nothing else. -/
theorem kcmvpCbc_crypt (hD : PerformsCbc D Holds cipher bKeyType usKeyIndex bEnDe bAlg)
    (hfuel : 51 ≤ fuel) {x : Kse (Frame δ)} (hx : Waiting x) (hholds : Holds x.world.env)
    {pbOutput pbInput usInputSize pbIv : Nat}
    (hptr : pbOutput ≠ NULL_PTR ∧ pbInput ≠ NULL_PTR ∧ pbIv ≠ NULL_PTR)
    (hpos : 0 < usInputSize) (hblocks : usInputSize % 16 = 0)
    (hdirection : bEnDe = ENCRYPT ∨ bEnDe = DECRYPT)
    (hkey : usKeyIndex < MAX_KCMVP_KEY_COUNT ∧ (bAlg &&& 0xF0) ^^^ bKeyType ≤ 0x02)
    (hbuffers : BuffersApart pbOutput pbInput usInputSize) :
    ∃ y, kcmvpCbc (frameWorld D N indeterminate) fuel pbOutput pbInput usInputSize bKeyType
        usKeyIndex pbIv bEnDe bAlg x = (some KSE_SUCCESS, y) ∧
      y.arg pbOutput usInputSize =
        (cipher.cbc bEnDe).crypt 16 (x.arg pbIv 16) (x.arg pbInput usInputSize) ∧
      y.app = put x.app pbOutput
        ((cipher.cbc bEnDe).crypt 16 (x.arg pbIv 16) (x.arg pbInput usInputSize)) := by
  have hiv : (x.arg pbIv 16).length = 16 := length_slice _ _ _
  have hdvd : 16 ∣ usInputSize := Nat.dvd_of_mod_eq_zero hblocks
  have happlies := cbcMode_applies hD
  obtain ⟨y, hloop, happ, -⟩ := modeLoop_crypt N indeterminate happlies hfuel hx hholds hiv hpos
    hdvd hbuffers.above
  refine ⟨y, ?_, arg_output happ ?_, happ⟩
  · have hright : ¬(pbOutput = NULL_PTR ∨ pbInput = NULL_PTR ∨ pbIv = NULL_PTR ∨
        usInputSize = 0 ∨ usKeyIndex ≥ MAX_KCMVP_KEY_COUNT ∨ bEnDe ≠ ENCRYPT ∧ bEnDe ≠ DECRYPT ∨
        (bAlg &&& 0xF0) ^^^ bKeyType > 0x02 ∨ usInputSize % 16 ≠ 0) := by
      obtain ⟨hout, hin, hiv⟩ := hptr
      obtain ⟨hindex, htype⟩ := hkey
      simp only [not_or, ge_iff_le, gt_iff_lt, not_le, not_and, not_not, ne_eq]
      refine ⟨hout, hin, hiv, by omega, hindex, ?_, UInt8.not_lt.mpr htype, hblocks⟩
      intro henc
      exact hdirection.resolve_left henc
    rw [kcmvpCbc, checked, if_neg (not_not.mpr hx.power), if_neg hright]
    exact hloop
  · rw [happlies.length _ _ hiv (by rwa [Kse.arg, length_slice])]
    exact length_slice _ _ _

theorem performsCbc_ariaDevice (cipher : BlockCipher) (bKeyType : UInt8) (usKeyIndex : Nat)
    (bEnDe : UInt8) :
    PerformsCbc (ariaDevice cipher) (fun _ => True) cipher bKeyType usKeyIndex bEnDe
      KCMVP_ARIA := by
  refine ⟨?_⟩
  intro env iv input _ hiv _ _ _
  refine ⟨?_, trivial⟩
  have hcmd : KCMVP_ARIA ||| 0x05 ≠ KCMVP_ARIA ||| 0x06 := by decide
  simp [ariaDevice, bytes16, hiv, hcmd]

/-- Decryption of three chunks in place. -/
theorem kcmvpCbc_crypt_inPlace :
    let W := frameWorld (ariaDevice reversing) silentNet fun _ => 0
    let x := poweredOn (fun i => UInt8.ofNat i) (Frame.idle ())
    ∃ y, kcmvpCbc W 51 32 32 6000 KCMVP_ARIA128_KEY 0 16 DECRYPT KCMVP_ARIA x =
        (some KSE_SUCCESS, y) ∧
      y.arg 32 6000 = (reversing.cbc DECRYPT).crypt 16 (x.arg 16 16) (x.arg 32 6000) ∧
      y.app = put x.app 32 ((reversing.cbc DECRYPT).crypt 16 (x.arg 16 16) (x.arg 32 6000)) :=
  kcmvpCbc_crypt silentNet (fun _ => 0) (performsCbc_ariaDevice reversing _ _ _)
    (Nat.le_refl 51) (waiting_poweredOn _ _) trivial (by decide) (by decide) (by decide)
    (Or.inr rfl) (by decide) (Or.inl rfl)

end MavlinkDim
