import MavlinkDim.CipherChunks

/-!
# A chunk that fails

The device may refuse a chunk, answer it with the wrong length, or never be
reached.  The loop then stops with what it has written: `modeLoop_prefix` says
that this is the mode applied at once to the chunks before, and
`chunkedCipher_prefix` is the three commands.
-/

namespace MavlinkDim

open ByteMemory

variable {σ : Type} (W : World σ) (fuel : Nat)

/-! ### Chunks -/

/-- The sizes of the chunks of an input. -/
def Mode.chunkSizes (mode : Mode) (usInputSize : Nat) : List Nat :=
  if 0 < usInputSize then
    mode.usSize usInputSize :: mode.chunkSizes (usInputSize - mode.usSize usInputSize)
  else []
termination_by usInputSize
decreasing_by
  have := mode.usSize_pos usInputSize
  omega

theorem Mode.chunkSizes_zero (mode : Mode) : mode.chunkSizes 0 = [] := by
  rw [chunkSizes]
  rfl

theorem Mode.chunkSizes_of_pos (mode : Mode) {usInputSize : Nat} (h : 0 < usInputSize) :
    mode.chunkSizes usInputSize =
      mode.usSize usInputSize :: mode.chunkSizes (usInputSize - mode.usSize usInputSize) := by
  rw [chunkSizes, if_pos h]

theorem Mode.usSize_le (mode : Mode) (usInputSize : Nat) :
    mode.usSize usInputSize ≤ usInputSize := by
  rcases (mode.usSize_cases usInputSize).2 with hall | ⟨-, hle⟩
  · exact Nat.le_of_eq hall
  · exact hle

/-- The exchange of a chunk of `usSize` bytes succeeded: transport, status and length. -/
def Exchange.Delivered (e : Exchange) (usSize : Nat) : Prop :=
  e.sRv = some KSE_SUCCESS ∧ status e.gabTxRxData = KSE_SUCCESS ∧ e.usLen = usSize + 2

instance (e : Exchange) (usSize : Nat) : Decidable (e.Delivered usSize) := by
  unfold Exchange.Delivered
  infer_instance

/-- The number of chunks completed before the first failure. -/
def completed : (sizes : List Nat) → List Exchange → Nat
  | usSize :: sizes, e :: es => if e.Delivered usSize then completed sizes es + 1 else 0
  | _, _ => 0

/-- The text of chunks of the given sizes, which is at the end of their requests. -/
def chunkText (sizes : List Nat) (es : List Exchange) : List UInt8 :=
  (List.zipWith (fun usSize e => e.request.drop (e.request.length - usSize)) sizes es).flatten

theorem chunkText_cons (usSize : Nat) (sizes : List Nat) (e : Exchange) (es : List Exchange) :
    chunkText (usSize :: sizes) (e :: es) =
      e.request.drop (e.request.length - usSize) ++ chunkText sizes es := rfl

theorem Mode.sum_chunkSizes (mode : Mode) (usInputSize : Nat) :
    (mode.chunkSizes usInputSize).sum = usInputSize := by
  fun_induction mode.chunkSizes usInputSize with
  | case1 usInputSize _ ih =>
    have hle := mode.usSize_le usInputSize
    rw [List.sum_cons, ih]
    omega
  | case2 usInputSize h => exact (Nat.eq_zero_of_not_pos h).symm

theorem Mode.sum_take_chunkSizes_le (mode : Mode) (usInputSize k : Nat) :
    ((mode.chunkSizes usInputSize).take k).sum ≤ usInputSize := by
  have hsum := congrArg List.sum (List.take_append_drop k (mode.chunkSizes usInputSize))
  rw [List.sum_append, mode.sum_chunkSizes] at hsum
  omega

/-! ### One chunk -/

variable {W fuel} in
/-- What the loop makes of an exchange. -/
theorem outputCommand_exchange {request : List UInt8} (usSize pbOutput : Nat) {x : Kse σ}
    {e : Exchange} {w : σ} (hof : e.Of W fuel w request.length (x.store 0 request)) :
    let r := dataCommand W fuel request (fun usLen => usLen ≠ usSize + 2)
      (fun _ x => x.copyOut pbOutput 2 usSize) x
    let y := (x.store 0 request).exchanged e w
    e.Delivered usSize ∧ r = (some KSE_SUCCESS, y.copyOut pbOutput 2 usSize) ∨
      ¬e.Delivered usSize ∧ ∃ sRv, sRv ≠ some KSE_SUCCESS ∧ r = (sRv, y) := by
  have hcases := dataCommand_exchange (fun usLen => usLen ≠ usSize + 2)
    (fun _ x => x.copyOut pbOutput 2 usSize) hof
  simpa only [Exchange.Taken, Exchange.Delivered, not_not] using hcases

/-- A turn of the loop.  A chunk that is completed is written, and the loop goes on with the rest;
    at one that is not, it ends. -/
theorem modeLoop_turn (mode : Mode) (pbOutput pbInput usInputSize : Nat) (v : List UInt8)
    (x : Kse σ) :
    let usSize := mode.usSize usInputSize
    let request := mode.request v usSize (x.arg pbInput usSize)
    let r := modeLoop W fuel mode pbOutput pbInput usInputSize v x
    ∃ e w, e.Of W fuel w request.length (x.store 0 request) ∧
      ((e.Delivered usSize ∧
          ∃ y, y = ((x.store 0 request).exchanged e w).copyOut pbOutput 2 usSize ∧
            r = if usInputSize - usSize > 0 then
                modeLoop W fuel mode (pbOutput + usSize) (pbInput + usSize) (usInputSize - usSize)
                  (mode.next v usSize (x.arg pbInput usSize) (y.arg pbOutput usSize)) y
              else (some KSE_SUCCESS, y)) ∨
        ¬e.Delivered usSize ∧ ∃ sRv, sRv ≠ some KSE_SUCCESS ∧
          r = (sRv, (x.store 0 request).exchanged e w)) := by
  dsimp only
  obtain ⟨e, w, hof⟩ := exists_exchange W fuel
    (mode.request v (mode.usSize usInputSize) (x.arg pbInput (mode.usSize usInputSize))).length
    (x.store 0 (mode.request v (mode.usSize usInputSize) (x.arg pbInput (mode.usSize usInputSize))))
  refine ⟨e, w, hof, ?_⟩
  rw [modeLoop]
  rcases outputCommand_exchange (mode.usSize usInputSize) pbOutput hof with
    ⟨he, hcall⟩ | ⟨he, sRv, hcode, hcall⟩
  · refine Or.inl ⟨he, _, rfl, ?_⟩
    simp only [hcall, ne_eq, not_true, if_false]
  · refine Or.inr ⟨he, sRv, hcode, ?_⟩
    simp only [hcall, if_pos hcode]

/-- The device, as far as it is reached, applies the mode `m` to the chunks that the loop sends.
    `Holds` says that it has the key. -/
structure Mode.Serves (mode : Mode) (Holds : σ → Prop)
    (m : BlockModes.Mode (List UInt8) UInt8) (Chain : List UInt8 → Prop) (unit : Nat) :
    Prop where
  delivered : ∀ (x : Kse σ) v input (e : Exchange) w, Holds x.world → Chain v → input ≠ [] →
    input.length ≤ MAX_IO_DATA_SIZE - mode.free → unit ∣ input.length →
    let request := mode.request v input.length input
    e.Of W fuel w request.length (x.store 0 request) → e.Delivered input.length →
    slice e.gabTxRxData 2 input.length = m.crypt 16 v input ∧ Holds w

variable {mode : Mode} {Holds : σ → Prop} {m : BlockModes.Mode (List UInt8) UInt8}
  {Chain : List UInt8 → Prop} {unit : Nat}

/-- A loop that ended, with the exchanges that it made: what it wrote is the mode applied at
    once to the text of the chunks before the first failure, and nothing was sent behind it.  If
    no chunk is written over input that is still to come, this is the text of the caller. -/
structure Mode.Stopped (mode : Mode) (m : BlockModes.Mode (List UInt8) UInt8) (v : List UInt8)
    (usInputSize pbOutput pbInput : Nat) (x : Kse σ) (r : Option Int × Kse σ)
    (es : List Exchange) : Prop where
  app : r.2.app = put x.app pbOutput
    (m.crypt 16 v (chunkText ((mode.chunkSizes usInputSize).take
      (completed (mode.chunkSizes usInputSize) es)) es))
  input : pbOutput ≤ pbInput ∨ pbInput + usInputSize ≤ pbOutput →
    chunkText ((mode.chunkSizes usInputSize).take (completed (mode.chunkSizes usInputSize) es))
        es =
      x.arg pbInput ((mode.chunkSizes usInputSize).take
        (completed (mode.chunkSizes usInputSize) es)).sum
  code : r.1 = some KSE_SUCCESS ↔
    completed (mode.chunkSizes usInputSize) es = (mode.chunkSizes usInputSize).length
  sent : es.length =
    min (completed (mode.chunkSizes usInputSize) es + 1) (mode.chunkSizes usInputSize).length

variable {v : List UInt8} {usInputSize pbOutput pbInput : Nat} {x y : Kse σ}
  {r : Option Int × Kse σ} {e : Exchange} {es : List Exchange}

/-- Nothing is left. -/
theorem Mode.Stopped.ended (mode : Mode) (m : BlockModes.Mode (List UInt8) UInt8)
    (v : List UInt8) (pbOutput pbInput : Nat) (x : Kse σ) :
    mode.Stopped m v 0 pbOutput pbInput x (some KSE_SUCCESS, x) [] := by
  have hempty : m.crypt 16 v [] = [] := m.crypt_nil (by decide) v
  refine ⟨?_, ?_, ?_, ?_⟩ <;> rw [mode.chunkSizes_zero]
  · exact ((congrArg (put x.app pbOutput) hempty).trans (put_nil _ _)).symm
  · intro _
    rfl
  · exact iff_of_true rfl rfl
  · rfl

/-- The first chunk fails. -/
theorem Mode.Stopped.failed (hpos : 0 < usInputSize) (happ : r.2.app = x.app)
    (hcode : r.1 ≠ some KSE_SUCCESS) (he : ¬e.Delivered (mode.usSize usInputSize)) :
    mode.Stopped m v usInputSize pbOutput pbInput x r [e] := by
  have hnone : completed (mode.chunkSizes usInputSize) [e] = 0 := by
    rw [mode.chunkSizes_of_pos hpos, completed, if_neg he]
  have hempty : m.crypt 16 v [] = [] := m.crypt_nil (by decide) v
  refine ⟨?_, ?_, ?_, ?_⟩ <;> rw [hnone]
  · rw [List.take_zero, happ]
    exact ((congrArg (put x.app pbOutput) hempty).trans (put_nil _ _)).symm
  · intro _
    rfl
  · rw [mode.chunkSizes_of_pos hpos, List.length_cons]
    exact iff_of_false hcode (Nat.succ_ne_zero _).symm
  · rw [mode.chunkSizes_of_pos hpos]
    simp

/-- The first chunk is completed, and the loop goes on with the rest. -/
theorem Mode.Stopped.step (h : mode.Chains m Chain unit) (hv : Chain v) (hpos : 0 < usInputSize)
    (hunit : unit ∣ mode.usSize usInputSize)
    (hnext : mode.usSize usInputSize = usInputSize ∨ 16 ∣ mode.usSize usInputSize)
    (he : e.Delivered (mode.usSize usInputSize))
    (hrequest : x.arg pbInput (mode.usSize usInputSize) <:+ e.request)
    (happ : y.app = put x.app pbOutput (m.crypt 16 v (x.arg pbInput (mode.usSize usInputSize))))
    (hrest : mode.Stopped m (m.after 16 v (x.arg pbInput (mode.usSize usInputSize)))
      (usInputSize - mode.usSize usInputSize) (pbOutput + mode.usSize usInputSize)
      (pbInput + mode.usSize usInputSize) y r es) :
    mode.Stopped m v usInputSize pbOutput pbInput x r (e :: es) := by
  have hsizes := mode.chunkSizes_of_pos hpos
  have hle := mode.usSize_le usInputSize
  have htake := mode.sum_take_chunkSizes_le (usInputSize - mode.usSize usInputSize)
    (completed (mode.chunkSizes (usInputSize - mode.usSize usInputSize)) es)
  generalize mode.usSize usInputSize = usSize at *
  have hcompleted : completed (mode.chunkSizes usInputSize) (e :: es) =
      completed (mode.chunkSizes (usInputSize - usSize)) es + 1 := by
    rw [hsizes, completed, if_pos he]
  have hinput : (x.arg pbInput usSize).length = usSize := length_slice _ _ _
  have houtput : (m.crypt 16 v (x.arg pbInput usSize)).length = usSize := by
    rw [h.length v _ hv (by rwa [hinput]), hinput]
  have hchunk : e.request.drop (e.request.length - usSize) = x.arg pbInput usSize := by
    rw [List.suffix_iff_eq_drop.mp hrequest, hinput]
  obtain ⟨happRest, hinputRest, hcodeRest, hsentRest⟩ := hrest
  have htext : chunkText ((mode.chunkSizes usInputSize).take
      (completed (mode.chunkSizes (usInputSize - usSize)) es + 1)) (e :: es) =
      x.arg pbInput usSize ++ chunkText ((mode.chunkSizes (usInputSize - usSize)).take
        (completed (mode.chunkSizes (usInputSize - usSize)) es)) es := by
    rw [hsizes, List.take_succ_cons, chunkText_cons, hchunk]
  -- a chunk that is not made of whole blocks is the last one
  have hsplit : ∀ text, text = chunkText ((mode.chunkSizes (usInputSize - usSize)).take
        (completed (mode.chunkSizes (usInputSize - usSize)) es)) es →
      m.crypt 16 v (x.arg pbInput usSize ++ text) =
        m.crypt 16 v (x.arg pbInput usSize) ++
          m.crypt 16 (m.after 16 v (x.arg pbInput usSize)) text := by
    intro text htext
    rcases hnext with hall | hblocks
    · have hnil : text = [] := by
        rw [htext, hall, Nat.sub_self, mode.chunkSizes_zero]
        rfl
      rw [hnil, List.append_nil, m.crypt_nil (by decide), List.append_nil]
    · exact m.crypt_append (by decide) v (by rwa [hinput]) text
  refine ⟨?_, ?_, ?_, ?_⟩ <;> rw [hcompleted]
  · rw [htext, happRest, happ, hsplit _ rfl, ← put_put_append, houtput]
  · intro hbuffers
    rw [htext, hinputRest (by omega), hsizes, List.take_succ_cons, List.sum_cons, Kse.arg, Kse.arg,
      Kse.arg, slice_append, happ]
    exact congrArg _ (slice_put_disjoint _ (by omega))
  · rw [hcodeRest, hsizes, List.length_cons, Nat.add_right_cancel_iff]
  · rw [List.length_cons, hsentRest, hsizes, List.length_cons, Nat.add_min_add_right]

/-- What the loop takes from a chunk that is completed. -/
theorem Mode.Serves.taken {W : World σ} {fuel : Nat} (hs : mode.Serves W fuel Holds m Chain unit)
    (hholds : Holds x.world) (hv : Chain v) {usSize : Nat} (hpos : 0 < usSize)
    (hmax : usSize ≤ MAX_IO_DATA_SIZE - mode.free) (hunit : unit ∣ usSize) {w : σ}
    (hof : e.Of W fuel w (mode.request v usSize (x.arg pbInput usSize)).length
      (x.store 0 (mode.request v usSize (x.arg pbInput usSize)))) (he : e.Delivered usSize)
    {y : Kse σ}
    (hy : y = ((x.store 0 (mode.request v usSize (x.arg pbInput usSize))).exchanged e w).copyOut
      pbOutput 2 usSize) :
    y.app = put x.app pbOutput (m.crypt 16 v (x.arg pbInput usSize)) ∧ Holds y.world ∧
      y.trace = x.trace ++ [.exchange e, .copied 2 usSize] := by
  have hinput : (x.arg pbInput usSize).length = usSize := length_slice _ _ _
  obtain ⟨hdata, hholds'⟩ := hs.delivered x v _ e w hholds hv
    (List.ne_nil_of_length_pos (by rwa [hinput])) (by rwa [hinput]) (by rwa [hinput])
    (by rwa [hinput]) (by rwa [hinput])
  subst hy
  refine ⟨?_, hholds', by simp [Kse.copyOut]⟩
  rw [Kse.copyOut_app, Kse.exchanged_gabTxRxData, ← hdata, hinput]
  rfl

/-- **Chunks, up to the first failure.** -/
theorem modeLoop_prefix (h : mode.Chains m Chain unit) (hs : mode.Serves W fuel Holds m Chain unit)
    {x : Kse σ} (hholds : Holds x.world) {v : List UInt8} (hv : Chain v)
    {usInputSize pbOutput pbInput : Nat} (hpos : 0 < usInputSize) (hunit : unit ∣ usInputSize) :
    let r := modeLoop W fuel mode pbOutput pbInput usInputSize v x
    ∃ es, r.2.trace = x.trace ++ es ∧
      mode.Stopped m v usInputSize pbOutput pbInput x r (exchanges es) := by
  induction usInputSize using Nat.strongRecOn generalizing x v pbOutput pbInput with
  | _ usInputSize ih =>
    obtain ⟨hmax, hcases⟩ := mode.usSize_cases usInputSize
    have hsizePos := mode.usSize_pos usInputSize hpos
    have hle := mode.usSize_le usInputSize
    have hnext : mode.usSize usInputSize = usInputSize ∨ 16 ∣ mode.usSize usInputSize := by
      rcases hcases with hall | ⟨hfull, -⟩
      · exact Or.inl hall
      · exact Or.inr (hfull ▸ h.chunk)
    have hsizeUnit := mode.dvd_usSize (h.unit_dvd.trans h.chunk) hunit
    have hinput : (x.arg pbInput (mode.usSize usInputSize)).length = mode.usSize usInputSize :=
      length_slice _ _ _
    obtain ⟨e, w, hof, ⟨he, y, hy, hcall⟩ | ⟨he, sRv, hcode, hcall⟩⟩ :=
      modeLoop_turn W fuel mode pbOutput pbInput usInputSize v x
    · obtain ⟨happ, hholdsRest, htrace⟩ := hs.taken hholds hv hsizePos hmax hsizeUnit hof he hy
      have hrequest : x.arg pbInput (mode.usSize usInputSize) <:+ e.request := by
        have hsuffix := h.request v (x.arg pbInput (mode.usSize usInputSize))
        rwa [hinput, ← hof.request_eq] at hsuffix
      simp only [hcall]
      by_cases hlast : usInputSize - mode.usSize usInputSize > 0
      · rw [if_pos hlast]
        have hblocks := hnext.resolve_left (by omega)
        have hne : x.arg pbInput (mode.usSize usInputSize) ≠ [] :=
          List.ne_nil_of_length_pos (by rwa [hinput])
        have hchain := h.next v _ hv hne (by rwa [hinput])
        rw [hinput] at hchain
        rw [arg_output happ (by rw [h.length v _ hv (by rwa [hinput]), hinput]), hchain]
        obtain ⟨es, htraceRest, hrest⟩ := ih (usInputSize - mode.usSize usInputSize) (by omega)
          hholdsRest (h.chain v _ hv hne (by rwa [hinput])) hlast
          ((Nat.dvd_sub_iff_left hle hsizeUnit).mpr hunit)
        exact ⟨Event.exchange e :: .copied 2 (mode.usSize usInputSize) :: es,
          by rw [htraceRest, htrace, List.append_assoc]; rfl,
          .step h hv hpos hsizeUnit hnext he hrequest happ hrest⟩
      · rw [if_neg hlast]
        refine ⟨_, htrace, .step h hv hpos hsizeUnit hnext he hrequest happ ?_⟩
        rw [Nat.eq_zero_of_not_pos hlast]
        exact .ended mode m _ _ _ _
    · simp only [hcall]
      exact ⟨[.exchange e], rfl, .failed hpos rfl hcode he⟩

/-! ### The three commands -/

theorem ecbMode_chains (cipher : BlockCipher) (bKeyType : UInt8) (usKeyIndex : Nat)
    (bEnDe bAlg : UInt8) :
    (ecbMode bKeyType usKeyIndex bEnDe bAlg).Chains (cipher.ecb bEnDe) (fun _ => True) 16 := by
  have hblock : ∀ b : List UInt8, b.length = 16 →
      ((if bEnDe = ENCRYPT then cipher.encrypt else cipher.decrypt) b).length = 16 := by
    intro b hb
    split
    · exact cipher.length_encrypt b hb
    · exact cipher.length_decrypt b hb
  refine ⟨(by decide : 16 ∣ 2944), dvd_refl 16, ?_, ?_, ?_, ?_⟩
  · intro v input
    exact List.suffix_append _ input
  · intro v input _ hblocks
    exact BlockModes.length_ecb (by decide) hblock v hblocks
  · intro v input _ _ _
    exact (BlockModes.ecb_after _ v input).symm
  · intro _ _ _ _ _
    trivial

/-- Which of the commands, with the arguments that only it has. -/
inductive CipherMode where
  | ecb (bEnDe : UInt8)
  | cbc (pbIv : Nat) (bEnDe : UInt8)
  | ctr (pbCtr : Nat)

/-- A call of `_kcmvpEcb`, `_kcmvpCbc` or `_kcmvpCtr`. -/
structure CipherCall where
  mode : CipherMode
  pbOutput : Nat
  pbInput : Nat
  usInputSize : Nat
  bKeyType : UInt8
  usKeyIndex : Nat
  bAlg : UInt8

namespace CipherCall

variable (c : CipherCall)

def run : Kse σ → Option Int × Kse σ :=
  match c.mode with
  | .ecb bEnDe =>
    kcmvpEcb W fuel c.pbOutput c.pbInput c.usInputSize c.bKeyType c.usKeyIndex bEnDe c.bAlg
  | .cbc pbIv bEnDe =>
    kcmvpCbc W fuel c.pbOutput c.pbInput c.usInputSize c.bKeyType c.usKeyIndex pbIv bEnDe c.bAlg
  | .ctr pbCtr =>
    kcmvpCtr W fuel c.pbOutput c.pbInput c.usInputSize c.bKeyType c.usKeyIndex pbCtr c.bAlg

/-- What the command does not reject as wrong input. -/
structure Accepted : Prop where
  pbOutput : c.pbOutput ≠ NULL_PTR
  pbInput : c.pbInput ≠ NULL_PTR
  usInputSize : c.usInputSize ≠ 0
  usKeyIndex : c.usKeyIndex < MAX_KCMVP_KEY_COUNT
  bKeyType : (c.bAlg &&& 0xF0) ^^^ c.bKeyType ≤ 0x02
  mode : match c.mode with
    | .ecb bEnDe => (bEnDe = ENCRYPT ∨ bEnDe = DECRYPT) ∧ c.usInputSize % 16 = 0
    | .cbc pbIv bEnDe =>
      pbIv ≠ NULL_PTR ∧ (bEnDe = ENCRYPT ∨ bEnDe = DECRYPT) ∧ c.usInputSize % 16 = 0
    | .ctr pbCtr => pbCtr ≠ NULL_PTR

def loop : Mode :=
  match c.mode with
  | .ecb bEnDe => ecbMode c.bKeyType c.usKeyIndex bEnDe c.bAlg
  | .cbc _ bEnDe => cbcMode c.bKeyType c.usKeyIndex bEnDe c.bAlg
  | .ctr _ => ctrMode c.bKeyType c.usKeyIndex c.bAlg

/-- The chaining value that the caller gives. -/
def chaining (x : Kse σ) : List UInt8 :=
  match c.mode with
  | .ecb _ => []
  | .cbc pbIv _ => x.arg pbIv 16
  | .ctr pbCtr => x.arg pbCtr 16

def cipherMode (cipher : BlockCipher) : BlockModes.Mode (List UInt8) UInt8 :=
  match c.mode with
  | .ecb bEnDe => cipher.ecb bEnDe
  | .cbc _ bEnDe => cipher.cbc bEnDe
  | .ctr _ => cipher.ctr

def IsChain (v : List UInt8) : Prop :=
  match c.mode with
  | .ecb _ => True
  | .cbc _ _ => v.length = 16
  | .ctr _ => v.length = 16

/-- CTR takes a text of any length, the other two take whole blocks. -/
def unitSize : Nat :=
  match c.mode with
  | .ecb _ => 16
  | .cbc _ _ => 16
  | .ctr _ => 1

variable {c}

theorem Accepted.run_eq (hc : c.Accepted) {x : Kse σ} (hpower : x.gusKsePower = .on) :
    c.run W fuel x =
      modeLoop W fuel c.loop c.pbOutput c.pbInput c.usInputSize (c.chaining x) x := by
  obtain ⟨hout, hin, hsize, hindex, htype, hmode⟩ := hc
  have htype' : ¬(c.bAlg &&& 0xF0) ^^^ c.bKeyType > 0x02 := UInt8.not_lt.mpr htype
  have hindex' : ¬c.usKeyIndex ≥ MAX_KCMVP_KEY_COUNT := Nat.not_le.mpr hindex
  cases hkind : c.mode with
  | ecb bEnDe =>
    rw [hkind] at hmode
    obtain ⟨hdirection, hblocks⟩ := hmode
    simp only [run, loop, chaining, hkind]
    rw [kcmvpEcb, checked, if_neg (not_not.mpr hpower), if_neg]
    tauto
  | cbc pbIv bEnDe =>
    rw [hkind] at hmode
    obtain ⟨hiv, hdirection, hblocks⟩ := hmode
    simp only [run, loop, chaining, hkind]
    rw [kcmvpCbc, checked, if_neg (not_not.mpr hpower), if_neg]
    tauto
  | ctr pbCtr =>
    rw [hkind] at hmode
    simp only [run, loop, chaining, hkind]
    rw [kcmvpCtr, checked, if_neg (not_not.mpr hpower), if_neg]
    tauto

theorem loop_chains (cipher : BlockCipher) (c : CipherCall) :
    c.loop.Chains (c.cipherMode cipher) c.IsChain c.unitSize := by
  obtain ⟨mode, pbOutput, pbInput, usInputSize, bKeyType, usKeyIndex, bAlg⟩ := c
  cases mode with
  | ecb bEnDe => exact ecbMode_chains cipher _ _ _ _
  | cbc pbIv bEnDe => exact cbcMode_chains cipher _ _ _ _
  | ctr pbCtr => exact ctrMode_chains cipher _ _ _

theorem chain_chaining (c : CipherCall) (x : Kse σ) : c.IsChain (c.chaining x) := by
  simp only [IsChain, chaining]
  cases c.mode with
  | ecb bEnDe => trivial
  | cbc pbIv bEnDe => exact length_slice _ _ _
  | ctr pbCtr => exact length_slice _ _ _

theorem Accepted.unit_dvd (hc : c.Accepted) : c.unitSize ∣ c.usInputSize := by
  have hmode := hc.mode
  simp only [unitSize]
  cases hkind : c.mode with
  | ecb bEnDe =>
    rw [hkind] at hmode
    exact Nat.dvd_of_mod_eq_zero hmode.2
  | cbc pbIv bEnDe =>
    rw [hkind] at hmode
    exact Nat.dvd_of_mod_eq_zero hmode.2.2
  | ctr pbCtr => exact one_dvd _

end CipherCall

/-- **A failure leaves a prefix.**  For every accepted call of the three commands, in a world
    that may fail at any exchange in any way but does not answer a chunk with anything else than
    the mode of its cipher: the memory differs from before in the output alone, where the mode
    applied at once to the text of the chunks before the first failure stands; the chunk that
    failed is the last one sent; and the call returns success exactly when all chunks are
    completed. -/
theorem chunkedCipher_prefix (cipher : BlockCipher) (c : CipherCall)
    (hs : c.loop.Serves W fuel Holds (c.cipherMode cipher) c.IsChain c.unitSize) {x : Kse σ}
    (hpower : x.gusKsePower = .on) (hc : c.Accepted) (hholds : Holds x.world) :
    let r := c.run W fuel x
    ∃ es, r.2.trace = x.trace ++ es ∧
      c.loop.Stopped (c.cipherMode cipher) (c.chaining x) c.usInputSize c.pbOutput c.pbInput x r
        (exchanges es) := by
  rw [hc.run_eq W fuel hpower]
  exact modeLoop_prefix W fuel (CipherCall.loop_chains cipher c) hs hholds
    (c.chain_chaining x) (Nat.pos_of_ne_zero hc.usInputSize) hc.unit_dvd

/-! ### A device that refuses -/

section Frames

variable {δ : Type} {D : Device δ} (N : Net δ) (indeterminate : δ → Int) (P : δ → Prop)
  {fuel : Nat}

/-- A device that answers every chunk with the mode of its cipher or refuses it. -/
theorem serves_frame (h : mode.Chains m Chain unit) (hfuel : 51 ≤ fuel)
    (hrequest : ∀ v input, Chain v → input.length ≤ MAX_IO_DATA_SIZE - mode.free →
      mode.request v input.length input ≠ [] ∧
        (mode.request v input.length input).length ≤ MAX_IO_BUFFER_SIZE)
    (hexec : ∀ env v input, P env → Chain v → input ≠ [] →
      input.length ≤ MAX_IO_DATA_SIZE - mode.free → unit ∣ input.length →
      ∃ answer : Answer,
        (D.exec env (mode.request v input.length input)).1 = answer.response ∧
          ∀ data, answer = .accepted data → data = m.crypt 16 v input ∧
            P (D.exec env (mode.request v input.length input)).2) :
    mode.Serves (frameWorld D N indeterminate) fuel (fun w => w.request = [] ∧ P w.env) m Chain
      unit := by
  refine ⟨?_⟩
  rintro x v input e w ⟨hidle, hP⟩ hv hne hmax hunit request hof ⟨hok, hstatus, husLen⟩
  obtain ⟨hpos, hlen⟩ := hrequest v input hv hmax
  obtain ⟨answer, hanswer, haccepted⟩ := hexec x.world.env v input hP hv hne hmax hunit
  have hdev : ∃ d, (x.store 0 request).ghDev = some d := by
    apply Option.ne_none_iff_exists'.mp
    intro hnone
    have hcall := congrArg Prod.fst hof.call
    have hnotFound : e.sRv = some KSE_FAIL_NOT_FOUND :=
      hcall.symm.trans ((kseTransceive_notFound_iff _ _ _ _ _ _ _ _).mpr hnone)
    rw [hok] at hnotFound
    simp at hnotFound
  have hresp : answer.response.length ≤ MAX_IO_BUFFER_SIZE := by
    cases answer with
    | accepted data =>
      have hlength := h.length v input hv hunit
      rw [← (haccepted data rfl).1] at hlength
      simp only [Answer.response, List.length_append, List.length_cons, List.length_nil,
        MAX_IO_BUFFER_SIZE, MAX_IO_DATA_SIZE, MAX_IO_CTRL_LEN] at hmax ⊢
      omega
    | refused hi lo hnonzero => simp [Answer.response]
  have hreply : D.exec x.world.env request = (answer.response, (D.exec x.world.env request).2) :=
    Prod.ext hanswer rfl
  obtain ⟨-, -, -, hgab, hw, hwenv⟩ := hof.frame D N indeterminate fuel hdev hidle hfuel
    (slice_put_same _ _ _) (List.length_pos_of_ne_nil hpos) hlen hreply hresp
  rw [hgab, status_put _ answer.two_le_response, answer.responseStatus_response] at hstatus
  cases answer with
  | refused hi lo hnonzero => exact absurd hstatus (Answer.code_refused hnonzero)
  | accepted data =>
    obtain ⟨rfl, hP'⟩ := haccepted data rfl
    refine ⟨?_, hw, hwenv ▸ hP'⟩
    have hlength := h.length v input hv hunit
    rw [hgab, ← hlength]
    exact slice_put_front _ [0x00, 0x00] _

end Frames

/-- A device that answers as many requests as its state says and refuses the others. -/
def answering (D : Device Unit) : Device Nat where
  exec n request := if n = 0 then ([0xFF, 0xFF], 0) else ((D.exec () request).1, n - 1)
  fill _ := fun _ => 0
  behind _ := fun _ => 0

theorem answering_serves (cipher : BlockCipher) (bKeyType : UInt8) (usKeyIndex : Nat) :
    (ctrMode bKeyType usKeyIndex KCMVP_ARIA).Serves
      (frameWorld (answering (ariaDevice cipher)) silentNet fun _ => 0) 51
      (fun w => w.request = [] ∧ True) cipher.ctr (fun v => v.length = 16) 1 := by
  have happlies := ctrMode_applies (performsCtr_ariaDevice cipher bKeyType usKeyIndex)
  apply serves_frame silentNet (fun _ => 0) (fun _ => True)
    happlies.toChains (Nat.le_refl 51) happlies.sendable
  intro n v input _ hv hne hmax hunit
  by_cases hn : n = 0
  · refine ⟨.refused 0xFF 0xFF (by decide), ?_, ?_⟩
    · simp [answering, hn, Answer.response]
    · intro data h
      cases h
  · refine ⟨.accepted (cipher.ctr.crypt 16 v input), ?_, ?_⟩
    · have hexec := (happlies.exec () v input trivial hv hne hmax hunit).1
      simpa [answering, hn, Answer.response] using hexec
    · rintro data ⟨⟩
      exact ⟨rfl, trivial⟩

/-- Three chunks in place, of which the device refuses the second. -/
theorem chunkedCipher_prefix_refused :
    let W := frameWorld (answering (ariaDevice reversing)) silentNet fun _ => 0
    let c : CipherCall := ⟨.ctr 16, 32, 32, 6001, KCMVP_ARIA128_KEY, 0, KCMVP_ARIA⟩
    let x := poweredOn (fun i => UInt8.ofNat i) (Frame.idle 1)
    ∃ es, (c.run W 51 x).2.trace = x.trace ++ es ∧
      c.loop.Stopped reversing.ctr (x.arg 16 16) 6001 32 32 x (c.run W 51 x) (exchanges es) :=
  chunkedCipher_prefix _ 51 reversing ⟨.ctr 16, 32, 32, 6001, KCMVP_ARIA128_KEY, 0, KCMVP_ARIA⟩
    (answering_serves reversing _ _) rfl
    ⟨by decide, by decide, by decide, by decide, by decide, by decide⟩ ⟨rfl, trivial⟩

end MavlinkDim
