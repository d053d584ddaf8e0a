import MavlinkDim.DeviceCommands

/-!
# What GCM seals, GCM opens

`_kcmvpGcm` packs four fields of any length behind a header of 14 bytes, and has
the tag in the response when it encrypts and in the request when it decrypts.
`GcmFields.decode` is the device's side of the layout; `kcmvpGcm_roundTrip` is the
two directions after each other.
-/

namespace MavlinkDim

open ByteMemory

/-! ### Layout -/

/-- What a request says: the key, the direction, the size of the tag, and the four fields. -/
structure GcmFields where
  bKeyType : UInt8
  usKeyIndex : Nat
  bEnDe : UInt8
  usTagSize : Nat
  iv : List UInt8
  input : List UInt8
  auth : List UInt8
  tag : List UInt8

namespace GcmFields

def request (bAlg : UInt8) (f : GcmFields) : List UInt8 :=
  [0x02, bAlg ||| 0x07, f.bKeyType] ++ bytes16 f.usKeyIndex ++ [f.bEnDe] ++
    bytes16 f.iv.length ++ bytes16 f.input.length ++ bytes16 f.auth.length ++
    bytes16 f.usTagSize ++ f.iv ++ f.input ++ f.auth ++ f.tag

/-- The fields of a request by its length fields, as the device finds them. -/
def decode (request : List UInt8) : GcmFields where
  bKeyType := request.getD 2 0
  usKeyIndex := requestField request 3
  bEnDe := request.getD 5 0
  usTagSize := requestField request 12
  iv := (request.drop 14).take (requestField request 6)
  input := (request.drop (14 + requestField request 6)).take (requestField request 8)
  auth := (request.drop (14 + requestField request 6 + requestField request 8)).take
    (requestField request 10)
  tag := (request.drop (14 + requestField request 6 + requestField request 8 +
    requestField request 10)).take (requestField request 12)

/-- The sizes that a request has room for. -/
structure Fits (f : GcmFields) : Prop where
  usKeyIndex : f.usKeyIndex < 65536
  data : f.iv.length + f.input.length + f.auth.length ≤ MAX_IO_DATA_SIZE
  usTagSize : f.usTagSize ≤ 16
  tag : f.tag.length ≤ f.usTagSize

variable {f : GcmFields} (bAlg : UInt8)

theorem length_request :
    (f.request bAlg).length =
      14 + f.iv.length + f.input.length + f.auth.length + f.tag.length := by
  simp only [request, List.length_append, List.length_cons, List.length_nil, length_bytes16]

/-- The header byte by byte. -/
theorem request_eq :
    f.request bAlg =
      0x02 :: (bAlg ||| 0x07) :: f.bKeyType :: hiByte f.usKeyIndex :: loByte f.usKeyIndex ::
        f.bEnDe :: hiByte f.iv.length :: loByte f.iv.length :: hiByte f.input.length ::
        loByte f.input.length :: hiByte f.auth.length :: loByte f.auth.length ::
        hiByte f.usTagSize :: loByte f.usTagSize :: (f.iv ++ (f.input ++ (f.auth ++ f.tag))) := by
  simp [request, bytes16]

theorem request_fields (h : f.Fits) :
    requestField (f.request bAlg) 3 = f.usKeyIndex ∧
      requestField (f.request bAlg) 6 = f.iv.length ∧
      requestField (f.request bAlg) 8 = f.input.length ∧
      requestField (f.request bAlg) 10 = f.auth.length ∧
      requestField (f.request bAlg) 12 = f.usTagSize := by
  have hdata : f.iv.length + f.input.length + f.auth.length ≤ 2944 := h.data
  have htag := h.usTagSize
  have hiv : f.iv.length < 65536 := by omega
  have hinput : f.input.length < 65536 := by omega
  have hauth : f.auth.length < 65536 := by omega
  rw [request_eq]
  exact ⟨word_hiByte_loByte h.usKeyIndex, word_hiByte_loByte hiv, word_hiByte_loByte hinput,
    word_hiByte_loByte hauth, word_hiByte_loByte (by omega)⟩

/-- **Layout.**  The device finds what was packed. -/
theorem decode_request (h : f.Fits) : decode (f.request bAlg) = f := by
  have hbody : (f.request bAlg).drop 14 = f.iv ++ (f.input ++ (f.auth ++ f.tag)) := by
    rw [request_eq]
    rfl
  have hbytes : (f.request bAlg).getD 2 0 = f.bKeyType ∧ (f.request bAlg).getD 5 0 = f.bEnDe := by
    rw [request_eq]
    exact ⟨rfl, rfl⟩
  obtain ⟨h3, h6, h8, h10, h12⟩ := request_fields bAlg h
  rw [decode, h3, h6, h8, h10, h12, hbytes.1, hbytes.2]
  simp only [← List.drop_drop, hbody, List.drop_left, List.take_left,
    List.take_of_length_le h.tag]

end GcmFields

/-! ### The device -/

/-- Authenticated encryption under a key of the device. -/
structure Aead where
  encrypt : (iv auth : List UInt8) → (usTagSize : Nat) → (input : List UInt8) →
    List UInt8 × List UInt8
  decrypt : (iv auth input tag : List UInt8) → Option (List UInt8)
  length_output : ∀ iv auth usTagSize input,
    (encrypt iv auth usTagSize input).1.length = input.length
  length_tag : ∀ iv auth usTagSize input, usTagSize ≤ 16 →
    (encrypt iv auth usTagSize input).2.length = usTagSize
  decrypt_encrypt : ∀ iv auth usTagSize input, usTagSize ≤ 16 →
    decrypt iv auth (encrypt iv auth usTagSize input).1 (encrypt iv auth usTagSize input).2 =
      some input

/-- A request for GCM that is as long as its length fields say. -/
structure GcmRequest (bAlg : UInt8) (request : List UInt8) : Prop where
  command : request.take 2 = [0x02, bAlg ||| 0x07]
  usTagSize : (GcmFields.decode request).usTagSize ≤ 16
  length : request.length =
    14 + requestField request 6 + requestField request 8 + requestField request 10 +
      if (GcmFields.decode request).bEnDe = ENCRYPT then 0 else requestField request 12

/-- The device encrypts and decrypts what it finds in a request. -/
structure PerformsGcm {δ : Type} (D : Device δ) (Holds : δ → Prop) (aead : Aead)
    (bKeyType : UInt8) (usKeyIndex : Nat) (bAlg : UInt8) : Prop where
  encrypt : ∀ env request, Holds env → GcmRequest bAlg request →
    let f := GcmFields.decode request
    f.bKeyType = bKeyType → f.usKeyIndex = usKeyIndex → f.bEnDe = ENCRYPT →
    let result := aead.encrypt f.iv f.auth f.usTagSize f.input
    (D.exec env request).1 = [0x00, 0x00] ++ (result.1 ++ result.2) ∧
      Holds (D.exec env request).2
  decrypt : ∀ env request, Holds env → GcmRequest bAlg request →
    let f := GcmFields.decode request
    f.bKeyType = bKeyType → f.usKeyIndex = usKeyIndex → f.bEnDe = DECRYPT →
    ∀ output, aead.decrypt f.iv f.auth f.input f.tag = some output →
      (D.exec env request).1 = [0x00, 0x00] ++ output ∧ Holds (D.exec env request).2

/-! ### A call -/

/-- A call of `_kcmvpGcm`. -/
structure GcmCall where
  pbOutput : Nat
  pbInput : Nat
  usInputSize : Nat
  bKeyType : UInt8
  usKeyIndex : Nat
  pbIv : Nat
  usIvSize : Nat
  pbAuth : Nat
  usAuthSize : Nat
  pbTag : Nat
  usTagSize : Nat
  bEnDe : UInt8
  bAlg : UInt8

namespace GcmCall

variable (c : GcmCall)

def run {σ : Type} (W : World σ) (fuel : Nat) : Kse σ → Option Int × Kse σ :=
  kcmvpGcm W fuel c.pbOutput c.pbInput c.usInputSize c.bKeyType c.usKeyIndex c.pbIv c.usIvSize
    c.pbAuth c.usAuthSize c.pbTag c.usTagSize c.bEnDe c.bAlg

/-- What the command does not reject as wrong input. -/
structure Accepted : Prop where
  pbOutput : c.pbOutput = NULL_PTR → c.usInputSize = 0
  pbInput : c.pbInput = NULL_PTR → c.usInputSize = 0
  pbIv : c.pbIv ≠ NULL_PTR
  pbAuth : c.pbAuth = NULL_PTR → c.usAuthSize = 0
  pbTag : c.pbTag = NULL_PTR → c.usTagSize = 0
  bKeyType : (c.bAlg &&& 0xF0) ^^^ c.bKeyType ≤ 0x02
  usKeyIndex : c.usKeyIndex < MAX_KCMVP_KEY_COUNT
  usIvSize : c.usIvSize ≠ 0
  usTagSize : c.usTagSize ≤ 16
  sizes : c.usInputSize + c.usIvSize + c.usAuthSize ≤ MAX_IO_DATA_SIZE
  bEnDe : c.bEnDe = ENCRYPT ∨ c.bEnDe = DECRYPT

/-- What the call hands to the device. -/
def fields {σ : Type} (x : Kse σ) : GcmFields where
  bKeyType := c.bKeyType
  usKeyIndex := c.usKeyIndex
  bEnDe := c.bEnDe
  usTagSize := c.usTagSize
  iv := x.arg c.pbIv c.usIvSize
  input := x.arg c.pbInput c.usInputSize
  auth := x.arg c.pbAuth c.usAuthSize
  tag := if c.bEnDe = ENCRYPT then [] else x.arg c.pbTag c.usTagSize

/-- What is done with the response. -/
def take {σ : Type} (x : Kse σ) : Kse σ :=
  let x := x.copyOut c.pbOutput 2 c.usInputSize
  if c.bEnDe = ENCRYPT then x.copyOut c.pbTag (c.usInputSize + 2) c.usTagSize else x

def usOutSize : Nat :=
  if c.bEnDe = ENCRYPT then c.usInputSize + c.usTagSize else c.usInputSize

variable {c} {σ : Type} {x : Kse σ}

theorem Accepted.run_eq (hc : c.Accepted) (W : World σ) (fuel : Nat)
    (hpower : x.gusKsePower = .on) :
    c.run W fuel x =
      dataCommand W fuel ((c.fields x).request c.bAlg) (fun usLen => usLen ≠ c.usOutSize + 2)
        (fun _ x => c.take x) x := by
  obtain ⟨hout, hin, hiv, hauth, htag, htype, hindex, hivSize, htagSize, hsizes, hdirection⟩ := hc
  have htype' : ¬(c.bAlg &&& 0xF0) ^^^ c.bKeyType > 0x02 := UInt8.not_lt.mpr htype
  have hlen : ∀ pb n, (x.arg pb n).length = n := fun _ _ => length_slice _ _ _
  rw [run, kcmvpGcm, checked, if_neg (not_not.mpr hpower), if_neg]
  · simp only [GcmFields.request, fields, hlen]
    rfl
  · simp only [not_or, not_and, ge_iff_le, not_le, not_lt, not_not]
    exact ⟨hout, hin, hiv, hauth, htag, htype', hindex, hivSize, htagSize, by omega,
      fun henc => hdirection.resolve_left henc⟩

theorem Accepted.fits (hc : c.Accepted) (x : Kse σ) : (c.fields x).Fits := by
  have hlen : ∀ pb n, (x.arg pb n).length = n := fun _ _ => length_slice _ _ _
  have hindex : c.usKeyIndex < _ := hc.usKeyIndex
  have hsizes := hc.sizes
  refine ⟨?_, ?_, hc.usTagSize, ?_⟩
  · simp only [fields, MAX_KCMVP_KEY_COUNT] at hindex ⊢
    omega
  · simp only [fields, hlen]
    omega
  · simp only [fields]
    split
    · exact Nat.zero_le _
    · exact Nat.le_of_eq (hlen _ _)

theorem Accepted.gcmRequest (hc : c.Accepted) (x : Kse σ) :
    GcmRequest c.bAlg ((c.fields x).request c.bAlg) := by
  have hlen : (x.arg c.pbTag c.usTagSize).length = c.usTagSize := length_slice _ _ _
  have hdecode := GcmFields.decode_request c.bAlg (hc.fits x)
  refine ⟨rfl, ?_, ?_⟩
  · rw [hdecode]
    exact hc.usTagSize
  · obtain ⟨-, h6, h8, h10, h12⟩ := GcmFields.request_fields c.bAlg (hc.fits x)
    rw [hdecode, GcmFields.length_request, h6, h8, h10, h12]
    simp only [fields]
    by_cases henc : c.bEnDe = ENCRYPT
    · simp only [henc, if_true, List.length_nil]
    · simp only [henc, if_false, hlen]

theorem take_encrypt {m : Bytes} {output tag : List UInt8} (henc : c.bEnDe = ENCRYPT)
    (hgab : x.gabTxRxData = put m 0 ([0x00, 0x00] ++ (output ++ tag)))
    (houtput : output.length = c.usInputSize) (htag : tag.length = c.usTagSize) :
    (c.take x).app = put (put x.app c.pbOutput output) c.pbTag tag := by
  have hfirst : slice x.gabTxRxData 2 c.usInputSize = output := by
    have hpart := @slice_put_part m 0 ([0x00, 0x00] ++ (output ++ tag)) 2 output.length (by
      simp only [List.length_append, List.length_cons, List.length_nil]
      omega)
    rw [hgab, ← houtput]
    exact hpart.trans List.take_left
  have hsecond : slice x.gabTxRxData (c.usInputSize + 2) c.usTagSize = tag := by
    have hpart := @slice_put_part m 0 ([0x00, 0x00] ++ (output ++ tag)) (output.length + 2)
      tag.length (by
        simp only [List.length_append, List.length_cons, List.length_nil]
        omega)
    have hdrop : ([0x00, 0x00] ++ (output ++ tag)).drop (output.length + 2) = tag :=
      List.drop_left
    rw [hdrop, List.take_of_length_le (Nat.le_refl _), Nat.zero_add] at hpart
    rw [hgab, ← houtput, ← htag, hpart]
  simp only [take, if_pos henc]
  rw [Kse.copyOut_app, Kse.copyOut_app, hfirst]
  exact congrArg (put (put x.app c.pbOutput output) c.pbTag) hsecond

theorem take_decrypt {m : Bytes} {output : List UInt8} (hdec : c.bEnDe = DECRYPT)
    (hgab : x.gabTxRxData = put m 0 ([0x00, 0x00] ++ output))
    (houtput : output.length = c.usInputSize) :
    (c.take x).app = put x.app c.pbOutput output := by
  have henc : c.bEnDe ≠ ENCRYPT := by
    rw [hdec]
    decide
  have hread := slice_put_front m [0x00, 0x00] output
  rw [houtput, ← hgab] at hread
  simp only [take, if_neg henc]
  rw [Kse.copyOut_app]
  exact congrArg (put x.app c.pbOutput) hread

/-- The call made one request, the device found in it what the call was given, and is ready for
    the next. -/
structure Performed {δ : Type} (c : GcmCall) (Holds : δ → Prop) (x y : Kse (Frame δ)) :
    Prop where
  waiting : Waiting y
  holds : Holds y.world.env
  request : ∃ es request, y.trace = x.trace ++ es ∧ requests es = [request] ∧
    GcmFields.decode request = c.fields x

/-- `c'`, made in `z`, decrypts what `c`, made in `x`, left in `y`: the key and the sizes are the
    same, and so is what is in memory, at whatever address. -/
structure Undoes {σ : Type} (c' c : GcmCall) (x y z : Kse σ) : Prop where
  bEnDe : c'.bEnDe = DECRYPT
  key : c'.bKeyType = c.bKeyType ∧ c'.usKeyIndex = c.usKeyIndex ∧ c'.bAlg = c.bAlg
  sizes : c'.usIvSize = c.usIvSize ∧ c'.usInputSize = c.usInputSize ∧
    c'.usAuthSize = c.usAuthSize ∧ c'.usTagSize = c.usTagSize
  iv : z.arg c'.pbIv c.usIvSize = x.arg c.pbIv c.usIvSize
  auth : z.arg c'.pbAuth c.usAuthSize = x.arg c.pbAuth c.usAuthSize
  input : z.arg c'.pbInput c.usInputSize = y.arg c.pbOutput c.usInputSize
  tag : z.arg c'.pbTag c.usTagSize = y.arg c.pbTag c.usTagSize

end GcmCall

/-! ### The two directions -/

section RoundTrip

variable {δ : Type} {D : Device δ} (N : Net δ) (indeterminate : δ → Int) {fuel : Nat}
  {Holds : δ → Prop} {aead : Aead} {c : GcmCall} {x : Kse (Frame δ)}

theorem GcmCall.take_waiting {y : Kse (Frame δ)} (hy : Waiting y) : Waiting (c.take y) := by
  simp only [take]
  split
  · exact (hy.copyOut _ _ _).copyOut _ _ _
  · exact hy.copyOut _ _ _

theorem GcmCall.take_trace (c : GcmCall) {σ : Type} (y : Kse σ) :
    ∃ es, (c.take y).trace = y.trace ++ es ∧ requests es = [] ∧ (c.take y).world = y.world := by
  simp only [take]
  split
  · exact ⟨[_, _], List.append_assoc _ _ _, rfl, rfl⟩
  · exact ⟨[_], rfl, rfl, rfl⟩

/-- A call that the device carries out. -/
theorem GcmCall.Accepted.run_frame (hc : c.Accepted) (hx : Waiting x) (hfuel : 51 ≤ fuel)
    {data : List UInt8}
    (hexec : (D.exec x.world.env ((c.fields x).request c.bAlg)).1 = [0x00, 0x00] ++ data)
    (hholds : Holds (D.exec x.world.env ((c.fields x).request c.bAlg)).2)
    (hdata : data.length = c.usOutSize) :
    ∃ y m, c.run (frameWorld D N indeterminate) fuel x = (some KSE_SUCCESS, c.take y) ∧
      y.gabTxRxData = put m 0 ([0x00, 0x00] ++ data) ∧ y.app = x.app ∧
      c.Performed Holds x (c.take y) := by
  have hfits := hc.fits x
  have hlen := GcmFields.length_request (f := c.fields x) c.bAlg
  have hmax : ((c.fields x).request c.bAlg).length ≤ MAX_IO_BUFFER_SIZE := by
    have htag := hfits.usTagSize
    have htag' := hfits.tag
    have hsizes := hfits.data
    simp only [MAX_IO_BUFFER_SIZE, MAX_IO_DATA_SIZE, MAX_IO_CTRL_LEN] at hsizes ⊢
    omega
  have hne : (c.fields x).request c.bAlg ≠ [] := List.ne_nil_of_length_pos (by omega)
  have hresp : (Answer.accepted data).response.length ≤ MAX_IO_BUFFER_SIZE := by
    have hout : c.usOutSize ≤ c.usInputSize + c.usTagSize := by
      unfold usOutSize
      split <;> omega
    have htag := hc.usTagSize
    have hsizes := hc.sizes
    simp only [Answer.response, List.length_append, List.length_cons, List.length_nil, hdata,
      MAX_IO_BUFFER_SIZE, MAX_IO_DATA_SIZE, MAX_IO_CTRL_LEN] at hsizes ⊢
    omega
  have hanswer : (D.exec x.world.env ((c.fields x).request c.bAlg)).1 =
      (Answer.accepted data).response := hexec
  obtain ⟨y, hcall, ⟨m, hgab⟩, hy⟩ := dataCommand_answer D N indeterminate hx hfuel hne hmax
    hanswer hresp (fun usLen => usLen ≠ c.usOutSize + 2) (by rintro _ ⟨⟩; simp [hdata])
    (fun _ x => c.take x)
  obtain ⟨e, htrace, he, -⟩ := hy.trace
  obtain ⟨es, hes, hnone, hworld⟩ := c.take_trace y
  refine ⟨y, m, ?_, hgab, hy.app, ⟨GcmCall.take_waiting hy.waiting, ?_, ?_⟩⟩
  · rw [hc.run_eq _ _ hx.power]
    exact hcall
  · rw [hworld, hy.env]
    exact hholds
  · refine ⟨.exchange e :: es, (c.fields x).request c.bAlg, ?_, ?_,
      GcmFields.decode_request _ hfits⟩
    · rw [hes, htrace, List.append_assoc]
      rfl
    · rw [← List.singleton_append, requests_append, hnone, List.append_nil, ← he]
      rfl

/-- The ciphertext and the tag of a call that encrypts. -/
theorem GcmCall.Accepted.run_encrypt
    (hD : PerformsGcm D Holds aead c.bKeyType c.usKeyIndex c.bAlg) (hfuel : 51 ≤ fuel)
    (hx : Waiting x) (hholds : Holds x.world.env) (hc : c.Accepted) (henc : c.bEnDe = ENCRYPT)
    (hapart : c.pbOutput + c.usInputSize ≤ c.pbTag ∨ c.pbTag + c.usTagSize ≤ c.pbOutput) :
    let result := aead.encrypt (x.arg c.pbIv c.usIvSize) (x.arg c.pbAuth c.usAuthSize)
      c.usTagSize (x.arg c.pbInput c.usInputSize)
    ∃ y, c.run (frameWorld D N indeterminate) fuel x = (some KSE_SUCCESS, y) ∧
      c.Performed Holds x y ∧ y.arg c.pbOutput c.usInputSize = result.1 ∧
      y.arg c.pbTag c.usTagSize = result.2 := by
  intro result
  have houtput : result.1.length = c.usInputSize :=
    (aead.length_output _ _ _ _).trans (length_slice _ _ _)
  have htag : result.2.length = c.usTagSize := aead.length_tag _ _ _ _ hc.usTagSize
  have hexec := hD.encrypt x.world.env _ hholds (hc.gcmRequest x)
  rw [GcmFields.decode_request _ (hc.fits x)] at hexec
  obtain ⟨hresp, hholds'⟩ := hexec rfl rfl henc
  obtain ⟨y, m, hrun, hgab, happ, hperformed⟩ := hc.run_frame N indeterminate hx hfuel hresp
    hholds' (by
      rw [usOutSize, if_pos henc, List.length_append]
      exact congrArg₂ (· + ·) houtput htag)
  have happTake : (c.take y).app = put (put y.app c.pbOutput result.1) c.pbTag result.2 :=
    take_encrypt henc hgab houtput htag
  refine ⟨c.take y, hrun, hperformed, ?_, ?_⟩
  · rw [Kse.arg, happTake, slice_put_disjoint _ (by rw [htag]; exact hapart), ← houtput]
    exact slice_put_same _ _ _
  · rw [Kse.arg, happTake, ← htag]
    exact slice_put_same _ _ _

/-- The plaintext of a call that decrypts. -/
theorem GcmCall.Accepted.run_decrypt
    (hD : PerformsGcm D Holds aead c.bKeyType c.usKeyIndex c.bAlg) (hfuel : 51 ≤ fuel)
    (hx : Waiting x) (hholds : Holds x.world.env) (hc : c.Accepted) (hdec : c.bEnDe = DECRYPT)
    {output : List UInt8} (hlen : output.length = c.usInputSize)
    (hopens : aead.decrypt (x.arg c.pbIv c.usIvSize) (x.arg c.pbAuth c.usAuthSize)
      (x.arg c.pbInput c.usInputSize) (x.arg c.pbTag c.usTagSize) = some output) :
    ∃ y, c.run (frameWorld D N indeterminate) fuel x = (some KSE_SUCCESS, y) ∧
      c.Performed Holds x y ∧ y.arg c.pbOutput c.usInputSize = output := by
  have henc : c.bEnDe ≠ ENCRYPT := by
    rw [hdec]
    decide
  have hexec := hD.decrypt x.world.env _ hholds (hc.gcmRequest x)
  rw [GcmFields.decode_request _ (hc.fits x)] at hexec
  obtain ⟨hresp, hholds'⟩ := hexec rfl rfl hdec output (by
    simp only [fields, if_neg henc]
    exact hopens)
  obtain ⟨y, m, hrun, hgab, happ, hperformed⟩ := hc.run_frame N indeterminate hx hfuel hresp
    hholds' (by rw [usOutSize, if_neg henc, hlen])
  refine ⟨c.take y, hrun, hperformed, ?_⟩
  rw [Kse.arg, take_decrypt hdec hgab hlen, ← hlen]
  exact slice_put_same _ _ _

/-- **Round trip.**  With a device that parses a request by its length fields, for every accepted
    call that encrypts: the call succeeds, and every accepted call that decrypts its output and
    tag, from wherever they and the IV and the authentication data are then in memory, succeeds
    and gives the plaintext.  The fields that the device decodes are those of the calls. -/
theorem kcmvpGcm_roundTrip (hD : PerformsGcm D Holds aead c.bKeyType c.usKeyIndex c.bAlg)
    (hfuel : 51 ≤ fuel) (hx : Waiting x) (hholds : Holds x.world.env) (hc : c.Accepted)
    (henc : c.bEnDe = ENCRYPT)
    (hapart : c.pbOutput + c.usInputSize ≤ c.pbTag ∨ c.pbTag + c.usTagSize ≤ c.pbOutput) :
    let W := frameWorld D N indeterminate
    ∃ y, c.run W fuel x = (some KSE_SUCCESS, y) ∧ c.Performed Holds x y ∧
      ∀ (c' : GcmCall) (z : Kse (Frame δ)), c'.Accepted → c'.Undoes c x y z → Waiting z →
        Holds z.world.env →
        ∃ w, c'.run W fuel z = (some KSE_SUCCESS, w) ∧ c'.Performed Holds z w ∧
          w.arg c'.pbOutput c.usInputSize = x.arg c.pbInput c.usInputSize := by
  obtain ⟨y, hrun, hperformed, houtput, htag⟩ :=
    hc.run_encrypt N indeterminate hD hfuel hx hholds henc hapart
  refine ⟨y, hrun, hperformed, ?_⟩
  intro c' z hc' hundoes hz hholdsz
  obtain ⟨hdec, ⟨hkeyType, hkeyIndex, halg⟩, ⟨hivSize, hinputSize, hauthSize, htagSize⟩, hiv,
    hauth, hinput, htag'⟩ := hundoes
  rw [← hkeyType, ← hkeyIndex, ← halg] at hD
  have hopens := aead.decrypt_encrypt (x.arg c.pbIv c.usIvSize) (x.arg c.pbAuth c.usAuthSize)
    c.usTagSize (x.arg c.pbInput c.usInputSize) hc.usTagSize
  rw [← houtput, ← htag, ← hinput, ← htag', ← hiv, ← hauth] at hopens
  have hlen : (x.arg c.pbInput c.usInputSize).length = c'.usInputSize :=
    (length_slice _ _ _).trans hinputSize.symm
  obtain ⟨w, hw⟩ := hc'.run_decrypt N indeterminate hD hfuel hz hholdsz hdec hlen
    (by rw [hivSize, hinputSize, hauthSize, htagSize]; exact hopens)
  rw [hinputSize] at hw
  exact ⟨w, hw⟩

end RoundTrip

/-- Its tag is what the authenticated text begins with. -/
def prefixTag : Aead where
  encrypt _ auth usTagSize input :=
    (input.reverse, (auth ++ input ++ List.replicate 16 0).take usTagSize)
  decrypt _ auth input tag :=
    if (auth ++ input.reverse ++ List.replicate 16 0).take tag.length = tag then some input.reverse
    else none
  length_output := by simp
  length_tag := by
    intro _ auth usTagSize input h
    rw [List.length_take, List.length_append, List.length_replicate]
    omega
  decrypt_encrypt := by
    intro _ auth usTagSize input _
    simp only [List.reverse_reverse]
    rw [if_pos (by rw [List.take_eq_take_iff, List.length_take]; omega)]

/-- A device that performs GCM with any ARIA key. -/
def gcmDevice (aead : Aead) : Device Unit where
  exec _ request :=
    let f := GcmFields.decode request
    if request.take 2 = [0x02, KCMVP_ARIA ||| 0x07] then
      if f.bEnDe = ENCRYPT then
        let result := aead.encrypt f.iv f.auth f.usTagSize f.input
        ([0x00, 0x00] ++ (result.1 ++ result.2), ())
      else
        match aead.decrypt f.iv f.auth f.input f.tag with
        | some output => ([0x00, 0x00] ++ output, ())
        | none => ([0xFF, 0xFE], ())
    else ([0xFF, 0xFF], ())
  fill _ := fun _ => 0
  behind _ := fun _ => 0

theorem gcmDevice_performs (aead : Aead) (bKeyType : UInt8) (usKeyIndex : Nat) :
    PerformsGcm (gcmDevice aead) (fun _ => True) aead bKeyType usKeyIndex KCMVP_ARIA := by
  constructor
  · intro env request _ hrequest f _ _ henc
    refine ⟨?_, trivial⟩
    simp only [gcmDevice, if_pos hrequest.command]
    rw [if_pos henc]
  · intro env request _ hrequest f _ _ hdec output hopens
    refine ⟨?_, trivial⟩
    have hne : f.bEnDe ≠ ENCRYPT := by
      rw [hdec]
      decide
    simp only [gcmDevice, if_pos hrequest.command]
    rw [if_neg hne, hopens]

/-- A request that fills the buffer. -/
theorem kcmvpGcm_roundTrip_full :
    let W := frameWorld (gcmDevice prefixTag) silentNet fun _ => 0
    let c : GcmCall :=
      ⟨5000, 100, 2900, KCMVP_ARIA128_KEY, 0, 16, 12, 32, 32, 8000, 16, ENCRYPT, KCMVP_ARIA⟩
    let c' : GcmCall :=
      ⟨9000, 5000, 2900, KCMVP_ARIA128_KEY, 0, 16, 12, 32, 32, 8000, 16, DECRYPT, KCMVP_ARIA⟩
    let x := poweredOn (fun i => UInt8.ofNat i) (Frame.idle ())
    ∃ y w, c.run W 51 x = (some KSE_SUCCESS, y) ∧
      c'.run W 51 { y with app := put (put x.app 5000 (y.arg 5000 2900)) 8000 (y.arg 8000 16) } =
        (some KSE_SUCCESS, w) ∧ w.arg 9000 2900 = x.arg 100 2900 := by
  intro W c c' x
  have hc : c.Accepted := by constructor <;> decide
  have hc' : c'.Accepted := by constructor <;> decide
  obtain ⟨y, hrun, hy, hback⟩ := kcmvpGcm_roundTrip silentNet (fun _ => 0)
    (gcmDevice_performs prefixTag _ _) (Nat.le_refl 51) (waiting_poweredOn _ _) trivial hc rfl
    (by decide)
  have hlen : ∀ pb n, (y.arg pb n).length = n := fun _ _ => length_slice _ _ _
  have hbelow : ∀ pb n, pb + n ≤ 5000 →
      slice (put (put x.app 5000 (y.arg 5000 2900)) 8000 (y.arg 8000 16)) pb n =
        slice x.app pb n := by
    intro pb n h
    rw [slice_put_disjoint _ (by omega), slice_put_disjoint _ (by omega)]
  have hundoes : c'.Undoes c x y
      { y with app := put (put x.app 5000 (y.arg 5000 2900)) 8000 (y.arg 8000 16) } := by
    refine ⟨rfl, ⟨rfl, rfl, rfl⟩, ⟨rfl, rfl, rfl, rfl⟩, hbelow 16 12 (by omega),
      hbelow 32 32 (by omega), ?_, ?_⟩
    · have hsame := slice_put_same x.app 5000 (y.arg 5000 2900)
      rw [hlen] at hsame
      exact (slice_put_disjoint _ (Or.inl (by decide : 5000 + 2900 ≤ 8000))).trans hsame
    · have hsame := slice_put_same (put x.app 5000 (y.arg 5000 2900)) 8000 (y.arg 8000 16)
      rw [hlen] at hsame
      exact hsame
  obtain ⟨w, hw, -, hplain⟩ := hback c' _ hc' hundoes (hy.waiting.withApp _) hy.holds
  exact ⟨y, w, hrun, hw, hplain⟩

end MavlinkDim
