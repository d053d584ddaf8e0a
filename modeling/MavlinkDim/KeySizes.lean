import MavlinkDim.KeyRequests

/-!
# The size of a key

`_kcmvpPutKey` accepts the sizes that a key of its type may have; `_kcmvpGetKey`
tests the length of the reply against the same table, but for the range of an
HMAC key.  `keySizes_agree` says when the two describe the same sizes, and that a
key that was put is got back.
-/

namespace MavlinkDim

open ByteMemory

/-! ### The reported size -/

section Sizes

variable {σ : Type}

theorem Kse.store16_load16 (x : Kse σ) (pus : Nat) {us : Nat} (h : us < 65536) :
    (x.store16 pus us).load16 pus = us := by
  have hlo : (x.store16 pus us).app pus = loByte us := by
    show put x.app pus [loByte us, hiByte us] pus = loByte us
    rw [put_in _ (Nat.le_refl pus) (by simp)]
    simp
  have hhi : (x.store16 pus us).app (pus + 1) = hiByte us := by
    show put x.app pus [loByte us, hiByte us] (pus + 1) = hiByte us
    rw [put_in _ (Nat.le_succ pus) (by simp)]
    simp
  rw [Kse.load16, hlo, hhi, word_hiByte_loByte h]

theorem uint16_lt (n : Int) : uint16 n < 65536 := by
  unfold uint16
  omega

theorem takeSized_load16 (pb pusSize usLen : Nat) (x : Kse σ) :
    (x.takeSized pb pusSize usLen).load16 pusSize = uint16 (usLen - 2) := by
  rw [Kse.takeSized]
  exact Kse.store16_load16 _ pusSize (uint16_lt _)

/-- As much of the data is copied as there is room for, and the size is that of all of them. -/
theorem takeSized_app {x : Kse σ} {m : Bytes} {data : List UInt8}
    (hgab : x.gabTxRxData = put m 0 ([0x00, 0x00] ++ data)) (hmax : data.length < 65536)
    (pb pusSize : Nat) :
    (x.takeSized pb pusSize (data.length + 2)).app =
      put (if pb ≠ NULL_PTR then put x.app pb (data.take (x.load16 pusSize)) else x.app) pusSize
        [loByte data.length, hiByte data.length] := by
  have hsize : uint16 ((data.length + 2 : Nat) - 2) = data.length := by
    unfold uint16
    omega
  have hread : slice x.gabTxRxData 2 data.length = data := by
    rw [hgab]
    exact slice_put_front m [0x00, 0x00] data
  have hcopied : slice x.gabTxRxData 2 (if data.length < x.load16 pusSize then data.length
      else x.load16 pusSize) = data.take (x.load16 pusSize) := by
    split
    · rename_i hlarge
      rw [hread, List.take_of_length_le (Nat.le_of_lt hlarge)]
    · rename_i hsmall
      rw [← take_slice _ _ (Nat.not_lt.mp hsmall), hread]
  simp only [Kse.takeSized, hsize]
  split
  · rw [Kse.store16, Kse.copyOut_app, hcopied]
  · rfl

/-- An HMAC key may have any size. -/
theorem not_wrongKeySize_hmac (extra usSize : Nat) :
    ¬WrongKeySize KCMVP_HMAC_KEY extra usSize := by
  unfold WrongKeySize
  rintro (⟨h | h, -⟩ | ⟨h | h, -⟩ | ⟨h | h | h | h, -⟩ | ⟨h | h, -⟩)
  all_goals
    revert h
    decide

/-- The two tables are the same. -/
theorem wrongKeySize_add (bKeyType : UInt8) (usSize extra : Nat) :
    WrongKeySize bKeyType extra (usSize + extra) ↔ WrongKeySize bKeyType 0 usSize := by
  simp only [WrongKeySize, ne_eq, Nat.add_right_cancel_iff, Nat.add_zero]

variable (W : World σ) (fuel : Nat)

/-- The size that `_kcmvpGetKey` reports is one that `_kcmvpPutKey` accepts for the type. -/
def SizeAgrees (pbKey pusKeySize : Nat) (bKeyType : UInt8) (usKeyIndex : Nat) (x : Kse σ) :
    Prop :=
  let r := kcmvpGetKey W fuel pbKey pusKeySize bKeyType usKeyIndex x
  r.1 = some KSE_SUCCESS →
    ∀ pb ≠ NULL_PTR, (KeyCommand.put bKeyType usKeyIndex pb (r.2.load16 pusKeySize)).Accepted

/-- If the device answers the request for the key with success, the answer has at most 255
    bytes behind the status. -/
def ReplyFits (bKeyType : UInt8) (usKeyIndex : Nat) (x : Kse σ) : Prop :=
  let request := [0x02, 0x02, bKeyType] ++ bytes16 usKeyIndex
  ∀ e w, Exchange.Of W fuel e w request.length (x.store 0 request) →
    e.sRv = some KSE_SUCCESS → status e.gabTxRxData = KSE_SUCCESS → 2 ≤ e.usLen ∧ e.usLen ≤ 257

variable {pbKey pusKeySize : Nat} {bKeyType : UInt8} {usKeyIndex : Nat} {x : Kse σ}

/-- The test of the length of the reply. -/
def KeyWrongLen (bKeyType : UInt8) (usLen : Nat) : Prop :=
  WrongKeySize bKeyType 2 usLen ∨ bKeyType ≠ KCMVP_HMAC_KEY ∧ (usLen < 2 ∨ usLen > 257)

instance (bKeyType : UInt8) : DecidablePred (KeyWrongLen bKeyType) := by
  intro usLen
  unfold KeyWrongLen
  infer_instance

theorem kcmvpGetKey_accepted (hpower : x.gusKsePower = .on)
    (hc : (KeyCommand.get pbKey pusKeySize bKeyType usKeyIndex).Accepted) :
    kcmvpGetKey W fuel pbKey pusKeySize bKeyType usKeyIndex x =
      dataCommand W fuel ([0x02, 0x02, bKeyType] ++ bytes16 usKeyIndex) (KeyWrongLen bKeyType)
        (Kse.takeSized pbKey pusKeySize) x := by
  obtain ⟨hsize, htype, hindex⟩ := hc
  rw [kcmvpGetKey, checked, if_neg (not_not.mpr hpower), if_neg]
  · rfl
  · simp only [not_or, not_not, Nat.not_le, ge_iff_le]
    exact ⟨hsize, htype, hindex⟩

theorem kcmvpGetKey_rejected
    (h : ¬(x.gusKsePower = .on ∧
      (KeyCommand.get pbKey pusKeySize bKeyType usKeyIndex).Accepted)) :
    (kcmvpGetKey W fuel pbKey pusKeySize bKeyType usKeyIndex x).1 ≠ some KSE_SUCCESS := by
  by_cases hpower : x.gusKsePower = .on
  · rw [kcmvpGetKey, checked, if_neg (not_not.mpr hpower), if_pos]
    · simp
    · by_contra hright
      simp only [not_or, not_not, Nat.not_le, ge_iff_le] at hright
      exact h ⟨hpower, hright⟩
  · rw [kcmvpGetKey, checked, if_pos hpower]
    simp

/-- What `_kcmvpPutKey` asks of the size. -/
theorem put_accepted_iff (htype : bKeyType ∈ storedKeyTypes)
    (hindex : usKeyIndex < MAX_KCMVP_KEY_COUNT) {usKeySize : Nat} :
    (∀ pb ≠ NULL_PTR, (KeyCommand.put bKeyType usKeyIndex pb usKeySize).Accepted) ↔
      ¬WrongKeySize bKeyType 0 usKeySize ∧ (bKeyType = KCMVP_HMAC_KEY → usKeySize ≤ 255) := by
  constructor
  · intro h
    exact (h 1 (by decide)).2.2.2
  · rintro h pb hpb
    exact ⟨htype, hindex, hpb, h⟩

/-- A length that passes the test is that of a size in the table; the range of an HMAC key is
    left out. -/
theorem right_keyLen_iff {usLen : Nat} (hmax : usLen ≤ MAX_IO_BUFFER_SIZE)
    (hright : ¬KeyWrongLen bKeyType usLen) :
    (¬WrongKeySize bKeyType 0 (uint16 (usLen - 2)) ∧
      (bKeyType = KCMVP_HMAC_KEY → uint16 (usLen - 2) ≤ 255)) ↔
      (bKeyType = KCMVP_HMAC_KEY → 2 ≤ usLen ∧ usLen ≤ 257) := by
  simp only [KeyWrongLen, not_or, not_and, not_lt] at hright
  obtain ⟨htable, hrange⟩ := hright
  simp only [MAX_IO_BUFFER_SIZE, MAX_IO_DATA_SIZE, MAX_IO_CTRL_LEN] at hmax
  by_cases hhmac : bKeyType = KCMVP_HMAC_KEY
  · have hsize : uint16 (usLen - 2) ≤ 255 ↔ 2 ≤ usLen ∧ usLen ≤ 257 := by
      unfold uint16
      omega
    subst hhmac
    simp only [not_wrongKeySize_hmac, not_false_eq_true, true_and, true_imp_iff, hsize]
  · have hlen := hrange hhmac
    have hsize : uint16 (usLen - 2) = usLen - 2 := by
      unfold uint16
      omega
    refine iff_of_true ⟨?_, fun h => absurd h hhmac⟩ fun h => absurd h hhmac
    rwa [hsize, ← wrongKeySize_add bKeyType _ 2, Nat.sub_add_cancel (by omega)]

theorem sizeAgrees_iff (pbKey pusKeySize : Nat) (bKeyType : UInt8) (usKeyIndex : Nat)
    (x : Kse σ) :
    SizeAgrees W fuel pbKey pusKeySize bKeyType usKeyIndex x ↔
      (x.gusKsePower = .on → (KeyCommand.get pbKey pusKeySize bKeyType usKeyIndex).Accepted →
        bKeyType = KCMVP_HMAC_KEY → ReplyFits W fuel bKeyType usKeyIndex x) := by
  by_cases hc : x.gusKsePower = .on ∧
    (KeyCommand.get pbKey pusKeySize bKeyType usKeyIndex).Accepted
  · obtain ⟨hpower, haccepted⟩ := hc
    obtain ⟨-, htype, hindex⟩ := id haccepted
    simp only [SizeAgrees, hpower, haccepted, true_imp_iff, kcmvpGetKey_accepted W fuel,
      put_accepted_iff htype hindex]
    obtain ⟨e, w, hof⟩ := exists_exchange W fuel ([0x02, 0x02, bKeyType] ++
      bytes16 usKeyIndex).length (x.store 0 ([0x02, 0x02, bKeyType] ++ bytes16 usKeyIndex))
    have hfits : ReplyFits W fuel bKeyType usKeyIndex x ↔
        (e.sRv = some KSE_SUCCESS → status e.gabTxRxData = KSE_SUCCESS →
          2 ≤ e.usLen ∧ e.usLen ≤ 257) := by
      constructor
      · intro h
        exact h e w hof
      · intro h e' w' hof'
        rwa [(hof'.unique W fuel hof).1]
    rw [hfits]
    rcases dataCommand_exchange (KeyWrongLen bKeyType) (Kse.takeSized pbKey pusKeySize) hof with
      ⟨⟨hok, hstatus, hright⟩, hr⟩ | ⟨hfailed, sRv, hcode, hr⟩
    · rw [hr, takeSized_load16]
      simp only [true_imp_iff, hok, hstatus, right_keyLen_iff (hof.usLen_le hok) hright]
    · rw [hr]
      refine iff_of_true (fun hok => absurd hok hcode) ?_
      -- no length of a reply with an HMAC key is rejected
      intro hhmac hok hstatus
      refine absurd ⟨hok, hstatus, ?_⟩ hfailed
      rintro (htable | ⟨hne, -⟩)
      · exact not_wrongKeySize_hmac 2 e.usLen (hhmac ▸ htable)
      · exact hne hhmac
  · refine iff_of_true ?_ ?_
    · intro hok
      exact absurd hok (kcmvpGetKey_rejected W fuel hc)
    · intro hpower haccepted
      exact absurd ⟨hpower, haccepted⟩ hc

end Sizes

/-! ### Put and get -/

/-- The device stores keys under their type and index; it takes all of this from the bytes of the
    request. -/
structure StoresKeys {δ : Type} (D : Device δ)
    (stored : δ → UInt8 → Nat → Option (List UInt8)) : Prop where
  put : ∀ env request, let f := KeyRequest.decode request
    f.opcode = [0x02, 0x01] → (∀ usKeySize, f.usKeySize = some usKeySize →
      f.key.length = usKeySize) →
    (D.exec env request).1 = [0x00, 0x00] ∧
      stored (D.exec env request).2 f.bKeyType f.usKeyIndex = some f.key
  get : ∀ env request key, let f := KeyRequest.decode request
    f.opcode = [0x02, 0x02] → stored env f.bKeyType f.usKeyIndex = some key →
    (D.exec env request).1 = [0x00, 0x00] ++ key

section RoundTrip

variable {δ : Type} {D : Device δ} (N : Net δ) (indeterminate : δ → Int) {fuel : Nat}
  {stored : δ → UInt8 → Nat → Option (List UInt8)} {bKeyType : UInt8} {usKeyIndex : Nat}
  {x : Kse (Frame δ)}

/-- The sizes that `_kcmvpPutKey` accepts are small. -/
theorem accepted_keySize_le {pbKey usKeySize : Nat}
    (hc : (KeyCommand.put bKeyType usKeyIndex pbKey usKeySize).Accepted) : usKeySize ≤ 255 := by
  obtain ⟨htype, -, -, hright, hhmac⟩ := hc
  simp only [WrongKeySize, not_or, not_and, not_not, Nat.add_zero] at hright
  simp only [storedKeyTypes, symmetricKeyTypes, List.mem_append, List.mem_cons,
    List.not_mem_nil, or_false] at htype
  grind

/-- The size in the request of a put is that of its key. -/
theorem put_usKeySize {σ : Type} (bKeyType : UInt8) (usKeyIndex pbKey : Nat) {usKeySize n : Nat}
    {x : Kse σ} (hn : ((KeyCommand.put bKeyType usKeyIndex pbKey usKeySize).arguments x).usKeySize =
      some n) : (x.arg pbKey usKeySize).length = n := by
  simp only [KeyCommand.arguments] at hn
  split at hn
  · exact (length_slice _ _ _).trans (Option.some.inj hn)
  · cases hn

/-- An accepted put that the device carries out. -/
theorem kcmvpPutKey_requested (hfuel : 51 ≤ fuel) (hx : Waiting x) {pbKey usKeySize : Nat}
    (hc : (KeyCommand.put bKeyType usKeyIndex pbKey usKeySize).Accepted)
    (hexec : (D.exec x.world.env
      ((KeyCommand.put bKeyType usKeyIndex pbKey usKeySize).request x)).1 = [0x00, 0x00]) :
    ∃ y, kcmvpPutKey (frameWorld D N indeterminate) fuel bKeyType usKeyIndex pbKey usKeySize x =
        (some KSE_SUCCESS, y) ∧
      Requested D ((KeyCommand.put bKeyType usKeyIndex pbKey usKeySize).request x) x y := by
  have hlen : (x.arg pbKey usKeySize).length = usKeySize := length_slice _ _ _
  have hmax := accepted_keySize_le hc
  obtain ⟨y, hcall, hy⟩ := statusCommand_frame D N indeterminate hx hfuel
    (by simp [KeyCommand.request]) (by
      simp only [KeyCommand.request, List.length_append, hlen, MAX_IO_BUFFER_SIZE,
        MAX_IO_DATA_SIZE, MAX_IO_CTRL_LEN]
      split <;> simp <;> omega) hexec
  refine ⟨y, ?_, hy⟩
  obtain ⟨htype, hindex, hkey, hright, hsize⟩ := hc
  rw [kcmvpPutKey, checked, if_neg (not_not.mpr hx.power), if_neg]
  · exact hcall
  · simp only [not_or, not_not, not_and, Nat.not_le, Nat.not_lt, ge_iff_le, gt_iff_lt]
    exact ⟨htype, hindex, hkey, hright, hsize⟩

/-- An accepted get that the device answers. -/
theorem kcmvpGetKey_answered (hfuel : 51 ≤ fuel) (hx : Waiting x) {pbKey pusKeySize : Nat}
    (hc : (KeyCommand.get pbKey pusKeySize bKeyType usKeyIndex).Accepted) {answer : Answer}
    (hexec : (D.exec x.world.env ((KeyCommand.get pbKey pusKeySize bKeyType usKeyIndex).request
      x)).1 = answer.response)
    (hkey : ∀ key, answer = .accepted key →
      ¬KeyWrongLen bKeyType (key.length + 2) ∧ key.length ≤ 255) :
    ∃ y, kcmvpGetKey (frameWorld D N indeterminate) fuel pbKey pusKeySize bKeyType usKeyIndex x =
        (some answer.code, answer.takenBy (Kse.takeSized pbKey pusKeySize) y) ∧
      (∃ m, y.gabTxRxData = put m 0 answer.response) ∧
      Requested D ((KeyCommand.get pbKey pusKeySize bKeyType usKeyIndex).request x) x y := by
  have hresp : answer.response.length ≤ MAX_IO_BUFFER_SIZE := by
    cases answer with
    | accepted key =>
      obtain ⟨-, hmax⟩ := hkey key rfl
      simp only [Answer.response, List.length_append, List.length_cons, List.length_nil,
        MAX_IO_BUFFER_SIZE, MAX_IO_DATA_SIZE, MAX_IO_CTRL_LEN]
      omega
    | refused hi lo hne => simp [Answer.response]
  obtain ⟨y, hcall, hy⟩ := dataCommand_answer D N indeterminate hx hfuel
    (by simp [KeyCommand.request]) (by simp [KeyCommand.request]) hexec hresp
    (KeyWrongLen bKeyType) (fun key h => (hkey key h).1) (Kse.takeSized pbKey pusKeySize)
  refine ⟨y, ?_, hy⟩
  rw [kcmvpGetKey_accepted _ _ hx.power hc]
  exact hcall

theorem kcmvpPutKey_stores (hD : StoresKeys D stored) (hfuel : 51 ≤ fuel) (hx : Waiting x)
    {pbKey usKeySize : Nat}
    (hc : (KeyCommand.put bKeyType usKeyIndex pbKey usKeySize).Accepted) :
    ∃ y, kcmvpPutKey (frameWorld D N indeterminate) fuel bKeyType usKeyIndex pbKey usKeySize x =
        (some KSE_SUCCESS, y) ∧ Waiting y ∧
      stored y.world.env bKeyType usKeyIndex = some (x.arg pbKey usKeySize) := by
  have hput := hD.put x.world.env ((KeyCommand.put bKeyType usKeyIndex pbKey usKeySize).request x)
  rw [hc.decode_request.mpr trivial] at hput
  obtain ⟨hexec, hstored⟩ := hput rfl fun _ => put_usKeySize bKeyType usKeyIndex pbKey
  obtain ⟨y, hcall, hy⟩ := kcmvpPutKey_requested N indeterminate hfuel hx hc hexec
  refine ⟨y, hcall, hy.waiting, ?_⟩
  rw [hy.env]
  exact hstored

theorem kcmvpGetKey_stored (hD : StoresKeys D stored) (hfuel : 51 ≤ fuel) (hx : Waiting x)
    {pbKey pusKeySize : Nat}
    (hc : (KeyCommand.get pbKey pusKeySize bKeyType usKeyIndex).Accepted)
    (hpbKey : pbKey ≠ NULL_PTR) {key : List UInt8}
    (hkey : stored x.world.env bKeyType usKeyIndex = some key)
    (hright : ¬KeyWrongLen bKeyType (key.length + 2)) (hmax : key.length ≤ 255)
    (hlarge : key.length ≤ x.load16 pusKeySize)
    (hapart : pusKeySize + 2 ≤ pbKey ∨ pbKey + key.length ≤ pusKeySize) :
    ∃ y, kcmvpGetKey (frameWorld D N indeterminate) fuel pbKey pusKeySize bKeyType usKeyIndex x =
        (some KSE_SUCCESS, y) ∧ y.arg pbKey key.length = key ∧
      y.load16 pusKeySize = key.length := by
  have hget := hD.get x.world.env
    ((KeyCommand.get pbKey pusKeySize bKeyType usKeyIndex).request x) key
  rw [hc.decode_request.mpr trivial] at hget
  have hanswer : (D.exec x.world.env ((KeyCommand.get pbKey pusKeySize bKeyType usKeyIndex).request
      x)).1 = (Answer.accepted key).response := hget rfl hkey
  obtain ⟨y, hcall, ⟨m, hgab⟩, hy⟩ := kcmvpGetKey_answered N indeterminate hfuel hx hc hanswer
    (by rintro _ ⟨⟩; exact ⟨hright, hmax⟩)
  have hload : y.load16 pusKeySize = x.load16 pusKeySize := by rw [Kse.load16, hy.app, Kse.load16]
  refine ⟨y.takeSized pbKey pusKeySize (key.length + 2), hcall, ?_, ?_⟩
  · rw [Kse.arg, takeSized_app hgab (by omega), if_pos hpbKey, hload,
      List.take_of_length_le hlarge, slice_put_disjoint _ (by simpa [or_comm] using hapart),
      slice_put_same]
  · rw [takeSized_load16]
    unfold uint16
    omega

end RoundTrip

/-- **When the two agree.**  For every type, index and reply, `_kcmvpGetKey` reports a size that
    `_kcmvpPutKey` accepts exactly when it is not an HMAC key whose reply has a length out of
    range.  With a device that stores keys, a key that was put is got back, unchanged and with its
    size, for as long as the device has it stored. -/
theorem keySizes_agree {σ : Type} (W : World σ) (fuel pbKey pusKeySize : Nat) (bKeyType : UInt8)
    (usKeyIndex : Nat) (x : Kse σ) :
    (SizeAgrees W fuel pbKey pusKeySize bKeyType usKeyIndex x ↔
      (x.gusKsePower = .on → (KeyCommand.get pbKey pusKeySize bKeyType usKeyIndex).Accepted →
        bKeyType = KCMVP_HMAC_KEY → ReplyFits W fuel bKeyType usKeyIndex x)) ∧
    ∀ (δ : Type) (D : Device δ) (N : Net δ) (indeterminate : δ → Int) (fuel : Nat)
      (stored : δ → UInt8 → Nat → Option (List UInt8)), StoresKeys D stored → 51 ≤ fuel →
      ∀ (bKeyType : UInt8) (usKeyIndex pbKey usKeySize : Nat) (x : Kse (Frame δ)),
        (KeyCommand.put bKeyType usKeyIndex pbKey usKeySize).Accepted → Waiting x →
        let W := frameWorld D N indeterminate
        ∃ y, kcmvpPutKey W fuel bKeyType usKeyIndex pbKey usKeySize x = (some KSE_SUCCESS, y) ∧
          Waiting y ∧ ∀ (z : Kse (Frame δ)) (pbKey' pusKeySize : Nat), Waiting z →
            stored z.world.env bKeyType usKeyIndex = stored y.world.env bKeyType usKeyIndex →
            pbKey' ≠ NULL_PTR → pusKeySize ≠ NULL_PTR → usKeySize ≤ z.load16 pusKeySize →
            (pusKeySize + 2 ≤ pbKey' ∨ pbKey' + usKeySize ≤ pusKeySize) →
            ∃ w, kcmvpGetKey W fuel pbKey' pusKeySize bKeyType usKeyIndex z =
                (some KSE_SUCCESS, w) ∧
              w.arg pbKey' usKeySize = x.arg pbKey usKeySize ∧
              w.load16 pusKeySize = usKeySize := by
  constructor
  · exact sizeAgrees_iff W fuel pbKey pusKeySize bKeyType usKeyIndex x
  · intro δ D N indeterminate fuel stored hD hfuel bKeyType usKeyIndex pbKey usKeySize x hc hx
    obtain ⟨y, hput, hy, hstored⟩ := kcmvpPutKey_stores N indeterminate hD hfuel hx hc
    refine ⟨y, hput, hy, ?_⟩
    intro z pbKey' pusKeySize hz hkept hpbKey hsize hlarge hapart
    have hmax := accepted_keySize_le hc
    have hlen : (x.arg pbKey usKeySize).length = usKeySize := length_slice _ _ _
    obtain ⟨htype, hindex, -, hright, -⟩ := hc
    generalize x.arg pbKey usKeySize = key at *
    subst hlen
    have hrightLen : ¬KeyWrongLen bKeyType (key.length + 2) := by
      rintro (htable | ⟨-, hrange⟩)
      · exact hright ((wrongKeySize_add bKeyType key.length 2).mp htable)
      · omega
    exact kcmvpGetKey_stored N indeterminate hD hfuel hz ⟨hsize, htype, hindex⟩ hpbKey
      (hkept.trans hstored) hrightLen hmax hlarge hapart

/-- A device whose state is the keys it stores. -/
def keyDevice : Device (UInt8 → Nat → Option (List UInt8)) where
  exec keys request :=
    let f := KeyRequest.decode request
    if f.opcode = [0x02, 0x01] then
      ([0x00, 0x00], Function.update keys f.bKeyType
        (Function.update (keys f.bKeyType) f.usKeyIndex (some f.key)))
    else if f.opcode = [0x02, 0x02] then
      match keys f.bKeyType f.usKeyIndex with
      | some key => ([0x00, 0x00] ++ key, keys)
      | none => ([0xFF, 0xFE], keys)
    else ([0xFF, 0xFF], keys)
  fill _ := fun _ => 0
  behind _ := fun _ => 0

theorem keyDevice_stores : StoresKeys keyDevice id := by
  constructor
  · intro keys request f hopcode _
    simp only [keyDevice]
    rw [if_pos hopcode]
    exact ⟨rfl, by simp [f]⟩
  · intro keys request key f hopcode hkey
    have hne : f.opcode ≠ [0x02, 0x01] := by
      rw [hopcode]
      decide
    simp only [id_eq] at hkey
    simp only [keyDevice]
    rw [if_neg hne, if_pos hopcode, hkey]

/-- An HMAC key of 20 bytes. -/
theorem keySizes_agree_hmac :
    let W := frameWorld keyDevice silentNet fun _ => 0
    let x := poweredOn (fun _ => 0xFF) (Frame.idle fun _ _ => none)
    ∃ y w, kcmvpPutKey W 51 KCMVP_HMAC_KEY 3 100 20 x = (some KSE_SUCCESS, y) ∧
      kcmvpGetKey W 51 200 10 KCMVP_HMAC_KEY 3 { y with app := x.app } = (some KSE_SUCCESS, w) ∧
      w.arg 200 20 = x.arg 100 20 ∧ w.load16 10 = 20 := by
  intro W x
  obtain ⟨-, hround⟩ := keySizes_agree W 51 200 10 KCMVP_HMAC_KEY 3 x
  obtain ⟨y, hput, hy, hget⟩ := hround _ keyDevice silentNet (fun _ => 0) 51 id
    keyDevice_stores (Nat.le_refl 51) KCMVP_HMAC_KEY 3 100 20 x
    ⟨by decide, by decide, by decide, by decide, by decide⟩ (waiting_poweredOn _ _)
  have hlarge : 20 ≤ word 0xFF 0xFF := by decide
  obtain ⟨w, hw⟩ := hget { y with app := x.app } 200 10 (hy.withApp x.app) rfl (by decide)
    (by decide) hlarge (by decide)
  exact ⟨y, w, hput, hw⟩

/-- The device answers the request for an HMAC key with 300 bytes, all zero. -/
def longReply : Kse Script :=
  poweredOn (fun _ => 0) ⟨Report.ofList [REP_FIRST_BLOCK, 0x06, 0, 60] ::
    [1, 2, 3].map (fun k => Report.ofList [REP_MIDDLE_BLOCK, 0x06, k, 60]) ++
    [Report.ofList [REP_LAST_BLOCK, 0x06, 4, 60]], [], []⟩

/-- `_kcmvpGetKey` reports a key of 298 bytes, which `_kcmvpPutKey` rejects. -/
theorem keySizes_agree_not :
    let r := kcmvpGetKey scriptedWorld 5 100 10 KCMVP_HMAC_KEY 0 longReply
    r.1 = some KSE_SUCCESS ∧ r.2.load16 10 = 298 ∧
      (kcmvpPutKey scriptedWorld 5 KCMVP_HMAC_KEY 0 100 298 longReply).1 =
        some KSE_FAIL_WRONG_INPUT ∧
      ¬SizeAgrees scriptedWorld 5 100 10 KCMVP_HMAC_KEY 0 longReply := by
  intro r
  have hok : r.1 = some KSE_SUCCESS := by decide +kernel
  have hsize : r.2.load16 10 = 298 := by decide +kernel
  refine ⟨hok, hsize, by decide +kernel, ?_⟩
  intro hagrees
  obtain ⟨-, -, -, -, hmax⟩ := hagrees hok 100 (by decide)
  have hle := hmax rfl
  rw [hsize] at hle
  omega

end MavlinkDim
