import MavlinkDim.DeviceCommands

/-!
# Requests for keys

The four commands for keys share a layout: the command, the key type, the key
index, the size where the key has one, and the key where it goes to the device.
`keyCommand_carries_iff` says which calls the device is told all about.
-/

namespace MavlinkDim

open ByteMemory

/-! ### Layout -/

/-- What a request for a key says. -/
structure KeyRequest where
  opcode : List UInt8
  bKeyType : UInt8
  usKeyIndex : Nat
  usKeySize : Option Nat
  key : List UInt8
deriving DecidableEq, Repr

namespace KeyRequest

/-- `_kcmvpGenerateKey` and `_kcmvpPutKey` give the size of an HMAC key. -/
def Sized (opcode : List UInt8) (bKeyType : UInt8) : Prop :=
  (opcode = [0x02, 0x00] ∨ opcode = [0x02, 0x01]) ∧ bKeyType = KCMVP_HMAC_KEY

instance (opcode : List UInt8) (bKeyType : UInt8) : Decidable (Sized opcode bKeyType) := by
  unfold Sized
  infer_instance

/-- A request as the device reads it. -/
def decode (request : List UInt8) : KeyRequest :=
  let opcode := request.take 2
  let bKeyType := request.getD 2 0
  { opcode
    bKeyType
    usKeyIndex := requestField request 3
    usKeySize := if Sized opcode bKeyType then some (requestField request 5) else none
    key := request.drop (if Sized opcode bKeyType then 7 else 5) }

/-- A request without a size. -/
theorem decode_unsized {bCmd bKeyType : UInt8} {usKeyIndex : Nat} (hindex : usKeyIndex < 65536)
    (h : ¬Sized [0x02, bCmd] bKeyType) (key : List UInt8) :
    decode ([0x02, bCmd, bKeyType] ++ bytes16 usKeyIndex ++ key) =
      ⟨[0x02, bCmd], bKeyType, usKeyIndex, none, key⟩ := by
  have hfields : decode ([0x02, bCmd, bKeyType] ++ bytes16 usKeyIndex ++ key) =
      ⟨[0x02, bCmd], bKeyType, word (hiByte usKeyIndex) (loByte usKeyIndex), none, key⟩ := by
    simp [decode, bytes16, requestField, h]
  rw [hfields, word_hiByte_loByte hindex]

/-- A request with one. -/
theorem decode_sized {bCmd bKeyType : UInt8} {usKeyIndex usKeySize : Nat}
    (hindex : usKeyIndex < 65536) (hsize : usKeySize < 65536) (h : Sized [0x02, bCmd] bKeyType)
    (key : List UInt8) :
    decode ([0x02, bCmd, bKeyType] ++ bytes16 usKeyIndex ++ bytes16 usKeySize ++ key) =
      ⟨[0x02, bCmd], bKeyType, usKeyIndex, some usKeySize, key⟩ := by
  have hfields : decode ([0x02, bCmd, bKeyType] ++ bytes16 usKeyIndex ++ bytes16 usKeySize ++
      key) = ⟨[0x02, bCmd], bKeyType, word (hiByte usKeyIndex) (loByte usKeyIndex),
        some (word (hiByte usKeySize) (loByte usKeySize)), key⟩ := by
    simp [decode, bytes16, requestField, h]
  rw [hfields, word_hiByte_loByte hindex, word_hiByte_loByte hsize]

end KeyRequest

/-- A call of one of the four commands, with its arguments. -/
inductive KeyCommand where
  | generate (bKeyType : UInt8) (usKeyIndex usHmacKeySize : Nat)
  | put (bKeyType : UInt8) (usKeyIndex pbKey usKeySize : Nat)
  | get (pbKey pusKeySize : Nat) (bKeyType : UInt8) (usKeyIndex : Nat)
  | erase (bKeyType : UInt8) (usKeyIndex : Nat)

namespace KeyCommand

variable {σ : Type} (W : World σ) (fuel : Nat)

def run : KeyCommand → Kse σ → Option Int × Kse σ
  | generate bKeyType usKeyIndex usHmacKeySize =>
    kcmvpGenerateKey W fuel bKeyType usKeyIndex usHmacKeySize
  | put bKeyType usKeyIndex pbKey usKeySize =>
    kcmvpPutKey W fuel bKeyType usKeyIndex pbKey usKeySize
  | get pbKey pusKeySize bKeyType usKeyIndex =>
    kcmvpGetKey W fuel pbKey pusKeySize bKeyType usKeyIndex
  | erase bKeyType usKeyIndex => kcmvpEraseKey W fuel bKeyType usKeyIndex

/-- What the command does not reject as wrong input. -/
def Accepted : KeyCommand → Prop
  | generate bKeyType usKeyIndex usHmacKeySize =>
    bKeyType ∈ generatedKeyTypes ∧ usKeyIndex < MAX_KCMVP_KEY_COUNT ∧
      (bKeyType = KCMVP_HMAC_KEY → usHmacKeySize ≤ 255)
  | put bKeyType usKeyIndex pbKey usKeySize =>
    bKeyType ∈ storedKeyTypes ∧ usKeyIndex < MAX_KCMVP_KEY_COUNT ∧ pbKey ≠ NULL_PTR ∧
      ¬WrongKeySize bKeyType 0 usKeySize ∧ (bKeyType = KCMVP_HMAC_KEY → usKeySize ≤ 255)
  | get _ pusKeySize bKeyType usKeyIndex =>
    pusKeySize ≠ NULL_PTR ∧ bKeyType ∈ storedKeyTypes ∧ usKeyIndex < MAX_KCMVP_KEY_COUNT
  | erase bKeyType usKeyIndex =>
    bKeyType ∈ storedKeyTypes ∧ usKeyIndex < MAX_KCMVP_KEY_COUNT

/-- The arguments that the command uses. -/
def arguments (x : Kse σ) : KeyCommand → KeyRequest
  | generate bKeyType usKeyIndex usHmacKeySize =>
    ⟨[0x02, 0x00], bKeyType, usKeyIndex,
      if bKeyType = KCMVP_HMAC_KEY then some usHmacKeySize else none, []⟩
  | put bKeyType usKeyIndex pbKey usKeySize =>
    ⟨[0x02, 0x01], bKeyType, usKeyIndex,
      if bKeyType = KCMVP_HMAC_KEY then some usKeySize else none, x.arg pbKey usKeySize⟩
  | get _ _ bKeyType usKeyIndex => ⟨[0x02, 0x02], bKeyType, usKeyIndex, none, []⟩
  | erase bKeyType usKeyIndex => ⟨[0x02, 0x03], bKeyType, usKeyIndex, none, []⟩

/-- The requests of a call. -/
def sent (c : KeyCommand) (x : Kse σ) : List (List UInt8) :=
  requests ((c.run W fuel x).2.trace.drop x.trace.length)

/-- The request that the command builds. -/
def request (x : Kse σ) : KeyCommand → List UInt8
  | generate bKeyType usKeyIndex _ =>
    [0x02, 0x00, bKeyType] ++ bytes16 usKeyIndex ++
      if bKeyType ≠ KCMVP_HMAC_KEY then [] else bytes16 usKeyIndex
  | put bKeyType usKeyIndex pbKey usKeySize =>
    [0x02, 0x01, bKeyType] ++ bytes16 usKeyIndex ++
      (if bKeyType ≠ KCMVP_HMAC_KEY then [] else bytes16 usKeySize) ++ x.arg pbKey usKeySize
  | get _ _ bKeyType usKeyIndex => [0x02, 0x02, bKeyType] ++ bytes16 usKeyIndex
  | erase bKeyType usKeyIndex => [0x02, 0x03, bKeyType] ++ bytes16 usKeyIndex

theorem statusCommand_sent (request : List UInt8) (x : Kse σ) :
    requests ((statusCommand W fuel request x).2.trace.drop x.trace.length) = [request] := by
  obtain ⟨e, w, hof⟩ := exists_exchange W fuel request.length (x.store 0 request)
  rw [statusCommand_exchange hof, Kse.exchanged_trace, Kse.store_trace, List.drop_left,
    ← hof.request_eq]
  rfl

theorem dataCommand_sent (request : List UInt8) (wrongLen : Nat → Prop)
    [DecidablePred wrongLen] (take : Nat → Kse σ → Kse σ)
    (htake : ∀ usLen y, ∃ es, (take usLen y).trace = y.trace ++ es ∧ requests es = [])
    (x : Kse σ) :
    requests ((dataCommand W fuel request wrongLen take x).2.trace.drop x.trace.length) =
      [request] := by
  obtain ⟨e, w, hof⟩ := exists_exchange W fuel request.length (x.store 0 request)
  have hexchange : requests [.exchange e] = [request] := by
    rw [← hof.request_eq]
    rfl
  rcases dataCommand_exchange wrongLen take hof with ⟨-, hr⟩ | ⟨-, sRv, -, hr⟩
  · obtain ⟨es, htrace, hnone⟩ := htake e.usLen ((x.store 0 request).exchanged e w)
    rw [hr, htrace, Kse.exchanged_trace, Kse.store_trace, List.append_assoc, List.drop_left,
      requests_append, hnone, List.append_nil, hexchange]
  · rw [hr, Kse.exchanged_trace, Kse.store_trace, List.drop_left, hexchange]

theorem takeSized_trace (pb pusSize usLen : Nat) (y : Kse σ) :
    ∃ es, (y.takeSized pb pusSize usLen).trace = y.trace ++ es ∧ requests es = [] := by
  simp only [Kse.takeSized]
  split
  · exact ⟨[_], rfl, rfl⟩
  · exact ⟨[], (List.append_nil _).symm, rfl⟩

variable {c : KeyCommand} {x : Kse σ}

theorem Accepted.sent_eq (hc : c.Accepted) (hpower : x.gusKsePower = .on) :
    c.sent W fuel x = [c.request x] := by
  have hon : ¬x.gusKsePower ≠ .on := not_not.mpr hpower
  cases c with
  | generate bKeyType usKeyIndex usHmacKeySize =>
    obtain ⟨htype, hindex, hsize⟩ := hc
    rw [sent, run, kcmvpGenerateKey, checked, if_neg hon, if_neg, statusCommand_sent]
    · rfl
    · simp only [not_or, not_not, not_and, Nat.not_le, Nat.not_lt, ge_iff_le, gt_iff_lt]
      exact ⟨htype, hindex, hsize⟩
  | put bKeyType usKeyIndex pbKey usKeySize =>
    obtain ⟨htype, hindex, hkey, hright, hsize⟩ := hc
    rw [sent, run, kcmvpPutKey, checked, if_neg hon, if_neg, statusCommand_sent]
    · rfl
    · simp only [not_or, not_not, not_and, Nat.not_le, Nat.not_lt, ge_iff_le, gt_iff_lt]
      exact ⟨htype, hindex, hkey, hright, hsize⟩
  | get pbKey pusKeySize bKeyType usKeyIndex =>
    obtain ⟨hsize, htype, hindex⟩ := hc
    rw [sent, run, kcmvpGetKey, checked, if_neg hon, if_neg, dataCommand_sent]
    · rfl
    · exact fun usLen y => takeSized_trace pbKey pusKeySize usLen y
    · simp only [not_or, not_not, Nat.not_le, ge_iff_le]
      exact ⟨hsize, htype, hindex⟩
  | erase bKeyType usKeyIndex =>
    obtain ⟨htype, hindex⟩ := hc
    rw [sent, run, kcmvpEraseKey, checked, if_neg hon, if_neg, statusCommand_sent]
    · rfl
    · simp only [not_or, not_not, Nat.not_le, ge_iff_le]
      exact ⟨htype, hindex⟩

/-- The size of an HMAC key that is generated is its index. -/
def SizeIsIndex : KeyCommand → Prop
  | generate bKeyType usKeyIndex usHmacKeySize =>
    bKeyType = KCMVP_HMAC_KEY → usHmacKeySize = usKeyIndex
  | _ => True

theorem Accepted.decode_generate {bKeyType : UInt8} {usKeyIndex usHmacKeySize : Nat}
    (hc : (generate bKeyType usKeyIndex usHmacKeySize).Accepted) :
    KeyRequest.decode ((generate bKeyType usKeyIndex usHmacKeySize).request x) =
      ⟨[0x02, 0x00], bKeyType, usKeyIndex,
        if bKeyType = KCMVP_HMAC_KEY then some usKeyIndex else none, []⟩ := by
  obtain ⟨-, hindex, -⟩ := hc
  have hindex' : usKeyIndex < 65536 := Nat.lt_trans hindex (by decide)
  simp only [request]
  by_cases hhmac : bKeyType = KCMVP_HMAC_KEY
  · rw [if_neg (not_not.mpr hhmac), if_pos hhmac]
    have hdecode := KeyRequest.decode_sized hindex' hindex'
      ⟨Or.inl (Eq.refl [0x02, 0x00]), hhmac⟩ []
    rwa [List.append_nil] at hdecode
  · rw [if_pos hhmac, if_neg hhmac]
    exact KeyRequest.decode_unsized hindex' (fun h => hhmac h.2) []

/-- The device finds the arguments in the request, but for the size of an HMAC key that it is to
    generate. -/
theorem Accepted.decode_request (hc : c.Accepted) :
    KeyRequest.decode (c.request x) = c.arguments x ↔ c.SizeIsIndex := by
  cases c with
  | generate bKeyType usKeyIndex usHmacKeySize =>
    rw [hc.decode_generate]
    by_cases hhmac : bKeyType = KCMVP_HMAC_KEY
    · simp [arguments, SizeIsIndex, hhmac, eq_comm]
    · simp [arguments, SizeIsIndex, hhmac]
  | put bKeyType usKeyIndex pbKey usKeySize =>
    obtain ⟨-, hindex, -, -, hsize⟩ := hc
    have hindex' : usKeyIndex < 65536 := Nat.lt_trans hindex (by decide)
    refine iff_of_true ?_ trivial
    simp only [request, arguments]
    by_cases hhmac : bKeyType = KCMVP_HMAC_KEY
    · rw [if_neg (not_not.mpr hhmac), if_pos hhmac]
      exact KeyRequest.decode_sized hindex' (Nat.lt_of_le_of_lt (hsize hhmac) (by decide))
        ⟨Or.inr rfl, hhmac⟩ _
    · rw [if_pos hhmac, if_neg hhmac, List.append_nil]
      exact KeyRequest.decode_unsized hindex' (fun h => hhmac h.2) _
  | get pbKey pusKeySize bKeyType usKeyIndex =>
    obtain ⟨-, -, hindex⟩ := hc
    refine iff_of_true ?_ trivial
    exact KeyRequest.decode_unsized (Nat.lt_trans hindex (by decide))
      (fun h => absurd h.1 (by decide)) []
  | erase bKeyType usKeyIndex =>
    obtain ⟨-, hindex⟩ := hc
    refine iff_of_true ?_ trivial
    exact KeyRequest.decode_unsized (Nat.lt_trans hindex (by decide))
      (fun h => absurd h.1 (by decide)) []

end KeyCommand

/-- **What the device is told.**  For every accepted call and every device, what the device
    decodes is what the command uses, except where an HMAC key is to be generated with another
    size than its index: there the size field repeats the index, and calls with different sizes
    send the same request. -/
theorem keyCommand_carries_iff {σ : Type} (W : World σ) (fuel : Nat) (c : KeyCommand) {x : Kse σ}
    (hpower : x.gusKsePower = .on) (hc : c.Accepted) :
    ((c.sent W fuel x).map KeyRequest.decode = [c.arguments x] ↔ c.SizeIsIndex) ∧
      ∀ usKeyIndex usHmacKeySize usHmacKeySize',
        c = .generate KCMVP_HMAC_KEY usKeyIndex usHmacKeySize → usHmacKeySize' ≤ 255 →
        (KeyCommand.generate KCMVP_HMAC_KEY usKeyIndex usHmacKeySize').sent W fuel x =
          c.sent W fuel x := by
  constructor
  · rw [hc.sent_eq W fuel hpower, List.map_singleton, List.singleton_inj, hc.decode_request]
  · rintro usKeyIndex usHmacKeySize usHmacKeySize' rfl hsize
    have hc' : (KeyCommand.generate KCMVP_HMAC_KEY usKeyIndex usHmacKeySize').Accepted :=
      ⟨hc.1, hc.2.1, fun _ => hsize⟩
    rw [hc'.sent_eq W fuel hpower, hc.sent_eq W fuel hpower]
    rfl

/-- A device that reports success. -/
def successReport : Kse Script :=
  poweredOn (fun _ => 0) ⟨[Report.ofList [REP_ONE_BLOCK, 0x06, 0, 2, 0, 0]], [], []⟩

theorem keyCommand_carries_put :
    let c := KeyCommand.put KCMVP_HMAC_KEY 3 100 20
    ((c.sent scriptedWorld 5 successReport).map KeyRequest.decode = [c.arguments successReport] ↔
        c.SizeIsIndex) ∧
      ∀ usKeyIndex usHmacKeySize usHmacKeySize',
        c = .generate KCMVP_HMAC_KEY usKeyIndex usHmacKeySize → usHmacKeySize' ≤ 255 →
        (KeyCommand.generate KCMVP_HMAC_KEY usKeyIndex usHmacKeySize').sent scriptedWorld 5
            successReport = c.sent scriptedWorld 5 successReport :=
  keyCommand_carries_iff scriptedWorld 5 (.put KCMVP_HMAC_KEY 3 100 20) rfl
    ⟨by decide, by decide, by decide, by decide, by decide⟩

/-- Two calls for a key of 32 and of 64 bytes: both succeed, and both ask for 3 bytes. -/
theorem keyCommand_carries_size :
    let c := KeyCommand.generate KCMVP_HMAC_KEY 3 32
    let c' := KeyCommand.generate KCMVP_HMAC_KEY 3 64
    c.Accepted ∧ c'.Accepted ∧
      (c.run scriptedWorld 5 successReport).1 = some KSE_SUCCESS ∧
      (c'.run scriptedWorld 5 successReport).1 = some KSE_SUCCESS ∧
      c.sent scriptedWorld 5 successReport = [[0x02, 0x00, KCMVP_HMAC_KEY, 0, 3, 0, 3]] ∧
      c'.sent scriptedWorld 5 successReport = c.sent scriptedWorld 5 successReport ∧
      (c.sent scriptedWorld 5 successReport).map KeyRequest.decode ≠
        [c.arguments successReport] := by
  refine ⟨⟨by decide, by decide, by decide⟩, ⟨by decide, by decide, by decide⟩, ?_, ?_, ?_, ?_, ?_⟩
  all_goals decide +kernel

end MavlinkDim
