import MavlinkDim.DeviceCommands

/-!
# A message in one step or in many

`_kcmvpHashDsa` sends a message of up to 2944 bytes with one command and a longer
one with `Begin`, any number of `Mid` and `End`.  The five algorithms differ in
which of these carries the key index, and in what the last one carries besides
the message.  `kcmvpHashDsa_steps` says that none of this is visible in the result.
-/

namespace MavlinkDim

open ByteMemory

/-! ### The function that the device computes -/

/-- A function of a message that is computed on a running state: what starts it, with the key
    that `Begin` names, what a byte of the message does to it, and the answer, with the key that
    `End` names and what the caller presents. -/
structure RunningHash (S : Type) where
  start : (usKeyIndex : List UInt8) → S
  update : S → UInt8 → S
  answer : (usKeyIndex : List UInt8) → S → (presented : List UInt8) → Answer

/-- The key index, where `Begin` carries it. -/
def hashBeginKey (bAlg : UInt8) (usKeyIndex : Nat) : List UInt8 :=
  if bAlg = KCMVP_HMAC_GEN ∨ bAlg = KCMVP_HMAC_VERI then bytes16 usKeyIndex else []

/-- The key index, where `End` carries it. -/
def hashEndKey (bAlg : UInt8) (usKeyIndex : Nat) : List UInt8 :=
  if bAlg = KCMVP_ECDSA_SIGN ∨ bAlg = KCMVP_ECDSA_VERI then bytes16 usKeyIndex else []

/-- The MAC or the signature that is to be verified. -/
def hashPresented (bAlg : UInt8) (inOut1 inOut2 : List UInt8) : List UInt8 :=
  (if bAlg = KCMVP_HMAC_VERI ∨ bAlg = KCMVP_ECDSA_VERI then inOut1 else []) ++
    if bAlg = KCMVP_ECDSA_VERI then inOut2 else []

/-- The size of the digest, the MAC or the signature that is computed. -/
def hashOutputSize (bAlg : UInt8) : Nat :=
  if bAlg = KCMVP_SHA ∨ bAlg = KCMVP_HMAC_GEN then 32
  else if bAlg = KCMVP_ECDSA_SIGN then 64
  else 0

/-- The function of the whole message, the key and what is presented. -/
def RunningHash.eval {S : Type} (H : RunningHash S) (bAlg : UInt8) (usKeyIndex : Nat)
    (message presented : List UInt8) : Answer :=
  H.answer (hashEndKey bAlg usKeyIndex)
    (message.foldl H.update (H.start (hashBeginKey bAlg usKeyIndex))) presented

/-! ### The commands -/

inductive HashStep where
  | one
  | begin_
  | mid
  | end_
deriving DecidableEq, Repr

def HashStep.bCmd (bAlg : UInt8) : HashStep → UInt8
  | .one => bAlg ||| 0x04
  | .begin_ => bAlg ||| 0x05
  | .mid => bAlg ||| 0x06
  | .end_ => bAlg ||| 0x07

/-- The key index as far as the command carries it. -/
def HashStep.key (bAlg : UInt8) (usKeyIndex : Nat) : HashStep → List UInt8
  | .one => if bAlg ≠ KCMVP_SHA then bytes16 usKeyIndex else []
  | .begin_ => hashBeginKey bAlg usKeyIndex
  | .mid => []
  | .end_ => hashEndKey bAlg usKeyIndex

/-- The final commands carry what is to be verified. -/
def HashStep.presented (presented : List UInt8) : HashStep → List UInt8
  | .one => presented
  | .begin_ => []
  | .mid => []
  | .end_ => presented

/-- A command of a hash, with its part of the message. -/
structure HashCommand where
  step : HashStep
  message : List UInt8

def HashCommand.request (bAlg : UInt8) (usKeyIndex : Nat) (presented : List UInt8)
    (c : HashCommand) : List UInt8 :=
  [0x02, c.step.bCmd bAlg] ++ c.step.key bAlg usKeyIndex ++ bytes16 c.message.length ++
    c.message ++ c.step.presented presented

theorem HashCommand.request_nil (bAlg : UInt8) (usKeyIndex : Nat) (c : HashCommand) :
    c.request bAlg usKeyIndex [] =
      [0x02, c.step.bCmd bAlg] ++ c.step.key bAlg usKeyIndex ++ bytes16 c.message.length ++
        c.message := by
  have hnone : c.step.presented [] = [] := by cases c.step <;> rfl
  rw [request, hnone, List.append_nil]

/-- The commands behind `Begin`. -/
def hashRest (message : List UInt8) : List HashCommand :=
  if MAX_IO_DATA_SIZE < message.length then
    ⟨.mid, message.take MAX_IO_DATA_SIZE⟩ :: hashRest (message.drop MAX_IO_DATA_SIZE)
  else [⟨.end_, message⟩]
termination_by message.length
decreasing_by
  simp only [List.length_drop, MAX_IO_DATA_SIZE] at *
  omega

/-- The commands for a message. -/
def hashCommands (message : List UInt8) : List HashCommand :=
  if message.length ≤ MAX_IO_DATA_SIZE then [⟨.one, message⟩]
  else ⟨.begin_, message.take MAX_IO_DATA_SIZE⟩ :: hashRest (message.drop MAX_IO_DATA_SIZE)

/-- The whole message goes out once, in order. -/
theorem hashRest_message (message : List UInt8) :
    (hashRest message).flatMap HashCommand.message = message := by
  fun_induction hashRest message with
  | case1 message _ ih => rw [List.flatMap_cons, ih, List.take_append_drop]
  | case2 message _ => simp

theorem hashCommands_message (message : List UInt8) :
    (hashCommands message).flatMap HashCommand.message = message := by
  unfold hashCommands
  split
  · simp
  · rw [List.flatMap_cons, hashRest_message, List.take_append_drop]

/-! ### The device -/

/-- How much of the caller's memory that is. -/
def hashPresentedSize (bAlg : UInt8) : Nat :=
  if bAlg = KCMVP_ECDSA_VERI then 64 else if bAlg = KCMVP_HMAC_VERI then 32 else 0

/-- The device computes `H` in one step, and in many on the running state that `Running` finds in
    its own; `Holds` says that it has the key. -/
structure HashesInSteps {δ S : Type} (D : Device δ) (Holds : δ → Prop) (Running : δ → S → Prop)
    (H : RunningHash S) (bAlg : UInt8) (usKeyIndex : Nat) : Prop where
  one : ∀ env message presented, Holds env → message.length ≤ MAX_IO_DATA_SIZE →
    presented.length = hashPresentedSize bAlg →
    (D.exec env (HashCommand.request bAlg usKeyIndex presented ⟨.one, message⟩)).1 =
      (H.eval bAlg usKeyIndex message presented).response
  begin_ : ∀ env message, Holds env → message.length ≤ MAX_IO_DATA_SIZE →
    let reply := D.exec env (HashCommand.request bAlg usKeyIndex [] ⟨.begin_, message⟩)
    reply.1 = [0x00, 0x00] ∧
      Running reply.2 (message.foldl H.update (H.start (hashBeginKey bAlg usKeyIndex)))
  mid : ∀ env s message, Running env s → message.length ≤ MAX_IO_DATA_SIZE →
    let reply := D.exec env (HashCommand.request bAlg usKeyIndex [] ⟨.mid, message⟩)
    reply.1 = [0x00, 0x00] ∧ Running reply.2 (message.foldl H.update s)
  end_ : ∀ env s message presented, Running env s → message.length ≤ MAX_IO_DATA_SIZE →
    presented.length = hashPresentedSize bAlg →
    (D.exec env (HashCommand.request bAlg usKeyIndex presented ⟨.end_, message⟩)).1 =
      (H.answer (hashEndKey bAlg usKeyIndex) (message.foldl H.update s) presented).response
  size : ∀ key s presented data, H.answer key s presented = .accepted data →
    data.length = hashOutputSize bAlg

/-- What the caller finds in memory after a call that the device answered. -/
def hashOutput (bAlg : UInt8) (pbInOut1 pbInOut2 : Nat) (app : Bytes) : Answer → Bytes
  | .refused _ _ _ => app
  | .accepted data =>
    if bAlg = KCMVP_SHA ∨ bAlg = KCMVP_HMAC_GEN then put app pbInOut1 data
    else if bAlg = KCMVP_ECDSA_SIGN then
      put (put app pbInOut1 (data.take 32)) pbInOut2 (data.drop 32)
    else app

/-! ### Runs -/

section Runs

variable {δ S : Type} {D : Device δ} (N : Net δ) (indeterminate : δ → Int) {fuel : Nat}
  {Holds : δ → Prop} {Running : δ → S → Prop} {H : RunningHash S} {bAlg : UInt8}
  {usKeyIndex pbInOut1 pbInOut2 : Nat} {x : Kse (Frame δ)} {answer : Answer}
  {commands : List HashCommand}

/-- A call, or the rest of one, that begins in `x`: it makes the `commands`, and leaves what the
    `answer` to the last of them says. -/
structure Hashed (bAlg : UInt8) (usKeyIndex pbInOut1 pbInOut2 : Nat) (x : Kse (Frame δ))
    (answer : Answer) (commands : List HashCommand) (r : Option Int × Kse (Frame δ)) :
    Prop where
  code : r.1 = some answer.code
  app : r.2.app = hashOutput bAlg pbInOut1 pbInOut2 x.app answer
  trace : ∃ es, r.2.trace = x.trace ++ es ∧ requests es = commands.map
    (HashCommand.request bAlg usKeyIndex
      (hashPresented bAlg (x.arg pbInOut1 32) (x.arg pbInOut2 32)))
  waiting : Waiting r.2

theorem length_hashPresented (x : Kse (Frame δ)) :
    (hashPresented bAlg (x.arg pbInOut1 32) (x.arg pbInOut2 32)).length =
      hashPresentedSize bAlg := by
  have h1 : (x.arg pbInOut1 32).length = 32 := length_slice _ _ _
  have h2 : (x.arg pbInOut2 32).length = 32 := length_slice _ _ _
  rw [hashPresented, hashPresentedSize, List.length_append]
  by_cases hecdsa : bAlg = KCMVP_ECDSA_VERI
  · simp [hecdsa, h1, h2]
  · by_cases hhmac : bAlg = KCMVP_HMAC_VERI
    · simp only [hhmac, true_or, if_true, h1,
        if_neg (by decide : KCMVP_HMAC_VERI ≠ KCMVP_ECDSA_VERI), List.length_nil, Nat.add_zero]
    · simp [hecdsa, hhmac]

theorem hashPresentedSize_le (bAlg : UInt8) : hashPresentedSize bAlg ≤ 64 := by
  unfold hashPresentedSize
  split
  · exact Nat.le_refl 64
  · split <;> omega

theorem hashOutputSize_le (bAlg : UInt8) : hashOutputSize bAlg ≤ 64 := by
  unfold hashOutputSize
  split
  · omega
  · split <;> omega

theorem length_hashRequest {presented : List UInt8} {c : HashCommand}
    (hmax : c.message.length ≤ MAX_IO_DATA_SIZE) (hpresented : presented.length ≤ 64) :
    (c.request bAlg usKeyIndex presented).length ≤ MAX_IO_BUFFER_SIZE := by
  have hkey : (c.step.key bAlg usKeyIndex).length ≤ 2 := by
    cases c.step <;> simp only [HashStep.key, hashBeginKey, hashEndKey]
    case mid => exact Nat.zero_le 2
    all_goals
      split
      · exact Nat.le_refl 2
      · exact Nat.zero_le 2
  have hlast : (c.step.presented presented).length ≤ 64 := by
    cases c.step
    case one | end_ => exact hpresented
    case begin_ | mid => exact Nat.zero_le 64
  simp only [HashCommand.request, List.length_append, List.length_cons, List.length_nil,
    length_bytes16, MAX_IO_BUFFER_SIZE, MAX_IO_DATA_SIZE, MAX_IO_CTRL_LEN] at hmax ⊢
  omega

theorem hashRequest_ne_nil {presented : List UInt8} {c : HashCommand} :
    c.request bAlg usKeyIndex presented ≠ [] := by
  simp [HashCommand.request]

/-- The test of the length of the last response. -/
def HashWrongLen (bAlg : UInt8) (usLen : Nat) : Prop :=
  (bAlg = KCMVP_SHA ∨ bAlg = KCMVP_HMAC_GEN) ∧ usLen ≠ 34 ∨
  bAlg = KCMVP_ECDSA_SIGN ∧ usLen ≠ 66 ∨
  (bAlg = KCMVP_HMAC_VERI ∨ bAlg = KCMVP_ECDSA_VERI) ∧ usLen ≠ 2

instance (bAlg : UInt8) : DecidablePred (HashWrongLen bAlg) := by
  intro usLen
  unfold HashWrongLen
  infer_instance

/-- What is done with a successful one. -/
def Kse.takeHash {σ : Type} (bAlg : UInt8) (pbInOut1 pbInOut2 : Nat) (x : Kse σ) : Kse σ :=
  if bAlg = KCMVP_SHA ∨ bAlg = KCMVP_HMAC_GEN then x.copyOut pbInOut1 2 32
  else if bAlg = KCMVP_ECDSA_SIGN then (x.copyOut pbInOut1 2 32).copyOut pbInOut2 34 32
  else x

theorem hashOutputSize_right (bAlg : UInt8) : ¬HashWrongLen bAlg (hashOutputSize bAlg + 2) := by
  unfold HashWrongLen hashOutputSize
  rintro (⟨h, hlen⟩ | ⟨rfl, hlen⟩ | ⟨rfl | rfl, hlen⟩)
  · simp [h] at hlen
  all_goals revert hlen; decide

theorem takeHash_app {y : Kse (Frame δ)} {m : Bytes} {data : List UInt8}
    (hgab : y.gabTxRxData = put m 0 ([0x00, 0x00] ++ data))
    (hsize : data.length = hashOutputSize bAlg) :
    (y.takeHash bAlg pbInOut1 pbInOut2).app =
      hashOutput bAlg pbInOut1 pbInOut2 y.app (.accepted data) := by
  unfold hashOutputSize at hsize
  unfold Kse.takeHash hashOutput
  by_cases hdigest : bAlg = KCMVP_SHA ∨ bAlg = KCMVP_HMAC_GEN
  · rw [if_pos hdigest] at hsize
    simp only [if_pos hdigest]
    have hread := slice_put_front m [0x00, 0x00] data
    rw [hsize, ← hgab] at hread
    rw [Kse.copyOut_app]
    exact congrArg (put y.app pbInOut1) hread
  · rw [if_neg hdigest] at hsize
    simp only [if_neg hdigest]
    by_cases hsign : bAlg = KCMVP_ECDSA_SIGN
    · rw [if_pos hsign] at hsize
      simp only [if_pos hsign]
      have hr := @slice_put_part m 0 ([0x00, 0x00] ++ data) 2 32 (by simp [hsize])
      have hs := @slice_put_part m 0 ([0x00, 0x00] ++ data) 34 32 (by simp [hsize])
      rw [← hgab] at hr hs
      have hrest : (data.drop 32).take 32 = data.drop 32 :=
        List.take_of_length_le (by rw [List.length_drop, hsize])
      have hs' : slice y.gabTxRxData 34 32 = data.drop 32 := hs.trans hrest
      rw [Kse.copyOut_app, Kse.copyOut_app]
      exact congrArg₂ (fun l l' => put (put y.app pbInOut1 l) pbInOut2 l') hr hs'
    · simp only [if_neg hsign]

theorem takeHash_waiting {y : Kse (Frame δ)} (hy : Waiting y) :
    Waiting (y.takeHash bAlg pbInOut1 pbInOut2) := by
  unfold Kse.takeHash
  split
  · exact hy.copyOut _ _ _
  · split
    · exact (hy.copyOut _ _ _).copyOut _ _ _
    · exact hy

theorem takeHash_trace (y : Kse (Frame δ)) :
    ∃ es, (y.takeHash bAlg pbInOut1 pbInOut2).trace = y.trace ++ es ∧ requests es = [] := by
  unfold Kse.takeHash
  split
  · exact ⟨[.copied 2 32], rfl, rfl⟩
  · split
    · exact ⟨[.copied 2 32, .copied 34 32], by simp [Kse.copyOut], rfl⟩
    · exact ⟨[], (List.append_nil _).symm, rfl⟩

theorem hashFinal_eq {σ : Type} (W : World σ) (fuel : Nat) {step : HashStep}
    (hfinal : step = .one ∨ step = .end_) (pbMessage usMessageSize : Nat) (x : Kse σ) :
    hashFinal W fuel (step.bCmd bAlg) (step.key bAlg usKeyIndex) pbInOut1 pbInOut2 bAlg pbMessage
        usMessageSize x =
      dataCommand W fuel (HashCommand.request bAlg usKeyIndex
          (hashPresented bAlg (x.arg pbInOut1 32) (x.arg pbInOut2 32))
          ⟨step, x.arg pbMessage usMessageSize⟩)
        (HashWrongLen bAlg) (fun _ x => x.takeHash bAlg pbInOut1 pbInOut2) x := by
  have hmessage : (x.arg pbMessage usMessageSize).length = usMessageSize := length_slice _ _ _
  have hpresented : step.presented (hashPresented bAlg (x.arg pbInOut1 32) (x.arg pbInOut2 32)) =
      hashPresented bAlg (x.arg pbInOut1 32) (x.arg pbInOut2 32) := by
    rcases hfinal with rfl | rfl <;> rfl
  rw [hashFinal, HashCommand.request, hpresented, hmessage, hashPresented,
    ← List.append_assoc _ (ite _ _ _)]
  rfl

/-- The last command. -/
theorem hashFinal_hashed (hx : Waiting x) (hfuel : 51 ≤ fuel) {step : HashStep}
    (hfinal : step = .one ∨ step = .end_) {pbMessage usMessageSize : Nat}
    (hmax : usMessageSize ≤ MAX_IO_DATA_SIZE)
    (hexec : (D.exec x.world.env (HashCommand.request bAlg usKeyIndex
      (hashPresented bAlg (x.arg pbInOut1 32) (x.arg pbInOut2 32))
      ⟨step, x.arg pbMessage usMessageSize⟩)).1 = answer.response)
    (hsize : ∀ data, answer = .accepted data → data.length = hashOutputSize bAlg) :
    Hashed bAlg usKeyIndex pbInOut1 pbInOut2 x answer [⟨step, x.arg pbMessage usMessageSize⟩]
      (hashFinal (frameWorld D N indeterminate) fuel (step.bCmd bAlg) (step.key bAlg usKeyIndex)
        pbInOut1 pbInOut2 bAlg pbMessage usMessageSize x) := by
  have hmessage : (x.arg pbMessage usMessageSize).length = usMessageSize := length_slice _ _ _
  have hresp : answer.response.length ≤ MAX_IO_BUFFER_SIZE := by
    cases answer with
    | accepted data =>
      have hle := (hsize data rfl).trans_le (hashOutputSize_le bAlg)
      simp only [Answer.response, List.length_append, List.length_cons, List.length_nil,
        MAX_IO_BUFFER_SIZE, MAX_IO_DATA_SIZE, MAX_IO_CTRL_LEN]
      omega
    | refused hi lo h => simp [Answer.response]
  have hlen : ∀ data, answer = .accepted data → ¬HashWrongLen bAlg (data.length + 2) := by
    intro data hdata
    rw [hsize data hdata]
    exact hashOutputSize_right bAlg
  obtain ⟨y, hcall, ⟨m, hgab⟩, hy⟩ := dataCommand_answer D N indeterminate hx hfuel
    hashRequest_ne_nil (length_hashRequest (hmessage.trans_le hmax)
      ((length_hashPresented x).trans_le (hashPresentedSize_le bAlg))) hexec hresp
    (HashWrongLen bAlg) hlen (fun _ x => x.takeHash bAlg pbInOut1 pbInOut2)
  rw [hashFinal_eq _ _ hfinal, hcall]
  obtain ⟨e, htrace, he, -⟩ := hy.trace
  cases answer with
  | accepted data =>
    obtain ⟨es, hes, hnone⟩ := @takeHash_trace δ bAlg pbInOut1 pbInOut2 y
    refine ⟨rfl, ?_, ⟨.exchange e :: es, ?_, ?_⟩, takeHash_waiting hy.waiting⟩
    · rw [← hy.app]
      exact takeHash_app hgab (hsize data rfl)
    · rw [Answer.takenBy, hes, htrace, List.append_assoc]
      rfl
    · rw [← List.singleton_append, requests_append, hnone, List.append_nil, List.map_singleton,
        ← he]
      rfl
  | refused hi lo h =>
    refine ⟨rfl, hy.app, ⟨[.exchange e], htrace, ?_⟩, hy.waiting⟩
    rw [List.map_singleton, ← he]
    rfl

/-- A command before the last. -/
theorem Hashed.cons {y : Kse (Frame δ)} {c : HashCommand} {r : Option Int × Kse (Frame δ)}
    (hy : Requested D (c.request bAlg usKeyIndex
      (hashPresented bAlg (x.arg pbInOut1 32) (x.arg pbInOut2 32))) x y)
    (h : Hashed bAlg usKeyIndex pbInOut1 pbInOut2 y answer commands r) :
    Hashed bAlg usKeyIndex pbInOut1 pbInOut2 x answer (c :: commands) r := by
  obtain ⟨e, htrace, he, -⟩ := hy.trace
  obtain ⟨es, hes, hrequests⟩ := h.trace
  refine ⟨h.code, by rw [h.app, hy.app], ⟨.exchange e :: es, ?_, ?_⟩, h.waiting⟩
  · rw [hes, htrace, List.append_assoc]
    rfl
  · rw [Kse.arg, Kse.arg, hy.app] at hrequests
    rw [← List.singleton_append, requests_append, hrequests, List.map_cons, ← he]
    rfl

/-- `Begin` or `Mid`, with a full chunk. -/
theorem statusCommand_chunk (hx : Waiting x) (hfuel : 51 ≤ fuel) {c : HashCommand}
    (hmax : c.message.length ≤ MAX_IO_DATA_SIZE)
    (hexec : (D.exec x.world.env (c.request bAlg usKeyIndex [])).1 = [0x00, 0x00]) :
    ∃ y, statusCommand (frameWorld D N indeterminate) fuel (c.request bAlg usKeyIndex []) x =
        (some KSE_SUCCESS, y) ∧ Requested D (c.request bAlg usKeyIndex []) x y :=
  statusCommand_frame D N indeterminate hx hfuel hashRequest_ne_nil
    (length_hashRequest hmax (Nat.zero_le 64)) hexec

/-- A chunk off the front of a message. -/
theorem arg_chunk {σ : Type} (x : Kse σ) (pbMessage : Nat) {usMessageSize : Nat}
    (h : MAX_IO_DATA_SIZE < usMessageSize) :
    (x.arg pbMessage usMessageSize).take MAX_IO_DATA_SIZE = x.arg pbMessage MAX_IO_DATA_SIZE ∧
      (x.arg pbMessage usMessageSize).drop MAX_IO_DATA_SIZE =
        x.arg (pbMessage + MAX_IO_DATA_SIZE) (usMessageSize - MAX_IO_DATA_SIZE) :=
  ⟨take_slice _ _ (Nat.le_of_lt h), drop_slice _ _ (Nat.le_of_lt h)⟩

/-- `Mid` and `End`, on a state that runs. -/
theorem hashMid_hashed (hD : HashesInSteps D Holds Running H bAlg usKeyIndex) (hfuel : 51 ≤ fuel)
    (pbMessage usMessageSize : Nat) (hx : Waiting x) {s : S} (hrunning : Running x.world.env s) :
    Hashed bAlg usKeyIndex pbInOut1 pbInOut2 x
      (H.answer (hashEndKey bAlg usKeyIndex) ((x.arg pbMessage usMessageSize).foldl H.update s)
        (hashPresented bAlg (x.arg pbInOut1 32) (x.arg pbInOut2 32)))
      (hashRest (x.arg pbMessage usMessageSize))
      (hashMid (frameWorld D N indeterminate) fuel bAlg
        (hashFinal (frameWorld D N indeterminate) fuel (HashStep.end_.bCmd bAlg)
          (HashStep.end_.key bAlg usKeyIndex) pbInOut1 pbInOut2 bAlg)
        pbMessage usMessageSize x) := by
  induction usMessageSize using Nat.strongRecOn generalizing x pbMessage s with
  | _ usMessageSize ih =>
    have hmessage : (x.arg pbMessage usMessageSize).length = usMessageSize := length_slice _ _ _
    rw [hashMid, hashRest, hmessage]
    by_cases hlong : MAX_IO_DATA_SIZE < usMessageSize
    · obtain ⟨hfirst, hdrop⟩ := arg_chunk x pbMessage hlong
      have hsplit := List.take_append_drop MAX_IO_DATA_SIZE (x.arg pbMessage usMessageSize)
      rw [hfirst, hdrop] at hsplit ⊢
      have hchunk : (x.arg pbMessage MAX_IO_DATA_SIZE).length = MAX_IO_DATA_SIZE :=
        length_slice _ _ _
      generalize x.arg pbMessage MAX_IO_DATA_SIZE = chunk at *
      obtain ⟨hexec, hnext⟩ := hD.mid x.world.env s chunk hrunning hchunk.le
      obtain ⟨y, hcall, hy⟩ := @statusCommand_chunk δ D N indeterminate fuel bAlg usKeyIndex x hx
        hfuel ⟨.mid, chunk⟩ hchunk.le hexec
      rw [← hy.env] at hnext
      have hrest := ih (usMessageSize - MAX_IO_DATA_SIZE) (Nat.sub_lt (by omega) (by decide))
        (pbMessage + MAX_IO_DATA_SIZE) hy.waiting hnext
      have hrequest : [0x02, bAlg ||| 0x06] ++ bytes16 MAX_IO_DATA_SIZE ++ chunk =
          HashCommand.request bAlg usKeyIndex [] ⟨.mid, chunk⟩ := by
        rw [HashCommand.request_nil, hchunk]
        rfl
      rw [if_pos hlong, if_pos hlong, hrequest, hcall]
      simp only [ne_eq, not_true, if_false]
      rw [← hsplit, List.foldl_append]
      refine Hashed.cons hy ?_
      rw [Kse.arg, Kse.arg, Kse.arg, ← hy.app]
      exact hrest
    · have hmax : usMessageSize ≤ MAX_IO_DATA_SIZE := Nat.le_of_not_lt hlong
      rw [if_neg hlong, if_neg hlong]
      refine hashFinal_hashed N indeterminate hx hfuel (Or.inr rfl) hmax ?_ ?_
      · exact hD.end_ x.world.env s _ _ hrunning (hmessage.trans_le hmax)
          (length_hashPresented x)
      · intro data hdata
        exact hD.size _ _ _ data hdata

/-- A whole call. -/
theorem kcmvpHashDsa_hashed (hD : HashesInSteps D Holds Running H bAlg usKeyIndex)
    (hfuel : 51 ≤ fuel) (hx : Waiting x) (hholds : Holds x.world.env)
    {pbMessage usMessageSize : Nat}
    (hright : ¬(pbMessage = NULL_PTR ∧ usMessageSize ≠ 0 ∨ pbInOut1 = NULL_PTR ∨
      (bAlg = KCMVP_ECDSA_SIGN ∨ bAlg = KCMVP_ECDSA_VERI) ∧ pbInOut2 = NULL_PTR ∨
      bAlg ≠ KCMVP_SHA ∧ usKeyIndex ≥ MAX_KCMVP_KEY_COUNT)) :
    Hashed bAlg usKeyIndex pbInOut1 pbInOut2 x
      (H.eval bAlg usKeyIndex (x.arg pbMessage usMessageSize)
        (hashPresented bAlg (x.arg pbInOut1 32) (x.arg pbInOut2 32)))
      (hashCommands (x.arg pbMessage usMessageSize))
      (kcmvpHashDsa (frameWorld D N indeterminate) fuel pbInOut1 pbInOut2 pbMessage usMessageSize
        usKeyIndex bAlg x) := by
  have hlen : (x.arg pbMessage usMessageSize).length = usMessageSize := length_slice _ _ _
  rw [kcmvpHashDsa, checked, if_neg (not_not.mpr hx.power), if_neg hright, hashCommands, hlen]
  by_cases hone : usMessageSize ≤ MAX_IO_DATA_SIZE
  · simp only [if_pos hone]
    refine hashFinal_hashed N indeterminate hx hfuel (Or.inl rfl) hone ?_ ?_
    · exact hD.one x.world.env _ _ hholds (hlen.trans_le hone) (length_hashPresented x)
    · intro data hdata
      exact hD.size _ _ _ data hdata
  · simp only [if_neg hone]
    obtain ⟨hfirst, hdrop⟩ := arg_chunk x pbMessage (Nat.lt_of_not_le hone)
    have hsplit := List.take_append_drop MAX_IO_DATA_SIZE (x.arg pbMessage usMessageSize)
    rw [hfirst, hdrop] at hsplit ⊢
    have hchunk : (x.arg pbMessage MAX_IO_DATA_SIZE).length = MAX_IO_DATA_SIZE :=
      length_slice _ _ _
    generalize x.arg pbMessage MAX_IO_DATA_SIZE = chunk at *
    obtain ⟨hexec, hnext⟩ := hD.begin_ x.world.env chunk hholds hchunk.le
    obtain ⟨y, hcall, hy⟩ := @statusCommand_chunk δ D N indeterminate fuel bAlg usKeyIndex x hx
      hfuel ⟨.begin_, chunk⟩ hchunk.le hexec
    rw [← hy.env] at hnext
    have hrest := @hashMid_hashed δ S D N indeterminate fuel Holds Running H bAlg usKeyIndex
      pbInOut1 pbInOut2 y hD hfuel (pbMessage + MAX_IO_DATA_SIZE)
      (usMessageSize - MAX_IO_DATA_SIZE) hy.waiting _ hnext
    have hrequest : [0x02, bAlg ||| 0x05] ++
        (if bAlg = KCMVP_HMAC_GEN ∨ bAlg = KCMVP_HMAC_VERI then bytes16 usKeyIndex else []) ++
        bytes16 MAX_IO_DATA_SIZE ++ chunk =
        HashCommand.request bAlg usKeyIndex [] ⟨.begin_, chunk⟩ := by
      rw [HashCommand.request_nil, hchunk]
      rfl
    rw [hrequest, hcall]
    simp only [ne_eq, not_true, if_false]
    rw [RunningHash.eval, ← hsplit, List.foldl_append]
    refine Hashed.cons hy ?_
    rw [Kse.arg, Kse.arg, Kse.arg, ← hy.app]
    exact hrest

/-- **A message in one step or in many.**  With a device that computes a function of the message
    on a running state, `_kcmvpHashDsa` returns and stores what that function says of the whole
    message, the key and the MAC or signature presented, for a message of any size.  The requests
    carry the message once and in order, with the key index in the one step, in `Begin` or in
    `End` as the algorithm has it, and what is presented in the last. -/
theorem kcmvpHashDsa_steps (hD : HashesInSteps D Holds Running H bAlg usKeyIndex)
    (hfuel : 51 ≤ fuel) (hx : Waiting x) (hholds : Holds x.world.env)
    {pbMessage usMessageSize : Nat} (hmessage : pbMessage ≠ NULL_PTR ∨ usMessageSize = 0)
    (hinOut1 : pbInOut1 ≠ NULL_PTR)
    (hinOut2 : bAlg = KCMVP_ECDSA_SIGN ∨ bAlg = KCMVP_ECDSA_VERI → pbInOut2 ≠ NULL_PTR)
    (hkey : bAlg ≠ KCMVP_SHA → usKeyIndex < MAX_KCMVP_KEY_COUNT) :
    let message := x.arg pbMessage usMessageSize
    let presented := hashPresented bAlg (x.arg pbInOut1 32) (x.arg pbInOut2 32)
    let answer := H.eval bAlg usKeyIndex message presented
    ∃ y es, kcmvpHashDsa (frameWorld D N indeterminate) fuel pbInOut1 pbInOut2 pbMessage
        usMessageSize usKeyIndex bAlg x = (some answer.code, y) ∧
      y.app = hashOutput bAlg pbInOut1 pbInOut2 x.app answer ∧
      y.trace = x.trace ++ es ∧
      requests es =
        (hashCommands message).map (HashCommand.request bAlg usKeyIndex presented) ∧
      (hashCommands message).flatMap HashCommand.message = message := by
  intro message presented answer
  have hright : ¬(pbMessage = NULL_PTR ∧ usMessageSize ≠ 0 ∨ pbInOut1 = NULL_PTR ∨
      (bAlg = KCMVP_ECDSA_SIGN ∨ bAlg = KCMVP_ECDSA_VERI) ∧ pbInOut2 = NULL_PTR ∨
      bAlg ≠ KCMVP_SHA ∧ usKeyIndex ≥ MAX_KCMVP_KEY_COUNT) := by
    rintro (⟨hnull, hpos⟩ | hnull | ⟨hecdsa, hnull⟩ | ⟨hsha, hindex⟩)
    · exact hmessage.elim (absurd hnull) (absurd · hpos)
    · exact hinOut1 hnull
    · exact hinOut2 hecdsa hnull
    · exact absurd (hkey hsha) (Nat.not_lt.mpr hindex)
  have hashed := kcmvpHashDsa_hashed N indeterminate hD hfuel hx hholds hright
  obtain ⟨es, htrace, hrequests⟩ := hashed.trace
  exact ⟨_, es, Prod.ext hashed.code rfl, hashed.app, htrace, hrequests,
    hashCommands_message message⟩

end Runs

/-! ### A checksum -/

/-- The sum of the key index and the bytes of the message; a MAC is 32 times this. -/
def checksum : RunningHash UInt8 where
  start usKeyIndex := usKeyIndex.foldl (· + ·) 0
  update s b := s + b
  answer _ s presented :=
    if presented = List.replicate 32 s then .accepted [] else .refused 0xFF 0x80 (by decide)

/-- A device that verifies such MACs. -/
def checksumDevice : Device UInt8 where
  exec s request :=
    match request with
    | _ :: 0x7C :: k :: k' :: n :: n' :: rest =>
      let message := rest.take (word n n')
      let sum := message.foldl checksum.update (checksum.start [k, k'])
      ((checksum.answer [] sum (rest.drop (word n n'))).response, s)
    | _ :: 0x7D :: k :: k' :: _ :: _ :: message =>
      ([0x00, 0x00], message.foldl checksum.update (checksum.start [k, k']))
    | _ :: 0x7E :: _ :: _ :: message => ([0x00, 0x00], message.foldl checksum.update s)
    | _ :: 0x7F :: n :: n' :: rest =>
      let message := rest.take (word n n')
      let sum := message.foldl checksum.update s
      ((checksum.answer [] sum (rest.drop (word n n'))).response, s)
    | _ => ([0xFF, 0xFF], s)
  fill _ := fun _ => 0
  behind _ := fun _ => 0

theorem hashesInSteps_checksumDevice (usKeyIndex : Nat) :
    HashesInSteps checksumDevice (fun _ => True) (fun env s => env = s) checksum KCMVP_HMAC_VERI
      usKeyIndex := by
  have hword : ∀ l : List UInt8, l.length ≤ MAX_IO_DATA_SIZE →
      word (hiByte l.length) (loByte l.length) = l.length := by
    intro l hmax
    have hmax' : l.length ≤ 2944 := hmax
    exact word_hiByte_loByte (by omega)
  refine ⟨?_, ?_, ?_, ?_, ?_⟩
  · intro env message presented _ hmax _
    have hrequest : HashCommand.request KCMVP_HMAC_VERI usKeyIndex presented ⟨.one, message⟩ =
        0x02 :: 0x7C :: hiByte usKeyIndex :: loByte usKeyIndex :: hiByte message.length ::
          loByte message.length :: (message ++ presented) := rfl
    rw [hrequest]
    simp only [checksumDevice, hword message hmax]
    rw [List.take_left' rfl, List.drop_left' rfl]
    rfl
  · intro env message _ hmax
    rw [HashCommand.request_nil]
    exact ⟨rfl, rfl⟩
  · intro env s message hrunning hmax
    subst hrunning
    rw [HashCommand.request_nil]
    exact ⟨rfl, rfl⟩
  · intro env s message presented hrunning hmax _
    subst hrunning
    have hrequest : HashCommand.request KCMVP_HMAC_VERI usKeyIndex presented ⟨.end_, message⟩ =
        0x02 :: 0x7F :: hiByte message.length :: loByte message.length ::
          (message ++ presented) := rfl
    rw [hrequest]
    simp only [checksumDevice, hword message hmax]
    rw [List.take_left' rfl, List.drop_left' rfl]
    rfl
  · intro key s presented data hdata
    unfold checksum at hdata
    dsimp only at hdata
    split at hdata
    · obtain rfl := Answer.accepted.inj hdata
      rfl
    · cases hdata

/-- Three commands: a MAC of a message of 6000 bytes. -/
theorem kcmvpHashDsa_steps_three :
    let x := poweredOn (fun i => UInt8.ofNat i) (Frame.idle 0)
    let presented := hashPresented KCMVP_HMAC_VERI (x.arg 32 32) (x.arg 0 32)
    let answer := checksum.eval KCMVP_HMAC_VERI 1 (x.arg 64 6000) presented
    ∃ y es, kcmvpHashDsa (frameWorld checksumDevice silentNet fun _ => 0) 51 32 0 64 6000 1
        KCMVP_HMAC_VERI x = (some answer.code, y) ∧
      y.app = hashOutput KCMVP_HMAC_VERI 32 0 x.app answer ∧
      y.trace = x.trace ++ es ∧
      requests es = (hashCommands (x.arg 64 6000)).map
        (HashCommand.request KCMVP_HMAC_VERI 1 presented) ∧
      (hashCommands (x.arg 64 6000)).flatMap HashCommand.message = x.arg 64 6000 :=
  kcmvpHashDsa_steps silentNet (fun _ => 0) (hashesInSteps_checksumDevice 1) (Nat.le_refl 51)
    (waiting_poweredOn _ _) trivial (Or.inl (by decide)) (by decide) (by decide) (by decide)

end MavlinkDim
