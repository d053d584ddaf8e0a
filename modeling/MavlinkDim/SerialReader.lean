import MavlinkDim.Mavlink

/-!
# The serial reader

`start_autopilot_read_thread` of the server calls `autopilot_read_message` again
and again, and a call reads messages until it has passed on a heartbeat.  The
first two fragments of an encrypted block go to `encrypted_text`, an array of the
call, and the third one decrypts it.  `ciphertext_reassembled_iff` says between
which messages a block may arrive for that to work.
-/

namespace MavlinkDim

open ByteMemory

/-- The messages that are read and not passed on. -/
def droppedMsgids : List Nat :=
  [MAVLINK_MSG_ID_ATTITUDE_QUATERNION, MAVLINK_MSG_ID_ATTITUDE_TARGET,
    MAVLINK_MSG_ID_LOCAL_POSITION_NED, MAVLINK_MSG_ID_SERVO_OUTPUT_RAW,
    MAVLINK_MSG_ID_HIGHRES_IMU, MAVLINK_MSG_ID_TIMESYNC, MAVLINK_MSG_ID_VFR_HUD,
    MAVLINK_MSG_ID_VIBRATION, MAVLINK_MSG_ID_ESTIMATOR_STATUS, MAVLINK_MSG_ID_SCALED_IMU,
    MAVLINK_MSG_ID_SCALED_IMU2, MAVLINK_MSG_ID_ACTUATOR_CONTROL_TARGET,
    MAVLINK_MSG_ID_ODOMETRY, MAVLINK_MSG_ID_EXTENDED_SYS_STATE, MAVLINK_MSG_ID_BATTERY_STATUS]

/-- What `_kcmvpAriaGcm` is given for a block. -/
structure EncryptedBlock where
  encryptedText : List UInt8
  abIv : List UInt8
  abAuth : List UInt8
  abTag : List UInt8
deriving DecidableEq, Repr

/-- What the loop does with the result of one `port->read_message`. -/
inductive SerialAction (Message : Type) where
  | none
  | store
  | decrypt (block : EncryptedBlock)
  | enqueue (message : Message)
deriving DecidableEq, Repr

variable (M : Mavlink)

/-- One turn of the loop of `autopilot_read_message`: the array after it, and what is done.
    `none` is a `read_message` that gives no message. -/
def autopilotReadMessage (encryptedText : Bytes) :
    Option M.Message → Bytes × SerialAction M.Message
  | none => (encryptedText, .none)
  | some message =>
    if M.msgid message ∈ droppedMsgids then (encryptedText, .none)
    else if M.msgid message = MAVLINK_MSG_ID_ENCAPSULATED_DATA then
      let encapsulatedData := M.encapsulatedDataDecode message
      if encapsulatedData.seqnr < 2 then
        (blit encryptedText (128 * encapsulatedData.seqnr) encapsulatedData.data 0 128, .store)
      else
        (encryptedText, .decrypt
          ⟨slice encryptedText 0 256, slice encapsulatedData.data 0 16,
            slice encapsulatedData.data 16 128, slice encapsulatedData.data 144 16⟩)
    else (encryptedText, .enqueue message)

/-- The thread: how many calls have returned, and the array of the call that runs. -/
structure SerialReader where
  calls : Nat
  encryptedText : Bytes

namespace SerialReader

variable (contents : Nat → Bytes)

/-- The thread enters its first call.  `contents` is what the array holds when a call starts. -/
def start : SerialReader := ⟨0, contents 0⟩

/-- A heartbeat is passed on and ends the call; the thread makes the next one. -/
def next (s : SerialReader) (r : Option M.Message) : SerialReader × SerialAction M.Message :=
  let (encryptedText, action) := autopilotReadMessage M s.encryptedText r
  match action with
  | .enqueue message =>
    if M.msgid message = MAVLINK_MSG_ID_HEARTBEAT then
      (⟨s.calls + 1, contents (s.calls + 1)⟩, action)
    else (⟨s.calls, encryptedText⟩, action)
  | action => (⟨s.calls, encryptedText⟩, action)

/-- The thread after the results of `read_message`. -/
def after (s : SerialReader) (rs : List (Option M.Message)) : SerialReader :=
  rs.foldl (fun s r => (s.next M contents r).1) s

end SerialReader

def SerialAction.enqueued {Message : Type} : SerialAction Message → Option Message
  | .enqueue message => some message
  | _ => Option.none

def SerialAction.ciphertext {Message : Type} : SerialAction Message → Option (List UInt8)
  | .decrypt block => some block.encryptedText
  | _ => Option.none

namespace Mavlink

/-- The messages for `q_to_gcs`. -/
def Forwarded (message : M.Message) : Prop :=
  M.msgid message ∉ droppedMsgids ∧ M.msgid message ≠ MAVLINK_MSG_ID_ENCAPSULATED_DATA

instance (message : M.Message) : Decidable (M.Forwarded message) := by
  unfold Forwarded; infer_instance

def Heartbeat (r : Option M.Message) : Prop :=
  ∃ message ∈ r, M.msgid message = MAVLINK_MSG_ID_HEARTBEAT

instance (r : Option M.Message) : Decidable (M.Heartbeat r) := by
  unfold Heartbeat; infer_instance

def Encapsulated (r : Option M.Message) : Prop :=
  ∃ message ∈ r, M.msgid message = MAVLINK_MSG_ID_ENCAPSULATED_DATA

instance (r : Option M.Message) : Decidable (M.Encapsulated r) := by
  unfold Encapsulated; infer_instance

/-- Fragment `seqnr` of a block. -/
structure Fragment (message : M.Message) (seqnr : Nat) : Prop where
  msgid : M.msgid message = MAVLINK_MSG_ID_ENCAPSULATED_DATA
  seqnr : (M.encapsulatedDataDecode message).seqnr = seqnr

end Mavlink

namespace SerialReader

variable {M} {contents}

/-! ### What the thread passes on -/

theorem autopilotReadMessage_enqueued (encryptedText : Bytes) (r : Option M.Message) :
    (autopilotReadMessage M encryptedText r).2.enqueued = r.filter (fun m => M.Forwarded m) := by
  cases r with
  | none => rfl
  | some message =>
    simp only [autopilotReadMessage, Option.filter_some]
    by_cases hdropped : M.msgid message ∈ droppedMsgids
    · have hnot : ¬M.Forwarded message := by
        intro h
        exact h.1 hdropped
      simp [hdropped, hnot, SerialAction.enqueued]
    · by_cases hdata : M.msgid message = MAVLINK_MSG_ID_ENCAPSULATED_DATA
      · have hnot : ¬M.Forwarded message := by
          intro h
          exact h.2 hdata
        rw [if_neg hdropped, if_pos hdata]
        split <;> simp [hnot, SerialAction.enqueued]
      · have hforwarded : M.Forwarded message := ⟨hdropped, hdata⟩
        simp [hdropped, hdata, hforwarded, SerialAction.enqueued]

theorem next_action (s : SerialReader) (r : Option M.Message) :
    (s.next M contents r).2 = (autopilotReadMessage M s.encryptedText r).2 := by
  simp only [next]
  split
  · split <;> rfl
  · rfl

/-! ### The array -/

variable (contents) in
theorem next_of_heartbeat (s : SerialReader) {r : Option M.Message} (h : M.Heartbeat r) :
    (s.next M contents r).1 = ⟨s.calls + 1, contents (s.calls + 1)⟩ := by
  obtain ⟨message, rfl, hmsgid⟩ := h
  have hdropped : MAVLINK_MSG_ID_HEARTBEAT ∉ droppedMsgids := by decide
  have hdata : MAVLINK_MSG_ID_HEARTBEAT ≠ MAVLINK_MSG_ID_ENCAPSULATED_DATA := by decide
  simp [next, autopilotReadMessage, hmsgid, hdropped, hdata]

theorem next_of_not_heartbeat (s : SerialReader) {r : Option M.Message} (h : ¬M.Heartbeat r) :
    (s.next M contents r).1 = ⟨s.calls, (autopilotReadMessage M s.encryptedText r).1⟩ := by
  simp only [next]
  split
  · rename_i message henqueue
    have hfilter := autopilotReadMessage_enqueued s.encryptedText r
    rw [henqueue] at hfilter
    have hmem : message ∈ r := (Option.mem_filter_iff.mp hfilter.symm).1
    rw [if_neg]
    intro hmsgid
    exact h ⟨message, hmem, hmsgid⟩
  · rfl

theorem autopilotReadMessage_other (encryptedText : Bytes) {r : Option M.Message}
    (h : ¬M.Encapsulated r) : (autopilotReadMessage M encryptedText r).1 = encryptedText := by
  cases r with
  | none => rfl
  | some message =>
    have hdata : M.msgid message ≠ MAVLINK_MSG_ID_ENCAPSULATED_DATA := by
      intro hmsgid
      exact h ⟨message, rfl, hmsgid⟩
    simp only [autopilotReadMessage, if_neg hdata]
    split <;> rfl

theorem autopilotReadMessage_fragment (encryptedText : Bytes) {f : M.Message} {seqnr : Nat}
    (h : M.Fragment f seqnr) (hlt : seqnr < 2) :
    (autopilotReadMessage M encryptedText (some f)).1 =
      blit encryptedText (128 * seqnr) (M.encapsulatedDataDecode f).data 0 128 := by
  have hdropped : MAVLINK_MSG_ID_ENCAPSULATED_DATA ∉ droppedMsgids := by decide
  simp only [autopilotReadMessage, h.msgid, h.seqnr, if_neg hdropped, if_pos hlt, if_true]

theorem autopilotReadMessage_last (encryptedText : Bytes) {f : M.Message}
    (h : M.Fragment f 2) :
    (autopilotReadMessage M encryptedText (some f)).2.ciphertext =
      some (slice encryptedText 0 256) := by
  have hdropped : MAVLINK_MSG_ID_ENCAPSULATED_DATA ∉ droppedMsgids := by decide
  simp [autopilotReadMessage, h.msgid, h.seqnr, hdropped, SerialAction.ciphertext]

theorem Fragment.not_heartbeat {f : M.Message} {seqnr : Nat} (h : M.Fragment f seqnr) :
    ¬M.Heartbeat (some f) := by
  rintro ⟨message, hmem, hmsgid⟩
  obtain rfl := Option.mem_some.mp hmem
  rw [h.msgid] at hmsgid
  exact absurd hmsgid (by decide)

theorem after_cons (s : SerialReader) (r : Option M.Message) (rs : List (Option M.Message)) :
    s.after M contents (r :: rs) = (s.next M contents r).1.after M contents rs := rfl

theorem after_append (s : SerialReader) (rs rs' : List (Option M.Message)) :
    s.after M contents (rs ++ rs') = (s.after M contents rs).after M contents rs' :=
  List.foldl_append

variable (contents) in
/-- Between two fragments the array stays as it is, or it is one that a call started with. -/
theorem after_others (s : SerialReader) {rs : List (Option M.Message)}
    (h : ∀ r ∈ rs, ¬M.Encapsulated r) :
    (∀ r ∈ rs, ¬M.Heartbeat r) ∧ s.after M contents rs = s ∨
      (∃ r ∈ rs, M.Heartbeat r) ∧ ∃ k, s.after M contents rs = ⟨k, contents k⟩ := by
  induction rs generalizing s with
  | nil => exact Or.inl ⟨by simp, rfl⟩
  | cons r rs ih =>
    obtain ⟨hr, hrs⟩ := List.forall_mem_cons.mp h
    rw [after_cons]
    by_cases hbeat : M.Heartbeat r
    · have hnext := next_of_heartbeat contents s hbeat
      refine Or.inr ⟨⟨r, by simp, hbeat⟩, ?_⟩
      rcases ih (s.next M contents r).1 hrs with ⟨-, hafter⟩ | ⟨-, hafter⟩
      · exact ⟨_, hafter.trans hnext⟩
      · exact hafter
    · have hnext : (s.next M contents r).1 = s := by
        rw [next_of_not_heartbeat s hbeat, autopilotReadMessage_other _ hr]
      rw [hnext]
      rcases ih s hrs with ⟨hnone, hafter⟩ | ⟨⟨r', hmem, hbeat'⟩, hafter⟩
      · exact Or.inl ⟨List.forall_mem_cons.mpr ⟨hbeat, hnone⟩, hafter⟩
      · exact Or.inr ⟨⟨r', List.mem_cons_of_mem r hmem, hbeat'⟩, hafter⟩

/-! ### Blocks -/

theorem slice_fragments (m data₀ data₁ : Bytes) :
    slice (blit (blit m (128 * 0) data₀ 0 128) (128 * 1) data₁ 0 128) 0 256 =
      slice data₀ 0 128 ++ slice data₁ 0 128 := by
  rw [show 256 = 128 + 128 from rfl, slice_append, slice_blit_disjoint _ _ (by omega)]
  simp only [Nat.mul_zero, Nat.mul_one, Nat.zero_add, slice_blit_same]

theorem after_fragment (s : SerialReader) {f : M.Message} {seqnr : Nat} (h : M.Fragment f seqnr)
    (hlt : seqnr < 2) (rs : List (Option M.Message)) :
    s.after M contents (some f :: rs) =
      (⟨s.calls, blit s.encryptedText (128 * seqnr) (M.encapsulatedDataDecode f).data 0 128⟩ :
        SerialReader).after M contents rs := by
  rw [after_cons, next_of_not_heartbeat s (Fragment.not_heartbeat h),
    autopilotReadMessage_fragment _ h hlt]

theorem next_last (s : SerialReader) {f : M.Message} (h : M.Fragment f 2) :
    (s.next M contents (some f)).2.ciphertext = some (slice s.encryptedText 0 256) := by
  rw [next_action, autopilotReadMessage_last _ h]

variable {pre mid₁ mid₂ : List (Option M.Message)} {f₀ f₁ f₂ : M.Message}

variable (contents) in
/-- After two fragments the array holds both, or a heartbeat came and it starts with a byte
    that a call found there. -/
theorem after_block (s : SerialReader) (h₀ : M.Fragment f₀ 0) (h₁ : M.Fragment f₁ 1)
    (hmid : ∀ r ∈ mid₁ ++ mid₂, ¬M.Encapsulated r) :
    let s' := s.after M contents (some f₀ :: mid₁ ++ some f₁ :: mid₂)
    (∀ r ∈ mid₁ ++ mid₂, ¬M.Heartbeat r) ∧
        slice s'.encryptedText 0 256 =
          slice (M.encapsulatedDataDecode f₀).data 0 128 ++
            slice (M.encapsulatedDataDecode f₁).data 0 128 ∨
      (∃ r ∈ mid₁ ++ mid₂, M.Heartbeat r) ∧ ∃ k, s'.encryptedText 0 = contents k 0 := by
  intro s'
  obtain ⟨hmid₁, hmid₂⟩ := List.forall_mem_append.mp hmid
  set s₀ : SerialReader :=
    ⟨s.calls, blit s.encryptedText (128 * 0) (M.encapsulatedDataDecode f₀).data 0 128⟩
  have hs' : s' = (s₀.after M contents mid₁).after M contents (some f₁ :: mid₂) := by
    rw [← after_append, ← after_fragment s h₀ (by omega)]
    rfl
  rw [hs']
  rcases after_others contents s₀ hmid₁ with
    ⟨hnone₁, hafter₁⟩ | ⟨⟨r, hmem, hbeat⟩, k, hafter₁⟩
  · rw [hafter₁, after_fragment s₀ h₁ (by omega)]
    rcases after_others contents _ hmid₂ with
      ⟨hnone₂, hafter₂⟩ | ⟨⟨r, hmem, hbeat⟩, k, hafter₂⟩
    · refine Or.inl ⟨List.forall_mem_append.mpr ⟨hnone₁, hnone₂⟩, ?_⟩
      rw [hafter₂]
      exact slice_fragments _ _ _
    · refine Or.inr ⟨⟨r, List.mem_append_right _ hmem, hbeat⟩, k, ?_⟩
      rw [hafter₂]
  · refine Or.inr ⟨⟨r, List.mem_append_left _ hmem, hbeat⟩, ?_⟩
    rw [hafter₁, after_fragment _ h₁ (by omega)]
    rcases after_others contents _ hmid₂ with ⟨-, hafter₂⟩ | ⟨-, k', hafter₂⟩
    · refine ⟨k, ?_⟩
      rw [hafter₂]
      dsimp only
      apply blit_out
      exact Or.inl (by decide)
    · refine ⟨k', ?_⟩
      rw [hafter₂]

/-- **When a block is put together.**  Let the three fragments of a block arrive in order, with
    messages of other kinds between them, after any messages before.  Then the ciphertext that
    is decrypted is made of the data of the first two, whatever the arrays of the calls hold at
    their start, exactly when no heartbeat comes between the fragments. -/
theorem ciphertext_reassembled_iff (h₀ : M.Fragment f₀ 0) (h₁ : M.Fragment f₁ 1)
    (h₂ : M.Fragment f₂ 2) (hmid : ∀ r ∈ mid₁ ++ mid₂, ¬M.Encapsulated r) :
    (∀ contents,
      (((start contents).after M contents (pre ++ (some f₀ :: mid₁ ++ some f₁ :: mid₂))).next M
          contents (some f₂)).2.ciphertext =
        some (slice (M.encapsulatedDataDecode f₀).data 0 128 ++
          slice (M.encapsulatedDataDecode f₁).data 0 128)) ↔
      ∀ r ∈ mid₁ ++ mid₂, ¬M.Heartbeat r := by
  constructor
  · intro hright r hmem hbeat
    -- arrays that start with a byte that the block does not have
    set contents : Nat → Bytes := fun _ _ => (M.encapsulatedDataDecode f₀).data 0 + 1
    have hlast := hright contents
    rw [next_last _ h₂, Option.some_inj, after_append] at hlast
    rcases after_block contents _ h₀ h₁ hmid with ⟨hnone, -⟩ | ⟨-, k, hbyte⟩
    · exact hnone r hmem hbeat
    · have hfirst := congrArg (List.take 128) hlast
      rw [take_slice _ _ (by omega), List.take_left' (by simp)] at hfirst
      have hzero := slice_eq_iff.mp hfirst 0 (by omega)
      rw [Nat.zero_add, hbyte] at hzero
      exact absurd hzero (by simp [contents])
  · intro hnone contents
    rw [next_last _ h₂, after_append]
    rcases after_block contents _ h₀ h₁ hmid with ⟨-, hblock⟩ | ⟨⟨r, hmem, hbeat⟩, -⟩
    · rw [hblock]
    · exact absurd hbeat (hnone r hmem)

end SerialReader

/-- Fragment `seqnr` with data that is `b` everywhere. -/
def uniformFragment (seqnr b : UInt8) : Mavlink1Message :=
  ⟨0, 1, 1, 131, seqnr :: 0 :: List.replicate 253 b⟩

theorem uniformFragment_fragment (seqnr b : UInt8) :
    mavlink1.Fragment (uniformFragment seqnr b) seqnr.toNat := by
  constructor
  · rfl
  · exact Nat.add_zero _

theorem slice_uniformFragment (seqnr b : UInt8) :
    slice (mavlink1.encapsulatedDataDecode (uniformFragment seqnr b)).data 0 128 =
      List.replicate 128 b := by
  apply List.ext_getElem (by rw [length_slice, List.length_replicate])
  intro i hi _
  have hlt : i < 253 := by
    rw [length_slice] at hi
    omega
  rw [getElem_slice, List.getElem_replicate, Nat.zero_add]
  have hdata : (List.replicate 253 b).getD i 0 = b := by
    rw [List.getD_eq_getElem?_getD, List.getElem?_replicate, if_pos hlt, Option.getD_some]
  exact hdata

def heartbeat : Mavlink1Message := ⟨0, 1, 1, 0, [0, 0, 0, 0, 2, 3, 81, 4, 3]⟩

/-- A block with a dropped message and a parameter between its fragments. -/
theorem ciphertext_reassembled_quiet :
    let others : List (Option Mavlink1Message) :=
      [some ⟨1, 1, 1, 31, []⟩, none, some ⟨2, 1, 1, 22, []⟩]
    ∀ contents,
      (((SerialReader.start contents).after mavlink1 contents
          ([some heartbeat] ++ (some (uniformFragment 0 7) :: others ++
            some (uniformFragment 1 8) :: others))).next mavlink1 contents
          (some (uniformFragment 2 9))).2.ciphertext =
        some (List.replicate 128 7 ++ List.replicate 128 8) := by
  intro others
  rw [← slice_uniformFragment 0 7, ← slice_uniformFragment 1 8]
  exact (SerialReader.ciphertext_reassembled_iff (uniformFragment_fragment 0 7)
    (uniformFragment_fragment 1 8) (uniformFragment_fragment 2 9) (by decide)).mpr (by decide)

/-- A heartbeat between the first two fragments: the array of the next call has what it found
    in place of the first. -/
theorem ciphertext_reassembled_heartbeat :
    let contents : Nat → Bytes := fun _ _ => 0
    let ciphertext := (((SerialReader.start contents).after mavlink1 contents
      [some (uniformFragment 0 7), some heartbeat, some (uniformFragment 1 8)]).next mavlink1
      contents (some (uniformFragment 2 9))).2.ciphertext
    ciphertext = some (List.replicate 128 0 ++ List.replicate 128 8) ∧
      ciphertext ≠ some (List.replicate 128 7 ++ List.replicate 128 8) := by
  decide +kernel

end MavlinkDim
