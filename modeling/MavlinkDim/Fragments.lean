import MavlinkDim.History
import MavlinkDim.SerialReader

/-!
# Fragments

`autopilot_read_message` decrypts whatever `encrypted_text` holds when a fragment
comes that is not one of the first two.  A message names its place in a block and not
the block, so here each message of a stream comes with the block that it was sent for,
which the thread does not see.  `decrypts_need_fragments_iff` says in which streams
every decrypt is of a block which arrived since the decrypt before.
-/

namespace MavlinkDim

open ByteMemory History

namespace Mavlink

variable (M : Mavlink)

/-- The message, if it is fragment `seqnr`. -/
def fragment (seqnr : Nat) (r : Option M.Message) : Option M.Message :=
  r.filter fun message => M.msgid message = MAVLINK_MSG_ID_ENCAPSULATED_DATA ∧
    (M.encapsulatedDataDecode message).seqnr = seqnr

/-- The message with its block, if it is fragment `seqnr`. -/
def labelledFragment {β : Type*} (seqnr : Nat) (r : Option (M.Message × β)) :
    Option (M.Message × β) :=
  r.filter fun m => M.msgid m.1 = MAVLINK_MSG_ID_ENCAPSULATED_DATA ∧
    (M.encapsulatedDataDecode m.1).seqnr = seqnr

/-- The message is a fragment behind the first two. -/
def Decrypted (r : Option M.Message) : Prop :=
  ∃ message ∈ r, M.msgid message = MAVLINK_MSG_ID_ENCAPSULATED_DATA ∧
    2 ≤ (M.encapsulatedDataDecode message).seqnr

instance (r : Option M.Message) : Decidable (M.Decrypted r) := by
  unfold Decrypted; infer_instance

variable {M}

theorem fragment_eq_some {seqnr : Nat} {r : Option M.Message} {f : M.Message} :
    M.fragment seqnr r = some f ↔ r = some f ∧ M.Fragment f seqnr := by
  rw [fragment, Option.filter_eq_some_iff, decide_eq_true_eq]
  apply and_congr_right
  intro _
  constructor
  · rintro ⟨hmsgid, hseqnr⟩
    exact ⟨hmsgid, hseqnr⟩
  · intro h
    exact ⟨h.msgid, h.seqnr⟩

theorem labelledFragment_map {β : Type*} (seqnr : Nat) (r : Option (M.Message × β)) :
    (M.labelledFragment seqnr r).map Prod.fst = M.fragment seqnr (r.map Prod.fst) := by
  rw [labelledFragment, fragment, Option.filter_map]
  rfl

end Mavlink

namespace SerialReader

variable (M : Mavlink) {β : Type*} (contents : Nat → Bytes)

/-- What the thread sees of a stream. -/
def seen (pre : List (Option (M.Message × β))) : List (Option M.Message) :=
  pre.map (Option.map Prod.fst)

/-- After the results in `pre`, the result `r` makes the thread decrypt `block`. -/
def Decrypts (pre : List (Option M.Message)) (r : Option M.Message) (block : EncryptedBlock) :
    Prop :=
  (((start contents).after M contents pre).next M contents r).2 = .decrypt block

/-- `f` is the last fragment `seqnr`, of block `b`, and came since the last decrypt. -/
def Received (pre : List (Option (M.Message × β))) (seqnr : Nat) (f : M.Message) (b : β) : Prop :=
  ∃ rs, Since (M.labelledFragment seqnr) pre (f, b) rs ∧ ∀ r ∈ seen M rs, ¬M.Decrypted r

/-- The first two of three fragments, which make the ciphertext, are of one block. -/
def OneCiphertext (b₀ b₁ _b₂ : β) : Prop := b₀ = b₁

/-- All three fragments are of one block. -/
def OneBlock (b₀ b₁ b₂ : β) : Prop := b₀ = b₁ ∧ b₁ = b₂

variable (whole : β → β → β → Prop)

/-- A decrypt is made by fragment 2, and its ciphertext is that of the first two fragments, both
    of them received since the decrypt before; the blocks of the three are as `whole` says. -/
def FromFragments (pre : List (Option (M.Message × β))) (r : Option (M.Message × β)) : Prop :=
  ∀ block, Decrypts M contents (seen M pre) (r.map Prod.fst) block →
    ∃ f₂ b₂, r = some (f₂, b₂) ∧ M.Fragment f₂ 2 ∧
      ∃ f₀ b₀ f₁ b₁, Received M pre 0 f₀ b₀ ∧ Received M pre 1 f₁ b₁ ∧ whole b₀ b₁ b₂ ∧
        block.encryptedText = slice (M.encapsulatedDataDecode f₀).data 0 128 ++
          slice (M.encapsulatedDataDecode f₁).data 0 128

/-- The last fragment `seqnr` was of block `b`, with no decrypt and no heartbeat after it. -/
def Present (pre : List (Option (M.Message × β))) (seqnr : Nat) (b : β) : Prop :=
  ∃ f rs, Since (M.labelledFragment seqnr) pre (f, b) rs ∧
    ∀ r ∈ seen M rs, ¬M.Decrypted r ∧ ¬M.Heartbeat r

/-- A fragment behind the first two is fragment 2, and comes when the first two are present, of
    the blocks that `whole` asks for. -/
def Complete (pre : List (Option (M.Message × β))) (r : Option (M.Message × β)) : Prop :=
  M.Decrypted (r.map Prod.fst) → ∃ f₂ b₂, r = some (f₂, b₂) ∧ M.Fragment f₂ 2 ∧
    ∃ b₀ b₁, Present M pre 0 b₀ ∧ Present M pre 1 b₁ ∧ whole b₀ b₁ b₂

variable {M} {contents}

/-! ### When the thread decrypts -/

theorem autopilotReadMessage_decrypt_iff (encryptedText : Bytes) (r : Option M.Message) :
    (∃ block, (autopilotReadMessage M encryptedText r).2 = .decrypt block) ↔ M.Decrypted r := by
  cases r with
  | none => simp [autopilotReadMessage, Mavlink.Decrypted]
  | some message =>
    have hdropped : MAVLINK_MSG_ID_ENCAPSULATED_DATA ∉ droppedMsgids := by decide
    simp only [autopilotReadMessage, Mavlink.Decrypted, Option.mem_def, Option.some.injEq,
      exists_eq_left']
    by_cases hdata : M.msgid message = MAVLINK_MSG_ID_ENCAPSULATED_DATA
    · rw [hdata, if_neg hdropped]
      by_cases hlt : (M.encapsulatedDataDecode message).seqnr < 2
      · simp [hlt]
      · simp [hlt, Nat.le_of_not_lt hlt]
    · by_cases hmem : M.msgid message ∈ droppedMsgids
      · simp [hdata, hmem]
      · simp [hdata, hmem]

theorem autopilotReadMessage_decrypt {encryptedText : Bytes} {r : Option M.Message}
    {block : EncryptedBlock} (h : (autopilotReadMessage M encryptedText r).2 = .decrypt block) :
    block.encryptedText = slice encryptedText 0 256 := by
  cases r with
  | none => cases h
  | some message =>
    simp only [autopilotReadMessage] at h
    split at h
    · cases h
    · split at h
      · split at h
        · cases h
        · simp only [SerialAction.decrypt.injEq] at h
          rw [← h]
      · cases h

variable (contents) in
/-- The thread decrypts exactly at the fragments behind the first two. -/
theorem exists_decrypts_iff (pre : List (Option M.Message)) (r : Option M.Message) :
    (∃ block, Decrypts M contents pre r block) ↔ M.Decrypted r := by
  simp only [Decrypts, next_action]
  exact autopilotReadMessage_decrypt_iff _ r

theorem Decrypts.encryptedText {pre : List (Option M.Message)} {r : Option M.Message}
    {block : EncryptedBlock} (h : Decrypts M contents pre r block) :
    block.encryptedText = slice ((start contents).after M contents pre).encryptedText 0 256 := by
  rw [Decrypts, next_action] at h
  exact autopilotReadMessage_decrypt h

/-! ### The two halves of the array -/

theorem autopilotReadMessage_half (encryptedText : Bytes) {r : Option M.Message} {seqnr : Nat}
    (h : M.fragment seqnr r = none) :
    slice (autopilotReadMessage M encryptedText r).1 (128 * seqnr) 128 =
      slice encryptedText (128 * seqnr) 128 := by
  by_cases hdata : M.Encapsulated r
  · obtain ⟨message, rfl, hmsgid⟩ := hdata
    have hdropped : MAVLINK_MSG_ID_ENCAPSULATED_DATA ∉ droppedMsgids := by decide
    simp only [autopilotReadMessage, hmsgid, if_neg hdropped, if_true]
    split
    · have hne : (M.encapsulatedDataDecode message).seqnr ≠ seqnr := by
        rintro rfl
        have hsome := Mavlink.fragment_eq_some.mpr ⟨rfl, ⟨hmsgid, rfl⟩⟩
        rw [h] at hsome
        cases hsome
      apply slice_blit_disjoint
      omega
    · rfl
  · rw [autopilotReadMessage_other _ hdata]

variable (contents) in
/-- Without fragment `seqnr` its half of the array stays as it is, or it is what a call found
    there. -/
theorem after_half (s : SerialReader) {seqnr : Nat} {rs : List (Option M.Message)}
    (h : ∀ r ∈ rs, M.fragment seqnr r = none) :
    (∀ r ∈ rs, ¬M.Heartbeat r) ∧
        slice (s.after M contents rs).encryptedText (128 * seqnr) 128 =
          slice s.encryptedText (128 * seqnr) 128 ∨
      (∃ r ∈ rs, M.Heartbeat r) ∧ ∃ k,
        slice (s.after M contents rs).encryptedText (128 * seqnr) 128 =
          slice (contents k) (128 * seqnr) 128 := by
  induction rs generalizing s with
  | nil => exact Or.inl ⟨by simp, rfl⟩
  | cons r rs ih =>
    obtain ⟨hr, hrs⟩ := List.forall_mem_cons.mp h
    rw [after_cons]
    by_cases hbeat : M.Heartbeat r
    · refine Or.inr ⟨⟨r, by simp, hbeat⟩, ?_⟩
      rcases ih (s.next M contents r).1 hrs with ⟨-, hafter⟩ | ⟨-, hafter⟩
      · refine ⟨s.calls + 1, ?_⟩
        rw [hafter, next_of_heartbeat contents s hbeat]
      · exact hafter
    · have hnext : slice (s.next M contents r).1.encryptedText (128 * seqnr) 128 =
          slice s.encryptedText (128 * seqnr) 128 := by
        rw [next_of_not_heartbeat s hbeat]
        exact autopilotReadMessage_half _ hr
      rcases ih (s.next M contents r).1 hrs with ⟨hnone, hafter⟩ | ⟨⟨r', hmem, hbeat'⟩, hafter⟩
      · exact Or.inl ⟨List.forall_mem_cons.mpr ⟨hbeat, hnone⟩, hafter.trans hnext⟩
      · exact Or.inr ⟨⟨r', List.mem_cons_of_mem r hmem, hbeat'⟩, hafter⟩

/-- The half of the last fragment `seqnr` holds its data, whatever the calls find in their
    arrays, exactly if no heartbeat came after it. -/
theorem half_iff {pre rs : List (Option M.Message)} {seqnr : Nat} {f : M.Message}
    (h : Since (M.fragment seqnr) pre f rs) (hlt : seqnr < 2) :
    (∀ contents,
        slice ((start contents).after M contents pre).encryptedText (128 * seqnr) 128 =
          slice (M.encapsulatedDataDecode f).data 0 128) ↔
      ∀ r ∈ rs, ¬M.Heartbeat r := by
  obtain ⟨l, e, rfl, hvalue, hnone⟩ := h
  obtain ⟨rfl, hfragment⟩ := Mavlink.fragment_eq_some.mp hvalue
  have hhalf : ∀ contents : Nat → Bytes,
      (∀ r ∈ rs, ¬M.Heartbeat r) ∧
          slice ((start contents).after M contents (l ++ some f :: rs)).encryptedText
            (128 * seqnr) 128 = slice (M.encapsulatedDataDecode f).data 0 128 ∨
        (∃ r ∈ rs, M.Heartbeat r) ∧ ∃ k,
          slice ((start contents).after M contents (l ++ some f :: rs)).encryptedText
            (128 * seqnr) 128 = slice (contents k) (128 * seqnr) 128 := by
    intro contents
    have hcases := after_half contents (⟨((start contents).after M contents l).calls,
      blit ((start contents).after M contents l).encryptedText (128 * seqnr)
        (M.encapsulatedDataDecode f).data 0 128⟩ : SerialReader) hnone
    rw [← after_fragment _ hfragment hlt, ← after_append] at hcases
    simpa only [slice_blit_same] using hcases
  constructor
  · intro hright r hmem hbeat
    -- arrays that start with a byte that the fragment does not have
    set contents : Nat → Bytes := fun _ _ => (M.encapsulatedDataDecode f).data 0 + 1
    rcases hhalf contents with ⟨hquiet, -⟩ | ⟨-, k, hstale⟩
    · exact hquiet r hmem hbeat
    · have hzero := slice_eq_iff.mp (hstale.symm.trans (hright contents)) 0 (by omega)
      exact absurd hzero (by simp [contents])
  · intro hquiet contents
    rcases hhalf contents with ⟨-, hdata⟩ | ⟨⟨r, hmem, hbeat⟩, -⟩
    · exact hdata
    · exact absurd hbeat (hquiet r hmem)

/-! ### The streams -/

variable {whole} {pre : List (Option (M.Message × β))} {r : Option (M.Message × β)}

theorem since_seen {seqnr : Nat} {f : M.Message} {b : β} {rs : List (Option (M.Message × β))}
    (h : Since (M.labelledFragment seqnr) pre (f, b) rs) :
    Since (M.fragment seqnr) (seen M pre) f (seen M rs) := by
  obtain ⟨l, e, rfl, hvalue, hnone⟩ := h
  refine ⟨seen M l, e.map Prod.fst, ?_, ?_, ?_⟩
  · simp only [seen, List.map_append, List.map_cons]
  · rw [← Mavlink.labelledFragment_map, hvalue]
    rfl
  · intro r hr
    obtain ⟨e', hmem, rfl⟩ := List.mem_map.mp hr
    rw [← Mavlink.labelledFragment_map, hnone e' hmem]
    rfl

theorem Received.present {seqnr : Nat} {f : M.Message} {b : β} (h : Received M pre seqnr f b)
    (hlt : seqnr < 2)
    (hdata : ∀ contents,
      slice ((start contents).after M contents (seen M pre)).encryptedText (128 * seqnr) 128 =
        slice (M.encapsulatedDataDecode f).data 0 128) : Present M pre seqnr b := by
  obtain ⟨rs, hsince, hnone⟩ := h
  have hquiet := (half_iff (since_seen hsince) hlt).mp hdata
  exact ⟨f, rs, hsince, fun r hmem => ⟨hnone r hmem, hquiet r hmem⟩⟩

theorem Present.received {seqnr : Nat} {b : β} (h : Present M pre seqnr b) (hlt : seqnr < 2) :
    ∃ f, Received M pre seqnr f b ∧ ∀ contents,
      slice ((start contents).after M contents (seen M pre)).encryptedText (128 * seqnr) 128 =
        slice (M.encapsulatedDataDecode f).data 0 128 := by
  obtain ⟨f, rs, hsince, hrs⟩ := h
  refine ⟨f, ⟨rs, hsince, fun r hmem => (hrs r hmem).1⟩, ?_⟩
  exact (half_iff (since_seen hsince) hlt).mpr fun r hmem => (hrs r hmem).2

theorem Received.unique {seqnr : Nat} {f f' : M.Message} {b b' : β}
    (h : Received M pre seqnr f b) (h' : Received M pre seqnr f' b') : f = f' ∧ b = b' := by
  obtain ⟨rs, hsince, -⟩ := h
  obtain ⟨rs', hsince', -⟩ := h'
  exact Prod.mk.inj (hsince.unique hsince').1

variable (whole) in
theorem fromFragments_iff (pre : List (Option (M.Message × β))) (r : Option (M.Message × β)) :
    (∀ contents, FromFragments M contents whole pre r) ↔ Complete M whole pre r := by
  constructor
  · intro hfrom hdecrypted
    have hhalves : ∀ contents, ∃ f₂ b₂, r = some (f₂, b₂) ∧ M.Fragment f₂ 2 ∧
        ∃ f₀ b₀ f₁ b₁, Received M pre 0 f₀ b₀ ∧ Received M pre 1 f₁ b₁ ∧ whole b₀ b₁ b₂ ∧
          slice ((start contents).after M contents (seen M pre)).encryptedText (128 * 0) 128 =
            slice (M.encapsulatedDataDecode f₀).data 0 128 ∧
          slice ((start contents).after M contents (seen M pre)).encryptedText (128 * 1) 128 =
            slice (M.encapsulatedDataDecode f₁).data 0 128 := by
      intro contents
      obtain ⟨block, hblock⟩ := (exists_decrypts_iff contents (seen M pre) _).mpr hdecrypted
      obtain ⟨f₂, b₂, hr, h₂, f₀, b₀, f₁, b₁, h₀, h₁, hwhole, htext⟩ := hfrom contents block hblock
      rw [hblock.encryptedText, show 256 = 128 + 128 from rfl, slice_append] at htext
      obtain ⟨hhalf₀, hhalf₁⟩ := List.append_inj htext (by simp)
      exact ⟨f₂, b₂, hr, h₂, f₀, b₀, f₁, b₁, h₀, h₁, hwhole, hhalf₀, hhalf₁⟩
    obtain ⟨f₂, b₂, hr, h₂, f₀, b₀, f₁, b₁, h₀, h₁, hwhole, -⟩ := hhalves fun _ _ => 0
    refine ⟨f₂, b₂, hr, h₂, b₀, b₁, ?_, ?_, hwhole⟩
    · apply h₀.present (by omega)
      intro contents
      obtain ⟨-, -, -, -, f₀', b₀', -, -, h₀', -, -, hhalf, -⟩ := hhalves contents
      rw [(h₀.unique h₀').1]
      exact hhalf
    · apply h₁.present (by omega)
      intro contents
      obtain ⟨-, -, -, -, -, -, f₁', b₁', -, h₁', -, -, hhalf⟩ := hhalves contents
      rw [(h₁.unique h₁').1]
      exact hhalf
  · intro hcomplete contents block hblock
    obtain ⟨f₂, b₂, hr, h₂, b₀, b₁, hpresent₀, hpresent₁, hwhole⟩ :=
      hcomplete ((exists_decrypts_iff contents (seen M pre) _).mp ⟨block, hblock⟩)
    obtain ⟨f₀, h₀, hhalf₀⟩ := hpresent₀.received (by omega)
    obtain ⟨f₁, h₁, hhalf₁⟩ := hpresent₁.received (by omega)
    refine ⟨f₂, b₂, hr, h₂, f₀, b₀, f₁, b₁, h₀, h₁, hwhole, ?_⟩
    rw [hblock.encryptedText, show 256 = 128 + 128 from rfl, slice_append, ← hhalf₀ contents,
      ← hhalf₁ contents]

variable (whole) in
theorem admitted_fromFragments_iff (rs : List (Option (M.Message × β))) :
    (∀ contents, Admitted (FromFragments M contents whole) rs) ↔
      Admitted (Complete M whole) rs := by
  constructor
  · intro hfrom pre r post hsplit
    apply (fromFragments_iff whole pre r).mp
    intro contents
    exact hfrom contents pre r post hsplit
  · intro hcomplete contents pre r post hsplit
    exact (fromFragments_iff whole pre r).mpr (hcomplete pre r post hsplit) contents

/-- **Which streams are decrypted from their fragments.**  Whatever block each message of a stream
    was sent for, every decrypt is made by fragment 2 with the data of fragments 0 and 1, both
    received since the decrypt before and of one block, whatever the arrays of the calls hold at
    their start, exactly if every fragment behind the first two is fragment 2 and comes when the
    first two have come, the last of each of one block, with no decrypt and no heartbeat after
    either.  Where fragment 2 should be of that block too, exactly if it is so in the stream. -/
theorem decrypts_need_fragments_iff (rs : List (Option (M.Message × β))) :
    ((∀ contents, Admitted (FromFragments M contents OneCiphertext) rs) ↔
        Admitted (Complete M OneCiphertext) rs) ∧
      ((∀ contents, Admitted (FromFragments M contents OneBlock) rs) ↔
        Admitted (Complete M OneBlock) rs) :=
  ⟨admitted_fromFragments_iff OneCiphertext rs, admitted_fromFragments_iff OneBlock rs⟩

end SerialReader

/-- Fragment 1 of the second block is lost: its fragment 0 is decrypted with fragment 1 of the
    block before. -/
theorem decrypts_mixed :
    let contents : Nat → Bytes := fun _ _ => 0
    let rs : List (Option (Mavlink1Message × Nat)) := [some (uniformFragment 0 7, 0),
      some (uniformFragment 1 8, 0), some (uniformFragment 2 0, 0), some (uniformFragment 0 9, 1)]
    let r : Option (Mavlink1Message × Nat) := some (uniformFragment 2 0, 1)
    (((SerialReader.start contents).after mavlink1 contents (SerialReader.seen mavlink1 rs)).next
        mavlink1 contents (r.map Prod.fst)).2.ciphertext =
      some (List.replicate 128 9 ++ List.replicate 128 8) ∧
    ¬Admitted (SerialReader.FromFragments mavlink1 contents SerialReader.OneCiphertext)
      (rs ++ [r]) := by
  intro contents rs r
  refine ⟨by decide +kernel, ?_⟩
  intro hadmitted
  have hfrom : SerialReader.FromFragments mavlink1 contents SerialReader.OneCiphertext rs r :=
    hadmitted rs r [] rfl
  obtain ⟨block, hblock⟩ := (SerialReader.exists_decrypts_iff (M := mavlink1) contents
    (SerialReader.seen mavlink1 rs) (r.map Prod.fst)).mpr (by decide +kernel)
  obtain ⟨-, -, -, -, f₀, b₀, f₁, b₁, -, ⟨es, hsince, hnone⟩, -⟩ := hfrom block hblock
  have hlast : Since (mavlink1.labelledFragment 1) rs (uniformFragment 1 8, 0)
      [some (uniformFragment 2 0, 0), some (uniformFragment 0 9, 1)] :=
    ⟨[some (uniformFragment 0 7, 0)], some (uniformFragment 1 8, 0), rfl, by decide +kernel,
      by decide +kernel⟩
  obtain ⟨-, rfl⟩ := hsince.unique hlast
  exact hnone (some (uniformFragment 2 0)) (by simp [SerialReader.seen]) (by decide +kernel)

end MavlinkDim
