import MavlinkDim.KeySizes

/-!
# The key table

The device keeps keys under their type and index.  `keyTable_refines` says that
any sequence of `_kcmvpPutKey`, `_kcmvpGetKey` and `_kcmvpEraseKey` behaves as such
a table, in which no key can have a size that its type does not allow.
-/

namespace MavlinkDim

open ByteMemory CallSequences

/-! ### The table -/

/-- A size that a key of the type may have. -/
def KeyFits (bKeyType : UInt8) (usKeySize : Nat) : Prop :=
  ¬WrongKeySize bKeyType 0 usKeySize ∧ usKeySize ≤ 255

instance (bKeyType : UInt8) : DecidablePred (KeyFits bKeyType) := by
  intro usKeySize
  unfold KeyFits
  infer_instance

theorem KeyFits.right_len {bKeyType : UInt8} {usKeySize : Nat} (h : KeyFits bKeyType usKeySize) :
    ¬KeyWrongLen bKeyType (usKeySize + 2) := by
  obtain ⟨hright, hmax⟩ := h
  rintro (htable | ⟨-, hrange⟩)
  · exact hright ((wrongKeySize_add bKeyType usKeySize 2).mp htable)
  · omega

abbrev KeySlot := UInt8 × Nat

structure KeyTable where
  key : KeySlot → Option (List UInt8)
  fits : ∀ slot l, key slot = some l → KeyFits slot.1 l.length

namespace KeyTable

variable (t : KeyTable) {slot slot' : KeySlot} {l : List UInt8}

def put (slot : KeySlot) (l : List UInt8) (h : KeyFits slot.1 l.length) : KeyTable where
  key := Function.update t.key slot (some l)
  fits slot' l' hl' := by
    by_cases hslot : slot' = slot
    · subst hslot
      rw [Function.update_self] at hl'
      obtain rfl := Option.some.inj hl'
      exact h
    · rw [Function.update_of_ne hslot] at hl'
      exact t.fits slot' l' hl'

def erase (slot : KeySlot) : KeyTable where
  key := Function.update t.key slot none
  fits slot' l' hl' := by
    by_cases hslot : slot' = slot
    · subst hslot
      rw [Function.update_self] at hl'
      cases hl'
    · rw [Function.update_of_ne hslot] at hl'
      exact t.fits slot' l' hl'

def empty : KeyTable := ⟨fun _ => none, by simp⟩

end KeyTable

/-! ### Calls -/

inductive KeyOp where
  | put (pbKey usKeySize : Nat)
  | get (pbKey pusKeySize : Nat)
  | erase

/-- A call of one of the three functions, and the memory of the application when it is made. -/
structure KeyCall where
  op : KeyOp
  app : Bytes
  bKeyType : UInt8
  usKeyIndex : Nat

/-- The status words of the device for a key that is not there. -/
structure NoKey where
  get : UInt8 × UInt8
  get_ne : word get.1 get.2 ≠ 0
  erase : UInt8 × UInt8

namespace KeyCall

def command (c : KeyCall) : KeyCommand :=
  match c.op with
  | .put pbKey usKeySize => .put c.bKeyType c.usKeyIndex pbKey usKeySize
  | .get pbKey pusKeySize => .get pbKey pusKeySize c.bKeyType c.usKeyIndex
  | .erase => .erase c.bKeyType c.usKeyIndex

def slot (c : KeyCall) : KeySlot := (c.bKeyType, c.usKeyIndex)

def run {σ : Type} (W : World σ) (fuel : Nat) (c : KeyCall) (x : Kse σ) : Option Int × Kse σ :=
  c.command.run W fuel { x with app := c.app }

instance (c : KeyCommand) : Decidable c.Accepted := by
  cases c <;> (unfold KeyCommand.Accepted; infer_instance)

/-- The requests of a call. -/
def sends (c : KeyCall) : List (List UInt8) :=
  if c.command.Accepted then [c.command.request (poweredOn c.app ())] else []

/-- What `_kcmvpGetKey` leaves in the memory: as much of the key as there is room for, and the
    size of the whole key. -/
def took (app : Bytes) (pbKey pusKeySize : Nat) (key : List UInt8) : Bytes :=
  put (if pbKey ≠ NULL_PTR then put app pbKey (key.take (word (app (pusKeySize + 1))
    (app pusKeySize))) else app) pusKeySize [loByte key.length, hiByte key.length]

theorem keyFits_of_accepted {bKeyType : UInt8} {usKeyIndex pbKey usKeySize : Nat}
    (hc : (KeyCommand.put bKeyType usKeyIndex pbKey usKeySize).Accepted) (app : Bytes) :
    KeyFits bKeyType (slice app pbKey usKeySize).length := by
  rw [length_slice]
  exact ⟨hc.2.2.2.1, accepted_keySize_le hc⟩

/-- What a call should return and leave in the memory of the application, and the table after
    it. -/
def spec (missing : NoKey) (c : KeyCall) (t : KeyTable) : (Int × Bytes) × KeyTable :=
  match c.op with
  | .put pbKey usKeySize =>
    if h : (KeyCommand.put c.bKeyType c.usKeyIndex pbKey usKeySize).Accepted then
      ((KSE_SUCCESS, c.app),
        t.put c.slot (slice c.app pbKey usKeySize) (keyFits_of_accepted h c.app))
    else ((KSE_FAIL_WRONG_INPUT, c.app), t)
  | .get pbKey pusKeySize =>
    if (KeyCommand.get pbKey pusKeySize c.bKeyType c.usKeyIndex).Accepted then
      match t.key c.slot with
      | some key => ((KSE_SUCCESS, took c.app pbKey pusKeySize key), t)
      | none => ((int16 (word missing.get.1 missing.get.2), c.app), t)
    else ((KSE_FAIL_WRONG_INPUT, c.app), t)
  | .erase =>
    if (KeyCommand.erase c.bKeyType c.usKeyIndex).Accepted then
      ((if t.key c.slot ≠ none then KSE_SUCCESS
        else int16 (word missing.erase.1 missing.erase.2), c.app), t.erase c.slot)
    else ((KSE_FAIL_WRONG_INPUT, c.app), t)

/-- What the call leaves under a slot, if it changes what is there. -/
def written (slot : KeySlot) (c : KeyCall) : Option (Option (List UInt8)) :=
  if c.command.Accepted ∧ c.slot = slot then
    match c.op with
    | .put pbKey usKeySize => some (some (slice c.app pbKey usKeySize))
    | .get _ _ => none
    | .erase => some none
  else none

theorem spec_key (missing : NoKey) (c : KeyCall) (t : KeyTable) (slot : KeySlot) :
    (c.spec missing t).2.key slot = (c.written slot).getD (t.key slot) := by
  rcases c with ⟨op, app, bKeyType, usKeyIndex⟩
  cases op with
  | put pbKey usKeySize =>
    by_cases hc : (KeyCommand.put bKeyType usKeyIndex pbKey usKeySize).Accepted
    · by_cases hslot : (bKeyType, usKeyIndex) = slot
      · subst hslot
        simp [spec, written, command, KeyCall.slot, hc, KeyTable.put]
      · simp [spec, written, command, KeyCall.slot, hc, KeyTable.put, hslot,
          Function.update_of_ne (Ne.symm hslot)]
    · simp [spec, written, command, hc]
  | get pbKey pusKeySize =>
    by_cases hc : (KeyCommand.get pbKey pusKeySize bKeyType usKeyIndex).Accepted
    · cases hkey : t.key (bKeyType, usKeyIndex) <;>
        simp [spec, written, command, KeyCall.slot, hc, hkey]
    · simp [spec, written, command, hc]
  | erase =>
    by_cases hc : (KeyCommand.erase bKeyType usKeyIndex).Accepted
    · by_cases hslot : (bKeyType, usKeyIndex) = slot
      · subst hslot
        simp [spec, written, command, KeyCall.slot, hc, KeyTable.erase]
      · simp [spec, written, command, KeyCall.slot, hc, KeyTable.erase, hslot,
          Function.update_of_ne (Ne.symm hslot)]
    · simp [spec, written, command, hc]

end KeyCall

/-! ### The device -/

/-- The device carries the three commands out on the table that its state holds; it takes the
    type, the index and the key from the bytes of the request. -/
structure ExecutesKeys {δ : Type} (D : Device δ) (keys : δ → KeyTable) (missing : NoKey) :
    Prop where
  put : ∀ env request, let f := KeyRequest.decode request
    f.opcode = [0x02, 0x01] → (∀ usKeySize, f.usKeySize = some usKeySize →
      f.key.length = usKeySize) → ∀ h : KeyFits f.bKeyType f.key.length,
    (D.exec env request).1 = [0x00, 0x00] ∧
      keys (D.exec env request).2 = (keys env).put (f.bKeyType, f.usKeyIndex) f.key h
  get : ∀ env request, let f := KeyRequest.decode request
    f.opcode = [0x02, 0x02] →
    (D.exec env request).1 = (match (keys env).key (f.bKeyType, f.usKeyIndex) with
      | some key => [0x00, 0x00] ++ key
      | none => [missing.get.1, missing.get.2]) ∧
      keys (D.exec env request).2 = keys env
  erase : ∀ env request, let f := KeyRequest.decode request
    f.opcode = [0x02, 0x03] →
    (D.exec env request).1 = (if (keys env).key (f.bKeyType, f.usKeyIndex) ≠ none then [0x00, 0x00]
      else [missing.erase.1, missing.erase.2]) ∧
      keys (D.exec env request).2 = (keys env).erase (f.bKeyType, f.usKeyIndex)

/-! ### One call -/

theorem KeyCommand.request_app {σ : Type} (c : KeyCommand) (app : Bytes) (x : Kse σ) :
    c.request { x with app } = c.request (poweredOn app ()) := by
  cases c <;> rfl

section

variable {σ : Type} (W : World σ) (fuel : Nat) {bKeyType : UInt8}
  {usKeyIndex pbKey usKeySize pusKeySize : Nat} {x : Kse σ}

theorem put_wrong_iff : (bKeyType ∉ storedKeyTypes ∨ usKeyIndex ≥ MAX_KCMVP_KEY_COUNT ∨
    pbKey = NULL_PTR ∨ WrongKeySize bKeyType 0 usKeySize ∨
      bKeyType = KCMVP_HMAC_KEY ∧ usKeySize > 255) ↔
    ¬(KeyCommand.put bKeyType usKeyIndex pbKey usKeySize).Accepted := by
  simp only [KeyCommand.Accepted, not_and_or, not_not, ge_iff_le, gt_iff_lt, Nat.not_lt,
    ne_eq, Classical.not_imp, Nat.not_le]

theorem get_wrong_iff : (pusKeySize = NULL_PTR ∨ bKeyType ∉ storedKeyTypes ∨
    usKeyIndex ≥ MAX_KCMVP_KEY_COUNT) ↔
    ¬(KeyCommand.get pbKey pusKeySize bKeyType usKeyIndex).Accepted := by
  simp only [KeyCommand.Accepted, not_and_or, not_not, ge_iff_le, Nat.not_lt, ne_eq]

theorem erase_wrong_iff : (bKeyType ∉ storedKeyTypes ∨ usKeyIndex ≥ MAX_KCMVP_KEY_COUNT) ↔
    ¬(KeyCommand.erase bKeyType usKeyIndex).Accepted := by
  simp only [KeyCommand.Accepted, not_and_or, ge_iff_le, Nat.not_lt]

end

namespace KeyCall

variable {δ : Type} {D : Device δ} (N : Net δ) (indeterminate : δ → Int) {fuel : Nat}
  {keys : δ → KeyTable} {missing : NoKey} {x : Kse (Frame δ)} (c : KeyCall)

/-- A call that is refused leaves the driver as it is. -/
theorem run_refused {σ : Type} (W : World σ) (fuel : Nat) {x : Kse σ}
    (hpower : x.gusKsePower = .on) (h : ¬c.command.Accepted) :
    c.run W fuel x = (some KSE_FAIL_WRONG_INPUT, { x with app := c.app }) := by
  rw [run]
  rw [command] at h ⊢
  cases hop : c.op with
  | put pbKey usKeySize =>
    rw [hop] at h
    simp only [KeyCommand.run, kcmvpPutKey]
    rw [checked_wrong (put_wrong_iff.mpr h)]
    exact hpower
  | get pbKey pusKeySize =>
    rw [hop] at h
    simp only [KeyCommand.run, kcmvpGetKey]
    rw [checked_wrong (get_wrong_iff.mpr h)]
    exact hpower
  | erase =>
    rw [hop] at h
    simp only [KeyCommand.run, kcmvpEraseKey]
    rw [checked_wrong (erase_wrong_iff.mpr h)]
    exact hpower

theorem spec_refused (h : ¬c.command.Accepted) (t : KeyTable) :
    c.spec missing t = ((KSE_FAIL_WRONG_INPUT, c.app), t) := by
  cases hop : c.op with
  | put pbKey usKeySize =>
    rw [command, hop] at h
    rw [spec, hop]
    exact dif_neg h
  | get pbKey pusKeySize =>
    rw [command, hop] at h
    rw [spec, hop]
    exact if_neg h
  | erase =>
    rw [command, hop] at h
    rw [spec, hop]
    exact if_neg h

theorem refines_refused (hx : Waiting x) (h : ¬c.command.Accepted) :
    CallRefines keys (c.spec missing (keys x.world.env)) c.sends x
      (c.run (frameWorld D N indeterminate) fuel x) := by
  rw [c.run_refused _ _ hx.power h, c.spec_refused h, sends, if_neg h]
  exact .of_refused hx c.app

/-- An accepted call, once its command has returned. -/
theorem refines_of_requested {y z : Kse (Frame δ)} {code : Int} (h : c.command.Accepted)
    (hy : Requested D (c.command.request { x with app := c.app }) { x with app := c.app } y)
    (hz : Unpacked y z)
    (hspec : c.spec missing (keys x.world.env) = ((code, z.app),
      keys (D.exec x.world.env (c.command.request { x with app := c.app })).2)) :
    CallRefines keys (c.spec missing (keys x.world.env)) c.sends x (some code, z) := by
  rw [hspec, sends, if_pos h, ← c.command.request_app c.app x]
  exact .of_requested hy hz

theorem run_put (hD : ExecutesKeys D keys missing) (hfuel : 51 ≤ fuel) (hx : Waiting x)
    {pbKey usKeySize : Nat} (hop : c.op = .put pbKey usKeySize) (h : c.command.Accepted) :
    CallRefines keys (c.spec missing (keys x.world.env)) c.sends x
      (c.run (frameWorld D N indeterminate) fuel x) := by
  have hcommand : c.command = .put c.bKeyType c.usKeyIndex pbKey usKeySize := by
    rw [command, hop]
  have hc := h
  rw [hcommand] at hc
  have hput := hD.put x.world.env ((KeyCommand.put c.bKeyType c.usKeyIndex pbKey
    usKeySize).request { x with app := c.app })
  rw [hc.decode_request.mpr trivial] at hput
  obtain ⟨hexec, hkeys⟩ := hput rfl (fun _ => put_usKeySize c.bKeyType c.usKeyIndex pbKey)
    (keyFits_of_accepted hc c.app)
  obtain ⟨y, hcall, hy⟩ :=
    kcmvpPutKey_requested N indeterminate hfuel (hx.withApp c.app) hc hexec
  have hspec : c.spec missing (keys x.world.env) = ((KSE_SUCCESS, c.app),
      (keys x.world.env).put c.slot (slice c.app pbKey usKeySize)
        (keyFits_of_accepted hc c.app)) := by
    rw [spec, hop]
    exact dif_pos hc
  have hrun : c.run (frameWorld D N indeterminate) fuel x = (some KSE_SUCCESS, y) := by
    rw [run, hcommand]
    exact hcall
  rw [hrun]
  apply c.refines_of_requested h (by rwa [hcommand]) (.refl y)
  rw [hspec, hy.app, hcommand, hkeys]
  rfl

theorem run_erase (hD : ExecutesKeys D keys missing) (hfuel : 51 ≤ fuel) (hx : Waiting x)
    (hop : c.op = .erase) (h : c.command.Accepted) :
    CallRefines keys (c.spec missing (keys x.world.env)) c.sends x
      (c.run (frameWorld D N indeterminate) fuel x) := by
  have hcommand : c.command = .erase c.bKeyType c.usKeyIndex := by rw [command, hop]
  have hc := h
  rw [hcommand] at hc
  have herase := hD.erase x.world.env
    ((KeyCommand.erase c.bKeyType c.usKeyIndex).request { x with app := c.app })
  rw [hc.decode_request.mpr trivial] at herase
  obtain ⟨hexec, hkeys⟩ := herase rfl
  have hspec : c.spec missing (keys x.world.env) =
      ((if (keys x.world.env).key c.slot ≠ none then KSE_SUCCESS
        else int16 (word missing.erase.1 missing.erase.2), c.app),
        (keys x.world.env).erase c.slot) := by
    rw [spec, hop]
    exact if_pos hc
  obtain ⟨hi, lo, hstatus, hcode⟩ : ∃ hi lo,
      (D.exec x.world.env ((KeyCommand.erase c.bKeyType c.usKeyIndex).request
        { x with app := c.app })).1 = [hi, lo] ∧
      int16 (word hi lo) = (c.spec missing (keys x.world.env)).1.1 := by
    rw [hspec, hexec]
    by_cases hthere : (keys x.world.env).key c.slot ≠ none
    · have hzero : int16 (word 0x00 0x00) = KSE_SUCCESS := by decide
      exact ⟨0x00, 0x00, if_pos hthere, hzero.trans (if_pos hthere).symm⟩
    · exact ⟨_, _, if_neg hthere, (if_neg hthere).symm⟩
  obtain ⟨y, hcall, hy⟩ := statusCommand_status D N indeterminate (hx.withApp c.app) hfuel
    (by simp [KeyCommand.request]) (by simp [KeyCommand.request]) hstatus
  have hrun : c.run (frameWorld D N indeterminate) fuel x = (some (int16 (word hi lo)), y) := by
    rw [← hcall, run, hcommand, KeyCommand.run, kcmvpEraseKey,
      checked_right (fun hwrong => erase_wrong_iff.mp hwrong hc)]
    · rfl
    · exact hx.power
  rw [hspec] at hcode
  rw [hrun, hcode]
  apply c.refines_of_requested h (by rwa [hcommand]) (.refl y)
  rw [hspec, hy.app, hcommand, hkeys]
  rfl

theorem takeSized_unpacked (pb pusSize usLen : Nat) (y : Kse (Frame δ)) :
    Unpacked y (y.takeSized pb pusSize usLen) := by
  refine ⟨?_, ?_, ?_, KeyCommand.takeSized_trace pb pusSize usLen y⟩
  all_goals
    simp only [Kse.takeSized]
    split <;> rfl

theorem run_get (hD : ExecutesKeys D keys missing) (hfuel : 51 ≤ fuel) (hx : Waiting x)
    {pbKey pusKeySize : Nat} (hop : c.op = .get pbKey pusKeySize) (h : c.command.Accepted) :
    CallRefines keys (c.spec missing (keys x.world.env)) c.sends x
      (c.run (frameWorld D N indeterminate) fuel x) := by
  have hcommand : c.command = .get pbKey pusKeySize c.bKeyType c.usKeyIndex := by
    rw [command, hop]
  have hc := h
  rw [hcommand] at hc
  have hget := hD.get x.world.env
    ((KeyCommand.get pbKey pusKeySize c.bKeyType c.usKeyIndex).request { x with app := c.app })
  rw [hc.decode_request.mpr trivial] at hget
  obtain ⟨hexec, hkeys⟩ := hget rfl
  have hexec' : (D.exec x.world.env ((KeyCommand.get pbKey pusKeySize c.bKeyType
      c.usKeyIndex).request { x with app := c.app })).1 =
        (match (keys x.world.env).key c.slot with
          | some key => [0x00, 0x00] ++ key
          | none => [missing.get.1, missing.get.2]) := hexec
  have hspec : c.spec missing (keys x.world.env) =
      match (keys x.world.env).key c.slot with
        | some key => ((KSE_SUCCESS, took c.app pbKey pusKeySize key), keys x.world.env)
        | none => ((int16 (word missing.get.1 missing.get.2), c.app), keys x.world.env) := by
    rw [spec, hop]
    exact if_pos hc
  have hrun : c.run (frameWorld D N indeterminate) fuel x =
      kcmvpGetKey (frameWorld D N indeterminate) fuel pbKey pusKeySize c.bKeyType c.usKeyIndex
        { x with app := c.app } := by
    rw [run, hcommand]
    rfl
  cases hkey : (keys x.world.env).key c.slot with
  | some key =>
    rw [hkey] at hexec' hspec
    have hfits := (keys x.world.env).fits c.slot key hkey
    have hanswer : (D.exec x.world.env ((KeyCommand.get pbKey pusKeySize c.bKeyType
      c.usKeyIndex).request { x with app := c.app })).1 = (Answer.accepted key).response := hexec'
    obtain ⟨y, hcall, ⟨m, hgab⟩, hy⟩ := kcmvpGetKey_answered N indeterminate hfuel
      (hx.withApp c.app) hc hanswer (by rintro _ ⟨⟩; exact ⟨hfits.right_len, hfits.2⟩)
    have hsmall : key.length < 65536 := Nat.lt_of_le_of_lt hfits.2 (by decide)
    have hyapp : y.app = c.app := hy.app
    have happ : (y.takeSized pbKey pusKeySize (key.length + 2)).app =
        took c.app pbKey pusKeySize key := by
      rw [takeSized_app hgab hsmall, Kse.load16, hyapp, took]
    rw [hrun, hcall]
    apply c.refines_of_requested h (by rwa [hcommand])
      (takeSized_unpacked pbKey pusKeySize (key.length + 2) y)
    rw [hspec, happ, hcommand, hkeys]
    rfl
  | none =>
    rw [hkey] at hexec' hspec
    have hanswer : (D.exec x.world.env ((KeyCommand.get pbKey pusKeySize c.bKeyType
      c.usKeyIndex).request { x with app := c.app })).1 =
        (Answer.refused missing.get.1 missing.get.2 missing.get_ne).response := hexec'
    obtain ⟨y, hcall, -, hy⟩ := kcmvpGetKey_answered N indeterminate hfuel (hx.withApp c.app) hc
      hanswer (by rintro _ ⟨⟩)
    rw [hrun, hcall]
    apply c.refines_of_requested h (by rwa [hcommand]) (.refl y)
    rw [hspec, hy.app, hcommand, hkeys]
    rfl

/-- One call. -/
theorem run_refines (hD : ExecutesKeys D keys missing) (hfuel : 51 ≤ fuel) (hx : Waiting x) :
    CallRefines keys (c.spec missing (keys x.world.env)) c.sends x
      (c.run (frameWorld D N indeterminate) fuel x) := by
  by_cases h : c.command.Accepted
  · cases hop : c.op with
    | put pbKey usKeySize => exact c.run_put N indeterminate hD hfuel hx hop h
    | get pbKey pusKeySize => exact c.run_get N indeterminate hD hfuel hx hop h
    | erase => exact c.run_erase N indeterminate hD hfuel hx hop h
  · exact c.refines_refused N indeterminate hx h

end KeyCall

/-! ### Sequences of calls -/

section Sequence

variable {δ : Type} {D : Device δ} (N : Net δ) (indeterminate : δ → Int) {fuel : Nat}
  {keys : δ → KeyTable} {missing : NoKey}

/-- **The key table.**  Against a device that carries the three commands out on a table, any
    sequence of puts, gets and erases, with any types, indices, sizes and contents of the memory of
    the application, gives the codes and leaves in that memory what the table gives.  Under each
    type and index there is then the key that was put there last and not erased, and the requests
    are those of the accepted calls, one for each. -/
theorem keyTable_refines (hD : ExecutesKeys D keys missing) (hfuel : 51 ≤ fuel)
    {x : Kse (Frame δ)} (hx : Waiting x) (calls : List KeyCall) :
    let r := runAll (outcome (KeyCall.run (frameWorld D N indeterminate) fuel)) calls x
    r.1 = (runAll (KeyCall.spec missing) calls (keys x.world.env)).1.map
        (fun r => (some r.1, r.2)) ∧
      (∀ slot, (keys r.2.world.env).key slot =
        calls.foldl (fun key c => (c.written slot).getD key) ((keys x.world.env).key slot)) ∧
      requests r.2.trace = requests x.trace ++ calls.flatMap KeyCall.sends ∧ Waiting r.2 := by
  intro r
  obtain ⟨hreplies, hkeys, ⟨es, htrace, hsent⟩, hwaiting⟩ :=
    calls_refine (fun c _ hx => c.run_refines N indeterminate hD hfuel hx) hx calls
  refine ⟨hreplies, ?_, ?_, hwaiting⟩
  · intro slot
    rw [hkeys]
    exact runAll_foldl (fun t => t.key slot) (fun key c => (c.written slot).getD key)
      (fun c t => c.spec_key missing t slot) calls _
  · rw [htrace, requests_append, hsent]

end Sequence

/-- A device that does nothing else. -/
def keyTableDevice (missing : NoKey) : Device KeyTable where
  exec t request :=
    let f := KeyRequest.decode request
    let slot := (f.bKeyType, f.usKeyIndex)
    if f.opcode = [0x02, 0x01] then
      if h : KeyFits f.bKeyType f.key.length then ([0x00, 0x00], t.put slot f.key h)
      else ([0xFF, 0xFF], t)
    else if f.opcode = [0x02, 0x02] then
      (match t.key slot with
        | some key => [0x00, 0x00] ++ key
        | none => [missing.get.1, missing.get.2], t)
    else if f.opcode = [0x02, 0x03] then
      (if t.key slot ≠ none then [0x00, 0x00] else [missing.erase.1, missing.erase.2],
        t.erase slot)
    else ([0xFF, 0xFF], t)
  fill _ := fun _ => 0
  behind _ := fun _ => 0

theorem executesKeys_keyTableDevice (missing : NoKey) :
    ExecutesKeys (keyTableDevice missing) id missing := by
  constructor
  · intro t request f hopcode _ hfits
    simp only [keyTableDevice]
    rw [if_pos hopcode, dif_pos hfits]
    exact ⟨rfl, rfl⟩
  · intro t request f hopcode
    have hput : f.opcode ≠ [0x02, 0x01] := by
      rw [hopcode]
      decide
    simp only [keyTableDevice]
    rw [if_neg hput, if_pos hopcode]
    exact ⟨rfl, rfl⟩
  · intro t request f hopcode
    have hput : f.opcode ≠ [0x02, 0x01] := by
      rw [hopcode]
      decide
    have hget : f.opcode ≠ [0x02, 0x02] := by
      rw [hopcode]
      decide
    simp only [keyTableDevice]
    rw [if_neg hput, if_neg hget, if_pos hopcode]
    exact ⟨rfl, rfl⟩

/-- A key is put, got with room for ten bytes, erased, and looked for again; a put of the wrong size
    is refused. -/
def keyCalls : List KeyCall :=
  let app := ofList [0, 10, 0, 1, 2, 3, 4, 5, 6, 7, 8, 9, 10, 11, 12, 13, 14, 15, 16]
  [⟨.put 3 16, app, KCMVP_ARIA128_KEY, 7⟩, ⟨.put 3 15, app, KCMVP_ARIA128_KEY, 7⟩,
    ⟨.get 30 1, app, KCMVP_ARIA128_KEY, 7⟩, ⟨.erase, app, KCMVP_ARIA128_KEY, 7⟩,
    ⟨.get 30 1, app, KCMVP_ARIA128_KEY, 7⟩]

theorem keyTable_refines_calls :
    let missing : NoKey := ⟨(0xFF, 0xFE), by decide, (0x00, 0x00)⟩
    let W := frameWorld (keyTableDevice missing) silentNet fun _ => 0
    let x := poweredOn (fun _ => 0) (Frame.idle KeyTable.empty)
    ∃ replies y, (replies, y) = runAll (outcome (KeyCall.run W 51)) keyCalls x ∧
      replies = (runAll (KeyCall.spec missing) keyCalls .empty).1.map (fun r => (some r.1, r.2)) ∧
      requests y.trace = requests x.trace ++ keyCalls.flatMap KeyCall.sends ∧ Waiting y := by
  intro missing W x
  obtain ⟨hreplies, -, hsent, hwaiting⟩ := keyTable_refines silentNet (fun _ => 0)
    (executesKeys_keyTableDevice missing) (Nat.le_refl 51) (x := x) (waiting_poweredOn _ _)
    keyCalls
  have hempty : id x.world.env = KeyTable.empty := rfl
  rw [hempty] at hreplies
  refine ⟨_, _, Prod.mk.eta, hreplies, ?_, hwaiting⟩
  rw [hsent]

end MavlinkDim
