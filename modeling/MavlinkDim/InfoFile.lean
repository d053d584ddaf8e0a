import MavlinkDim.DeviceCommands

/-!
# The info file

The device keeps an array of 8192 bytes, of which `_kseReadInfoFile` and
`_kseWriteInfoFile` take and give ranges.  `infoFile_refines` says that any
sequence of the two behaves as such an array.
-/

namespace MavlinkDim

open ByteMemory CallSequences

/-! ### The array -/

abbrev InfoFile := Vector UInt8 MAX_INFO_FILE_SIZE

namespace InfoFile

def read (file : InfoFile) (usOffset usSize : Nat) : List UInt8 :=
  (file.toList.drop usOffset).take usSize

def write (file : InfoFile) (usOffset : Nat) (data : List UInt8) : InfoFile :=
  Vector.ofFn fun i =>
    if usOffset ≤ i ∧ i < usOffset + data.length then data.getD (i - usOffset) 0 else file[i]

variable (file : InfoFile) {usOffset usSize : Nat} {data : List UInt8}

theorem length_read (h : usOffset + usSize ≤ MAX_INFO_FILE_SIZE) :
    (file.read usOffset usSize).length = usSize := by
  rw [read, List.length_take, List.length_drop, Vector.length_toList]
  omega

theorem getElem_read {i : Nat} (hi : i < (file.read usOffset usSize).length)
    (h : usOffset + i < MAX_INFO_FILE_SIZE) :
    (file.read usOffset usSize)[i] = file[usOffset + i] := by
  simp only [read, List.getElem_take, List.getElem_drop, Vector.getElem_toList]

theorem getElem_write {i : Nat} (hi : i < MAX_INFO_FILE_SIZE) :
    (file.write usOffset data)[i] =
      if usOffset ≤ i ∧ i < usOffset + data.length then data.getD (i - usOffset) 0
      else file[i] := by
  simp only [write, Vector.getElem_ofFn]
  rfl

/-- A range that was written is read back. -/
theorem read_write (h : usOffset + data.length ≤ MAX_INFO_FILE_SIZE) :
    (file.write usOffset data).read usOffset data.length = data := by
  apply List.ext_getElem (length_read _ h)
  intro i hi hi'
  rw [getElem_read _ hi (by omega), getElem_write _ (by omega), if_pos (by omega),
    Nat.add_sub_cancel_left]
  simp [hi']

/-- A range that a write does not meet stays as it was. -/
theorem read_write_disjoint {usOffset' : Nat}
    (hdisjoint : usOffset' + usSize ≤ usOffset ∨ usOffset + data.length ≤ usOffset')
    (h : usOffset' + usSize ≤ MAX_INFO_FILE_SIZE) :
    (file.write usOffset data).read usOffset' usSize = file.read usOffset' usSize := by
  apply List.ext_getElem (by rw [length_read _ h, length_read _ h])
  intro i hi hi'
  have hlt : i < usSize := by rwa [length_read _ h] at hi
  rw [getElem_read _ hi (by omega), getElem_read _ hi' (by omega), getElem_write _ (by omega),
    if_neg (by omega)]

end InfoFile

/-! ### Calls -/

inductive InfoCommand where
  | read
  | write
deriving DecidableEq, Repr

/-- A call of one of the two functions, and the memory of the application when it is made. -/
structure InfoCall where
  command : InfoCommand
  app : Bytes
  pbData : Nat
  pbData_ne : pbData ≠ NULL_PTR
  usOffset : UInt16
  usSize : UInt16

namespace InfoCall

variable {σ : Type} (W : World σ) (fuel : Nat) (c : InfoCall)

def run (x : Kse σ) : Option Int × Kse σ :=
  match c.command with
  | .read =>
    kseReadInfoFile W fuel c.pbData c.usOffset.toNat c.usSize.toNat { x with app := c.app }
  | .write =>
    kseWriteInfoFile W fuel c.pbData c.usSize.toNat c.usOffset.toNat { x with app := c.app }

/-- The range that a call is for lies in the file and fits the shared buffer. -/
def InRange : Prop :=
  c.usSize.toNat ≤ MAX_IO_DATA_SIZE ∧ c.usOffset.toNat + c.usSize.toNat ≤ MAX_INFO_FILE_SIZE

instance : Decidable c.InRange := by unfold InRange; infer_instance

def data : List UInt8 := slice c.app c.pbData c.usSize.toNat

/-- What a call should return and leave in the memory of the application, and the file after
    it. -/
def spec (file : InfoFile) : (Int × Bytes) × InfoFile :=
  if c.InRange then
    match c.command with
    | .read =>
      ((KSE_SUCCESS, put c.app c.pbData (file.read c.usOffset.toNat c.usSize.toNat)), file)
    | .write => ((KSE_SUCCESS, c.app), file.write c.usOffset.toNat c.data)
  else ((KSE_FAIL_WRONG_INPUT, c.app), file)

/-- The request of a call. -/
def request : List UInt8 :=
  match c.command with
  | .read => [0x00, 0x04] ++ bytes16 c.usOffset.toNat ++ bytes16 c.usSize.toNat
  | .write => [0x00, 0x05] ++ bytes16 c.usOffset.toNat ++ bytes16 c.usSize.toNat ++ c.data

/-- The requests of a call. -/
def sends : List (List UInt8) := if c.InRange then [c.request] else []

theorem flatMap_sends (calls : List InfoCall) :
    calls.flatMap sends = (calls.filter fun c => c.InRange).map request := by
  induction calls with
  | nil => rfl
  | cons c calls ih =>
    rw [List.flatMap_cons, ih]
    by_cases h : c.InRange <;> simp [sends, h]

end InfoCall

/-! ### The device -/

/-- The device executes the two commands on the array that its state holds; it takes the offset,
    the size and the data from the bytes of the request. -/
structure ExecutesInfoFile {δ : Type} (D : Device δ) (file : δ → InfoFile) : Prop where
  read : ∀ env request, request.take 2 = [0x00, 0x04] → request.length = 6 →
    requestField request 2 + requestField request 4 ≤ MAX_INFO_FILE_SIZE →
    (D.exec env request).1 =
        [0x00, 0x00] ++ (file env).read (requestField request 2) (requestField request 4) ∧
      file (D.exec env request).2 = file env
  write : ∀ env request, request.take 2 = [0x00, 0x05] →
    request.length = 6 + requestField request 4 →
    requestField request 2 + requestField request 4 ≤ MAX_INFO_FILE_SIZE →
    (D.exec env request).1 = [0x00, 0x00] ∧
      file (D.exec env request).2 = (file env).write (requestField request 2) (request.drop 6)

/-! ### Layout of the requests -/

namespace InfoCall

variable (c : InfoCall)

theorem length_data : c.data.length = c.usSize.toNat := length_slice _ _ _

/-- The device finds in the request of a call what the call is for. -/
theorem request_fields : requestField c.request 2 = c.usOffset.toNat ∧
    requestField c.request 4 = c.usSize.toNat := by
  have hoffset := word_hiByte_loByte c.usOffset.toNat_lt
  have hsize := word_hiByte_loByte c.usSize.toNat_lt
  unfold request
  cases c.command <;> exact ⟨hoffset, hsize⟩

theorem length_request :
    c.request.length = 6 + if c.command = .write then c.usSize.toNat else 0 := by
  unfold request
  cases c.command with
  | read => rfl
  | write =>
    rw [List.length_append, length_data]
    rfl

end InfoCall

/-! ### One call -/

namespace InfoCall

variable {δ : Type} {D : Device δ} (N : Net δ) (indeterminate : δ → Int) {fuel : Nat}
  {file : δ → InfoFile} {x : Kse (Frame δ)} (c : InfoCall)

/-- A call that is refused leaves the driver as it is. -/
theorem run_refused {σ : Type} (W : World σ) (fuel : Nat) {x : Kse σ}
    (hpower : x.gusKsePower = .on) (h : ¬c.InRange) :
    c.run W fuel x = (some KSE_FAIL_WRONG_INPUT, { x with app := c.app }) := by
  have hwrong : c.pbData = NULL_PTR ∨ c.usSize.toNat > MAX_IO_DATA_SIZE ∨
      c.usOffset.toNat + c.usSize.toNat > MAX_INFO_FILE_SIZE := by
    simp only [InRange] at h
    omega
  cases hcommand : c.command <;>
    simp only [run, hcommand, kseReadInfoFile, kseWriteInfoFile, checked, hpower, ne_eq, not_true,
      if_false, if_pos hwrong]

/-- An accepted call, once its command has returned. -/
theorem refines_of_requested {y z : Kse (Frame δ)} (h : c.InRange)
    (hy : Requested D c.request { x with app := c.app } y) (hz : Unpacked y z)
    (hspec : c.spec (file x.world.env) =
      ((KSE_SUCCESS, z.app), file (D.exec x.world.env c.request).2)) :
    CallRefines file (c.spec (file x.world.env)) c.sends x (some KSE_SUCCESS, z) := by
  rw [hspec, sends, if_pos h]
  exact .of_requested hy hz

theorem checked_inRange {σ : Type} (body : Kse σ → Option Int × Kse σ) {x : Kse σ}
    (hpower : x.gusKsePower = .on) (h : c.InRange) :
    checked (c.pbData = NULL_PTR ∨ c.usSize.toNat > MAX_IO_DATA_SIZE ∨
      c.usOffset.toNat + c.usSize.toNat > MAX_INFO_FILE_SIZE) body x = body x := by
  have hne := c.pbData_ne
  have hright : ¬(c.pbData = NULL_PTR ∨ c.usSize.toNat > MAX_IO_DATA_SIZE ∨
      c.usOffset.toNat + c.usSize.toNat > MAX_INFO_FILE_SIZE) := by
    simp only [InRange] at h
    omega
  rw [checked, if_neg (not_not.mpr hpower), if_neg hright]

theorem run_read (hD : ExecutesInfoFile D file) (hfuel : 51 ≤ fuel) (hx : Waiting x)
    (h : c.InRange) (hcommand : c.command = .read) :
    CallRefines file (c.spec (file x.world.env)) c.sends x
      (c.run (frameWorld D N indeterminate) fuel x) := by
  obtain ⟨hoffset, hsize⟩ := c.request_fields
  have hrequest :
      c.request = [0x00, 0x04] ++ bytes16 c.usOffset.toNat ++ bytes16 c.usSize.toNat := by
    rw [request, hcommand]
  have hspec : c.spec (file x.world.env) = ((KSE_SUCCESS, put c.app c.pbData
      ((file x.world.env).read c.usOffset.toNat c.usSize.toNat)), file x.world.env) := by
    rw [spec, if_pos h, hcommand]
  have hlen := InfoFile.length_read (file x.world.env) h.2
  obtain ⟨hresponse, hfile⟩ := hD.read x.world.env c.request (by rw [hrequest]; rfl)
    (by rw [hrequest]; rfl) (by rw [hoffset, hsize]; exact h.2)
  rw [hoffset, hsize] at hresponse
  obtain ⟨y, hcall, happ, hy⟩ := @dataCommand_frame δ D N indeterminate fuel
    { x with app := c.app } c.request _ (hx.withApp c.app) hfuel (by rw [hrequest]; simp)
    (by rw [hrequest]; simp) hresponse (hlen.trans_le h.1)
    (fun usLen => usLen ≠ c.usSize.toNat + 2) _ (by rw [hlen]; simp) c.pbData
  have hrun : c.run (frameWorld D N indeterminate) fuel x =
      (some KSE_SUCCESS, y.copyOut c.pbData 2 c.usSize.toNat) := by
    rw [hlen] at hcall
    rw [run, hcommand, ← hcall, hrequest]
    exact checked_inRange c _ hx.power h
  rw [hrun]
  apply c.refines_of_requested h hy (.copyOut y c.pbData 2 c.usSize.toNat)
  rw [hlen] at happ
  rw [hspec, happ, hfile]

theorem run_write (hD : ExecutesInfoFile D file) (hfuel : 51 ≤ fuel) (hx : Waiting x)
    (h : c.InRange) (hcommand : c.command = .write) :
    CallRefines file (c.spec (file x.world.env)) c.sends x
      (c.run (frameWorld D N indeterminate) fuel x) := by
  obtain ⟨hoffset, hsize⟩ := c.request_fields
  have hrequest : c.request =
      [0x00, 0x05] ++ bytes16 c.usOffset.toNat ++ bytes16 c.usSize.toNat ++ c.data := by
    rw [request, hcommand]
  have hlen : c.request.length = 6 + c.usSize.toNat := by
    rw [length_request, if_pos hcommand]
  have hspec : c.spec (file x.world.env) =
      ((KSE_SUCCESS, c.app), (file x.world.env).write c.usOffset.toNat c.data) := by
    rw [spec, if_pos h, hcommand]
  have hmax : c.usSize.toNat ≤ 2944 := h.1
  obtain ⟨hresponse, hfile⟩ := hD.write x.world.env c.request (by rw [hrequest]; rfl)
    (by rw [hsize, hlen]) (by rw [hoffset, hsize]; exact h.2)
  obtain ⟨y, hcall, hy⟩ := @statusCommand_frame δ D N indeterminate fuel
    { x with app := c.app } c.request (hx.withApp c.app) hfuel (by rw [hrequest]; simp)
    (by rw [hlen]; simp; omega) hresponse
  have hrun : c.run (frameWorld D N indeterminate) fuel x = (some KSE_SUCCESS, y) := by
    rw [run, hcommand, ← hcall, hrequest]
    exact checked_inRange c _ hx.power h
  rw [hrun]
  apply c.refines_of_requested h hy (.refl y)
  rw [hspec, hy.app, hfile, hoffset, hrequest]
  rfl

/-- One call. -/
theorem run_refines (hD : ExecutesInfoFile D file) (hfuel : 51 ≤ fuel) (hx : Waiting x) :
    CallRefines file (c.spec (file x.world.env)) c.sends x
      (c.run (frameWorld D N indeterminate) fuel x) := by
  by_cases h : c.InRange
  · cases hcommand : c.command with
    | read => exact run_read N indeterminate c hD hfuel hx h hcommand
    | write => exact run_write N indeterminate c hD hfuel hx h hcommand
  · rw [run_refused c _ _ hx.power h, spec, if_neg h, sends, if_neg h]
    exact .of_refused hx c.app

end InfoCall

/-! ### Sequences of calls -/

section Sequence

variable {δ : Type} {D : Device δ} (N : Net δ) (indeterminate : δ → Int) {fuel : Nat}
  {file : δ → InfoFile}

/-- No quantity of an accepted call that the code holds in 16 bits exceeds them: the offset and
    the size reach the device unchanged, and the lengths of the request and of the response are
    those of the buffers. -/
structure InfoCall.Exact (c : InfoCall) : Prop where
  usOffset : requestField c.request 2 = c.usOffset.toNat
  usSize : requestField c.request 4 = c.usSize.toNat
  usSendLen : c.request.length = 6 + if c.command = .write then c.usSize.toNat else 0
  usSendLen_le : c.request.length ≤ MAX_IO_BUFFER_SIZE
  usLen_le : c.usSize.toNat + 2 ≤ MAX_IO_BUFFER_SIZE

theorem InfoCall.exact (c : InfoCall) (h : c.InRange) : c.Exact := by
  have hmax : c.usSize.toNat ≤ 2944 := h.1
  refine ⟨c.request_fields.1, c.request_fields.2, c.length_request, ?_, ?_⟩
  · rw [c.length_request]
    simp only [MAX_IO_BUFFER_SIZE, MAX_IO_DATA_SIZE, MAX_IO_CTRL_LEN]
    split <;> omega
  · simp only [MAX_IO_BUFFER_SIZE, MAX_IO_DATA_SIZE, MAX_IO_CTRL_LEN]
    omega

/-- **The info file.**  Against a device that executes the two commands on an array of 8192
    bytes, any sequence of reads and writes, with any offsets, sizes and contents of the memory
    of the application, gives the codes and leaves in that memory what the array gives, and
    leaves the array as the accepted writes do.  The exchanges are those of the accepted calls,
    one for each, in which nothing is cut to 16 bits; a call with a size over 2944 or a range
    that goes past the end is refused without one. -/
theorem infoFile_refines (hD : ExecutesInfoFile D file) (hfuel : 51 ≤ fuel) {x : Kse (Frame δ)}
    (hx : Waiting x) (calls : List InfoCall) :
    ∃ replies y es,
      runAll (outcome (InfoCall.run (frameWorld D N indeterminate) fuel)) calls x = (replies, y) ∧
      replies = (runAll InfoCall.spec calls (file x.world.env)).1.map
        (fun r => (some r.1, r.2)) ∧
      file y.world.env = (runAll InfoCall.spec calls (file x.world.env)).2 ∧
      y.trace = x.trace ++ es ∧
      requests es = (calls.filter fun c => c.InRange).map InfoCall.request ∧
      (∀ c ∈ calls, c.InRange → c.Exact) ∧ Waiting y := by
  obtain ⟨hreplies, hfile, ⟨es, htrace, hsent⟩, hwaiting⟩ :=
    calls_refine (fun c _ hx => InfoCall.run_refines N indeterminate c hD hfuel hx) hx calls
  rw [InfoCall.flatMap_sends] at hsent
  exact ⟨_, _, es, rfl, hreplies, hfile, htrace, hsent, fun c _ => c.exact, hwaiting⟩

end Sequence

/-- A device that does nothing else. -/
def infoFileDevice : Device InfoFile where
  exec file request :=
    let usOffset := requestField request 2
    if request.take 2 = [0x00, 0x04] then
      ([0x00, 0x00] ++ file.read usOffset (requestField request 4), file)
    else if request.take 2 = [0x00, 0x05] then
      ([0x00, 0x00], file.write usOffset (request.drop 6))
    else ([0xFF, 0xFF], file)
  fill _ := fun _ => 0
  behind _ := fun _ => 0

theorem executesInfoFile_infoFileDevice : ExecutesInfoFile infoFileDevice id := by
  constructor
  · intro file request hcommand _ _
    simp only [infoFileDevice, if_pos hcommand]
    exact ⟨rfl, trivial⟩
  · intro file request hcommand _ _
    have hwrite : ¬request.take 2 = [0x00, 0x04] := by
      rw [hcommand]
      decide
    simp only [infoFileDevice, if_neg hwrite, if_pos hcommand]
    exact ⟨trivial, rfl⟩

/-- Two writes that overlap, a read over both, and two calls that are refused. -/
def overlappingCalls : List InfoCall :=
  let app := ofList [0, 1, 2, 3, 4]
  [⟨.write, app, 1, by decide, 8187, 4⟩, ⟨.write, app, 2, by decide, 8189, 3⟩,
    ⟨.read, app, 1, by decide, 8187, 5⟩, ⟨.read, app, 1, by decide, 8192, 1⟩,
    ⟨.write, app, 1, by decide, 65535, 65535⟩]

theorem infoFile_refines_overlapping :
    let W := frameWorld infoFileDevice silentNet fun _ => 0
    let x := poweredOn (fun _ => 0) (Frame.idle (Vector.replicate MAX_INFO_FILE_SIZE 0))
    ∃ replies y es, runAll (outcome (InfoCall.run W 51)) overlappingCalls x = (replies, y) ∧
      replies = (runAll InfoCall.spec overlappingCalls x.world.env).1.map
        (fun r => (some r.1, r.2)) ∧
      y.world.env = (runAll InfoCall.spec overlappingCalls x.world.env).2 ∧
      y.trace = x.trace ++ es ∧
      requests es = (overlappingCalls.filter fun c => c.InRange).map InfoCall.request ∧
      (∀ c ∈ overlappingCalls, c.InRange → c.Exact) ∧ Waiting y :=
  infoFile_refines silentNet (fun _ => 0) executesInfoFile_infoFileDevice (Nat.le_refl 51)
    (waiting_poweredOn _ _) overlappingCalls

end MavlinkDim
