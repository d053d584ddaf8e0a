import MavlinkDim.ChunkFailures
import MavlinkDim.FailedReads
import MavlinkDim.RequestLayout

/-!
# The requests of a call

A call is a run in which each exchange is made of a request that was built over the
buffer as it was.  `Requests` says which requests a call may send: one, one for each
chunk of an input, or one for each part of a message.
-/

namespace MavlinkDim

open ByteMemory

variable {σ : Type} (W : World σ) (fuel : Nat)

/-! ### Runs of requests -/

def Kse.build (x : Kse σ) (b : Built) : Kse σ :=
  { x with gabTxRxData := writeAll x.gabTxRxData b.writes }

/-- A step that neither touches the shared buffer nor reaches the device through it. -/
structure Aside (x y : Kse σ) : Prop where
  gabTxRxData : y.gabTxRxData = x.gabTxRxData
  trace : ∃ es, y.trace = x.trace ++ es ∧ exchanges es = []

/-- A run whose exchanges are those of the requests `bs`, in this order. -/
inductive BuildRun : Kse σ → List Built → Kse σ → Prop where
  | refl (x : Kse σ) : BuildRun x [] x
  | exchange {x y : Kse σ} {bs : List Built} (b : Built) {e : Exchange} {w : σ} :
      BuildRun x bs y → e.Of W fuel w b.usSendLen (y.build b) →
      BuildRun x (bs ++ [b]) ((y.build b).exchanged e w)
  | aside {x y z : Kse σ} {bs : List Built} : BuildRun x bs y → Aside y z → BuildRun x bs z

variable {W fuel}

theorem BuildRun.trans {x y z : Kse σ} {bs bs' : List Built} (h : BuildRun W fuel x bs y)
    (h' : BuildRun W fuel y bs' z) : BuildRun W fuel x (bs ++ bs') z := by
  induction h' with
  | refl => rwa [List.append_nil]
  | exchange b _ hof ih =>
    rw [← List.append_assoc]
    exact ih.exchange b hof
  | aside _ hstep ih => exact ih.aside hstep

theorem BuildRun.of_aside {x y : Kse σ} (h : Aside x y) : BuildRun W fuel x [] y :=
  (BuildRun.refl x).aside h

/-- The exchanges of a run are those of its requests, and there are no others. -/
theorem BuildRun.exchanges {x y : Kse σ} {bs : List Built} (h : BuildRun W fuel x bs y) :
    ∃ es, y.trace = x.trace ++ es ∧
      List.Forall₂ (fun b e => e.usSendLen = b.usSendLen ∧
        ∃ m, e.pbSendData = writeAll m b.writes) bs (MavlinkDim.exchanges es) := by
  induction h with
  | refl => exact ⟨[], by simp, .nil⟩
  | @exchange y bs b e w _ hof ih =>
    obtain ⟨es, htrace, hall⟩ := ih
    refine ⟨es ++ [.exchange e], ?_, ?_⟩
    · rw [Kse.exchanged_trace, ← List.append_assoc, ← htrace]
      rfl
    · rw [exchanges_append]
      exact List.rel_append hall
        (.cons ⟨hof.usSendLen, y.gabTxRxData, hof.pbSendData⟩ .nil)
  | aside _ hstep ih =>
    obtain ⟨es, htrace, hall⟩ := ih
    obtain ⟨es', htrace', hnone⟩ := hstep.trace
    refine ⟨es ++ es', ?_, ?_⟩
    · rw [htrace', htrace, List.append_assoc]
    · rwa [exchanges_append, hnone, List.append_nil]

theorem Aside.refl (x : Kse σ) : Aside x x := ⟨rfl, [], by simp, rfl⟩

theorem Aside.trans {x y z : Kse σ} (h : Aside x y) (h' : Aside y z) : Aside x z := by
  obtain ⟨es, htrace, hnone⟩ := h.trace
  obtain ⟨es', htrace', hnone'⟩ := h'.trace
  refine ⟨h'.gabTxRxData.trans h.gabTxRxData, es ++ es', ?_, ?_⟩
  · rw [htrace', htrace, List.append_assoc]
  · rw [exchanges_append, hnone, hnone']
    rfl

theorem Aside.of_eq {x y : Kse σ} (hgab : y.gabTxRxData = x.gabTxRxData)
    (htrace : y.trace = x.trace) : Aside x y :=
  ⟨hgab, [], by rw [htrace, List.append_nil], rfl⟩

theorem copyOut_aside (x : Kse σ) (pb offset n : Nat) : Aside x (x.copyOut pb offset n) :=
  ⟨rfl, [.copied offset n], rfl, rfl⟩

theorem takeSized_aside (x : Kse σ) (pb pusSize usLen : Nat) :
    Aside x (x.takeSized pb pusSize usLen) := by
  simp only [Kse.takeSized]
  split
  · exact ⟨rfl, _, rfl, rfl⟩
  · exact .of_eq rfl rfl

/-! ### The requests of a command -/

/-- The parts that an input is cut in, and those of them that were sent. -/
structure Cut (usInputSize : Nat) (sizes sizesSent : List Nat) (sRv : Option Int) : Prop where
  pos : ∀ usSize ∈ sizes, 0 < usSize
  sum : sizes.sum = usInputSize
  sent : sizesSent <+: sizes
  all : sRv = some KSE_SUCCESS → sizesSent = sizes

/-- The requests that a call may send: one, one for each chunk of an input, with the chaining
    value before it, or one for each part of a message. -/
inductive Requests where
  | one (b : Built)
  | chunks (usInputSize : Nat) (request : (chaining input : List UInt8) → Built)
  | parts (message : List UInt8) (request : HashCommand → Built)

/-- `bs` are the requests of a call that returned `sRv`.  A call that sends none rejected its
    input, or never reached the exchange.  A message of up to `MAX_IO_DATA_SIZE` bytes is not cut,
    so that the part of an empty message is empty. -/
def Requests.Sent (sRv : Option Int) (bs : List Built) : Requests → Prop
  | .one b => bs = [] ∨ bs = [b]
  | .chunks usInputSize request =>
    ∃ (chunks : List (List UInt8 × List UInt8)) (sizes : List Nat),
      bs = chunks.map (fun c => request c.1 c.2) ∧
      Cut usInputSize sizes (chunks.map fun c => c.2.length) sRv
  | .parts message request =>
    ∃ parts : List HashCommand, bs = parts.map request ∧ parts <+: hashCommands message ∧
      (message ≠ [] → Cut message.length ((hashCommands message).map fun c => c.message.length)
        (parts.map fun c => c.message.length) sRv)

section Families

variable (W fuel)

def Requests.Fit (rs : Requests) (x : Kse σ) (r : Option Int × Kse σ) : Prop :=
  ∃ bs, BuildRun W fuel x bs r.2 ∧ rs.Sent r.1 bs ∧ ∀ b ∈ bs, b.Fits

end Families

theorem Mode.chunkSizes_pos (mode : Mode) (usInputSize : Nat) :
    ∀ usSize ∈ mode.chunkSizes usInputSize, 0 < usSize := by
  fun_induction mode.chunkSizes usInputSize with
  | case1 usInputSize hpos ih =>
    intro usSize hmem
    rcases List.mem_cons.mp hmem with rfl | hmem
    · exact mode.usSize_pos usInputSize hpos
    · exact ih usSize hmem
  | case2 => simp

theorem hashRest_sized (message : List UInt8) : ∀ c ∈ hashRest message, c.Sized := by
  fun_induction hashRest message with
  | case1 message hlong ih =>
    intro c hc
    rcases List.mem_cons.mp hc with rfl | hc
    · exact List.length_take_of_le (Nat.le_of_lt hlong)
    · exact ih c hc
  | case2 message hshort =>
    intro c hc
    obtain rfl := List.mem_singleton.mp hc
    exact Nat.le_of_not_lt hshort

theorem hashCommands_sized (message : List UInt8) : ∀ c ∈ hashCommands message, c.Sized := by
  unfold hashCommands
  split
  · intro c hc
    obtain rfl := List.mem_singleton.mp hc
    assumption
  · next hlong =>
    intro c hc
    rcases List.mem_cons.mp hc with rfl | hc
    · exact List.length_take_of_le (Nat.le_of_not_le hlong)
    · exact hashRest_sized _ c hc

theorem hashRest_pos {message : List UInt8} (hne : message ≠ []) :
    ∀ c ∈ hashRest message, 0 < c.message.length := by
  fun_induction hashRest message with
  | case1 message hlong ih =>
    intro c hc
    rcases List.mem_cons.mp hc with rfl | hc
    · have hfull := List.length_take_of_le (Nat.le_of_lt hlong)
      exact Nat.lt_of_lt_of_eq (by decide) hfull.symm
    · exact ih (List.ne_nil_of_length_pos (by rw [List.length_drop]; omega)) c hc
  | case2 message _ =>
    intro c hc
    obtain rfl := List.mem_singleton.mp hc
    exact List.length_pos_of_ne_nil hne

/-- Only the part of an empty message is empty. -/
theorem hashCommands_pos {message : List UInt8} (hne : message ≠ []) :
    ∀ c ∈ hashCommands message, 0 < c.message.length := by
  unfold hashCommands
  split
  · intro c hc
    obtain rfl := List.mem_singleton.mp hc
    exact List.length_pos_of_ne_nil hne
  · next hlong =>
    intro c hc
    rcases List.mem_cons.mp hc with rfl | hc
    · have hfull := List.length_take_of_le (Nat.le_of_not_le hlong)
      exact Nat.lt_of_lt_of_eq (by decide) hfull.symm
    · exact hashRest_pos (List.ne_nil_of_length_pos (by rw [List.length_drop]; omega)) c hc

/-- The parts of a message that is not empty cut it. -/
theorem hashCommands_cut {message : List UInt8} (hne : message ≠ []) {parts : List HashCommand}
    (hparts : parts <+: hashCommands message) {sRv : Option Int}
    (hall : sRv = some KSE_SUCCESS → parts = hashCommands message) :
    Cut message.length ((hashCommands message).map fun c => c.message.length)
      (parts.map fun c => c.message.length) sRv := by
  refine ⟨?_, ?_, hparts.map _, ?_⟩
  · intro usSize hsize
    obtain ⟨c, hc, rfl⟩ := List.mem_map.mp hsize
    exact hashCommands_pos hne c hc
  · have hsum := congrArg List.length (hashCommands_message message)
    rwa [List.length_flatMap] at hsum
  · intro hok
    rw [hall hok]

/-- A call that fails may have sent nothing. -/
theorem Requests.sent_nil (rs : Requests) {sRv : Option Int} (hfail : sRv ≠ some KSE_SUCCESS) :
    rs.Sent sRv [] := by
  cases rs with
  | one b => exact Or.inl rfl
  | chunks usInputSize request =>
    rcases Nat.eq_zero_or_pos usInputSize with rfl | hpos
    · exact ⟨[], [], rfl, by simp, rfl, List.nil_prefix, fun hok => absurd hok hfail⟩
    · exact ⟨[], [usInputSize], rfl, by simpa using hpos, by simp, List.nil_prefix,
        fun hok => absurd hok hfail⟩
  | parts message request =>
    exact ⟨[], rfl, List.nil_prefix, fun hne =>
      hashCommands_cut hne List.nil_prefix fun hok => absurd hok hfail⟩

/-! ### One request -/

theorem Built.Packed.build_eq {b : Built} {l : List UInt8} (h : b.Packed l) (x : Kse σ) :
    x.build b = x.store 0 l := by
  rw [Kse.build, writeAll_consecutive _ h.consecutive, h.bytes]
  rfl

/-- The exchange of a request that is built as it is stored. -/
theorem Built.Packed.exchange {b : Built} {l : List UInt8} (h : b.Packed l) {x : Kse σ}
    {e : Exchange} {w : σ} (hof : e.Of W fuel w l.length (x.store 0 l)) :
    BuildRun W fuel x [b] ((x.store 0 l).exchanged e w) := by
  rw [← h.build_eq, ← h.usSendLen] at hof
  have hrun := (BuildRun.refl x).exchange b hof
  rwa [List.nil_append, h.build_eq] at hrun

section OneRequest

variable (W fuel) {b : Built} {l : List UInt8} (h : b.Packed l) (x : Kse σ)
include h

theorem transceive_built :
    BuildRun W fuel x [b] (transceive W fuel l.length (x.store 0 l)).2.2 := by
  obtain ⟨e, w, hof⟩ := exists_exchange W fuel l.length (x.store 0 l)
  rw [hof.call]
  exact h.exchange hof

theorem statusCommand_built : BuildRun W fuel x [b] (statusCommand W fuel l x).2 := by
  obtain ⟨e, w, hof⟩ := exists_exchange W fuel l.length (x.store 0 l)
  rw [statusCommand_exchange hof]
  exact h.exchange hof

theorem dataCommand_built (wrongLen : Nat → Prop) [DecidablePred wrongLen]
    {take : Nat → Kse σ → Kse σ} (htake : ∀ usLen y, Aside y (take usLen y)) :
    BuildRun W fuel x [b] (dataCommand W fuel l wrongLen take x).2 := by
  obtain ⟨e, w, hof⟩ := exists_exchange W fuel l.length (x.store 0 l)
  rcases dataCommand_exchange wrongLen take hof with ⟨-, hr⟩ | ⟨-, sRv, -, hr⟩
  · rw [hr]
    exact (h.exchange hof).aside (htake _ _)
  · rw [hr]
    exact h.exchange hof

theorem statusCommand_fit (hmax : l.length ≤ MAX_IO_BUFFER_SIZE) :
    (Requests.one b).Fit W fuel x (statusCommand W fuel l x) :=
  ⟨[b], statusCommand_built W fuel h x, Or.inr rfl, by simpa using h.fits hmax⟩

theorem dataCommand_fit (hmax : l.length ≤ MAX_IO_BUFFER_SIZE) (wrongLen : Nat → Prop)
    [DecidablePred wrongLen] {take : Nat → Kse σ → Kse σ}
    (htake : ∀ usLen y, Aside y (take usLen y)) :
    (Requests.one b).Fit W fuel x (dataCommand W fuel l wrongLen take x) :=
  ⟨[b], dataCommand_built W fuel h x wrongLen htake, Or.inr rfl, by simpa using h.fits hmax⟩

end OneRequest

variable (W fuel) in
/-- The power check and the input check come before anything is built. -/
theorem checked_fit {wrongInput : Prop} [Decidable wrongInput]
    {body : Kse σ → Option Int × Kse σ} {rs : Requests} {x : Kse σ}
    (hbody : ¬wrongInput → rs.Fit W fuel x (body x)) :
    rs.Fit W fuel x (checked wrongInput body x) := by
  unfold checked
  split
  · exact ⟨[], .refl x, rs.sent_nil (by simp), by simp⟩
  · split
    · exact ⟨[], .refl x, rs.sent_nil (by simp), by simp⟩
    · exact hbody ‹_›

/-! ### Chunks -/

/-- The requests of a mode are built from chaining values that satisfy `Chain` and input in
    multiples of `unit`. -/
structure Mode.BuiltAs (mode : Mode) (request : List UInt8 → List UInt8 → Built)
    (Chain : List UInt8 → Prop) (unit : Nat) : Prop where
  unit_dvd : unit ∣ MAX_IO_DATA_SIZE - mode.free
  packed : ∀ v input, Chain v → input.length ≤ MAX_IO_DATA_SIZE - mode.free →
    (request v input).Packed (mode.request v input.length input)
  length_le : ∀ v input, Chain v → input.length ≤ MAX_IO_DATA_SIZE - mode.free →
    (mode.request v input.length input).length ≤ MAX_IO_BUFFER_SIZE
  next : ∀ v input output, Chain v → input ≠ [] → unit ∣ input.length →
    output.length = input.length → Chain (mode.next v input.length input output)

/-- What the loop sends is cut as `chunkSizes` says. -/
theorem modeLoop_built {mode : Mode} {request : List UInt8 → List UInt8 → Built}
    {Chain : List UInt8 → Prop} {unit : Nat} (h : mode.BuiltAs request Chain unit)
    {usInputSize : Nat} (hpos : 0 < usInputSize) (hunit : unit ∣ usInputSize)
    (pbOutput pbInput : Nat) {v : List UInt8} (hv : Chain v) (x : Kse σ) :
    let r := modeLoop W fuel mode pbOutput pbInput usInputSize v x
    ∃ chunks : List (List UInt8 × List UInt8),
      BuildRun W fuel x (chunks.map fun c => request c.1 c.2) r.2 ∧
      (chunks.map fun c => c.2.length) <+: mode.chunkSizes usInputSize ∧
      (r.1 = some KSE_SUCCESS →
        (chunks.map fun c => c.2.length) = mode.chunkSizes usInputSize) ∧
      ∀ c ∈ chunks, (request c.1 c.2).Fits := by
  induction usInputSize using Nat.strongRecOn generalizing x v pbOutput pbInput with
  | _ usInputSize ih =>
    have hmax := (mode.usSize_cases usInputSize).1
    have hsizePos := mode.usSize_pos usInputSize hpos
    have hle := mode.usSize_le usInputSize
    have hsizes := mode.chunkSizes_of_pos hpos
    have hsizeUnit := mode.dvd_usSize h.unit_dvd hunit
    have hturn := modeLoop_turn W fuel mode pbOutput pbInput usInputSize v x
    dsimp only at hturn
    generalize modeLoop W fuel mode pbOutput pbInput usInputSize v x = r at *
    generalize mode.usSize usInputSize = usSize at *
    have hinput : (x.arg pbInput usSize).length = usSize := length_slice _ _ _
    generalize x.arg pbInput usSize = input at *
    subst hinput
    have hpacked := h.packed v input hv hmax
    have hfits := hpacked.fits (h.length_le v input hv hmax)
    obtain ⟨e, w, hof, hcall⟩ := hturn
    have hsent := hpacked.exchange hof
    rcases hcall with ⟨-, y, hy, rfl⟩ | ⟨-, sRv, hcode, rfl⟩
    · have htaken := hsent.aside (copyOut_aside _ pbOutput 2 input.length)
      rw [← hy] at htaken
      by_cases hlast : usInputSize - input.length > 0
      · rw [if_pos hlast]
        have hnext := h.next v input (y.arg pbOutput input.length) hv
          (List.ne_nil_of_length_pos hsizePos) hsizeUnit (length_slice _ _ _)
        obtain ⟨chunks, hrun, hinitial, hall, hfitsRest⟩ := ih (usInputSize - input.length)
          (by omega) hlast ((Nat.dvd_sub_iff_left hle hsizeUnit).mpr hunit)
          (pbOutput + input.length) (pbInput + input.length) hnext y
        refine ⟨(v, input) :: chunks, htaken.trans hrun, ?_, ?_, ?_⟩
        · rw [hsizes]
          exact (List.prefix_cons_inj _).mpr hinitial
        · intro hok
          rw [hsizes, List.map_cons, hall hok]
        · intro c hc
          rcases List.mem_cons.mp hc with rfl | hc
          · exact hfits
          · exact hfitsRest c hc
      · have hdone : mode.chunkSizes (usInputSize - input.length) = [] := by
          rw [Nat.eq_zero_of_not_pos hlast, mode.chunkSizes_zero]
        rw [if_neg hlast]
        refine ⟨[(v, input)], htaken, ?_, ?_, ?_⟩
        · rw [hsizes, hdone]
          exact List.prefix_rfl
        · intro _
          rw [hsizes, hdone]
          rfl
        · simpa using hfits
    · refine ⟨[(v, input)], hsent, ?_, fun hok => absurd hok hcode, ?_⟩
      · rw [hsizes]
        exact (List.prefix_cons_inj _).mpr List.nil_prefix
      · simpa using hfits

theorem modeLoop_fit {mode : Mode} {request : List UInt8 → List UInt8 → Built}
    {Chain : List UInt8 → Prop} {unit : Nat} (h : mode.BuiltAs request Chain unit)
    {usInputSize : Nat} (hpos : 0 < usInputSize) (hunit : unit ∣ usInputSize)
    (pbOutput pbInput : Nat) {v : List UInt8} (hv : Chain v) (x : Kse σ) :
    (Requests.chunks usInputSize request).Fit W fuel x
      (modeLoop W fuel mode pbOutput pbInput usInputSize v x) := by
  obtain ⟨chunks, hrun, hinitial, hall, hfits⟩ :=
    @modeLoop_built σ W fuel _ _ _ _ h _ hpos hunit pbOutput pbInput _ hv x
  refine ⟨_, hrun, ⟨chunks, mode.chunkSizes usInputSize, rfl, mode.chunkSizes_pos _,
    mode.sum_chunkSizes _, hinitial, hall⟩, ?_⟩
  intro b hb
  obtain ⟨c, hc, rfl⟩ := List.mem_map.mp hb
  exact hfits c hc

section BlockCiphers

variable (bKeyType : UInt8) (usKeyIndex : Nat) (bEnDe bAlg : UInt8)

theorem ecbMode_built : (ecbMode bKeyType usKeyIndex bEnDe bAlg).BuiltAs
    (fun _ => kcmvpEcbRequest bKeyType usKeyIndex bEnDe bAlg) (fun _ => True) 16 := by
  refine ⟨(by decide : 16 ∣ 2944), ?_, ?_, fun _ _ _ _ _ _ _ => trivial⟩
  · intro v input _ hmax
    exact kcmvpEcbRequest_packed bKeyType usKeyIndex bEnDe bAlg v hmax
  · intro v input _ hmax
    simp only [ecbMode, modeHeader, List.length_append, List.length_cons, List.length_nil,
      length_bytes16, MAX_IO_BUFFER_SIZE, MAX_IO_DATA_SIZE, MAX_IO_CTRL_LEN] at hmax ⊢
    omega

theorem cbcMode_built : (cbcMode bKeyType usKeyIndex bEnDe bAlg).BuiltAs
    (kcmvpCbcRequest bKeyType usKeyIndex bEnDe bAlg) (fun pbIv => pbIv.length = 16) 16 := by
  refine ⟨(by decide : 16 ∣ 2928), ?_, ?_, ?_⟩
  · intro pbIv input hiv hmax
    exact kcmvpCbcRequest_packed bKeyType usKeyIndex bEnDe bAlg hiv (hmax.trans (Nat.sub_le _ _))
  · intro pbIv input hiv hmax
    simp only [cbcMode, modeHeader, List.length_append, List.length_cons, List.length_nil,
      length_bytes16, hiv, MAX_IO_BUFFER_SIZE, MAX_IO_DATA_SIZE, MAX_IO_CTRL_LEN] at hmax ⊢
    omega
  · intro pbIv input output _ hne hblocks houtput
    have hpos := List.length_pos_of_ne_nil hne
    have hblock := Nat.le_of_dvd hpos hblocks
    simp only [cbcMode]
    split
    · rw [List.length_drop, houtput]
      omega
    · rw [List.length_drop]
      omega

theorem ctrMode_built : (ctrMode bKeyType usKeyIndex bAlg).BuiltAs
    (kcmvpCtrRequest bKeyType usKeyIndex bAlg) (fun abCtr => abCtr.length = 16) 1 := by
  refine ⟨one_dvd _, ?_, ?_, ?_⟩
  · intro abCtr input hctr hmax
    exact kcmvpCtrRequest_packed bKeyType usKeyIndex bAlg hctr (hmax.trans (Nat.sub_le _ _))
  · intro abCtr input hctr hmax
    simp only [ctrMode, modeHeader, List.length_append, List.length_cons, List.length_nil,
      length_bytes16, hctr, MAX_IO_BUFFER_SIZE, MAX_IO_DATA_SIZE, MAX_IO_CTRL_LEN] at hmax ⊢
    omega
  · intro abCtr input output hctr _ _ _
    exact (length_addCtr abCtr _).trans hctr

theorem kcmvpEcb_fit (pbOutput pbInput usInputSize : Nat) (x : Kse σ) :
    (Requests.chunks usInputSize fun _ => kcmvpEcbRequest bKeyType usKeyIndex bEnDe bAlg).Fit W fuel
      x (kcmvpEcb W fuel pbOutput pbInput usInputSize bKeyType usKeyIndex bEnDe bAlg x) := by
  apply checked_fit
  intro hright
  simp only [not_or] at hright
  exact modeLoop_fit (ecbMode_built bKeyType usKeyIndex bEnDe bAlg)
    (Nat.pos_of_ne_zero hright.2.2.1) (Nat.dvd_of_mod_eq_zero (by omega)) _ _ trivial x

theorem kcmvpCbc_fit (pbOutput pbInput usInputSize pbIv : Nat) (x : Kse σ) :
    (Requests.chunks usInputSize (kcmvpCbcRequest bKeyType usKeyIndex bEnDe bAlg)).Fit W fuel x
      (kcmvpCbc W fuel pbOutput pbInput usInputSize bKeyType usKeyIndex pbIv bEnDe bAlg x) := by
  apply checked_fit
  intro hright
  simp only [not_or] at hright
  exact modeLoop_fit (cbcMode_built bKeyType usKeyIndex bEnDe bAlg)
    (Nat.pos_of_ne_zero hright.2.2.2.1) (Nat.dvd_of_mod_eq_zero (by omega)) _ _
    (length_slice _ _ _) x

theorem kcmvpCtr_fit (pbOutput pbInput usInputSize pbCtr : Nat) (x : Kse σ) :
    (Requests.chunks usInputSize (kcmvpCtrRequest bKeyType usKeyIndex bAlg)).Fit W fuel x
      (kcmvpCtr W fuel pbOutput pbInput usInputSize bKeyType usKeyIndex pbCtr bAlg x) := by
  apply checked_fit
  intro hright
  simp only [not_or] at hright
  exact modeLoop_fit (ctrMode_built bKeyType usKeyIndex bAlg)
    (Nat.pos_of_ne_zero hright.2.2.2.1) (one_dvd _) _ _ (length_slice _ _ _) x

/-- Fourteen bytes of header and a tag of up to 16 fit into the slack of 128. -/
theorem kcmvpGcm_fit (pbOutput pbInput usInputSize pbIv usIvSize pbAuth usAuthSize pbTag
    usTagSize : Nat) (x : Kse σ) :
    (Requests.one (kcmvpGcmRequest bKeyType usKeyIndex bEnDe bAlg pbInput usInputSize pbIv
      usIvSize pbAuth usAuthSize pbTag usTagSize x)).Fit W fuel x
      (kcmvpGcm W fuel pbOutput pbInput usInputSize bKeyType usKeyIndex pbIv usIvSize pbAuth
        usAuthSize pbTag usTagSize bEnDe bAlg x) := by
  apply checked_fit
  intro hright
  simp only [not_or, Nat.not_lt] at hright
  obtain ⟨-, -, -, -, -, -, -, -, htag, hsizes, -⟩ := hright
  refine dataCommand_fit W fuel (kcmvpGcmRequest_packed bKeyType usKeyIndex bEnDe bAlg pbInput pbIv
    pbAuth pbTag hsizes htag x) x ?_ _ ?_
  · have htagLen : (if bEnDe = ENCRYPT then [] else x.arg pbTag usTagSize).length ≤ usTagSize := by
      split
      · exact Nat.zero_le _
      · exact Nat.le_of_eq (length_slice _ _ _)
    simp only [Kse.arg, List.length_append, List.length_cons, List.length_nil, length_bytes16,
      length_slice, MAX_IO_BUFFER_SIZE, MAX_IO_DATA_SIZE, MAX_IO_CTRL_LEN] at hsizes htagLen ⊢
    omega
  · intro _ y
    have houtput := copyOut_aside y pbOutput 2 usInputSize
    dsimp only
    split
    · exact houtput.trans (copyOut_aside _ _ _ _)
    · exact houtput

end BlockCiphers

/-! ### Parts of a message -/

section Hash

variable (usKeyIndex pbInOut1 pbInOut2 : Nat) (bAlg : UInt8)

theorem arg_congr {x y : Kse σ} (happ : y.app = x.app) (pb n : Nat) : y.arg pb n = x.arg pb n :=
  congrArg (fun app => slice app pb n) happ

theorem takeHash_aside (x : Kse σ) : Aside x (x.takeHash bAlg pbInOut1 pbInOut2) := by
  unfold Kse.takeHash
  split
  · exact copyOut_aside x _ _ _
  · split
    · exact (copyOut_aside x pbInOut1 2 32).trans (copyOut_aside _ pbInOut2 34 32)
    · exact .refl x

/-- What a call makes of the commands of a message: it sends a prefix of them, and all of them if
    it succeeds. -/
def HashBuilt (W : World σ) (fuel : Nat) (x : Kse σ) (commands : List HashCommand)
    (request : HashCommand → Built) (r : Option Int × Kse σ) : Prop :=
  ∃ parts, BuildRun W fuel x (parts.map request) r.2 ∧ parts <+: commands ∧
    (r.1 = some KSE_SUCCESS → parts = commands)

theorem hashFinal_built {step : HashStep} (hfinal : step = .one ∨ step = .end_)
    {pbMessage usMessageSize : Nat} (hmax : usMessageSize ≤ MAX_IO_DATA_SIZE) (x : Kse σ) :
    HashBuilt W fuel x [⟨step, x.arg pbMessage usMessageSize⟩]
      (kcmvpHashDsaRequest usKeyIndex bAlg (x.arg pbInOut1 32) (x.arg pbInOut2 32))
      (hashFinal W fuel (step.bCmd bAlg) (step.key bAlg usKeyIndex) pbInOut1 pbInOut2 bAlg
        pbMessage usMessageSize x) := by
  have hmessage : (x.arg pbMessage usMessageSize).length = usMessageSize := length_slice _ _ _
  have hsized : HashCommand.Sized ⟨step, x.arg pbMessage usMessageSize⟩ := by
    rcases hfinal with rfl | rfl <;> exact hmessage.trans_le hmax
  have hpacked := kcmvpHashDsaRequest_packed usKeyIndex bAlg (length_slice x.app pbInOut1 32)
    (length_slice x.app pbInOut2 32) hsized
  rw [hashFinal_eq W fuel hfinal]
  exact ⟨[⟨step, x.arg pbMessage usMessageSize⟩], dataCommand_built W fuel hpacked x
    (HashWrongLen bAlg) fun _ y => takeHash_aside pbInOut1 pbInOut2 bAlg y,
    List.prefix_rfl, fun _ => rfl⟩

variable {bAlg} in
/-- A command before the last, and what follows it if it succeeds. -/
theorem HashBuilt.cons {request : HashCommand → Built} {c : HashCommand} {l : List UInt8}
    (hpacked : (request c).Packed l) {x : Kse σ} {commands : List HashCommand}
    {rest : Kse σ → Option Int × Kse σ}
    (hrest : ∀ y : Kse σ, y.app = x.app → HashBuilt W fuel y commands request (rest y)) :
    HashBuilt W fuel x (c :: commands) request
      (let (sRv, x) := statusCommand W fuel l x
       if sRv ≠ some KSE_SUCCESS then (sRv, x) else rest x) := by
  have hfirst := statusCommand_built W fuel hpacked x
  have happ := statusCommand_app W fuel l x
  generalize statusCommand W fuel l x = r at *
  obtain ⟨sRv, y⟩ := r
  dsimp only at *
  by_cases hok : sRv = some KSE_SUCCESS
  · rw [if_neg (not_not.mpr hok)]
    obtain ⟨parts, hrun, hinitial, hall⟩ := hrest y happ
    exact ⟨c :: parts, hfirst.trans hrun, (List.prefix_cons_inj c).mpr hinitial,
      fun hdone => by rw [hall hdone]⟩
  · rw [if_pos hok]
    exact ⟨[c], hfirst, (List.prefix_cons_inj c).mpr List.nil_prefix, fun hdone => absurd hdone hok⟩

/-- `Mid` and `End`. -/
theorem hashMid_built (inOut1 inOut2 : List UInt8) (pbMessage usMessageSize : Nat) (x : Kse σ)
    (h1 : x.arg pbInOut1 32 = inOut1) (h2 : x.arg pbInOut2 32 = inOut2) :
    HashBuilt W fuel x (hashRest (x.arg pbMessage usMessageSize))
      (kcmvpHashDsaRequest usKeyIndex bAlg inOut1 inOut2)
      (hashMid W fuel bAlg
        (hashFinal W fuel (HashStep.end_.bCmd bAlg) (HashStep.end_.key bAlg usKeyIndex) pbInOut1
          pbInOut2 bAlg)
        pbMessage usMessageSize x) := by
  induction usMessageSize using Nat.strongRecOn generalizing x pbMessage with
  | _ usMessageSize ih =>
    have hmessage : (x.arg pbMessage usMessageSize).length = usMessageSize := length_slice _ _ _
    rw [hashMid, hashRest, hmessage]
    by_cases hlong : MAX_IO_DATA_SIZE < usMessageSize
    · obtain ⟨hfirst, hdrop⟩ := arg_chunk x pbMessage hlong
      rw [if_pos hlong, if_pos hlong, hfirst, hdrop]
      have hchunk : (x.arg pbMessage MAX_IO_DATA_SIZE).length = MAX_IO_DATA_SIZE :=
        length_slice _ _ _
      generalize x.arg pbMessage MAX_IO_DATA_SIZE = chunk at *
      have hpacked := hashMidRequest_packed bAlg hchunk
      rw [hchunk] at hpacked
      refine HashBuilt.cons hpacked ?_
      intro y happ
      have hrest := ih (usMessageSize - MAX_IO_DATA_SIZE) (Nat.sub_lt (by omega) (by decide))
        (pbMessage + MAX_IO_DATA_SIZE) y
        ((arg_congr happ _ _).trans h1) ((arg_congr happ _ _).trans h2)
      rw [arg_congr happ] at hrest
      exact hrest
    · rw [if_neg hlong, if_neg hlong, ← h1, ← h2]
      exact hashFinal_built usKeyIndex pbInOut1 pbInOut2 bAlg (Or.inr rfl)
        (Nat.le_of_not_lt hlong) x

theorem HashBuilt.fit {message inOut1 inOut2 : List UInt8} {x : Kse σ} {r : Option Int × Kse σ}
    (h1 : inOut1.length = 32) (h2 : inOut2.length = 32)
    (hpresented : (hashPresented bAlg inOut1 inOut2).length ≤ 64)
    (h : HashBuilt W fuel x (hashCommands message)
      (kcmvpHashDsaRequest usKeyIndex bAlg inOut1 inOut2) r) :
    (Requests.parts message (kcmvpHashDsaRequest usKeyIndex bAlg inOut1 inOut2)).Fit W fuel x
      r := by
  obtain ⟨parts, hrun, hinitial, hall⟩ := h
  refine ⟨_, hrun, ⟨parts, rfl, hinitial, fun hne => hashCommands_cut hne hinitial hall⟩, ?_⟩
  intro b hb
  obtain ⟨c, hc, rfl⟩ := List.mem_map.mp hb
  have hsized := hashCommands_sized message c (hinitial.subset hc)
  exact (kcmvpHashDsaRequest_packed usKeyIndex bAlg h1 h2 hsized).fits
    (length_hashRequest hsized.length_le hpresented)

theorem kcmvpHashDsa_fit (pbMessage usMessageSize : Nat) (x : Kse σ) :
    (Requests.parts (x.arg pbMessage usMessageSize) (kcmvpHashDsaRequest usKeyIndex bAlg
        (x.arg pbInOut1 32) (x.arg pbInOut2 32))).Fit W fuel x
      (kcmvpHashDsa W fuel pbInOut1 pbInOut2 pbMessage usMessageSize usKeyIndex bAlg x) := by
  have hlen : (x.arg pbMessage usMessageSize).length = usMessageSize := length_slice _ _ _
  have h1 : (x.arg pbInOut1 32).length = 32 := length_slice _ _ _
  have h2 : (x.arg pbInOut2 32).length = 32 := length_slice _ _ _
  apply checked_fit
  intro _
  refine HashBuilt.fit usKeyIndex bAlg h1 h2 (hashPresented_le h1 h2) ?_
  rw [hashCommands, hlen]
  by_cases hone : usMessageSize ≤ MAX_IO_DATA_SIZE
  · simp only [if_pos hone]
    exact hashFinal_built usKeyIndex pbInOut1 pbInOut2 bAlg (Or.inl rfl) hone x
  · simp only [if_neg hone]
    obtain ⟨hfirst, hdrop⟩ := arg_chunk x pbMessage (Nat.lt_of_not_le hone)
    rw [hfirst, hdrop]
    have hchunk : (x.arg pbMessage MAX_IO_DATA_SIZE).length = MAX_IO_DATA_SIZE :=
      length_slice _ _ _
    generalize x.arg pbMessage MAX_IO_DATA_SIZE = chunk at *
    have hpacked := hashBeginRequest_packed usKeyIndex bAlg hchunk
    rw [hchunk] at hpacked
    refine HashBuilt.cons hpacked ?_
    intro y happ
    have hrest := @hashMid_built σ W fuel usKeyIndex pbInOut1 pbInOut2 bAlg (x.arg pbInOut1 32)
      (x.arg pbInOut2 32) (pbMessage + MAX_IO_DATA_SIZE) (usMessageSize - MAX_IO_DATA_SIZE) y
      (arg_congr happ _ _) (arg_congr happ _ _)
    rw [arg_congr happ] at hrest
    exact hrest

end Hash

end MavlinkDim
