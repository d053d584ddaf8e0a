import MavlinkDim.CallSequences
import MavlinkDim.Kcmvp
import MavlinkDim.TlsStream

/-!
# Commands to a conforming device

A command outside TLS to a device that waits for a request: the device executes
exactly the request that the command stored, and the command takes exactly the
response.  `calls_refine` says what follows for a sequence of calls that an
application makes.
-/

namespace MavlinkDim

open ByteMemory CallSequences

variable {δ : Type} (D : Device δ) (N : Net δ) (indeterminate : δ → Int) {fuel : Nat}

/-- The driver is powered on and its device waits for a request. -/
structure Waiting (x : Kse (Frame δ)) : Prop where
  power : x.gusKsePower = .on
  dev : ∃ d, x.ghDev = some d
  idle : x.world.request = []

/-- Between `x` and `y` the device was sent `request` and nothing else. -/
structure Requested (request : List UInt8) (x y : Kse (Frame δ)) : Prop where
  waiting : Waiting y
  app : y.app = x.app
  env : y.world.env = (D.exec x.world.env request).2
  trace : ∃ e, y.trace = x.trace ++ [.exchange e] ∧ e.request = request ∧
    e.usLen = (D.exec x.world.env request).1.length

theorem Waiting.withApp {x : Kse (Frame δ)} (hx : Waiting x) (app : Bytes) :
    Waiting { x with app } := ⟨hx.power, hx.dev, hx.idle⟩

theorem Waiting.copyOut {x : Kse (Frame δ)} (hx : Waiting x) (pb offset n : Nat) :
    Waiting (x.copyOut pb offset n) := ⟨hx.power, hx.dev, hx.idle⟩

/-- The 16-bit field of a request at `offset`. -/
def requestField (request : List UInt8) (offset : Nat) : Nat :=
  word (request.getD offset 0) (request.getD (offset + 1) 0)

variable {x : Kse (Frame δ)} {request data : List UInt8} {env : δ}

/-- The exchange of a command. -/
theorem request_frame (hx : Waiting x) (hfuel : 51 ≤ fuel) (hpos : request ≠ [])
    (hmax : request.length ≤ MAX_IO_BUFFER_SIZE)
    (hresp : (D.exec x.world.env request).1.length ≤ MAX_IO_BUFFER_SIZE) :
    ∃ y, transceive (frameWorld D N indeterminate) fuel request.length (x.store 0 request) =
        (some KSE_SUCCESS, (D.exec x.world.env request).1.length, y) ∧
      (∃ m, y.gabTxRxData = put m 0 (D.exec x.world.env request).1) ∧ Requested D request x y := by
  have hslice : slice (x.store 0 request).gabTxRxData 0 request.length = request :=
    slice_put_same _ _ _
  rcases hexec : D.exec x.world.env request with ⟨response, env⟩
  rw [hexec] at hresp
  obtain ⟨e, w, hof⟩ := exists_exchange (frameWorld D N indeterminate) fuel request.length
    (x.store 0 request)
  obtain ⟨hok, hsent, husLen, hgab, hw, hwenv⟩ := hof.frame D N indeterminate fuel hx.dev hx.idle
    hfuel hslice (List.length_pos_of_ne_nil hpos) hmax hexec hresp
  refine ⟨(x.store 0 request).exchanged e w, ?_, ⟨_, hgab⟩, ?_⟩
  · rw [hof.call, hok, husLen]
  · refine ⟨⟨hx.power, hx.dev, hw⟩, rfl, ?_, e, rfl, hsent, ?_⟩
    · rw [hexec]
      exact hwenv
    · rw [hexec]
      exact husLen

/-- A command that the device carries out. -/
theorem statusCommand_frame (hx : Waiting x) (hfuel : 51 ≤ fuel) (hpos : request ≠ [])
    (hmax : request.length ≤ MAX_IO_BUFFER_SIZE)
    (hexec : (D.exec x.world.env request).1 = [0x00, 0x00]) :
    ∃ y, statusCommand (frameWorld D N indeterminate) fuel request x = (some KSE_SUCCESS, y) ∧
      Requested D request x y := by
  obtain ⟨y, hcall, ⟨m, hgab⟩, hy⟩ := request_frame D N indeterminate hx hfuel hpos hmax
    (by rw [hexec]; simp)
  refine ⟨y, ?_, hy⟩
  rw [hexec] at hcall hgab
  rw [statusCommand, hcall]
  simp only [ne_eq, not_true, if_false, List.length_cons, List.length_nil]
  rw [hgab, status_put m (by simp), responseStatus_zero []]

/-- A command that the device answers with a status word. -/
theorem statusCommand_status (hx : Waiting x) (hfuel : 51 ≤ fuel) (hpos : request ≠ [])
    (hmax : request.length ≤ MAX_IO_BUFFER_SIZE) {hi lo : UInt8}
    (hexec : (D.exec x.world.env request).1 = [hi, lo]) :
    ∃ y, statusCommand (frameWorld D N indeterminate) fuel request x =
        (some (int16 (word hi lo)), y) ∧ Requested D request x y := by
  obtain ⟨y, hcall, ⟨m, hgab⟩, hy⟩ := request_frame D N indeterminate hx hfuel hpos hmax
    (by rw [hexec]; simp)
  refine ⟨y, ?_, hy⟩
  rw [hexec] at hcall hgab
  rw [statusCommand, hcall]
  simp only [ne_eq, not_true, if_false, List.length_cons, List.length_nil]
  rw [hgab, status_put m (by simp)]
  rfl

/-! ### Answers -/

/-- What a device answers to a command: data, or a status word that is not zero. -/
inductive Answer where
  | accepted (data : List UInt8)
  | refused (hi lo : UInt8) (nonzero : word hi lo ≠ 0)

namespace Answer

def response : Answer → List UInt8
  | accepted data => [0x00, 0x00] ++ data
  | refused hi lo _ => [hi, lo]

def code : Answer → Int
  | accepted _ => KSE_SUCCESS
  | refused hi lo _ => int16 (word hi lo)

theorem code_refused {hi lo : UInt8} (h : word hi lo ≠ 0) :
    (refused hi lo h).code ≠ KSE_SUCCESS := by
  have hlt := word_lt hi lo
  simp only [code, int16, KSE_SUCCESS]
  split <;> omega

theorem two_le_response (answer : Answer) : 2 ≤ answer.response.length := by
  cases answer with
  | accepted data => simp [response]
  | refused hi lo h => simp [response]

theorem responseStatus_response (answer : Answer) :
    responseStatus answer.response = answer.code := by
  cases answer with
  | accepted data => exact responseStatus_zero data
  | refused hi lo h => rfl

/-- The driver after `y`, when `take` is done with the data, if there are any. -/
def takenBy {σ : Type} (take : Nat → Kse σ → Kse σ) (y : Kse σ) : Answer → Kse σ
  | accepted data => take (data.length + 2) y
  | refused _ _ _ => y

end Answer

/-- A command that the device answers. -/
theorem dataCommand_answer (hx : Waiting x) (hfuel : 51 ≤ fuel) (hpos : request ≠ [])
    (hmax : request.length ≤ MAX_IO_BUFFER_SIZE) {answer : Answer}
    (hexec : (D.exec x.world.env request).1 = answer.response)
    (hresp : answer.response.length ≤ MAX_IO_BUFFER_SIZE) (wrongLen : Nat → Prop)
    [DecidablePred wrongLen] (hlen : ∀ data, answer = .accepted data → ¬wrongLen (data.length + 2))
    (take : Nat → Kse (Frame δ) → Kse (Frame δ)) :
    ∃ y, dataCommand (frameWorld D N indeterminate) fuel request wrongLen take x =
        (some answer.code, answer.takenBy take y) ∧
      (∃ m, y.gabTxRxData = put m 0 answer.response) ∧ Requested D request x y := by
  obtain ⟨y, hcall, ⟨m, hgab⟩, hy⟩ := request_frame D N indeterminate hx hfuel hpos hmax
    (by rwa [hexec])
  rw [hexec] at hcall hgab
  refine ⟨y, ?_, ⟨m, hgab⟩, hy⟩
  have hstatus : status y.gabTxRxData = answer.code := by
    rw [hgab, status_put m answer.two_le_response, answer.responseStatus_response]
  rw [dataCommand, hcall]
  simp only [ne_eq, not_true, if_false, hstatus]
  cases answer with
  | accepted data =>
    have hright := hlen data rfl
    have husLen : (Answer.accepted data).response.length = data.length + 2 := by
      rw [Answer.response, List.length_append, Nat.add_comm]
      rfl
    simp only [Answer.code, Answer.takenBy, husLen, hright, and_false, false_and, not_true,
      or_false, if_false]
  | refused hi lo h =>
    have hcode := Answer.code_refused h
    simp only [hcode, Answer.takenBy, Answer.response, List.length_cons, List.length_nil,
      false_and, not_false_eq_true, not_true, and_false, or_false, if_false, if_true]

/-- A command whose response carries `data`. -/
theorem dataCommand_frame (hx : Waiting x) (hfuel : 51 ≤ fuel) (hpos : request ≠ [])
    (hmax : request.length ≤ MAX_IO_BUFFER_SIZE)
    (hexec : (D.exec x.world.env request).1 = [0x00, 0x00] ++ data)
    (hdata : data.length ≤ MAX_IO_DATA_SIZE) (wrongLen : Nat → Prop) [DecidablePred wrongLen]
    (hlen : ¬wrongLen (data.length + 2)) (pb : Nat) :
    ∃ y, dataCommand (frameWorld D N indeterminate) fuel request wrongLen
        (fun _ x => x.copyOut pb 2 data.length) x =
          (some KSE_SUCCESS, y.copyOut pb 2 data.length) ∧
      (y.copyOut pb 2 data.length).app = put x.app pb data ∧ Requested D request x y := by
  have hresp : (Answer.accepted data).response.length ≤ MAX_IO_BUFFER_SIZE := by
    simp only [Answer.response, List.length_append, List.length_cons, List.length_nil,
      MAX_IO_BUFFER_SIZE, MAX_IO_DATA_SIZE, MAX_IO_CTRL_LEN] at hdata ⊢
    omega
  have hanswer : (D.exec x.world.env request).1 = (Answer.accepted data).response := hexec
  obtain ⟨y, hcall, ⟨m, hgab⟩, hy⟩ := dataCommand_answer D N indeterminate hx hfuel hpos hmax
    hanswer hresp wrongLen (by rintro _ ⟨⟩; exact hlen) (fun _ x => x.copyOut pb 2 data.length)
  refine ⟨y, hcall, ?_, hy⟩
  rw [Kse.copyOut, cpyFrom, blit_eq_put, hgab, hy.app]
  exact congrArg (put x.app pb) (slice_put_front m [0x00, 0x00] data)

/-! ### Calls of an application -/

/-- The code of a call and the memory that it leaves, and the state after it. -/
def outcome {σ C : Type} (run : C → Kse σ → Option Int × Kse σ) (c : C) (x : Kse σ) :
    (Option Int × Bytes) × Kse σ :=
  let (sRv, x) := run c x
  ((sRv, x.app), x)

/-- What the driver does with a response behind its exchange: it takes data out. -/
structure Unpacked (y z : Kse (Frame δ)) : Prop where
  world : z.world = y.world
  power : z.gusKsePower = y.gusKsePower
  dev : z.ghDev = y.ghDev
  trace : ∃ es, z.trace = y.trace ++ es ∧ requests es = []

theorem Unpacked.refl (y : Kse (Frame δ)) : Unpacked y y :=
  ⟨rfl, rfl, rfl, [], (List.append_nil _).symm, rfl⟩

theorem Unpacked.copyOut (y : Kse (Frame δ)) (pb offset n : Nat) :
    Unpacked y (y.copyOut pb offset n) :=
  ⟨rfl, rfl, rfl, [_], rfl, rfl⟩

theorem Unpacked.trans {y z w : Kse (Frame δ)} (h : Unpacked y z) (h' : Unpacked z w) :
    Unpacked y w := by
  obtain ⟨es, htrace, hnone⟩ := h.trace
  obtain ⟨es', htrace', hnone'⟩ := h'.trace
  refine ⟨h'.world.trans h.world, h'.power.trans h.power, h'.dev.trans h.dev, es ++ es', ?_, ?_⟩
  · rw [htrace', htrace, List.append_assoc]
  · rw [requests_append, hnone, hnone', List.append_nil]

/-- What one call has to show: it returns and leaves in the memory what is specified, so is the
    part `abs` of the state of the device then, and it makes the requests `sends`. -/
structure CallRefines {T : Type} (abs : δ → T) (spec : (Int × Bytes) × T)
    (sends : List (List UInt8)) (x : Kse (Frame δ)) (r : Option Int × Kse (Frame δ)) : Prop where
  waiting : Waiting r.2
  reply : (r.1, r.2.app) = (some spec.1.1, spec.1.2)
  env : abs r.2.world.env = spec.2
  trace : ∃ es, r.2.trace = x.trace ++ es ∧ requests es = sends

namespace CallRefines

variable {T : Type} {abs : δ → T} {D}

/-- A call that is refused. -/
theorem of_refused (hx : Waiting x) (app : Bytes) :
    CallRefines abs ((KSE_FAIL_WRONG_INPUT, app), abs x.world.env) [] x
      (some KSE_FAIL_WRONG_INPUT, { x with app }) :=
  ⟨hx.withApp app, rfl, rfl, [], (List.append_nil _).symm, rfl⟩

/-- A call whose command has returned. -/
theorem of_requested {app : Bytes} {y z : Kse (Frame δ)} {code : Int}
    (hy : Requested D request { x with app } y) (hz : Unpacked y z) :
    CallRefines abs ((code, z.app), abs (D.exec x.world.env request).2) [request] x
      (some code, z) := by
  obtain ⟨hwaiting, -, henv, e, htrace, hsent, -⟩ := hy
  obtain ⟨hworld, hpower, hdev, es, htrace', hnone⟩ := hz
  refine ⟨⟨hpower.trans hwaiting.power, hdev ▸ hwaiting.dev, hworld ▸ hwaiting.idle⟩, rfl, ?_,
    .exchange e :: es, ?_, ?_⟩
  · show abs z.world.env = _
    rw [hworld, henv]
  · show z.trace = _
    rw [htrace', htrace, List.append_assoc]
    rfl
  · show e.request :: requests es = [request]
    rw [hsent, hnone]

end CallRefines

/-- Any sequence of calls, each of which does what is specified. -/
theorem calls_refine {C T : Type} {run : C → Kse (Frame δ) → Option Int × Kse (Frame δ)}
    {spec : C → T → (Int × Bytes) × T} {sends : C → List (List UInt8)} {abs : δ → T}
    (hcall : ∀ c x, Waiting x →
      CallRefines abs (spec c (abs x.world.env)) (sends c) x (run c x))
    (hx : Waiting x) (calls : List C) :
    let r := runAll (outcome run) calls x
    r.1 = (runAll spec calls (abs x.world.env)).1.map (fun r => (some r.1, r.2)) ∧
      abs r.2.world.env = (runAll spec calls (abs x.world.env)).2 ∧
      (∃ es, r.2.trace = x.trace ++ es ∧ requests es = calls.flatMap sends) ∧ Waiting r.2 := by
  intro r
  have hrefines : Refines (fun y => Waiting y ∧ x.trace <+: y.trace) (fun y => abs y.world.env)
      (fun r => (some r.1, r.2)) (fun y => requests y.trace) sends (outcome run) spec := by
    constructor
    · rintro c y ⟨hy, hprefix⟩
      obtain ⟨es, htrace, -⟩ := (hcall c y hy).trace
      exact ⟨(hcall c y hy).waiting, hprefix.trans ⟨es, htrace.symm⟩⟩
    · rintro c y ⟨hy, -⟩
      exact (hcall c y hy).reply
    · rintro c y ⟨hy, -⟩
      exact (hcall c y hy).env
    · rintro c y ⟨hy, -⟩
      obtain ⟨es, htrace, hsends⟩ := (hcall c y hy).trace
      show requests (run c y).2.trace = _
      rw [htrace, requests_append, hsends]
  obtain ⟨⟨hwaiting, es, htrace⟩, hreplies, henv, hsent⟩ :=
    hrefines.runAll calls ⟨hx, List.prefix_rfl⟩
  refine ⟨hreplies, henv, ⟨es, htrace.symm, ?_⟩, hwaiting⟩
  rw [← htrace, requests_append] at hsent
  exact List.append_cancel_left hsent

/-- A network that takes everything and has nothing to read. -/
def silentNet : Net δ where
  getsockopt env _ := (0, 0, env)
  read env _ _ := (some ⟨[], Nat.zero_le _⟩, env)
  write env _ _ count := (some ⟨count, Nat.le_refl _⟩, env)

theorem waiting_poweredOn (app : Bytes) (env : δ) : Waiting (poweredOn app (Frame.idle env)) :=
  ⟨rfl, ⟨0, rfl⟩, rfl⟩

end MavlinkDim
