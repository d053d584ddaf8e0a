import MavlinkDim.Power

/-!
# Runs of the interface

Between two calls the driver is powered on exactly while it has a handle, so no
command reaches the device without one (`power_iff_handle`).  What it takes from
libusb it gives back, except for the device list of a `_ksePowerOn` that finds
no device it can open (`usb_balanced_iff`).
-/

namespace MavlinkDim

open ByteMemory Ledger

variable {σ : Type} (W : UsbHost σ) (fuel : Nat)

/-! ### The calls that only pass the power check -/

theorem CommandStep.kept {W : World σ} {x y : Kse σ} (h : CommandStep W fuel x y) :
    Kept x y := by
  cases h with
  | exchange request hof =>
    have hstore : Kept x (x.store 0 request) := .of_eq rfl rfl ⟨[], by simp⟩
    exact hstore.trans hof.kept
  | copyOut pb offset n => exact .of_eq rfl rfl ⟨[.copied offset n], rfl, by simp⟩
  | store16 pus us => exact .of_eq rfl rfl ⟨[], by simp [Kse.store16]⟩

theorem CommandRun.kept {W : World σ} {x y : Kse σ} (h : CommandRun W fuel x y) : Kept x y := by
  induction h with
  | refl => exact .refl x
  | tail _ hstep ih => exact ih.trans (hstep.kept fuel)

theorem checked_off {wrongInput : Prop} [Decidable wrongInput]
    {body : Kse σ → Option Int × Kse σ} {x : Kse σ} (hoff : x.gusKsePower = .off) :
    checked wrongInput body x = (some KSE_FAIL_NOT_POWERED_ON, x) := by
  rw [checked, if_pos (by simp [hoff])]

theorem Command.run_off (c : Command) {W : World σ} {x : Kse σ} (hoff : x.gusKsePower = .off) :
    c.run W fuel x = (some KSE_FAIL_NOT_POWERED_ON, x) := by
  cases c <;>
    simp only [Command.run, kseReadInfoFile, kseWriteInfoFile, kcmvpGenerateKey, kcmvpPutKey,
      kcmvpGetKey, kcmvpEraseKey, kcmvpDrbg, kcmvpAesEcb, kcmvpAesCbc, kcmvpAesCtr, kcmvpAesGcm,
      kcmvpAriaEcb, kcmvpAriaCbc, kcmvpAriaCtr, kcmvpAriaGcm, kcmvpEcb, kcmvpCbc, kcmvpCtr,
      kcmvpGcm, kcmvpSha256, kcmvpHmacSha256, kcmvpHmacSha256Verify, kcmvpEcdsaSign,
      kcmvpEcdsaVerify, kcmvpHashDsa, kcmvpEcdhExchKey, kcmvpGetClibState, certGenerateKeypair,
      certPutPriKey, certPutPubKey, certGetPriKey, certGetPriKeyState, certGetPubKey,
      certGetPubKeyCsr, certPutCert, certPutCertPubKey, certGetCert, certGetCertField,
      certEraseCertKey, checked_off hoff]

/-- A call that is neither `_ksePowerOn` nor `_ksePowerOff` keeps the handle and the power state
    and takes nothing from libusb. -/
theorem KseCall.run_kept (call : KseCall) (hon : ∀ o, call ≠ .powerOn o)
    (hoff : call ≠ .powerOff) (x : UsbKse σ) :
    Kept x.kse (call.run W fuel x).2.kse ∧ (call.run W fuel x).2.calls = x.calls := by
  cases call with
  | powerOn o => exact absurd rfl (hon o)
  | powerOff => exact absurd rfl hoff
  | command c => exact ⟨(c.run_run W.toWorld fuel x.kse).kept, rfl⟩
  | tlsOpen => exact ⟨(ksetlsOpen_run W.toWorld fuel _ _ _ _ _ _ _ x.kse).kept, rfl⟩
  | tlsClose => exact ⟨(ksetlsClose_run W.toWorld fuel _ x.kse).kept, rfl⟩
  | tlsClientHandshake =>
    exact ⟨(ksetlsTlsClientHandshake_run W.toWorld fuel _ _ x.kse).kept, rfl⟩
  | tlsServerHandshake => exact ⟨(ksetlsTlsServerHandshake_run W.toWorld fuel _ x.kse).kept, rfl⟩
  | tlsRead => exact ⟨(ksetlsTlsRead_run W.toWorld fuel _ _ _ x.kse).kept, rfl⟩
  | tlsWrite => exact ⟨(ksetlsTlsWrite_run W.toWorld fuel _ _ _ x.kse).kept, rfl⟩
  | tlsCloseNotify => exact ⟨(ksetlsTlsCloseNotify_run W.toWorld fuel _ x.kse).kept, rfl⟩

/-- Powered off, every call but `_ksePowerOn` fails and changes nothing. -/
theorem KseCall.run_off (call : KseCall) (hon : ∀ o, call ≠ .powerOn o) {x : UsbKse σ}
    (hoff : x.kse.gusKsePower = .off) :
    call.run W fuel x = (some KSE_FAIL_NOT_POWERED_ON, x) := by
  have hpower : x.kse.gusKsePower ≠ .on := by simp [hoff]
  cases call with
  | powerOn o => exact absurd rfl (hon o)
  | powerOff => rw [run, ksePowerOff, if_pos hpower]
  | command c => rw [run, c.run_off fuel hoff, UsbKse.onKse]
  | tlsOpen => rw [run, ksetlsOpen, if_pos hpower, UsbKse.onKse]
  | tlsClose => rw [run, ksetlsClose, if_pos hpower, UsbKse.onKse]
  | tlsClientHandshake => rw [run, ksetlsTlsClientHandshake, if_pos hpower, UsbKse.onKse]
  | tlsServerHandshake => rw [run, ksetlsTlsServerHandshake, if_pos hpower, UsbKse.onKse]
  | tlsRead => simp only [run, ksetlsTlsRead, if_pos hpower, UsbKse.onKse]
  | tlsWrite => rw [run, ksetlsTlsWrite, if_pos hpower, UsbKse.onKse]
  | tlsCloseNotify => rw [run, ksetlsTlsCloseNotify, if_pos hpower, UsbKse.onKse]

/-! ### The power state and the handle -/

/-- No call of `_kseTransceive` so far was made without a handle. -/
def Kse.HandleFound (x : Kse σ) : Prop :=
  ∀ e, .exchange e ∈ x.trace → e.sRv ≠ some KSE_FAIL_NOT_FOUND

theorem Kept.handleFound {x y : Kse σ} (h : Kept x y) (hdev : x.ghDev ≠ none)
    (hx : x.HandleFound) : y.HandleFound := by
  obtain ⟨es, htrace, hfound⟩ := h.trace
  intro e hmem hcode
  rw [htrace] at hmem
  rcases List.mem_append.mp hmem with hmem | hmem
  · exact hx e hmem hcode
  · exact hdev (hfound e hmem hcode)

structure UsbKse.Consistent (x : UsbKse σ) : Prop where
  power : x.kse.gusKsePower = .on ↔ x.kse.ghDev ≠ none
  handleFound : x.kse.HandleFound

theorem UsbKse.Consistent.ghDev_of_off {x : UsbKse σ} (hx : x.Consistent)
    (hoff : x.kse.gusKsePower = .off) : x.kse.ghDev = none := by
  by_contra hdev
  have hon := hx.power.mpr hdev
  rw [hoff] at hon
  cases hon

theorem UsbKse.Consistent.of_eq {x y : UsbKse σ} (hx : x.Consistent)
    (hpower : y.kse.gusKsePower = x.kse.gusKsePower) (hdev : y.kse.ghDev = x.kse.ghDev)
    (htrace : y.kse.trace = x.kse.trace) : y.Consistent := by
  refine ⟨?_, ?_⟩
  · rw [hpower, hdev]
    exact hx.power
  · intro e hmem
    rw [htrace] at hmem
    exact hx.handleFound e hmem

theorem PowerEnd.handleFound {x : UsbKse σ} {r : Option Int × UsbKse σ} (h : PowerEnd W x r)
    (hdev : x.kse.ghDev ≠ none) (hx : x.kse.HandleFound) : r.2.kse.HandleFound := by
  cases h with
  | running y hy => exact hy.handleFound hdev hx
  | closed code y hy => exact hy.handleFound hdev hx
  | on code y hy => exact hy.handleFound hdev hx

theorem PowerEnd.consistent {x : UsbKse σ} {r : Option Int × UsbKse σ} (h : PowerEnd W x r)
    (hdev : x.kse.ghDev ≠ none) (hx : x.kse.HandleFound) (hret : r.1 ≠ none) :
    r.2.Consistent := by
  have hfound := h.handleFound W hdev hx
  cases h with
  | running y hy => exact absurd rfl hret
  | closed code y hy => exact ⟨by simp [UsbKse.usbClose_ghDev, UsbKse.usbClose_power], hfound⟩
  | on code y hy =>
    refine ⟨?_, hfound⟩
    simp only [true_iff, hy.ghDev]
    exact hdev

/-- `_ksePowerOn` without a handle changes neither it nor the trace, or goes on with one. -/
theorem ksePowerOn_end (o : PowerOnOutputs) {x : UsbKse σ} (hx : x.Consistent) :
    (∃ code y, y.kse.gusKsePower = x.kse.gusKsePower ∧ y.kse.ghDev = x.kse.ghDev ∧
        y.kse.trace = x.kse.trace ∧ ksePowerOn W fuel o x = (some code, y)) ∨
      ∃ y : UsbKse σ, y.kse.ghDev ≠ none ∧ y.kse.HandleFound ∧
        PowerEnd W y (ksePowerOn W fuel o x) := by
  cases hpower : x.kse.gusKsePower with
  | on =>
    refine Or.inl ⟨KSE_FAIL_ALREADY_POWERED_ON, x, hpower, rfl, rfl, ?_⟩
    rw [ksePowerOn, if_pos (by simp [hpower])]
  | off =>
    rcases ksePowerOn_cases W fuel o hpower with
      ⟨-, ⟨code, world, hcall⟩ | ⟨code, world, hcall⟩ | ⟨world, ppstDevs, hDev, y, hy, hcall⟩⟩ |
      ⟨-, code, world, ppstDevs, hcall⟩
    · exact Or.inl ⟨code, x.called world _, hpower, rfl, rfl, hcall⟩
    · exact Or.inl ⟨code, x.called world _, hpower, rfl, rfl, hcall⟩
    · refine Or.inr ⟨{ y with kse := { y.kse with ghDev := some hDev } }, by simp, ?_, ?_⟩
      · rw [hy]
        exact hx.handleFound
      · rw [hcall]
        exact powerOnDevice_end W fuel o _
    · exact Or.inl ⟨code, x.called world _, hpower, rfl, rfl, hcall⟩

/-- A call from a consistent state finds the handle, also when it does not return, and leaves a
    consistent state when it does. -/
theorem KseCall.run_consistent (call : KseCall) {x : UsbKse σ} (hx : x.Consistent) :
    (call.run W fuel x).2.kse.HandleFound ∧
      ((call.run W fuel x).1 ≠ none → (call.run W fuel x).2.Consistent) := by
  by_cases hon : ∃ o, call = .powerOn o
  · obtain ⟨o, rfl⟩ := hon
    rcases ksePowerOn_end W fuel o hx with
      ⟨code, y, hpower, hdev, htrace, hcall⟩ | ⟨y, hdev, hfound, hend⟩
    · rw [run, hcall]
      have hy := hx.of_eq hpower hdev htrace
      exact ⟨hy.handleFound, fun _ => hy⟩
    · exact ⟨hend.handleFound W hdev hfound, hend.consistent W hdev hfound⟩
  · have hne : ∀ o, call ≠ .powerOn o := by
      intro o heq
      exact hon ⟨o, heq⟩
    cases hpower : x.kse.gusKsePower with
    | off =>
      rw [call.run_off W fuel hne hpower]
      exact ⟨hx.handleFound, fun _ => hx⟩
    | on =>
      have hdev := hx.power.mp hpower
      by_cases hoff : call = .powerOff
      · subst hoff
        have hend := ksePowerOff_end W fuel hpower
        exact ⟨hend.handleFound W hdev hx.handleFound, hend.consistent W hdev hx.handleFound⟩
      · obtain ⟨hkept, -⟩ := call.run_kept W fuel hne hoff x
        have hfound := hkept.handleFound hdev hx.handleFound
        refine ⟨hfound, fun _ => ⟨?_, hfound⟩⟩
        rw [hkept.gusKsePower, hkept.ghDev]
        exact hx.power

theorem CallAt.state_consistent (c : CallAt σ) {x : UsbKse σ} (hx : x.Consistent) :
    (c.state x).Consistent :=
  hx.of_eq rfl rfl rfl

theorem CallAt.step_eq_some {c : CallAt σ} {x y : UsbKse σ} (h : c.step W fuel x = some y) :
    (c.call.run W fuel (c.state x)).1 ≠ none ∧ (c.call.run W fuel (c.state x)).2 = y := by
  simp only [step] at h
  split at h
  · cases h
  · rename_i hret
    exact ⟨hret, Option.some.inj h⟩

theorem CallAt.step_of_returned {c : CallAt σ} {x : UsbKse σ}
    (hret : (c.call.run W fuel (c.state x)).1 ≠ none) :
    c.step W fuel x = some (c.call.run W fuel (c.state x)).2 := by
  exact if_neg hret

theorem CallAt.step_consistent (c : CallAt σ) (x y : UsbKse σ) (h : c.step W fuel x = some y)
    (hx : x.Consistent) : y.Consistent := by
  obtain ⟨hret, rfl⟩ := c.step_eq_some W fuel h
  exact (c.call.run_consistent W fuel (c.state_consistent hx)).2 hret

theorem UsbKse.initial_consistent (app : Bytes) (world : σ) :
    (UsbKse.initial app world).Consistent :=
  ⟨by simp [initial], by simp [initial, Kse.HandleFound]⟩

/-- **The power state.**  At every boundary of every run the driver is powered on exactly when
    it has a handle; no call that is made then, whether it returns or not, reaches the device
    without one; and powered off, every call but `_ksePowerOn` fails and changes nothing. -/
theorem power_iff_handle (app : Bytes) (world : σ) (calls : List (CallAt σ)) (x : UsbKse σ)
    (hx : x ∈ UsbKse.initial app world ::
      Runs.states (CallAt.step W fuel) (UsbKse.initial app world) calls) :
    (x.kse.gusKsePower = .on ↔ x.kse.ghDev ≠ none) ∧
      (∀ c : CallAt σ, (c.call.run W fuel (c.state x)).2.kse.HandleFound) ∧
      (x.kse.gusKsePower = .off → ∀ c : CallAt σ, (∀ o, c.call ≠ .powerOn o) →
        c.call.run W fuel (c.state x) = (some KSE_FAIL_NOT_POWERED_ON, c.state x)) := by
  have hinit := UsbKse.initial_consistent app world
  have hconsistent : x.Consistent := by
    rcases List.mem_cons.mp hx with rfl | hmem
    · exact hinit
    · exact Runs.states_induction (CallAt.step_consistent W fuel) hinit calls x hmem
  refine ⟨hconsistent.power, ?_, ?_⟩
  · intro c
    exact (c.call.run_consistent W fuel (c.state_consistent hconsistent)).1
  · intro hoff c hne
    exact c.call.run_off W fuel hne hoff

/-- A bus with one device, the DIM, whose `libusb_open` returns `opens`. -/
def dimOnBus (opens : Int) : UsbHost Script where
  toWorld := scriptedWorld
  libusbInit s := (0, s)
  libusbExit s := s
  libusbGetDeviceList s := (.devices 1 [4], s)
  libusbFreeDeviceList s _ := s
  libusbGetDeviceDescriptor s _ := (0, ⟨VENDOR_ID, PRODUCT_ID⟩, s)
  libusbOpen s _ := (⟨(opens, some 7), by simp⟩, s)
  libusbClose s _ := s
  libusbKernelDriverActive s _ _ := (0, s)
  libusbDetachKernelDriver s _ _ := (0, s)
  libusbClaimInterface s _ _ := (0, s)
  libusbReleaseInterface s _ _ := (0, s)

/-- `_ksePowerOn` with no outputs, to a device that answers with 31 zero bytes. -/
def powerOnCall : CallAt Script :=
  ⟨fun _ => 0, ⟨[Report.ofList [REP_ONE_BLOCK, 0x06, 0, 31]], [], []⟩,
    .powerOn ⟨0, 0, 0, 0, 0, 0, 0, 0, 0⟩⟩

/-- The state it leaves, with the handle 7. -/
def dimOn : UsbKse Script :=
  (powerOnCall.call.run (dimOnBus 0) 1
    (powerOnCall.state (UsbKse.initial (fun _ => 0) powerOnCall.world))).2

theorem power_iff_handle_on :
    dimOn.kse.gusKsePower = .on ∧
      (dimOn.kse.gusKsePower = .on ↔ dimOn.kse.ghDev ≠ none) := by
  refine ⟨by decide +kernel, (power_iff_handle (dimOnBus 0) 1 (fun _ => 0) powerOnCall.world
    [powerOnCall] dimOn ?_).1⟩
  rw [Runs.states_cons_some (CallAt.step_of_returned _ _ (by decide +kernel))]
  exact List.mem_cons_of_mem _ (List.mem_cons_self ..)

/-! ### What was taken from libusb -/

/-- What the driver should hold between two calls. -/
def UsbKse.held (x : UsbKse σ) : List UsbResource :=
  (if x.kse.gusKsePower = .on then [.context] else []) ++ x.kse.ghDev.toList.map .handle

/-- One `libusb_init` is open while powered on and none otherwise, every device list was freed
    as often as it was obtained, and every handle was closed unless it is `ghDev`. -/
structure UsbKse.Balanced (x : UsbKse σ) : Prop where
  contexts : x.calls.count (.acquired .context) =
    x.calls.count (.released .context) + if x.kse.gusKsePower = .on then 1 else 0
  deviceLists : ∀ ppstDevs, x.calls.count (.acquired (.deviceList ppstDevs)) =
    x.calls.count (.released (.deviceList ppstDevs))
  handles : ∀ hDev, x.calls.count (.acquired (.handle hDev)) =
    x.calls.count (.released (.handle hDev)) + if x.kse.ghDev = some hDev then 1 else 0

theorem UsbKse.held_context (x : UsbKse σ) :
    x.held.count .context = if x.kse.gusKsePower = .on then 1 else 0 := by
  cases hdev : x.kse.ghDev <;> cases hpower : x.kse.gusKsePower <;> simp [held, hdev, hpower]

theorem UsbKse.held_deviceList (x : UsbKse σ) (ppstDevs : Nat) :
    x.held.count (.deviceList ppstDevs) = 0 := by
  cases hdev : x.kse.ghDev <;> cases hpower : x.kse.gusKsePower <;> simp [held, hdev, hpower]

theorem UsbKse.held_handle (x : UsbKse σ) (hDev : Nat) :
    x.held.count (.handle hDev) = if x.kse.ghDev = some hDev then 1 else 0 := by
  cases hdev : x.kse.ghDev <;> cases hpower : x.kse.gusKsePower <;>
    simp [held, hdev, hpower, List.count_singleton]

theorem UsbKse.balanced_iff (x : UsbKse σ) : x.Balanced ↔ Balance x.calls x.held := by
  constructor
  · intro h r
    cases r with
    | context => rw [x.held_context, h.contexts]
    | deviceList ppstDevs => rw [x.held_deviceList, h.deviceLists, Nat.add_zero]
    | handle hDev => rw [x.held_handle, h.handles]
  · intro h
    refine ⟨?_, ?_, ?_⟩
    · rw [h .context, x.held_context]
    · intro ppstDevs
      rw [h (.deviceList ppstDevs), x.held_deviceList, Nat.add_zero]
    · intro hDev
      rw [h (.handle hDev), x.held_handle]

theorem PowerEnd.balanced {x : UsbKse σ} {hDev : Nat} {r : Option Int × UsbKse σ}
    (h : PowerEnd W x r) (hdev : x.kse.ghDev = some hDev)
    (hx : Balance x.calls [.handle hDev, .context]) (hret : r.1 ≠ none) : r.2.Balanced := by
  rw [UsbKse.balanced_iff]
  cases h with
  | running y hy hcalls => exact absurd rfl hret
  | closed code y hy hcalls =>
    have hydev : y.kse.ghDev = some hDev := hy.ghDev.trans hdev
    rw [UsbKse.usbClose_calls, hydev, hcalls]
    exact hx.release.release
  | on code y hy hcalls =>
    have hydev : y.kse.ghDev = some hDev := hy.ghDev.trans hdev
    have hheld : UsbKse.held { y with kse := { y.kse with gusKsePower := .on } } =
        [.context, .handle hDev] := by
      simp [UsbKse.held, hydev]
    rw [hheld]
    simp only [hcalls]
    exact hx.perm (.swap _ _ _)

/-- A `_ksePowerOn` that looks for the device finds it. -/
def KseCall.FindsDevice : KseCall → UsbKse σ → Prop
  | .powerOn _, x => x.kse.gusKsePower = .off → DeviceFound W x.kse.world
  | _, _ => True

theorem UsbKse.Balanced.of_eq {x y : UsbKse σ} (hx : x.Balanced) (hcalls : y.calls = x.calls)
    (hdev : y.kse.ghDev = x.kse.ghDev) (hpower : y.kse.gusKsePower = x.kse.gusKsePower) :
    y.Balanced := by
  rw [balanced_iff, held, hcalls, hdev, hpower, ← held, ← balanced_iff]
  exact hx

theorem UsbKse.Consistent.held_of_off {x : UsbKse σ} (hx : x.Consistent)
    (hoff : x.kse.gusKsePower = .off) : x.held = [] := by
  simp [held, hoff, hx.ghDev_of_off hoff]

theorem ksePowerOn_balanced_iff (o : PowerOnOutputs) {x : UsbKse σ} (hx : x.Consistent)
    (hbal : x.Balanced) (hoff : x.kse.gusKsePower = .off)
    (hret : (ksePowerOn W fuel o x).1 ≠ none) :
    (ksePowerOn W fuel o x).2.Balanced ↔ DeviceFound W x.kse.world := by
  have hnone := hx.held_of_off hoff
  have hempty : Balance x.calls [] := by
    rw [← hnone]
    exact x.balanced_iff.mp hbal
  have hcalled : ∀ world es, Balance (x.calls ++ es) [] → (x.called world es).Balanced := by
    intro world es h
    rw [UsbKse.balanced_iff]
    exact hnone.symm ▸ h
  rcases ksePowerOn_cases W fuel o hoff with ⟨hfound, hcases⟩ | ⟨hfound, hcase⟩
  · apply iff_of_true _ hfound
    rcases hcases with ⟨code, world, hcall⟩ | ⟨code, world, hcall⟩ |
      ⟨world, ppstDevs, hDev, y, hy, hcall⟩
    · rw [hcall]
      exact hcalled world [] (by simpa using hempty)
    · rw [hcall]
      have hexit := (hempty.acquire .context).release
      exact hcalled world _ (by simpa using hexit)
    · have hopened := ((hempty.acquire .context).acquire (.deviceList ppstDevs)).acquire
        (.handle hDev)
      have hfreed := (hopened.perm (.swap _ _ _)).release
      rw [hcall] at hret ⊢
      refine (powerOnDevice_end W fuel o _).balanced W rfl ?_ hret
      rw [hy]
      simpa using hfreed
  · apply iff_of_false _ hfound
    obtain ⟨code, world, ppstDevs, hcall⟩ := hcase
    have hlisted := (hempty.acquire .context).acquire (.deviceList ppstDevs)
    have hleaked := (hlisted.perm (.swap _ _ _)).release
    rw [hcall, UsbKse.balanced_iff]
    intro hbalance
    have hheld : (x.called world [.acquired .context, .acquired (.deviceList ppstDevs),
        .released .context]).held = [] := hnone
    rw [hheld] at hbalance
    have hperm := hbalance.unique (by simpa using hleaked)
    simpa using hperm.length_eq

/-- A call that returns leaves the ledger balanced exactly when it finds the device it looks
    for. -/
theorem KseCall.balanced_iff_findsDevice (call : KseCall) {x : UsbKse σ} (hx : x.Consistent)
    (hbal : x.Balanced) (hret : (call.run W fuel x).1 ≠ none) :
    (call.run W fuel x).2.Balanced ↔ call.FindsDevice W x := by
  by_cases hon : ∃ o, call = .powerOn o
  · obtain ⟨o, rfl⟩ := hon
    simp only [FindsDevice]
    cases hpower : x.kse.gusKsePower with
    | on =>
      have hcall : ksePowerOn W fuel o x = (some KSE_FAIL_ALREADY_POWERED_ON, x) := by
        rw [ksePowerOn, if_pos (by simp [hpower])]
      rw [run, hcall]
      simpa using hbal
    | off =>
      rw [forall_prop_of_true rfl]
      exact ksePowerOn_balanced_iff W fuel o hx hbal hpower hret
  · have hne : ∀ o, call ≠ .powerOn o := by
      intro o heq
      exact hon ⟨o, heq⟩
    have hfinds : call.FindsDevice W x := by
      cases call with
      | powerOn o => exact absurd rfl (hne o)
      | _ => trivial
    apply iff_of_true _ hfinds
    by_cases hoff : call = .powerOff
    · subst hoff
      cases hpower : x.kse.gusKsePower with
      | off =>
        rw [KseCall.run_off W fuel .powerOff (by simp) hpower]
        exact hbal
      | on =>
        obtain ⟨hDev, hdev⟩ := Option.ne_none_iff_exists'.mp (hx.power.mp hpower)
        refine (ksePowerOff_end W fuel hpower).balanced W hdev ?_ hret
        have hheld : x.held = [.context, .handle hDev] := by simp [UsbKse.held, hpower, hdev]
        exact (hheld ▸ x.balanced_iff.mp hbal).perm (.swap _ _ _)
    · obtain ⟨hkept, hcalls⟩ := call.run_kept W fuel hne hoff x
      exact hbal.of_eq hcalls hkept.ghDev hkept.gusKsePower

/-- **When libusb gets everything back.**  Every state after a call of a run is balanced exactly
    when every `_ksePowerOn` of the run that gets a list of devices finds the DIM in it and can
    open it. -/
theorem usb_balanced_iff (app : Bytes) (world : σ) (calls : List (CallAt σ)) :
    (∀ x ∈ Runs.states (CallAt.step W fuel) (UsbKse.initial app world) calls, x.Balanced) ↔
      Runs.Along (CallAt.step W fuel) (fun c x => c.call.FindsDevice W (c.state x))
        (UsbKse.initial app world) calls := by
  refine Runs.forall_states_iff (CallAt.step_consistent W fuel) ?_
    (UsbKse.initial_consistent app world) ?_ calls
  · intro c x y hstep hx hbal
    obtain ⟨hret, rfl⟩ := c.step_eq_some W fuel hstep
    exact c.call.balanced_iff_findsDevice W fuel (c.state_consistent hx)
      (hbal.of_eq rfl rfl rfl) hret
  · exact ⟨by simp [UsbKse.initial], by simp [UsbKse.initial], by simp [UsbKse.initial]⟩

/-- The DIM is on the bus but may not be opened (`LIBUSB_ERROR_ACCESS`): the list that
    `_ksePowerOn` obtained is never freed. -/
theorem usb_unbalanced_access :
    ∃ x ∈ Runs.states (CallAt.step (dimOnBus (-3)) 1)
        (UsbKse.initial (fun _ => 0) powerOnCall.world) [powerOnCall],
      x.calls = [.acquired .context, .acquired (.deviceList 1), .released .context] ∧
        ¬x.Balanced := by
  rw [Runs.states_cons_some (CallAt.step_of_returned _ _ (by decide +kernel))]
  refine ⟨_, List.mem_cons_self .., by decide +kernel, ?_⟩
  intro hbal
  exact absurd (hbal.deviceLists 1) (by decide +kernel)

end MavlinkDim
