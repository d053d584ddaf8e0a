import MavlinkDim.CommandFrame
import MavlinkDim.Ledger
import MavlinkDim.Runs
import MavlinkDim.TlsReplies
import MavlinkDim.TlsRun

/-!
# Power

`_ksePowerOn` finds the device on the USB, opens it and claims its interface
before it sends the first command; `_ksePowerOff` and every failure after the
open give the handle back through `_usbClose`.  The state is the driver and a
ledger of what was taken from libusb.
-/

namespace MavlinkDim

open ByteMemory Ledger

structure DeviceDescriptor where
  idVendor : Nat
  idProduct : Nat

/-- What `libusb_get_device_list` gives: a `libusb_error`, or a list of devices and its
    address. -/
inductive DeviceList where
  | error (code : { code : Int // -99 ≤ code ∧ code < 0 })
  | devices (ppstDevs : Nat) (devs : List Nat)

namespace DeviceList

/-- The value that `libusb_get_device_list` returns. -/
def count : DeviceList → Int
  | .error code => code
  | .devices _ devs => devs.length

def devs : DeviceList → List Nat
  | .error _ => []
  | .devices _ devs => devs

def ppstDevs : DeviceList → Nat
  | .error _ => 0
  | .devices ppstDevs _ => ppstDevs

end DeviceList

/-- The calls of libusb outside the transfers.  A `libusb_open` that succeeds gives a handle. -/
structure Libusb (σ : Type) where
  libusbInit : σ → Int × σ
  libusbExit : σ → σ
  libusbGetDeviceList : σ → DeviceList × σ
  libusbFreeDeviceList : σ → (ppstDevs : Nat) → σ
  libusbGetDeviceDescriptor : σ → (dev : Nat) → Int × DeviceDescriptor × σ
  libusbOpen : σ → (dev : Nat) →
    { r : Int × Option Nat // r.1 = LIBUSB_SUCCESS → r.2 ≠ none } × σ
  libusbClose : σ → (hDev : Option Nat) → σ
  libusbKernelDriverActive : σ → (hDev : Option Nat) → (interface : Nat) → Int × σ
  libusbDetachKernelDriver : σ → (hDev : Option Nat) → (interface : Nat) → Int × σ
  libusbClaimInterface : σ → (hDev : Option Nat) → (interface : Nat) → Int × σ
  libusbReleaseInterface : σ → (hDev : Option Nat) → (interface : Nat) → Int × σ

structure UsbHost (σ : Type) extends World σ, Libusb σ

/-- What the driver takes from libusb and has to give back. -/
inductive UsbResource where
  | context
  | deviceList (ppstDevs : Nat)
  | handle (hDev : Nat)
deriving DecidableEq, Repr

/-- The driver, and the ledger of its libusb calls. -/
structure UsbKse (σ : Type) where
  kse : Kse σ
  calls : List (Entry UsbResource)

variable {σ : Type} (W : UsbHost σ) (fuel : Nat)

namespace UsbKse

/-- A libusb call that leaves the world `world` and makes the entries `es`. -/
def called (x : UsbKse σ) (world : σ) (es : List (Entry UsbResource)) : UsbKse σ :=
  { kse := { x.kse with world }, calls := x.calls ++ es }

def libusbExit (x : UsbKse σ) : UsbKse σ :=
  x.called (W.libusbExit x.kse.world) [.released .context]

/-- `_usbClose` -/
def usbClose (x : UsbKse σ) : UsbKse σ :=
  let (_, world) := W.libusbReleaseInterface x.kse.world x.kse.ghDev 0
  let x := x.called world []
  let x := x.called (W.libusbClose x.kse.world x.kse.ghDev)
    (x.kse.ghDev.toList.map fun hDev => .released (.handle hDev))
  let x := x.libusbExit W
  { x with kse := { x.kse with ghDev := none, gusKsePower := .off } }

/-- How the loop over the device list ends: with `break`, with a return, or with `i == sCount`. -/
inductive Search where
  | opened (hDev : Option Nat)
  | notOpened
  | notFound

/-- `for (i = 0; i < sCount; i++)` over the devices that are left. -/
def findDevice : List Nat → UsbKse σ → Search × UsbKse σ
  | [], x => (.notFound, x)
  | dev :: devs, x =>
    let (iRv, stDesc, world) := W.libusbGetDeviceDescriptor x.kse.world dev
    let x := x.called world []
    if iRv < 0 then findDevice devs x
    else if stDesc.idVendor ≠ VENDOR_ID ∨ stDesc.idProduct ≠ PRODUCT_ID then findDevice devs x
    else
      let (r, world) := W.libusbOpen x.kse.world dev
      if r.val.1 = LIBUSB_SUCCESS then
        (.opened r.val.2, x.called world (r.val.2.toList.map fun hDev => .acquired (.handle hDev)))
      else (.notOpened, x.called world [])

end UsbKse

/-- The pointers that `_ksePowerOn` stores what the device reports through. -/
structure PowerOnOutputs where
  pbVer : Nat
  pbLifeCycle : Nat
  pbSystemTitle : Nat
  pbPinType : Nat
  pbMaxPinRetryCount : Nat
  pusMaxKcmvpKeyCount : Nat
  pusMaxCertKeyCount : Nat
  pusMaxIoDataSize : Nat
  pusInfoFileSize : Nat

/-- `if (pb != NULL_PTR) _cpy(pb, gabTxRxData + offset, n);` -/
def Kse.giveBytes (pb offset n : Nat) (x : Kse σ) : Kse σ :=
  if pb ≠ NULL_PTR then x.copyOut pb offset n else x

/-- `if (pus != NULL_PTR) *pus = …;` with the word at `offset`. -/
def Kse.giveWord (pus offset : Nat) (x : Kse σ) : Kse σ :=
  if pus ≠ NULL_PTR then x.store16 pus (x.field offset) else x

def PowerOnOutputs.give (o : PowerOnOutputs) (x : Kse σ) : Kse σ :=
  let x := x.giveBytes o.pbVer 9 3
  let x := x.giveBytes o.pbLifeCycle 12 1
  let x := x.giveBytes o.pbSystemTitle 13 8
  let x := x.giveBytes o.pbPinType 21 1
  let x := x.giveBytes o.pbMaxPinRetryCount 22 1
  let x := x.giveWord o.pusMaxKcmvpKeyCount 23
  let x := x.giveWord o.pusMaxCertKeyCount 25
  let x := x.giveWord o.pusMaxIoDataSize 27
  x.giveWord o.pusInfoFileSize 29

/-- `KSE Power On`, the first command, and what is made of its response. -/
def sendPowerOn (o : PowerOnOutputs) (x : UsbKse σ) : Option Int × UsbKse σ :=
  let (sRv, usLen, kse) := transceive W.toWorld fuel 2 (x.kse.store 0 [0x00, 0x00])
  let x := { x with kse }
  if sRv = none then (none, x)
  else if sRv ≠ some KSE_SUCCESS then (sRv, x.usbClose W)
  else
    let sRv := status x.kse.gabTxRxData
    if sRv = KSE_SUCCESS ∧ usLen ≠ 31 ∨ sRv ≠ KSE_SUCCESS ∧ usLen ≠ 2 then
      (some KSE_FAIL_UNEXPECTED_RESP_LEN, x.usbClose W)
    else if sRv ≠ KSE_SUCCESS then (some sRv, x.usbClose W)
    else (some sRv, { x with kse := { o.give x.kse with gusKsePower := .on } })

/-- `_ksePowerOn` after `ghDev = hDev`. -/
def powerOnDevice (o : PowerOnOutputs) (x : UsbKse σ) : Option Int × UsbKse σ :=
  let (active, world) := W.libusbKernelDriverActive x.kse.world x.kse.ghDev INTERFACE_NUMBER
  let x := x.called world []
  let (iRv, x) :=
    if active = 1 then
      let (iRv, world) := W.libusbDetachKernelDriver x.kse.world x.kse.ghDev INTERFACE_NUMBER
      (iRv, x.called world [])
    else (0, x)
  if iRv < 0 then (some KSE_FAIL_USB_DETACH_KERNEL_DRIVER, x.usbClose W)
  else
    let (iRv, world) := W.libusbClaimInterface x.kse.world x.kse.ghDev INTERFACE_NUMBER
    let x := x.called world []
    if iRv < 0 then (some KSE_FAIL_USB_CLAIM_INTERFACE, x.usbClose W)
    else sendPowerOn W fuel o x

/-- `_ksePowerOn` with the device list. -/
def powerOnList (o : PowerOnOutputs) (list : DeviceList) (x : UsbKse σ) :
    Option Int × UsbKse σ :=
  let sCount := int16 list.count
  if sCount < 0 then (some KSE_FAIL_USB_NO_DEVICES, x.libusbExit W)
  else
    match x.findDevice W (list.devs.take sCount.toNat) with
    | (.notOpened, x) => (some KSE_FAIL_USB_DEVICE_OPEN, x.libusbExit W)
    | (.notFound, x) => (some KSE_FAIL_NOT_FOUND, x.libusbExit W)
    | (.opened hDev, x) =>
      let x := x.called (W.libusbFreeDeviceList x.kse.world list.ppstDevs)
        [.released (.deviceList list.ppstDevs)]
      powerOnDevice W fuel o { x with kse := { x.kse with ghDev := hDev } }

def ksePowerOn (o : PowerOnOutputs) (x : UsbKse σ) : Option Int × UsbKse σ :=
  if x.kse.gusKsePower ≠ .off then (some KSE_FAIL_ALREADY_POWERED_ON, x)
  else
    let (iRv, world) := W.libusbInit x.kse.world
    if iRv < 0 then (some KSE_FAIL_USB_INIT, x.called world [])
    else
      let x := x.called world [.acquired .context]
      let (list, world) := W.libusbGetDeviceList x.kse.world
      powerOnList W fuel o list (x.called world (match list with
        | .error _ => []
        | .devices ppstDevs _ => [.acquired (.deviceList ppstDevs)]))

def ksePowerOff (x : UsbKse σ) : Option Int × UsbKse σ :=
  if x.kse.gusKsePower ≠ .on then (some KSE_FAIL_NOT_POWERED_ON, x)
  else
    let (sRv, usLen, kse) := transceive W.toWorld fuel 2 (x.kse.store 0 [0x00, 0x01])
    let x := { x with kse }
    if sRv = none then (none, x)
    else if sRv ≠ some KSE_SUCCESS then (sRv, x.usbClose W)
    else if usLen ≠ 2 then (some KSE_FAIL_UNEXPECTED_RESP_LEN, x.usbClose W)
    else (some (status x.kse.gabTxRxData), x.usbClose W)

/-! ### The interface of the driver -/

/-- A call of the interface of `kse_ubuntu.h`, with its arguments. -/
inductive KseCall where
  | powerOn (o : PowerOnOutputs)
  | powerOff
  | command (c : Command)
  | tlsOpen (socketDesc : Int) (bMode bEndpoint : UInt8)
      (usCertIndex usCaCertIndex usRfu : Nat) (bSaveOption : UInt8)
  | tlsClose (socketDesc : Int)
  | tlsClientHandshake (socketDesc : Int) (bType : UInt8)
  | tlsServerHandshake (socketDesc : Int)
  | tlsRead (pbInAppData : Nat) (psInAppDataLen : Option Int) (socketDesc : Int)
  | tlsWrite (socketDesc : Int) (pbOutAppData : Nat) (sOutAppDataLen : Int)
  | tlsCloseNotify (socketDesc : Int)

/-- A function of the driver that takes nothing from libusb. -/
def UsbKse.onKse (x : UsbKse σ) (r : Option Int × Kse σ) : Option Int × UsbKse σ :=
  (r.1, { x with kse := r.2 })

def KseCall.run : KseCall → UsbKse σ → Option Int × UsbKse σ
  | .powerOn o, x => ksePowerOn W fuel o x
  | .powerOff, x => ksePowerOff W fuel x
  | .command c, x => x.onKse (c.run W.toWorld fuel x.kse)
  | .tlsOpen socketDesc bMode bEndpoint usCertIndex usCaCertIndex usRfu bSaveOption, x =>
    x.onKse (ksetlsOpen W.toWorld fuel socketDesc bMode bEndpoint usCertIndex usCaCertIndex usRfu
      bSaveOption x.kse)
  | .tlsClose socketDesc, x => x.onKse (ksetlsClose W.toWorld fuel socketDesc x.kse)
  | .tlsClientHandshake socketDesc bType, x =>
    x.onKse (ksetlsTlsClientHandshake W.toWorld fuel socketDesc bType x.kse)
  | .tlsServerHandshake socketDesc, x =>
    x.onKse (ksetlsTlsServerHandshake W.toWorld fuel socketDesc x.kse)
  | .tlsRead pbInAppData psInAppDataLen socketDesc, x =>
    let (sRv, _, kse) :=
      ksetlsTlsRead W.toWorld fuel pbInAppData psInAppDataLen socketDesc x.kse
    x.onKse (sRv, kse)
  | .tlsWrite socketDesc pbOutAppData sOutAppDataLen, x =>
    x.onKse (ksetlsTlsWrite W.toWorld fuel socketDesc pbOutAppData sOutAppDataLen x.kse)
  | .tlsCloseNotify socketDesc, x =>
    x.onKse (ksetlsTlsCloseNotify W.toWorld fuel socketDesc x.kse)

/-- A call, with the memory of the application and the world as they are when it is made. -/
structure CallAt (σ : Type) where
  app : Bytes
  world : σ
  call : KseCall

def CallAt.state (c : CallAt σ) (x : UsbKse σ) : UsbKse σ :=
  { x with kse := { x.kse with app := c.app, world := c.world } }

/-- The state after a call that returns. -/
def CallAt.step (c : CallAt σ) (x : UsbKse σ) : Option (UsbKse σ) :=
  let (sRv, y) := c.call.run W fuel (c.state x)
  if sRv = none then none else some y

/-- The globals of the program before its first call. -/
def UsbKse.initial (app : Bytes) (world : σ) : UsbKse σ :=
  ⟨⟨none, .off, fun _ => 0, 0, 0, app, world, []⟩, []⟩

/-! ### What the functions do -/

namespace UsbKse

@[simp] theorem called_ghDev (x : UsbKse σ) (world : σ) (es : List (Entry UsbResource)) :
    (x.called world es).kse.ghDev = x.kse.ghDev := rfl

@[simp] theorem called_world (x : UsbKse σ) (world : σ) (es : List (Entry UsbResource)) :
    (x.called world es).kse.world = world := rfl

@[simp] theorem called_calls (x : UsbKse σ) (world : σ) (es : List (Entry UsbResource)) :
    (x.called world es).calls = x.calls ++ es := rfl

@[simp] theorem called_called (x : UsbKse σ) (world world' : σ)
    (es es' : List (Entry UsbResource)) :
    (x.called world es).called world' es' = x.called world' (es ++ es') := by
  simp [called, List.append_assoc]

theorem called_kept (x : UsbKse σ) (world : σ) (es : List (Entry UsbResource)) :
    Kept x.kse (x.called world es).kse :=
  .of_eq rfl rfl ⟨[], by simp [called]⟩

theorem usbClose_ghDev (x : UsbKse σ) : (x.usbClose W).kse.ghDev = none := rfl

theorem usbClose_power (x : UsbKse σ) : (x.usbClose W).kse.gusKsePower = .off := rfl

theorem usbClose_calls (x : UsbKse σ) : (x.usbClose W).calls = x.calls ++
    (x.kse.ghDev.toList.map fun hDev => .released (.handle hDev)) ++ [.released .context] := by
  simp [usbClose, libusbExit, List.append_assoc]

end UsbKse

theorem Kse.giveBytes_kept (pb offset n : Nat) (x : Kse σ) : Kept x (x.giveBytes pb offset n) := by
  unfold Kse.giveBytes
  split
  · exact .of_eq rfl rfl ⟨[.copied offset n], rfl, by simp⟩
  · exact .refl x

theorem Kse.giveWord_kept (pus offset : Nat) (x : Kse σ) : Kept x (x.giveWord pus offset) := by
  unfold Kse.giveWord
  split
  · exact .of_eq rfl rfl ⟨[], by simp [Kse.store16]⟩
  · exact .refl x

theorem PowerOnOutputs.give_kept (o : PowerOnOutputs) (x : Kse σ) : Kept x (o.give x) := by
  have hbytes := (Kse.giveBytes_kept o.pbVer 9 3 x).trans <|
    (Kse.giveBytes_kept o.pbLifeCycle 12 1 _).trans <|
    (Kse.giveBytes_kept o.pbSystemTitle 13 8 _).trans <|
    (Kse.giveBytes_kept o.pbPinType 21 1 _).trans <|
    Kse.giveBytes_kept o.pbMaxPinRetryCount 22 1 _
  exact hbytes.trans <| (Kse.giveWord_kept o.pusMaxKcmvpKeyCount 23 _).trans <|
    (Kse.giveWord_kept o.pusMaxCertKeyCount 25 _).trans <|
    (Kse.giveWord_kept o.pusMaxIoDataSize 27 _).trans <|
    Kse.giveWord_kept o.pusInfoFileSize 29 _

/-- How a function that holds the handle ends: it does not return, it closes, or the driver is
    powered on. -/
inductive PowerEnd (x : UsbKse σ) : Option Int × UsbKse σ → Prop where
  | running (y : UsbKse σ) : Kept x.kse y.kse → y.calls = x.calls → PowerEnd x (none, y)
  | closed (code : Int) (y : UsbKse σ) : Kept x.kse y.kse → y.calls = x.calls →
      PowerEnd x (some code, y.usbClose W)
  | on (code : Int) (y : UsbKse σ) : Kept x.kse y.kse → y.calls = x.calls →
      PowerEnd x (some code, { y with kse := { y.kse with gusKsePower := .on } })

theorem PowerEnd.of_called {x : UsbKse σ} {world : σ} {r : Option Int × UsbKse σ}
    (h : PowerEnd W (x.called world []) r) : PowerEnd W x r := by
  have hkept := x.called_kept world []
  have hcalls : (x.called world []).calls = x.calls := by simp
  cases h with
  | running y hy hc => exact .running y (hkept.trans hy) (hc.trans hcalls)
  | closed code y hy hc => exact .closed code y (hkept.trans hy) (hc.trans hcalls)
  | on code y hy hc => exact .on code y (hkept.trans hy) (hc.trans hcalls)

theorem transceive_kept (request : List UInt8) (x : Kse σ) :
    Kept x (transceive W.toWorld fuel request.length (x.store 0 request)).2.2 := by
  obtain ⟨e, w, hof⟩ := exists_exchange W.toWorld fuel request.length (x.store 0 request)
  have hstore : Kept x (x.store 0 request) := .of_eq rfl rfl ⟨[], by simp⟩
  rw [hof.call]
  exact hstore.trans hof.kept

theorem sendPowerOn_end (o : PowerOnOutputs) (x : UsbKse σ) :
    PowerEnd W x (sendPowerOn W fuel o x) := by
  have hkept := transceive_kept W fuel [0x00, 0x00] x.kse
  rcases hcall : transceive W.toWorld fuel 2 (x.kse.store 0 [0x00, 0x00]) with ⟨sRv, usLen, kse⟩
  simp only [List.length_cons, List.length_nil, hcall] at hkept
  simp only [sendPowerOn, hcall]
  cases sRv with
  | none => exact .running { x with kse } hkept rfl
  | some code =>
    simp only [reduceCtorEq, if_false]
    repeat' split
    · exact .closed _ { x with kse } hkept rfl
    · exact .closed _ { x with kse } hkept rfl
    · exact .closed _ { x with kse } hkept rfl
    · exact .on _ { x with kse := o.give kse } (hkept.trans (o.give_kept kse)) rfl

theorem powerOnDevice_end (o : PowerOnOutputs) (x : UsbKse σ) :
    PowerEnd W x (powerOnDevice W fuel o x) := by
  simp only [powerOnDevice]
  split
  · rename_i hactive
    split
    · exact .of_called W (.of_called W (.closed _ _ (.refl _) rfl))
    · split
      · exact .of_called W (.of_called W (.of_called W (.closed _ _ (.refl _) rfl)))
      · exact .of_called W (.of_called W (.of_called W (sendPowerOn_end W fuel o _)))
  · simp only [Int.lt_irrefl, if_false]
    split
    · exact .of_called W (.of_called W (.closed _ _ (.refl _) rfl))
    · exact .of_called W (.of_called W (sendPowerOn_end W fuel o _))

theorem ksePowerOff_end {x : UsbKse σ} (hon : x.kse.gusKsePower = .on) :
    PowerEnd W x (ksePowerOff W fuel x) := by
  have hkept := transceive_kept W fuel [0x00, 0x01] x.kse
  rcases hcall : transceive W.toWorld fuel 2 (x.kse.store 0 [0x00, 0x01]) with ⟨sRv, usLen, kse⟩
  simp only [List.length_cons, List.length_nil, hcall] at hkept
  simp only [ksePowerOff, if_neg (not_not.mpr hon), hcall]
  cases sRv with
  | none => exact .running { x with kse } hkept rfl
  | some code =>
    simp only [reduceCtorEq, if_false]
    repeat' split
    · exact .closed _ { x with kse } hkept rfl
    · exact .closed _ { x with kse } hkept rfl
    · exact .closed _ { x with kse } hkept rfl

/-- The first device of a list that describes itself as the DIM can be opened. -/
def DeviceOpens : σ → List Nat → Prop
  | _, [] => False
  | s, dev :: devs =>
    let (iRv, stDesc, s) := W.libusbGetDeviceDescriptor s dev
    if 0 ≤ iRv ∧ stDesc.idVendor = VENDOR_ID ∧ stDesc.idProduct = PRODUCT_ID then
      (W.libusbOpen s dev).1.val.1 = LIBUSB_SUCCESS
    else DeviceOpens s devs

/-- The length of a list of devices is an `int16_t` that is not negative, and the DIM is in it
    and can be opened. -/
def DeviceList.Found (s : σ) (list : DeviceList) : Prop :=
  0 ≤ int16 list.count ∧ DeviceOpens W s (list.devs.take (int16 list.count).toNat)

/-- If libusb starts and gives a list of devices, the DIM is found in it. -/
def DeviceFound (s : σ) : Prop :=
  0 ≤ (W.libusbInit s).1 →
    match W.libusbGetDeviceList (W.libusbInit s).2 with
    | (.error _, _) => True
    | (.devices ppstDevs devs, s) => (DeviceList.devices ppstDevs devs).Found W s

/-- The loop opens a device exactly when the first that matches can be opened. -/
theorem findDevice_cases (devs : List Nat) (x : UsbKse σ) :
    ∃ world,
      (DeviceOpens W x.kse.world devs ∧ ∃ hDev, x.findDevice W devs =
        (.opened (some hDev), x.called world [.acquired (.handle hDev)])) ∨
      (¬DeviceOpens W x.kse.world devs ∧
        (x.findDevice W devs = (.notOpened, x.called world []) ∨
          x.findDevice W devs = (.notFound, x.called world []))) := by
  induction devs generalizing x with
  | nil =>
    refine ⟨x.kse.world, Or.inr ⟨not_false, Or.inr ?_⟩⟩
    simp [UsbKse.findDevice, UsbKse.called]
  | cons dev devs ih =>
    rcases hdesc : W.libusbGetDeviceDescriptor x.kse.world dev with ⟨iRv, stDesc, world⟩
    rcases hopen : W.libusbOpen world dev with ⟨r, world'⟩
    have hrest := ih (x.called world [])
    simp only [UsbKse.called_world, UsbKse.called_called, List.append_nil, List.nil_append] at hrest
    simp only [UsbKse.findDevice, DeviceOpens, hdesc, hopen, UsbKse.called_world]
    by_cases hfail : iRv < 0
    · rw [if_pos hfail, if_neg (by omega)]
      exact hrest
    · rw [if_neg hfail]
      by_cases hother : stDesc.idVendor ≠ VENDOR_ID ∨ stDesc.idProduct ≠ PRODUCT_ID
      · rw [if_pos hother, if_neg (by tauto)]
        exact hrest
      · rw [if_neg hother, if_pos ⟨by omega, by tauto⟩]
        refine ⟨world', ?_⟩
        by_cases hok : r.val.1 = LIBUSB_SUCCESS
        · obtain ⟨hDev, hhandle⟩ := Option.ne_none_iff_exists'.mp (r.property hok)
          refine Or.inl ⟨hok, hDev, ?_⟩
          simp [hok, hhandle]
        · refine Or.inr ⟨hok, Or.inl ?_⟩
          simp [hok]

theorem powerOnList_cases (o : PowerOnOutputs) (list : DeviceList) (x : UsbKse σ) :
    (list.Found W x.kse.world ∧ ∃ world hDev y,
        y = x.called world [.acquired (.handle hDev), .released (.deviceList list.ppstDevs)] ∧
        powerOnList W fuel o list x =
          powerOnDevice W fuel o { y with kse := { y.kse with ghDev := some hDev } }) ∨
    (¬list.Found W x.kse.world ∧ ∃ code world,
      powerOnList W fuel o list x = (some code, x.called world [.released .context])) := by
  unfold powerOnList DeviceList.Found
  generalize int16 list.count = sCount
  by_cases hcount : sCount < 0
  · refine Or.inr ⟨by omega, KSE_FAIL_USB_NO_DEVICES, W.libusbExit x.kse.world, ?_⟩
    rw [if_pos hcount]
    rfl
  · have hnonneg : 0 ≤ sCount := by omega
    simp only [if_neg hcount, hnonneg, true_and]
    obtain ⟨world, ⟨hopens, hDev, hfind⟩ | ⟨hopens, hfind⟩⟩ :=
      findDevice_cases W (list.devs.take sCount.toNat) x
    · refine Or.inl ⟨hopens, W.libusbFreeDeviceList world list.ppstDevs, hDev, _, rfl, ?_⟩
      simp only [hfind, UsbKse.called_world, UsbKse.called_called]
      rfl
    · refine Or.inr ⟨hopens, ?_⟩
      rcases hfind with hfind | hfind
      · rw [hfind]
        exact ⟨KSE_FAIL_USB_DEVICE_OPEN, W.libusbExit world, by simp [UsbKse.libusbExit]⟩
      · rw [hfind]
        exact ⟨KSE_FAIL_NOT_FOUND, W.libusbExit world, by simp [UsbKse.libusbExit]⟩

theorem DeviceList.not_found_error (s : σ) (code : { code : Int // -99 ≤ code ∧ code < 0 }) :
    ¬(DeviceList.error code).Found W s := by
  obtain ⟨code, hlo, hhi⟩ := code
  have hcode : int16 code = code := int16_of_mem (by omega) (by omega)
  rintro ⟨hnonneg, -⟩
  rw [DeviceList.count, hcode] at hnonneg
  exact absurd hhi (by omega)

/-- `_ksePowerOn` gives back what it took, or goes on with an open device, exactly when the
    device is found if it comes to it; otherwise it keeps the list of devices. -/
theorem ksePowerOn_cases (o : PowerOnOutputs) {x : UsbKse σ} (hoff : x.kse.gusKsePower = .off) :
    (DeviceFound W x.kse.world ∧
      ((∃ code world, ksePowerOn W fuel o x = (some code, x.called world [])) ∨
      (∃ code world, ksePowerOn W fuel o x =
        (some code, x.called world [.acquired .context, .released .context])) ∨
      ∃ world ppstDevs hDev y, y = x.called world [.acquired .context,
          .acquired (.deviceList ppstDevs), .acquired (.handle hDev),
          .released (.deviceList ppstDevs)] ∧
        ksePowerOn W fuel o x =
          powerOnDevice W fuel o { y with kse := { y.kse with ghDev := some hDev } })) ∨
    (¬DeviceFound W x.kse.world ∧ ∃ code world ppstDevs, ksePowerOn W fuel o x =
      (some code, x.called world [.acquired .context, .acquired (.deviceList ppstDevs),
        .released .context])) := by
  rcases hinit : W.libusbInit x.kse.world with ⟨iRv, world⟩
  rcases hlist : W.libusbGetDeviceList world with ⟨list, world'⟩
  simp only [ksePowerOn, DeviceFound, hinit, hlist, if_neg (not_not.mpr hoff),
    UsbKse.called_world, UsbKse.called_called]
  by_cases hfail : iRv < 0
  · refine Or.inl ⟨by omega, Or.inl ⟨KSE_FAIL_USB_INIT, world, ?_⟩⟩
    rw [if_pos hfail]
  · have hstarted : 0 ≤ iRv := by omega
    simp only [if_neg hfail, hstarted, forall_const]
    cases list with
    | error code =>
      refine Or.inl ⟨trivial, Or.inr (Or.inl ?_)⟩
      rcases powerOnList_cases W fuel o (.error code) (x.called world'
          ([.acquired .context] ++ [])) with ⟨hfound, -⟩ | ⟨-, code', world'', hcall⟩
      · exact absurd hfound (DeviceList.not_found_error W _ code)
      · rw [UsbKse.called_called] at hcall
        exact ⟨code', world'', hcall⟩
    | devices ppstDevs devs =>
      rcases powerOnList_cases W fuel o (.devices ppstDevs devs) (x.called world'
          ([.acquired .context] ++ [.acquired (.deviceList ppstDevs)])) with
        ⟨hfound, world'', hDev, y, hy, hcall⟩ | ⟨hfound, code, world'', hcall⟩
      · rw [UsbKse.called_called] at hy
        exact Or.inl ⟨hfound, Or.inr (Or.inr ⟨world'', ppstDevs, hDev, y, hy, hcall⟩)⟩
      · rw [UsbKse.called_called] at hcall
        exact Or.inr ⟨hfound, code, world'', ppstDevs, hcall⟩

end MavlinkDim
