import MavlinkDim.KeySizes
import MavlinkDim.Power
import MavlinkDim.RequestBounds

/-!
# The requests of every call

`requests_fit` goes through the calls outside TLS and `_ksetlsTlsWrite`: which
requests each of them builds, and that these fit the buffer.
-/

namespace MavlinkDim

open ByteMemory

variable {σ : Type} {W : World σ} {fuel : Nat}

/-! ### Commands -/

/-- A header at constant indices and a fixed number of bytes of the caller behind it. -/
theorem packed_arg {header : List UInt8} {offset usSendLen n : Nat}
    (hoffset : offset = header.length) (hlen : usSendLen = header.length + n) (x : Kse σ)
    (pb : Nat) :
    Built.Packed ⟨pokes 0 header ++ [⟨offset, x.arg pb n⟩], usSendLen⟩ (header ++ x.arg pb n) :=
  Built.packed_copy hoffset (hlen.trans (by rw [Kse.arg, length_slice]))

theorem length_header_arg (header : List UInt8) (x : Kse σ) (pb n : Nat) :
    (header ++ x.arg pb n).length = header.length + n := by
  rw [List.length_append, Kse.arg, length_slice]

variable (W fuel) in
theorem statusCommand_copy_fit {header : List UInt8} {offset usSendLen pb n : Nat}
    (hoffset : offset = header.length) (hlen : usSendLen = header.length + n)
    (hmax : header.length + n ≤ MAX_IO_BUFFER_SIZE) (x : Kse σ) :
    (Requests.one ⟨pokes 0 header ++ [⟨offset, x.arg pb n⟩], usSendLen⟩).Fit W fuel x
      (statusCommand W fuel (header ++ x.arg pb n) x) :=
  statusCommand_fit W fuel (packed_arg hoffset hlen x pb) x
    ((length_header_arg header x pb n).trans_le hmax)

/-- The requests of each command, as its function builds them. -/
def Command.requests (x : Kse σ) : Command → Requests
  | .readInfoFile _ usOffset usSize =>
    .one ⟨pokes 0 ([0x00, 0x04] ++ bytes16 usOffset ++ bytes16 usSize), 6⟩
  | .writeInfoFile pbData usSize usOffset =>
    .one ⟨pokes 0 ([0x00, 0x05] ++ bytes16 usOffset ++ bytes16 usSize) ++
      [⟨6, x.arg pbData usSize⟩], uint16 (usSize + 6)⟩
  | .generateKey bKeyType usKeyIndex _ => .one (kcmvpGenerateKeyRequest bKeyType usKeyIndex)
  | .putKey bKeyType usKeyIndex pbKey usKeySize =>
    .one (kcmvpPutKeyRequest bKeyType usKeyIndex pbKey usKeySize x)
  | .getKey _ _ bKeyType usKeyIndex =>
    .one ⟨pokes 0 ([0x02, 0x02, bKeyType] ++ bytes16 usKeyIndex), 5⟩
  | .eraseKey bKeyType usKeyIndex =>
    .one ⟨pokes 0 ([0x02, 0x03, bKeyType] ++ bytes16 usKeyIndex), 5⟩
  | .drbg _ usRandomSize => .one ⟨pokes 0 ([0x02, 0x10] ++ bytes16 usRandomSize), 4⟩
  | .aesEcb _ _ usInputSize bKeyType usKeyIndex bEnDe =>
    .chunks usInputSize fun _ => kcmvpEcbRequest bKeyType usKeyIndex bEnDe KCMVP_AES
  | .aesCbc _ _ usInputSize bKeyType usKeyIndex _ bEnDe =>
    .chunks usInputSize (kcmvpCbcRequest bKeyType usKeyIndex bEnDe KCMVP_AES)
  | .aesCtr _ _ usInputSize bKeyType usKeyIndex _ =>
    .chunks usInputSize (kcmvpCtrRequest bKeyType usKeyIndex KCMVP_AES)
  | .aesGcm _ pbInput usInputSize bKeyType usKeyIndex pbIv usIvSize pbAuth usAuthSize pbTag
      usTagSize bEnDe =>
    .one (kcmvpGcmRequest bKeyType usKeyIndex bEnDe KCMVP_AES pbInput usInputSize pbIv usIvSize
      pbAuth usAuthSize pbTag usTagSize x)
  | .ariaEcb _ _ usInputSize bKeyType usKeyIndex bEnDe =>
    .chunks usInputSize fun _ => kcmvpEcbRequest bKeyType usKeyIndex bEnDe KCMVP_ARIA
  | .ariaCbc _ _ usInputSize bKeyType usKeyIndex _ bEnDe =>
    .chunks usInputSize (kcmvpCbcRequest bKeyType usKeyIndex bEnDe KCMVP_ARIA)
  | .ariaCtr _ _ usInputSize bKeyType usKeyIndex _ =>
    .chunks usInputSize (kcmvpCtrRequest bKeyType usKeyIndex KCMVP_ARIA)
  | .ariaGcm _ pbInput usInputSize bKeyType usKeyIndex pbIv usIvSize pbAuth usAuthSize pbTag
      usTagSize bEnDe =>
    .one (kcmvpGcmRequest bKeyType usKeyIndex bEnDe KCMVP_ARIA pbInput usInputSize pbIv usIvSize
      pbAuth usAuthSize pbTag usTagSize x)
  | .sha256 pbHash pbMessage usMessageSize =>
    .parts (x.arg pbMessage usMessageSize)
      (kcmvpHashDsaRequest 0 KCMVP_SHA (x.arg pbHash 32) (x.arg NULL_PTR 32))
  | .hmacSha256 pbHmac pbMessage usMessageSize usKeyIndex =>
    .parts (x.arg pbMessage usMessageSize)
      (kcmvpHashDsaRequest usKeyIndex KCMVP_HMAC_GEN (x.arg pbHmac 32) (x.arg NULL_PTR 32))
  | .hmacSha256Verify pbMessage usMessageSize pbHmac usKeyIndex =>
    .parts (x.arg pbMessage usMessageSize)
      (kcmvpHashDsaRequest usKeyIndex KCMVP_HMAC_VERI (x.arg pbHmac 32) (x.arg NULL_PTR 32))
  | .ecdsaSign pbR pbS pbMessage usMessageSize usKeyIndex =>
    .parts (x.arg pbMessage usMessageSize)
      (kcmvpHashDsaRequest usKeyIndex KCMVP_ECDSA_SIGN (x.arg pbR 32) (x.arg pbS 32))
  | .ecdsaVerify pbMessage usMessageSize pbR pbS usKeyIndex =>
    .parts (x.arg pbMessage usMessageSize)
      (kcmvpHashDsaRequest usKeyIndex KCMVP_ECDSA_VERI (x.arg pbR 32) (x.arg pbS 32))
  | .ecdhExchKey _ pbPubKeytoken usKeyIndex =>
    .one ⟨pokes 0 ([0x02, 0x94] ++ bytes16 usKeyIndex) ++ [⟨4, x.arg pbPubKeytoken 64⟩], 68⟩
  | .getClibState _ => .one ⟨pokes 0 [0x02, 0x00], 2⟩
  | .generateKeypair bKeyType usCertIndex =>
    .one ⟨pokes 0 ([0x04, 0x00, bKeyType] ++ bytes16 usCertIndex), 5⟩
  | .putPriKey bKeyType pbPriKey usCertIndex =>
    .one ⟨pokes 0 ([0x04, 0x01, bKeyType] ++ bytes16 usCertIndex) ++ [⟨5, x.arg pbPriKey 32⟩], 37⟩
  | .putPubKey bKeyType pbPubKey usCertIndex =>
    .one ⟨pokes 0 ([0x04, 0x03, bKeyType] ++ bytes16 usCertIndex) ++ [⟨5, x.arg pbPubKey 64⟩], 69⟩
  | .getPriKey _ _ usCertIndex => .one ⟨pokes 0 ([0x04, 0x04] ++ bytes16 usCertIndex), 4⟩
  | .getPriKeyState _ usCertIndex => .one ⟨pokes 0 ([0x04, 0x05] ++ bytes16 usCertIndex), 4⟩
  | .getPubKey _ _ usCertIndex => .one ⟨pokes 0 ([0x04, 0x06] ++ bytes16 usCertIndex), 4⟩
  | .getPubKeyCsr _ usCertIndex => .one ⟨pokes 0 ([0x04, 0x07] ++ bytes16 usCertIndex), 4⟩
  | .putCert pbCert usCertIndex =>
    .one ⟨pokes 0 ([0x04, 0x10] ++ bytes16 usCertIndex) ++ [⟨4, x.arg pbCert 500⟩], 504⟩
  | .putCertPubKey pbCert usCertIndex usCaCertIndex =>
    .one ⟨pokes 0 ([0x04, 0x11] ++ bytes16 usCertIndex ++ bytes16 usCaCertIndex) ++
      [⟨6, x.arg pbCert 500⟩], 506⟩
  | .getCert _ usCertIndex => .one ⟨pokes 0 ([0x04, 0x12] ++ bytes16 usCertIndex), 4⟩
  | .getCertField _ _ bFieldIndex usCertIndex =>
    .one ⟨pokes 0 ([0x04, 0x13] ++ bytes16 usCertIndex ++ [bFieldIndex]), 5⟩
  | .eraseCertKey bOpt usCertIndex =>
    .one ⟨pokes 0 ([0x04, 0x20] ++ bytes16 usCertIndex ++ [bOpt]), 5⟩

variable (W fuel) in
theorem Command.run_fit (c : Command) (x : Kse σ) :
    (c.requests x).Fit W fuel x (c.run W fuel x) := by
  cases c with
  | readInfoFile pb | drbg pb | getClibState pb | getPriKeyState pb | getPubKeyCsr pb
  | getCert pb =>
    exact checked_fit W fuel fun _ => dataCommand_fit W fuel (Built.packed_header _) x (by simp) _
      fun _ y => copyOut_aside y pb 2 _
  | getPriKey pbKeyState pb | getPubKey pbKeyState pb =>
    exact checked_fit W fuel fun _ => dataCommand_fit W fuel (Built.packed_header _) x (by simp) _
      fun _ y => (copyOut_aside y pbKeyState 2 1).trans (copyOut_aside _ pb 3 _)
  | getKey pb pusSize | getCertField pb pusSize =>
    exact checked_fit W fuel fun _ => dataCommand_fit W fuel (Built.packed_header _) x (by simp) _
      fun usLen y => takeSized_aside y pb pusSize usLen
  | eraseKey | generateKeypair | eraseCertKey =>
    exact checked_fit W fuel fun _ => statusCommand_fit W fuel (Built.packed_header _) x (by simp)
  | putPriKey | putPubKey | putCert | putCertPubKey =>
    simp only [Command.run, Command.requests, certPutPriKey, certPutPubKey, certPutCert,
      certPutCertPubKey]
    exact checked_fit W fuel fun _ => statusCommand_copy_fit W fuel rfl (by simp) (by simp) x
  | writeInfoFile pbData usSize usOffset =>
    apply checked_fit
    intro hright
    simp only [not_or, Nat.not_lt, MAX_IO_DATA_SIZE] at hright
    have hlen : uint16 (usSize + 6) = 6 + usSize := by
      simp only [uint16]
      omega
    refine statusCommand_copy_fit W fuel rfl hlen ?_ x
    simp
    omega
  | generateKey bKeyType usKeyIndex =>
    refine checked_fit W fuel fun _ => statusCommand_fit W fuel
      (kcmvpGenerateKeyRequest_packed bKeyType usKeyIndex) x ?_
    split <;> simp
  | putKey bKeyType usKeyIndex pbKey usKeySize =>
    apply checked_fit
    intro hright
    simp only [not_or, not_not, not_and, Nat.not_lt, ge_iff_le, Nat.not_le] at hright
    have hsize := accepted_keySize_le hright
    refine statusCommand_fit W fuel
      (kcmvpPutKeyRequest_packed bKeyType usKeyIndex pbKey hsize x) x ?_
    split <;> simp [Kse.arg] <;> omega
  | ecdhExchKey pbSesKey pbPubKeytoken usKeyIndex =>
    simp only [Command.run, Command.requests, kcmvpEcdhExchKey]
    refine checked_fit W fuel fun _ => dataCommand_fit W fuel
      (packed_arg rfl (by simp) x pbPubKeytoken) x ?_ _ fun _ y => copyOut_aside y pbSesKey 2 64
    rw [length_header_arg]
    simp
  | aesEcb | ariaEcb => exact kcmvpEcb_fit _ _ _ _ _ _ _ x
  | aesCbc | ariaCbc => exact kcmvpCbc_fit _ _ _ _ _ _ _ _ x
  | aesCtr | ariaCtr => exact kcmvpCtr_fit _ _ _ _ _ _ _ x
  | aesGcm | ariaGcm => exact kcmvpGcm_fit _ _ _ _ _ _ _ _ _ _ _ _ _ x
  | sha256 | hmacSha256 | hmacSha256Verify | ecdsaSign | ecdsaVerify =>
    exact kcmvpHashDsa_fit _ _ _ _ _ _ x

/-! ### Application data -/

theorem Requests.Fit.of_run {b : Built} {x y z : Kse σ} (hrun : BuildRun W fuel x [b] y)
    (hfits : b.Fits) (hrest : Aside y z) (sRv : Option Int) :
    (Requests.one b).Fit W fuel x (sRv, z) :=
  ⟨[b], hrun.aside hrest, Or.inr rfl, by simpa using hfits⟩

theorem Requests.Fit.of_aside {b : Built} {x y : Kse σ} (h : Aside x y) (sRv : Option Int) :
    (Requests.one b).Fit W fuel x (sRv, y) :=
  ⟨[], .of_aside h, Or.inl rfl, by simp⟩

theorem Requests.Fit.after {rs : Requests} {x y : Kse σ} {r : Option Int × Kse σ}
    (h : rs.Fit W fuel y r) (hxy : Aside x y) : rs.Fit W fuel x r := by
  obtain ⟨bs, hrun, hsent, hfits⟩ := h
  exact ⟨bs, (BuildRun.of_aside hxy).trans hrun, hsent, hfits⟩

def ksetlsTlsWriteRequest (socketDesc : Int) (pbOutAppData : Nat) (sOutAppDataLen : Int)
    (x : Kse σ) : Built :=
  ⟨pokes 0 (tlsHeader 0x21 socketDesc ++ bytes16 (uint16 sOutAppDataLen)) ++
    [⟨8, x.arg pbOutAppData sOutAppDataLen.toNat⟩], uint16 (sOutAppDataLen + 8)⟩

theorem sendRecord_aside (socketDesc : Int) (offset usRecordLen : Nat) (x : Kse σ) :
    Aside x (sendRecord W socketDesc offset usRecordLen x).2.2 := by
  obtain ⟨returned, sOutLen, w, hsend⟩ := sendRecord_eq W socketDesc offset usRecordLen x
  rw [hsend]
  refine ⟨rfl, _, rfl, ?_⟩
  split <;> rfl

variable (W fuel) in
theorem ksetlsTlsWrite_fit (socketDesc : Int) (pbOutAppData : Nat) (sOutAppDataLen : Int)
    (x : Kse σ) :
    (Requests.one (ksetlsTlsWriteRequest socketDesc pbOutAppData sOutAppDataLen x)).Fit W fuel x
      (ksetlsTlsWrite W fuel socketDesc pbOutAppData sOutAppDataLen x) := by
  unfold ksetlsTlsWrite
  split
  · exact .of_aside (.refl x) _
  · split
    · exact .of_aside (.refl x) _
    · next hright =>
      simp only [not_or, MAX_IO_DATA_SIZE, Int.not_le, Int.not_lt] at hright
      obtain ⟨-, -, hpos, hmax⟩ := hright
      have hlen : uint16 (sOutAppDataLen + 8) =
          (tlsHeader 0x21 socketDesc ++ bytes16 (uint16 sOutAppDataLen) ++
            x.arg pbOutAppData sOutAppDataLen.toNat).length := by
        rw [length_header_arg]
        simp only [uint16, List.length_append, length_tlsHeader, length_bytes16]
        omega
      have hpacked := packed_arg (rfl : 8 = (tlsHeader 0x21 socketDesc ++
        bytes16 (uint16 sOutAppDataLen)).length) (hlen.trans (length_header_arg _ _ _ _)) x
        pbOutAppData
      have hfits := hpacked.fits (by
        rw [length_header_arg]
        simp only [List.length_append, length_tlsHeader, length_bytes16, MAX_IO_BUFFER_SIZE,
          MAX_IO_DATA_SIZE, MAX_IO_CTRL_LEN]
        omega)
      obtain ⟨e, w, hof, hcases⟩ := writeRecord_cases W fuel socketDesc
        (uint16 (sOutAppDataLen + 8)) (x.store 0 (tlsHeader 0x21 socketDesc ++
          bytes16 (uint16 sOutAppDataLen) ++ x.arg pbOutAppData sOutAppDataLen.toNat))
      rw [hlen] at hof
      have hrun := hpacked.exchange hof
      rcases hcases with ⟨-, sRv, hr⟩ | ⟨-, returned, sOutLen, y, hsend, hr⟩
      · rw [hr]
        exact .of_run hrun hfits (.refl _) sRv
      · have haside := @sendRecord_aside σ W socketDesc 4 (e.field 2) ((x.store 0
          (tlsHeader 0x21 socketDesc ++ bytes16 (uint16 sOutAppDataLen) ++
            x.arg pbOutAppData sOutAppDataLen.toNat)).exchanged e w)
        rw [hsend] at haside
        rw [hr]
        refine .of_run hrun hfits (haside.trans ?_) _
        split
        · exact .refl y
        · exact .of_eq rfl rfl

/-! ### Power -/

section Power

variable (W : UsbHost σ) (fuel : Nat)

def ksePowerOnRequest : Built := ⟨pokes 0 [0x00, 0x00], 2⟩

def ksePowerOffRequest : Built := ⟨pokes 0 [0x00, 0x01], 2⟩

theorem giveBytes_aside (pb offset n : Nat) (x : Kse σ) : Aside x (x.giveBytes pb offset n) := by
  unfold Kse.giveBytes
  split
  · exact copyOut_aside x pb offset n
  · exact .refl x

theorem giveWord_aside (pus offset : Nat) (x : Kse σ) : Aside x (x.giveWord pus offset) := by
  unfold Kse.giveWord
  split
  · exact .of_eq rfl rfl
  · exact .refl x

theorem PowerOnOutputs.give_aside (o : PowerOnOutputs) (x : Kse σ) : Aside x (o.give x) := by
  have hbytes := (giveBytes_aside o.pbVer 9 3 x).trans <|
    (giveBytes_aside o.pbLifeCycle 12 1 _).trans <|
    (giveBytes_aside o.pbSystemTitle 13 8 _).trans <|
    (giveBytes_aside o.pbPinType 21 1 _).trans <|
    giveBytes_aside o.pbMaxPinRetryCount 22 1 _
  exact hbytes.trans <| (giveWord_aside o.pusMaxKcmvpKeyCount 23 _).trans <|
    (giveWord_aside o.pusMaxCertKeyCount 25 _).trans <|
    (giveWord_aside o.pusMaxIoDataSize 27 _).trans <|
    giveWord_aside o.pusInfoFileSize 29 _

theorem called_aside (x : UsbKse σ) (world : σ) (es : List (Ledger.Entry UsbResource)) :
    Aside x.kse (x.called world es).kse := .of_eq rfl rfl

theorem usbClose_aside (x : UsbKse σ) : Aside x.kse (x.usbClose W).kse := .of_eq rfl rfl

/-- A power command that may send the request `b`. -/
def PowerFit (b : Built) (x : UsbKse σ) (r : Option Int × UsbKse σ) : Prop :=
  (Requests.one b).Fit W.toWorld fuel x.kse (r.1, r.2.kse)

variable {W fuel}

theorem PowerFit.of_aside {b : Built} {x y : UsbKse σ} (h : Aside x.kse y.kse) (sRv : Option Int) :
    PowerFit W fuel b x (sRv, y) :=
  Requests.Fit.of_aside h sRv

/-- Nothing is sent. -/
theorem PowerFit.untouched {b : Built} {x y : UsbKse σ}
    (hgab : y.kse.gabTxRxData = x.kse.gabTxRxData) (htrace : y.kse.trace = x.kse.trace)
    (sRv : Option Int) : PowerFit W fuel b x (sRv, y) :=
  .of_aside (.of_eq hgab htrace) sRv

theorem PowerFit.of_run {b : Built} {x z : UsbKse σ} {y : Kse σ}
    (hrun : BuildRun W.toWorld fuel x.kse [b] y) (hfits : b.Fits) (hrest : Aside y z.kse)
    (sRv : Option Int) : PowerFit W fuel b x (sRv, z) :=
  Requests.Fit.of_run hrun hfits hrest sRv

theorem PowerFit.after {b : Built} {x y : UsbKse σ} {r : Option Int × UsbKse σ}
    (h : PowerFit W fuel b y r) (hxy : Aside x.kse y.kse) : PowerFit W fuel b x r :=
  Requests.Fit.after h hxy

variable (W fuel)

theorem sendPowerOn_fit (o : PowerOnOutputs) (x : UsbKse σ) :
    PowerFit W fuel ksePowerOnRequest x (sendPowerOn W fuel o x) := by
  have hpacked : ksePowerOnRequest.Packed [0x00, 0x00] := Built.packed_header _
  have hfits := hpacked.fits (by simp)
  have hrun := transceive_built W.toWorld fuel hpacked x.kse
  rcases hcall : transceive W.toWorld fuel 2 (x.kse.store 0 [0x00, 0x00]) with ⟨sRv, usLen, kse⟩
  simp only [List.length_cons, List.length_nil, hcall] at hrun
  simp only [sendPowerOn, hcall]
  have hclose := usbClose_aside W { x with kse }
  have hgive : Aside kse { o.give kse with gusKsePower := .on } :=
    (o.give_aside kse).trans (.of_eq rfl rfl)
  repeat' split
  · exact .of_run hrun hfits (.refl kse) _
  · exact .of_run hrun hfits hclose _
  · exact .of_run hrun hfits hclose _
  · exact .of_run hrun hfits hclose _
  · exact .of_run hrun hfits hgive _

theorem powerOnDevice_fit (o : PowerOnOutputs) (x : UsbKse σ) :
    PowerFit W fuel ksePowerOnRequest x (powerOnDevice W fuel o x) := by
  simp only [powerOnDevice]
  -- after the kernel driver is detached, or was not active
  suffices h : ∀ (r : Int × UsbKse σ), Aside x.kse r.2.kse →
      PowerFit W fuel ksePowerOnRequest x
        (if r.1 < 0 then (some KSE_FAIL_USB_DETACH_KERNEL_DRIVER, r.2.usbClose W)
         else
          if (W.libusbClaimInterface r.2.kse.world r.2.kse.ghDev INTERFACE_NUMBER).1 < 0 then
            (some KSE_FAIL_USB_CLAIM_INTERFACE,
              (r.2.called (W.libusbClaimInterface r.2.kse.world r.2.kse.ghDev INTERFACE_NUMBER).2
                []).usbClose W)
          else sendPowerOn W fuel o
            (r.2.called (W.libusbClaimInterface r.2.kse.world r.2.kse.ghDev INTERFACE_NUMBER).2
              [])) by
    have hactive := called_aside x
      (W.libusbKernelDriverActive x.kse.world x.kse.ghDev INTERFACE_NUMBER).2 []
    split
    · exact h (_, _) (hactive.trans (called_aside _ _ _))
    · exact h (_, _) hactive
  rintro ⟨iRv, y⟩ hy
  dsimp only at hy ⊢
  split
  · exact .of_aside (hy.trans (usbClose_aside W y)) _
  · have hclaim := hy.trans (called_aside y
      (W.libusbClaimInterface y.kse.world y.kse.ghDev INTERFACE_NUMBER).2 [])
    split
    · exact .of_aside (hclaim.trans (usbClose_aside W _)) _
    · exact (sendPowerOn_fit W fuel o _).after hclaim

theorem powerOnList_fit (o : PowerOnOutputs) (list : DeviceList) (x : UsbKse σ) :
    PowerFit W fuel ksePowerOnRequest x (powerOnList W fuel o list x) := by
  simp only [powerOnList]
  split
  · exact .untouched (by rfl) (by rfl) _
  · obtain ⟨world, ⟨-, hDev, hfind⟩ | ⟨-, hfind | hfind⟩⟩ :=
      findDevice_cases W (list.devs.take (int16 list.count).toNat) x
    · simp only [hfind]
      exact (powerOnDevice_fit W fuel o _).after (.of_eq (by rfl) (by rfl))
    · simp only [hfind]
      exact .untouched (by rfl) (by rfl) _
    · simp only [hfind]
      exact .untouched (by rfl) (by rfl) _

theorem ksePowerOn_fit (o : PowerOnOutputs) (x : UsbKse σ) :
    PowerFit W fuel ksePowerOnRequest x (ksePowerOn W fuel o x) := by
  simp only [ksePowerOn]
  split
  · exact .of_aside (.refl x.kse) _
  · split
    · exact .untouched (by rfl) (by rfl) _
    · exact (powerOnList_fit W fuel o _ _).after (.of_eq (by rfl) (by rfl))

theorem ksePowerOff_fit (x : UsbKse σ) :
    PowerFit W fuel ksePowerOffRequest x (ksePowerOff W fuel x) := by
  have hpacked : ksePowerOffRequest.Packed [0x00, 0x01] := Built.packed_header _
  have hfits := hpacked.fits (by simp)
  have hrun := transceive_built W.toWorld fuel hpacked x.kse
  rcases hcall : transceive W.toWorld fuel 2 (x.kse.store 0 [0x00, 0x01]) with ⟨sRv, usLen, kse⟩
  simp only [List.length_cons, List.length_nil, hcall] at hrun
  simp only [ksePowerOff, hcall]
  have hclose := usbClose_aside W { x with kse }
  repeat' split
  · exact .of_aside (.refl x.kse) _
  · exact .of_run hrun hfits (.refl kse) _
  · exact .of_run hrun hfits hclose _
  · exact .of_run hrun hfits hclose _
  · exact .of_run hrun hfits hclose _

/-! ### The calls -/

/-- The calls outside TLS, and `_ksetlsTlsWrite`. -/
inductive RequestCall where
  | powerOn (o : PowerOnOutputs)
  | powerOff
  | command (c : Command)
  | tlsWrite (socketDesc : Int) (pbOutAppData : Nat) (sOutAppDataLen : Int)

def RequestCall.call : RequestCall → KseCall
  | .powerOn o => .powerOn o
  | .powerOff => .powerOff
  | .command c => .command c
  | .tlsWrite socketDesc pbOutAppData sOutAppDataLen =>
    .tlsWrite socketDesc pbOutAppData sOutAppDataLen

def RequestCall.requests (x : Kse σ) : RequestCall → Requests
  | .powerOn _ => .one ksePowerOnRequest
  | .powerOff => .one ksePowerOffRequest
  | .command c => c.requests x
  | .tlsWrite socketDesc pbOutAppData sOutAppDataLen =>
    .one (ksetlsTlsWriteRequest socketDesc pbOutAppData sOutAppDataLen x)

/-- **Every request fits the buffer.**  For every call, every state and every device, the call is a
    run whose exchanges are those of its requests.  Every byte that is written to build one lies in
    `gabTxRxData`, the writes follow each other from its start, and the length handed to
    `_kseTransceive` is that of what was written, at most `MAX_IO_BUFFER_SIZE`.  The chunks of an
    input are not empty and sum to its size, and so do the parts of a message, which is sent whole
    up to `MAX_IO_DATA_SIZE` bytes, also when it is empty. -/
theorem requests_fit (c : RequestCall) (x : UsbKse σ) :
    let r := c.call.run W fuel x
    (c.requests x.kse).Fit W.toWorld fuel x.kse (r.1, r.2.kse) := by
  cases c with
  | powerOn o => exact ksePowerOn_fit W fuel o x
  | powerOff => exact ksePowerOff_fit W fuel x
  | command c => exact c.run_fit W.toWorld fuel x.kse
  | tlsWrite socketDesc pb len => exact ksetlsTlsWrite_fit W.toWorld fuel socketDesc pb len x.kse

end Power

end MavlinkDim
