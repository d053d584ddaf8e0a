import MavlinkDim.Dim

/-!
# `DimSocket::recv`

Counts of bytes and codes of the device come back through the same `int16_t`,
and `recv` decides from the socket alone whether to call the driver.
`recv_positive_iff` says when a positive result counts bytes of this response,
`recv_parses_iff` when pending input reaches the device.
-/

namespace MavlinkDim

open ByteMemory

/-! ### What a positive result of the driver counts -/

/-- The only positive result this response can lead to is the length of its message: it is not
    a positive status word, its message is not longer than it is, and its blocks bring it. -/
def Exchange.Honest (e : Exchange) : Prop :=
  ¬e.PositiveStatus ∧ (e.pbSendData 1 = 0x20 → e.Accepted 6 → 0 < int16 (e.field 4) →
    6 + e.field 4 ≤ e.usLen ∧ e.Covers 6 (e.field 4))

/-- The `count` bytes at `pbData` are from the message of a response to a parse command, where
    each of them was written by a report of the response. -/
def MessageOf (es : List Event) (app : Bytes) (pbData count : Nat) : Prop :=
  ∃ e, .exchange e ∈ es ∧ e.pbSendData 1 = 0x20 ∧ e.Accepted 6 ∧ 6 + count ≤ e.usLen ∧
    e.Gives 6 count ∧ slice app pbData count = slice e.gabTxRxData 6 count

/-- If the result is positive then it is also the size, and counts bytes of a response. -/
def PositiveIsData (es : List Event) (pbData : Nat) (sRv size : Option Int) (app : Bytes) :
    Prop :=
  ∀ result, sRv = some result → 0 < result →
    size = some result ∧ MessageOf es app pbData result.toNat

/-- Without an accepted response only a result that is not positive will do. -/
theorem positiveIsData_iff_not {es : List Event} {pbData : Nat} {sRv size : Option Int}
    {app : Bytes} (h : ∀ e, .exchange e ∈ es → e.pbSendData 1 = 0x20 → ¬e.Accepted 6) :
    PositiveIsData es pbData sRv size app ↔ ¬PositiveCode sRv := by
  constructor
  · rintro hdata ⟨result, hresult, hpos⟩
    obtain ⟨-, e, he, hcmd, haccepted, -⟩ := hdata result hresult hpos
    exact h e he hcmd haccepted
  · intro hcode result hresult hpos
    exact absurd ⟨result, hresult, hpos⟩ hcode

theorem Exchange.honest_iff_not {e : Exchange} (h : e.pbSendData 1 = 0x20 → ¬e.Accepted 6) :
    e.Honest ↔ ¬e.PositiveStatus := by
  constructor
  · rintro ⟨hstatus, -⟩
    exact hstatus
  · intro hstatus
    refine ⟨hstatus, ?_⟩
    intro hcmd haccepted
    exact absurd haccepted (h hcmd)

theorem Exchange.Accepted.not_positiveStatus {e : Exchange} {usLen : Nat} (h : e.Accepted usLen) :
    ¬e.PositiveStatus := by
  rintro ⟨-, -, hpos⟩
  rw [h.2.1] at hpos
  exact absurd hpos (by simp)

/-- A rejected response to a parse command of which an alert command makes use. -/
theorem alert_positive_iff {e e' : Exchange} {es : List Event} {pbData : Nat}
    {sRv size : Option Int} {app : Bytes} (hrejected : ¬e.Accepted 6) (hlen : e.usLen = 4)
    (hcmd : e'.pbSendData 1 = 0x22) (hes : ∀ f, .exchange f ∉ es)
    (hcode : PositiveCode sRv ↔ e'.PositiveStatus) :
    PositiveIsData (.exchange e :: .exchange e' :: es) pbData sRv size app ↔
      ∀ f, .exchange f ∈ .exchange e :: .exchange e' :: es → f.Honest := by
  have hunused' : e'.pbSendData 1 = 0x20 → ¬e'.Accepted 6 := by
    intro hread
    rw [hcmd] at hread
    exact absurd hread (by decide)
  have hunused : ∀ f, .exchange f ∈ .exchange e :: .exchange e' :: es →
      f.pbSendData 1 = 0x20 → ¬f.Accepted 6 := by
    rw [forall_exchange_cons, forall_exchange_cons]
    refine ⟨fun _ => hrejected, hunused', ?_⟩
    intro f hf
    exact absurd hf (hes f)
  have hstatus : ¬e.PositiveStatus := by
    intro h
    have hshort := h.2.1
    omega
  rw [positiveIsData_iff_not hunused, hcode, ← Exchange.honest_iff_not hunused',
    forall_exchange_cons, forall_exchange_cons]
  constructor
  · intro hhonest
    refine ⟨(Exchange.honest_iff_not fun _ => hrejected).mpr hstatus, hhonest, ?_⟩
    intro f hf
    exact absurd hf (hes f)
  · rintro ⟨-, hhonest, -⟩
    exact hhonest

/-- An accepted one, whose message is copied. -/
theorem accepted_positive_iff {e : Exchange} {m : Bytes} {pbData : Nat} {app : Bytes}
    (hcmd : e.pbSendData 1 = 0x20) (haccepted : e.Accepted 6)
    (hcopied : Copied m 0 e.gabTxRxData e.blocks)
    (happ : slice app pbData (e.field 4) = slice e.gabTxRxData 6 (e.field 4)) :
    PositiveIsData [.exchange e, .copied 6 (e.field 4)] pbData (some (int16 (e.field 4)))
        (some (int16 (e.field 4))) app ↔
      ∀ f, Event.exchange f ∈ [.exchange e, .copied 6 (e.field 4)] → f.Honest := by
  have hcount : 0 < int16 (e.field 4) → (int16 (e.field 4)).toNat = e.field 4 := by
    intro hpos
    rw [int16_of_pos (e.field_lt 4) hpos, Int.toNat_natCast]
  constructor
  · intro hdata f hf
    obtain rfl : f = e := by simpa using hf
    refine ⟨haccepted.not_positiveStatus, ?_⟩
    intro _ _ hpos
    obtain ⟨-, e', he', -, -, hfits, hgives, -⟩ := hdata _ rfl hpos
    obtain rfl : e' = f := by simpa using he'
    rw [hcount hpos] at hfits hgives
    exact ⟨hfits, (Exchange.gives_iff hcopied 6 _).mp hgives⟩
  · intro hhonest result hresult hpos
    obtain rfl := Option.some.inj hresult
    obtain ⟨hfits, hcovers⟩ := (hhonest e (by simp)).2 hcmd haccepted hpos
    rw [hcount hpos]
    exact ⟨rfl, e, by simp, hcmd, haccepted, hfits,
      (Exchange.gives_iff hcopied 6 _).mpr hcovers, happ⟩

variable {σ : Type} (W : World σ) (fuel : Nat)

theorem setAlert_code (socketDesc : Int) (x : Kse σ) :
    ∃ e es, (setAlert W fuel socketDesc x).2.2.trace = x.trace ++ .exchange e :: es ∧
      (∀ e', .exchange e' ∉ es) ∧ e.pbSendData 1 = 0x22 ∧
      (PositiveCode (setAlert W fuel socketDesc x).2.1 ↔ e.PositiveStatus) := by
  obtain ⟨e, w, y, hcmd, hof, hy, hcase⟩ := setAlert_cases W fuel socketDesc x
  have htrace : y.trace = x.trace := by rw [hy]
  have hcmd' : e.pbSendData 1 = 0x22 := by rw [hof.pbSendData]; exact hcmd
  rcases hcase with ⟨-, sRv, hcall, hcode⟩ | ⟨haccepted, returned, sOutLen, z, hsend, hcall⟩
  · refine ⟨e, [], ?_, by simp, hcmd', ?_⟩
    · rw [hcall, Kse.exchanged_trace, htrace]
    · rw [hcall]
      exact hcode
  · obtain ⟨_, _, w', hsent⟩ := sendRecord_eq W socketDesc 4 (e.field 2) (y.exchanged e w)
    have hz := congrArg (fun r => r.2.2.trace) (hsend.symm.trans hsent)
    refine ⟨e, if e.field 2 > 0 then [.sent 4 (sizeT (int16 (e.field 2)))] else [], ?_, ?_,
      hcmd', ?_⟩
    · rw [hcall, hz, Kse.exchanged_trace, htrace, List.append_assoc, List.singleton_append]
    · split <;> simp
    · rw [hcall]
      refine iff_of_false ?_ haccepted.not_positiveStatus
      cases returned with
      | true =>
        have hneg := sendRecord_neg W hsend
        simp
        omega
      | false => simp

theorem parseRecord_positive_iff (pbInAppData : Nat) (psInAppDataLen : Option Int)
    (socketDesc sInLen : Int) (x : Kse σ) :
    ∃ es, (parseRecord W fuel pbInAppData psInAppDataLen socketDesc sInLen x).2.2.trace =
        x.trace ++ es ∧
      (PositiveIsData es pbInAppData
          (parseRecord W fuel pbInAppData psInAppDataLen socketDesc sInLen x).1
          (parseRecord W fuel pbInAppData psInAppDataLen socketDesc sInLen x).2.1
          (parseRecord W fuel pbInAppData psInAppDataLen socketDesc sInLen x).2.2.app ↔
        ∀ e, .exchange e ∈ es → e.Honest) := by
  obtain ⟨e, w, y, hy, hof, hcase⟩ :=
    parseRecord_cases W fuel pbInAppData psInAppDataLen socketDesc sInLen x
  have htrace : y.trace = x.trace := by rw [hy, Kse.store_trace]
  have hcmd : e.pbSendData 1 = 0x20 := by
    rw [hof.pbSendData, hy, Kse.store_gabTxRxData, put_in _ (Nat.zero_le _) (by simp)]
    rfl
  rcases hcase with ⟨hrejected, sRv, z, hcall, hz, hcode⟩ |
    ⟨hrejected, hlen, returned, sRv, z, hset, hcall⟩ | ⟨haccepted, hcall⟩
  · refine ⟨[.exchange e], ?_, ?_⟩
    · rw [hcall, ← htrace]
      rcases hz with rfl | rfl <;> rfl
    · rw [hcall, positiveIsData_iff_not (by simpa using fun _ => hrejected), hcode]
      simp [Exchange.honest_iff_not fun _ => hrejected]
  · obtain ⟨e', es, htrace', hes, hcmd', hcode⟩ :=
      setAlert_code W fuel socketDesc (y.exchanged e w)
    rw [hset] at htrace' hcode
    have hz : z.trace = x.trace ++ .exchange e :: .exchange e' :: es := by
      simpa [htrace] using htrace'
    refine ⟨.exchange e :: .exchange e' :: es, ?_, ?_⟩
    · rw [hcall]
      cases returned <;> exact hz
    · rw [hcall]
      exact alert_positive_iff hrejected hlen hcmd' hes hcode
  · refine ⟨[.exchange e, .copied 6 (e.field 4)], ?_, ?_⟩
    · rw [hcall]
      simp [Kse.copyOut, htrace]
    · rw [hcall]
      apply accepted_positive_iff hcmd haccepted hof.copied
      rw [Kse.next_app]
      exact slice_blit_same _ _ _ _ _

theorem positiveIsData_of_early {pbData : Nat} {sRv size : Option Int} {app : Bytes}
    {es : List Event} (hes : ∀ e, .exchange e ∉ es) (hcode : ¬PositiveCode sRv) :
    PositiveIsData es pbData sRv size app ↔ ∀ e, .exchange e ∈ es → e.Honest := by
  apply iff_of_true
  · rw [positiveIsData_iff_not]
    · exact hcode
    · intro e he
      exact absurd he (hes e)
  · intro e he
    exact absurd he (hes e)

/-- A positive code of `_ksetlsTlsRead` counts bytes of a response exactly when its responses
    are honest. -/
theorem ksetlsTlsRead_positive_iff (pbInAppData : Nat) (psInAppDataLen : Option Int)
    (socketDesc : Int) (x : Kse σ) :
    ∃ es, (ksetlsTlsRead W fuel pbInAppData psInAppDataLen socketDesc x).2.2.trace =
        x.trace ++ es ∧
      (PositiveIsData es pbInAppData
          (ksetlsTlsRead W fuel pbInAppData psInAppDataLen socketDesc x).1
          (ksetlsTlsRead W fuel pbInAppData psInAppDataLen socketDesc x).2.1
          (ksetlsTlsRead W fuel pbInAppData psInAppDataLen socketDesc x).2.2.app ↔
        ∀ e, .exchange e ∈ es → e.Honest) := by
  unfold ksetlsTlsRead
  split
  · exact ⟨[], by simp, positiveIsData_of_early (by simp) (by simp)⟩
  · split
    · exact ⟨[], by simp, positiveIsData_of_early (by simp) (by simp)⟩
    · rcases receiveRecord_cases W 8 socketDesc x with
        ⟨-, w, hrecv⟩ | ⟨-, l, w, -, hrecv⟩ | ⟨-, hrecv⟩
      · simp only [hrecv, if_true]
        exact ⟨[], by simp, positiveIsData_of_early (by simp) (by simp)⟩
      · simp only [hrecv, Bool.false_eq_true, if_false]
        obtain ⟨es, htrace, hdata⟩ := parseRecord_positive_iff W fuel pbInAppData psInAppDataLen
          socketDesc l.length { x with gabTxRxData := put x.gabTxRxData 8 l, world := w
                                       trace := x.trace ++ [.received l] }
        refine ⟨.received l :: es, by simp [htrace], ?_⟩
        have hmem : ∀ e, Event.exchange e ∈ .received l :: es ↔ Event.exchange e ∈ es := by simp
        simpa only [PositiveIsData, MessageOf, hmem] using hdata
      · simp only [hrecv, Bool.false_eq_true, if_false]
        exact parseRecord_positive_iff W fuel pbInAppData psInAppDataLen socketDesc
          (int16 x.gusTxRxDataLength)
          { x with gabTxRxData := put x.gabTxRxData 8 x.pending }

/-! ### Calls of `recv` -/

variable (H : Host σ)

def recvEvents (size : Option Int) (data : Nat) (x : Dim σ) : List Event :=
  (x.recv H fuel size data).2.2.kse.trace.drop x.kse.trace.length

/-- `recv` goes on to `_ksetlsTlsRead`: the poll reports input and no write is in progress. -/
def Dim.Reads (x : Dim σ) : Prop :=
  x.connectionStatus = .connected ∧ (H.poll x.kse.world x.pollFd).1 > 0 ∧ x.onWrite = false ∧
    (H.poll x.kse.world x.pollFd).2.1.val = true

/-- The driver after the poll. -/
def Dim.polled (x : Dim σ) : Kse σ :=
  { x.kse with world := (H.poll x.kse.world x.pollFd).2.2 }

theorem recv_idle (size : Option Int) (data : Nat) {x : Dim σ} (h : ¬x.Reads H) :
    ∃ result, (x.recv H fuel size data).1 = .returned result ∧ result ≤ 0 ∧
      (x.recv H fuel size data).2.2.kse.trace = x.kse.trace := by
  simp only [Dim.Reads, not_and] at h
  simp only [Dim.recv]
  by_cases hconnected : x.connectionStatus = .connected
  · rw [if_neg (not_not.mpr hconnected)]
    by_cases hpoll : (H.poll x.kse.world x.pollFd).1 > 0 ∧ x.onWrite = false
    · rw [if_pos hpoll, if_neg (h hconnected hpoll.1 hpoll.2)]
      exact ⟨0, rfl, Int.le_refl 0, rfl⟩
    · rw [if_neg hpoll]
      exact ⟨0, rfl, Int.le_refl 0, rfl⟩
  · rw [if_pos hconnected]
    exact ⟨-1, rfl, by decide, rfl⟩

theorem recv_reads (size : Option Int) (data : Nat) {x : Dim σ} (h : x.Reads H) :
    (x.recv H fuel size data).1 =
        .ofCode (ksetlsTlsRead H.toWorld fuel data size x.pollFd (x.polled H)).1 ∧
      (x.recv H fuel size data).2.1 =
        (ksetlsTlsRead H.toWorld fuel data size x.pollFd (x.polled H)).2.1 ∧
      (x.recv H fuel size data).2.2.kse =
        (ksetlsTlsRead H.toWorld fuel data size x.pollFd (x.polled H)).2.2 := by
  obtain ⟨hconnected, hpoll, hwrite, hpollin⟩ := h
  rcases hread : ksetlsTlsRead H.toWorld fuel data size x.pollFd (x.polled H) with
    ⟨sRv, size', y⟩
  rw [Dim.polled] at hread
  simp only [Dim.recv, if_neg (not_not.mpr hconnected), if_pos (And.intro hpoll hwrite),
    if_pos hpollin, hread]
  cases sRv <;> exact ⟨rfl, rfl, rfl⟩

/-- **When a positive result means data.**  For every state, every outcome of `poll` and every
    reply of the device: if `recv` returns a positive result then `*size` is that result and as
    many bytes at `data` were written from this response, exactly when each response in the call
    is no positive status word and holds the message whose length it gives, with blocks that
    bring all of it. -/
theorem recv_positive_iff (size : Option Int) (data : Nat) (x : Dim σ) :
    (∀ result, (x.recv H fuel size data).1 = .returned result → 0 < result →
        (x.recv H fuel size data).2.1 = some result ∧
          MessageOf (recvEvents fuel H size data x) (x.recv H fuel size data).2.2.kse.app data
            result.toNat) ↔
      ∀ e, .exchange e ∈ recvEvents fuel H size data x → e.Honest := by
  by_cases h : x.Reads H
  · obtain ⟨houtcome, hsize, hkse⟩ := recv_reads fuel H size data h
    obtain ⟨es, htrace, hdata⟩ := ksetlsTlsRead_positive_iff H.toWorld fuel data size x.pollFd
      (x.polled H)
    have hevents : recvEvents fuel H size data x = es := by
      rw [recvEvents, hkse, htrace]
      exact List.drop_left
    rw [hevents, ← hdata, houtcome, hsize, hkse]
    apply forall_congr'
    intro result
    cases (ksetlsTlsRead H.toWorld fuel data size x.pollFd (x.polled H)).1 <;>
      simp [Outcome.ofCode]
  · obtain ⟨result, houtcome, hle, htrace⟩ := recv_idle fuel H size data h
    have hevents : recvEvents fuel H size data x = [] := by
      rw [recvEvents, htrace, List.drop_length]
    refine iff_of_true ?_ (by simp [hevents])
    intro result' hresult hpos
    rw [houtcome, Outcome.returned.injEq] at hresult
    omega

/-- The device answers the parse command with the status word `0x6001`: `recv` returns 24577
    and leaves `*size` as it was. -/
theorem recv_positive_status :
    let x := accepted [statusReport 0x60 0x01] [[0x17]]
    let r := x.recv scriptedHost 5 (some 0) 1
    x.connectionStatus = .connected ∧ r.1 = .returned 0x6001 ∧ r.2.1 = some 0 ∧
      ¬∀ result, r.1 = .returned result → 0 < result → r.2.1 = some result ∧
        MessageOf (recvEvents 5 scriptedHost (some 0) 1 x) r.2.2.kse.app 1 result.toNat := by
  intro x r
  have hresult : r.1 = .returned 0x6001 := by decide +kernel
  have hsize : r.2.1 = some 0 := by decide +kernel
  refine ⟨by decide +kernel, hresult, hsize, ?_⟩
  intro h
  have := (h 0x6001 hresult (by decide)).1
  rw [hsize] at this
  exact absurd this (by decide)

/-! ### Pending input -/

/-- A socket between two calls, over a driver that is powered on. -/
structure Dim.Idle (x : Dim σ) : Prop where
  onRead : x.onRead = false
  onWrite : x.onWrite = false
  gusKsePower : x.kse.gusKsePower = .on

theorem handshake_idle {x y : Dim σ} {result : Option Int}
    (h : x.handshake H fuel = (result, y)) (hx : x.Idle) : y.Idle := by
  obtain rfl := congrArg Prod.snd h
  simp only [Dim.handshake]
  split <;> exact ⟨hx.onRead, hx.onWrite, by simp [hx.gusKsePower]⟩

theorem connect_idle {x : Dim σ} (hx : x.Idle) : (DimCall.connect.run H fuel x).2.Idle := by
  simp only [DimCall.run, Dim.connect]
  split
  · exact ⟨hx.onRead, hx.onWrite, by simp [hx.gusKsePower]⟩
  · split
    · exact ⟨hx.onRead, hx.onWrite, by simp [hx.gusKsePower]⟩
    · split
      · exact ⟨hx.onRead, hx.onWrite, by simp [hx.gusKsePower]⟩
      · split
        · rename_i hhandshake
          exact handshake_idle fuel H hhandshake
            ⟨hx.onRead, hx.onWrite, by simp [hx.gusKsePower]⟩
        · rename_i hhandshake
          have hidle := handshake_idle fuel H hhandshake
            ⟨hx.onRead, hx.onWrite, by simp [hx.gusKsePower]⟩
          split
          · exact hidle
          · exact ⟨hidle.onRead, hidle.onWrite, hidle.gusKsePower⟩

theorem send_leaves_idle {x : Dim σ} (hx : x.Idle) (size data : Nat)
    (hend : ((DimCall.send size data).run H fuel x).1 ≠ .running) :
    ((DimCall.send size data).run H fuel x).2.Idle := by
  have hpower := ksetlsTlsWrite_power H.toWorld fuel x.fd data (int16 size) x.kse
  rcases hwrite : ksetlsTlsWrite H.toWorld fuel x.fd data (int16 size) x.kse with ⟨result, kse⟩
  rw [hwrite, hx.gusKsePower] at hpower
  simp only [DimCall.run, Dim.send, hx.onRead, hwrite, Bool.false_eq_true, if_false] at hend ⊢
  split
  · exact hx
  · split
    · exact hx
    · rename_i hconnected herror
      simp only [if_neg hconnected, if_neg herror] at hend ⊢
      cases result with
      | none => exact absurd rfl hend
      | some result => exact ⟨rfl, rfl, hpower⟩

theorem recv_leaves_idle {x : Dim σ} (hx : x.Idle) (size : Option Int) (data : Nat)
    (hend : ((DimCall.recv size data).run H fuel x).1 ≠ .running) :
    ((DimCall.recv size data).run H fuel x).2.Idle := by
  have hpower := ksetlsTlsRead_power H.toWorld fuel data size x.pollFd (x.polled H)
  rcases hread : ksetlsTlsRead H.toWorld fuel data size x.pollFd (x.polled H) with
    ⟨sRv, size', kse⟩
  rw [hread, Dim.polled, hx.gusKsePower] at hpower
  rw [Dim.polled] at hread
  simp only [DimCall.run, Dim.recv, hread] at hend ⊢
  split
  · exact hx
  · split
    · split
      · rename_i hconnected hpoll hpollin
        rw [if_neg hconnected, if_pos hpoll, if_pos hpollin] at hend
        cases sRv with
        | none => exact absurd rfl hend
        | some result => exact ⟨rfl, hx.onWrite, hpower⟩
      · exact ⟨rfl, hx.onWrite, hx.gusKsePower⟩
    · exact ⟨rfl, hx.onWrite, hx.gusKsePower⟩

/-- A call that ends has cleared the flags, and none changes the power state. -/
theorem idle_step (call : DimCall) (x : Dim σ) (hx : x.Idle)
    (hend : (call.run H fuel x).1 ≠ .running) : (call.run H fuel x).2.Idle := by
  cases call with
  | accept =>
    simp only [DimCall.run, Dim.accept]
    repeat' split
    all_goals exact ⟨hx.onRead, hx.onWrite, by simp [hx.gusKsePower]⟩
  | connect => exact connect_idle fuel H hx
  | send size data => exact send_leaves_idle fuel H hx size data hend
  | recv size data => exact recv_leaves_idle fuel H hx size data hend
  | tlsCloseNotify | tlsClose | close | initPoll =>
    exact ⟨hx.onRead, hx.onWrite, by
      simp [DimCall.run, Dim.tlsCloseNotify, Dim.tlsClose, Dim.close, Dim.initPoll,
        hx.gusKsePower]⟩

theorem not_parsed {x y : Kse σ} (h : y.trace = x.trace) (socketDesc : Int) (l : List UInt8) :
    ¬Parsed socketDesc l x y := by
  rintro ⟨e, es, htrace, -⟩
  rw [h] at htrace
  simp at htrace

/-- **When pending input reaches the device.**  In every connected state of a run that has
    input pending, `recv` issues the parse command for that input exactly when `poll` reports
    new data, and the command has a 16-bit length. -/
theorem recv_parses_iff {start x : Dim σ} (hstart : start.Idle) {calls : List DimCall}
    (hx : x ∈ history H fuel start calls) (hconnected : x.connectionStatus = .connected)
    (hpending : 0 < x.kse.gusTxRxDataLength) (size : Int) {data : Nat} (hdata : data ≠ NULL_PTR) :
    Parsed x.pollFd x.kse.pending x.kse (x.recv H fuel (some size) data).2.2.kse ↔
      ((H.poll x.kse.world x.pollFd).1 > 0 ∧
        (H.poll x.kse.world x.pollFd).2.1.val = true) ∧
      x.kse.gusTxRxDataLength + 8 < 65536 := by
  obtain ⟨-, hwrite, hpower⟩ := history_induction H fuel (idle_step fuel H) hstart calls x hx
  by_cases h : x.Reads H
  · have hfd : x.pollFd ≠ INVALID_SOCKET := by
      have hpos := (H.poll x.kse.world x.pollFd).2.1.property h.2.2.2
      simp only [INVALID_SOCKET]
      omega
    have hread := ksetlsTlsRead_parsed_iff H.toWorld fuel (x := x.polled H) hpending data
      (some size) x.pollFd (l := x.kse.pending) (by simp [Kse.pending, Dim.polled])
    rw [(recv_reads fuel H (some size) data h).2.2]
    apply hread.trans
    constructor
    · intro hparsed
      exact ⟨⟨h.2.1, h.2.2.2⟩, hparsed.2.1⟩
    · intro hpoll
      exact ⟨⟨hpower, hdata, by simp, hfd⟩, hpoll.2, rfl⟩
  · obtain ⟨-, -, -, htrace⟩ := recv_idle fuel H (some size) data h
    apply iff_of_false (not_parsed htrace _ _)
    intro hpoll
    exact h ⟨hconnected, hpoll.1.1, hwrite, hpoll.1.2⟩

/-- A server whose first client sends two records of three bytes at once; `input` comes later. -/
def coalescedStart (input : List (List UInt8)) : Dim Script :=
  opened [statusReport 0 0, statusReport 0 1,
    Report.ofList [REP_ONE_BLOCK, 0x06, 0, 7, 0, 0, 0, 3, 0, 1, 0x41]]
    ([0x16] :: [1, 2, 3, 4, 5, 6] :: input)

/-- The `recv` that gets both from the socket; the device consumes the first. -/
def coalescedRecv (input : List (List UInt8)) : Dim Script :=
  (((coalescedStart input).accept scriptedHost 5).2.initPoll.recv scriptedHost 5 (some 0) 1).2.2

/-- When a third record has come, the next `recv` parses the second. -/
theorem recv_parses_later :
    let x := coalescedRecv [[7, 8, 9]]
    Parsed x.pollFd x.kse.pending x.kse (x.recv scriptedHost 5 (some 0) 1).2.2.kse := by
  intro x
  have hrun : x ∈ history scriptedHost 5 (coalescedStart [[7, 8, 9]])
      [.accept, .initPoll, .recv (some 0) 1] := by
    rw [mem_history_cons _ _ (by decide +kernel), mem_history_cons _ _ (by decide +kernel),
      mem_history_cons _ _ (by decide +kernel)]
    exact Or.inr (Or.inr (Or.inl rfl))
  exact (recv_parses_iff 5 scriptedHost ⟨rfl, rfl, rfl⟩ hrun (by decide +kernel)
    (by decide +kernel) 0 (by decide)).mpr (by decide +kernel)

/-- Until then it waits: the second record stays in the buffer and nothing is issued. -/
theorem recv_pending_stuck :
    let x := coalescedRecv []
    let r := x.recv scriptedHost 5 (some 0) 1
    x.connectionStatus = .connected ∧ x.onWrite = false ∧ x.kse.pending = [4, 5, 6] ∧
      r.1 = .returned 0 ∧ ¬Parsed x.pollFd x.kse.pending x.kse r.2.2.kse := by
  intro x r
  refine ⟨by decide +kernel, by decide +kernel, by decide +kernel, by decide +kernel, ?_⟩
  obtain ⟨-, -, -, htrace⟩ := recv_idle 5 scriptedHost (some 0) 1 (x := x) fun h =>
    absurd h.2.1 (by decide +kernel)
  exact not_parsed htrace _ _

end MavlinkDim
