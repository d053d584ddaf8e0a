import Mathlib.Logic.Relation
import MavlinkDim.Tls

/-!
# The steps of kseTLS

Every function of kseTLS is a run of the five steps of `TlsStep`.  What a step
keeps, a run keeps, so that the facts about the power state and the handle are
proved of five steps and not of ten functions.
-/

namespace MavlinkDim

open ByteMemory

variable {σ : Type} (W : World σ) (fuel : Nat)

/-- What a function of kseTLS does to the state: it fills the shared buffer, exchanges it with
    the device, reads from or writes to a socket, gives an output to the application, or says
    where the pending input is. -/
inductive TlsStep : Kse σ → Kse σ → Prop where
  | store (x : Kse σ) (m : Bytes) : TlsStep x { x with gabTxRxData := m }
  | exchange (x : Kse σ) {usSendLen : Nat} {e : Exchange} {w : σ} :
      e.Of W fuel w usSendLen x → TlsStep x (x.exchanged e w)
  | net (x : Kse σ) (w : σ) (es : List Event) :
      (∀ e, .exchange e ∉ es) → TlsStep x { x with world := w, trace := x.trace ++ es }
  | copyOut (x : Kse σ) (pb offset n : Nat) : TlsStep x (x.copyOut pb offset n)
  | pending (x : Kse σ) (offset length : Nat) :
      TlsStep x { x with gusTxRxDataOffset := offset, gusTxRxDataLength := length }

abbrev TlsRun : Kse σ → Kse σ → Prop := Relation.ReflTransGen (TlsStep W fuel)

/-! ### Every function is such a run -/

theorem receiveRecord_run (offset : Nat) (socketDesc : Int) (x : Kse σ) :
    TlsRun W fuel x (receiveRecord W offset socketDesc x).2.2 := by
  rcases receiveRecord_cases W offset socketDesc x with
    ⟨-, w, hrecv⟩ | ⟨-, l, w, -, hrecv⟩ | ⟨-, hrecv⟩
  · have hnet : TlsStep W fuel x _ := .net x w [] (by simp)
    rw [List.append_nil] at hnet
    rw [hrecv]
    exact .single hnet
  · rw [hrecv]
    exact .tail (.single (.store x (put x.gabTxRxData offset l)))
      (.net { x with gabTxRxData := put x.gabTxRxData offset l } w [.received l] (by simp))
  · rw [hrecv]
    exact .single (.store x _)

theorem sendRecord_run (socketDesc : Int) (offset usRecordLen : Nat) (x : Kse σ) :
    TlsRun W fuel x (sendRecord W socketDesc offset usRecordLen x).2.2 := by
  obtain ⟨_, _, w, hsend⟩ := sendRecord_eq W socketDesc offset usRecordLen x
  rw [hsend]
  refine .single (.net x w _ ?_)
  split <;> simp

theorem setAlert_run (socketDesc : Int) (x : Kse σ) :
    TlsRun W fuel x (setAlert W fuel socketDesc x).2.2 := by
  obtain ⟨e, w, y, -, hof, hy, hcases⟩ := setAlert_cases W fuel socketDesc x
  have hstore : TlsStep W fuel x y := by
    rw [hy]
    exact .store x _
  have hexchange : TlsRun W fuel x (y.exchanged e w) := .tail (.single hstore) (.exchange y hof)
  rcases hcases with ⟨-, sRv, hcall, -⟩ | ⟨-, returned, sOutLen, z, hsend, hcall⟩
  · rw [hcall]
    exact hexchange
  · have hz := sendRecord_run W fuel socketDesc 4 (e.field 2) (y.exchanged e w)
    rw [hsend] at hz
    rw [hcall]
    exact hexchange.trans hz

theorem Kse.next_step (x : Kse σ) (sInLen : Int) (offset usUnusedInputLen : Nat) :
    TlsStep W fuel x (x.next sInLen offset usUnusedInputLen) := by
  unfold Kse.next
  split
  · exact .pending x _ _
  · exact .pending x x.gusTxRxDataOffset 0

theorem parseRecord_run (pbInAppData : Nat) (psInAppDataLen : Option Int)
    (socketDesc sInLen : Int) (x : Kse σ) :
    TlsRun W fuel x
      (parseRecord W fuel pbInAppData psInAppDataLen socketDesc sInLen x).2.2 := by
  obtain ⟨e, w, y, rfl, hof, hcases⟩ :=
    parseRecord_cases W fuel pbInAppData psInAppDataLen socketDesc sInLen x
  have hexchange : TlsRun W fuel x (Kse.exchanged _ e w) :=
    .tail (.single (.store x _)) (.exchange _ hof)
  rcases hcases with ⟨-, sRv, z, hcall, hz, -⟩ | ⟨-, -, returned, sRv, z, hset, hcall⟩ |
    ⟨-, hcall⟩
  · rw [hcall]
    rcases hz with rfl | rfl
    · exact hexchange
    · exact hexchange.tail (.pending _ _ 0)
  · have hz := setAlert_run W fuel socketDesc
      (Kse.exchanged (x.store 0 (tlsHeader 0x20 socketDesc ++ bytes16 (uint16 sInLen))) e w)
    rw [hset] at hz
    rw [hcall]
    cases returned with
    | true => exact hexchange.trans hz
    | false => exact (hexchange.trans hz).tail (.pending _ _ 0)
  · rw [hcall]
    exact (hexchange.tail (.copyOut _ _ _ _)).tail (Kse.next_step W fuel _ _ _ _)

theorem ksetlsTlsRead_run (pbInAppData : Nat) (psInAppDataLen : Option Int) (socketDesc : Int)
    (x : Kse σ) :
    TlsRun W fuel x (ksetlsTlsRead W fuel pbInAppData psInAppDataLen socketDesc x).2.2 := by
  have hinput := receiveRecord_run W fuel 8 socketDesc x
  unfold ksetlsTlsRead
  split
  · exact .refl
  · split
    · exact .refl
    · rcases hrecv : receiveRecord W 8 socketDesc x with ⟨returned, sInLen, y⟩
      rw [hrecv] at hinput
      cases returned with
      | true =>
        simp only [if_true]
        exact hinput
      | false =>
        simp only [Bool.false_eq_true, if_false]
        exact hinput.trans (parseRecord_run W fuel _ _ _ _ y)

theorem writeRecord_run (socketDesc : Int) (usSendLen : Nat) (x : Kse σ) :
    TlsRun W fuel x (writeRecord W fuel socketDesc usSendLen x).2 := by
  obtain ⟨e, w, hof, ⟨-, sRv, hcall⟩ | ⟨-, returned, sOutLen, y, hsend, hcall⟩⟩ :=
    writeRecord_cases W fuel socketDesc usSendLen x
  · rw [hcall]
    exact .single (.exchange x hof)
  · have hy := sendRecord_run W fuel socketDesc 4 (e.field 2) (x.exchanged e w)
    rw [hsend] at hy
    rw [hcall]
    cases returned with
    | true => exact .head (.exchange x hof) hy
    | false => exact (Relation.ReflTransGen.head (.exchange x hof) hy).tail (.pending _ _ 0)

theorem ksetlsTlsWrite_run (socketDesc : Int) (pbOutAppData : Nat) (sOutAppDataLen : Int)
    (x : Kse σ) :
    TlsRun W fuel x (ksetlsTlsWrite W fuel socketDesc pbOutAppData sOutAppDataLen x).2 := by
  unfold ksetlsTlsWrite
  split
  · exact .refl
  · split
    · exact .refl
    · exact .head (.store x _) (writeRecord_run W fuel _ _ _)

theorem ksetlsTlsCloseNotify_run (socketDesc : Int) (x : Kse σ) :
    TlsRun W fuel x (ksetlsTlsCloseNotify W fuel socketDesc x).2 := by
  unfold ksetlsTlsCloseNotify
  split
  · exact .refl
  · split
    · exact .refl
    · exact .head (.store x _) (writeRecord_run W fuel _ _ _)

theorem ksetlsOpen_run (socketDesc : Int) (bMode bEndpoint : UInt8)
    (usCertIndex usCaCertIndex usRfu : Nat) (bSaveOption : UInt8) (x : Kse σ) :
    TlsRun W fuel x (ksetlsOpen W fuel socketDesc bMode bEndpoint usCertIndex usCaCertIndex usRfu
      bSaveOption x).2 := by
  unfold ksetlsOpen
  split
  · exact .refl
  · split
    · exact .refl
    · obtain ⟨e, w, hof⟩ := exists_exchange W fuel 15 (x.store 0 (tlsHeader 0x00 socketDesc ++
        [bMode, bEndpoint] ++ bytes16 usCertIndex ++ bytes16 usCaCertIndex ++ [0xFF, 0xFF] ++
        [bSaveOption]))
      have hexchange : TlsRun W fuel x (Kse.exchanged _ e w) :=
        .tail (.single (.store x _)) (.exchange _ hof)
      simp only [hof.call]
      repeat' split
      · exact hexchange
      · exact hexchange
      · exact hexchange.tail (.pending _ _ _)

theorem ksetlsClose_run (socketDesc : Int) (x : Kse σ) :
    TlsRun W fuel x (ksetlsClose W fuel socketDesc x).2 := by
  unfold ksetlsClose
  split
  · exact .refl
  · split
    · exact .refl
    · obtain ⟨e, w, hof⟩ := exists_exchange W fuel 6 (x.store 0 (tlsHeader 0x02 socketDesc))
      have hexchange : TlsRun W fuel x (Kse.exchanged _ e w) :=
        .tail (.single (.store x _)) (.exchange _ hof)
      simp only [hof.call]
      repeat' split
      · exact hexchange
      · exact hexchange
      · exact hexchange
      · exact hexchange.tail (.pending _ _ _)

theorem handshakeRound_run (cmd : List UInt8) (socketDesc : Int) (h : Handshake σ) :
    TlsRun W fuel h.kse (handshakeRound W fuel cmd socketDesc h).kse := by
  obtain ⟨returned, sInLen, y, hinput, hcases⟩ := handshakeRound_cases W fuel cmd socketDesc h
  have hy : TlsRun W fuel h.kse y := by
    split at hinput
    · have hrecv := receiveRecord_run W fuel (cmd.length + 2) socketDesc h.kse
      rwa [hinput] at hrecv
    · obtain ⟨-, -, rfl⟩ := hinput
      exact .refl
  rcases hcases with ⟨-, hcall⟩ | ⟨-, e, w, hof, hcases⟩
  · rw [hcall]
    exact hy
  · have hexchange : TlsRun W fuel h.kse (Kse.exchanged _ e w) :=
      (hy.tail (.store y _)).tail (.exchange _ hof)
    rcases hcases with ⟨-, sRv, hcall⟩ | ⟨-, -, returned', sOutLen, z, hsend, hcall⟩
    · rw [hcall]
      exact hexchange
    · have hz := sendRecord_run W fuel socketDesc 7 (if e.usLen > 2 then e.field 5 else 0)
        ((y.store 0 (cmd ++ bytes16 (uint16 sInLen))).exchanged e w)
      rw [hsend] at hz
      have hnext := (hexchange.trans hz).tail (Kse.next_step W fuel z sInLen (cmd.length + 2)
        (if e.usLen > 2 then e.field 2 else 0))
      rw [hcall]
      cases returned' with
      | true => exact hexchange.trans hz
      | false =>
        simp only [Bool.false_eq_true, if_false]
        split
        · exact hnext
        · exact hnext

theorem handshakeLoop_run (cmd : List UInt8) (socketDesc : Int) (rounds : Nat)
    (h : Handshake σ) :
    TlsRun W fuel h.kse (handshakeLoop W fuel cmd socketDesc rounds h).2 := by
  induction rounds generalizing h with
  | zero => exact .refl
  | succ rounds ih =>
    have hround := handshakeRound_run W fuel cmd socketDesc h
    rw [handshakeLoop]
    split
    · rename_i h' heq
      rw [heq] at hround
      exact hround.trans (ih h')
    · rename_i heq
      rw [heq] at hround
      exact hround

theorem ksetlsTlsServerHandshake_run (socketDesc : Int) (x : Kse σ) :
    TlsRun W fuel x (ksetlsTlsServerHandshake W fuel socketDesc x).2 := by
  unfold ksetlsTlsServerHandshake
  split
  · exact .refl
  · split
    · exact .refl
    · exact handshakeLoop_run W fuel _ _ _ ⟨KSE_TRUE, x⟩

theorem ksetlsTlsClientHandshake_run (socketDesc : Int) (bType : UInt8) (x : Kse σ) :
    TlsRun W fuel x (ksetlsTlsClientHandshake W fuel socketDesc bType x).2 := by
  unfold ksetlsTlsClientHandshake
  split
  · exact .refl
  · split
    · exact .refl
    · exact handshakeLoop_run W fuel _ _ _ ⟨KSE_FALSE, x⟩

/-! ### What every run keeps -/

/-- The handle and the power state are the same, the trace goes on, and an exchange in it that
    did not find the device was made without a handle. -/
structure Kept (x y : Kse σ) : Prop where
  ghDev : y.ghDev = x.ghDev
  gusKsePower : y.gusKsePower = x.gusKsePower
  trace : ∃ es, y.trace = x.trace ++ es ∧
    ∀ e, .exchange e ∈ es → e.sRv = some KSE_FAIL_NOT_FOUND → x.ghDev = none

theorem Kept.refl (x : Kse σ) : Kept x x := ⟨rfl, rfl, [], by simp, by simp⟩

theorem Kept.trans {x y z : Kse σ} (h : Kept x y) (h' : Kept y z) : Kept x z := by
  obtain ⟨es, htrace, hfound⟩ := h.trace
  obtain ⟨es', htrace', hfound'⟩ := h'.trace
  refine ⟨h'.ghDev.trans h.ghDev, h'.gusKsePower.trans h.gusKsePower, es ++ es', ?_, ?_⟩
  · rw [htrace', htrace, List.append_assoc]
  · intro e hmem hcode
    rcases List.mem_append.mp hmem with hmem | hmem
    · exact hfound e hmem hcode
    · exact h.ghDev.symm.trans (hfound' e hmem hcode)

/-- A state that differs in what `Kept` does not mention. -/
theorem Kept.of_eq {x y : Kse σ} (hdev : y.ghDev = x.ghDev)
    (hpower : y.gusKsePower = x.gusKsePower) (htrace : ∃ es, y.trace = x.trace ++ es ∧
      ∀ e, .exchange e ∉ es) : Kept x y := by
  obtain ⟨es, htrace, hnone⟩ := htrace
  exact ⟨hdev, hpower, es, htrace, fun e hmem => absurd hmem (hnone e)⟩

theorem Exchange.Of.kept {e : Exchange} {w : σ} {usSendLen : Nat} {x : Kse σ}
    (h : e.Of W fuel w usSendLen x) : Kept x (x.exchanged e w) := by
  refine ⟨rfl, rfl, [.exchange e], rfl, ?_⟩
  intro e' hmem hcode
  obtain rfl := Event.exchange.inj (List.mem_singleton.mp hmem)
  have hsRv := congrArg Prod.fst h.call
  rw [hcode] at hsRv
  exact (kseTransceive_notFound_iff W.toUsb fuel _ _ _ _ _ _).mp hsRv

theorem TlsStep.kept {x y : Kse σ} (h : TlsStep W fuel x y) : Kept x y := by
  cases h with
  | store m => exact .of_eq rfl rfl ⟨[], by simp⟩
  | exchange hof => exact hof.kept
  | net w es hnone => exact .of_eq rfl rfl ⟨es, rfl, hnone⟩
  | copyOut pb offset n => exact .of_eq rfl rfl ⟨[.copied offset n], rfl, by simp⟩
  | pending offset length => exact .of_eq rfl rfl ⟨[], by simp⟩

theorem TlsRun.kept {x y : Kse σ} (h : TlsRun W fuel x y) : Kept x y := by
  induction h with
  | refl => exact .refl x
  | tail _ hstep ih => exact ih.trans hstep.kept

/-! ### No function of kseTLS changes the power state -/

@[simp] theorem ksetlsOpen_power (socketDesc : Int) (bMode bEndpoint : UInt8)
    (usCertIndex usCaCertIndex usRfu : Nat) (bSaveOption : UInt8) (x : Kse σ) :
    (ksetlsOpen W fuel socketDesc bMode bEndpoint usCertIndex usCaCertIndex usRfu bSaveOption
      x).2.gusKsePower = x.gusKsePower :=
  (ksetlsOpen_run W fuel _ _ _ _ _ usRfu _ x).kept.gusKsePower

@[simp] theorem ksetlsClose_power (socketDesc : Int) (x : Kse σ) :
    (ksetlsClose W fuel socketDesc x).2.gusKsePower = x.gusKsePower :=
  (ksetlsClose_run W fuel socketDesc x).kept.gusKsePower

@[simp] theorem ksetlsTlsClientHandshake_power (socketDesc : Int) (bType : UInt8) (x : Kse σ) :
    (ksetlsTlsClientHandshake W fuel socketDesc bType x).2.gusKsePower = x.gusKsePower :=
  (ksetlsTlsClientHandshake_run W fuel socketDesc bType x).kept.gusKsePower

@[simp] theorem ksetlsTlsServerHandshake_power (socketDesc : Int) (x : Kse σ) :
    (ksetlsTlsServerHandshake W fuel socketDesc x).2.gusKsePower = x.gusKsePower :=
  (ksetlsTlsServerHandshake_run W fuel socketDesc x).kept.gusKsePower

@[simp] theorem ksetlsTlsRead_power (pbInAppData : Nat) (psInAppDataLen : Option Int)
    (socketDesc : Int) (x : Kse σ) :
    (ksetlsTlsRead W fuel pbInAppData psInAppDataLen socketDesc x).2.2.gusKsePower =
      x.gusKsePower :=
  (ksetlsTlsRead_run W fuel _ _ _ x).kept.gusKsePower

@[simp] theorem ksetlsTlsWrite_power (socketDesc : Int) (pbOutAppData : Nat)
    (sOutAppDataLen : Int) (x : Kse σ) :
    (ksetlsTlsWrite W fuel socketDesc pbOutAppData sOutAppDataLen x).2.gusKsePower =
      x.gusKsePower :=
  (ksetlsTlsWrite_run W fuel _ _ _ x).kept.gusKsePower

@[simp] theorem ksetlsTlsCloseNotify_power (socketDesc : Int) (x : Kse σ) :
    (ksetlsTlsCloseNotify W fuel socketDesc x).2.gusKsePower = x.gusKsePower :=
  (ksetlsTlsCloseNotify_run W fuel socketDesc x).kept.gusKsePower

end MavlinkDim
