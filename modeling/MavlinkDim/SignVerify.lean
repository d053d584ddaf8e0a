import MavlinkDim.HashSteps

/-!
# Signatures and their verification

`_kcmvpHmacSha256` and `_kcmvpEcdsaSign` leave a MAC or a signature in the memory
of the application, which the two functions for verification take from there.
`signature_verifies` says that what was made is accepted later, wherever it lies
then and however long the message is.
-/

namespace MavlinkDim

open ByteMemory

/-- The algorithm that makes what another verifies. -/
inductive VerifiedBy : UInt8 → UInt8 → Prop where
  | hmac : VerifiedBy KCMVP_HMAC_GEN KCMVP_HMAC_VERI
  | ecdsa : VerifiedBy KCMVP_ECDSA_SIGN KCMVP_ECDSA_VERI

/-- What a device makes with a key is valid, and it accepts what is valid and nothing else. -/
structure Signs {S S' : Type} (H : RunningHash S) (H' : RunningHash S') (bAlg bAlg' : UInt8)
    (usKeyIndex : Nat) (Valid : List UInt8 → List UInt8 → Prop) : Prop where
  made : ∀ message data, H.eval bAlg usKeyIndex message [] = .accepted data → Valid message data
  verified : ∀ message presented,
    (H'.eval bAlg' usKeyIndex message presented).code = KSE_SUCCESS ↔ Valid message presented

/-- A call of one of the functions: where the MAC or the two halves of the signature and the
    message lie. -/
structure SignCall where
  pbInOut1 : Nat
  pbInOut2 : Nat
  pbMessage : Nat
  usMessageSize : Nat

namespace SignCall

variable {σ δ S : Type} (W : World σ) (fuel : Nat) (c : SignCall) (bAlg : UInt8) (usKeyIndex : Nat)

def run (x : Kse σ) : Option Int × Kse σ :=
  kcmvpHashDsa W fuel c.pbInOut1 c.pbInOut2 c.pbMessage c.usMessageSize usKeyIndex bAlg x

def message (x : Kse σ) : List UInt8 := x.arg c.pbMessage c.usMessageSize

/-- The MAC or the signature in memory. -/
def signature (x : Kse σ) : List UInt8 :=
  x.arg c.pbInOut1 32 ++
    if bAlg = KCMVP_ECDSA_SIGN ∨ bAlg = KCMVP_ECDSA_VERI then x.arg c.pbInOut2 32 else []

/-- The pointers are there, and the two halves of a signature that is made lie apart. -/
structure Fits : Prop where
  message : c.pbMessage ≠ NULL_PTR ∨ c.usMessageSize = 0
  inOut1 : c.pbInOut1 ≠ NULL_PTR
  inOut2 : bAlg = KCMVP_ECDSA_SIGN ∨ bAlg = KCMVP_ECDSA_VERI → c.pbInOut2 ≠ NULL_PTR
  apart : bAlg = KCMVP_ECDSA_SIGN →
    c.pbInOut1 + 32 ≤ c.pbInOut2 ∨ c.pbInOut2 + 32 ≤ c.pbInOut1

variable {c bAlg usKeyIndex fuel} {D : Device δ} (N : Net δ) (indeterminate : δ → Int)
  {Holds : δ → Prop} {Running : δ → S → Prop} {H : RunningHash S} {x : Kse (Frame δ)}

theorem Fits.hashed (hc : c.Fits bAlg) (hkey : usKeyIndex < MAX_KCMVP_KEY_COUNT)
    (hD : HashesInSteps D Holds Running H bAlg usKeyIndex) (hfuel : 51 ≤ fuel) (hx : Waiting x)
    (hholds : Holds x.world.env) :
    Hashed bAlg usKeyIndex c.pbInOut1 c.pbInOut2 x
      (H.eval bAlg usKeyIndex (c.message x)
        (hashPresented bAlg (x.arg c.pbInOut1 32) (x.arg c.pbInOut2 32)))
      (hashCommands (c.message x))
      (c.run (frameWorld D N indeterminate) fuel bAlg usKeyIndex x) := by
  apply kcmvpHashDsa_hashed N indeterminate hD hfuel hx hholds
  rintro (⟨hnull, hpos⟩ | hnull | ⟨hecdsa, hnull⟩ | ⟨-, hindex⟩)
  · exact hc.message.elim (absurd hnull) (absurd · hpos)
  · exact hc.inOut1 hnull
  · exact hc.inOut2 hecdsa hnull
  · exact absurd hkey (Nat.not_lt.mpr hindex)

variable {bAlg' : UInt8} {data : List UInt8}

/-- Nothing is presented when a MAC or a signature is made. -/
theorem presented_made (h : VerifiedBy bAlg bAlg') (l l' : List UInt8) :
    hashPresented bAlg l l' = [] := by
  cases h <;> rfl

/-- What is verified is what lies in memory. -/
theorem presented_verified (h : VerifiedBy bAlg bAlg') (c : SignCall) (x : Kse σ) :
    hashPresented bAlg' (x.arg c.pbInOut1 32) (x.arg c.pbInOut2 32) = c.signature bAlg' x := by
  cases h with
  | hmac => rfl
  | ecdsa => rfl

/-- What was made lies in memory. -/
theorem signature_hashOutput (h : VerifiedBy bAlg bAlg') (hc : c.Fits bAlg)
    (hsize : data.length = hashOutputSize bAlg) {x y : Kse σ}
    (happ : y.app = hashOutput bAlg c.pbInOut1 c.pbInOut2 x.app (.accepted data)) :
    c.signature bAlg y = data := by
  cases h with
  | hmac =>
    have hlen : data.length = 32 := hsize
    have happ' : y.app = put x.app c.pbInOut1 data := happ
    have hread := slice_put_same x.app c.pbInOut1 data
    rw [hlen, ← happ'] at hread
    exact (List.append_nil _).trans hread
  | ecdsa =>
    have hlen : data.length = 64 := hsize
    have hr : (data.take 32).length = 32 := by
      rw [List.length_take]
      omega
    have hs : (data.drop 32).length = 32 := by
      rw [List.length_drop]
      omega
    have happ' : y.app =
        put (put x.app c.pbInOut1 (data.take 32)) c.pbInOut2 (data.drop 32) := happ
    have hapart := hc.apart rfl
    have hread : slice y.app c.pbInOut1 32 = data.take 32 := by
      have hfirst := slice_put_same x.app c.pbInOut1 (data.take 32)
      rw [hr] at hfirst
      rw [happ', slice_put_disjoint _ (by omega), hfirst]
    have hread' : slice y.app c.pbInOut2 32 = data.drop 32 := by
      have hsecond := slice_put_same (put x.app c.pbInOut1 (data.take 32)) c.pbInOut2 (data.drop 32)
      rwa [hs, ← happ'] at hsecond
    show slice y.app c.pbInOut1 32 ++ slice y.app c.pbInOut2 32 = data
    rw [hread, hread', List.take_append_drop]

theorem app_of_verified (h : VerifiedBy bAlg bAlg') (pbInOut1 pbInOut2 : Nat) (app : Bytes)
    (answer : Answer) : hashOutput bAlg' pbInOut1 pbInOut2 app answer = app := by
  cases answer with
  | accepted data => cases h <;> rfl
  | refused hi lo hne => rfl

theorem accepted_of_code {answer : Answer} (h : answer.code = KSE_SUCCESS) :
    ∃ data, answer = .accepted data := by
  cases answer with
  | accepted data => exact ⟨data, rfl⟩
  | refused hi lo hne => exact absurd h (Answer.code_refused hne)

end SignCall

/-- **What was made is accepted.**  A MAC or a signature of a message of any size is valid if the
    function that makes it succeeds, and then lies in memory.  At any later time, verification
    changes no memory and succeeds exactly on what is valid for the message that it finds, so on
    what was made. -/
theorem signature_verifies {δ S S' : Type} {D : Device δ} (N : Net δ) (indeterminate : δ → Int)
    {fuel : Nat} {Holds Holds' : δ → Prop} {Running : δ → S → Prop} {Running' : δ → S' → Prop}
    {H : RunningHash S} {H' : RunningHash S'} {bAlg bAlg' : UInt8} {usKeyIndex : Nat}
    {Valid : List UInt8 → List UInt8 → Prop} {x : Kse (Frame δ)} {c : SignCall}
    (hpair : VerifiedBy bAlg bAlg') (hsigns : Signs H H' bAlg bAlg' usKeyIndex Valid)
    (hD : HashesInSteps D Holds Running H bAlg usKeyIndex)
    (hD' : HashesInSteps D Holds' Running' H' bAlg' usKeyIndex) (hfuel : 51 ≤ fuel)
    (hkey : usKeyIndex < MAX_KCMVP_KEY_COUNT) (hc : c.Fits bAlg) (hx : Waiting x)
    (hholds : Holds x.world.env) :
    let W := frameWorld D N indeterminate
    let answer := H.eval bAlg usKeyIndex (c.message x) []
    ∃ y, c.run W fuel bAlg usKeyIndex x = (some answer.code, y) ∧ Waiting y ∧
      y.app = hashOutput bAlg c.pbInOut1 c.pbInOut2 x.app answer ∧
      (answer.code = KSE_SUCCESS → Valid (c.message x) (c.signature bAlg y)) ∧
      ∀ (c' : SignCall) (z : Kse (Frame δ)), c'.Fits bAlg' → Waiting z → Holds' z.world.env →
        ∃ sRv' w, c'.run W fuel bAlg' usKeyIndex z = (some sRv', w) ∧ Waiting w ∧
          w.app = z.app ∧
          (sRv' = KSE_SUCCESS ↔ Valid (c'.message z) (c'.signature bAlg' z)) ∧
          (answer.code = KSE_SUCCESS → c'.message z = c.message x →
            c'.signature bAlg' z = c.signature bAlg y → sRv' = KSE_SUCCESS) := by
  intro W answer
  have hmade := hc.hashed N indeterminate hkey hD hfuel hx hholds
  rw [SignCall.presented_made hpair] at hmade
  have hvalid : answer.code = KSE_SUCCESS →
      Valid (c.message x) (c.signature bAlg (c.run W fuel bAlg usKeyIndex x).2) := by
    intro hcode
    obtain ⟨data, hdata⟩ := SignCall.accepted_of_code hcode
    have hdata' : H.eval bAlg usKeyIndex (c.message x) [] = .accepted data := hdata
    have happ := hmade.app
    rw [hdata'] at happ
    rw [SignCall.signature_hashOutput hpair hc (hD.size _ _ _ _ hdata') happ]
    exact hsigns.made _ _ hdata'
  refine ⟨_, Prod.ext hmade.code rfl, hmade.waiting, hmade.app, hvalid, ?_⟩
  intro c' z hc' hz hholds'
  have hverified := hc'.hashed N indeterminate hkey hD' hfuel hz hholds'
  rw [SignCall.presented_verified hpair] at hverified
  have hiff := hsigns.verified (c'.message z) (c'.signature bAlg' z)
  refine ⟨_, _, Prod.ext hverified.code rfl, hverified.waiting, ?_, hiff, ?_⟩
  · rw [hverified.app, SignCall.app_of_verified hpair]
  · intro hcode hmessage hsignature
    rw [hiff, hmessage, hsignature]
    exact hvalid hcode

/-! ### A checksum -/

/-- The MAC that `checksum` verifies. -/
def checksumMac : RunningHash UInt8 where
  start := checksum.start
  update := checksum.update
  answer _ s _ := .accepted (List.replicate 32 s)

/-- The device that verifies such MACs, and makes them too. -/
def macDevice : Device UInt8 where
  exec s request :=
    match request with
    | _ :: 0x74 :: k :: k' :: _ :: _ :: message =>
      let sum := message.foldl checksum.update (checksum.start [k, k'])
      ((checksumMac.answer [] sum []).response, s)
    | _ :: 0x75 :: k :: k' :: _ :: _ :: message =>
      ([0x00, 0x00], message.foldl checksum.update (checksum.start [k, k']))
    | _ :: 0x76 :: _ :: _ :: message => ([0x00, 0x00], message.foldl checksum.update s)
    | _ :: 0x77 :: _ :: _ :: message =>
      ((checksumMac.answer [] (message.foldl checksum.update s) []).response, s)
    | _ => checksumDevice.exec s request
  fill _ := fun _ => 0
  behind _ := fun _ => 0

theorem hashesInSteps_macDevice (usKeyIndex : Nat) :
    HashesInSteps macDevice (fun _ => True) (fun env s => env = s) checksumMac KCMVP_HMAC_GEN
      usKeyIndex := by
  refine ⟨?_, ?_, ?_, ?_, ?_⟩
  · intro env message presented _ _ hsize
    obtain rfl : presented = [] := List.eq_nil_of_length_eq_zero hsize
    rw [HashCommand.request_nil]
    rfl
  · intro env message _ _
    rw [HashCommand.request_nil]
    exact ⟨rfl, rfl⟩
  · intro env s message hrunning _
    subst hrunning
    rw [HashCommand.request_nil]
    exact ⟨rfl, rfl⟩
  · intro env s message presented hrunning _ hsize
    subst hrunning
    obtain rfl : presented = [] := List.eq_nil_of_length_eq_zero hsize
    rw [HashCommand.request_nil]
    rfl
  · intro key s presented data hdata
    obtain rfl := Answer.accepted.inj hdata
    rfl

theorem hashesInSteps_macDevice_verify (usKeyIndex : Nat) :
    HashesInSteps macDevice (fun _ => True) (fun env s => env = s) checksum KCMVP_HMAC_VERI
      usKeyIndex := by
  obtain ⟨hone, hbegin, hmid, hend, hsize⟩ := hashesInSteps_checksumDevice usKeyIndex
  exact ⟨hone, hbegin, hmid, hend, hsize⟩

theorem signs_checksum (usKeyIndex : Nat) :
    Signs checksumMac checksum KCMVP_HMAC_GEN KCMVP_HMAC_VERI usKeyIndex fun message mac =>
      mac = List.replicate 32
        (message.foldl (· + ·) ((bytes16 usKeyIndex).foldl (· + ·) 0)) := by
  constructor
  · intro message data hdata
    exact (Answer.accepted.inj hdata).symm
  · intro message presented
    simp only [RunningHash.eval, checksum]
    split
    · rename_i hmac
      exact iff_of_true rfl hmac
    · rename_i hmac
      exact iff_of_false (Answer.code_refused _) hmac

/-- The MAC of a message of 6000 bytes is put right behind it, and verified there. -/
theorem signature_verifies_mac :
    let W := frameWorld macDevice silentNet fun _ => 0
    let x := poweredOn (fun i => UInt8.ofNat i) (Frame.idle 0)
    let c : SignCall := ⟨6064, NULL_PTR, 64, 6000⟩
    ∃ y w, c.run W 51 KCMVP_HMAC_GEN 1 x = (some KSE_SUCCESS, y) ∧
      c.run W 51 KCMVP_HMAC_VERI 1 y = (some KSE_SUCCESS, w) ∧ w.app = y.app := by
  intro W x c
  obtain ⟨y, hmade, hy, happ, -, hverify⟩ := signature_verifies silentNet (fun _ => 0) (x := x)
    (c := c) .hmac (signs_checksum 1) (hashesInSteps_macDevice 1)
    (hashesInSteps_macDevice_verify 1) (Nat.le_refl 51) (by decide)
    ⟨Or.inl (by decide), by decide, by decide, by decide⟩ (waiting_poweredOn _ _) trivial
  obtain ⟨sRv, w, hverified, -, happ', -, hsame⟩ := hverify c y
    ⟨Or.inl (by decide), by decide, by decide, by decide⟩ hy trivial
  have hmessage : c.message y = c.message x := by
    show slice y.app 64 6000 = slice x.app 64 6000
    rw [happ]
    exact slice_put_disjoint _ (Or.inl (Nat.le_refl _))
  rw [hsame rfl hmessage rfl] at hverified
  exact ⟨y, w, hmade, hverified, happ'⟩

end MavlinkDim
