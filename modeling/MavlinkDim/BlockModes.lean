import Mathlib.Data.List.Basic
import Mathlib.Logic.Function.Iterate

/-!
# Modes of operation

A mode makes a cipher for texts of any length out of one for blocks: it cuts the
text into blocks and takes a chaining value from block to block.  A text may also
come in pieces, each handled from the chaining value that the one before left;
`crypt_append` says that this is the same as handling it at once, as long as every
piece but the last is made of whole blocks.
-/

namespace BlockModes

variable {V α : Type*} {n : ℕ}

/-! ### Blocks -/

/-- The text in blocks of `n`; the last one may be shorter. -/
def blocks (n : ℕ) (l : List α) : List (List α) :=
  (List.range ((l.length + n - 1) / n)).map fun i => (l.drop (n * i)).take n

@[simp] theorem blocks_nil (hn : 0 < n) : blocks n ([] : List α) = [] := by
  have hcount : (0 + n - 1) / n = 0 := Nat.div_eq_of_lt (by omega)
  rw [blocks, List.length_nil, hcount]
  rfl

theorem blocks_of_ne_nil (hn : 0 < n) {l : List α} (h : l ≠ []) :
    blocks n l = l.take n :: blocks n (l.drop n) := by
  have hpos := List.length_pos_of_ne_nil h
  have hcount : (l.length + n - 1) / n = (l.length - n + n - 1) / n + 1 := by
    by_cases hle : n ≤ l.length
    · rw [← Nat.add_div_right _ hn]
      congr 1
      omega
    · have hone : l.length + n - 1 = (l.length - 1) + n := by omega
      rw [hone, Nat.add_div_right _ hn, Nat.div_eq_of_lt (by omega), Nat.div_eq_of_lt (by omega)]
  rw [blocks, hcount, List.range_succ_eq_map, List.map_cons, List.map_map, blocks,
    List.length_drop, Nat.mul_zero, List.drop_zero]
  congr 1
  apply List.map_congr_left
  intro i _
  rw [Function.comp_apply, Nat.mul_succ, List.drop_drop, Nat.add_comm]

/-- What holds of the empty text, and of a text if it does behind its first block, holds of
    every text. -/
theorem block_induction (hn : 0 < n) {P : List α → Prop} (nil : P [])
    (block : ∀ l ≠ [], P (l.drop n) → P l) (l : List α) : P l := by
  induction hk : l.length using Nat.strongRecOn generalizing l with
  | _ k ih =>
    by_cases h : l = []
    · rwa [h]
    · have hpos := List.length_pos_of_ne_nil h
      apply block l h
      apply ih (l.drop n).length _ _ rfl
      rw [List.length_drop]
      omega

theorem blocks_append (hn : 0 < n) {l : List α} (h : n ∣ l.length) (l' : List α) :
    blocks n (l ++ l') = blocks n l ++ blocks n l' := by
  induction l using block_induction hn with
  | nil => rw [blocks_nil hn, List.nil_append, List.nil_append]
  | block l hne ih =>
    have hle : n ≤ l.length := Nat.le_of_dvd (List.length_pos_of_ne_nil hne) h
    have hrest : n ∣ (l.drop n).length := by
      rw [List.length_drop]
      exact Nat.dvd_sub h (Nat.dvd_refl n)
    rw [blocks_of_ne_nil hn (List.append_ne_nil_of_left_ne_nil hne l'), blocks_of_ne_nil hn hne,
      List.take_append_of_le_length hle, List.drop_append_of_le_length hle, ih hrest,
      List.cons_append]

theorem length_le_of_mem_blocks {l b : List α} (h : b ∈ blocks n l) : b.length ≤ n := by
  obtain ⟨i, -, rfl⟩ := List.mem_map.mp h
  exact List.length_take_le n _

theorem length_of_mem_blocks (hn : 0 < n) {l : List α} (h : n ∣ l.length) :
    ∀ b ∈ blocks n l, b.length = n := by
  induction l using block_induction hn with
  | nil =>
    rw [blocks_nil hn]
    intro b hb
    cases hb
  | block l hne ih =>
    have hle : n ≤ l.length := Nat.le_of_dvd (List.length_pos_of_ne_nil hne) h
    have hrest : n ∣ (l.drop n).length := by
      rw [List.length_drop]
      exact Nat.dvd_sub h (Nat.dvd_refl n)
    rw [blocks_of_ne_nil hn hne, List.forall_mem_cons]
    exact ⟨List.length_take_of_le hle, ih hrest⟩

theorem length_blocks (n : ℕ) (l : List α) :
    (blocks n l).length = (l.length + n - 1) / n := by
  rw [blocks, List.length_map, List.length_range]

/-! ### Modes -/

/-- What a mode makes of a block and the chaining value, and the next chaining value. -/
structure Mode (V α : Type*) where
  output : V → List α → List α
  next : V → List α → V

namespace Mode

variable (m : Mode V α)

def cryptBlocks : V → List (List α) → List α
  | _, [] => []
  | v, b :: bs => m.output v b ++ cryptBlocks (m.next v b) bs

variable (n) in
/-- The whole text at once. -/
def crypt (v : V) (l : List α) : List α := m.cryptBlocks v (blocks n l)

variable (n) in
/-- The chaining value behind the text. -/
def after (v : V) (l : List α) : V := (blocks n l).foldl m.next v

theorem cryptBlocks_append (v : V) (bs bs' : List (List α)) :
    m.cryptBlocks v (bs ++ bs') =
      m.cryptBlocks v bs ++ m.cryptBlocks (bs.foldl m.next v) bs' := by
  induction bs generalizing v with
  | nil => rfl
  | cons b bs ih =>
    rw [List.cons_append, cryptBlocks, cryptBlocks, ih, List.append_assoc, List.foldl_cons]

theorem crypt_nil (hn : 0 < n) (v : V) : m.crypt n v [] = [] := by
  rw [crypt, blocks_nil hn, cryptBlocks]

/-- A text in two pieces. -/
theorem crypt_append (hn : 0 < n) (v : V) {l : List α} (h : n ∣ l.length) (l' : List α) :
    m.crypt n v (l ++ l') = m.crypt n v l ++ m.crypt n (m.after n v l) l' := by
  rw [crypt, blocks_append hn h, cryptBlocks_append]
  rfl

theorem after_append (hn : 0 < n) (v : V) {l : List α} (h : n ∣ l.length) (l' : List α) :
    m.after n v (l ++ l') = m.after n (m.after n v l) l' := by
  rw [after, blocks_append hn h, List.foldl_append]
  rfl

theorem crypt_of_ne_nil (hn : 0 < n) (v : V) {l : List α} (h : l ≠ []) :
    m.crypt n v l =
      m.output v (l.take n) ++ m.crypt n (m.next v (l.take n)) (l.drop n) := by
  rw [crypt, blocks_of_ne_nil hn h, cryptBlocks]
  rfl

/-- One block. -/
theorem crypt_block (hn : 0 < n) (v : V) {b : List α} (h : b.length = n) :
    m.crypt n v b = m.output v b ∧ m.after n v b = m.next v b := by
  have hne : b ≠ [] := List.ne_nil_of_length_pos (by omega)
  have htake : b.take n = b := List.take_of_length_le (Nat.le_of_eq h)
  have hdrop : b.drop n = [] := List.drop_of_length_le (Nat.le_of_eq h)
  constructor
  · rw [crypt_of_ne_nil m hn v hne, htake, hdrop, crypt, blocks_nil hn, cryptBlocks,
      List.append_nil]
  · rw [after, blocks_of_ne_nil hn hne, htake, hdrop, blocks_nil hn]
    rfl

/-- A mode that keeps the length of every block keeps the length of the text.  `Chain` is what
    the chaining values are. -/
theorem length_crypt (hn : 0 < n) (Chain : V → Prop)
    (hnext : ∀ v b, Chain v → b.length = n → Chain (m.next v b)) {l : List α}
    (houtput : ∀ v, Chain v → ∀ b ∈ blocks n l, (m.output v b).length = b.length) {v : V}
    (hv : Chain v) : (m.crypt n v l).length = l.length := by
  induction l using block_induction hn generalizing v with
  | nil => rw [crypt, blocks_nil hn, cryptBlocks, List.length_nil]
  | block l h ih =>
    rw [blocks_of_ne_nil hn h] at houtput
    rw [crypt_of_ne_nil m hn v h, List.length_append, houtput v hv _ List.mem_cons_self]
    by_cases hle : l.length ≤ n
    · rw [List.drop_of_length_le hle, crypt, blocks_nil hn, cryptBlocks,
        List.take_of_length_le hle]
      rfl
    · have htake : (l.take n).length = n := List.length_take_of_le (by omega)
      have hrest := ih (fun v hv b hb => houtput v hv b (List.mem_cons_of_mem _ hb))
        (hnext v _ hv htake)
      rw [hrest, htake, List.length_drop]
      omega

/-- A mode that gives back every block of a text, and chains on the output as the other one does
    on the text, gives back the text. -/
theorem crypt_undo (hn : 0 < n) {m m' : Mode V α} (Chain : V → Prop)
    (hnext : ∀ v b, Chain v → b.length = n →
      Chain (m.next v b) ∧ m'.next v (m.output v b) = m.next v b) {l : List α}
    (houtput : ∀ v, Chain v → ∀ b ∈ blocks n l,
      (m.output v b).length = b.length ∧ m'.output v (m.output v b) = b)
    {v : V} (hv : Chain v) : m'.crypt n v (m.crypt n v l) = l := by
  induction l using block_induction hn generalizing v with
  | nil => rw [crypt_nil m hn, crypt_nil m' hn]
  | block l h ih =>
    rw [blocks_of_ne_nil hn h] at houtput
    obtain ⟨hlen, hback⟩ := houtput v hv _ List.mem_cons_self
    rw [crypt_of_ne_nil m hn v h]
    by_cases hle : l.length ≤ n
    · rw [List.take_of_length_le hle] at hlen hback ⊢
      have hne : m.output v l ≠ [] := by
        apply List.ne_nil_of_length_pos
        rw [hlen]
        exact List.length_pos_of_ne_nil h
      have hall : (m.output v l).length ≤ n := by rwa [hlen]
      rw [List.drop_of_length_le hle, crypt_nil m hn, List.append_nil, crypt_of_ne_nil m' hn v hne,
        List.take_of_length_le hall, List.drop_of_length_le hall, crypt_nil m' hn, hback,
        List.append_nil]
    · have htake : (l.take n).length = n := List.length_take_of_le (by omega)
      obtain ⟨hchain, hsame⟩ := hnext v _ hv htake
      have hrest := ih (fun v hv b hb => houtput v hv b (List.mem_cons_of_mem _ hb)) hchain
      have hfull : (m.output v (l.take n)).length = n := hlen.trans htake
      have hblock := crypt_block m' hn v hfull
      rw [crypt_append m' hn v ⟨1, by rw [hfull, Nat.mul_one]⟩, hblock.1, hblock.2, hback, hsame,
        hrest, List.take_append_drop]

end Mode

/-! ### The modes of a block cipher -/

section Cipher

variable (xor : α → α → α)

/-- `ECB`: every block by itself. -/
def ecb (E : List α → List α) : Mode V α where
  output _ b := E b
  next v _ := v

/-- `CTR`: the text is masked with the encrypted counter. -/
def ctr (E inc : List α → List α) : Mode (List α) α where
  output v b := List.zipWith xor b (E v)
  next v _ := inc v

/-- `CBC`: every block is masked with the ciphertext before it and encrypted. -/
def cbcEncrypt (E : List α → List α) : Mode (List α) α where
  output v b := E (List.zipWith xor b v)
  next v b := E (List.zipWith xor b v)

def cbcDecrypt (D : List α → List α) : Mode (List α) α where
  output v b := List.zipWith xor (D b) v
  next _ b := b

variable {xor} {E D inc : List α → List α}

theorem ctr_after (v : List α) (l : List α) :
    (ctr xor E inc).after n v l = inc^[(l.length + n - 1) / n] v := by
  rw [← length_blocks n l, Mode.after]
  induction blocks n l generalizing v with
  | nil => rfl
  | cons b bs ih => rw [List.foldl_cons, ih, List.length_cons, Function.iterate_succ_apply]; rfl

theorem ecb_after (E : List α → List α) (v : V) (l : List α) : (ecb E).after n v l = v := by
  rw [Mode.after]
  induction blocks n l with
  | nil => rfl
  | cons b bs ih => rw [List.foldl_cons]; exact ih

/-- What comes before the last block of a text of whole blocks, and the last block. -/
theorem last_block (hn : 0 < n) {l : List α} (hne : l ≠ []) (h : n ∣ l.length) :
    n ∣ (l.take (l.length - n)).length ∧ (l.take (l.length - n)).length = l.length - n ∧
      (l.drop (l.length - n)).length = n := by
  have hle : n ≤ l.length := Nat.le_of_dvd (List.length_pos_of_ne_nil hne) h
  have hlen : (l.take (l.length - n)).length = l.length - n :=
    List.length_take_of_le (Nat.sub_le _ _)
  refine ⟨?_, hlen, ?_⟩
  · rw [hlen]
    exact Nat.dvd_sub h (Nat.dvd_refl n)
  · rw [List.length_drop]
    omega

theorem length_zipWith_block {b v : List α} (hb : b.length = n) (hv : v.length = n) :
    (List.zipWith xor b v).length = n := by
  rw [List.length_zipWith, hb, hv, Nat.min_self]

theorem length_ecb (hn : 0 < n) (hE : ∀ b : List α, b.length = n → (E b).length = n) (v : V)
    {l : List α} (h : n ∣ l.length) : ((ecb E).crypt n v l).length = l.length := by
  apply Mode.length_crypt _ hn (fun _ => True) (fun _ _ _ _ => trivial) _ trivial
  intro v _ b hb
  have hb' := length_of_mem_blocks hn h b hb
  exact (hE b hb').trans hb'.symm

theorem length_cbcEncrypt (hn : 0 < n) (hE : ∀ b : List α, b.length = n → (E b).length = n)
    {v l : List α} (hv : v.length = n) (h : n ∣ l.length) :
    ((cbcEncrypt xor E).crypt n v l).length = l.length := by
  apply Mode.length_crypt _ hn (fun v => v.length = n) _ _ hv
  · intro v b hv hb
    exact hE _ (length_zipWith_block hb hv)
  · intro v hv b hb
    have hb' := length_of_mem_blocks hn h b hb
    exact (hE _ (length_zipWith_block hb' hv)).trans hb'.symm

theorem length_cbcDecrypt (hn : 0 < n) (hD : ∀ b : List α, b.length = n → (D b).length = n)
    {v l : List α} (hv : v.length = n) (h : n ∣ l.length) :
    ((cbcDecrypt xor D).crypt n v l).length = l.length := by
  apply Mode.length_crypt _ hn (fun v => v.length = n) _ _ hv
  · intro v b _ hb
    exact hb
  · intro v hv b hb
    have hb' := length_of_mem_blocks hn h b hb
    exact (length_zipWith_block (hD b hb') hv).trans hb'.symm

theorem length_ctr (hn : 0 < n) (hE : ∀ b : List α, b.length = n → (E b).length = n)
    (hinc : ∀ v : List α, v.length = n → (inc v).length = n) {v : List α} (hv : v.length = n)
    (l : List α) : ((ctr xor E inc).crypt n v l).length = l.length := by
  apply Mode.length_crypt _ hn (fun v => v.length = n) _ _ hv
  · intro v b hv _
    exact hinc v hv
  · intro v hv b hb
    have hle := length_le_of_mem_blocks hb
    show (List.zipWith xor b (E v)).length = b.length
    rw [List.length_zipWith, hE v hv, Nat.min_eq_left hle]

/-- Encryption chains on the last block of its output. -/
theorem cbcEncrypt_after (hn : 0 < n) (hE : ∀ b : List α, b.length = n → (E b).length = n)
    {v l : List α} (hv : v.length = n) (hne : l ≠ []) (h : n ∣ l.length) :
    (cbcEncrypt xor E).after n v l =
      ((cbcEncrypt xor E).crypt n v l).drop (l.length - n) := by
  obtain ⟨hdvd, hlen, hlast⟩ := last_block hn hne h
  have hafter := Mode.after_append (cbcEncrypt xor E) hn v hdvd (l.drop (l.length - n))
  have hcrypt := Mode.crypt_append (cbcEncrypt xor E) hn v hdvd (l.drop (l.length - n))
  have hinit : ((cbcEncrypt xor E).crypt n v (l.take (l.length - n))).length = _ :=
    length_cbcEncrypt hn hE hv hdvd
  rw [List.take_append_drop, (Mode.crypt_block _ hn _ hlast).2] at hafter
  rw [List.take_append_drop, (Mode.crypt_block _ hn _ hlast).1] at hcrypt
  rw [hafter, hcrypt, List.drop_left' (hinit.trans hlen)]
  rfl

/-- Decryption chains on the last block of its input. -/
theorem cbcDecrypt_after (hn : 0 < n) (v : List α) {l : List α} (hne : l ≠ [])
    (h : n ∣ l.length) :
    (cbcDecrypt xor D).after n v l = l.drop (l.length - n) := by
  obtain ⟨hdvd, -, hlast⟩ := last_block hn hne h
  have hsplit := Mode.after_append (cbcDecrypt xor D) hn v hdvd (l.drop (l.length - n))
  rw [List.take_append_drop, (Mode.crypt_block _ hn _ hlast).2] at hsplit
  exact hsplit

/-! ### Encryption and decryption -/

theorem zipWith_zipWith_cancel (hxor : ∀ a b, xor (xor a b) b = a) {b v : List α}
    (h : b.length ≤ v.length) : List.zipWith xor (List.zipWith xor b v) v = b := by
  induction b generalizing v with
  | nil => rfl
  | cons a b ih =>
    cases v with
    | nil => exact absurd h (Nat.not_succ_le_zero _)
    | cons c v =>
      rw [List.zipWith_cons_cons, List.zipWith_cons_cons, hxor, ih (Nat.le_of_succ_le_succ h)]

theorem ecb_ecb (hn : 0 < n) (hE : ∀ b : List α, b.length = n → (E b).length = n)
    (hED : ∀ b : List α, b.length = n → D (E b) = b) (v : V) {l : List α} (h : n ∣ l.length) :
    (ecb D).crypt n v ((ecb E).crypt n v l) = l := by
  refine Mode.crypt_undo hn (fun _ => True) (fun _ _ _ _ => ⟨trivial, rfl⟩) ?_ trivial
  intro v _ b hb
  have hb' := length_of_mem_blocks hn h b hb
  exact ⟨(hE b hb').trans hb'.symm, hED b hb'⟩

theorem cbcDecrypt_cbcEncrypt (hn : 0 < n) (hxor : ∀ a b, xor (xor a b) b = a)
    (hE : ∀ b : List α, b.length = n → (E b).length = n)
    (hED : ∀ b : List α, b.length = n → D (E b) = b) {v l : List α} (hv : v.length = n)
    (h : n ∣ l.length) :
    (cbcDecrypt xor D).crypt n v ((cbcEncrypt xor E).crypt n v l) = l := by
  refine Mode.crypt_undo hn (fun v => v.length = n) ?_ ?_ hv
  · intro v b hv hb
    exact ⟨hE _ (length_zipWith_block hb hv), rfl⟩
  · intro v hv b hb
    have hb' := length_of_mem_blocks hn h b hb
    have hmasked : (List.zipWith xor b v).length = n := length_zipWith_block hb' hv
    refine ⟨(hE _ hmasked).trans hb'.symm, ?_⟩
    show List.zipWith xor (D (E (List.zipWith xor b v))) v = b
    rw [hED _ hmasked, zipWith_zipWith_cancel hxor (Nat.le_of_eq (hb'.trans hv.symm))]

theorem cbcEncrypt_cbcDecrypt (hn : 0 < n) (hxor : ∀ a b, xor (xor a b) b = a)
    (hD : ∀ b : List α, b.length = n → (D b).length = n)
    (hDE : ∀ b : List α, b.length = n → E (D b) = b) {v l : List α} (hv : v.length = n)
    (h : n ∣ l.length) :
    (cbcEncrypt xor E).crypt n v ((cbcDecrypt xor D).crypt n v l) = l := by
  have hback : ∀ v b : List α, v.length = n → b.length = n →
      E (List.zipWith xor (List.zipWith xor (D b) v) v) = b := by
    intro v b hv hb
    rw [zipWith_zipWith_cancel hxor (Nat.le_of_eq ((hD b hb).trans hv.symm)), hDE b hb]
  refine Mode.crypt_undo hn (fun v => v.length = n) ?_ ?_ hv
  · intro v b hv hb
    exact ⟨hb, hback v b hv hb⟩
  · intro v hv b hb
    have hb' := length_of_mem_blocks hn h b hb
    exact ⟨(length_zipWith_block (hD b hb') hv).trans hb'.symm, hback v b hv hb'⟩

/-- CTR masks with the same blocks twice. -/
theorem ctr_ctr (hn : 0 < n) (hxor : ∀ a b, xor (xor a b) b = a)
    (hE : ∀ b : List α, b.length = n → (E b).length = n)
    (hinc : ∀ v : List α, v.length = n → (inc v).length = n) {v : List α} (hv : v.length = n)
    (l : List α) : (ctr xor E inc).crypt n v ((ctr xor E inc).crypt n v l) = l := by
  refine Mode.crypt_undo hn (fun v => v.length = n) ?_ ?_ hv
  · intro v b hv _
    exact ⟨hinc v hv, rfl⟩
  · intro v hv b hb
    have hle : b.length ≤ (E v).length := by
      rw [hE v hv]
      exact length_le_of_mem_blocks hb
    refine ⟨?_, zipWith_zipWith_cancel hxor hle⟩
    show (List.zipWith xor b (E v)).length = b.length
    rw [List.length_zipWith, Nat.min_eq_left hle]

end Cipher

end BlockModes
