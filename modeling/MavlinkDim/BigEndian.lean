import Mathlib.Data.Nat.Digits.Lemmas

/-!
# Big-endian numbers

A list of bytes as a number, the first byte the most significant one.  A list of
`w` bytes holds the numbers modulo `256 ^ w`.
-/

namespace BigEndian

def value (l : List UInt8) : ℕ := Nat.ofDigits 256 (l.reverse.map UInt8.toNat)

/-- The last `w` bytes of a number. -/
def bytes : (w n : ℕ) → List UInt8
  | 0, _ => []
  | w + 1, n => UInt8.ofNat (n / 256 ^ w) :: bytes w n

@[simp] theorem value_nil : value [] = 0 := rfl

theorem value_cons (b : UInt8) (l : List UInt8) :
    value (b :: l) = b.toNat * 256 ^ l.length + value l := by
  rw [value, List.reverse_cons, List.map_append, Nat.ofDigits_append, List.length_map,
    List.length_reverse, value, Nat.add_comm, Nat.mul_comm]
  simp

theorem value_lt (l : List UInt8) : value l < 256 ^ l.length := by
  have hlt := Nat.ofDigits_lt_base_pow_length (b := 256) (l := l.reverse.map UInt8.toNat)
    (by decide) (by simpa using fun b _ => UInt8.toNat_lt b)
  simpa [value] using hlt

@[simp] theorem length_bytes (w n : ℕ) : (bytes w n).length = w := by
  induction w with
  | zero => rfl
  | succ w ih => rw [bytes, List.length_cons, ih]

/-- The bytes of a number are those of what it leaves modulo `256 ^ w`. -/
theorem bytes_mod (w n : ℕ) {k : ℕ} (h : w ≤ k) : bytes w (n % 256 ^ k) = bytes w n := by
  induction w with
  | zero => rfl
  | succ w ih =>
    obtain ⟨d, rfl⟩ := Nat.exists_eq_add_of_le h
    have hbyte : n % 256 ^ (w + 1 + d) / 256 ^ w % 256 = n / 256 ^ w % 256 := by
      rw [Nat.add_assoc, Nat.pow_add, Nat.mod_mul_right_div_self, Nat.pow_add, Nat.pow_one,
        Nat.mod_mul_right_mod]
    rw [bytes, bytes, ih (by omega), List.cons.injEq]
    refine ⟨UInt8.toNat_inj.mp ?_, rfl⟩
    rw [UInt8.toNat_ofNat', UInt8.toNat_ofNat', hbyte]

theorem value_bytes (w n : ℕ) : value (bytes w n) = n % 256 ^ w := by
  induction w with
  | zero => simp [bytes, Nat.mod_one]
  | succ w ih =>
    have hbyte : (UInt8.ofNat (n / 256 ^ w)).toNat = n / 256 ^ w % 256 := UInt8.toNat_ofNat'
    have hsplit : n % 256 ^ (w + 1) = n % 256 ^ w + 256 ^ w * (n / 256 ^ w % 256) := Nat.mod_mul
    rw [bytes, value_cons, length_bytes, ih, hbyte, hsplit, Nat.add_comm, Nat.mul_comm]

/-- Every list of bytes is the number it holds. -/
theorem bytes_value (l : List UInt8) : bytes l.length (value l) = l := by
  induction l with
  | nil => rfl
  | cons b l ih =>
    have hlt := value_lt l
    have hpos : 0 < 256 ^ l.length := Nat.pow_pos (by decide)
    have hdiv : value (b :: l) / 256 ^ l.length = b.toNat := by
      rw [value_cons, Nat.mul_comm, Nat.mul_add_div hpos, Nat.div_eq_of_lt hlt, Nat.add_zero]
    have hmod : value (b :: l) % 256 ^ l.length = value l := by
      rw [value_cons, Nat.mul_comm, Nat.mul_add_mod, Nat.mod_eq_of_lt hlt]
    rw [List.length_cons, bytes, hdiv, UInt8.ofNat_toNat, ← bytes_mod _ _ (Nat.le_refl _), hmod, ih]

/-! ### Addition with carry -/

/-- The number plus `n`, byte by byte from the last one, and the carry out of the first. -/
def addCarry (l : List UInt8) (n : ℕ) : ℕ × List UInt8 :=
  l.foldr (fun b r => ((r.1 + b.toNat) / 256, UInt8.ofNat (r.1 + b.toNat) :: r.2)) (n, [])

theorem addCarry_value (l : List UInt8) (n : ℕ) :
    (addCarry l n).2.length = l.length ∧
      256 ^ l.length * (addCarry l n).1 + value (addCarry l n).2 = value l + n := by
  induction l with
  | nil => simp [addCarry]
  | cons b l ih =>
    obtain ⟨hlen, hvalue⟩ := ih
    have hcons : addCarry (b :: l) n = (((addCarry l n).1 + b.toNat) / 256,
      UInt8.ofNat ((addCarry l n).1 + b.toNat) :: (addCarry l n).2) := rfl
    rw [hcons]
    refine ⟨by rw [List.length_cons, List.length_cons, hlen], ?_⟩
    have hsum := Nat.div_add_mod ((addCarry l n).1 + b.toNat) 256
    rw [value_cons, value_cons, hlen, List.length_cons, UInt8.toNat_ofNat']
    calc
      256 ^ (l.length + 1) * (((addCarry l n).1 + b.toNat) / 256) +
          (((addCarry l n).1 + b.toNat) % 256 * 256 ^ l.length + value (addCarry l n).2) =
        256 ^ l.length * (256 * (((addCarry l n).1 + b.toNat) / 256) +
          ((addCarry l n).1 + b.toNat) % 256) + value (addCarry l n).2 := by ring
      _ = b.toNat * 256 ^ l.length + (256 ^ l.length * (addCarry l n).1 +
          value (addCarry l n).2) := by rw [hsum]; ring
      _ = b.toNat * 256 ^ l.length + value l + n := by rw [hvalue, Nat.add_assoc]

/-- The carry out of the first byte is lost: the sum is taken modulo `256 ^ l.length`. -/
theorem addCarry_eq (l : List UInt8) (n : ℕ) :
    (addCarry l n).2 = bytes l.length (value l + n) := by
  obtain ⟨hlen, hvalue⟩ := addCarry_value l n
  have hlt := value_lt (addCarry l n).2
  rw [hlen] at hlt
  rw [← bytes_mod _ _ (Nat.le_refl _), ← hvalue, Nat.mul_add_mod, Nat.mod_eq_of_lt hlt, ← hlen,
    bytes_value]

/-! ### Counting -/

/-- The next number. -/
def increment (l : List UInt8) : List UInt8 := bytes l.length (value l + 1)

theorem increment_iterate (l : List UInt8) (k : ℕ) :
    increment^[k] l = bytes l.length (value l + k) := by
  induction k with
  | zero => rw [Nat.add_zero, bytes_value]; rfl
  | succ k ih =>
    rw [Function.iterate_succ_apply', ih, increment, length_bytes, value_bytes, ← bytes_mod _ _
      (Nat.le_refl _), Nat.mod_add_mod, bytes_mod _ _ (Nat.le_refl _), Nat.add_assoc]

end BigEndian
