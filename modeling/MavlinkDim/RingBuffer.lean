import Mathlib.Data.List.GetD
import Mathlib.Data.Nat.ModEq
import Mathlib.Logic.Function.Basic

/-!
# Ring buffers

A ring buffer keeps the elements of a queue in `n` cells, from the last cell on in
the first one again.  Positions are counted without end, and the cell of a position
is its remainder; `mod_eq_mod_iff` says when two positions share a cell.
-/

namespace RingBuffer

variable {α : Type*} {n start : Nat} {l : List α}

/-- Positions at most one round apart share a cell if they are the same or one round apart. -/
theorem mod_eq_mod_iff {a b : Nat} (hn : 0 < n) (hle : a ≤ b) (hround : b ≤ a + n) :
    a % n = b % n ↔ b = a ∨ b = a + n := by
  constructor
  · intro h
    obtain ⟨k, hk⟩ := (Nat.modEq_iff_dvd' hle).mp h
    rcases k with _ | _ | k
    · exact Or.inl (by omega)
    · exact Or.inr (by omega)
    · have htwo : n * 2 ≤ n * (k + 1 + 1) := Nat.mul_le_mul_left n (by omega)
      omega
  · rintro (rfl | rfl)
    · rfl
    · rw [Nat.add_mod_right]

theorem mod_eq_mod_iff_of_lt {a b : Nat} (hle : a ≤ b) (hlt : b < a + n) :
    a % n = b % n ↔ a = b := by
  rw [mod_eq_mod_iff (by omega) hle (by omega)]
  omega

/-- The cells of a buffer that holds the elements of a list from position `start` on. -/
def cells (n start : Nat) (l : List α) (i : Nat) : Option α :=
  if i < n then l[(i + n - start % n) % n]? else none

theorem cells_of_le {i : Nat} (h : n ≤ i) : cells n start l i = none := if_neg (by omega)

theorem cells_nil (n start : Nat) : cells n start ([] : List α) = fun _ => none := by
  funext i
  simp [cells]

theorem cells_at {j : Nat} (hj : j < n) : cells n start l ((start + j) % n) = l[j]? := by
  have hs := Nat.mod_lt start (Nat.zero_lt_of_lt hj)
  have hoffset : ((start + j) % n + n - start % n) % n = j := by
    rw [Nat.add_mod_eq_ite, Nat.mod_eq_of_lt hj]
    split
    · rw [show start % n + j - n + n - start % n = j by omega, Nat.mod_eq_of_lt hj]
    · rw [show start % n + j + n - start % n = j + n by omega, Nat.add_mod_right,
        Nat.mod_eq_of_lt hj]
  rw [cells, if_pos (Nat.mod_lt _ (Nat.zero_lt_of_lt hj)), hoffset]

/-- Every cell is the one of a position of the round that begins at `start`. -/
theorem exists_position (start : Nat) {i : Nat} (hi : i < n) : ∃ j < n, (start + j) % n = i := by
  have hs := Nat.mod_lt start (Nat.zero_lt_of_lt hi)
  by_cases hle : start % n ≤ i
  · refine ⟨i - start % n, by omega, ?_⟩
    rw [Nat.add_mod, Nat.mod_eq_of_lt (by omega : i - start % n < n), Nat.add_sub_cancel' hle,
      Nat.mod_eq_of_lt hi]
  · refine ⟨i + n - start % n, by omega, ?_⟩
    rw [Nat.add_mod, Nat.mod_eq_of_lt (by omega : i + n - start % n < n),
      Nat.add_sub_cancel' (by omega), Nat.add_mod_right, Nat.mod_eq_of_lt hi]

theorem cells_ext {m : Nat → Option α} (hround : ∀ j < n, m ((start + j) % n) = l[j]?)
    (hrest : ∀ i, n ≤ i → m i = none) : m = cells n start l := by
  funext i
  by_cases hi : i < n
  · obtain ⟨j, hj, rfl⟩ := exists_position start hi
    rw [hround j hj, cells_at hj]
  · rw [hrest i (by omega), cells_of_le (by omega)]

/-- The cell of the first element. -/
theorem cells_first (h : 0 < n) : cells n start l (start % n) = l.head? := by
  calc cells n start l (start % n) = l[0]? := cells_at (j := 0) h
    _ = l.head? := List.head?_eq_getElem?.symm

/-- The cell behind the last element is free as long as there is one. -/
theorem cells_free (h : l.length < n) : cells n start l ((start + l.length) % n) = none := by
  rw [cells_at h, List.getElem?_eq_none (Nat.le_refl _)]

theorem update_append (h : l.length < n) (x : α) :
    Function.update (cells n start l) ((start + l.length) % n) (some x) =
      cells n start (l ++ [x]) := by
  apply cells_ext
  · intro j hj
    by_cases heq : (start + j) % n = (start + l.length) % n
    · have hlen : j = l.length := by
        rcases Nat.le_total j l.length with hle | hle
        · have := (mod_eq_mod_iff (by omega) (by omega) (by omega)).mp heq
          omega
        · have := (mod_eq_mod_iff (by omega) (by omega) (by omega)).mp heq.symm
          omega
      subst hlen
      simp
    · have hne : j ≠ l.length := by
        rintro rfl
        exact heq rfl
      rw [Function.update_of_ne heq, cells_at hj]
      rcases Nat.lt_or_gt_of_ne hne with hlt | hgt
      · rw [List.getElem?_append_left hlt]
      · rw [List.getElem?_eq_none (by omega), List.getElem?_eq_none (by simp; omega)]
  · intro i hi
    rw [Function.update_of_ne, cells_of_le hi]
    have := Nat.mod_lt (start + l.length) (Nat.zero_lt_of_lt h)
    omega

theorem update_tail {x : α} (h : (x :: l).length ≤ n) :
    Function.update (cells n start (x :: l)) (start % n) none = cells n (start + 1) l := by
  rw [List.length_cons] at h
  apply cells_ext
  · intro j hj
    by_cases hlast : j + 1 = n
    · rw [Nat.add_assoc, Nat.add_comm 1 j, hlast, Nat.add_mod_right, Function.update_self,
        List.getElem?_eq_none (by omega)]
    · rw [Function.update_of_ne, Nat.add_assoc, Nat.add_comm 1 j, cells_at (by omega),
        List.getElem?_cons_succ]
      intro heq
      have := (mod_eq_mod_iff (by omega) (by omega) (by omega)).mp heq.symm
      omega
  · intro i hi
    rw [Function.update_of_ne, cells_of_le hi]
    have := Nat.mod_lt start (by omega : 0 < n)
    omega

end RingBuffer
