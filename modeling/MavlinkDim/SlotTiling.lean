import Mathlib.Algebra.Order.BigOperators.Group.Finset
import Mathlib.Data.Finset.Card
import Mathlib.Algebra.BigOperators.Fin
import Mathlib.Data.List.Perm.Basic
import MavlinkDim.ByteMemory

/-!
# Reassembly from slotted fragments

A message is cut into slots of `B` bytes.  A fragment names a slot and carries
`len` bytes that are copied to the start of that slot; only its first `B` bytes
are real data, a longer copy goes on with whatever stands behind them.  The
receiver adds up the lengths and takes the sum as the length of the message.

The sum is right exactly when the fragments tile the message: `tiled_iff_fresh`.
The one direction is a counting argument: `n` fresh bytes need fragments whose
slots are different and which carry no byte too many.
-/

namespace SlotTiling

open ByteMemory

variable {α : Type*} (slot len : α → Nat) (B : Nat)

/-- The message length the receiver computes. -/
def total (l : List α) : Nat := (l.map len).sum

/-- The copy of `f` writes position `i`. -/
def Writes (f : α) (i : Nat) : Prop := B * slot f ≤ i ∧ i < B * slot f + len f

instance (f : α) (i : Nat) : Decidable (Writes slot len B f i) := by
  unfold Writes; infer_instance

/-- The last fragment of `l` whose copy writes position `i`. -/
def lastWriter (l : List α) (i : Nat) : Option α :=
  l.reverse.find? fun f => decide (Writes slot len B f i)

/-- Position `i` was last written with a data byte of a fragment. -/
def Fresh (l : List α) (i : Nat) : Prop :=
  ∃ f, lastWriter slot len B l i = some f ∧ i - B * slot f < B

def nonempty (l : List α) : List α := l.filter fun f => decide (0 < len f)

/-- No fragment is longer than a slot, the non-empty ones are numbered
    `0, …, k - 1` without repetition, in any order, and all of them but the
    one numbered `k - 1` are full. -/
structure Tiled (l : List α) : Prop where
  fits : ∀ f ∈ l, len f ≤ B
  slots : ((nonempty len l).map slot).Perm (List.range (nonempty len l).length)
  full : ∀ f ∈ nonempty len l, slot f + 1 < (nonempty len l).length → len f = B

variable {slot len B}

@[simp] theorem total_nil : total len ([] : List α) = 0 := rfl

@[simp] theorem total_append (l l' : List α) :
    total len (l ++ l') = total len l + total len l' := by
  simp [total]

@[simp] theorem total_singleton (f : α) : total len [f] = len f := by
  simp [total]

theorem mem_nonempty {l : List α} {f : α} : f ∈ nonempty len l ↔ f ∈ l ∧ 0 < len f := by
  simp [nonempty]

theorem total_nonempty (l : List α) : total len (nonempty len l) = total len l := by
  induction l with
  | nil => rfl
  | cons f l ih =>
    simp only [nonempty, List.filter_cons, total] at ih ⊢
    by_cases hf : 0 < len f
    · simp [hf, ih]
    · simp [ih, show len f = 0 by omega]

theorem total_le (l : List α) (h : ∀ f ∈ l, len f ≤ B) : total len l ≤ B * l.length := by
  induction l with
  | nil => simp
  | cons f l ih =>
    have htail := ih fun g hg => h g (by simp [hg])
    have hhead := h f (by simp)
    simp only [total, List.map_cons, List.sum_cons, List.length_cons, Nat.mul_succ] at htail ⊢
    omega

theorem Tiled.congr {slot' len' : α → Nat} {l : List α} (hslot : ∀ f ∈ l, slot f = slot' f)
    (hlen : ∀ f ∈ l, len f = len' f) : Tiled slot len B l → Tiled slot' len' B l := by
  rintro ⟨hfits, hslots, hfull⟩
  have hne : nonempty len l = nonempty len' l :=
    List.filter_congr fun f hf => by rw [hlen f hf]
  have hmem : ∀ f ∈ nonempty len l, f ∈ l := fun f hf => (mem_nonempty.mp hf).1
  have hmap : (nonempty len l).map slot = (nonempty len l).map slot' :=
    List.map_congr_left fun f hf => hslot f (hmem f hf)
  rw [hmap, hne] at hslots
  refine ⟨fun f hf => hlen f hf ▸ hfits f hf, hslots, ?_⟩
  rw [← hne]
  intro f hf hnext
  rw [← hlen f (hmem f hf)]
  exact hfull f hf (by rwa [hslot f (hmem f hf)])

/-! ### The last writer -/

theorem lastWriter_append (l : List α) (f : α) (i : Nat) :
    lastWriter slot len B (l ++ [f]) i =
      if Writes slot len B f i then some f else lastWriter slot len B l i := by
  simp only [lastWriter, List.reverse_append, List.reverse_singleton, List.singleton_append,
    List.find?_cons]
  by_cases h : Writes slot len B f i <;> simp [h]

theorem lastWriter_some {l : List α} {f : α} {i : Nat}
    (h : lastWriter slot len B l i = some f) : f ∈ l ∧ Writes slot len B f i :=
  ⟨List.mem_reverse.mp (List.mem_of_find?_eq_some h), by simpa using List.find?_some h⟩

theorem Fresh.congr {slot' len' : α → Nat} {l : List α} {i : Nat}
    (hslot : ∀ f ∈ l, slot f = slot' f) (hlen : ∀ f ∈ l, len f = len' f)
    (h : Fresh slot len B l i) : Fresh slot' len' B l i := by
  obtain ⟨f, hlast, hdata⟩ := h
  have hf := (lastWriter_some hlast).1
  refine ⟨f, ?_, by rwa [← hslot f hf]⟩
  rw [← hlast, lastWriter, lastWriter, ← List.head?_filter, ← List.head?_filter]
  congr 1
  apply List.filter_congr
  intro g hg
  have hmem := List.mem_reverse.mp hg
  simp only [Writes, hslot g hmem, hlen g hmem]

theorem exists_lastWriter {l : List α} {f : α} {i : Nat} (hf : f ∈ l)
    (hw : Writes slot len B f i) : ∃ g, lastWriter slot len B l i = some g := by
  cases hfind : lastWriter slot len B l i with
  | some g => exact ⟨g, rfl⟩
  | none =>
    have hnone := List.find?_eq_none.mp hfind f (by simpa using hf)
    simp [hw] at hnone

def copyAll (data : α → Bytes) (slot len : α → Nat) (B base src : Nat) (m : Bytes)
    (l : List α) : Bytes :=
  l.foldl (fun m f => blit m (base + B * slot f) (data f) src (len f)) m

theorem copyAll_append (data : α → Bytes) (base src : Nat) (m : Bytes) (l : List α) (f : α) :
    copyAll data slot len B base src m (l ++ [f]) =
      blit (copyAll data slot len B base src m l) (base + B * slot f) (data f) src (len f) := by
  simp [copyAll]

/-- What stands at a position is what its last writer copied there. -/
theorem copyAll_apply (data : α → Bytes) (base src : Nat) (m : Bytes) (l : List α) (i : Nat) :
    copyAll data slot len B base src m l (base + i) =
      match lastWriter slot len B l i with
      | some f => data f (src + (i - B * slot f))
      | none => m (base + i) := by
  induction l using List.reverseRecOn with
  | nil => rfl
  | append_singleton l f ih =>
    rw [copyAll_append, lastWriter_append]
    by_cases h : Writes slot len B f i
    · simp only [if_pos h]
      rw [blit_in _ _ (by have := h.1; omega) (by have := h.2; omega)]
      congr 2
      have := h.1
      omega
    · simp only [if_neg h]
      rw [blit_out _ _ (by simp only [Writes] at h; omega), ih]

theorem copyAll_before (data : α → Bytes) (base src : Nat) (m : Bytes) (l : List α) {a : Nat}
    (h : a < base) : copyAll data slot len B base src m l a = m a := by
  induction l using List.reverseRecOn with
  | nil => rfl
  | append_singleton l f ih =>
    rw [copyAll_append, blit_out _ _ (by omega), ih]

/-! ### Counting -/

private def dataRange (slot len : α → Nat) (B : Nat) (f : α) : Finset Nat :=
  Finset.Ico (B * slot f) (B * slot f + min (len f) B)

private theorem card_dataRange (f : α) : (dataRange slot len B f).card = min (len f) B := by
  simp [dataRange]

private theorem slot_of_mem {f : α} {i : Nat} (h : i ∈ dataRange slot len B f) :
    slot f = i / B := by
  simp only [dataRange, Finset.mem_Ico] at h
  have hB : 0 < B := by omega
  have hcomm := Nat.mul_comm B (slot f)
  symm
  rw [Nat.div_eq_iff hB]
  constructor <;> omega

private theorem total_eq_sum (l : List α) :
    total len l = ∑ j : Fin l.length, len l[j] := by
  rw [total, ← List.sum_ofFn]
  congr 1
  apply List.ext_getElem <;> simp

private theorem sum_card_le (l : List α) :
    ∑ j : Fin l.length, (dataRange slot len B l[j]).card ≤ total len l := by
  rw [total_eq_sum]
  apply Finset.sum_le_sum
  intro j _
  rw [card_dataRange]
  exact Nat.min_le_left _ _

section Cover

variable {l : List α}
  (hcover : ∀ i < total len l, ∃ f ∈ l, i ∈ dataRange slot len B f)

include hcover

private theorem range_subset :
    Finset.range (total len l) ⊆
      Finset.univ.biUnion fun j : Fin l.length => dataRange slot len B l[j] := by
  intro i hi
  obtain ⟨f, hf, hmem⟩ := hcover i (Finset.mem_range.mp hi)
  obtain ⟨j, hj, rfl⟩ := List.mem_iff_getElem.mp hf
  exact Finset.mem_biUnion.mpr ⟨⟨j, hj⟩, Finset.mem_univ _, hmem⟩

/-- Every byte is needed, so no fragment carries more than a slot. -/
private theorem len_le_of_cover : ∀ f ∈ l, len f ≤ B := by
  have hcard := Finset.card_le_card (range_subset hcover)
  rw [Finset.card_range] at hcard
  have hsum : ∑ j : Fin l.length, min (len l[j]) B = ∑ j : Fin l.length, len l[j] := by
    have hle := hcard.trans Finset.card_biUnion_le
    have hge := @sum_card_le _ slot len B l
    simp only [card_dataRange] at hle hge
    rw [← total_eq_sum]
    omega
  have heach := (Finset.sum_eq_sum_iff_of_le fun j _ => Nat.min_le_left (len l[j]) B).mp hsum
  intro f hf
  obtain ⟨j, hj, rfl⟩ := List.mem_iff_getElem.mp hf
  have := heach ⟨j, hj⟩ (Finset.mem_univ _)
  simp only [Fin.getElem_fin] at this
  omega

private theorem lt_total_of_mem {f : α} (hf : f ∈ l) {i : Nat}
    (hi : i ∈ dataRange slot len B f) : i < total len l := by
  have hsub := range_subset hcover
  have hcard : (Finset.univ.biUnion fun j : Fin l.length => dataRange slot len B l[j]).card ≤
      (Finset.range (total len l)).card := by
    rw [Finset.card_range]
    exact Finset.card_biUnion_le.trans (sum_card_le l)
  have heq := Finset.eq_of_subset_of_card_le hsub hcard
  obtain ⟨j, hj, rfl⟩ := List.mem_iff_getElem.mp hf
  rw [← Finset.mem_range, heq]
  exact Finset.mem_biUnion.mpr ⟨⟨j, hj⟩, Finset.mem_univ _, hi⟩

/-- Two non-empty fragments of one slot would leave a byte too few. -/
private theorem slot_ne_of_cover (hpos : ∀ f ∈ l, 0 < len f) {a b : Fin l.length} (hab : a ≠ b)
    (hle : len l[a] ≤ len l[b]) : slot l[a] ≠ slot l[b] := by
  intro hslot
  have hfits := len_le_of_cover hcover
  have hsub : Finset.range (total len l) ⊆
      (Finset.univ.erase a).biUnion fun j : Fin l.length => dataRange slot len B l[j] := by
    intro i hi
    obtain ⟨j, _, hj⟩ := Finset.mem_biUnion.mp (range_subset hcover hi)
    by_cases hja : j = a
    · refine Finset.mem_biUnion.mpr ⟨b, by simp [hab.symm], ?_⟩
      subst hja
      simp only [dataRange, Finset.mem_Ico, hslot] at hj ⊢
      omega
    · exact Finset.mem_biUnion.mpr ⟨j, by simp [hja], hj⟩
  have hcard := (Finset.card_le_card hsub).trans Finset.card_biUnion_le
  have hsum := Finset.add_sum_erase Finset.univ (fun j : Fin l.length => len l[j])
    (Finset.mem_univ a)
  have hmin : ∑ j ∈ Finset.univ.erase a, (dataRange slot len B l[j]).card ≤
      ∑ j ∈ Finset.univ.erase a, len l[j] := by
    apply Finset.sum_le_sum
    intro j _
    rw [card_dataRange]
    exact Nat.min_le_left _ _
  have ha := hpos l[a] (List.getElem_mem _)
  rw [Finset.card_range, total_eq_sum] at hcard
  omega

private theorem nodup_slots (hpos : ∀ f ∈ l, 0 < len f) : (l.map slot).Nodup := by
  rw [List.Nodup, List.pairwise_map, List.pairwise_iff_getElem]
  intro i j hi hj hij
  have hne : (⟨i, hi⟩ : Fin l.length) ≠ ⟨j, hj⟩ := by
    intro h
    have := congrArg Fin.val h
    simp only at this
    omega
  rcases Nat.le_total (len l[i]) (len l[j]) with hle | hle
  · exact slot_ne_of_cover hcover hpos hne hle
  · exact (slot_ne_of_cover hcover hpos hne.symm hle).symm

/-- A slot holds a non-empty fragment exactly when it begins before the
    computed length. -/
private theorem mem_slots_iff (hB : 0 < B) (hpos : ∀ f ∈ l, 0 < len f) (s : Nat) :
    s ∈ l.map slot ↔ B * s < total len l := by
  constructor
  · intro hs
    obtain ⟨f, hf, rfl⟩ := List.mem_map.mp hs
    apply lt_total_of_mem hcover hf
    have := hpos f hf
    simp only [dataRange, Finset.mem_Ico]
    omega
  · intro hs
    obtain ⟨f, hf, hmem⟩ := hcover _ hs
    refine List.mem_map.mpr ⟨f, hf, ?_⟩
    rw [slot_of_mem hmem, Nat.mul_div_cancel_left _ hB]

/-- A non-empty fragment that is not the last one is full: the last byte of its
    slot has to come from it. -/
private theorem full_of_cover (hB : 0 < B) (hpos : ∀ f ∈ l, 0 < len f) {f : α} (hf : f ∈ l)
    (hnext : slot f + 1 ∈ l.map slot) : B ≤ len f := by
  have hlt := (mem_slots_iff hcover hB hpos _).mp hnext
  rw [Nat.mul_succ] at hlt
  obtain ⟨g, hg, hmem⟩ := hcover (B * slot f + (B - 1)) (by omega)
  have hslot : slot g = slot f := by
    rw [slot_of_mem hmem, Nat.mul_add_div hB, Nat.div_eq_of_lt (by omega), Nat.add_zero]
  obtain rfl := List.inj_on_of_nodup_map (nodup_slots hcover hpos) hg hf hslot
  simp only [dataRange, Finset.mem_Ico] at hmem
  omega

end Cover

/-! ### The tiling theorem -/

/-- Different numbers that form a lower set are the first numbers in some order. -/
private theorem perm_range_of_lower {s : List Nat} (hnodup : s.Nodup)
    (hlower : ∀ a b, a ≤ b → b ∈ s → a ∈ s) : s.Perm (List.range s.length) := by
  have hbound : ∀ a ∈ s, a < s.length := by
    intro a ha
    have hsub : List.range (a + 1) ⊆ s := by
      intro b hb
      exact hlower b a (by simpa [Nat.lt_succ_iff] using hb) ha
    have hlen := (List.subperm_of_subset List.nodup_range hsub).length_le
    simp only [List.length_range] at hlen
    omega
  have hsubperm := List.subperm_of_subset hnodup fun a ha => List.mem_range.mpr (hbound a ha)
  exact hsubperm.perm_of_length_le (by simp)

/-- In a tiling the slot a position falls in reaches up to that position. -/
private theorem exists_writes_of_tiled (hB : 0 < B) {l : List α} (htiled : Tiled slot len B l)
    {i : Nat} (hi : i < total len l) : ∃ f ∈ l, Writes slot len B f i := by
  have hfits : ∀ f ∈ nonempty len l, len f ≤ B :=
    fun f hf => htiled.fits f (mem_nonempty.mp hf).1
  rw [← total_nonempty] at hi
  have hcount := total_le _ hfits
  have hslot : i / B < (nonempty len l).length := by
    rw [Nat.div_lt_iff_lt_mul hB, Nat.mul_comm]
    omega
  obtain ⟨f, hf, hfslot⟩ := List.mem_map.mp
    (htiled.slots.mem_iff.mpr (List.mem_range.mpr hslot))
  have hdiv := Nat.div_add_mod i B
  have hmod := Nat.mod_lt i hB
  rw [← hfslot] at hdiv hslot
  refine ⟨f, (mem_nonempty.mp hf).1, by omega, ?_⟩
  by_cases hnext : slot f + 1 < (nonempty len l).length
  · rw [htiled.full f hf hnext]
    omega
  · -- the last slot: all the other fragments together hold at most the slots before it
    obtain ⟨before, after, hsplit⟩ := List.append_of_mem hf
    rw [hsplit] at hi hfits hslot hnext
    have hbefore := total_le before fun g hg => hfits g (by simp [hg])
    have hafter := total_le after fun g hg => hfits g (by simp [hg])
    have hsum : total len (before ++ f :: after) =
        total len before + (len f + total len after) := by
      simp [total]
    have hlength : slot f = before.length + after.length := by
      simp only [List.length_append, List.length_cons] at hslot hnext
      omega
    have hmul : B * slot f = B * before.length + B * after.length := by
      rw [hlength, Nat.mul_add]
    omega

private theorem mem_dataRange_of_writes {f : α} {i : Nat} (hw : Writes slot len B f i)
    (hdata : i - B * slot f < B) : i ∈ dataRange slot len B f := by
  simp only [Writes] at hw
  simp only [dataRange, Finset.mem_Ico]
  omega

theorem tiled_of_fresh (hB : 0 < B) {l : List α}
    (hfresh : ∀ i < total len l, Fresh slot len B l i) : Tiled slot len B l := by
  have hcover : ∀ i < total len l, ∃ f ∈ l, i ∈ dataRange slot len B f := by
    intro i hi
    obtain ⟨f, hlast, hdata⟩ := hfresh i hi
    obtain ⟨hf, hw⟩ := lastWriter_some hlast
    exact ⟨f, hf, mem_dataRange_of_writes hw hdata⟩
  -- the empty fragments cover nothing, so the counting can leave them out
  have hcover' : ∀ i < total len (nonempty len l), ∃ f ∈ nonempty len l,
      i ∈ dataRange slot len B f := by
    intro i hi
    rw [total_nonempty] at hi
    obtain ⟨f, hf, hmem⟩ := hcover i hi
    refine ⟨f, mem_nonempty.mpr ⟨hf, ?_⟩, hmem⟩
    simp only [dataRange, Finset.mem_Ico] at hmem
    omega
  have hpos : ∀ f ∈ nonempty len l, 0 < len f := fun f hf => (mem_nonempty.mp hf).2
  have hnodup := nodup_slots hcover' hpos
  have hmem := mem_slots_iff hcover' hB hpos
  have hlower : ∀ s t, s ≤ t → t ∈ (nonempty len l).map slot →
      s ∈ (nonempty len l).map slot := by
    intro s t hst ht
    rw [hmem] at ht ⊢
    exact Nat.lt_of_le_of_lt (Nat.mul_le_mul_left B hst) ht
  have hslots := perm_range_of_lower hnodup hlower
  rw [List.length_map] at hslots
  refine ⟨len_le_of_cover hcover, hslots, ?_⟩
  intro f hf hnext
  have hin : slot f + 1 ∈ (nonempty len l).map slot := hslots.mem_iff.mpr (by simpa using hnext)
  exact Nat.le_antisymm (len_le_of_cover hcover f (mem_nonempty.mp hf).1)
    (full_of_cover hcover' hB hpos hf hin)

theorem fresh_of_tiled (hB : 0 < B) {l : List α} (htiled : Tiled slot len B l) :
    ∀ i < total len l, Fresh slot len B l i := by
  intro i hi
  obtain ⟨f, hf, hw⟩ := exists_writes_of_tiled hB htiled hi
  obtain ⟨g, hg⟩ := exists_lastWriter hf hw
  have hw' := (lastWriter_some hg).2
  have hfits := htiled.fits g (lastWriter_some hg).1
  refine ⟨g, hg, ?_⟩
  simp only [Writes] at hw'
  omega

/-- **The computed length is right exactly when the fragments tile the message.** -/
theorem tiled_iff_fresh (hB : 0 < B) {l : List α} :
    (∀ i < total len l, Fresh slot len B l i) ↔ Tiled slot len B l :=
  ⟨tiled_of_fresh hB, fresh_of_tiled hB⟩

end SlotTiling
