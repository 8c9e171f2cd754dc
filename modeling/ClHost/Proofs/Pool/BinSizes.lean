import ClHost.Pool.Basic
import Mathlib.Algebra.Order.Ring.Nat
import Mathlib.Order.Bounds.Defs

/-!
# Sizes and their bins

A size belongs to the bin of its five leading bits: the place of the first one and the four bits after it.
-/

namespace ClHost.Log2

open Nat

lemma log8_eq : ∀ v < 2 ^ 8, log8 v = v.log2 := by
  have hsize : table.size = 2 ^ 8 := by decide +kernel
  have hall : ∀ x ∈ table.toList.zipIdx, x.1 = x.2.log2 := by decide +kernel
  intro v h
  rw [← hsize] at h
  rw [log8, Array.getD_eq_getD_getElem?, Array.getElem?_eq_getElem h]
  exact hall (table[v], v) (List.mk_mem_zipIdx_iff_getElem?.2 (by simp [h]))

lemma log2_of_high {v k : Nat} (h : v / 2 ^ k ≠ 0) : v.log2 = k + (v / 2 ^ k).log2 := by
  have hv : v ≠ 0 := by
    rintro rfl
    simp at h
  have low := log2_self_le h
  have high := lt_log2_self (n := v / 2 ^ k)
  rw [log2_eq_iff hv]
  constructor
  · rw [pow_add, mul_comm]
    exact (Nat.le_div_iff_mul_le (Nat.two_pow_pos k)).1 low
  · rw [Nat.add_assoc, Nat.pow_add, Nat.mul_comm]
    exact (Nat.div_lt_iff_lt_mul (Nat.two_pow_pos k)).1 high

lemma halves_eq {log : Nat → Nat} {k : Nat} (hlog : ∀ v < 2 ^ k, log v = v.log2) (v : Nat)
    (h : v < 2 ^ (k + k)) : (if v / 2 ^ k != 0 then k + log (v / 2 ^ k) else log v) = v.log2 := by
  have hhigh : v / 2 ^ k < 2 ^ k := by
    rw [Nat.div_lt_iff_lt_mul (Nat.two_pow_pos k), ← Nat.pow_add]
    exact h
  by_cases hz : v / 2 ^ k = 0
  · have hlow : v < 2 ^ k := (Nat.div_eq_zero_iff_lt (Nat.two_pow_pos k)).1 hz
    simp [hz, hlog v hlow]
  · simp [hz, hlog _ hhigh, log2_of_high hz]

lemma log16_eq : ∀ v < 2 ^ 16, log16 v = v.log2 := halves_eq log8_eq

lemma log32_eq : ∀ v < 2 ^ 32, log32 v = v.log2 := halves_eq log16_eq

/-- **The table finds the leading bit of every word.** -/
lemma log64_eq : ∀ v < 2 ^ 64, log64 v = v.log2 := halves_eq log32_eq

/-- **The logarithm of a word**, other than zero, is the place of its leading bit. -/
theorem log64_bounds (v : Nat) (hpos : 1 ≤ v) (h : v < 2 ^ 64) : 2 ^ log64 v ≤ v ∧ v < 2 ^ (log64 v + 1) := by
  rw [log64_eq v h]
  exact ⟨log2_self_le (by omega), lt_log2_self⟩

theorem log64_bounds_last :
    1 ≤ 2 ^ 64 - 1 ∧ 2 ^ log64 (2 ^ 64 - 1) ≤ 2 ^ 64 - 1 ∧ 2 ^ 64 - 1 < 2 ^ (log64 (2 ^ 64 - 1) + 1) :=
  ⟨by decide, log64_bounds (2 ^ 64 - 1) (by decide) (by decide)⟩

end ClHost.Log2

namespace ClHost.Pool

open Nat

lemma word32_eq : word32 = 2 ^ 32 := rfl

/-! ## The number of a bin -/

def lead (s : Nat) : Nat := if 4 ≤ s.log2 then s / 2 ^ (s.log2 - 4) else s * 2 ^ (4 - s.log2)

variable {s c l m : Nat}

lemma lead_bounds (h : s ≠ 0) : 16 ≤ lead s ∧ lead s < 32 := by
  have low := log2_self_le h
  have high := lt_log2_self (n := s)
  unfold lead
  split
  · rename_i hl
    have hpow : 2 ^ s.log2 = 16 * 2 ^ (s.log2 - 4) := by
      rw [show s.log2 = 4 + (s.log2 - 4) by omega, pow_add]
      simp
    rw [hpow] at low
    constructor
    · exact (Nat.le_div_iff_mul_le (Nat.two_pow_pos _)).2 low
    · exact (Nat.div_lt_iff_lt_mul (Nat.two_pow_pos _)).2 (by omega)
  · rename_i hl
    have hpow : 2 ^ s.log2 * 2 ^ (4 - s.log2) = 16 := by
      rw [← Nat.pow_add, show s.log2 + (4 - s.log2) = 4 by omega]
    constructor
    · rw [← hpow]
      exact mul_le_mul_right _ low
    · calc s * 2 ^ (4 - s.log2) < 2 ^ (s.log2 + 1) * 2 ^ (4 - s.log2) :=
            Nat.mul_lt_mul_of_pos_right high (Nat.two_pow_pos _)
        _ = 32 := by rw [Nat.pow_succ, Nat.mul_right_comm, hpow]

lemma lead_lt (s : Nat) : lead s < 32 := by
  by_cases h : s = 0
  · subst h
    decide
  · exact (lead_bounds h).2

lemma log2_lt_64 (h : s < 2 ^ 64) : s.log2 < 64 := by
  by_cases hs : s = 0
  · subst hs
    decide
  · exact (log2_lt hs).2 h

/-- **The bin of a size**: the place of its leading bit, then the four bits after it. -/
lemma binNumber_eq (h : s < 2 ^ 64) : binNumber 4 s = .ok (16 * s.log2 + lead s % 16) := by
  have hlead := lead_lt s
  have hlog := log2_lt_64 h
  have hshift : (if 4 ≤ s.log2 then s / 2 ^ (s.log2 - 4) else s * 2 ^ (4 - s.log2) % word64) = lead s := by
    unfold lead at hlead ⊢
    split
    · rfl
    · rename_i hl
      rw [if_neg hl] at hlead
      exact mod_eq_of_lt (lt_trans hlead (by decide))
  have hbit : (s != 0 && lead s / 2 ^ 4 % 2 == 0) = false := by
    by_cases hs : s = 0
    · simp [hs]
    · have := lead_bounds hs
      rw [show lead s / 2 ^ 4 % 2 = 1 by omega]
      simp
  have hor : s.log2 * 2 ^ 4 ||| lead s % 2 ^ 4 = 16 * s.log2 + lead s % 16 := by
    rw [mul_comm, ← two_pow_add_eq_or_of_lt (mod_lt _ (by decide))]
  unfold binNumber
  simp only [pow_eq, Log2.log64_eq s h, hshift, hbit, hor]
  rw [mod_eq_of_lt (by rw [word32_eq]; omega)]
  rfl

/-! ## The size asked for -/

def onesBelow (c : Nat) : Nat := widenSigned (2 ^ c) - 1

lemma onesBelow_of_lt (h : c < 31) : onesBelow c = 2 ^ c - 1 := by
  have : 2 ^ c < 2 ^ 31 := Nat.pow_lt_pow_right (by decide) h
  rw [onesBelow, widenSigned, Nat.pow_eq, if_pos this]

lemma onesBelow_lt (h : c < 32) : onesBelow c < 2 ^ 64 := by
  by_cases hc : c < 31
  · have : 2 ^ c < 2 ^ 31 := Nat.pow_lt_pow_right (by decide) hc
    rw [onesBelow_of_lt hc]
    omega
  · obtain rfl : c = 31 := by omega
    decide

lemma head_shift (q : Nat) (h : c ≤ 32) : q * 2 ^ c % word32 = 2 ^ c * (q % 2 ^ (32 - c)) := by
  rw [word32_eq, show 2 ^ 32 = 2 ^ (32 - c) * 2 ^ c by rw [← Nat.pow_add, Nat.sub_add_cancel h],
    Nat.mul_mod_mul_right, Nat.mul_comm]

/-- Below the head there is room for the ones, also where the head lost its leading bits and where the ones
spread over the upper half of the word. -/
lemma head_ones_disjoint (q : Nat) (h : c < 32) : onesBelow c &&& (q * 2 ^ c % word32) = 0 := by
  rw [head_shift q (le_of_lt h)]
  by_cases hc : c < 31
  · rw [onesBelow_of_lt hc, Nat.and_comm, Nat.and_two_pow_sub_one_eq_mod, Nat.mul_mod_right]
  · obtain rfl : c = 31 := by omega
    rw [show 2 ^ (32 - 31) = 2 from rfl]
    rcases Nat.mod_two_eq_zero_or_one q with hq | hq
    · rw [hq]; decide
    · rw [hq]; decide

lemma exponent_eq (hm : m < 16) : (16 * l + m) / 2 ^ 4 = l := by omega

lemma mantissa_eq (hm : m < 16) : (16 * l + m) % 2 ^ 4 = m := by omega

lemma head_eq {m : Nat} (hm : m < 16) : 2 ^ 4 % word32 ||| m = 16 + m := by
  have := two_pow_add_eq_or_of_lt (i := 4) hm 1
  simpa [word32] using this.symm

lemma allocSize_of_low (hl : l < 4) (hm : m < 16) : allocSize 4 (16 * l + m) = .ok ((16 + m) / 2 ^ (4 - l)) := by
  have hcnt : (l : Int) - (4 : Nat) < 0 := by omega
  have hneg : (-((l : Int) - (4 : Nat))).toNat % 32 = 4 - l := by omega
  have hone : 1 / 2 ^ (4 - l) = 0 :=
    Nat.div_eq_of_lt (Nat.one_lt_two_pow (by omega))
  unfold allocSize shift32
  simp only [Nat.pow_eq, exponent_eq hm, mantissa_eq hm, head_eq hm, if_pos hcnt, hneg, hone]
  simp [widenSigned]

lemma allocSize_of_high (hl : 4 ≤ l) (hm : m < 16) : allocSize 4 (16 * l + m) =
      .ok ((16 + m) * 2 ^ ((l - 4) % 32) % word32 ||| onesBelow ((l - 4) % 32)) := by
  have hcnt : ¬ (l : Int) - (4 : Nat) < 0 := by omega
  have hshift : ((l : Int) - (4 : Nat)).toNat % 32 = (l - 4) % 32 := by omega
  have hc : (l - 4) % 32 < 32 := mod_lt _ (by decide)
  have hpow : 2 ^ ((l - 4) % 32) % word32 = 2 ^ ((l - 4) % 32) :=
    Nat.mod_eq_of_lt (Nat.pow_lt_pow_right (by decide) hc)
  have hpos : widenSigned (2 ^ ((l - 4) % 32)) ≠ 0 := by
    have := Nat.two_pow_pos ((l - 4) % 32)
    rw [widenSigned]
    split <;> omega
  unfold allocSize shift32
  simp only [pow_eq, exponent_eq hm, mantissa_eq hm, head_eq hm, if_neg hcnt, hshift, one_mul, hpow,
    beq_iff_eq, hpos, if_false]
  have := head_ones_disjoint (16 + m) hc
  unfold onesBelow at this ⊢
  simp [this]

/-! ## From a size to its bin and back -/

lemma lead_eq (s : Nat) : lead s = s / 2 ^ (s.log2 - 4) * 2 ^ (4 - s.log2) := by
  unfold lead
  split
  · rename_i hl
    rw [show 4 - s.log2 = 0 by omega, pow_zero, mul_one]
  · rename_i hl
    rw [show s.log2 - 4 = 0 by omega, pow_zero, Nat.div_one]

/-- The largest size with the leading bits of `s`. -/
def largest (s : Nat) : Nat := 2 ^ (s.log2 - 4) * (s / 2 ^ (s.log2 - 4)) + (2 ^ (s.log2 - 4) - 1)

lemma le_largest {t : Nat} (h : t / 2 ^ (s.log2 - 4) = s / 2 ^ (s.log2 - 4)) : t ≤ largest s := by
  have hmod := mod_lt t (Nat.two_pow_pos (s.log2 - 4))
  have hsum := div_add_mod t (2 ^ (s.log2 - 4))
  rw [largest, ← h]
  omega

lemma largest_div (s : Nat) : largest s / 2 ^ (s.log2 - 4) = s / 2 ^ (s.log2 - 4) := by
  have hpos := Nat.two_pow_pos (s.log2 - 4)
  have hlow : 2 ^ (s.log2 - 4) - 1 < 2 ^ (s.log2 - 4) := by omega
  rw [largest, mul_add_div hpos, div_eq_of_lt hlow, add_zero]

lemma log2_largest (hs : s ≠ 0) : (largest s).log2 = s.log2 := by
  have hle := le_largest (s := s) rfl
  rw [log2_eq_iff (by omega)]
  refine ⟨le_trans (log2_self_le hs) hle, ?_⟩
  -- the leading bit is at the same place, since no more than `s.log2 - 4` bits were filled up
  have hpow : 2 ^ (s.log2 + 1) = 2 ^ (s.log2 + 1 - (s.log2 - 4)) * 2 ^ (s.log2 - 4) := by
    rw [← pow_add, Nat.sub_add_cancel (by omega)]
  rw [hpow, ← Nat.div_lt_iff_lt_mul (Nat.two_pow_pos _), largest_div, Nat.div_lt_iff_lt_mul (Nat.two_pow_pos _), ← hpow]
  exact lt_log2_self

lemma lead_largest (hs : s ≠ 0) : lead (largest s) = lead s := by
  rw [lead_eq, lead_eq, log2_largest hs, largest_div]

lemma allocSize_bin (hs : s ≠ 0) (h : s < 2 ^ 32) : allocSize 4 (16 * s.log2 + lead s % 16) = .ok (largest s) := by
  have hm : lead s % 16 < 16 := mod_lt _ (by decide)
  have hq : 16 + lead s % 16 = lead s := by
    have := lead_bounds hs
    omega
  have hlead := lead_eq s
  by_cases hl : s.log2 < 4
  · -- the size has at most four bits, so that the head is the size itself
    rw [allocSize_of_low hl hm, hq, hlead, Nat.mul_div_cancel _ (Nat.two_pow_pos _), largest,
      show s.log2 - 4 = 0 by omega]
    simp
  · have hlog : s.log2 < 32 := (Nat.log2_lt hs).2 h
    rw [show 4 - s.log2 = 0 by omega, pow_zero, mul_one] at hlead
    have hfit : lead s * 2 ^ (s.log2 - 4) < word32 := by
      rw [hlead]
      exact Nat.lt_of_le_of_lt (Nat.div_mul_le_self s _) h
    have hpos := Nat.two_pow_pos (s.log2 - 4)
    rw [allocSize_of_high (by omega) hm, hq, show (s.log2 - 4) % 32 = s.log2 - 4 by omega,
      onesBelow_of_lt (by omega), mod_eq_of_lt hfit, mul_comm, ← two_pow_add_eq_or_of_lt (by omega), hlead, largest]

lemma allocSize_binNumber_of_lt (h : s < 2 ^ 32) :
    ∃ n, allocSize 4 (16 * s.log2 + lead s % 16) = .ok n ∧ s ≤ n ∧ n < 2 ^ 32 ∧
      n.log2 = s.log2 ∧ lead n % 16 = lead s % 16 := by
  by_cases hs : s = 0
  · subst hs
    exact ⟨1, by decide⟩
  have hlog := log2_largest hs
  have hlt : (largest s).log2 < 32 := hlog ▸ (Nat.log2_lt hs).2 h
  have hle := le_largest (s := s) rfl
  exact ⟨_, allocSize_bin hs h, hle, (Nat.log2_lt (by omega)).1 hlt, hlog, by rw [lead_largest hs]⟩

/-- Sizes from `2 ^ 32` on: the head has lost its leading bit. -/
lemma allocSize_binNumber_of_ge (h : 2 ^ 32 ≤ s) : ∃ n, allocSize 4 (16 * s.log2 + lead s % 16) = .ok n ∧ n < 2 ^ 64 ∧
      (s.log2 % 32 ≠ 3 → n < 2 ^ 32) ∧ (s.log2 % 32 = 3 → 2 ^ 63 ≤ n) := by
  have hs : s ≠ 0 := by omega
  have hlog : 32 ≤ s.log2 := (le_log2 hs).2 h
  have hc : (s.log2 - 4) % 32 < 32 := mod_lt _ (by decide)
  have hhead : (16 + lead s % 16) * 2 ^ ((s.log2 - 4) % 32) % word32 < 2 ^ 32 := mod_lt _ (by decide)
  refine ⟨_, allocSize_of_high (by omega) (mod_lt _ (by decide)), ?_, ?_, ?_⟩
  · exact or_lt_two_pow (lt_trans hhead (by decide)) (onesBelow_lt hc)
  · intro hne
    have hlt : 2 ^ ((s.log2 - 4) % 32) < 2 ^ 31 := Nat.pow_lt_pow_right (by decide) (by omega)
    refine Nat.or_lt_two_pow hhead ?_
    rw [onesBelow_of_lt (by omega)]
    omega
  · intro he
    rw [show (s.log2 - 4) % 32 = 31 by omega]
    have htop : 2 ^ 63 ≤ onesBelow 31 := by decide
    exact le_trans htop right_le_or

lemma log2_eq_of_ge {n : Nat} (h : 2 ^ 63 ≤ n) (h' : n < 2 ^ 64) : n.log2 = 63 := (log2_eq_iff (by omega)).2 ⟨h, h'⟩

/-- **Sizes and what is asked for them.** For every 64-bit size both functions of bins have a result. The
size asked for is of the same bin exactly for sizes below `2 ^ 32`; apart from these it is large enough
only where the leading bit is at place 35. -/
theorem allocSize_binNumber_iff (s : Nat) (h : s < 2 ^ 64) :
    ∃ bin n, binNumber 4 s = .ok bin ∧ allocSize 4 bin = .ok n ∧
      (s ≤ n ↔ s < 2 ^ 32 ∨ 2 ^ 35 ≤ s ∧ s < 2 ^ 36) ∧
      (binNumber 4 n = .ok bin ↔ s < 2 ^ 32) := by
  have hlog := log2_lt_64 h
  rcases Nat.lt_or_ge s (2 ^ 32) with hs | hs
  · obtain ⟨n, hn, hle, hlt, hlog', hlead⟩ := allocSize_binNumber_of_lt hs
    refine ⟨_, n, binNumber_eq h, hn, iff_of_true hle (Or.inl hs), iff_of_true ?_ hs⟩
    rw [binNumber_eq (by omega), hlog', hlead]
  · obtain ⟨n, hn, hlt, hsmall, hbig⟩ := allocSize_binNumber_of_ge hs
    have hlog32 : 32 ≤ s.log2 := (Nat.le_log2 (by omega)).2 hs
    have hplace : s.log2 = 35 ↔ 2 ^ 35 ≤ s ∧ s < 2 ^ 36 := Nat.log2_eq_iff (by omega)
    refine ⟨_, n, binNumber_eq h, hn, ?_, ?_⟩
    · rw [← hplace]
      by_cases he : s.log2 = 35
      · have := hbig (by omega)
        have := hplace.1 he
        omega
      · have := hsmall (by omega)
        omega
    · have hne : n.log2 ≠ s.log2 := by
        by_cases he : s.log2 = 35
        · rw [log2_eq_of_ge (hbig (by omega)) hlt, he]
          decide
        · have hn32 : n.log2 < 32 := by
            by_cases hz : n = 0
            · subst hz
              decide
            · exact (Nat.log2_lt hz).2 (hsmall (by omega))
          omega
      rw [binNumber_eq hlt]
      simp only [Except.ok.injEq]
      omega

theorem allocSize_binNumber_two_pow_32 :
    2 ^ 32 < 2 ^ 64 ∧ ∃ bin n, binNumber 4 (2 ^ 32) = .ok bin ∧ allocSize 4 bin = .ok n ∧
      ¬ 2 ^ 32 ≤ n ∧ binNumber 4 n ≠ .ok bin := by
  obtain ⟨bin, n, hbin, hn, hle, hsame⟩ := allocSize_binNumber_iff (2 ^ 32) (by decide)
  refine ⟨by decide, bin, n, hbin, hn, ?_, ?_⟩
  · rw [hle]
    decide
  · rw [ne_eq, hsame]
    decide

/-! ## The order of bins -/

variable {t : Nat}

lemma bin_mono (hs : s ≠ 0) (h : s ≤ t) : 16 * s.log2 + lead s % 16 ≤ 16 * t.log2 + lead t % 16 := by
  have hlog : s.log2 ≤ t.log2 := (le_log2 (by omega)).2 (le_trans (log2_self_le hs) h)
  have hbds := lead_bounds hs
  have hbds' := lead_bounds (s := t) (by omega)
  rcases Nat.lt_or_eq_of_le hlog with hlt | heq
  · omega
  · have hlead : lead s ≤ lead t := by
      rw [lead_eq, lead_eq, heq]
      exact Nat.mul_le_mul_right _ (Nat.div_le_div_right h)
    omega

lemma le_largest_of_bin (hs : s ≠ 0) (h : 16 * t.log2 + lead t % 16 = 16 * s.log2 + lead s % 16) : t ≤ largest s := by
  by_cases ht : t = 0
  · omega
  have hbds := lead_bounds hs
  have hbds' := lead_bounds ht
  have hlog : t.log2 = s.log2 := by omega
  have hlead : lead t = lead s := by omega
  rw [lead_eq, lead_eq, hlog] at hlead
  exact le_largest (Nat.eq_of_mul_eq_mul_right (Nat.two_pow_pos _) hlead)

lemma largest_le (hs : s ≠ 0) : 16 * largest s ≤ 17 * s := by
  have hbds := lead_bounds hs
  have hsum := div_add_mod s (2 ^ (s.log2 - 4))
  rw [lead_eq] at hbds
  unfold largest
  by_cases hl : 4 ≤ s.log2
  · rw [show 4 - s.log2 = 0 by omega, pow_zero, mul_one] at hbds
    have hhead := Nat.mul_le_mul_left (2 ^ (s.log2 - 4)) hbds.1
    omega
  · rw [show s.log2 - 4 = 0 by omega] at hsum ⊢
    omega

/-- **Bins are tight intervals.** Sizes below `2 ^ 32` are in bins in the order of the sizes. What is asked for a size is
the largest one of its bin, and this is larger by at most one part in sixteen. -/
theorem allocSize_greatest (s t : Nat) (hs : 1 ≤ s) (hs' : s < 2 ^ 32) (ht : t < 2 ^ 32) :
    ∃ bin bin' n, binNumber 4 s = .ok bin ∧ binNumber 4 t = .ok bin' ∧ (s ≤ t → bin ≤ bin') ∧
      allocSize 4 bin = .ok n ∧ IsGreatest {u | u < 2 ^ 32 ∧ binNumber 4 u = .ok bin} n ∧ 16 * n ≤ 17 * s := by
  have hne : s ≠ 0 := by omega
  have hbin {u : Nat} (hu : u < 2 ^ 32) := binNumber_eq (s := u) (by omega)
  obtain ⟨n, hn, -, hlt, hlog, hlead⟩ := allocSize_binNumber_of_lt hs'
  obtain rfl : largest s = n := Except.ok.inj (allocSize_bin hne hs' ▸ hn)
  refine ⟨_, _, _, hbin hs', hbin ht, bin_mono hne, hn, ⟨⟨hlt, ?_⟩, ?_⟩, largest_le hne⟩
  · rw [hbin hlt, hlog, hlead]
  · rintro u ⟨hu, hsame⟩
    rw [hbin hu, Except.ok.injEq] at hsame
    exact le_largest_of_bin hne hsame

theorem allocSize_greatest_32 :
    ∃ bin bin' n, binNumber 4 32 = .ok bin ∧ binNumber 4 33 = .ok bin' ∧ (32 ≤ 33 → bin ≤ bin') ∧
      allocSize 4 bin = .ok n ∧ IsGreatest {u | u < 2 ^ 32 ∧ binNumber 4 u = .ok bin} n ∧ 16 * n ≤ 17 * 32 :=
  allocSize_greatest 32 33 (by decide) (by decide) (by decide)

end ClHost.Pool
