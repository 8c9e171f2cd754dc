import Mathlib.Algebra.Group.End
import Mathlib.Data.Fin.Basic
import Mathlib.Tactic.IntervalCases
import Mathlib.Tactic.Linarith
import Mathlib.Tactic.Ring

/-!
# Bitonic networks

A line is a function of its positions. In a round of comparisons the positions of a line are paired at a distance, and
each pair is put in order, ascending or descending.
-/

namespace ClHost.Bitonic

open Nat

variable {α κ : Type} {n : Nat}

/-! ## Windows of truth values -/

def Window (n : Nat) (f : Nat → Prop) : Prop :=
  ∃ low high, (∀ i < n, f i ↔ low ≤ i ∧ i < high) ∨ ∀ i < n, f i ↔ ¬(low ≤ i ∧ i < high)

lemma Window.congr {f g : Nat → Prop} (h : Window n f) (hfg : ∀ i < n, g i ↔ f i) : Window n g := by
  obtain ⟨low, high, h | h⟩ := h
  · exact ⟨low, high, .inl fun i hi => (hfg i hi).trans (h i hi)⟩
  · exact ⟨low, high, .inr fun i hi => (hfg i hi).trans (h i hi)⟩

variable {f : Nat → Prop}

lemma Window.not (h : Window n f) : Window n fun i => ¬f i := by
  obtain ⟨low, high, h | h⟩ := h
  · exact ⟨low, high, .inr fun i hi => not_congr (h i hi)⟩
  · exact ⟨low, high, .inl fun i hi => (not_congr (h i hi)).trans not_not⟩

lemma Window.and (h : Window (2 * n) f) : Window n fun i => f i ∧ f (n + i) := by
  obtain ⟨low, high, h | h⟩ := h
  · have hboth := fun i (hi : i < n) => and_congr (h i (by omega)) (h (n + i) (by omega))
    exact ⟨low, high - n, .inl fun i hi => (hboth i hi).trans (by omega)⟩
  · have hboth := fun i (hi : i < n) => and_congr (h i (by omega)) (h (n + i) (by omega))
    -- The false values lie in one half, or they fill up both, or they leave a window between them.
    rcases lt_or_ge n high with hhigh | hhigh
    · rcases lt_or_ge low n with hlow | hlow
      · rcases lt_or_ge (high - n) low with hmeet | hmeet
        · exact ⟨high - n, low, .inl fun i hi => (hboth i hi).trans (by omega)⟩
        · exact ⟨0, n, .inr fun i hi => (hboth i hi).trans (by omega)⟩
      · exact ⟨low - n, high - n, .inr fun i hi => (hboth i hi).trans (by omega)⟩
    · exact ⟨low, high, .inr fun i hi => (hboth i hi).trans (by omega)⟩

lemma Window.or (h : Window (2 * n) f) : Window n fun i => f i ∨ f (n + i) := h.not.and.not.congr fun i _ => by tauto

lemma Window.halves (h : Window (2 * n) f) : (∀ i < n, ¬(f i ∧ f (n + i))) ∨ ∀ i < n, f i ∨ f (n + i) := by
  obtain ⟨low, high, h | h⟩ := h <;> rcases lt_or_ge low (min n (high - n)) with hmeet | hmeet
  · exact .inr fun i hi => (or_congr (h i (by omega)) (h (n + i) (by omega))).2 (by omega)
  · exact .inl fun i hi => mt (and_congr (h i (by omega)) (h (n + i) (by omega))).1 (by omega)
  · exact .inl fun i hi => mt (and_congr (h i (by omega)) (h (n + i) (by omega))).1 (by omega)
  · exact .inr fun i hi => (or_congr (h i (by omega)) (h (n + i) (by omega))).2 (by omega)

lemma exists_of_rises (hup : ∀ i j, i ≤ j → j < n → f i → f j) : ∃ low ≤ n, ∀ i < n, f i ↔ low ≤ i := by
  classical
  by_cases h : ∃ i, i < n ∧ f i
  · obtain ⟨hlow, hf⟩ := Nat.find_spec h
    refine ⟨Nat.find h, hlow.le, fun i hi => ⟨fun hfi => Nat.find_min' h ⟨hi, hfi⟩, fun hle => ?_⟩⟩
    exact hup _ i hle hi hf
  · exact ⟨n, le_rfl, fun i hi => ⟨fun hfi => absurd ⟨i, hi, hfi⟩ h, fun hle => absurd hle (by omega)⟩⟩

lemma window_of_rises (hup : ∀ i j, i ≤ j → j < n → f i → f j) : Window n f := by
  obtain ⟨low, -, h⟩ := exists_of_rises hup
  exact ⟨low, n, .inl fun i hi => (h i hi).trans (by omega)⟩

lemma window_of_rises_falls (hup : ∀ i j, i ≤ j → j < n → f i → f j)
    (hdown : ∀ i j, i ≤ j → j < n → f (n + j) → f (n + i)) : Window (2 * n) f := by
  obtain ⟨low, hlow, h⟩ := exists_of_rises hup
  obtain ⟨high, hhigh, h'⟩ := exists_of_rises (f := fun i => ¬f (n + i)) fun i j hij hj => mt (hdown i j hij hj)
  refine ⟨low, n + high, .inl fun i hi => ?_⟩
  rcases lt_or_ge i n with hin | hin
  · rw [h i hin]
    omega
  · have hi' := not_congr (h' (i - n) (by omega))
    rw [not_not, Nat.add_sub_cancel' hin] at hi'
    rw [hi']
    omega

/-! ## Rounds of comparisons -/

section Rounds

variable [LinearOrder κ] {key : α → κ} {up : Nat → Prop}

def Ordered (key : α → κ) (up : Prop) (a b a' b' : α) : Prop :=
  (a' = a ∧ b' = b ∨ a' = b ∧ b' = a) ∧ (up → key a' ≤ key b') ∧ (¬up → key b' ≤ key a')

/-- What a round at a distance may do to a line of a length. -/
def Round (n : Nat) (key : α → κ) (up : Nat → Prop) (d : Nat) (f g : Nat → α) : Prop :=
  ∀ q i, i < d → (2 * q + 2) * d ≤ n →
    Ordered key (up (2 * q * d + i)) (f (2 * q * d + i)) (f ((2 * q + 1) * d + i)) (g (2 * q * d + i))
      (g ((2 * q + 1) * d + i))

inductive Rounds (n : Nat) (key : α → κ) (up : Nat → Prop) : Nat → Nat → (Nat → α) → (Nat → α) → Prop
  | done {k : Nat} {f g : Nat → α} : (∀ p < n, g p = f p) → Rounds n key up k k f g
  | next {k low : Nat} {f g h : Nat → α} :
      Round n key up (2 ^ k) f h → Rounds n key up k low h g → Rounds n key up (k + 1) low f g

lemma pair_lt {q d i : Nat} (hi : i < d) (hn : (2 * q + 2) * d ≤ n) : 2 * q * d + i < n ∧ (2 * q + 1) * d + i < n := by
  have h : (2 * q + 2) * d = 2 * q * d + 2 * d := by ring
  have h' : (2 * q + 1) * d = 2 * q * d + d := by ring
  omega

variable {high low d k q i : Nat} {f g : Nat → α}

lemma Rounds.congr {g' : Nat → α} (h : Rounds n key up high low f g) (hg : ∀ p < n, g' p = g p) :
    Rounds n key up high low f g' := by
  induction h with
  | done hfg => exact .done fun p hp => (hg p hp).trans (hfg p hp)
  | next hrd _ ih => exact .next hrd (ih hg)

variable {f' h : Nat → α} {len p : Nat}

lemma Round.congr_left (h : Round n key up d f g) (hf : ∀ p < n, f' p = f p) : Round n key up d f' g := by
  intro q i hi hn
  rw [hf _ (pair_lt hi hn).1, hf _ (pair_lt hi hn).2]
  exact h q i hi hn

lemma Rounds.congr_left (h : Rounds n key up high low f g) (hf : ∀ p < n, f' p = f p) :
    Rounds n key up high low f' g := by
  cases h with
  | done hfg => exact .done fun p hp => (hfg p hp).trans (hf p hp).symm
  | next hrd h => exact .next (hrd.congr_left hf) h

lemma Rounds.trans {middle : Nat} (hfg : Rounds n key up high middle f g) (hgh : Rounds n key up middle low g h) :
    Rounds n key up high low f h := by
  induction hfg with
  | done hfg => exact hgh.congr_left fun p hp => (hfg p hp).symm
  | next hrd _ ih => exact .next hrd (ih hgh)

/-! ## Merging a bitonic block -/

lemma half_lt (hi : i < 2 ^ (k + 1)) :
    ∃ b < 2, ∃ j < 2 ^ k, i = b * 2 ^ k + j ∧ q * 2 ^ (k + 1) + i = (2 * q + b) * 2 ^ k + j := by
  rw [pow_succ'] at hi ⊢
  rcases lt_or_ge i (2 ^ k) with hlt | hge
  · exact ⟨0, by omega, i, hlt, by omega, by ring⟩
  · refine ⟨1, by omega, i - 2 ^ k, by omega, by omega, ?_⟩
    have h : (2 * q + 1) * 2 ^ k = q * (2 * 2 ^ k) + 2 ^ k := by ring
    omega

lemma Rounds.forall_block (h : Rounds n key up k 0 f g) (hn : (q + 1) * 2 ^ k ≤ n) {P : α → Prop}
    (hf : ∀ i < 2 ^ k, P (f (q * 2 ^ k + i))) : ∀ i < 2 ^ k, P (g (q * 2 ^ k + i)) := by
  generalize hlow : 0 = low at h
  induction h generalizing q with
  | done hfg =>
    intro i hi
    rw [hfg _ (by rw [add_mul] at hn; omega)]
    exact hf i hi
  | @next k low f g h hrd _ ih =>
    have hn' : (2 * q + 2) * 2 ^ k ≤ n := by
      rw [pow_succ] at hn
      linarith
    have hpair : ∀ b < 2, ∀ j < 2 ^ k, P (h ((2 * q + b) * 2 ^ k + j)) := by
      intro b hb j hj
      have hlower : P (f (2 * q * 2 ^ k + j)) := by
        have := hf j (by rw [pow_succ]; omega)
        rwa [show q * 2 ^ (k + 1) + j = 2 * q * 2 ^ k + j by ring] at this
      have hupper : P (f ((2 * q + 1) * 2 ^ k + j)) := by
        have := hf (2 ^ k + j) (by rw [pow_succ]; omega)
        rwa [show q * 2 ^ (k + 1) + (2 ^ k + j) = (2 * q + 1) * 2 ^ k + j by ring] at this
      obtain ⟨hp | hp, -⟩ := hrd q j hj hn'
      all_goals
        interval_cases b
        · rw [add_zero, hp.1]
          assumption
        · rw [hp.2]
          assumption
    intro i hi
    obtain ⟨b, hb, j, hj, -, hij⟩ := half_lt (q := q) hi
    rw [hij]
    refine ih ?_ (hpair b hb) hlow j hj
    calc (2 * q + b + 1) * 2 ^ k ≤ (2 * q + 2) * 2 ^ k := mul_le_mul_right _ (by omega)
      _ ≤ n := hn'

lemma Ordered.above {up : Prop} {a b a' b' : α} (h : Ordered key up a b a' b') (hup : up) (c : κ) :
    (c ≤ key a' ↔ c ≤ key a ∧ c ≤ key b) ∧ (c ≤ key b' ↔ c ≤ key a ∨ c ≤ key b) := by
  obtain ⟨⟨rfl, rfl⟩ | ⟨rfl, rfl⟩, hle, -⟩ := h
  · have hle := hle hup
    exact ⟨⟨fun hc => ⟨hc, hc.trans hle⟩, And.left⟩, ⟨.inr, fun hc => hc.elim hle.trans' id⟩⟩
  · have hle := hle hup
    exact ⟨⟨fun hc => ⟨hc.trans hle, hc⟩, And.right⟩, ⟨.inl, fun hc => hc.elim id hle.trans'⟩⟩

lemma Rounds.rises (h : Rounds n key up k 0 f g) (hn : (q + 1) * 2 ^ k ≤ n) (hup : ∀ i < 2 ^ k, up (q * 2 ^ k + i))
    {c : κ} (hw : Window (2 ^ k) fun i => c ≤ key (f (q * 2 ^ k + i))) :
    ∀ i j, i ≤ j → j < 2 ^ k → c ≤ key (g (q * 2 ^ k + i)) → c ≤ key (g (q * 2 ^ k + j)) := by
  generalize hlow : 0 = low at h
  induction h generalizing q with
  | done =>
    subst hlow
    intro i j hij hj hi
    obtain rfl : i = j := by
      omega
    exact hi
  | @next k low f g h hrd hrest ih =>
    subst hlow
    have hn' : (2 * q + 2) * 2 ^ k ≤ n := by
      rw [pow_succ] at hn
      linarith
    have hblk : ∀ b < 2, (2 * q + b + 1) * 2 ^ k ≤ n := fun b hb =>
      (Nat.mul_le_mul_right _ (by omega)).trans hn'
    have hup' : ∀ b < 2, ∀ j < 2 ^ k, up ((2 * q + b) * 2 ^ k + j) := by
      intro b hb j hj
      have := hup (b * 2 ^ k + j) (by rw [pow_succ]; interval_cases b <;> omega)
      rwa [show q * 2 ^ (k + 1) + (b * 2 ^ k + j) = (2 * q + b) * 2 ^ k + j by ring] at this
    -- The two halves of the window, and what the round makes of them.
    have hw' : Window (2 * 2 ^ k) fun i => c ≤ key (f (2 * q * 2 ^ k + i)) := by
      rw [pow_succ'] at hw
      exact hw.congr fun i _ => by rw [show q * (2 * 2 ^ k) + i = 2 * q * 2 ^ k + i by ring]
    have habove : ∀ j < 2 ^ k, (c ≤ key (h (2 * q * 2 ^ k + j)) ↔
          c ≤ key (f (2 * q * 2 ^ k + j)) ∧ c ≤ key (f (2 * q * 2 ^ k + (2 ^ k + j)))) ∧
        (c ≤ key (h ((2 * q + 1) * 2 ^ k + j)) ↔
          c ≤ key (f (2 * q * 2 ^ k + j)) ∨ c ≤ key (f (2 * q * 2 ^ k + (2 ^ k + j)))) := by
      intro j hj
      rw [show 2 * q * 2 ^ k + (2 ^ k + j) = (2 * q + 1) * 2 ^ k + j by ring]
      exact (hrd q j hj hn').above (hup' 0 (by omega) j hj) c
    have hlower := ih (hblk 0 (by omega)) (hup' 0 (by omega)) (hw'.and.congr fun j hj => (habove j hj).1) rfl
    have hupper := ih (hblk 1 (by omega)) (hup' 1 (by omega)) (hw'.or.congr fun j hj => (habove j hj).2) rfl
    -- One of the halves is constant, and stays so.
    have hglue : ∀ i < 2 ^ k, ∀ j < 2 ^ k, c ≤ key (g (2 * q * 2 ^ k + i)) → c ≤ key (g ((2 * q + 1) * 2 ^ k + j)) := by
      intro i hi j hj hc
      rcases hw'.halves with hnone | hall
      · exact absurd hc (hrest.forall_block (P := fun a => ¬c ≤ key a) (hblk 0 (by omega))
          (fun i hi => mt (habove i hi).1.1 (hnone i hi)) i hi)
      · exact hrest.forall_block (P := fun a => c ≤ key a) (hblk 1 (by omega))
          (fun i hi => (habove i hi).2.2 (hall i hi)) j hj
    intro i j hij hj hc
    obtain ⟨b, hb, i', hi', rfl, hi⟩ := half_lt (q := q) (hij.trans_lt hj)
    obtain ⟨b', hb', j', hj', rfl, hj⟩ := half_lt (q := q) hj
    rw [hi] at hc
    rw [hj]
    interval_cases b <;> interval_cases b'
    · exact hlower i' j' (by omega) hj' hc
    · exact hglue i' hi' j' hj' hc
    · omega
    · exact hupper i' j' (by omega) hj' hc

/-! ## Sorted blocks -/

def Ascends (key : α → κ) (len q : Nat) (f : Nat → α) : Prop :=
  ∀ i j, i ≤ j → j < len → key (f (q * len + i)) ≤ key (f (q * len + j))

def Descends (key : α → κ) (len q : Nat) (f : Nat → α) : Prop :=
  ∀ i j, i ≤ j → j < len → key (f (q * len + j)) ≤ key (f (q * len + i))

lemma Rounds.dual (h : Rounds n key up high low f g) :
    Rounds n (OrderDual.toDual ∘ key) (fun p => ¬up p) high low f g := by
  induction h with
  | done hfg => exact .done hfg
  | next hrd _ ih =>
    refine .next (fun q i hi hn => ?_) ih
    obtain ⟨hpair, hup, hdown⟩ := hrd q i hi hn
    exact ⟨hpair, hdown, fun h => hup (not_not.1 h)⟩

/-- **A merge sorts a bitonic block**, upwards or downwards. -/
lemma Rounds.sorted (h : Rounds n key up k 0 f g) (hn : (q + 1) * 2 ^ k ≤ n) :
    ((∀ i < 2 ^ k, up (q * 2 ^ k + i)) → (∀ c, Window (2 ^ k) fun i => c ≤ key (f (q * 2 ^ k + i))) →
      Ascends key (2 ^ k) q g) ∧
    ((∀ i < 2 ^ k, ¬up (q * 2 ^ k + i)) → (∀ c, Window (2 ^ k) fun i => c < key (f (q * 2 ^ k + i))) →
      Descends key (2 ^ k) q g) := by
  refine ⟨fun hup hw i j hij hj => h.rises hn hup (hw _) i j hij hj le_rfl, fun hdown hw i j hij hj => ?_⟩
  refine h.dual.rises hn hdown (c := OrderDual.toDual (key (g (q * 2 ^ k + i)))) ?_ i j hij hj le_rfl
  exact (hw _).not.congr fun i _ => not_lt.symm

lemma window_of_halves (hup : Ascends key (2 ^ k) (2 * q) f) (hdown : Descends key (2 ^ k) (2 * q + 1) f)
    {P : κ → Prop} (hP : ∀ a b, a ≤ b → P a → P b) :
    Window (2 ^ (k + 1)) fun i => P (key (f (q * 2 ^ (k + 1) + i))) := by
  have hlower : ∀ i, q * (2 * 2 ^ k) + i = 2 * q * 2 ^ k + i := by
    intro i
    ring
  have hupper : ∀ i, q * (2 * 2 ^ k) + (2 ^ k + i) = (2 * q + 1) * 2 ^ k + i := by
    intro i
    ring
  rw [pow_succ']
  refine window_of_rises_falls (fun i j hij hj => ?_) fun i j hij hj => ?_
  · rw [hlower, hlower]
    exact hP _ _ (hup i j hij hj)
  · rw [hupper, hupper]
    exact hP _ _ (hdown i j hij hj)

def Alternates (n : Nat) (key : α → κ) (len : Nat) (f : Nat → α) : Prop :=
  ∀ q, (q + 1) * len ≤ n → (q % 2 = 0 → Ascends key len q f) ∧ (q % 2 ≠ 0 → Descends key len q f)

lemma alternates_one (f : Nat → α) : Alternates n key 1 f := by
  intro q _
  refine ⟨fun _ i j hij hj => ?_, fun _ i j hij hj => ?_⟩ <;> obtain rfl : i = j := by omega
  all_goals exact le_rfl

lemma div_block (hi : i < len) : (q * len + i) / len = q := by
  rw [mul_comm, mul_add_div (by omega), div_eq_of_lt hi, add_zero]

lemma mod_block (hi : i < len) : (q * len + i) % len = i := by
  rw [mul_add_mod', mod_eq_of_lt hi]

lemma block_inj {q' i' : Nat} (hi : i < len) (hi' : i' < len) (h : q * len + i = q' * len + i') : q = q' ∧ i = i' := by
  have hdiv := congrArg (· / len) h
  simp only [div_block hi, div_block hi'] at hdiv
  subst hdiv
  exact ⟨rfl, add_left_cancel h⟩

def Windowed (n : Nat) (key : α → κ) (len : Nat) (f : Nat → α) : Prop :=
  ∀ q, (q + 1) * len ≤ n → ∀ P : κ → Prop, (∀ a b, a ≤ b → P a → P b) → Window len fun i => P (key (f (q * len + i)))

lemma windowed_of_ascends (hf : ∀ q, (q + 1) * len ≤ n → Ascends key len q f) : Windowed n key len f :=
  fun q hn _ hP => window_of_rises fun i j hij hj => hP _ _ (hf q hn i j hij hj)

lemma Alternates.windowed (hf : Alternates n key (2 ^ k) f) : Windowed n key (2 ^ (k + 1)) f := by
  intro q hn P hP
  have hn' : (2 * q + 1 + 1) * 2 ^ k ≤ n := by
    rw [pow_succ] at hn
    linarith
  have hlower := (hf (2 * q) ((Nat.mul_le_mul_right _ (by omega)).trans hn')).1 (by omega)
  have hupper := (hf (2 * q + 1) hn').2 (by omega)
  exact window_of_halves hlower hupper hP

/-- **A merge sorts the blocks of a bitonic line**, in turns upwards and downwards. -/
lemma Windowed.alternates (hf : Windowed n key (2 ^ k) f) (h : Rounds n key (fun p => p / 2 ^ k % 2 = 0) k 0 f g) :
    Alternates n key (2 ^ k) g := by
  intro q hn
  refine ⟨fun hq => (h.sorted hn).1 (fun i hi => ?_) fun c => hf q hn _ fun a b hab ha => ha.trans hab,
    fun hq => (h.sorted hn).2 (fun i hi => ?_) fun c => hf q hn _ fun a b hab ha => ha.trans_le hab⟩
  all_goals
    rw [div_block hi]
    exact hq

lemma Windowed.ascends (hf : Windowed n key (2 ^ k) f) (h : Rounds n key up k 0 f g) (hup : ∀ p, up p) :
    ∀ q, (q + 1) * 2 ^ k ≤ n → Ascends key (2 ^ k) q g :=
  fun q hn => (h.sorted hn).1 (fun _ _ => hup _) fun _ => hf q hn _ fun _ _ hab ha => ha.trans hab

/-! ## Permutations -/

def Permutes (n : Nat) (f g : Nat → α) : Prop := ∃ σ : Equiv.Perm (Fin n), ∀ p : Fin n, g p = f (σ p)

lemma permutes_of_eq (h : ∀ p < n, g p = f p) : Permutes n f g := ⟨1, fun p => h p p.2⟩

lemma Permutes.trans (hfg : Permutes n f g) (hgh : Permutes n g h) : Permutes n f h := by
  obtain ⟨σ, hσ⟩ := hfg
  obtain ⟨τ, hτ⟩ := hgh
  exact ⟨τ.trans σ, fun p => (hτ p).trans (hσ (τ p))⟩

def partner (d p : Nat) : Nat := if p / d % 2 = 0 then p + d else p - d

lemma exists_pair (hd : 0 < d) (p : Nat) : ∃ q i, i < d ∧ (p = 2 * q * d + i ∧ partner d p = (2 * q + 1) * d + i ∨
      p = (2 * q + 1) * d + i ∧ partner d p = 2 * q * d + i) := by
  have hp := div_add_mod' p d
  have hupper : (2 * (p / d / 2) + 1) * d = 2 * (p / d / 2) * d + d := by ring
  refine ⟨p / d / 2, p % d, mod_lt p hd, ?_⟩
  rw [partner]
  split
  · rw [show 2 * (p / d / 2) = p / d by omega] at hupper ⊢
    omega
  · have hodd : (2 * (p / d / 2) + 1) * d = p / d * d := by rw [show 2 * (p / d / 2) + 1 = p / d by omega]
    omega

lemma partner_of_lower (hi : i < d) : partner d (2 * q * d + i) = (2 * q + 1) * d + i := by
  rw [partner, div_block hi, if_pos (by omega)]
  ring

lemma partner_of_upper (hi : i < d) : partner d ((2 * q + 1) * d + i) = 2 * q * d + i := by
  rw [partner, div_block hi, if_neg (by omega), show (2 * q + 1) * d + i = 2 * q * d + i + d by ring,
    Nat.add_sub_cancel]

lemma partner_partner (hd : 0 < d) (p : Nat) : partner d (partner d p) = p := by
  obtain ⟨q, i, hi, ⟨rfl, h⟩ | ⟨rfl, h⟩⟩ := exists_pair hd p <;> rw [h]
  · exact partner_of_upper hi
  · exact partner_of_lower hi

lemma pair_le (hn : 2 * d ∣ n) (h : 2 * q * d + i < n) : (2 * q + 2) * d ≤ n := by
  obtain ⟨u, rfl⟩ := hn
  have hq : q < u := by
    by_contra hle
    have : 2 * d * u ≤ 2 * d * q := mul_le_mul_left _ (not_lt.1 hle)
    have : 2 * d * q = 2 * q * d := by ring
    omega
  calc (2 * q + 2) * d = 2 * d * (q + 1) := by ring
    _ ≤ 2 * d * u := mul_le_mul_left _ hq

lemma partner_lt (hd : 0 < d) (hn : 2 * d ∣ n) (hp : p < n) : partner d p < n := by
  obtain ⟨q, i, hi, ⟨rfl, hpart⟩ | ⟨rfl, hpart⟩⟩ := exists_pair hd p <;> rw [hpart]
  · exact (pair_lt hi (pair_le hn hp)).2
  · have hupper : (2 * q + 1) * d = 2 * q * d + d := by ring
    omega

lemma Round.keeps_or_exchanges (h : Round n key up d f g) (hd : 0 < d) (hn : 2 * d ∣ n) (hp : p < n) :
    g p = f p ∨ g p = f (partner d p) ∧ g (partner d p) = f p := by
  have hp' := partner_lt hd hn hp
  obtain ⟨q, i, hi, ⟨rfl, hpart⟩ | ⟨rfl, hpart⟩⟩ := exists_pair hd p <;> rw [hpart] at hp' ⊢
  · obtain ⟨hpair | hpair, -⟩ := h q i hi (pair_le hn hp)
    · exact .inl hpair.1
    · exact .inr hpair
  · obtain ⟨hpair | hpair, -⟩ := h q i hi (pair_le hn hp')
    · exact .inl hpair.2
    · exact .inr hpair.symm

lemma Round.permutes (h : Round n key up d f g) (hd : 0 < d) (hn : 2 * d ∣ n) : Permutes n f g := by
  classical
  -- Partners whose elements were exchanged change places.
  let exchanged (p : Nat) : Prop := g p = f (partner d p) ∧ g (partner d p) = f p
  let τ (p : Fin n) : Fin n :=
    if exchanged p then ⟨partner d p, partner_lt hd hn p.2⟩ else p
  have hsymm : ∀ p, exchanged (partner d p) ↔ exchanged p := by
    intro p
    change g (partner d p) = f (partner d (partner d p)) ∧ g (partner d (partner d p)) = f (partner d p) ↔ _
    rw [partner_partner hd]
    exact and_comm
  have hτ : Function.Involutive τ := by
    intro p
    by_cases hp : exchanged p
    · have hp' : τ p = ⟨partner d p, partner_lt hd hn p.2⟩ := if_pos hp
      rw [hp']
      refine (if_pos ((hsymm p).2 hp)).trans (Fin.ext (partner_partner hd p))
    · have hp' : τ p = p := if_neg hp
      rw [hp', hp']
  refine ⟨hτ.toPerm, fun p => ?_⟩
  by_cases hp : exchanged p
  · exact hp.1.trans (congrArg f (congrArg Fin.val (if_pos hp : τ p = _)).symm)
  · have hkept : g p = f p := (h.keeps_or_exchanges hd hn p.2).resolve_right hp
    exact hkept.trans (congrArg f (congrArg Fin.val (if_neg hp : τ p = p)).symm)

/-- **Rounds permute a line** whose length is a power of two. -/
lemma Rounds.permutes {m : Nat} (h : Rounds (2 ^ m) key up high low f g) (hm : high ≤ m) : Permutes (2 ^ m) f g := by
  induction h with
  | done hfg => exact permutes_of_eq hfg
  | @next k low f g h hrd _ ih =>
    refine (hrd.permutes (by positivity) ?_).trans (ih (by omega))
    rw [← pow_succ']
    exact pow_dvd_pow 2 hm

end Rounds

end ClHost.Bitonic
