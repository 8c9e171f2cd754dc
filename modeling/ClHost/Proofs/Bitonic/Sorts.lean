import ClHost.Bitonic.Run
import ClHost.Proofs.Bitonic.Kernels
import Mathlib.Algebra.BigOperators.Group.List.Basic
import Mathlib.Algebra.BigOperators.Group.List.Lemmas
import Mathlib.Order.Fin.Basic

/-!
# Bitonic sorts

The launches of a sort, carried out in order, sort every line along the axis.
-/

namespace ClHost.Bitonic

open List Nat

variable {α κ : Type} [LinearOrder κ] {key : α → κ}

/-! ## Partners -/

lemma xor_two_pow (c i : Nat) : i ^^^ 2 ^ c = partner (2 ^ c) i := by
  have hmod : (i ^^^ 2 ^ c) % 2 ^ c = i % 2 ^ c := by
    rw [xor_mod_two_pow, mod_self, xor_zero]
  have hdiv : (i ^^^ 2 ^ c) / 2 ^ c = i / 2 ^ c ^^^ 1 := by
    rw [Nat.xor_div_two_pow, Nat.div_self (by positivity)]
  rw [← Nat.div_add_mod' (i ^^^ 2 ^ c) (2 ^ c), hdiv, partner]
  have hi := Nat.div_add_mod' i (2 ^ c)
  split
  next h =>
    rw [xor_one_of_even (even_iff.2 h), add_mul]
    omega
  next h =>
    have hodd : i / 2 ^ c % 2 = 1 := by omega
    have hpos : 0 < i / 2 ^ c := Nat.pos_of_ne_zero fun hzero => h (by rw [hzero])
    have hle : 2 ^ c ≤ i / 2 ^ c * 2 ^ c := Nat.le_mul_of_pos_left _ hpos
    rw [Nat.xor_one_of_odd (Nat.odd_iff.2 hodd), Nat.sub_mul]
    omega

variable {a c b n k : Nat} {x y : Nat → α}

lemma partner_part (hc : c < a) (i : Nat) : 2 ^ a * (i / 2 ^ a) + (i % 2 ^ a ^^^ 2 ^ c) = partner (2 ^ c) i := by
  have hlt : 2 ^ c < 2 ^ a := Nat.pow_lt_pow_right (by omega) hc
  have hdiv : (i ^^^ 2 ^ c) / 2 ^ a = i / 2 ^ a := by
    rw [Nat.xor_div_two_pow, Nat.div_eq_of_lt hlt, Nat.xor_zero]
  have hmod : (i ^^^ 2 ^ c) % 2 ^ a = i % 2 ^ a ^^^ 2 ^ c := by
    rw [xor_mod_two_pow, mod_eq_of_lt hlt]
  rw [← hmod, ← hdiv, div_add_mod, xor_two_pow]

variable {d size base : Nat}

lemma partner_lt_self (hd : 0 < d) (i : Nat) : partner d i < i ↔ i / d % 2 ≠ 0 := by
  unfold partner
  split
  next h => omega
  next h =>
    have hle : d ≤ i := by
      by_contra hlt
      rw [div_eq_of_lt (not_le.1 hlt)] at h
      exact h rfl
    omega

lemma mod_two_pow_div (hb : b ≤ a) (i : Nat) : i % 2 ^ a / 2 ^ b = i / 2 ^ b % 2 ^ (a - b) := by
  conv_lhs => rw [show a = b + (a - b) by omega, pow_add, mod_mul_right_div_self]

lemma mod_two_pow_mod_two (ha : 0 < a) (i : Nat) : i % 2 ^ a % 2 = i % 2 :=
  mod_mod_of_dvd i (dvd_pow_self 2 (by omega))

/-! ## Rounds of a group -/

def Upwards (a b p : Nat) : Prop := p / 2 ^ (b + 1) % 2 ^ (a - (b + 1)) % 2 = 0

instance (a b p : Nat) : Decidable (Upwards a b p) := inferInstanceAs (Decidable (_ = _))

lemma blockRound_eq (hb : b < a) (hc : c ≤ b) (x : Nat → α) (i : Nat) : blockRound key (2 ^ a) (2 ^ b) (2 ^ c) x i =
      let other := x (partner (2 ^ c) i)
      let upper := decide (i / 2 ^ c % 2 ≠ 0)
      let smaller := decide (key other < key (x i)) || (decide (key other = key (x i)) && upper)
      if smaller ^^ upper ^^ !decide (Upwards a b i) then other else x i := by
  have hupper : decide (i % 2 ^ a ^^^ 2 ^ c < i % 2 ^ a) = decide (i / 2 ^ c % 2 ≠ 0) := by
    rw [xor_two_pow, decide_eq_decide, partner_lt_self (by positivity), mod_two_pow_div (by omega),
      mod_two_pow_mod_two (by omega)]
  have hdown : ((i % 2 ^ a &&& 2 ^ b <<< 1) != 0) = !decide (Upwards a b i) := by
    rw [Nat.shiftLeft_eq, ← pow_add, Nat.and_comm, bne, and_two_pow_eq_zero, mod_two_pow_div hb]
    rfl
  simp only [blockRound, hupper, hdown, partner_part (show c < a by omega)]

lemma upwards_partner (hc : c ≤ b) {q i : Nat} (hi : i < 2 ^ c) :
    Upwards a b ((2 * q + 1) * 2 ^ c + i) ↔ Upwards a b (2 * q * 2 ^ c + i) := by
  have hdiv : ∀ p, p / 2 ^ (b + 1) = p / 2 ^ c / 2 / 2 ^ (b - c) := by
    intro p
    rw [Nat.div_div_eq_div_mul, Nat.div_div_eq_div_mul, ← pow_succ', ← pow_add, show c + (b - c + 1) = b + 1 by omega]
  unfold Upwards
  rw [hdiv, hdiv, div_block hi, div_block hi, show (2 * q + 1) / 2 = 2 * q / 2 by omega]

lemma round_blockRound (hb : b < a) (hc : c ≤ b) (x : Nat → α) :
    Round n key (Upwards a b) (2 ^ c) x (blockRound key (2 ^ a) (2 ^ b) (2 ^ c) x) := by
  intro q i hi _
  rw [blockRound_eq hb hc, blockRound_eq hb hc, partner_of_lower hi, partner_of_upper hi, div_block hi, div_block hi]
  simp only [upwards_partner hc hi, show 2 * q % 2 = 0 by omega, show (2 * q + 1) % 2 = 1 by omega]
  generalize x (2 * q * 2 ^ c + i) = u, x ((2 * q + 1) * 2 ^ c + i) = v
  by_cases hup : Upwards a b (2 * q * 2 ^ c + i)
  all_goals
    rcases lt_trichotomy (key u) (key v) with h | h | h
    · simp [Ordered, hup, h, h.le, not_lt_of_gt h]
    · simp [Ordered, hup, h]
    · simp [Ordered, hup, h, h.le, h.ne', not_lt_of_gt h]

/-! ## Merges of a group -/

def mergePart (key : α → κ) (a b : Nat) (x : Nat → α) : Nat → α :=
  (halvings (2 ^ b)).foldl (fun x d => blockRound key (2 ^ a) (2 ^ b) d x) x

def sortPart (key : α → κ) (a : Nat) (x : Nat → α) : Nat → α := (List.range a).foldl (fun x b => mergePart key a b x) x

lemma halvings_one : halvings 1 = [1] := by
  simp [halvings]

lemma halvings_two_pow_succ (c : Nat) : halvings (2 ^ (c + 1)) = 2 ^ (c + 1) :: halvings (2 ^ c) := by
  rw [halvings, dif_neg (by positivity), pow_succ, Nat.mul_div_cancel _ (by omega)]

lemma doublings_two_pow {limit : Nat} (b : Nat) :
    ∀ r, (∀ c, 2 ^ c < limit ↔ c < b + r) → doublings (2 ^ b) limit = (List.range' b r).map (2 ^ ·)
  | 0, hlim => by
    have hge : limit ≤ 2 ^ b := not_lt.1 fun h => by simpa using (hlim b).1 h
    rw [doublings, dif_pos (.inr hge), range'_zero, map_nil]
  | r + 1, hlim => by
    have hlt : 2 ^ b < limit := (hlim b).2 (by omega)
    have hpos : 2 ^ b ≠ 0 := by positivity
    rw [doublings, dif_neg (by omega), ← pow_succ', doublings_two_pow (b + 1) r fun c => by rw [hlim]; omega,
      range'_succ, map_cons]

lemma sortBlock_two_pow (k : Nat) (x : Nat → α) :
    sortBlock key (2 ^ k) x = (List.range (k + 1)).foldl (fun x a => sortPart key a x) x := by
  have hpts : doublings 1 (2 ^ k + 1) = (List.range (k + 1)).map (2 ^ ·) := by
    rw [range_eq_range']
    refine doublings_two_pow 0 (k + 1) fun c => ?_
    rw [Nat.lt_succ_iff, Nat.pow_le_pow_iff_right (by omega)]
    omega
  have hlens : ∀ a, doublings 1 (2 ^ a) = (List.range a).map (2 ^ ·) := by
    intro a
    rw [range_eq_range']
    exact doublings_two_pow 0 a fun c => by rw [Nat.pow_lt_pow_iff_right (by omega), Nat.zero_add]
  simp only [sortBlock, blockRounds, hpts, flatMap_map, foldl_flatMap, hlens, foldl_map]
  rfl

lemma rounds_mergePart (hb : b < a) (x : Nat → α) : Rounds n key (Upwards a b) (b + 1) 0 x (mergePart key a b x) := by
  have hrds : ∀ c ≤ b, ∀ x : Nat → α, Rounds n key (Upwards a b) (c + 1) 0 x
      ((halvings (2 ^ c)).foldl (fun x d => blockRound key (2 ^ a) (2 ^ b) d x) x) := by
    intro c hc
    induction c with
    | zero =>
      intro x
      rw [pow_zero, halvings_one]
      exact .next (round_blockRound hb hc x) (.done fun _ _ => rfl)
    | succ c ih =>
      intro x
      rw [halvings_two_pow_succ]
      exact .next (round_blockRound hb hc x) (ih (by omega) _)
  exact hrds b le_rfl x

lemma alternates_mergePart (hb : b < a) (x : Nat → α) :
    Alternates n key (2 ^ b) ((List.range b).foldl (fun x b => mergePart key a b x) x) := by
  induction b with
  | zero => exact alternates_one x
  | succ b ih =>
    have hup : (fun p => p / 2 ^ (b + 1) % 2 = 0) = Upwards a b := by
      funext p
      rw [Upwards, mod_two_pow_mod_two (by omega)]
    rw [range_succ, foldl_append]
    refine (ih (by omega)).windowed.alternates ?_
    rw [hup]
    exact rounds_mergePart (by omega) _

lemma sortPart_ascends (a : Nat) (x : Nat → α) :
    ∀ q, (q + 1) * 2 ^ a ≤ n → Ascends key (2 ^ a) q (sortPart key a x) := by
  cases a with
  | zero =>
    intro q hn i j hij hj
    obtain rfl : i = j := by omega
    exact le_rfl
  | succ =>
    rw [sortPart, range_succ, foldl_append]
    refine (alternates_mergePart (by omega) x).windowed.ascends (rounds_mergePart (by omega) _) fun p => ?_
    rw [Upwards, Nat.sub_self, pow_zero, Nat.mod_one]

lemma sortPart_permutes (ha : a ≤ size) (x : Nat → α) : Permutes (2 ^ size) x (sortPart key a x) := by
  have hmerges : ∀ b ≤ a, Permutes (2 ^ size) x ((List.range b).foldl (fun x b => mergePart key a b x) x) := by
    intro b hb
    induction b with
    | zero => exact permutes_of_eq fun _ _ => rfl
    | succ b ih =>
      rw [range_succ, foldl_append]
      exact (ih (by omega)).trans ((rounds_mergePart hb _).permutes (by omega))
  exact hmerges a le_rfl

/-- **A group sorts each of its blocks upwards.** -/
lemma sortBlock_ascends (k : Nat) (x : Nat → α) :
    ∀ q, (q + 1) * 2 ^ k ≤ n → Ascends key (2 ^ k) q (sortBlock key (2 ^ k) x) := by
  rw [sortBlock_two_pow, range_succ, foldl_append]
  exact sortPart_ascends k _

lemma sortBlock_permutes (hk : k ≤ size) (x : Nat → α) : Permutes (2 ^ size) x (sortBlock key (2 ^ k) x) := by
  have hpts : ∀ a ≤ k + 1, Permutes (2 ^ size) x ((List.range a).foldl (fun x a => sortPart key a x) x) := by
    intro a ha
    induction a with
    | zero => exact permutes_of_eq fun _ _ => rfl
    | succ a ih =>
      rw [range_succ, foldl_append]
      exact (ih (by omega)).trans (sortPart_permutes (by omega) _)
  rw [sortBlock_two_pow]
  exact hpts (k + 1) le_rfl

/-! ## The launch that sorts blocks -/

lemma mem_halvings (hd : d ∈ halvings (2 ^ b)) : ∃ c ≤ b, d = 2 ^ c := by
  induction b with
  | zero =>
    rw [pow_zero, halvings_one, mem_singleton] at hd
    exact ⟨0, le_rfl, hd⟩
  | succ b ih =>
    rw [halvings_two_pow_succ, mem_cons] at hd
    rcases hd with hd | hd
    · exact ⟨b + 1, le_rfl, hd⟩
    · obtain ⟨c, hc, hd⟩ := ih hd
      exact ⟨c, by omega, hd⟩

lemma blockRound_shift {length : Nat} (ha : a ≤ k) (hc : c < a) (hbase : 2 ^ k ∣ base)
    (h : ∀ i < 2 ^ k, x i = y (base + i)) :
    ∀ i < 2 ^ k, blockRound key (2 ^ a) length (2 ^ c) x i = blockRound key (2 ^ a) length (2 ^ c) y (base + i) := by
  intro i hi
  obtain ⟨u, rfl⟩ := (pow_dvd_pow 2 ha).trans hbase
  have hpart : 2 ^ a * (i / 2 ^ a) + (i % 2 ^ a ^^^ 2 ^ c) < 2 ^ k := by
    rw [partner_part hc]
    refine partner_lt (by positivity) ?_ hi
    rw [← pow_succ']
    exact pow_dvd_pow 2 (by omega)
  simp only [blockRound, mul_add_mod, mul_add_div (show 2 ^ a > 0 by positivity), mul_add, add_assoc,
    ← h i hi, ← h _ hpart]

lemma sortBlock_shift (hbase : 2 ^ k ∣ base) (h : ∀ i < 2 ^ k, x i = y (base + i)) :
    ∀ i < 2 ^ k, sortBlock key (2 ^ k) x i = sortBlock key (2 ^ k) y (base + i) := by
  let r (x y : Nat → α) : Prop := ∀ i < 2 ^ k, x i = y (base + i)
  rw [sortBlock_two_pow, sortBlock_two_pow]
  refine foldl_rel (r := r) h fun a ha x y h => ?_
  refine foldl_rel (r := r) h fun b hb x y h => ?_
  refine foldl_rel (r := r) h fun d hd x y h => ?_
  rw [mem_range] at ha hb
  obtain ⟨c, hc, rfl⟩ := mem_halvings hd
  exact blockRound_shift (by omega) (by omega) hbase h

lemma sortBlock_congr (h : ∀ i < 2 ^ k, x i = y i) :
    ∀ i < 2 ^ k, sortBlock key (2 ^ k) x i = sortBlock key (2 ^ k) y i := by
  intro i hi
  refine (sortBlock_shift (dvd_zero _) (y := y) (fun i hi => ?_) i hi).trans ?_
  · rw [h i hi, zero_add]
  · rw [zero_add]

section Launch

variable {size k lines inner : Nat}

variable {line p : Nat}

/-- **The launch that sorts blocks does on every line what a group does.** -/
lemma performBlocks_cell (hk : k ≤ size) (hinn : 0 < inner) (m : Nat → α) (hline : line < lines) (hp : p < 2 ^ size)
    : performBlocks key (2 ^ k) (2 ^ size) inner (lines * 2 ^ size) m (cell (2 ^ size) inner line p) =
      sortBlock key (2 ^ k) (lineOf (2 ^ size) inner m line) p := by
  have hdvd : 2 ^ k ∣ 2 ^ size := pow_dvd_pow 2 hk
  have hi : p % 2 ^ k < 2 ^ k := mod_lt p (by positivity)
  -- The position is one of the block `b`, which begins at a multiple of the size of blocks.
  obtain ⟨b, hb⟩ : ∃ b, b = line * (2 ^ size / 2 ^ k) + p / 2 ^ k := ⟨_, rfl⟩
  have hblk : ∀ i, b * 2 ^ k + i = line * 2 ^ size + (p / 2 ^ k * 2 ^ k + i) := by
    intro i
    rw [hb, add_mul, mul_assoc, Nat.div_mul_cancel hdvd, add_assoc]
  have hposition : ∀ i < 2 ^ k, p / 2 ^ k * 2 ^ k + i < 2 ^ size := by
    intro i hi
    have hlt : p / 2 ^ k < 2 ^ size / 2 ^ k := Nat.div_lt_div_of_lt_of_dvd hdvd hp
    calc p / 2 ^ k * 2 ^ k + i < (p / 2 ^ k + 1) * 2 ^ k := by rw [add_mul, one_mul]; omega
      _ ≤ 2 ^ size / 2 ^ k * 2 ^ k := mul_le_mul_right _ hlt
      _ = 2 ^ size := Nat.div_mul_cancel hdvd
  have hcell : ∀ i < 2 ^ k, cell (2 ^ size) inner ((b * 2 ^ k + i) / 2 ^ size) ((b * 2 ^ k + i) % 2 ^ size) =
      cell (2 ^ size) inner line (p / 2 ^ k * 2 ^ k + i) := by
    intro i hi
    rw [hblk, div_block (hposition i hi), mod_block (hposition i hi)]
  have hload : ∀ i < 2 ^ k, m (cell (2 ^ size) inner ((b * 2 ^ k + i) / 2 ^ size) ((b * 2 ^ k + i) % 2 ^ size)) =
      lineOf (2 ^ size) inner m line (p / 2 ^ k * 2 ^ k + i) := fun i hi => congrArg m (hcell i hi)
  have hcnt : b < lines * 2 ^ size / 2 ^ k := by
    rw [lt_div_iff_mul_lt_of_dvd (by positivity) (hdvd.mul_left lines)]
    calc b * 2 ^ k ≤ line * 2 ^ size + p := by rw [← div_add_mod' p (2 ^ k), ← hblk]; omega
      _ < (line + 1) * 2 ^ size := by rw [add_mul, one_mul]; omega
      _ ≤ lines * 2 ^ size := mul_le_mul_right _ hline
  rw [← div_add_mod' p (2 ^ k), ← hcell _ hi]
  refine (runTeams_cell ?_ ?_ hcnt hi).trans ?_
  · intro g _ g' _ i hi i' hi' h
    obtain ⟨hdiv, hmod⟩ := cell_inj hinn (mod_lt _ (by positivity)) (mod_lt _ (by positivity)) h
    refine block_inj hi hi' ?_
    rw [← div_add_mod' (g * 2 ^ k + i) (2 ^ size), hdiv, hmod, div_add_mod']
  · exact fun _ x y => sortBlock_congr
  · exact sortBlock_shift (dvd_mul_left _ _) hload _ hi

lemma performBlocks_other (m : Nat → α) (ha : ∀ line < lines, ∀ p < 2 ^ size, cell (2 ^ size) inner line p ≠ a) :
    performBlocks key (2 ^ k) (2 ^ size) inner (lines * 2 ^ size) m a = m a := by
  refine runTeams_other fun b hb i hi => ha _ ?_ _ (mod_lt _ (by positivity))
  rw [div_lt_iff_lt_mul (by positivity)]
  calc b * 2 ^ k + i < (b + 1) * 2 ^ k := by rw [add_mul, one_mul]; omega
    _ ≤ lines * 2 ^ size / 2 ^ k * 2 ^ k := mul_le_mul_right _ hb
    _ ≤ lines * 2 ^ size := div_mul_le_self _ _

end Launch

/-! ## Bitonic sorts -/

variable {α κ : Type} [LinearOrder κ] (key : α → κ)

def carryOut (extent inner : Nat) (steps : List Step) (m : Nat → α) : Nat → α :=
  steps.foldl (fun m s => s.perform key extent inner m) m

def exchangeAll (extent inner elements : Nat) (xs : List Exchange) (m : Nat → α) : Nat → α :=
  xs.foldl (fun m x => performExchange key x extent inner (elements >>> x.rounds) m) m

variable {key}

lemma carryOut_runQueue (group extent inner elements : Nat) (m : Nat → α) :
    carryOut key extent inner (runQueue group extent elements) m =
      exchangeAll key extent inner elements (schedule group extent)
        (performBlocks key group extent inner elements m) := by
  rw [carryOut, runQueue, foldl_cons, foldl_map]
  rfl

lemma exchangeAll_append (extent inner elements : Nat) (xs ys : List Exchange) (m : Nat → α) :
    exchangeAll key extent inner elements (xs ++ ys) m =
      exchangeAll key extent inner elements ys (exchangeAll key extent inner elements xs m) := foldl_append

/-! ## Merges -/

lemma roundsFrom_two_pow (h : Nat) : roundsFrom (2 ^ h) = min 4 (h + 1) := by
  rcases Nat.lt_or_ge h 3 with hlt | hge
  · interval_cases h <;> rfl
  · have hge : 8 ≤ 2 ^ h := Nat.pow_le_pow_right (show 0 < 2 by omega) hge
    rw [roundsFrom, if_pos hge]
    omega

lemma merge_two_pow (e h : Nat) : ∃ low r, 0 < r ∧ low + r = h + 1 ∧
    merge (2 ^ e) (2 ^ h) = Exchange.between low r e :: merge (2 ^ e) (2 ^ low / 2) := by
  obtain ⟨r, hr⟩ : ∃ r, roundsFrom (2 ^ h) = r := ⟨_, rfl⟩
  have hpos : 0 < r := hr ▸ roundsFrom_pos (2 ^ h)
  have hle : r ≤ h + 1 := by
    rw [← hr, roundsFrom_two_pow]
    omega
  have hrest : 2 ^ h >>> r = 2 ^ (h + 1 - r) / 2 := by
    rw [Nat.shiftRight_eq_div_pow, ← Nat.pow_div hle (by omega), Nat.div_div_eq_div_mul, mul_comm,
      ← Nat.div_div_eq_div_mul, pow_succ, Nat.mul_div_cancel _ (by omega)]
  refine ⟨h + 1 - r, r, hpos, by omega, ?_⟩
  rw [merge, dif_neg (by positivity), Exchange.between, show h + 1 - r + r - 1 = h by omega, ← hrest, ← hr]

section Lines

variable {size lines inner : Nat}

variable {e line h : Nat} {x : Exchange}

/-- **The launches of a merge do all of its rounds** on every line. -/
lemma rounds_merge (hinn : 0 < inner) (hline : line < lines) (high : Nat) (hsize : high ≤ size) (he : high ≤ e)
    (m : Nat → α) : Rounds (2 ^ size) key (fun p => p / 2 ^ e % 2 = 0) high 0 (lineOf (2 ^ size) inner m line)
      (lineOf (2 ^ size) inner
        (exchangeAll key (2 ^ size) inner (lines * 2 ^ size) (merge (2 ^ e) (2 ^ high / 2)) m) line) := by
  induction high using Nat.strong_induction_on generalizing m with
  | _ high ih =>
    cases high with
    | zero =>
      rw [merge]
      exact .done fun _ _ => rfl
    | succ h =>
      obtain ⟨low, r, hr, hlow, hmerge⟩ := merge_two_pow e h
      rw [pow_succ, Nat.mul_div_cancel _ (by omega), hmerge, ← hlow]
      exact (rounds_performExchange hr (by omega) (by omega) hinn m hline).trans
        (ih low (by omega) (by omega) (by omega) _)

lemma merges_two_pow (hsize : h < size) :
    merges (2 ^ size) (2 ^ h) = merge (2 ^ (h + 1)) (2 ^ (h + 1) / 2) ++ merges (2 ^ size) (2 ^ (h + 1)) := by
  have hlt : 2 ^ h < 2 ^ size := Nat.pow_lt_pow_right (by omega) hsize
  have hpos : 2 ^ h ≠ 0 := by positivity
  rw [merges, dif_neg (by omega), ← pow_succ', pow_succ, Nat.mul_div_cancel _ (by omega)]

lemma merges_self : merges (2 ^ size) (2 ^ size) = [] := by
  rw [merges, dif_pos (.inr le_rfl)]

/-- **Merges permute a line and leave one run.** -/
lemma merges_sort (hinn : 0 < inner) (hline : line < lines) (h : Nat) (hsize : h < size) (m : Nat → α)
    (hm : Windowed (2 ^ size) key (2 ^ (h + 1)) (lineOf (2 ^ size) inner m line)) :
    let m' := exchangeAll key (2 ^ size) inner (lines * 2 ^ size) (merges (2 ^ size) (2 ^ h)) m
    Permutes (2 ^ size) (lineOf (2 ^ size) inner m line) (lineOf (2 ^ size) inner m' line) ∧
      Alternates (2 ^ size) key (2 ^ size) (lineOf (2 ^ size) inner m' line) := by
  induction hrest : size - h generalizing h m with
  | zero => omega
  | succ rest ih =>
    rw [merges_two_pow hsize, exchangeAll_append]
    have hrds : Rounds (2 ^ size) key _ (h + 1) 0 _ _ := rounds_merge hinn hline (h + 1) hsize le_rfl m
    have hperm := hrds.permutes hsize
    have halt := hm.alternates hrds
    rcases Nat.lt_or_ge (h + 1) size with hlt | hge
    · obtain ⟨hperm', halt'⟩ := ih (h + 1) hlt _ halt.windowed (by omega)
      exact ⟨hperm.trans hperm', halt'⟩
    · obtain rfl : size = h + 1 := by omega
      rw [merges_self]
      exact ⟨hperm, halt⟩

/-- **Blocks and merges permute a line and leave it ascending.** -/
lemma blocks_merges_sort {k : Nat} (hk : 0 < k) (hsize : k ≤ size) (hinn : 0 < inner) (hline : line < lines)
    (m : Nat → α) :
    let m' := exchangeAll key (2 ^ size) inner (lines * 2 ^ size) (merges (2 ^ size) (2 ^ (k - 1)))
      (performBlocks key (2 ^ k) (2 ^ size) inner (lines * 2 ^ size) m)
    Permutes (2 ^ size) (lineOf (2 ^ size) inner m line) (lineOf (2 ^ size) inner m' line) ∧
      Ascends key (2 ^ size) 0 (lineOf (2 ^ size) inner m' line) := by
  set blocks := performBlocks key (2 ^ k) (2 ^ size) inner (lines * 2 ^ size) m
  have hbls : ∀ p < 2 ^ size, lineOf (2 ^ size) inner blocks line p =
        sortBlock key (2 ^ k) (lineOf (2 ^ size) inner m line) p :=
    fun p hp => performBlocks_cell hsize hinn m hline hp
  have hwindowed : Windowed (2 ^ size) key (2 ^ (k - 1 + 1)) (lineOf (2 ^ size) inner blocks line) := by
    rw [Nat.sub_add_cancel hk]
    refine windowed_of_ascends fun q hn i j hij hj => ?_
    have hlt : q * 2 ^ k + j < 2 ^ size := by
      rw [add_mul] at hn
      omega
    rw [hbls _ (by omega), hbls _ hlt]
    exact sortBlock_ascends k _ q hn i j hij hj
  obtain ⟨hperm, halt⟩ := merges_sort hinn hline (k - 1) (by omega) _ hwindowed
  exact ⟨((sortBlock_permutes hsize _).trans (permutes_of_eq hbls)).trans hperm, (halt 0 (by omega)).1 rfl⟩

/-! ## Places of other elements -/

lemma mem_merge {high : Nat} (hx : x ∈ merge (2 ^ e) (2 ^ high / 2)) :
    ∃ low r, 0 < r ∧ low + r ≤ high ∧ x = Exchange.between low r e := by
  induction high using Nat.strong_induction_on with
  | _ high ih =>
    cases high with
    | zero =>
      rw [merge] at hx
      exact absurd hx not_mem_nil
    | succ h =>
      obtain ⟨low, r, hr, hlow, hmerge⟩ := merge_two_pow e h
      rw [pow_succ, Nat.mul_div_cancel _ (by omega), hmerge, mem_cons] at hx
      rcases hx with hx | hx
      · exact ⟨low, r, hr, hlow.le, hx⟩
      · obtain ⟨low', r', hr', hlow', hx⟩ := ih low (by omega) hx
        exact ⟨low', r', hr', by omega, hx⟩

lemma mem_merges (hsize : h ≤ size) (hx : x ∈ merges (2 ^ size) (2 ^ h)) :
    ∃ low r e, 0 < r ∧ low + r ≤ size ∧ x = Exchange.between low r e := by
  induction hrest : size - h generalizing h with
  | zero =>
    obtain rfl : size = h := by omega
    rw [merges_self] at hx
    exact absurd hx not_mem_nil
  | succ rest ih =>
    rw [merges_two_pow (by omega), mem_append] at hx
    rcases hx with hx | hx
    · obtain ⟨low, r, hr, hlow, hx⟩ := mem_merge hx
      exact ⟨low, r, h + 1, hr, by omega, hx⟩
    · exact ih (by omega) hx (by omega)

lemma exchangeAll_other {xs : List Exchange}
    (hxs : ∀ x ∈ xs, ∃ low r e, 0 < r ∧ low + r ≤ size ∧ x = Exchange.between low r e) (m : Nat → α) {a : Nat}
    (ha : ∀ line < lines, ∀ p < 2 ^ size, cell (2 ^ size) inner line p ≠ a) :
    exchangeAll key (2 ^ size) inner (lines * 2 ^ size) xs m a = m a := by
  induction xs generalizing m with
  | nil => rfl
  | cons x xs ih =>
    obtain ⟨low, r, e, hr, hlow, rfl⟩ := hxs x mem_cons_self
    exact (ih (fun x hx => hxs x (mem_cons_of_mem _ hx)) _).trans (performExchange_other hr hlow m ha)

end Lines

/-! ## The whole sort -/

lemma product_eq_prod (shape : List Int) : product shape = (shape.map Int.toNat).prod := by
  rw [product, prod_eq_foldl]

lemma innerSize_eq (shape : List Int) (axis : Nat) : innerSize shape axis = product (shape.drop (axis + 1)) := by
  unfold innerSize
  split
  next h =>
    congr 1
  next h =>
    rw [drop_of_length_le (by omega)]
    rfl

variable {n inner : Nat}

lemma product_axis {shape : List Int} {axis : Nat} (h : entry? shape axis = some (n : Int)) :
    product shape = product (shape.take axis) * innerSize shape axis * n := by
  rw [ entry?, Int.toNat_natCast] at h
  obtain ⟨haxis, hn⟩ := List.getElem?_eq_some_iff.1 h
  conv_lhs => rw [← take_append_drop axis shape, drop_eq_getElem_cons haxis, hn]
  rw [innerSize_eq, product_eq_prod, product_eq_prod, product_eq_prod, map_append, prod_append, map_cons,
    prod_cons, Int.toNat_natCast]
  ring

lemma cell_outer {o l : Nat} (hl : l < inner) (p : Nat) : cell n inner (o * inner + l) p = (o * n + p) * inner + l := by
  rw [cell_eq, div_block hl, mod_block hl]

lemma cell_lt {outer line p : Nat} (hline : line < outer * inner) (hp : p < n) :
    cell n inner line p < outer * inner * n := by
  have hinn : 0 < inner := Nat.pos_of_mul_pos_left (Nat.zero_lt_of_lt hline)
  have ho : line / inner < outer := (Nat.div_lt_iff_lt_mul hinn).2 hline
  rw [cell_eq]
  calc (line / inner * n + p) * inner + line % inner < (line / inner * n + p + 1) * inner := by
        have := Nat.mod_lt line hinn
        rw [add_mul _ 1]
        omega
    _ ≤ (outer * n) * inner := by
        refine Nat.mul_le_mul_right _ ?_
        calc line / inner * n + p + 1 ≤ (line / inner + 1) * n := by rw [add_mul, one_mul]; omega
          _ ≤ outer * n := Nat.mul_le_mul_right _ ho
    _ = outer * inner * n := by ring

/-- **A sort permutes every line, along with all that its elements carry, and leaves it ascending.** Places behind
the array are left alone. -/
theorem carryOut_runQueue_sorts {shape : List Int} {axis size k : Nat}
    (hext : entry? shape axis = some ((2 ^ size : Nat) : Int)) (hk : 0 < k) (hsize : k ≤ size) (m : Nat → α) :
    let inner := innerSize shape axis
    let m' := carryOut key (2 ^ size) inner (runQueue (2 ^ k) (2 ^ size) (product shape)) m
    (∀ o < product (shape.take axis), ∀ l < inner,
      (∃ σ : Equiv.Perm (Fin (2 ^ size)),
        ∀ p : Fin (2 ^ size), m' ((o * 2 ^ size + p) * inner + l) = m ((o * 2 ^ size + σ p) * inner + l)) ∧
      Monotone fun p : Fin (2 ^ size) => key (m' ((o * 2 ^ size + p) * inner + l))) ∧
    ∀ a, product shape ≤ a → m' a = m a := by
  intro inner m'
  obtain ⟨lines, hlns⟩ : ∃ lines, lines = product (shape.take axis) * inner := ⟨_, rfl⟩
  have hprod : product shape = lines * 2 ^ size := by rw [hlns, product_axis hext]
  have hschedule : schedule (2 ^ k) (2 ^ size) = merges (2 ^ size) (2 ^ (k - 1)) := by
    rw [schedule, ← Nat.pow_div hk (by omega), pow_one]
  have hm' : m' = exchangeAll key (2 ^ size) inner (lines * 2 ^ size) (merges (2 ^ size) (2 ^ (k - 1)))
      (performBlocks key (2 ^ k) (2 ^ size) inner (lines * 2 ^ size) m) := by
    rw [← hschedule, ← hprod, ← carryOut_runQueue]
  rw [hm']
  refine ⟨fun o ho l hl => ?_, fun a ha => ?_⟩
  · have hinn : 0 < inner := Nat.zero_lt_of_lt hl
    have hline : o * inner + l < lines := by
      rw [hlns]
      calc o * inner + l < (o + 1) * inner := by rw [add_mul, one_mul]; omega
        _ ≤ product (shape.take axis) * inner := Nat.mul_le_mul_right _ ho
    obtain ⟨⟨σ, hσ⟩, hascends⟩ := blocks_merges_sort hk hsize hinn hline m (κ := κ)
    simp only [lineOf, cell_outer hl] at hσ
    refine ⟨⟨σ, hσ⟩, fun p p' hp => ?_⟩
    have hle := hascends p p' hp p'.2
    simpa only [lineOf, cell_outer hl, Nat.zero_mul, Nat.zero_add] using hle
  · have hoth : ∀ line < lines, ∀ p < 2 ^ size, cell (2 ^ size) inner line p ≠ a := by
      intro line hline p hp heq
      have := cell_lt (hlns ▸ hline) hp
      rw [hprod, hlns] at ha
      omega
    rw [exchangeAll_other (fun x hx => mem_merges (by omega) hx) _ hoth, performBlocks_other m hoth]

theorem carryOut_runQueue_sorts_indexed :
    let m (a : Nat) : Nat × Nat := (([7, 1, 5, 1, 3, 9, 2, 8, 4, 4, 6, 0, 6, 2, 1, 3][a]?).getD 0, a)
    let m' := carryOut Prod.fst 4 2 (runQueue 2 4 16) m
    entry? [(2 : Int), 4, 2] 1 = some 4 ∧ 0 < 1 ∧ 1 ≤ 2 ∧
      (∀ o < 2, ∀ l < 2,
        (∃ σ : Equiv.Perm (Fin 4), ∀ p : Fin 4, m' ((o * 4 + p) * 2 + l) = m ((o * 4 + σ p) * 2 + l)) ∧
        Monotone fun p : Fin 4 => (m' ((o * 4 + p) * 2 + l)).1) ∧
      ∀ a, 16 ≤ a → m' a = m a := by
  intro m m'
  have hext : entry? [2, 4, 2] ((1 : Nat) : Int) = some ((2 ^ 2 : Nat) : Int) := by decide
  exact ⟨hext, by decide, by decide, @carryOut_runQueue_sorts _ _ _ Prod.fst _ _ 2 1 hext (by decide) (by decide) m⟩

/-! ## Sizes of groups -/

section Search

variable {available bytes limit g : Nat}

lemma fitGroup_spec (h : fitGroup available bytes limit = some g) : 0 < g ∧ g ≤ limit ∧
    g * bytes + reservedBytes ≤ available ∧ (g = limit ∨ available < (2 * g + 1) * bytes + reservedBytes) := by
  fun_induction fitGroup available bytes limit with
  | case1 => cases h
  | case2 limit hpos hfits =>
    obtain rfl : limit = g := by simpa using h
    exact ⟨Nat.pos_of_ne_zero hpos, le_rfl, hfits, .inl rfl⟩
  | case3 limit hpos hfits ih =>
    obtain ⟨hg, hle, hroom, hnext⟩ := ih h
    refine ⟨hg, hle.trans (Nat.div_le_self _ _), hroom, .inr ?_⟩
    rcases hnext with rfl | hnext
    · have hlim : limit * bytes ≤ (2 * (limit / 2) + 1) * bytes := Nat.mul_le_mul_right _ (by omega)
      omega
    · exact hnext

lemma exists_fitGroup (hlim : 0 < limit) (hroom : bytes + reservedBytes ≤ available) :
    ∃ g, fitGroup available bytes limit = some g := by
  fun_induction fitGroup available bytes limit with
  | case1 => omega
  | case2 limit => exact ⟨limit, rfl⟩
  | case3 limit hpos hfits ih =>
    rcases Nat.lt_or_ge 1 limit with hone | hone
    · exact ih (by omega)
    · obtain rfl : limit = 1 := by omega
      omega

lemma fitGroup_two_pow {k : Nat} (h : fitGroup available bytes (2 ^ k) = some g) : ∃ j ≤ k, g = 2 ^ j := by
  induction k with
  | zero =>
    obtain ⟨hpos, hle, -⟩ := fitGroup_spec h
    exact ⟨0, le_rfl, by omega⟩
  | succ k ih =>
    rw [fitGroup, dif_neg (by positivity)] at h
    split at h
    · exact ⟨k + 1, le_rfl, by simpa using h.symm⟩
    · rw [pow_succ, Nat.mul_div_cancel _ (by omega)] at h
      obtain ⟨j, hj, rfl⟩ := ih h
      exact ⟨j, hj.trans (Nat.le_succ k), rfl⟩

end Search

/-- **The first launch keeps to the local memory of the search** if there are indices, and without them just if the
largest group was taken and has room for four times its keys. -/
theorem localSizes_le_iff (info : DeviceInfo) (p : Problem) (extent : Nat) {g : Nat}
    (h : fitGroup info.localMemSize (p.keyType.size + (p.indexType.map (·.size)).getD 0)
      (min extent info.maxWorkGroupSize) = some g) :
    (localSizes g p.keyType.size (p.indexType.map (·.size))).sum ≤ info.localMemSize - reservedBytes ↔
      p.indexType.isSome ∨
        min extent info.maxWorkGroupSize * 4 * p.keyType.size + reservedBytes ≤ info.localMemSize := by
  obtain ⟨hpos, hle, hroom, hnext⟩ := fitGroup_spec h
  cases hidx : p.indexType with
  | some t =>
    have hsum : g * p.keyType.size + g * t.size + reservedBytes ≤ info.localMemSize := by
      rw [← Nat.mul_add]
      simpa [hidx] using hroom
    simp only [localSizes, Option.map_some, sum_cons, sum_nil, Option.isSome_some, true_or, iff_true]
    omega
  | none =>
    simp only [hidx, Option.map_none, Option.getD_none, Nat.add_zero] at hroom hnext
    simp only [localSizes, Option.map_none, sum_cons, sum_nil, Option.isSome_none, Bool.false_eq_true, false_or,
      Nat.add_zero]
    constructor
    · intro hfits
      -- A group that was halved has no room for twice its keys.
      rcases hnext with rfl | hnext
      · omega
      · have htwice : (2 * g + 1) * p.keyType.size ≤ g * 4 * p.keyType.size := Nat.mul_le_mul_right _ (by omega)
        omega
    · intro hfits
      have hgrp : g * 4 * p.keyType.size ≤ min extent info.maxWorkGroupSize * 4 * p.keyType.size :=
        Nat.mul_le_mul_right _ (Nat.mul_le_mul_right _ hle)
      omega

theorem localSizes_exceed :
    let info : DeviceInfo := { (default : DeviceInfo) with localMemSize := 2048, maxWorkGroupSize := 256 }
    let p : Problem := ⟨.number .int32, none, [256], 0⟩
    fitGroup 2048 4 (min 256 256) = some 256 ∧
      ¬ (localSizes 256 p.keyType.size none).sum ≤ info.localMemSize - reservedBytes := by
  intro info p
  have h : fitGroup 2048 4 (min 256 256) = some 256 := by cbv
  exact ⟨h, fun hle => absurd ((localSizes_le_iff info p 256 h).1 hle) (by decide)⟩

lemma dvd_product {shape : List Int} {axis : Int} {n : Nat} (h : entry? shape axis = some (n : Int)) :
    n ∣ product shape := by
  have hmem : (n : Int) ∈ shape := by
    unfold Bitonic.entry? at h
    split at h
    · exact mem_of_getElem? h
    · split at h
      · cases h
      · exact mem_of_getElem? h
  rw [product_eq_prod]
  exact dvd_prod (mem_map.2 ⟨n, hmem, Int.toNat_natCast n⟩)

/-- **Every group that is found can be used** just if the largest group of the device is a power of two, or no less than
the axis: it is a power of two then that divides the axis and the elements of the first launch. -/
theorem fitGroup_usable_iff {shape : List Int} {axis : Int} {size largest : Nat}
    (hext : entry? shape axis = some ((2 ^ size : Nat) : Int)) (hlarg : 2 ≤ largest) :
    (∀ available bytes, 2 * bytes + reservedBytes ≤ available →
      ∃ g, fitGroup available bytes (min (2 ^ size) largest) = some g ∧ (∃ k, g = 2 ^ k) ∧ g ∣ 2 ^ size ∧
        g ≤ largest ∧ g ∣ product shape) ↔
      2 ^ size ≤ largest ∨ ∃ k, largest = 2 ^ k := by
  constructor
  · intro h
    rcases Nat.lt_or_ge largest (2 ^ size) with hlt | hle
    · obtain ⟨g, hg, hpow, -⟩ := h (largest + reservedBytes) 1 (by omega)
      rw [Nat.min_eq_right hlt.le, fitGroup, dif_neg (by omega), if_pos (by omega)] at hg
      exact .inr (Option.some.inj hg ▸ hpow)
    · exact .inl hle
  · intro h available bytes hroom
    have hpow : ∃ k ≤ size, min (2 ^ size) largest = 2 ^ k := by
      rcases h with hle | ⟨k, rfl⟩
      · exact ⟨size, le_rfl, Nat.min_eq_left hle⟩
      · rcases Nat.le_total size k with hk | hk
        · exact ⟨size, le_rfl, Nat.min_eq_left (Nat.pow_le_pow_right (by omega) hk)⟩
        · exact ⟨k, hk, Nat.min_eq_right (Nat.pow_le_pow_right (by omega) hk)⟩
    obtain ⟨k, hk, hmin⟩ := hpow
    obtain ⟨g, hg⟩ := @exists_fitGroup available bytes (min (2 ^ size) largest)
      (by have := Nat.two_pow_pos size; omega) (by omega)
    have hle := (fitGroup_spec hg).2.1
    rw [hmin] at hg
    obtain ⟨j, hj, rfl⟩ := fitGroup_two_pow hg
    have hdvd : 2 ^ j ∣ 2 ^ size := Nat.pow_dvd_pow 2 (hj.trans hk)
    exact ⟨2 ^ j, hmin ▸ hg, ⟨j, rfl⟩, hdvd, hle.trans (Nat.min_le_right _ _), hdvd.trans (dvd_product hext)⟩

theorem fitGroup_not_usable :
    entry? [(128 : Int)] 0 = some ((2 ^ 7 : Nat) : Int) ∧ 2 ≤ 96 ∧ ¬ (2 ^ 7 ≤ 96 ∨ ∃ k, 96 = 2 ^ k) ∧
      ¬ ∀ available bytes, 2 * bytes + reservedBytes ≤ available →
        ∃ g, fitGroup available bytes (min (2 ^ 7) 96) = some g ∧ (∃ k, g = 2 ^ k) ∧ g ∣ 2 ^ 7 ∧ g ≤ 96 ∧
          g ∣ product [128] := by
  have hext : entry? [(128 : Int)] 0 = some ((2 ^ 7 : Nat) : Int) := by decide
  have hnot : ¬ (2 ^ 7 ≤ 96 ∨ ∃ k, 96 = 2 ^ k) := by
    rintro (h | ⟨k, hk⟩)
    · omega
    · have hlow : 6 < k := (Nat.pow_lt_pow_iff_right (show 1 < 2 by omega)).1 (by omega)
      have hhigh : k < 7 := (Nat.pow_lt_pow_iff_right (show 1 < 2 by omega)).1 (by omega)
      omega
  exact ⟨hext, by decide, hnot, fun h => hnot ((fitGroup_usable_iff hext (by decide)).1 h)⟩

end ClHost.Bitonic
