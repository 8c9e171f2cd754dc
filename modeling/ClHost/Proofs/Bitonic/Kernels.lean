import ClHost.Bitonic.Basic
import ClHost.Proofs.Bitonic.Network
import Mathlib.Data.Nat.Bitwise

/-!
# The kernels of a bitonic sort

What a launch of a sort does to memory, as its kernel says. Memory has an element at each place: a key, together with
its index where there is one, since the kernels move both alike.
-/

namespace ClHost.Bitonic

open List Nat Exchange

variable {α κ : Type} [LinearOrder κ] (key : α → κ)

/-! ## Work items -/

def runTeam (size : Nat) (cells : Nat → Nat) (work : (Nat → α) → Nat → α) (m : Nat → α) : Nat → α :=
  fun a => match (List.range size).find? (fun k => cells k == a) with
    | some k => work (fun k => m (cells k)) k
    | none => m a

def runTeams (count size : Nat) (cells : Nat → Nat → Nat) (work : Nat → (Nat → α) → Nat → α) (m : Nat → α) : Nat → α :=
  (List.range count).foldl (fun m g => runTeam size (cells g) (work g) m) m

/-- The place of a position on a line. -/
def cell (extent inner line p : Nat) : Nat := line / inner * inner * extent + line % inner + p * inner

/-! ## Exchanges -/

def order (up : Bool) (a b : α) : α × α := if up ^^ decide (key a < key b) then (b, a) else (a, b)

def orderRound (d : Nat) (up : Nat → Bool) (f : Nat → α) (p : Nat) : α :=
  if p / d % 2 = 0 then (order key (up p) (f p) (f (p + d))).1 else (order key (up (p - d)) (f (p - d)) (f p)).2

def network (up : Bool) : Nat → (Nat → α) → Nat → α
  | 0, x => x
  | r + 1, x => fun k =>
    let y := orderRound key (2 ^ r) (fun _ => up) x
    if k < 2 ^ r then network up r y k else network up r (fun j => y (2 ^ r + j)) (k - 2 ^ r)

variable (group : Nat) (x : Exchange) (extent g : Nat)

def Exchange.stride : Nat := x.distance >>> (x.rounds - 1)

def Exchange.line : Nat := g / (extent >>> x.rounds)

def Exchange.first : Nat :=
  let t := g % (extent >>> x.rounds)
  let low := t &&& (x.stride - 1)
  ((t - low) <<< x.rounds) + low

def performExchange (extent inner items : Nat) (m : Nat → α) : Nat → α :=
  runTeams items (2 ^ x.rounds)
    (fun g k => cell extent inner (x.line extent g) (x.first extent g + k * x.stride))
    (fun g => network key (x.direction &&& x.first extent g == 0) x.rounds) m

/-! ## Blocks -/

def doublings (n limit : Nat) : List Nat :=
  if _h : n = 0 ∨ limit ≤ n then [] else n :: doublings (2 * n) limit
termination_by limit - n
decreasing_by omega

def halvings (n : Nat) : List Nat :=
  if _h : n = 0 then [] else n :: halvings (n / 2)
termination_by n
decreasing_by omega

/-- The item of a group compares its element with that of another one in its part of the block, and takes it over if
the two have to change places. -/
def blockRound (part length d : Nat) (x : Nat → α) (i : Nat) : α :=
  let ii := i % part
  let j := ii ^^^ d
  let other := x (part * (i / part) + j)
  let smaller := decide (key other < key (x i)) || (decide (key other = key (x i)) && decide (j < ii))
  let down := (ii &&& (length <<< 1)) != 0
  if smaller ^^ decide (j < ii) ^^ down then other else x i

def blockRounds : List (Nat × Nat × Nat) :=
  (doublings 1 (group + 1)).flatMap fun part =>
    (doublings 1 part).flatMap fun length => (halvings length).map fun d => (part, length, d)

def sortBlock (x : Nat → α) : Nat → α :=
  (blockRounds group).foldl (fun x (part, length, d) => blockRound key part length d x) x

def performBlocks (group extent inner items : Nat) (m : Nat → α) : Nat → α :=
  runTeams (items / group) group
    (fun b i => cell extent inner ((b * group + i) / extent) ((b * group + i) % extent))
    (fun _ => sortBlock key group) m

def Step.perform (s : Step) (extent inner : Nat) (m : Nat → α) : Nat → α :=
  match s.rounds with
  | some rounds => performExchange key ⟨rounds, s.distance, s.direction⟩ extent inner s.items m
  | none => performBlocks key (s.group.getD 1) extent inner s.items m

variable {key}

/-! ## Teams with places of their own -/

section Teams

variable {size : Nat} {cells : Nat → Nat} {work : (Nat → α) → Nat → α} {m : Nat → α}

lemma runTeam_other {a : Nat} (ha : ∀ k < size, cells k ≠ a) : runTeam size cells work m a = m a := by
  have hfind : (List.range size).find? (fun k' => cells k' == a) = none := by
    simpa using ha
  rw [runTeam, hfind]

lemma runTeam_cell (hcells : ∀ k < size, ∀ k' < size, cells k = cells k' → k = k') {k : Nat} (hk : k < size) :
    runTeam size cells work m (cells k) = work (fun k => m (cells k)) k := by
  rw [runTeam]
  cases hfind : (List.range size).find? (fun k' => cells k' == cells k) with
  | none =>
    have hnone := find?_eq_none.1 hfind k (mem_range.2 hk)
    exact absurd (beq_self_eq_true (cells k)) hnone
  | some k' =>
    have hk' := mem_range.1 (mem_of_find?_eq_some hfind)
    have heq := find?_some hfind
    rw [hcells k' hk' k hk (beq_iff_eq.1 heq)]

end Teams

section Teams

variable {count size : Nat} {cells : Nat → Nat → Nat} {work : Nat → (Nat → α) → Nat → α} {m : Nat → α}

lemma runTeams_succ : runTeams (count + 1) size cells work m =
    runTeam size (cells count) (work count) (runTeams count size cells work m) := by
  rw [runTeams, range_succ, foldl_append]
  rfl

lemma runTeams_other {a : Nat} (ha : ∀ g < count, ∀ k < size, cells g k ≠ a) :
    runTeams count size cells work m a = m a := by
  induction count with
  | zero => rfl
  | succ count ih => rw [runTeams_succ, runTeam_other (ha count (by omega)), ih fun g hg => ha g (by omega)]

lemma runTeams_cell
    (hcells : ∀ g < count, ∀ g' < count, ∀ k < size, ∀ k' < size, cells g k = cells g' k' → g = g' ∧ k = k')
    (hwork : ∀ g (x y : Nat → α), (∀ k < size, x k = y k) → ∀ k < size, work g x k = work g y k)
    {g k : Nat} (hg : g < count) (hk : k < size) :
    runTeams count size cells work m (cells g k) = work g (fun k => m (cells g k)) k := by
  induction count with
  | zero => omega
  | succ count ih =>
    rw [runTeams_succ]
    rcases Nat.lt_succ_iff_lt_or_eq.1 hg with hg' | rfl
    · rw [runTeam_other, ih (fun g hg g' hg' => hcells g (by omega) g' (by omega)) hg']
      intro k' hk' heq
      have := (hcells count (by omega) g (by omega) k' hk' k hk heq).1
      omega
    · rw [runTeam_cell fun k hk k' hk' h => (hcells g (by omega) g (by omega) k hk k' hk' h).2]
      · refine hwork g _ _ (fun k' hk' => runTeams_other fun g' hg' k'' hk'' heq => ?_) k hk
        have := (hcells g' (by omega) g (by omega) k'' hk'' k' hk' heq).1
        omega
      · exact hk

end Teams

/-! ## Lines -/

def lineOf (extent inner : Nat) (m : Nat → α) (line : Nat) : Nat → α := fun p => m (cell extent inner line p)

lemma cell_eq (extent inner line p : Nat) :
    cell extent inner line p = (line / inner * extent + p) * inner + line % inner := by
  unfold cell
  ring

lemma cell_inj {extent inner line line' p p' : Nat} (hinn : 0 < inner) (hp : p < extent) (hp' : p' < extent)
    (h : cell extent inner line p = cell extent inner line' p') : line = line' ∧ p = p' := by
  rw [cell_eq, cell_eq] at h
  obtain ⟨hdiv, hmod⟩ := block_inj (mod_lt line hinn) (mod_lt line' hinn) h
  obtain ⟨hline, hp⟩ := block_inj hp hp' hdiv
  refine ⟨?_, hp⟩
  rw [← div_add_mod line inner, hline, hmod, div_add_mod]

/-! ## Exchanges on a line -/

lemma ordered_order (up : Bool) (a b : α) : Ordered key (up = true) a b (order key up a b).1 (order key up a b).2 := by
  unfold order
  cases up <;> by_cases h : key a < key b
  · simpa [Ordered, h] using h.le
  · simpa [Ordered, h] using not_lt.1 h
  · simpa [Ordered, h] using h.le
  · simpa [Ordered, h] using not_lt.1 h

variable {d q i n r k : Nat} {up b : Bool} {x : Nat → α}

lemma orderRound_lower (hi : i < d) (up : Nat → Bool) (f : Nat → α) : orderRound key d up f (2 * q * d + i) =
      (order key (up (2 * q * d + i)) (f (2 * q * d + i)) (f ((2 * q + 1) * d + i))).1 := by
  rw [orderRound, div_block hi, if_pos (by omega), show 2 * q * d + i + d = (2 * q + 1) * d + i by ring]

lemma orderRound_upper (hi : i < d) (up : Nat → Bool) (f : Nat → α) : orderRound key d up f ((2 * q + 1) * d + i) =
      (order key (up (2 * q * d + i)) (f (2 * q * d + i)) (f ((2 * q + 1) * d + i))).2 := by
  have hsub : (2 * q + 1) * d + i - d = 2 * q * d + i := by
    rw [show (2 * q + 1) * d + i = 2 * q * d + i + d by ring, Nat.add_sub_cancel]
  rw [orderRound, div_block hi, if_neg (by omega), hsub]

lemma round_orderRound (up : Nat → Bool) (f : Nat → α) :
    Round n key (fun p => up p = true) d f (orderRound key d up f) := by
  intro q i hi _
  rw [orderRound_lower hi, orderRound_upper hi]
  exact ordered_order _ _ _

def orderRounds (key : α → κ) (up : Nat → Bool) (stride : Nat) : Nat → (Nat → α) → Nat → α
  | 0, f => f
  | r + 1, f => orderRounds key up stride r (orderRound key (2 ^ r * stride) up f)

lemma rounds_orderRounds {low : Nat} (up : Nat → Bool) (r : Nat) (f : Nat → α) :
    Rounds n key (fun p => up p = true) (low + r) low f (orderRounds key up (2 ^ low) r f) := by
  induction r generalizing f with
  | zero => exact .done fun _ _ => rfl
  | succ r ih =>
    refine .next ?_ (ih _)
    rw [← pow_add, add_comm r low]
    exact round_orderRound up f

lemma network_lower (hk : k < 2 ^ r) (x : Nat → α) :
    network key up (r + 1) x k = network key up r (orderRound key (2 ^ r) (fun _ => up) x) k := if_pos hk

lemma network_upper (k : Nat) (x : Nat → α) : network key up (r + 1) x (2 ^ r + k) =
      network key up r (fun j => orderRound key (2 ^ r) (fun _ => up) x (2 ^ r + j)) k := by
  refine (if_neg (by omega)).trans ?_
  rw [Nat.add_sub_cancel_left]

lemma exists_half (hk : k < 2 ^ (r + 1)) : k < 2 ^ r ∨ ∃ j < 2 ^ r, k = 2 ^ r + j := by
  rcases lt_or_ge k (2 ^ r) with h | h
  · exact .inl h
  · exact .inr ⟨k - 2 ^ r, by omega, by omega⟩

lemma network_eq (up : Nat → Bool) {stride base : Nat} {f : Nat → α} (hstr : 0 < stride)
    (hbase : base / stride % 2 ^ r = 0) (hup : ∀ k < 2 ^ r, up (base + k * stride) = b)
    (hx : ∀ k < 2 ^ r, x k = f (base + k * stride)) :
    ∀ k < 2 ^ r, network key b r x k = orderRounds key up stride r f (base + k * stride) := by
  induction r generalizing f x base with
  | zero => exact hx
  | succ r ih =>
    -- The base is the first position of a block of twice the distance, up to its remainder.
    obtain ⟨u, hu⟩ := dvd_of_mod_eq_zero hbase
    have hv : base % stride < stride := mod_lt base hstr
    have hlower : ∀ k, base + k * stride = 2 * u * (2 ^ r * stride) + (k * stride + base % stride) := by
      intro k
      conv_lhs => rw [← div_add_mod base stride, hu, pow_succ]
      ring
    have hupper : ∀ k, base + (2 ^ r + k) * stride = (2 * u + 1) * (2 ^ r * stride) + (k * stride + base % stride) := by
      intro k
      rw [hlower]
      ring
    have hoff : ∀ k < 2 ^ r, k * stride + base % stride < 2 ^ r * stride := fun k hk =>
      calc k * stride + base % stride < (k + 1) * stride := by rw [add_mul, one_mul]; omega
        _ ≤ 2 ^ r * stride := mul_le_mul_right _ hk
    have hrd : ∀ k < 2 ^ r,
        orderRound key (2 ^ r) (fun _ => b) x k = orderRound key (2 ^ r * stride) up f (base + k * stride) ∧
        orderRound key (2 ^ r) (fun _ => b) x (2 ^ r + k) =
          orderRound key (2 ^ r * stride) up f (base + (2 ^ r + k) * stride) := by
      intro k hk
      have hl : orderRound key (2 ^ r) (fun _ => b) x k = (order key b (x k) (x (2 ^ r + k))).1 := by
        simpa using orderRound_lower (q := 0) hk (fun _ => b) x
      have hu : orderRound key (2 ^ r) (fun _ => b) x (2 ^ r + k) = (order key b (x k) (x (2 ^ r + k))).2 := by
        simpa using orderRound_upper (q := 0) hk (fun _ => b) x
      rw [hl, hu, hx k (by omega), hx (2 ^ r + k) (by omega), ← hup k (by omega), hlower, hupper,
        orderRound_lower (hoff k hk), orderRound_upper (hoff k hk)]
      exact ⟨rfl, rfl⟩
    intro k hk
    rcases exists_half hk with hk | ⟨j, hj, rfl⟩
    · rw [network_lower hk]
      refine ih ?_ (fun k hk => hup k (by omega)) (fun k hk => (hrd k hk).1) k hk
      rw [hu, pow_succ, mul_assoc, mul_mod_right]
    · have hnext : ∀ k, base + (2 ^ r + k) * stride = base + 2 ^ r * stride + k * stride := by
        intro k
        ring
      rw [network_upper, hnext]
      refine ih ?_ (fun k hk => ?_) (fun k hk => ?_) j hj
      · rw [add_mul_div_right _ _ hstr, hu, pow_succ, mul_assoc, mul_add_mod, mod_self]
      · rw [← hnext]
        exact hup (2 ^ r + k) (by omega)
      · rw [← hnext]
        exact (hrd k hk).2

lemma network_congr {y : Nat → α} (h : ∀ k < 2 ^ r, x k = y k) :
    ∀ k < 2 ^ r, network key b r x k = network key b r y k := by
  intro k hk
  have hmod : 0 / 1 % 2 ^ r = 0 := by simp
  rw [network_eq (fun _ => b) (f := y) one_pos hmod (fun _ _ => rfl) (fun k hk => by rw [h k hk]; simp) k hk,
    network_eq (fun _ => b) (f := y) one_pos hmod (fun _ _ => rfl) (fun k hk => by simp) k hk]

/-! ## The launches that exchange -/

lemma and_two_pow_eq_zero (e i : Nat) : (2 ^ e &&& i == 0) = decide (i / 2 ^ e % 2 = 0) := by
  rw [two_pow_and, testBit_eq_decide_div_mod_eq]
  rcases mod_two_eq_zero_or_one (i / 2 ^ e) with h | h <;> simp [h]

section Exchange

variable {size low r e lines inner : Nat}

def Exchange.between (low r e : Nat) : Exchange := ⟨r, 2 ^ (low + r - 1), 2 ^ e⟩

lemma stride_between (hr : 0 < r) : (between low r e).stride = 2 ^ low := by
  change 2 ^ (low + r - 1) >>> (r - 1) = 2 ^ low
  rw [Nat.shiftRight_eq_div_pow, Nat.pow_div (by omega) (by omega)]
  congr 1
  omega

lemma two_pow_shiftRight (hsize : r ≤ size) : 2 ^ size >>> r = 2 ^ (size - r) := by
  rw [Nat.shiftRight_eq_div_pow, Nat.pow_div hsize (by omega)]

variable {line t k : Nat}

lemma line_between (hsize : r ≤ size) (ht : t < 2 ^ (size - r)) :
    (between low r e).line (2 ^ size) (line * 2 ^ (size - r) + t) = line := by
  change (line * 2 ^ (size - r) + t) / (2 ^ size >>> r) = line
  rw [two_pow_shiftRight hsize, div_block ht]

/-- The position of an element of a work item: the number of the item on its line, with that of the element put in
above its lowest bits. -/
def position (low r t k : Nat) : Nat := (t / 2 ^ low * 2 ^ r + k) * 2 ^ low + t % 2 ^ low

lemma first_between (hr : 0 < r) (hsize : r ≤ size) (ht : t < 2 ^ (size - r)) :
    (between low r e).first (2 ^ size) (line * 2 ^ (size - r) + t) = position low r t 0 := by
  have hlow : t - t % 2 ^ low = t / 2 ^ low * 2 ^ low := by
    have := div_add_mod' t (2 ^ low)
    omega
  rw [first, stride_between hr, position]
  simp only [between, two_pow_shiftRight hsize, mod_block ht, and_two_pow_sub_one_eq_mod, hlow, shiftLeft_eq]
  ring

lemma position_eq (t k : Nat) : position low r t k = position low r t 0 + k * 2 ^ low := by
  unfold position
  ring

lemma exists_position (hsize : low + r ≤ size) {p : Nat} (hp : p < 2 ^ size) :
    ∃ t < 2 ^ (size - r), ∃ k < 2 ^ r, p = position low r t k := by
  have hv : p % 2 ^ low < 2 ^ low := mod_lt p (by positivity)
  refine ⟨p / 2 ^ low / 2 ^ r * 2 ^ low + p % 2 ^ low, ?_, p / 2 ^ low % 2 ^ r, mod_lt _ (by positivity), ?_⟩
  · have hu : p / 2 ^ low / 2 ^ r < 2 ^ (size - low - r) := by
      rw [Nat.div_div_eq_div_mul, ← pow_add]
      apply Nat.div_lt_of_lt_mul
      rwa [← pow_add, show low + r + (size - low - r) = size by omega]
    calc p / 2 ^ low / 2 ^ r * 2 ^ low + p % 2 ^ low < (p / 2 ^ low / 2 ^ r + 1) * 2 ^ low := by
          rw [add_mul]
          omega
      _ ≤ 2 ^ (size - low - r) * 2 ^ low := mul_le_mul_right _ hu
      _ = 2 ^ (size - r) := by
          rw [← pow_add]
          congr 1
          omega
  · rw [position, div_block hv, mod_block hv, div_add_mod', div_add_mod']

variable {k' : Nat}

lemma position_inj {t' : Nat} (hk : k < 2 ^ r) (hk' : k' < 2 ^ r) (h : position low r t k = position low r t' k') :
    t = t' ∧ k = k' := by
  obtain ⟨hupper, hlower⟩ := block_inj (mod_lt t (by positivity)) (mod_lt t' (by positivity)) h
  obtain ⟨ht, hk⟩ := block_inj hk hk' hupper
  refine ⟨?_, hk⟩
  rw [← div_add_mod' t (2 ^ low), ht, hlower, div_add_mod']

lemma position_div (hk : k < 2 ^ r) : position low r t k / 2 ^ (low + r) = t / 2 ^ low := by
  rw [pow_add, ← Nat.div_div_eq_div_mul, position, div_block (Nat.mod_lt t (by positivity)), div_block hk]

lemma position_lt (hsize : low + r ≤ size) (ht : t < 2 ^ (size - r)) (hk : k < 2 ^ r) :
    position low r t k < 2 ^ size := by
  have hdiv : position low r t k / 2 ^ (low + r) < 2 ^ (size - (low + r)) := by
    rw [position_div hk, div_lt_iff_lt_mul (by positivity), ← pow_add]
    rwa [show size - (low + r) + low = size - r by omega]
  rwa [div_lt_iff_lt_mul (by positivity), ← pow_add, show size - (low + r) + (low + r) = size by omega] at hdiv

lemma performExchange_between (hr : 0 < r) (hsize : r ≤ size) (items : Nat) (m : Nat → α) :
    performExchange key (between low r e) (2 ^ size) inner items m = runTeams items (2 ^ r)
        (fun g k => cell (2 ^ size) inner (g / 2 ^ (size - r)) (position low r (g % 2 ^ (size - r)) k))
        (fun g => network key (2 ^ e &&& position low r (g % 2 ^ (size - r)) 0 == 0) r) m := by
  have hfst : ∀ g, (between low r e).first (2 ^ size) g = position low r (g % 2 ^ (size - r)) 0 := by
    intro g
    conv_lhs => rw [← div_add_mod' g (2 ^ (size - r))]
    exact first_between hr hsize (mod_lt g (by positivity))
  have hline : ∀ g, (between low r e).line (2 ^ size) g = g / 2 ^ (size - r) := by
    intro g
    conv_lhs => rw [← div_add_mod' g (2 ^ (size - r))]
    exact line_between hsize (mod_lt g (by positivity))
  unfold performExchange
  simp only [hfst, hline, stride_between hr, ← position_eq]
  rfl

lemma between_inj (hsize : low + r ≤ size) (hinn : 0 < inner) {g g' : Nat} (hk : k < 2 ^ r) (hk' : k' < 2 ^ r)
    (h : cell (2 ^ size) inner (g / 2 ^ (size - r)) (position low r (g % 2 ^ (size - r)) k) = cell (2 ^ size) inner (g' / 2 ^ (size - r)) (position low r (g' % 2 ^ (size - r)) k'))
    : g = g' ∧ k = k' := by
  have ht : ∀ g, g % 2 ^ (size - r) < 2 ^ (size - r) := fun g => mod_lt g (by positivity)
  obtain ⟨hline, hpos⟩ := cell_inj hinn (position_lt hsize (ht g) hk) (position_lt hsize (ht g') hk') h
  obtain ⟨hitem, hk⟩ := position_inj hk hk' hpos
  refine ⟨?_, hk⟩
  rw [← div_add_mod' g (2 ^ (size - r)), hline, hitem, div_add_mod']

lemma items_between (hsize : r ≤ size) : (lines * 2 ^ size) >>> r = lines * 2 ^ (size - r) := by
  rw [Nat.shiftRight_eq_div_pow, Nat.mul_div_assoc _ (pow_dvd_pow 2 hsize), Nat.pow_div hsize (by omega)]

lemma performExchange_cell (hr : 0 < r) (hsize : low + r ≤ size) (hinn : 0 < inner) (m : Nat → α)
    (hline : line < lines) (ht : t < 2 ^ (size - r)) (hk : k < 2 ^ r) :
    performExchange key (between low r e) (2 ^ size) inner ((lines * 2 ^ size) >>> r) m
        (cell (2 ^ size) inner line (position low r t k)) = network key (2 ^ e &&& position low r t 0 == 0) r
        (fun k => m (cell (2 ^ size) inner line (position low r t k))) k := by
  have hg : line * 2 ^ (size - r) + t < (lines * 2 ^ size) >>> r := by
    rw [items_between (by omega)]
    calc line * 2 ^ (size - r) + t < (line + 1) * 2 ^ (size - r) := by rw [add_mul, one_mul]; omega
      _ ≤ lines * 2 ^ (size - r) := mul_le_mul_right _ hline
  rw [performExchange_between hr (by omega)]
  have hcell : cell (2 ^ size) inner line (position low r t k) = cell (2 ^ size) inner
      ((line * 2 ^ (size - r) + t) / 2 ^ (size - r)) (position low r ((line * 2 ^ (size - r) + t) % 2 ^ (size - r)) k) := by
    rw [div_block ht, mod_block ht]
  rw [hcell]
  refine (runTeams_cell ?_ ?_ hg hk).trans ?_
  · exact fun g _ g' _ k hk k' hk' => between_inj hsize hinn hk hk'
  · exact fun g x y => network_congr
  · simp only [div_block ht, mod_block ht]

lemma performExchange_other (hr : 0 < r) (hsize : low + r ≤ size) (m : Nat → α) {a : Nat}
    (ha : ∀ line < lines, ∀ p < 2 ^ size, cell (2 ^ size) inner line p ≠ a) :
    performExchange key (between low r e) (2 ^ size) inner ((lines * 2 ^ size) >>> r) m a = m a := by
  rw [performExchange_between hr (by omega)]
  refine runTeams_other fun g hg k hk => ?_
  rw [items_between (by omega)] at hg
  exact ha _ (Nat.div_lt_of_lt_mul (by rwa [mul_comm])) _ (position_lt hsize (Nat.mod_lt g (by positivity)) hk)

/-- **A launch that exchanges does its rounds on every line.** -/
lemma rounds_performExchange (hr : 0 < r) (hsize : low + r ≤ size) (he : low + r ≤ e) (hinn : 0 < inner)
    (m : Nat → α) (hline : line < lines) :
    Rounds (2 ^ size) key (fun p => p / 2 ^ e % 2 = 0) (low + r) low (lineOf (2 ^ size) inner m line)
      (lineOf (2 ^ size) inner
        (performExchange key (between low r e) (2 ^ size) inner ((lines * 2 ^ size) >>> r) m) line) := by
  have hrds : Rounds (2 ^ size) key (fun p => decide (p / 2 ^ e % 2 = 0) = true) (low + r) low
      (lineOf (2 ^ size) inner m line) _ := rounds_orderRounds _ r _
  simp only [decide_eq_true_eq] at hrds
  refine hrds.congr fun p hp => ?_
  obtain ⟨t, ht, k, hk, rfl⟩ := exists_position hsize hp
  -- All positions of a work item go the same way, since they lie in one block of the direction.
  have hblk : ∀ k < 2 ^ r, position low r t k / 2 ^ e = t / 2 ^ low / 2 ^ (e - (low + r)) := by
    intro k hk
    conv_lhs => rw [show e = low + r + (e - (low + r)) by omega, pow_add, ← Nat.div_div_eq_div_mul, position_div hk]
  have hbase : position low r t 0 / 2 ^ low % 2 ^ r = 0 := by
    rw [position, div_block (Nat.mod_lt t (by positivity)), Nat.add_zero, Nat.mul_mod_left]
  rw [lineOf, performExchange_cell hr hsize hinn m hline ht hk, position_eq t k]
  refine network_eq _ (by positivity) hbase (fun k hk => ?_) (fun k hk => ?_) k hk
  · rw [← position_eq, and_two_pow_eq_zero, hblk k hk, hblk 0 (by positivity)]
  · rw [lineOf, ← position_eq]

end Exchange

end ClHost.Bitonic
