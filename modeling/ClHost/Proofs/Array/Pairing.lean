import ClHost.Proofs.Array.OutOfOrder
import ClHost.Proofs.Array.Spacing

/-!
# Arrays of the layout of another one

A copy of an array, and an array that is made like another one, has the strides of the array, but a buffer with room
for its elements only.
-/

namespace ClHost

lemma ElementType.size_of_same {s t : ElementType} (h : s.same t = true) : s.size = t.size := by
  have hpl : ∀ u : ElementType, u.plain.size = u.size := by
    intro u
    cases u <;> rfl
  rw [← hpl s, ← hpl t, of_decide_eq_true h]

/-! ## Room for elements -/

namespace DeviceArray

open Strides

variable {a b : DeviceArray}

def Fits (a : DeviceArray) (bytes : Nat) : Prop :=
  ∀ index, InShape a.shape index → 0 ≤ a.layout.address index ∧ a.layout.address index + a.type.size ≤ bytes

def Gapless (a : DeviceArray) : Prop :=
  ∀ k : Nat, (k : Int) < a.size → ∃ index, InShape a.shape index ∧ byteOffset a.strides index = a.type.size * k

lemma fits_iff_offsets (h : a.offset = 0) {bytes : Nat} :
    a.Fits bytes ↔ ∀ x ∈ a.offsets, 0 ≤ x ∧ x + a.type.size ≤ bytes := by
  simp [Fits, offsets, mem_positions, Layout.address, layout, h]

lemma gapless_iff_offsets (h : ∀ n ∈ a.shape, 0 ≤ n) : a.Gapless ↔ ClHost.Gapless a.type.size a.offsets := by
  simp only [Gapless, ClHost.Gapless, ← length_offsets h, Nat.cast_lt, offsets, List.mem_map, mem_positions]

/-- **An array with a buffer of its own fits into it exactly if it has no gaps.** -/
lemma Regular.fits_iff_gapless (ha : a.Regular) (hoff : a.offset = 0) {bytes : Nat}
    (hby : allocationSize a.nbytes = .ok bytes) : a.Fits bytes ↔ a.Gapless := by
  rw [fits_iff_offsets hoff, gapless_iff_offsets ha.lengths]
  rw [nbytes, ← length_offsets ha.lengths] at hby
  have hspaced := ha.spaced
  generalize a.offsets = xs at hby hspaced
  generalize a.type.size = size at hby hspaced
  by_cases hsize : size = 0
  · subst hsize
    have hzero : ∀ x ∈ xs, x = 0 := fun x hx => by simpa using hspaced.whole x hx
    refine iff_of_true (fun x hx => ?_) fun k hk => ?_
    · simp [hzero x hx]
    · obtain ⟨x, hx⟩ := List.exists_mem_of_length_pos (Nat.zero_lt_of_lt hk)
      simpa [hzero x hx] using hx
  · have hpos : (0 : Int) < size := by exact_mod_cast Nat.pos_of_ne_zero hsize
    rw [← hspaced.below_iff hsize]
    refine forall₂_congr fun x hx => ?_
    obtain ⟨k, rfl⟩ := hspaced.whole x hx
    -- There are elements, so that the buffer has just the bytes of them.
    obtain rfl : bytes = size * xs.length := by
      have hlen := List.length_pos_of_mem hx
      have hne : (size * xs.length : Int) ≠ 0 := by positivity
      unfold allocationSize at hby
      rw [if_neg (by simpa using hne)] at hby
      exact_mod_cast (Except.ok.inj hby).symm
    have hiff : (size * k + size : Int) ≤ size * xs.length ↔ k < xs.length := by
      rw [← mul_add_one, mul_le_mul_iff_right₀ hpos]
      omega
    have hnn : (0 : Int) ≤ size * k := by positivity
    push_cast
    rw [hiff, mul_lt_mul_iff_right₀ hpos]
    simp [hnn]

lemma Regular.congr (ha : a.Regular) (hsh : b.shape = a.shape) (hstr : b.strides = a.strides)
    (hsize : b.type.size = a.type.size) : b.Regular ∧ (b.Gapless ↔ a.Gapless) := by
  have hoffs : b.offsets = a.offsets := by rw [offsets, hsh, hstr, offsets]
  refine ⟨⟨hsh ▸ ha.lengths, hsh ▸ hstr ▸ ha.strided, ?_⟩, ?_⟩
  · rw [hsize, hoffs]
    exact ha.spaced
  · rw [Gapless, Gapless, size, size, hsh, hstr, hsize]

lemma regular_rowMajor (hsh : ∀ n ∈ a.shape, 0 ≤ n) (hstr : a.strides = rowMajor a.type.size a.shape) :
    a.Regular ∧ a.Gapless := by
  have hagree : agree a.strides (ofOrder a.type.size a.shape .row) a.shape = true := by
    rw [hstr]
    exact agree_self (length_ofOrder _ _ .row)
  have hreg := regular_contiguous hsh (Bool.or_eq_true _ _ ▸ .inr hagree)
  refine ⟨hreg, (gapless_iff_offsets hsh).2 ?_⟩
  by_cases hfull : ∀ n ∈ a.shape, 1 ≤ n
  · intro k hk
    have hperm := offsets_perm_along hagree hfull
    exact hperm.mem_iff.2 (gapless_along _ _ k (hperm.length_eq ▸ hk))
  · rw [offsets_eq_nil hfull]
    exact fun k hk => absurd hk (Nat.not_lt_zero k)

end DeviceArray

/-! ## The operations -/

namespace Host

variable {w : World}

lemma leads_newArray_buffer {context : Context} {queue : Option Queue} {type : ElementType} {shape strides : List Int}
    {allocator : Option Allocator} : Leads (newArray context queue type shape strides allocator)
      (fun r w' => r.type = type ∧ r.layout = ⟨shape, strides, 0⟩ ∧ ∃ m : MemoryObject,
        w'.memory[r.buffer]? = some m ∧ allocationSize (type.size * Strides.count shape) = .ok (m.memory.size : Int))
      Any w := by
  unfold newArray allocate newBuffer newMemory
  cases hsize : allocationSize (type.size * Strides.count shape) with
  | error => simp
  | ok size =>
    simp only [leads_bind, leads_lift_ok, leads_pure]
    split
    · exact trivial
    · rename_i hpos
      refine ⟨rfl, rfl, ⟨.buffer, _, ⟨size.toNat, []⟩⟩, Array.getElem?_push_size, ?_⟩
      rw [Int.toNat_of_nonneg (by omega)]

end Host

structure DeviceArray.SameElements (b r : DeviceArray) : Prop where
  type : b.type = r.type
  layout : b.layout = r.layout
  buffer : b.buffer = r.buffer

lemma DeviceArray.SameElements.refl (a : DeviceArray) : a.SameElements a := ⟨rfl, rfl, rfl⟩

inductive FreshOperation where
  | copy (queue : Option Queue)
  | emptyLike
  | zerosLike
  | newLike (type : ElementType) (queue : Option Queue)

namespace FreshOperation

open Host

def type (a : DeviceArray) : FreshOperation → ElementType
  | newLike type _ => type
  | _ => a.type

def allocate (a : DeviceArray) : FreshOperation → Host DeviceArray
  | copy queue => Host.newLike a a.type queue
  | emptyLike | zerosLike => Host.emptyLike a
  | newLike type queue => Host.newLike a type queue

def run (a : DeviceArray) : FreshOperation → Host DeviceArray
  | copy queue => copyArray a queue
  | emptyLike => Host.emptyLike a
  | zerosLike => Host.zerosLike a
  | newLike type queue => Host.newLike a type queue

variable {a : DeviceArray} {w : World}

lemma leads_run (op : FreshOperation) :
    Leads (op.run a) (fun b _ => ∃ r w1, (op.allocate a).run.run w = (.ok r, w1) ∧ b.SameElements r) Any w := by
  have hbegin : Leads (op.allocate a) (fun r w1 => (op.allocate a).run.run w = (.ok r, w1)) Any w := by
    unfold Leads
    split <;> simp_all
  cases op with
  | copy queue =>
    refine hbegin.bind fun r w1 hrun => ?_
    have hresult : ∃ r' w1, (allocate a (.copy queue)).run.run w = (.ok r', w1) ∧
        (r.withQueue queue).SameElements r' := ⟨r, w1, hrun, rfl, rfl, rfl⟩
    split
    · exact leads_any_bind fun q _ => leads_any_bind fun events _ => leads_any_bind fun e _ =>
        leads_any_bind fun _ _ => hresult
    · exact hresult
  | zerosLike =>
    refine hbegin.bind fun r w1 hrun => ?_
    exact leads_any_bind fun _ _ => ⟨r, w1, hrun, .refl r⟩
  | emptyLike | newLike => exact hbegin.mono (fun r w1 hrun => ⟨r, w1, hrun, .refl r⟩)

lemma leads_allocate (op : FreshOperation) : Leads (op.allocate a) (fun r w' => r.type = op.type a ∧ r.layout =
          ⟨a.shape, if (op.type a).same a.type then a.strides else Strides.rowMajor (op.type a).size a.shape, 0⟩ ∧
        ∃ m : MemoryObject, w'.memory[r.buffer]? = some m ∧ allocationSize r.nbytes = .ok (m.memory.size : Int))
      Any w := by
  have hsame : a.type.same a.type = true := decide_eq_true rfl
  -- All of them make one array of this layout.
  have hnew : ∃ context queue, op.allocate a = newArray context queue (op.type a) a.shape
      (if (op.type a).same a.type then a.strides else Strides.rowMajor (op.type a).size a.shape) a.allocator := by
    cases op with
    | copy | newLike => exact ⟨_, _, rfl⟩
    | emptyLike | zerosLike =>
      simp only [type, hsame, if_true]
      exact ⟨_, _, rfl⟩
  obtain ⟨context, queue, hnew⟩ := hnew
  rw [hnew]
  refine leads_newArray_buffer.imp ?_
  rintro r w' ⟨htype, hlay, m, hm, hsize⟩
  refine ⟨htype, hlay, m, hm, ?_⟩
  have hsh : r.shape = a.shape := congrArg Layout.shape hlay
  rw [DeviceArray.nbytes, DeviceArray.size, htype, hsh, hsize]

/-- **What is made like a view of a contiguous array fits into its buffer exactly if it has another type or the view has
no gaps.** -/
theorem run_fits_iff (op : FreshOperation) (ha : a.Reachable) (w : World) :
    Leads (op.run a)
      (fun b _ => ∃ r w₁ m, (op.allocate a).run.run w = (.ok r, w₁) ∧ b.SameElements r ∧
        w₁.memory[b.buffer]? = some m ∧ (b.Fits m.memory.size ↔ (op.type a).same a.type = false ∨ a.Gapless))
      (fun _ _ => True) w := by
  refine (leads_run op).imp ?_
  rintro b - ⟨r, w₁, hrun, hb⟩
  obtain ⟨htype, hlay, m, hm, hsize⟩ := (leads_allocate op).of_run hrun
  refine ⟨r, w₁, m, hrun, hb, hb.buffer ▸ hm, ?_⟩
  rw [← hb.type] at htype
  rw [← hb.layout] at hlay
  have hsh : b.shape = a.shape := congrArg Layout.shape hlay
  have hstr : b.strides = _ := congrArg Layout.strides hlay
  have hoff : b.offset = 0 := congrArg Layout.offset hlay
  have hby : allocationSize b.nbytes = .ok (m.memory.size : Int) := by
    have hshs : b.shape = r.shape := congrArg Layout.shape hb.layout
    rw [DeviceArray.nbytes, DeviceArray.size, hb.type, hshs]
    exact hsize
  cases hsame : (op.type a).same a.type with
  | true =>
    rw [hsame, if_pos rfl] at hstr
    have hszs : b.type.size = a.type.size := by rw [htype, ElementType.size_of_same hsame]
    obtain ⟨hreg, hgap⟩ := ha.regular.congr hsh hstr hszs
    simp [hreg.fits_iff_gapless hoff hby, hgap]
  | false =>
    rw [hsame, if_neg (by simp), ← htype, ← hsh] at hstr
    obtain ⟨hreg, hgap⟩ := DeviceArray.regular_rowMajor (hsh ▸ ha.regular.lengths) hstr
    simp [hreg.fits_iff_gapless hoff hby, hgap]

def sampleArray : DeviceArray :=
  { context := default, queue := some default, type := .number .float32, shape := [6], strides := [4], buffer := 0,
    events := 0 }

def sampleSlice : DeviceArray := { sampleArray with shape := [3], strides := [8] }

def sampleWorld : World := { memory := #[⟨.buffer, 1, ⟨24, []⟩⟩], eventLists := #[[]] }

lemma reachable_sampleSlice : sampleSlice.Reachable := by
  have hfwd : IndexEntry.Forward sampleArray.shape [.slice none none (some 2)] :=
    ⟨⟨⟨0, 6, 2⟩, rfl, by decide, by decide⟩, trivial⟩
  exact .index (.contiguous (by decide) (by decide)) hfwd rfl

theorem run_fits_iff_slice :
    ((run sampleSlice (.copy (some default))).run.run sampleWorld).1.toBool = true ∧
      Leads (run sampleSlice (.copy (some default)))
        (fun b _ => ∃ r w₁ m, (allocate sampleSlice (.copy (some default))).run.run sampleWorld = (.ok r, w₁) ∧
          b.SameElements r ∧ w₁.memory[b.buffer]? = some m ∧
          (b.Fits m.memory.size ↔ sampleSlice.type.same sampleSlice.type = false ∨ sampleSlice.Gapless))
        (fun _ _ => True) sampleWorld := by
  refine ⟨by decide, ?_⟩
  generalize sampleWorld = w
  exact run_fits_iff (.copy (some default)) reachable_sampleSlice w

theorem copy_slice_not_fits :
    ∃ b w₁, (run sampleSlice (.copy (some default))).run.run sampleWorld = (.ok b, w₁) ∧
      (w₁.memory[b.buffer]?.map (·.memory.size)) = some 12 ∧ ¬ b.Fits 12 := by
  refine ⟨{ sampleSlice with buffer := 1, events := 1 }, _, rfl, rfl, fun hfits => ?_⟩
  exact absurd (hfits [2] (.cons (by decide) .nil)).2 (by decide)

end FreshOperation

open List hiding count

namespace Strides

/-! ## Strides of an axis -/

lemma byteOffset_append {ss ts : List Int} {is js : List Nat} (h : ss.length = is.length) :
    byteOffset (ss ++ ts) (is ++ js) = byteOffset ss is + byteOffset ts js := by
  induction ss generalizing is with
  | nil =>
    obtain rfl := length_eq_zero_iff.1 h.symm
    simp [byteOffset]
  | cons s ss ih =>
    obtain ⟨i, is, rfl⟩ := exists_cons_of_length_eq_add_one h.symm
    rw [cons_append, cons_append, byteOffset_cons, byteOffset_cons, ih (Nat.succ.inj h), add_assoc]

def second (before after : Nat) : List Nat := List.replicate before 0 ++ 1 :: List.replicate after 0

def faster (before after : List Int) : Order → List Int
  | .row => after
  | .column => before

lemma ofOrder_around (order : Order) (size : Int) (before : List Int) (n : Int) (after : List Int) :
    ∃ ss ts, ss.length = before.length ∧
      ofOrder size (before ++ n :: after) order = ss ++ size * count (faster before after order) :: ts := by
  induction before generalizing size with
  | nil =>
    cases order with
    | row => exact ⟨[], _, rfl, rowMajor_cons size n after⟩
    | column => exact ⟨[], _, rfl, by rw [faster, count_nil, mul_one]; exact columnMajor_cons size n after⟩
  | cons m before ih =>
    cases order with
    | row =>
      obtain ⟨ss, ts, hlen, heq⟩ := ih size
      refine ⟨size * count (before ++ n :: after) :: ss, ts, congrArg (· + 1) hlen, ?_⟩
      exact (rowMajor_cons size m (before ++ n :: after)).trans (congrArg _ heq)
    | column =>
      obtain ⟨ss, ts, hlen, heq⟩ := ih (size * m)
      refine ⟨size :: ss, ts, congrArg (· + 1) hlen, ?_⟩
      refine (columnMajor_cons size m (before ++ n :: after)).trans (congrArg _ (heq.trans ?_))
      rw [faster, faster, count_cons, mul_assoc]
      rfl

lemma byteOffset_second {order : Order} {size : Int} {strides before after : List Int} {n : Int}
    (h : agree strides (ofOrder size (before ++ n :: after) order) (before ++ n :: after) = true)
    (hidx : InShape (before ++ n :: after) (second before.length after.length)) :
    byteOffset strides (second before.length after.length) = size * count (faster before after order) := by
  obtain ⟨ss, ts, hlen, heq⟩ := ofOrder_around order size before n after
  rw [byteOffset_of_agree h hidx, heq, second, byteOffset_append (by simpa using hlen), byteOffset_zeros,
    byteOffset_cons, byteOffset_zeros]
  ring

lemma inShape_second {before after : List Int} {n : Int} (hn : 2 ≤ n) (hsh : ∀ m ∈ before ++ n :: after, 1 ≤ m) :
    InShape (before ++ n :: after) (second before.length after.length) := by
  rw [forall_mem_append, forall_mem_cons] at hsh
  exact rel_append (inShape_zeros hsh.1) (.cons (by omega) (inShape_zeros hsh.2.2))

def TwoLong (shape : List Int) : Prop :=
  ∃ before n between m after, shape = before ++ n :: (between ++ m :: after) ∧ 2 ≤ n ∧ 2 ≤ m

end Strides

/-! ## Elements under a number -/

namespace DeviceArray

open Strides Axes

def Holds (a : DeviceArray) (p : Nat) (index : List Nat) : Prop :=
  InShape a.shape index ∧ byteOffset a.strides index = a.type.size * p

def Paired (a b : DeviceArray) : Prop := ∀ p index, a.Holds p index ↔ b.Holds p index

def InOrder (a : DeviceArray) (order : Order) : Prop :=
  agree a.strides (ofOrder a.type.size a.shape order) a.shape = true

variable {a b : DeviceArray} {order : Order}

lemma InOrder.holds_iff (h : a.InOrder order) (hsh : ∀ n ∈ a.shape, 1 ≤ n) (hsize : 0 < a.type.size) {p : Nat}
    {index : List Nat} : a.Holds p index ↔ (positions order a.shape)[p]? = some index := by
  have hplace := linear_of_agree hsh h
  constructor
  · rintro ⟨hin, hoff⟩
    obtain ⟨q, hq⟩ := mem_iff_getElem?.1 (mem_positions.2 hin : index ∈ positions order a.shape)
    have hpos : (a.type.size : Int) ≠ 0 := by exact_mod_cast hsize.ne'
    obtain rfl : p = q := by exact_mod_cast mul_left_cancel₀ hpos (hoff.symm.trans (hplace q index hq))
    exact hq
  · intro hp
    exact ⟨mem_positions.1 (mem_of_getElem? hp), hplace p index hp⟩

lemma InOrder.paired (ha : a.InOrder order) (hb : b.InOrder order) (hshs : a.shape = b.shape)
    (hsh : ∀ n ∈ a.shape, 1 ≤ n) (hsize : 0 < a.type.size) (hsize' : 0 < b.type.size) : a.Paired b := by
  intro p index
  rw [ha.holds_iff hsh hsize, hb.holds_iff (hshs ▸ hsh) hsize', hshs]

lemma InOrder.holds_second (h : a.InOrder order) {before after : List Int} {n : Int}
    (heq : a.shape = before ++ n :: after) (hn : 2 ≤ n) (hsh : ∀ n ∈ a.shape, 1 ≤ n) (hsize : 0 < a.type.size)
    {p : Nat} : a.Holds p (second before.length after.length) ↔ (p : Int) = count (faster before after order) := by
  have hpos : (a.type.size : Int) ≠ 0 := by exact_mod_cast hsize.ne'
  unfold InOrder at h
  rw [heq] at h hsh
  have hin := inShape_second hn hsh
  rw [Holds, byteOffset_second h hin, heq, and_iff_right hin, mul_right_inj' hpos, eq_comm]

/-- **Arrays in two orders are not paired** if two axes are longer than one. -/
lemma not_paired_of_orders (ha : a.InOrder .row) (hb : b.InOrder .column) (hshs : a.shape = b.shape)
    (hsh : ∀ n ∈ a.shape, 1 ≤ n) (hlong : TwoLong a.shape) (hsize : 0 < a.type.size) (hsize' : 0 < b.type.size) :
    ¬ a.Paired b := by
  intro hpaired
  obtain ⟨before, n, between, m, after, heq, hn, hm⟩ := hlong
  have heq' : a.shape = (before ++ n :: between) ++ m :: after := by rw [heq, append_assoc, cons_append]
  -- Both arrays have the second element along each of the two axes under one number.
  have hnum : ∀ {before after : List Int} {k : Int}, a.shape = before ++ k :: after → 2 ≤ k →
      1 ≤ count after → count after = count before := by
    intro before after k hk hlong hcnt
    have hcast : ((count after).toNat : Int) = count after := Int.toNat_of_nonneg (by omega)
    have hrow : a.Holds (count after).toNat _ := (ha.holds_second hk hlong hsh hsize).2 hcast
    have hcolumn := (hb.holds_second (hshs ▸ hk) hlong (hshs ▸ hsh) hsize').1 ((hpaired _ _).1 hrow)
    rwa [hcast] at hcolumn
  rw [heq, forall_mem_append, forall_mem_cons, forall_mem_append, forall_mem_cons] at hsh
  obtain ⟨hbef, -, hbtw, -, haft⟩ := hsh
  have hcnt := one_le_count hbef
  have hcnt' := one_le_count hbtw
  have hcnt'' := one_le_count haft
  have hinn : 2 * count after ≤ count (between ++ m :: after) := by
    rw [count_append, count_cons]
    nlinarith [mul_le_mul_of_nonneg_right hm (by omega : 0 ≤ count after)]
  have houter : 2 * count before ≤ count (before ++ n :: between) := by
    rw [count_append, count_cons]
    nlinarith [mul_le_mul_of_nonneg_right hn (by omega : 0 ≤ count between)]
  -- By rows the first of the two elements has the greater number, by columns the second one.
  have hfst := hnum heq hn (by omega)
  have hsnd := hnum heq' hm hcnt''
  omega

lemma Paired.symm (h : a.Paired b) : b.Paired a := fun p index => (h p index).symm

lemma Paired.order_eq {order' : Order} (h : a.Paired b) (ha : a.InOrder order) (hb : b.InOrder order')
    (hshs : a.shape = b.shape) (hsh : ∀ n ∈ a.shape, 1 ≤ n) (hlong : TwoLong a.shape) (hsize : 0 < a.type.size)
    (hsize' : 0 < b.type.size) : order = order' := by
  match order, order' with
  | .row, .row | .column, .column => rfl
  | .row, .column => exact absurd h (not_paired_of_orders ha hb hshs hsh hlong hsize hsize')
  | .column, .row =>
    exact absurd h.symm (not_paired_of_orders hb ha hshs.symm (hshs ▸ hsh) (hshs ▸ hlong) hsize' hsize)

/-! ## Arrays that are made like another one -/

/-- An array is made like another one: it has its strides if the types agree, and else those of the last axis running
fastest. -/
def Like (a r : DeviceArray) : Prop :=
  r.shape = a.shape ∧ r.strides = if r.type.same a.type then a.strides else rowMajor r.type.size a.shape

lemma like_refl (a : DeviceArray) : a.Like a := by
  have hsame : a.type.same a.type = true := decide_eq_true rfl
  exact ⟨rfl, by rw [hsame, if_pos rfl]⟩

variable {r : DeviceArray}

lemma Like.inOrder_of_same (h : a.Like r) (hsame : r.type.same a.type = true) : r.InOrder order ↔ a.InOrder order := by
  obtain ⟨hsh, hstr⟩ := h
  rw [hsame, if_pos rfl] at hstr
  rw [InOrder, InOrder, hsh, hstr, ElementType.size_of_same hsame]

lemma Like.inOrder_row (h : a.Like r) (hsame : r.type.same a.type = false) : r.InOrder .row := by
  obtain ⟨hsh, hstr⟩ := h
  rw [hsame, ← hsh] at hstr
  rw [InOrder, hstr]
  exact agree_self (length_ofOrder _ _ .row)

lemma Like.inOrder (h : a.Like r) (ha : a.InOrder order) (hord : order = .row ∨ r.type.same a.type = true) :
    r.InOrder order := by
  cases hsame : r.type.same a.type with
  | true => exact (h.inOrder_of_same hsame).2 ha
  | false =>
    obtain rfl := hord.resolve_right (by simp [hsame])
    exact h.inOrder_row hsame

/-- **Contiguous arrays of one shape and what is made like one of them** are paired exactly if the arrays are all in one
order, and this is by rows or the types agree. -/
lemma paired_iff {given results : List DeviceArray} (ha : a ∈ given)
    (hcont : ∀ x ∈ given, x.contiguity.any = true)
    (hshs : ∀ x ∈ given, x.shape = a.shape) (hsh : ∀ n ∈ a.shape, 1 ≤ n) (hlong : TwoLong a.shape)
    (hres : ∀ r ∈ results, a.Like r) (hszs : ∀ x ∈ given ++ results, 0 < x.type.size) :
    (∀ x ∈ given ++ results, ∀ y ∈ given ++ results, x.Paired y) ↔
      ∃ order, (∀ x ∈ given, x.InOrder order) ∧ (order = .row ∨ ∀ r ∈ results, r.type.same a.type = true) := by
  have hall : ∀ x ∈ given ++ results, x.shape = a.shape := fun x hx =>
    (mem_append.1 hx).elim (hshs x) fun hx => (hres x hx).1
  have ha' : a ∈ given ++ results := mem_append_left _ ha
  constructor
  · intro hpaired
    obtain ⟨order, hord⟩ := exists_order (hcont a ha)
    have hunique : ∀ x ∈ given ++ results, ∀ order', x.InOrder order' → order = order' := fun x hx order' hx' =>
      (hpaired a ha' x hx).order_eq hord hx' (hall x hx).symm hsh hlong (hszs a ha') (hszs x hx)
    refine ⟨order, fun x hx => ?_, or_iff_not_imp_left.2 fun hrow r hr => ?_⟩
    · obtain ⟨order', hx'⟩ := exists_order (hcont x hx)
      obtain rfl := hunique x (mem_append_left _ hx) order' hx'
      exact hx'
    · cases hsame : r.type.same a.type with
      | true => rfl
      | false => exact absurd (hunique r (mem_append_right _ hr) .row ((hres r hr).inOrder_row hsame)) hrow
  · rintro ⟨order, hgiven, htys⟩ x hx y hy
    have hin : ∀ z ∈ given ++ results, z.InOrder order := fun z hz =>
      (mem_append.1 hz).elim (hgiven z) fun hz =>
        (hres z hz).inOrder (hgiven a ha) (htys.imp id fun h => h z hz)
    exact (hin x hx).paired (hin y hy) ((hall x hx).trans (hall y hy).symm) (hall x hx ▸ hsh) (hszs x hx)
      (hszs y hy)

end DeviceArray

/-! ## The operations -/

namespace Host

variable {a : DeviceArray}

variable (type : ElementType) (queue : Option Queue)

lemma gives_newLike : Gives (newLike a type queue) a.Like := by
  intro w
  refine leads_newArray_buffer.imp ?_
  rintro r _ ⟨rfl, hlay, -⟩
  exact ⟨congrArg Layout.shape hlay, congrArg Layout.strides hlay⟩

lemma gives_emptyLike : Gives (emptyLike a) a.Like := by
  intro w
  refine leads_newArray_buffer.imp ?_
  rintro r _ ⟨htype, hlay, -⟩
  have hsame : r.type.same a.type = true := htype ▸ decide_eq_true rfl
  refine ⟨congrArg Layout.shape hlay, ?_⟩
  rw [hsame]
  exact congrArg Layout.strides hlay

lemma gives_noted {m : Host DeviceArray} {write : DeviceArray → Host EventId} {P : DeviceArray → Prop}
    (hm : Gives m P) : Gives (do let r ← m; addEvent r (← write r); return r) P :=
  gives_bind hm fun _ hr => gives_then fun _ => gives_then fun _ => gives_pure hr

lemma gives_newResult (write : DeviceArray → Host EventId) :
    Gives (newResult a type write) a.Like := gives_noted (gives_newLike type none)

lemma gives_copyArray : Gives (copyArray a queue) a.Like := by
  refine gives_bind (gives_newLike _ _) fun _ hr => gives_ite ?_ (gives_pure hr)
  repeat refine gives_then fun _ => ?_
  exact gives_pure hr

lemma gives_zerosLike : Gives (zerosLike a) a.Like :=
  gives_bind gives_emptyLike fun _ hr => gives_then fun _ => gives_pure hr

lemma gives_unary (op : UnaryOperation) : Gives (op.run a) a.Like := by
  cases op with
  | negate | absolute => exact gives_newResult _ _
  | invert => exact gives_ite (gives_then fun _ => gives_newResult _ _) (gives_newResult _ _)
  | realPart | conjugate => exact gives_ite (gives_newResult _ _) (gives_pure a.like_refl)
  | imaginaryPart => exact gives_ite (gives_newResult _ _) gives_zerosLike
  | zerosLike => exact gives_zerosLike
  | copy queue => exact gives_copyArray queue
  | convert => exact gives_ite (gives_copyArray _) (gives_newResult _ _)

lemma gives_typed {m : Host ElementType} (write : ElementType → DeviceArray → Host EventId) :
    Gives (do let t ← m; newResult a t (write t)) a.Like := gives_then fun _ => gives_newResult _ _

lemma gives_binary (op : BinaryOperation) (other : Actual) : Gives (op.run a other) a.Like := by
  cases op with
  | add | subtract | divide =>
    cases other with
    | array => exact gives_typed _
    | _ => exact gives_then fun _ => gives_ite (gives_copyArray _) (gives_typed _)
  | multiply => cases other <;> exact gives_typed _
  | power =>
    cases other with
    | array => exact gives_then fun _ => gives_typed _
    | _ => exact gives_typed _
  | subtractFrom | divideFrom | powerOf | bitwise => exact gives_typed _
  | compare =>
    refine gives_bind (gives_newLike _ _) fun r hr => ?_
    cases other with
    | array => exact gives_then fun _ => gives_then fun _ => gives_pure hr
    | _ => exact gives_then fun _ => gives_ite (gives_then fun _ => gives_pure hr) (gives_pure hr)

lemma gives_inPlace (op : InPlaceOperation) (other : Actual) : Gives (op.run a other) a.Like := by
  cases op <;> cases other
  all_goals
    repeat refine gives_then fun _ => ?_
    exact gives_pure a.like_refl

end Host

def Actual.arrays : Actual → List DeviceArray
  | .array b => [b]
  | _ => []

inductive MathFunction where
  | unary (name : String)
  | real (name : String) (other : Actual)
  | remainder (other : Actual)
  | splitExponents
  | joinExponents (exponent : Actual)
  | splitFractions
  | bessel (kind : String) (order : Actual)
  | hankel

namespace MathFunction

def run (a : DeviceArray) (queue : Option Queue) : MathFunction → Host (List DeviceArray)
  | unary name => do return [← Host.applyFunction name a queue]
  | real name other => do return [← Host.applyRealFunction name a other queue]
  | remainder other => do return [← Host.remainder a other queue]
  | splitExponents => do
    let (significand, exponent) ← Host.splitExponents a queue
    return [significand, exponent]
  | joinExponents exponent => do return [← Host.joinExponents a exponent queue]
  | splitFractions => do
    let (fraction, whole) ← Host.splitFractions a queue
    return [fraction, whole]
  | bessel kind order => do return [← Host.bessel kind order a queue]
  | hankel => do
    let (zeroth, first) ← Host.hankel a queue
    return [zeroth, first]

def others : MathFunction → List DeviceArray
  | real _ other | remainder other => other.arrays
  | joinExponents exponent => exponent.arrays
  | _ => []

end MathFunction

inductive PairingOperation where
  | unary (op : UnaryOperation) (a : DeviceArray)
  | binary (op : BinaryOperation) (a : DeviceArray) (other : Actual)
  | inPlace (op : InPlaceOperation) (a : DeviceArray) (other : Actual)
  | mulAdd (a : DeviceArray) (f other g : Actual) (queue : Option Queue)
  | ifPositive (criterion yes no : DeviceArray) (out : Option DeviceArray) (queue : Option Queue)
  | math (f : MathFunction) (a : DeviceArray) (queue : Option Queue)

namespace PairingOperation

open Host Strides

def given : PairingOperation → List DeviceArray
  | unary _ a => [a]
  | binary _ a other | inPlace _ a other | mulAdd a _ other _ _ => a :: other.arrays
  | ifPositive criterion yes no out _ => [criterion, yes, no] ++ out.toList
  | math f a _ => a :: f.others

def pattern : PairingOperation → DeviceArray
  | unary _ a | binary _ a _ | inPlace _ a _ | mulAdd a _ _ _ _ | math _ a _ => a
  | ifPositive _ yes _ out _ => out.getD yes

def run : PairingOperation → Host (List DeviceArray)
  | unary op a => do return [← op.run a]
  | binary op a other => do return [← op.run a other]
  | inPlace op a other => do return [← op.run a other]
  | mulAdd a f other g queue => do return [← Host.mulAdd a f other g queue]
  | ifPositive criterion yes no out queue => do return [← Host.ifPositive criterion yes no out queue]
  | math f a queue => f.run a queue

lemma pattern_mem_given (op : PairingOperation) : op.pattern ∈ op.given := by
  cases op with
  | ifPositive criterion yes no out => cases out <;> simp [pattern, given]
  | _ => simp [pattern, given]

end PairingOperation

namespace Host

variable {a : DeviceArray} {P : DeviceArray → Prop}

lemma gives_one {m : Host DeviceArray} (hm : Gives m P) :
    Gives (do return [← m]) fun rs => ∀ r ∈ rs, P r := gives_bind hm fun _ hr => gives_pure (by simpa using hr)

lemma gives_two {m : Host (DeviceArray × DeviceArray)} (hm : Gives m fun x => P x.1 ∧ P x.2) :
    Gives (do let (r, s) ← m; return [r, s]) fun rs => ∀ r ∈ rs, P r :=
  gives_bind hm fun _ hr => gives_pure (by simpa using hr)

lemma gives_pairOf {r s : DeviceArray} {launch : Host EventId} (hr : P r) (hs : P s) :
    Gives (pairOf r s launch) fun x => P x.1 ∧ P x.2 :=
  gives_then fun _ => gives_then fun _ => gives_then fun _ => gives_pure ⟨hr, hs⟩

lemma gives_realFunction (name : String) (other : Actual) (queue : Option Queue) :
    Gives (applyRealFunction name a other queue) a.Like := gives_then fun _ => gives_noted (gives_newLike _ _)

lemma gives_remainder (other : Actual) (queue : Option Queue) : Gives (remainder a other queue) a.Like := by
  unfold remainder
  split <;> exact gives_then fun _ => gives_realFunction _ _ _

lemma gives_math (f : MathFunction) (queue : Option Queue) : Gives (f.run a queue) fun rs => ∀ r ∈ rs, a.Like r := by
  have htwo : ∀ {type type' : ElementType} {pair : DeviceArray → DeviceArray → Host (DeviceArray × DeviceArray)},
      (∀ r s, a.Like r → a.Like s → Gives (pair r s) fun x => a.Like x.1 ∧ a.Like x.2) →
      Gives (do let r ← newLike a type queue; let s ← newLike a type' queue; pair r s)
        fun x => a.Like x.1 ∧ a.Like x.2 :=
    fun hpair => gives_bind (gives_newLike _ _) fun r hr => gives_bind (gives_newLike _ _) fun s hs => hpair r s hr hs
  cases f with
  | unary | joinExponents | bessel => exact gives_one (gives_noted (gives_newLike _ _))
  | real name other => exact gives_one (gives_realFunction name other queue)
  | remainder other => exact gives_one (gives_remainder other queue)
  | splitExponents | hankel => exact gives_two (htwo fun r s hr hs => gives_pairOf hr hs)
  | splitFractions => exact gives_two (htwo fun r s hr hs => gives_pairOf hs hr)

lemma gives_ifPositive (criterion yes no : DeviceArray) (out : Option DeviceArray) (queue : Option Queue) :
    Gives (ifPositive criterion yes no out queue) (out.getD yes).Like := by
  have hchecked : ∀ {condition : Prop} [Decidable condition] {e : Host Unit} {m : Host DeviceArray},
      Gives m (out.getD yes).Like → Gives (if condition then do e; m else m) (out.getD yes).Like :=
    fun hm => gives_ite (gives_then fun _ => hm) hm
  refine hchecked (hchecked ?_)
  cases out with
  | none => exact gives_noted gives_emptyLike
  | some out => exact gives_noted (gives_pure out.like_refl)

end Host

namespace PairingOperation

open Host Strides

/-- **The results of an operation are made like one of the arrays that it is given.** -/
lemma gives_like (op : PairingOperation) : Gives op.run fun rs => ∀ r ∈ rs, op.pattern.Like r := by
  cases op with
  | unary op => exact gives_one (gives_unary op)
  | binary op a other => exact gives_one (gives_binary op other)
  | inPlace op a other => exact gives_one (gives_inPlace op other)
  | mulAdd => exact gives_one (gives_typed _)
  | ifPositive criterion yes no out queue => exact gives_one (gives_ifPositive criterion yes no out queue)
  | math f a queue => exact gives_math f queue

/-- **The elements of contiguous arrays of one shape are worked on in pairs** exactly if the arrays are all in one
order, and this is by rows or the results have the type of the array that they are made like. -/
theorem run_paired_iff (op : PairingOperation) (hcont : ∀ x ∈ op.given, x.contiguity.any = true)
    (hshs : ∀ x ∈ op.given, x.shape = op.pattern.shape) (hsh : ∀ n ∈ op.pattern.shape, 1 ≤ n)
    (hlong : TwoLong op.pattern.shape) (hszs : ∀ x ∈ op.given, 0 < x.type.size) (w : World) :
    Leads op.run
      (fun rs _ => (∀ r ∈ rs, 0 < r.type.size) →
        ((∀ x ∈ op.given ++ rs, ∀ y ∈ op.given ++ rs, x.Paired y) ↔
          ∃ order, (∀ x ∈ op.given, x.InOrder order) ∧
            (order = .row ∨ ∀ r ∈ rs, r.type.same op.pattern.type = true)))
      (fun _ _ => True) w := by
  refine (op.gives_like w).mono (fun rs _ hrs hszs' => ?_) fun _ _ h => h
  exact DeviceArray.paired_iff op.pattern_mem_given hcont hshs hsh hlong hrs
    (forall_mem_append.2 ⟨hszs, hszs'⟩)

def sampleRows (order : Order) : DeviceArray :=
  { context := ⟨0, [⟨0, 0⟩]⟩, queue := some sampleQueue, type := .number .int32, shape := [2, 3]
    strides := ofOrder 4 [2, 3] order, buffer := 0, events := 0 }

def sampleKernel (bindings : List Binding) : Kernel :=
  { program := 0, name := "copy", numArgs := bindings.length, source := none, bindings
    bound := List.replicate bindings.length .unset }

def sampleWorld : World where
  platforms := [{ version := "OpenCL 1.2 ", devices := [{}] }]
  memory := #[⟨.buffer, 1, ⟨24, []⟩⟩]
  eventLists := #[[]]
  kernels := #[sampleKernel [.generic, .packed 'l', .generic, .packed 'l', .packed 'l'],
    sampleKernel [.generic, .packed 'l', .packed 'i', .generic, .packed 'l', .packed 'i', .generic, .packed 'l',
      .packed 'l']]
  standardKernels := [((0, .copy (.number .float32) (.number .int32)), 0),
    ((0, .combine (.number .int32) (.number .int32) (.number .int32)), 1)]

theorem run_paired_iff_convert :
    let op := unary (.convert (.number .float32) none) (sampleRows .column)
    (op.run.run.run sampleWorld).1.toBool = true ∧
      Leads op.run
        (fun rs _ => (∀ r ∈ rs, 0 < r.type.size) →
          ((∀ x ∈ op.given ++ rs, ∀ y ∈ op.given ++ rs, x.Paired y) ↔
            ∃ order, (∀ x ∈ op.given, x.InOrder order) ∧
              (order = .row ∨ ∀ r ∈ rs, r.type.same op.pattern.type = true)))
        (fun _ _ => True) sampleWorld := by
  intro op
  refine ⟨by decide, ?_⟩
  generalize sampleWorld = w
  exact run_paired_iff op (by decide) (by decide) (by decide) ⟨[], 2, [], 3, [], rfl, by decide, by decide⟩
    (by decide) w

theorem run_not_paired :
    (∃ r w', (unary (.convert (.number .float32) none) (sampleRows .column)).run.run.run sampleWorld = (.ok [r], w') ∧
      ¬ (sampleRows .column).Paired r) ∧
    (∃ rs w', (binary .add (sampleRows .column) (.array (sampleRows .row))).run.run.run sampleWorld = (.ok rs, w') ∧
      ¬ (sampleRows .column).Paired (sampleRows .row)) := by
  -- The second element of the first row is the second one in rows and the third one in columns.
  have hcolumn : ¬ (sampleRows .column).Holds 1 [0, 1] := fun h => absurd h.2 (by decide)
  have hin : InShape [2, 3] [0, 1] := .cons (by decide) (.cons (by decide) .nil)
  constructor
  · have hlay :
        ((unary (.convert (.number .float32) none) (sampleRows .column)).run.run.run sampleWorld).1.toOption.map
          (·.map fun r => (r.type, r.shape, r.strides)) = some [(.number .float32, [2, 3], [12, 4])] := by
      decide
    generalize (unary (.convert (.number .float32) none) (sampleRows .column)).run.run.run sampleWorld = out
      at hlay ⊢
    obtain ⟨_ | rs, w'⟩ := out
    · cases hlay
    · obtain ⟨r, rfl, hr⟩ := map_eq_singleton_iff.1 (Option.some.inj hlay)
      obtain ⟨htype, hsh, hstr⟩ : r.type = .number .float32 ∧ r.shape = [2, 3] ∧ r.strides = [12, 4] := by
        simpa using hr
      refine ⟨r, w', rfl, fun h => hcolumn ((h 1 [0, 1]).2 ?_)⟩
      rw [DeviceArray.Holds, hsh, hstr, htype]
      exact ⟨hin, by decide⟩
  · have hends :
        ((binary .add (sampleRows .column) (.array (sampleRows .row))).run.run.run sampleWorld).1.toBool = true := by
      decide
    generalize (binary .add (sampleRows .column) (.array (sampleRows .row))).run.run.run sampleWorld = out at hends ⊢
    obtain ⟨_ | rs, w'⟩ := out
    · cases hends
    · exact ⟨rs, w', rfl, fun h => hcolumn ((h 1 [0, 1]).2 ⟨hin, by decide⟩)⟩

end PairingOperation

end ClHost
