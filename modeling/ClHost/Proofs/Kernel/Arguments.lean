import ClHost.Proofs.Host.Outcomes
import ClHost.Scan.Kernel

/-!
# What a kernel is started with

Setting the arguments of a kernel fills its slots one after the other, each by the rule of its parameter.
-/

namespace ClHost

open List World Binding Setting

def Piece.Fills (v : Actual) (x : BoundArg) : Piece → Prop
  | .whole => ∀ b, x = .buffer b ↔ v = .buffer b
  | .packed c => ∃ data, pack c v = .ok data ∧ x = .data data
  | _ => ∃ data, x = .data data

namespace Binding

def Fills (b : Binding) (v : Actual) (xs : List BoundArg) : Prop := List.Forall₂ (·.Fills v) b.pieces xs

lemma Fills.length {b : Binding} {v : Actual} {xs : List BoundArg} (h : b.Fills v xs) : xs.length = b.slots :=
  (Forall₂.length_eq h).symm

inductive FillsAll : List (Actual × Binding) → List BoundArg → Prop
  | nil : FillsAll [] []
  | cons {v : Actual} {b : Binding} {rest : List (Actual × Binding)} {xs ys : List BoundArg} :
      b.Fills v xs → FillsAll rest ys → FillsAll ((v, b) :: rest) (xs ++ ys)

lemma totalSlots_cons (b : Binding) (bs : List Binding) : totalSlots (b :: bs) = b.slots + totalSlots bs := by
  have hfold : ∀ (bs : List Binding) (n : Nat), bs.foldl (fun n b => n + b.slots) n = n + totalSlots bs := by
    intro bs
    induction bs with
    | nil => intro n; rfl
    | cons b bs ih =>
      intro n
      rw [totalSlots, foldl_cons, foldl_cons, ih, ih]
      omega
  rw [totalSlots, foldl_cons, hfold, Nat.zero_add]

end Binding

def Kernel.Fitted (c : Kernel) : Prop := c.bound.length = c.numArgs ∧ Binding.totalSlots c.bindings = c.numArgs

def Kernel.Rebound (c c' : Kernel) : Prop :=
  ∃ bound buffers, c' = { c with bound, buffers } ∧ bound.length = c.bound.length

lemma Kernel.Rebound.trans {c c' c'' : Kernel} (h : c.Rebound c') (h' : c'.Rebound c'') : c.Rebound c'' := by
  obtain ⟨bound, buffers, rfl, hlen⟩ := h
  obtain ⟨bound', buffers', rfl, hlen'⟩ := h'
  exact ⟨bound', buffers', rfl, hlen'.trans hlen⟩

def World.withKernel (w : World) (k : KernelId) (c : Kernel) : World :=
  { w with kernels := w.kernels.setIfInBounds k c }

section WithKernel

variable {w : World} {k : KernelId} {c c' : Kernel}

lemma World.withKernel_self (h : w.kernels[k]? = some c) : w.withKernel k c = w := by
  obtain ⟨hk, rfl⟩ := Array.getElem?_eq_some_iff.1 h
  simp [withKernel, Array.setIfInBounds, hk]

lemma World.getElem?_withKernel (h : w.kernels[k]? = some c) : (w.withKernel k c').kernels[k]? = some c' := by
  obtain ⟨hk, -⟩ := Array.getElem?_eq_some_iff.1 h
  simp [withKernel, hk]

end WithKernel

namespace Host

variable {w : World} {k : KernelId} {c : Kernel} {E : Fault → World → Prop}

lemma leads_kernel {Q : Kernel → World → Prop} (hc : w.kernels[k]? = some c) : Leads (kernel k) Q E w ↔ Q c w := by
  simp [kernel, hc]

lemma leads_modifyKernel {f : Kernel → Kernel} {Q : Unit → World → Prop} (hc : w.kernels[k]? = some c) :
    Leads (modifyKernel k f) Q E w ↔ Q () (w.withKernel k (f c)) := by
  have hmodify : w.kernels.modify k f = w.kernels.setIfInBounds k (f c) := by
    obtain ⟨hk, hget⟩ := Array.getElem?_eq_some_iff.1 hc
    apply Array.ext_getElem?
    intro i
    rw [Array.getElem?_modify, Array.getElem?_setIfInBounds]
    split
    · subst i
      simp [hget, hk]
    · rfl
  simp [modifyKernel, withKernel, hmodify]

variable {slot : Nat}

lemma leads_bindSlot {x : BoundArg} (hc : w.kernels[k]? = some c) :
    Leads (bindSlot k slot x) (fun _ w' => w' = w.withKernel k (c.bind slot x)) (fun _ w' => w' = w) w := by
  rw [bindSlot, leads_bind, leads_kernel hc]
  split
  · rfl
  · exact (leads_modifyKernel hc).2 rfl

lemma stays_memoryBytes (a : HostArray) : Stays Eq a.memoryBytes := by
  unfold HostArray.memoryBytes hostBytes
  split
  · exact (stays_fail _).bind fun _ => stays_get.map
  · exact stays_get.map

lemma stays_bytesOf (v : Actual) : Stays Eq (bytesOf v) := by
  cases v with
  | host a => exact (stays_memoryBytes a).ite (stays_fail _)
  | element | bytes => exact stays_pure _
  | _ => exact stays_fail _

lemma stays_hostSize (d : HostData) : Stays Eq d.size := by
  cases d with
  | array a => exact (stays_memoryBytes a).map
  | _ => exact (stays_pure _).map

lemma leads_pieceValue (v : Actual) (p : Piece) (w : World) :
    Leads (pieceValue v p) (fun x w' => w' = w ∧ p.Fills v x) (fun _ w' => w' = w) w := by
  have hdata : ∀ data, (∀ bytes, data = .ok bytes → p.Fills v (.data bytes)) →
      Leads (dataOf data) (fun x w' => w' = w ∧ p.Fills v x) (fun _ w' => w' = w) w := by
    intro data hfills
    cases data with
    | error => rfl
    | ok bytes => exact ⟨rfl, hfills bytes rfl⟩
  cases p with
  | whole =>
    have hread : ∀ {α : Type} {m : Host α} {f : α → BoundArg}, Stays Eq m → (∀ y, Piece.Fills v (f y) .whole) →
        Leads (do return f (← m)) (fun x w' => w' = w ∧ Piece.Fills v x .whole) (fun _ w' => w' = w) w := by
      intro α m f hm hf
      exact (hm.leads w).bind (fun y _ h => ⟨h.symm, hf y⟩) fun _ _ h => h.symm
    cases v with
    | shared d => exact hread (stays_hostSize d) fun _ => by simp [Piece.Fills]
    | buffer | none | localMemory | sampler | queue => exact ⟨rfl, by simp [Piece.Fills]⟩
    | _ => exact hread (stays_bytesOf _) fun _ => by simp [Piece.Fills]
  | packed => exact hdata _ fun bytes hby => ⟨bytes, hby, rfl⟩
  | _ => exact hdata _ fun bytes _ => ⟨bytes, rfl⟩

lemma leads_bindPiece (v : Actual) (p : Piece) (w : World) : Leads (bindPiece k slot v p)
      (fun _ w' => ∃ x, p.Fills v x ∧ (bindSlot k slot x).run.run w = (.ok (), w')) (fun _ w' => w' = w) w := by
  refine (leads_pieceValue v p w).andThen ?_
  rintro x w' ⟨hw', hx⟩
  rw [hw']
  have hslot : Leads (bindSlot k slot x) (fun _ _ => True) (fun _ w' => w' = w) w := by
    rw [bindSlot, leads_bind]
    change Leads (ite _ _ _) _ _ _
    split
    · rfl
    · trivial
  exact ((leads_run _ _).and hslot).mono (fun _ _ h => ⟨x, hx, h.1⟩) fun _ _ h => h.2

/-! ## Settings -/

def setSlots (k : KernelId) : List (Nat × BoundArg) → Host Unit
  | [] => pure ()
  | (slot, x) :: rest => do
    bindSlot k slot x
    setSlots k rest

def Sets (k : KernelId) (slots : List Nat) (xs : List BoundArg) (w w' : World) : Prop :=
  (setSlots k (slots.zip xs)).run.run w = (.ok (), w')

def Filled (ss : List (Setting Actual)) (xs : List BoundArg) : Prop :=
  List.Forall₂ (fun s x => s.piece.Fills s.value x) ss xs

/-- **What runs of settings do**: each slot is set in turn, until one of them cannot be. -/
lemma leads_runSettings {args : List Actual} (ss : List (Setting Actual)) (w : World) : Leads (runSettings k args ss)
      (fun _ w' => ∃ xs, Filled ss xs ∧ Sets k (ss.map (·.slot)) xs w w')
      (fun _ w' => ∃ xs, xs.length ≤ ss.length ∧ Sets k (ss.map (·.slot)) xs w w') w := by
  induction ss generalizing w with
  | nil => exact ⟨[], .nil, rfl⟩
  | cons s ss ih =>
    rw [runSettings, leads_bind, leads_attempt]
    refine (leads_bindPiece s.value s.piece w).mono ?_ ?_
    · rintro _ w1 ⟨x, hx, hrun⟩
      have hcons : ∀ {xs w'}, Sets k (ss.map (·.slot)) xs w1 w' → Sets k ((s :: ss).map (·.slot)) (x :: xs) w w' := by
        intro xs w' hxs
        rw [Sets, map_cons, zip_cons_cons, setSlots, run_bind, hrun]
        exact hxs
      refine (ih w1).mono ?_ ?_
      · rintro _ w' ⟨xs, hfilled, hxs⟩
        exact ⟨x :: xs, .cons hx hfilled, hcons hxs⟩
      · rintro _ w' ⟨xs, hlen, hxs⟩
        exact ⟨x :: xs, Nat.succ_le_succ hlen, hcons hxs⟩
    · rintro e _ rfl
      exact ⟨[], Nat.zero_le _, rfl⟩

end Host

lemma Setting.slots_ofBindings {α : Type} (argument slot : Nat) (vs : List (α × Binding)) :
    (ofBindings argument slot vs).map (·.slot) = range' slot (totalSlots (vs.map (·.2))) := by
  induction vs generalizing argument slot with
  | nil => rfl
  | cons vb vs ih =>
    have hpcs : (ofPieces vb.1 argument slot vb.2.pieces).map (·.slot) = range' slot vb.2.slots := by
      rw [ofPieces, map_map]
      have hplcs := congrArg (List.map (slot + ·)) (zipIdx_map_snd 0 vb.2.pieces)
      rwa [map_add_range', map_map] at hplcs
    rw [ofBindings, map_append, hpcs, ih, map_cons, totalSlots_cons, range'_append_1]

lemma Host.Filled.fillsAll {argument slot : Nat} {vs : List (Actual × Binding)} {xs : List BoundArg}
    (h : Filled (ofBindings argument slot vs) xs) : Binding.FillsAll vs xs := by
  induction vs generalizing argument slot xs with
  | nil =>
    cases h
    exact .nil
  | cons vb vs ih =>
    have hfst := forall₂_take (ofPieces vb.1 argument slot vb.2.pieces).length h
    have hrest := forall₂_drop (ofPieces vb.1 argument slot vb.2.pieces).length h
    rw [ofBindings, take_left] at hfst
    rw [ofBindings, drop_left] at hrest
    have hpcs : Forall₂ (fun p x => p.Fills vb.1 x) (vb.2.pieces.zipIdx.map Prod.fst) _ :=
      forall₂_map_left_iff.2 (forall₂_map_left_iff.1 hfst)
    rw [zipIdx_map_fst] at hpcs
    rw [← take_append_drop _ xs]
    exact .cons hpcs (ih hrest)

lemma Kernel.Rebound.refl (c : Kernel) : c.Rebound c := ⟨_, _, rfl, rfl⟩

lemma Kernel.bound_bind {c : Kernel} {slot : Nat} {done rest : List BoundArg} {x y : BoundArg}
    (h : c.bound = done ++ y :: rest) (hslot : done.length = slot) : (c.bind slot x).bound = done ++ x :: rest := by
  change c.bound.set slot x = _
  rw [h, ← hslot, set_append_right _ _ (Nat.le_refl _), Nat.sub_self, set_cons_zero]

namespace Host

variable {w w' : World} {k : KernelId} {c : Kernel}

lemma Sets.bound {rest xs : List BoundArg} (done : List BoundArg) (hc : w.kernels[k]? = some c) (hbd : c.bound = done ++ rest)
    (hxs : xs.length ≤ rest.length) (h : Sets k (range' done.length rest.length) xs w w') :
    ∃ c', c.Rebound c' ∧ w' = w.withKernel k c' ∧ c'.bound = done ++ xs ++ rest.drop xs.length := by
  induction xs generalizing done rest w c with
  | nil =>
    rw [Sets, zip_nil_right] at h
    obtain rfl : w = w' := (Prod.mk.inj h).2
    exact ⟨c, .refl c, (withKernel_self hc).symm, by simpa using hbd⟩
  | cons x xs ih =>
    obtain ⟨y, rest, rfl⟩ := exists_cons_of_length_pos (Nat.lt_of_lt_of_le (Nat.succ_pos _) hxs)
    rw [Sets, length_cons, range'_succ, zip_cons_cons, setSlots, run_bind] at h
    split at h
    · rename_i w1 hrun
      obtain rfl := (leads_bindSlot hc).of_run hrun
      have hfst : (c.bind done.length x).bound = (done ++ [x]) ++ rest := by
        rw [Kernel.bound_bind hbd rfl, append_assoc, singleton_append]
      obtain ⟨c', hc', rfl, hbd'⟩ := ih _ (getElem?_withKernel hc) hfst (Nat.le_of_succ_le_succ hxs)
        (by rwa [length_append, length_singleton])
      exact ⟨c', Kernel.Rebound.trans ⟨_, _, rfl, by simp⟩ hc', by simp [World.withKernel], by simpa using hbd'⟩
    · cases h

/-- **Setting the arguments of a fitted kernel fills its slots by its rules, and changes nothing else.** -/
lemma leads_setArguments {args : List Actual} (hc : w.kernels[k]? = some c) (hfit : c.Fitted) :
    Leads (setArguments k args)
      (fun _ w' => ∃ c', c.Rebound c' ∧ w' = w.withKernel k c' ∧ args.length = c.bindings.length ∧
        Binding.FillsAll (args.zip c.bindings) c'.bound)
      (fun _ w' => ∃ c', c.Rebound c' ∧ w' = w.withKernel k c') w := by
  rw [setArguments, leads_bind, leads_kernel hc, bindAll]
  by_cases hlen : args.length = c.bindings.length
  · have hslots : (ofBindings 0 0 (args.zip c.bindings)).map (·.slot) = range' 0 c.bound.length := by
      rw [slots_ofBindings, map_snd_zip (by omega), hfit.1, hfit.2]
    have hcnt : (ofBindings 0 0 (args.zip c.bindings)).length = c.bound.length := by
      simpa using congrArg List.length hslots
    simp only [hlen, bne_self_eq_false, Bool.false_eq_true, if_false]
    refine (leads_runSettings _ w).mono ?_ ?_
    · rintro _ w' ⟨xs, hfilled, hsets⟩
      have hxs : xs.length = c.bound.length := hfilled.length_eq.symm.trans hcnt
      obtain ⟨c', hc', rfl, hbd⟩ := Sets.bound [] hc rfl (Nat.le_of_eq hxs) (hslots ▸ hsets)
      refine ⟨c', hc', rfl, trivial, ?_⟩
      rw [hbd, nil_append, drop_of_length_le (Nat.le_of_eq hxs.symm), append_nil]
      exact hfilled.fillsAll
    · rintro _ w' ⟨xs, hle, hsets⟩
      obtain ⟨c', hc', hw', -⟩ := Sets.bound [] hc rfl (hcnt ▸ hle) (hslots ▸ hsets)
      exact ⟨c', hc', hw'⟩
  · simp only [bne_iff_ne.2 hlen, if_true]
    exact ⟨c, .refl c, (withKernel_self hc).symm⟩

end Host

def World.Answered (w w' : World) : Prop :=
  ∃ replies memory, memory.size = w.memory.size ∧ w' = { w with replies, memory }

instance : Std.Refl Answered := ⟨fun w => ⟨w.replies, w.memory, rfl, rfl⟩⟩

instance : IsTrans World Answered := by
  constructor
  rintro w _ _ ⟨replies, memory, hsize, rfl⟩ ⟨replies', memory', hsize', rfl⟩
  exact ⟨replies', memory', hsize'.trans hsize, rfl⟩

namespace Host

variable {w : World} {k : KernelId} {c : Kernel} {q : Queue} {range : LaunchRange} {wait : List EventId}

lemma stays_takeReply (name : String) : Stays Answered (takeReply name) := by
  refine stays_get_bind fun w => ?_
  split
  · exact refl w
  · exact ⟨_, w.memory, rfl, rfl⟩
  · exact refl w

lemma leads_launch (hc : w.kernels[k]? = some c) : Leads (launch q k range wait)
      (fun e w' => ∃ r w1, range.resolve = .ok r ∧ w.Answered w1 ∧ e = w.events ∧ w' = { w1 with
          events := w.events + 1
          log := w.log.push (.launch c.name c.program q.id r.globalSize r.localSize r.offset c.bound wait e) })
      (fun _ w' => w.Answered w') w := by
  unfold launch
  rw [leads_bind]
  cases range.resolve with
  | error => exact show w.Answered w from refl w
  | ok r =>
    rw [leads_lift_ok, leads_bind, leads_kernel hc]
    refine ((stays_takeReply c.name).leads w).andThen ?_
    intro replies w1 hw1
    refine ((stays_forIn (R := Answered) ?_ _).leads w1).bind ?_ ?_
    · intro reply _ _
      split
      · exact Stays.map (stays_modify fun w => ⟨w.replies, _, Array.size_modify, rfl⟩)
      · exact stays_pure _
    · intro _ w2 hw2
      obtain ⟨replies', memory, hsize, rfl⟩ : w.Answered w2 := IsTrans.trans _ _ _ hw1 hw2
      exact ⟨r, _, rfl, ⟨replies', memory, hsize, rfl⟩, rfl, rfl⟩
    · intro _ _ hw2
      exact IsTrans.trans _ _ _ hw1 hw2

/-- **A call starts a fitted kernel with just what its rules make of the arguments.** -/
lemma leads_call {args : List Actual} (hc : w.kernels[k]? = some c) (hfit : c.Fitted) : Leads (call q k range args wait)
      (fun e w' => ∃ r c' w1, range.resolve = .ok r ∧ c.Rebound c' ∧ args.length = c.bindings.length ∧
        Binding.FillsAll (args.zip c.bindings) c'.bound ∧ (w.withKernel k c').Answered w1 ∧ e = w.events ∧
        w' = { w1 with
          events := w.events + 1
          log := w.log.push (.launch c.name c.program q.id r.globalSize r.localSize r.offset c'.bound wait e) })
      (fun _ w' => ∃ c', c.Rebound c' ∧ (w.withKernel k c').Answered w') w := by
  refine (leads_setArguments hc hfit).bind ?_ ?_
  · rintro _ _ ⟨c', hc', rfl, hlen, hfills⟩
    refine (leads_launch (getElem?_withKernel hc)).mono ?_ fun _ _ h => ⟨c', hc', h⟩
    rintro e _ ⟨r, w1, hr, hw1, rfl, rfl⟩
    obtain ⟨bound, buffers, rfl, hbd⟩ := hc'
    exact ⟨r, _, w1, hr, ⟨bound, buffers, rfl, hbd⟩, hlen, hfills, hw1, rfl, rfl⟩
  · rintro _ _ ⟨c', hc', rfl⟩
    exact ⟨c', hc', refl _⟩

end Host

/-! ## What is passed for arguments -/

def passedValues : KernelArgument × Actual → List Actual
  | (.vector _ _ withOffset, .array a) => .buffer a.buffer :: if withOffset then [.literal (.int a.offset)] else []
  | (_, v) => [v]

def KernelArgument.Fits : KernelArgument × Actual → Prop
  | (.vector _ _ _, v) => ∃ a, v = .array a
  | _ => True

namespace Host

open KernelArgument

def passedArray : KernelArgument × Actual → Option DeviceArray
  | (.vector _ _ _, .array a) => some a
  | _ => none

def firstArray (params : List KernelArgument) (args : List Actual) : Option DeviceArray :=
  (params.zip args).findSome? passedArray

variable {w : World}

/-- **The values that elementwise kernels and reductions are passed.** -/
lemma leads_passArguments {refusal : String} {wait : List EventId} {params : List KernelArgument}
    {args : List Actual} : Leads (passArguments refusal wait params args)
      (fun p w' => w' = w ∧ p.values = (params.zip args).flatMap passedValues ∧ p.first = firstArray params args ∧
        ∀ x ∈ params.zip args, Fits x) (fun _ w' => w' = w) w := by
  refine leads_foldlM (P := fun done (p : PassedArguments) => p.values = done.flatMap passedValues ∧
    p.first = done.findSome? passedArray ∧ ∀ x ∈ done, Fits x) ?_ ⟨rfl, rfl, nofun⟩ _
  rintro done ⟨param, v⟩ p ⟨hval, hfst, hfits⟩
  simp only [List.forall_mem_append, List.forall_mem_singleton]
  cases param with
  | vector type name withOffset =>
    cases v with
    | array a =>
      cases hrows : a.contiguity.any with
      | false => simp [passArgument, hrows]
      | true =>
        simp only [passArgument, hrows]
        exact ⟨rfl, by cases withOffset <;> simp [passedValues, hval],
          by simp [passedArray, List.findSome?_append, hfst], hfits, a, rfl⟩
    | host h => cases hrows : h.isContiguous <;> simp [passArgument, hrows]
    | _ => exact rfl
  | _ =>
    exact ⟨rfl, by simp [passedValues, hval], by simp [passedArray, List.findSome?_append, hfst], hfits, trivial⟩

/-- **The values that scans are passed.** -/
lemma leads_passScanArguments {args : List (KernelArgument × Actual)} {p : PassedArguments} :
    Leads (args.foldlM (fun p (param, v) => passScanArgument p param v) p)
      (fun p' w' => w' = w ∧ p'.values = p.values ++ args.flatMap passedValues ∧ ∀ x ∈ args, Fits x)
      (fun _ w' => w' = w) w := by
  refine leads_foldlM (P := fun done (p' : PassedArguments) => p'.values = p.values ++ done.flatMap passedValues ∧
    ∀ x ∈ done, Fits x) ?_ ⟨by simp, nofun⟩ _
  rintro done ⟨param, v⟩ p ⟨hval, hfits⟩
  simp only [List.forall_mem_append, List.forall_mem_singleton]
  cases param with
  | vector type name withOffset =>
    cases v with
    | array a => exact ⟨rfl, by cases withOffset <;> simp [passedValues, hval], hfits, a, rfl⟩
    | _ => exact rfl
  | _ => exact ⟨rfl, by simp [passedValues, hval], hfits, trivial⟩

end Host

/-! ## The slots that a caller sets -/

open Host

namespace Host

variable {k : KernelId} {args : List Actual}

lemma leads_bindAll (bs : List Binding) (w : World) : Leads (bindAll bs k args)
      (fun _ w' => ∃ xs, xs.length = totalSlots bs ∧ Sets k (range (totalSlots bs)) xs w w')
      (fun _ w' => ∃ xs, xs.length ≤ totalSlots bs ∧ Sets k (range (totalSlots bs)) xs w w') w := by
  rw [bindAll]
  by_cases h : args.length = bs.length
  · have hslots : (ofBindings 0 0 (args.zip bs)).map (·.slot) = range (totalSlots bs) := by
      rw [slots_ofBindings, map_snd_zip (Nat.le_of_eq h.symm), range_eq_range']
    have hcnt : (ofBindings 0 0 (args.zip bs)).length = totalSlots bs := by
      simpa using congrArg List.length hslots
    rw [if_neg (by simpa using h)]
    refine (leads_runSettings _ w).mono ?_ ?_
    · rintro _ w' ⟨xs, hfilled, hsets⟩
      exact ⟨xs, hfilled.length_eq.symm.trans hcnt, hslots ▸ hsets⟩
    · rintro _ w' ⟨xs, hlen, hsets⟩
      exact ⟨xs, hcnt ▸ hlen, hslots ▸ hsets⟩
  · rw [if_pos (bne_iff_ne.2 h)]
    exact ⟨[], Nat.zero_le _, by rw [Sets, zip_nil_right]; rfl⟩

end Host

namespace Binding

def Rejected (w : WorkAround) (reals : Nat) (t : Option ElementType) : Prop :=
  ∃ p : Primitive, t = some (.number p) ∧ p.kind = .complex ∧ p ≠ .complex64 ∧
    (p = .complex128 → w = .refuse ∧ reals + 2 ≤ registerLimit)

def Accepted (w : WorkAround) : Nat → List (Option ElementType) → Prop
  | _, [] => True
  | reals, t :: ts => ¬ Rejected w reals t ∧ Accepted w (reals + realsOf t) ts

/-- The slots for a list of arguments, the first of them after as many slots of floating point. -/
def slotsNeeded (w : WorkAround) : Nat → List (Option ElementType) → Nat
  | _, [] => 0
  | reals, t :: ts =>
    (if w = .split ∧ t = some (.number .complex128) ∧ reals + 2 ≤ registerLimit then 2 else 1) +
      slotsNeeded w (reals + realsOf t) ts

variable {w : WorkAround} {reals : Nat} {t : Option ElementType}

lemma ofType_spec (w : WorkAround) (reals : Nat) (t : Option ElementType) : match ofType w reals t with
    | .ok b => ¬ Rejected w reals t ∧
      b.slots = if w = .split ∧ t = some (.number .complex128) ∧ reals + 2 ≤ registerLimit then 2 else 1
    | .error _ => Rejected w reals t := by
  rcases t with _ | t
  · simp [ofType, Rejected, slots, pieces]
  · by_cases hp : ∃ p, t = .number p
    · obtain ⟨p, rfl⟩ := hp
      rw [ofType]
      cases p with
      | complex128 => cases w <;> by_cases hreals : reals + 2 ≤ registerLimit <;>
          simp [ofComplex, Primitive.kind, Rejected, slots, pieces, hreals]
      | _ => simp [ofComplex, Primitive.kind, Rejected, slots, pieces]
    · have hne : ∀ p, t ≠ .number p := fun p h => hp ⟨p, h⟩
      rw [ofType]
      · by_cases hvoid : t.kind = .void <;> simp [Rejected, hne, hvoid, slots, pieces]
      · exact hne

lemma plan_spec (w : WorkAround) (reals : Nat) (types : List (Option ElementType)) :
    ((plan w reals types).2 = none ↔ Accepted w reals types) ∧
      (Accepted w reals types → totalSlots (plan w reals types).1 = slotsNeeded w reals types) := by
  induction types generalizing reals with
  | nil => simp [plan, Accepted, slotsNeeded, totalSlots]
  | cons t types ih =>
    rw [plan, Accepted, slotsNeeded]
    have hspec := ofType_spec w reals t
    generalize ofType w reals t = r at hspec ⊢
    cases r with
    | error => simp [show Rejected w reals t from hspec]
    | ok =>
      obtain ⟨hok, hslots⟩ := hspec
      simpa [hok, ih, totalSlots_cons, hslots] using (ih _).2

variable {slots : Int} {plan : List Binding × Option Fault}

lemma checked_eq_ok {bindings : List Binding} :
    checked slots plan = .ok bindings ↔ plan = (bindings, none) ∧ totalSlots bindings = slots := by
  rcases plan with ⟨bs, _ | e⟩
  · by_cases h : totalSlots bs = slots
    · simp only [checked, h, if_true, Except.ok.injEq, Prod.mk.injEq, and_true]
      exact ⟨fun hbs => ⟨hbs, hbs ▸ h⟩, And.left⟩
    · simp only [checked, h, if_false, Prod.mk.injEq, and_true, reduceCtorEq, false_iff]
      rintro ⟨rfl, hslots⟩
      exact h hslots
  · simp [checked]

lemma checked_eq_error {e : Fault} (h : checked slots plan = .error e) (hplan : plan.2 = none) :
    totalSlots plan.1 ≠ slots ∧ ∃ text, e = .told .type text := by
  rcases plan with ⟨bs, _ | _⟩
  · rw [checked] at h
    split at h
    · cases h
    · cases h
      exact ⟨‹_›, _, rfl⟩
  · cases hplan

end Binding

def World.Warned (w w' : World) : Prop := ∃ warnings, w' = { w with warnings }

instance : Std.Refl World.Warned := ⟨fun w => ⟨w.warnings, rfl⟩⟩

instance : IsTrans World World.Warned := by
  constructor
  rintro w _ _ ⟨warnings, rfl⟩ ⟨warnings', rfl⟩
  exact ⟨warnings', rfl⟩

namespace Host

variable {w : World}

lemma leads_warnings (message : String) (ts : List (Option ElementType)) : Leads (forIn ts PUnit.unit fun t _ => do
        if isComplex t then warn .user message
        return ForInStep.yield PUnit.unit) (fun _ w' => w.Warned w') Never w := by
  induction ts generalizing w with
  | nil => exact refl (r := World.Warned) w
  | cons t ts ih =>
    rw [forIn_cons]
    split
    · exact ih.imp fun _ _ h => IsTrans.trans _ _ _ ⟨_, rfl⟩ h
    · exact ih

lemma leads_planBindings (name : String) (slots : Int) (types : List (Option ElementType)) (workAround : WorkAround)
    (warned : Bool) : Leads (planBindings name slots types workAround warned)
      (fun bindings w' => checked slots (plan workAround 0 types) = .ok bindings ∧ w.Warned w')
      (fun e w' => checked slots (plan workAround 0 types) = .error e ∧ w.Warned w') w := by
  have hcheck : ∀ (r : Result (List Binding)) w', w.Warned w' →
      Leads (lift r) (fun bindings w' => r = .ok bindings ∧ w.Warned w') (fun e w' => r = .error e ∧ w.Warned w') w' := by
    intro r w' hw'
    cases r <;> exact ⟨rfl, hw'⟩
  unfold planBindings
  extract_lets plan rest
  split
  · exact (leads_warnings _ _).bind (fun _ => hcheck _)
  · exact hcheck _ w (refl w)

/-- **A caller that can be made sets each slot once, in order; one is refused when a type is, or when the slots do not
add up.** -/
theorem planBindings_sets_each_slot (name : String) (slots : Int) (types : List (Option ElementType))
    (workAround : WorkAround) (warned : Bool) :
    Leads (planBindings name slots types workAround warned)
      (fun bindings _ => Binding.slotsNeeded workAround 0 types = slots ∧
        (∀ {α : Type} (vs : List α), vs.length = bindings.length →
          (Setting.ofBindings 0 0 (vs.zip bindings)).map (·.slot) = range slots.toNat) ∧
        ∀ k args w₁, Leads (bindAll bindings k args)
          (fun _ w₂ => ∃ xs, xs.length = slots.toNat ∧ Sets k (range slots.toNat) xs w₁ w₂)
          (fun _ w₂ => ∃ xs, xs.length ≤ slots.toNat ∧ Sets k (range slots.toNat) xs w₁ w₂) w₁)
      (fun e _ => Binding.Accepted workAround 0 types → Binding.slotsNeeded workAround 0 types ≠ slots ∧
        ∃ text, e = .told .type text) w := by
  obtain ⟨hacc, hneeded⟩ := Binding.plan_spec workAround 0 types
  refine (leads_planBindings name slots types workAround warned).mono ?_ ?_
  · rintro bindings _ ⟨hchecked, -⟩
    obtain ⟨hplan, rfl⟩ := Binding.checked_eq_ok.1 hchecked
    rw [hplan] at hacc hneeded
    refine ⟨?_, fun vs hvs => ?_, fun k args w₁ => leads_bindAll bindings w₁⟩
    · rw [hneeded (hacc.1 rfl)]
    · rw [Setting.slots_ofBindings, map_snd_zip (Nat.le_of_eq hvs.symm), range_eq_range', Int.toNat_natCast]
  · rintro e _ ⟨hchecked, -⟩ hok
    rw [← hneeded hok]
    exact Binding.checked_eq_error hchecked (hacc.2 hok)

end Host

end ClHost
