import ClHost.Proofs.Elementwise.Ranges
import ClHost.Random.Run

/-!
# Counters of generators

The first three words of a counter stand for a number. A fill raises it by what its kernel may draw, so two fills that
are not empty start from different counters.
-/

namespace ClHost

open List ClHost.Random World

namespace Random.Counter

variable (c : Counter) (n : Int)

def value : Int := c.low + modulus * c.middle + modulus * modulus * c.high

lemma value_advance : (c.advance n).value = c.value + n := by
  simp only [value, advance, modulus, beq_iff_eq]
  split <;> dsimp only <;> omega

lemma low_advance : (c.advance n).low = (c.low + n) % modulus := by
  simp only [advance, beq_iff_eq]
  split <;> rfl

end Random.Counter

/-! ## What a fill does to a counter -/

def World.counter? (w : World) (i : Nat) : Option Counter := w.generators[i]?.map (·.counter)

/-- Nothing is drawn from a generator. -/
def World.Undrawn (w w' : World) : Prop := ∀ i, w'.counter? i = w.counter? i

lemma World.Undrawn.of_eq {w w' : World} (h : w'.generators = w.generators) : w.Undrawn w' :=
  fun i => by rw [counter?, h, counter?]

instance : QuietSteps Undrawn where
  refl _ _ := rfl
  trans _ _ _ h h' i := (h' i).trans (h i)
  aside h := .of_eq (congrArg (fun k => k.2.2.2.2.2.2) h.kept)
  push _ _ := .of_eq rfl
  modify _ := .of_eq rfl

lemma counter?_modifyGenerator (w : World) (i j : Nat) (f : Generator → Generator) :
    counter? { w with generators := w.generators.modify i f } j =
      if i = j then w.generators[j]?.map fun g => (f g).counter else w.counter? j := by
  rw [counter?, Array.getElem?_modify]
  split
  · rw [Option.map_map]
    rfl
  · rfl

namespace Host

variable (i : Nat) (r : FillRequest)

lemma undrawn_runSettings (k : KernelId) (args : List Actual) (ss : List (Setting Actual)) :
    Stays Undrawn (runSettings k args ss) := by
  induction ss with
  | nil => exact stays_pure _
  | cons s ss ih =>
    have hpiece : Stays Undrawn (pieceValue s.value s.piece) := stays_of_leads fun w =>
      (leads_pieceValue _ _ w).mono (fun _ _ h => .of_eq (by rw [h.1])) fun _ _ h => .of_eq (by rw [h])
    have hslot (x : BoundArg) : Stays Undrawn (bindSlot k s.slot x) :=
      (quiet_kernel k).bind fun _ => stays_guarded (stays_modify fun _ => .of_eq rfl)
    refine Stays.bind (hpiece.bind hslot).attempt fun r => ?_
    split
    · exact ih
    · exact stays_fail _

lemma undrawn_call (q : Queue) (k : KernelId) (range : LaunchRange) (args : List Actual) (wait : List EventId) :
    Stays Undrawn (call q k range args wait) := by
  refine Stays.bind ((quiet_kernel k).bind fun c => stays_guarded (undrawn_runSettings _ _ _)) fun _ => ?_
  refine (stays_lift _).bind fun r => (quiet_kernel k).bind fun c => ?_
  refine Stays.bind ((stays_takeReply c.name).mono ?_) fun replies => ?_
  · rintro w _ ⟨_, _, -, rfl⟩
    exact .of_eq rfl
  · refine Stays.bind (stays_forIn (fun reply _ _ => ?_) _) fun _ => ?_
    · split
      · exact Stays.map (stays_modify fun _ => .of_eq rfl)
      · exact stays_pure _
    · exact Stays.bind (stays_get_bind fun _ => .of_eq rfl) fun _ => Stays.map (stays_modify fun _ => .of_eq rfl)

lemma undrawn_randomKernel (d : Distribution) (t : ElementType) (form : Recipe) :
    Stays Undrawn (randomKernel i d t form) := by
  refine stays_get.map.bind fun g => ?_
  split
  · exact stays_pure _
  · refine (quiet_newProgram _ _).bind fun p => (quiet_build _ _ _).bind fun _ =>
      (quiet_programKernel _ _).bind fun k => Stays.bind ?_ fun _ => Stays.map ?_
    · exact stays_of_leads fun w => leads_declareTypes (R := Undrawn) _ _ w
    · refine stays_modify fun w j => ?_
      rw [counter?_modifyGenerator]
      split <;> rfl

lemma undrawn_startFill (form : Recipe) : Stays Undrawn (startFill i r form) :=
  (undrawn_randomKernel _ _ _ _).bind fun _ => stays_get.map.bind fun _ => (stays_lift _).bind fun _ =>
    (quiet_needQueue _).bind fun _ => (quiet_splay _ _ _).bind fun _ => undrawn_call _ _ _ _ _

/-- **A fill draws from its generator what it is sized for**, and one that fails draws nothing. -/
lemma leads_fillRandom (w : World) : Leads (fillRandom i r)
      (fun _ w' => ∃ form, recipe r.distribution r.array.type = .ok form ∧
        w'.counter? i = (w.counter? i).map (·.advance (r.array.size * form.draws)))
      (fun _ w' => w'.counter? i = w.counter? i) w := by
  rw [fillRandom, leads_bind]
  cases recipe r.distribution r.array.type with
  | error => rfl
  | ok form =>
    refine ((undrawn_startFill i r form).leads w).bind ?_ fun _ _ h => h i
    intro e w' hw'
    refine ⟨form, rfl, ?_⟩
    rw [← hw' i, counter?_modifyGenerator, if_pos rfl, counter?, Option.map_map]
    rfl

end Host

/-! ## Fills one after another -/

/-- A fill that was carried out, and the counters before and after it. -/
structure Fill where
  start : Counter
  request : FillRequest
  form : Recipe
  stop : Counter

def Fill.elements (f : Fill) : Int := f.request.array.size

/-- Fills arrays one after another, as far as they can be filled. -/
def Host.fillAll (i : Nat) : List FillRequest → Host (List Fill)
  | [] => return []
  | r :: rs => do
    let w ← get
    match ← attempt (fillRandom i r), recipe r.distribution r.array.type with
    | .ok _, .ok form =>
      let w' ← get
      return ⟨(w.counter? i).getD default, r, form, (w'.counter? i).getD default⟩ :: (← fillAll i rs)
    | _, _ => fillAll i rs

/-- Each of the fills draws what it is sized for, the first one from a counter and each other one from where the one before
it stops. -/
inductive Follow : Counter → List Fill → Prop
  | nil (c : Counter) : Follow c []
  | cons {f : Fill} {fills : List Fill} : f.stop = f.start.advance (f.elements * f.form.draws) → Follow f.stop fills →
    Follow f.start (f :: fills)

section Follow

variable {c : Counter} {fills : List Fill}

lemma Follow.stop_eq (h : Follow c fills) : ∀ f ∈ fills, f.stop = f.start.advance (f.elements * f.form.draws) := by
  induction h with
  | nil => exact forall_mem_nil _
  | cons hstop _ ih => exact forall_mem_cons.2 ⟨hstop, ih⟩

lemma Follow.value_le (h : Follow c fills) (hszs : ∀ f ∈ fills, 0 ≤ f.elements) :
    (∀ f ∈ fills, c.value ≤ f.start.value) ∧
      fills.Pairwise fun f g => f.start.value + f.elements * (f.form.draws : Int) ≤ g.start.value := by
  induction h with
  | nil => exact ⟨forall_mem_nil _, .nil⟩
  | @cons f fills hstop _ ih =>
    obtain ⟨hf, hfills⟩ := forall_mem_cons.1 hszs
    obtain ⟨hle, hpairs⟩ := ih hfills
    rw [hstop, Counter.value_advance] at hle
    have hdrawn : 0 ≤ f.elements * f.form.draws := Int.mul_nonneg hf (Int.natCast_nonneg _)
    exact ⟨forall_mem_cons.2 ⟨le_rfl, fun g hg => by linarith [hle g hg]⟩, pairwise_cons.2 ⟨hle, hpairs⟩⟩

end Follow

lemma Random.recipe_bounds {d : Distribution} {t : ElementType} {form : Recipe} (h : recipe d t = .ok form) :
    (form.draws = 1 ∨ form.draws = 2 ∧ form.lanes = 1) ∧ form.lanes ≤ 4 := by
  unfold recipe at h
  split at h <;> cases h <;> simp

namespace Host

variable {i : Nat} {w : World} {rs : List FillRequest}

lemma leads_fillAll {c : Counter} (hc : w.counter? i = some c) :
    Leads (fillAll i rs) (fun fills _ => Follow c fills ∧ ∀ f ∈ fills, f.request ∈ rs ∧
      recipe f.request.distribution f.request.array.type = .ok f.form) Never w := by
  induction rs generalizing w c with
  | nil => exact ⟨.nil c, forall_mem_nil _⟩
  | cons r rs ih =>
    -- What comes after the first request, whether it was carried out or not.
    have hrest {w' : World} {c' : Counter} (hw' : w'.counter? i = some c') :
        Leads (fillAll i rs) (fun fills _ => Follow c' fills ∧ ∀ f ∈ fills, f.request ∈ r :: rs ∧
          recipe f.request.distribution f.request.array.type = .ok f.form) Never w' :=
      (ih hw').imp fun fills _ h => ⟨h.1, fun f hf => ⟨mem_cons_of_mem _ (h.2 f hf).1, (h.2 f hf).2⟩⟩
    rw [fillAll, leads_bind, leads_get, leads_bind, leads_attempt]
    refine (leads_fillRandom i r w).mono ?_ fun e w' hw' => hrest (hw'.trans hc)
    rintro e w' ⟨form, hform, hw'⟩
    rw [hc, Option.map_some] at hw'
    simp only [hform, hc, hw', leads_bind, leads_get]
    refine (hrest hw').imp ?_
    rintro fills _ ⟨hfollow, hfills⟩
    exact ⟨.cons (f := ⟨c, r, form, _⟩) rfl hfollow, forall_mem_cons.2 ⟨⟨mem_cons_self, hform⟩, hfills⟩⟩

/-- **Fills raise the counter of their generator by what they draw**, so no two of them start from the same counter if the
first of the two has elements. -/
theorem fills_raise_counters (hi : i < w.generators.size) : Leads (fillAll i rs)
      (fun fills _ =>
        (∀ f ∈ fills, f.stop.value = f.start.value + f.elements * f.form.draws ∧ 0 ≤ f.stop.low ∧ f.stop.low < modulus) ∧
        ((∀ r ∈ rs, 0 ≤ r.array.size) → fills.Pairwise fun f g => 0 < f.elements → f.start ≠ g.start))
      (fun _ _ => False) w := by
  have hc : w.counter? i = some w.generators[i].counter := by rw [counter?, Array.getElem?_eq_getElem hi, Option.map_some]
  refine (leads_fillAll hc).imp fun fills _ ⟨hfollow, hfills⟩ => ⟨fun f hf => ?_, fun hszs => ?_⟩
  · rw [hfollow.stop_eq f hf, Counter.value_advance, Counter.low_advance]
    exact ⟨rfl, Int.emod_nonneg _ (by decide), Int.emod_lt_of_pos _ (by decide)⟩
  · refine (hfollow.value_le fun f hf => hszs _ (hfills f hf).1).2.imp_of_mem fun {f g} hf _ hle hpos heq => ?_
    have hdraws : 0 < f.form.draws := by
      have := (recipe_bounds (hfills f hf).2).1
      omega
    rw [heq] at hle
    linarith [Int.mul_pos hpos (Int.natCast_pos.2 hdraws)]

def sampleFills : List FillRequest :=
  [.uniform, .normal].map fun d => ⟨d, Reduction.sampleArray, .literal (.int 1), .literal (.int 0), none⟩

/-- A generator with both kernels made, and memory for the array it fills. -/
def sampleGenerator (c : Counter) : World :=
  let bindings := replicate 5 (.packed 'i') ++ [.generic, .packed 'l', .packed 'f', .packed 'f']
  let made := [Distribution.uniform, .normal].map fun d => ((d, ElementType.number .float32), 0)
  { memory := #[⟨.buffer, 1, ⟨160, []⟩⟩], eventLists := #[[]], generators := #[⟨default, .philox, [1], c, made⟩]
    kernels := #[⟨0, "uniform", 9, none, bindings, none, replicate 9 .unset, [], []⟩] }

theorem fills_raise_counters_twice : let w := sampleGenerator ⟨-1, -2, 3, 0⟩
    ((fillAll 0 sampleFills).run.run w).1.toOption.map (map Fill.start) = some [⟨-1, -2, 3, 0⟩, ⟨39, -2, 3, 0⟩] ∧
    0 < w.generators.size ∧
    Leads (fillAll 0 sampleFills)
      (fun fills _ =>
        (∀ f ∈ fills, f.stop.value = f.start.value + f.elements * f.form.draws ∧ 0 ≤ f.stop.low ∧ f.stop.low < modulus) ∧
        ((∀ r ∈ sampleFills, 0 ≤ r.array.size) → fills.Pairwise fun f g => 0 < f.elements → f.start ≠ g.start))
      (fun _ _ => False) w := by
  intro w
  have hw : 0 < w.generators.size := by decide
  refine ⟨by decide +kernel, hw, ?_⟩
  clear_value w
  exact fills_raise_counters hw

end Host

/-! ## What work items draw -/

lemma LoopRuns.last {condition : Int → Prop} {stride i j : Int} {round : Nat} (h : LoopRuns condition (· + stride) i round j) :
    j = i + stride * round ∧ condition j := by
  induction h with
  | first hi => exact ⟨by simp, hi⟩
  | next _ _ ih =>
    refine ⟨?_, ih.2⟩
    rw [ih.1, Nat.cast_succ]
    ring

lemma Follow.low {c : Counter} {fills : List Fill} (h : Follow c fills) (hc : 0 ≤ c.low ∧ c.low < 2147483648) :
    ∀ f ∈ fills, 0 ≤ f.start.low ∧ f.start.low < 2147483648 := by
  induction h with
  | nil => exact forall_mem_nil _
  | cons hstop _ ih =>
    refine forall_mem_cons.2 ⟨hc, ih ?_⟩
    rw [hstop, Counter.low_advance, modulus]
    omega

namespace Random.Counter

variable {c : Counter}

/-- The number of the words of a work item, which have no sign. -/
def wordCount : Int := 4294967296

def words (c : Counter) : Counter :=
  ⟨c.low % wordCount, c.middle % wordCount, c.high % wordCount, c.last % wordCount⟩

/-- How a work item counts on. -/
def next (c : Counter) : Counter :=
  let low := (c.low + 1) % wordCount
  let middle := (c.middle + 1) % wordCount
  if low ≠ 0 then { c with low }
  else { c with low, middle, high := if middle ≠ 0 then c.high else (c.high + 1) % wordCount }

lemma next_iterate {j : Nat} (hlow : 0 ≤ c.low) (hj : c.low + j < wordCount) : next^[j] c = { c with low := c.low + j } := by
  induction j with
  | zero => simp
  | succ j ih =>
    unfold wordCount at hj ih
    rw [Function.iterate_succ_apply', ih (by omega), next]
    have hmod : (c.low + j + 1) % wordCount = c.low + (j + 1 : Nat) := by
      unfold wordCount
      omega
    simp only [hmod]
    rw [if_pos (by omega)]

/-- The words that a fill passes on keep their values. -/
def Fits (c : Counter) : Prop := ∀ n ∈ [c.middle, c.high], -2147483648 ≤ n ∧ n < 2147483648

end Random.Counter

open Counter

/-- A work item draws with a counter: once or twice in each round of its loop, and then for the elements that are left. -/
def Fill.Draws (f : Fill) (items item : Nat) (x : Counter) : Prop :=
  ∃ j, x = next^[j] f.start.words ∧ (j < f.form.draws ∨ ∃ round k,
    LoopRuns (· + 4 < f.elements * f.form.lanes) (· + 4 * items) (4 * item) round k ∧ j < f.form.draws * (round + 2))

/-- No work item draws with the same counter in two fills. -/
def Fill.Apart (f g : Fill) : Prop :=
  ∀ items items' item x, item < items → item < items' → f.Draws items item x → ¬ g.Draws items' item x

lemma Fill.Draws.exists_lt {f : Fill} {items item : Nat} {x : Counter} (h : f.Draws items item x) (hitem : item < items)
    (hform : recipe f.request.distribution f.request.array.type = .ok f.form)
    (hsize : 0 < f.elements ∧ f.elements < 2147483648) (hlow : 0 ≤ f.start.low ∧ f.start.low < 2147483648) :
    ∃ j : Nat, j < f.elements * f.form.draws ∧ x = { f.start.words with low := f.start.low + j } := by
  obtain ⟨j, rfl, hj⟩ := h
  have hwds : f.start.words.low = f.start.low := Int.emod_eq_of_lt hlow.1 (by unfold wordCount; omega)
  have hbd : j < f.elements * f.form.draws ∧ (j : Int) < 2147483648 := by
    obtain ⟨hdraws, hlanes⟩ := recipe_bounds hform
    rcases hj with hj | ⟨round, k, hruns, hj⟩
    · rcases hdraws with h | ⟨h, -⟩ <;> rw [h] at hj ⊢ <;> omega
    · obtain ⟨rfl, hk⟩ := hruns.last
      have hrd : (round : Int) ≤ items * round := le_mul_of_one_le_left (by omega) (by omega)
      have hstored : f.elements * f.form.lanes ≤ f.elements * 4 := Int.mul_le_mul_of_nonneg_left (by omega) hsize.1.le
      rcases hdraws with h | ⟨h, h'⟩
      · rw [h] at hj ⊢
        constructor <;> push_cast <;> linarith
      · rw [h] at hj ⊢
        rw [h', Nat.cast_one, mul_one] at hk
        constructor <;> push_cast <;> linarith
  refine ⟨j, hbd.1, ?_⟩
  rw [next_iterate (by omega) (by unfold wordCount; omega), hwds]

namespace Host

variable {i : Nat} {w : World} {c : Counter} {rs : List FillRequest}

/-- **Fills of arrays with elements draw apart**, from a first word without a sign and while the words passed on fit. -/
theorem fills_draw_apart (hc : w.counter? i = some c) (hlow : 0 ≤ c.low ∧ c.low < 2147483648)
    (hszs : ∀ r ∈ rs, 0 < r.array.size ∧ r.array.size < 2147483648) :
    Leads (fillAll i rs) (fun fills _ => (∀ f ∈ fills, f.start.Fits) → fills.Pairwise Fill.Apart) Never w := by
  refine (leads_fillAll hc).imp ?_
  rintro fills _ ⟨hfollow, hfills⟩ hfit
  have hsize (f) (hf : f ∈ fills) : 0 < f.elements ∧ f.elements < 2147483648 := hszs _ (hfills f hf).1
  refine (hfollow.value_le fun f hf => (hsize f hf).1.le).2.imp_of_mem fun {f g} hf hg hle => ?_
  intro items items' item x hitem hitem' hx hx'
  obtain ⟨j, hj, hx⟩ := hx.exists_lt hitem (hfills f hf).2 (hsize f hf) (hfollow.low hlow f hf)
  obtain ⟨j', -, hx'⟩ := hx'.exists_lt hitem' (hfills g hg).2 (hsize g hg) (hfollow.low hlow g hg)
  have hfit' := hfit g hg
  replace hfit := hfit f hf
  simp only [hx, words, wordCount, Counter.mk.injEq, Fits, forall_mem_cons] at hx' hfit hfit'
  have hmid : f.start.middle = g.start.middle := by omega
  have hhigh : f.start.high = g.start.high := by omega
  rw [value, value, hmid, hhigh] at hle
  omega

theorem fills_draw_apart_twice : let w := sampleGenerator ⟨5, -2, 3, 0⟩
    ((fillAll 0 sampleFills).run.run w).1.toOption.map (map Fill.start) = some [⟨5, -2, 3, 0⟩, ⟨45, -2, 3, 0⟩] ∧
    Leads (fillAll 0 sampleFills) (fun fills _ => (∀ f ∈ fills, f.start.Fits) → fills.Pairwise Fill.Apart) Never w := by
  intro w
  have hc : w.counter? 0 = some ⟨5, -2, 3, 0⟩ := rfl
  refine ⟨by decide +kernel, ?_⟩
  clear_value w
  exact fills_draw_apart hc (by decide) (by decide)

end Host

end ClHost
