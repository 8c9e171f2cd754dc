import ClHost.Array.Gather
import ClHost.Proofs.Array.Tracking
import ClHost.Proofs.Program.Building
import Mathlib.Algebra.Order.Ring.Nat

/-!
# Building elementwise kernels keeps track

The kernel of an operation is built when it is first asked for, from its source alone.
-/

namespace ClHost

open List World KernelArgument

/-- A kernel was built for an elementwise operation: it has the arguments that the operation declares and then those
for the elements, and was made from the source for them. -/
def ElementwiseCode.Built (c : ElementwiseCode) (r : TypeRegistry) (overRange : Bool) (w : World)
    (x : KernelId × List KernelArgument) : Prop :=
  ∃ declared texts types preamble loopPrep, c.arguments.read r true = .ok declared ∧
    x.2 = declared ++ ElementwiseCode.indexParameters overRange ∧ x.2.mapM (declarator r) = .ok texts ∧
    passedTypes x.2 = .ok types ∧
    w.Generated x.1 ⟨c.source overRange preamble loopPrep texts, c.name, types⟩

lemma ElementwiseCode.Built.lasts {c : ElementwiseCode} {r : TypeRegistry} {overRange : Bool} {w w' : World}
    {x : KernelId × List KernelArgument} (h : c.Built r overRange w x) (hw : w.Lasts w') : c.Built r overRange w' x := by
  obtain ⟨declared, texts, types, preamble, loopPrep, hread, hpars, htxs, htys, hgen⟩ := h
  exact ⟨declared, texts, types, preamble, loopPrep, hread, hpars, htxs, htys, hgen.lasts hw⟩

namespace Host

lemma quiet_typesOf {R : World → World → Prop} [QuietSteps R] (args : List KernelArgument) :
    Stays R (typesOf args) := by
  refine stays_mapM fun a _ => ?_
  cases a.type? with
  | some t => exact stays_pure t
  | none => exact stays_fail _

variable (d : DeviceRef) (context : Context)

variable (t : ElementType) (c : ElementwiseCode) (overRange : Bool)

lemma reaches_buildElementwise (w : World) :
    Reaches Made (buildElementwise context c overRange) (fun x w' => c.Built w.registry overRange w' x) w := by
  refine reaches_registry_bind (reaches_lift_bind fun args hargs => ?_)
  extract_lets params finish
  have hfinish : ∀ enabled w2, w.Made w2 →
      Reaches Made (finish enabled) (fun x w' => c.Built w.registry overRange w' x) w2 := by
    intro enabled w2 hw2
    refine quiet_registry.reaches_bind fun _ w3 hw3 => (stays_lift _).reaches_bind fun offsets w4 hw4 => ?_
    replace hw4 := hw2.trans (hw3.trans hw4)
    extract_lets make check
    have hmake : ∀ x w5, w.Made w5 → Reaches Made (make x) (fun x w' => c.Built w.registry overRange w' x) w5 := by
      intro x w5 hw5
      refine reaches_registry_bind ?_
      rw [hw5.registry]
      refine reaches_lift_bind fun texts htxs => ?_
      refine reaches_bind (reaches_newProgram _ _) fun p w6 _ hp => ?_
      refine (quiet_build _ _ _).reaches_bind fun _ w7 hw7 => ?_
      refine reaches_bind (reaches_programKernel_of_holds (hp.lasts hw7.toLasts) _) fun k w8 _ hk => ?_
      refine reaches_lift_bind fun types htys => ?_
      refine reaches_bind (reaches_declareTypes_of_fresh hk types) fun _ w9 _ hgen => ?_
      exact reaches_pure ⟨args, texts, types, _, _, hargs, rfl, htxs, htys, hgen⟩
    have hcheck : ∀ x, Reaches Made (check x) (fun x w' => c.Built w.registry overRange w' x) w4 := fun x =>
      reaches_ite ((quiet_warn _ _).reaches_bind fun x w5 hw5 => hmake x w5 (hw4.trans hw5)) (hmake () w4 hw4)
    exact reaches_ite (reaches_fail_bind _ _) (hcheck ())
  refine reaches_ite ?_ ?_
  · refine (quiet_typesOf args).reaches_bind fun types w2 hw2 => ?_
    exact (stays_pure _).reaches_bind fun enabled w3 hw3 => hfinish enabled w3 (hw2.trans hw3)
  · exact (stays_pure _).reaches_bind hfinish

lemma quiet_buildElementwise : Stays Quiet (buildElementwise context c overRange) :=
  (stays_of_reaches (reaches_buildElementwise context c overRange)).mono fun _ _ h => h.toQuiet

/-! ## Layouts of structures -/

lemma quiet_elements (a : HostArray) : Stays Quiet a.elements := (quiet_hostBytes _).map

lemma keeps_report (queue : Queue) (k : KernelId) (count : Nat) : Stays Keeps (do
    let result ← newRows queue (.number .uint32) [(count : Int)] none
    let _ ← call queue k { globalSize := [1], localSize := some [1] } [.buffer result.buffer] []
    record (.finish queue.id)
    let words ← (← getArray result none).elements
    return (result.buffer, words.map fun e => ofLittleEndian e.bytes) : Host (BufferId × List Nat)) := by
  refine stays_keeps_of_leads fun w arrays h => ?_
  refine (leads_newArray_tracks h).bind ?_ ?_
  · rintro r w1 ⟨hr, hgr, hevs, hlisted⟩
    refine (issues_call _ _ _ _ _ _ w1 hr.fitted).bind ?_ fun _ w' hw =>
      ⟨(hr.quiet hw).subset (subset_cons_self _ _), hgr.trans hw.grown⟩
    rintro _ w2 ⟨c, rfl, ⟨hwait, hq, htch, hwr⟩, hiss⟩
    have hsettled : ∀ b ∈ c.touched, ClHost.Settled w1.log.toList b c.wait := by
      intro b hb
      obtain rfl : b = r.buffer := by simpa using htch b hb
      rw [hwait, ← hlisted]
      exact hr.settled r mem_cons_self
    have hnoted := hr.issued hiss hsettled mem_cons_self fun b hb => by simpa [eq_comm] using hwr b hb
    -- The event of the launch is not kept, but the queue is waited for.
    rw [leads_bind, leads_record]
    have hawaited : Awaited (w2.log.push (.finish queue.id)).toList c.event := by
      rw [Array.toList_push]
      exact .finish rfl (by simp [hiss.commands]) hq
    have hfin : Tracks { w2 with log := w2.log.push (.finish queue.id) } (r :: arrays) := by
      refine hnoted.forget Array.toList_push (by simp [Record.command?]) rfl rfl (by simp [noted]) hnoted.fitted ?_
      rintro a - e he
      rcases mem_listed_of_noted he with he | rfl
      · exact .inl he
      · exact .inr hawaited
    have hgr3 : w.Grown { w2 with log := w2.log.push (.finish queue.id) } :=
      (hgr.trans hiss.grown).trans ⟨⟨_, Array.toList_push⟩, Nat.le_refl _, fun _ _ => rfl⟩
    rw [getArray, bind_assoc, leads_bind]
    refine ((leads_readArray_tracks hfin mem_cons_self none none true).and
      (leads_readArray hfin.fitted none none true)).mono ?_ ?_
    · rintro ⟨host, e⟩ w4 ⟨ht, hstep⟩
      have hgr4 : w.Grown w4 := hstep.elim (fun hw => hgr3.trans hw.grown) fun hw =>
        hgr3.enqueued hw (Nat.le_of_eq hevs.symm)
      refine leads_quiet_bind (quiet_elements host) (fun _ w5 hw5 => ?_) fun _ w5 hw5 => ?_
      all_goals exact ⟨(ht.quiet hw5).subset (subset_cons_self _ _), hgr4.trans hw5.grown⟩
    · rintro _ w4 ⟨ht, hw⟩
      exact ⟨ht.subset (subset_cons_self _ _), hgr3.trans hw.grown⟩
  · rintro _ w' rfl
    exact ⟨h, .refl _⟩

lemma keeps_reportLayout (context : Option Context) (source : String) (count : Nat) :
    Stays Keeps (reportLayout d context source count) := by
  unfold reportLayout
  extract_lets ask
  have hask : ∀ c, Stays Keeps (ask c) := fun c =>
    (quiet_newQueue _ _ _).keeps.bind fun queue => (quiet_newProgram _ _).keeps.bind fun p =>
      (quiet_build _ _ _).keeps.bind fun _ => (quiet_programKernel _ _).keeps.bind fun k => keeps_report queue k count
  cases context with
  | none => exact (quiet_newContext _ _).keeps.bind hask
  | some c => exact (stays_pure c).bind hask

lemma quiet_settleOffsets (fields : List Field) (size : Nat) (reported : List Nat) :
    Stays Quiet (settleOffsets d t fields size reported) :=
  Stays.ite ((stays_pure _).ite ((quiet_deviceText d).bind fun _ => stays_fail _)) (stays_pure _)

lemma keeps_matchLayout (r : TypeRegistry) (depth : Nat) (name : String) (t : ElementType) (context : Option Context) :
    Stays Keeps (matchLayout r d depth name t context) := by
  induction depth generalizing name t context with
  | zero => exact stays_fail _
  | succ depth ih =>
    refine (stays_lift _).bind fun declaration => stays_get.bind fun w => Stays.map ?_
    dsimp only
    cases find? _ w.layouts with
    | some known => exact stays_pure _
    | none =>
      refine Stays.bind (stays_mapM fun part _ => ?_) fun declared => ?_
      · have hpart : Stays Keeps (do
            return (← matchLayout r d depth (← lift (r.typeName part)) part none).2 : Host String) :=
          (stays_lift _).bind fun _ => (ih _ _ _).map
        exact stays_guarded hpart
      · refine (keeps_reportLayout _ _ _ _).bind fun report => Stays.keeps ?_
        refine (quiet_settleOffsets _ _ _ _ _).bind fun offsets => (quiet_record rfl).bind fun _ => ?_
        exact stays_guarded (stays_guarded (Stays.map (stays_modify fun _ => .of_eq rfl rfl rfl rfl rfl)))

lemma keeps_structureDeclaration : Stays Keeps (structureDeclaration d t) := by
  unfold structureDeclaration
  split
  · refine (quiet_typeName _).keeps.bind fun name =>
      (quiet_registry.keeps.bind fun r => keeps_matchLayout d r _ _ _ _).bind fun found => ?_
    exact (quiet_require _).keeps.map
  · exact stays_pure _

/-- **Getting the kernel of an operation keeps track.** -/
lemma keeps_standardKernel (op : StandardOperation) : Stays Keeps (standardKernel context op) := by
  refine stays_get.bind fun w => ?_
  split
  · exact stays_pure _
  · refine quiet_registry.keeps.bind fun r => (stays_lift _).bind fun code => ?_
    extract_lets make
    have hmake : ∀ preamble, Stays Keeps (make preamble) := fun preamble =>
      Stays.keeps <| (quiet_buildElementwise _ _ _).map.bind fun k =>
        Stays.map (stays_modify fun _ => .of_eq rfl rfl rfl rfl rfl)
    split
    · exact (keeps_structureDeclaration _ _).bind hmake
    · exact (stays_fail _).bind hmake
    · exact (stays_pure _).bind hmake

/-! ## Launches -/

def indexNumbers (selection : List ElementSelection) (first : Option DeviceArray) : List (String × Int) :=
  let ofRange (r : IndexRange) : List (String × Int) := [("start", r.start), ("stop", r.stop), ("step", r.step)]
  match selection, first with
  | [], some a => [("n", a.size)]
  | [.range start (some stop) step], _ => ofRange ⟨start.getD 0, stop, step.getD 1⟩
  | [.slice start stop step], some a =>
    match IndexRange.ofSlice start stop step a.size with
    | .ok r => ofRange r
    | .error _ => []
  | _, _ => []

section Launches

variable {R : World → World → Prop} [QuietSteps R]

lemma quiet_splay (q : Queue) (n : Int) (kernelLimit : Option Nat) : Stays R (splay q n kernelLimit) :=
  (quiet_deviceInfo _).map

lemma quiet_splayArray (a : DeviceArray) (q : Queue) (kernelLimit : Option Nat) :
    Stays R (splayArray a q kernelLimit) := stays_guarded (quiet_splay _ _ _)

lemma quiet_elementwiseQueue (queue : Option Queue) (first : Option DeviceArray) :
    Stays R (elementwiseQueue queue first) := by
  unfold elementwiseQueue
  split
  · exact stays_pure _
  · exact stays_pure _
  · exact stays_fail _

lemma reaches_chosenElements {w : World} {selection : List ElementSelection} {first : Option DeviceArray} :
    Reaches R (chosenElements selection first) (fun chosen _ => match chosen with
        | none => selection = []
        | some (start, stop, step) => selection ≠ [] ∧ ∀ n, stop = some n →
          indexNumbers selection first = [("start", start), ("stop", n), ("step", step)]) w := by
  unfold chosenElements
  split
  · exact reaches_pure rfl
  · exact refl (r := R) w
  · refine reaches_lift_bind fun r hr => ?_
    refine reaches_pure ⟨nofun, ?_⟩
    rintro _ ⟨⟩
    simp only [indexNumbers, hr]
  · refine reaches_pure ⟨nofun, ?_⟩
    rintro n ⟨⟩
    rfl
  · exact refl (r := R) w

/-- **What an elementwise operation is launched with**: what is passed for its arguments and the numbers that choose
elements. -/
lemma reaches_prepareLaunch {w : World} (k : KernelId) (params : List KernelArgument) (args : List Actual)
    (queue : Option Queue) (selection : List ElementSelection) (wait : List EventId) (unknown : List String) :
    Reaches R (prepareLaunch k params args queue selection wait unknown)
      (fun l _ => l.kernel = k ∧ (∀ x ∈ params.zip args, Fits x) ∧
        ElementwiseCode.indexParameters (!selection.isEmpty) =
          (indexNumbers selection (firstArray params args)).map (fun x => .scalar (.number .int64) x.1) ∧
        l.args = (params.zip args).flatMap passedValues ++
          (indexNumbers selection (firstArray params args)).map fun x => .literal (.int x.2)) w := by
  refine Leads.bind leads_passArguments ?_ fun _ w' h => h ▸ refl (r := R) w'
  rintro passed w ⟨rfl, hval, hfst, hfits⟩
  rw [← hval, ← hfst]
  refine reaches_ite (reaches_fail_bind _ _) ((quiet_elementwiseQueue _ _).reaches_bind fun queue? w1 _ => ?_)
  refine reaches_bind reaches_chosenElements fun chosen w2 _ hchosen => ?_
  refine (quiet_needQueue _).reaches_bind fun q w3 _ => (quiet_groupLimit _ _).reaches_bind fun limit w4 _ => ?_
  split
  · refine (stays_lift _).reaches_bind fun n w5 _ => (quiet_splay _ _ _).reaches_bind fun s w6 _ => reaches_pure ?_
    obtain ⟨hsel, hnums⟩ := hchosen
    rw [hnums _ rfl, isEmpty_eq_false_iff.2 hsel]
    exact ⟨rfl, hfits, rfl, rfl⟩
  · exact refl (r := R) w4
  · rename_i a ha
    refine (quiet_splayArray _ _ _).reaches_bind fun s w5 _ => reaches_pure ⟨rfl, hfits, ?_⟩
    rw [hchosen, ha]
    exact ⟨rfl, rfl⟩
  · exact refl (r := R) w4

end Launches

end Host

/-! ## Arrays in chunks -/

open Gather

namespace Gather

/-- Chunks that follow one another from a place to another. -/
inductive Spans : Nat → Nat → List (Nat × Nat) → Prop
  | nil {n : Nat} : Spans n n []
  | cons {start size stop : Nat} {cs : List (Nat × Nat)} :
      0 < size → Spans (start + size) stop cs → Spans start stop ((start, size) :: cs)

lemma spans_chunks (n : Nat) : Spans 0 n (chunks n) := by
  unfold chunks
  extract_lets size
  by_cases hn : n = 0
  · subst hn
    exact .nil
  have hsize : 0 < size := Nat.lt_min.2 ⟨Nat.pos_of_ne_zero hn, by decide⟩
  -- The chunks from one on start where those before it stop.
  have hfrom : ∀ k i, i + k = (n + size - 1) / size →
      Spans (min (i * size) n) n ((range' i k).map fun i => (i * size, min size (n - i * size))) := by
    intro k
    induction k with
    | zero =>
      intro i hi
      have hlast : n + size - 1 < (i + 1) * size := (Nat.div_lt_iff_lt_mul hsize).1 (by omega)
      rw [Nat.add_one_mul] at hlast
      rw [Nat.min_eq_right (by omega)]
      exact .nil
    | succ k ih =>
      intro i hi
      have hst : (i + 1) * size ≤ n + size - 1 := (Nat.le_div_iff_mul_le hsize).1 (by omega)
      rw [Nat.add_one_mul] at hst
      rw [Nat.min_eq_left (by omega), range'_succ, map_cons]
      refine .cons (by omega) ?_
      have hnext : i * size + min size (n - i * size) = min ((i + 1) * size) n := by
        rw [Nat.add_one_mul]
        omega
      rw [hnext]
      exact ih (i + 1) (by omega)
  rw [if_neg (by simpa using Nat.ne_of_gt hsize), range_eq_range']
  simpa using hfrom _ 0 (Nat.zero_add _)

lemma Spans.le {start stop : Nat} {cs : List (Nat × Nat)} (h : Spans start stop cs) :
    start ≤ stop ∧ ∀ c ∈ cs, c.1 + c.2 ≤ stop := by
  induction h with
  | nil => simp
  | cons _ _ ih => exact ⟨Nat.le_trans (Nat.le_add_right _ _) ih.1, forall_mem_cons.2 ih⟩

lemma length_part {α : Type} {xs : List α} {c : Nat × Nat} (hc : c ∈ chunks xs.length) : (part c xs).length = c.2 := by
  have hle := (spans_chunks xs.length).le.2 c hc
  rw [part, length_take, length_drop]
  omega

end Gather

/-! ## The values that a kernel takes -/

namespace StandardOperation

/-- How many values are passed for an argument. -/
def passed : String ⊕ KernelArgument → Nat
  | .inr (.vector _ _ true) => 2
  | _ => 1

def isPassed : String ⊕ KernelArgument → Bool
  | .inr (.vector _ _ _) | .inr (.scalar _ _) => true
  | _ => false

lemma passedTypes_read {r : TypeRegistry} {items : List (String ⊕ KernelArgument)} (h : items.all isPassed = true) :
    ∃ params types, (ArgumentSource.items items).read r true = .ok params ∧
      passedTypes (params ++ ElementwiseCode.indexParameters false) = .ok types ∧
      types.length = (items.map passed).sum + 1 := by
  induction items with
  | nil => exact ⟨[], _, rfl, rfl, rfl⟩
  | cons x items ih =>
    obtain ⟨hx, hitems⟩ := Bool.and_eq_true_iff.1 h
    obtain ⟨params, types, hread, htys, hcnt⟩ := ih hitems
    have hcons : ∀ a, (ArgumentSource.items (.inr a :: items)).read r true = .ok (a :: params) := by
      intro a
      rw [ArgumentSource.read, mapM_cons]
      exact congrArg (· >>= fun rest => .ok (a :: rest)) hread
    rcases x with _ | ⟨t, name, _ | _⟩ | ⟨t, name⟩ | _ | _
    case inl | inr.other | inr.foreign => cases hx
    all_goals
      refine ⟨_, _, hcons _, by rw [cons_append, passedTypes, htys]; rfl, ?_⟩
      simp [passed, hcnt]
      omega

/-- The kernel of an operation takes so many values. -/
def Takes (op : StandardOperation) (n : Nat) : Prop :=
  ∀ r code, op.code r = .ok code → ∃ params types, code.arguments.read r true = .ok params ∧
    passedTypes (params ++ ElementwiseCode.indexParameters false) = .ok types ∧ types.length = n

lemma takes_of_items {op : StandardOperation} {n : Nat}
    (h : ∀ r code, op.code r = .ok code → ∃ items, code.arguments = .items items ∧
      items.all isPassed = true ∧ (items.map passed).sum = n) : op.Takes (n + 1) := by
  intro r code hcode
  obtain ⟨items, hitems, htyd, rfl⟩ := h r code hcode
  rw [hitems]
  exact passedTypes_read htyd

lemma takes_takePut (type index : ElementType) (withOffsets : Bool) (n : Nat) :
    (takePut type index withOffsets n).Takes (n + 2 + 2 + 2 * n + (if withOffsets then n else 0) + 1) := by
  refine takes_of_items fun r code hcode => ?_
  obtain ⟨_, -, hcode⟩ := of_bind_ok hcode
  obtain ⟨_, -, hcode⟩ := of_bind_ok hcode
  cases hcode
  refine ⟨_, rfl, ?_, ?_⟩
  · cases withOffsets <;> simp [isPassed, pointer, scalar]
  · cases withOffsets <;> simp [passed, pointer, scalar, Function.comp_def] <;> omega

lemma takes_put (type index : ElementType) (n : Nat) : (put type index n).Takes (2 * n + 2 + 2 * n + 2 + 2 + 1) := by
  refine takes_of_items fun r code hcode => ?_
  obtain ⟨_, -, hcode⟩ := of_bind_ok hcode
  obtain ⟨_, -, hcode⟩ := of_bind_ok hcode
  cases hcode
  refine ⟨_, rfl, by simp [isPassed, pointer], ?_⟩
  simp [passed, pointer, Function.comp_def]
  omega

end StandardOperation

/-! ## Launches one after another -/

namespace Host

/-- Steps that are made in turn. -/
inductive InTurn {γ : Type} (R : γ → World → World → Prop) : List γ → World → World → Prop
  | nil {w : World} : InTurn R [] w w
  | cons {c : γ} {cs : List γ} {w w1 w2 : World} : R c w w1 → InTurn R cs w1 w2 → InTurn R (c :: cs) w w2

variable {w : World}

lemma leads_inTurn {γ σ : Type} {R : γ → World → World → Prop} {cs : List γ} {f : γ → σ → Host (ForInStep σ)}
    (h : ∀ c ∈ cs, ∀ s w, Leads (f c s) (fun r w' => (∃ s', r = .yield s') ∧ R c w w') Any w) (s : σ) :
    Leads (forIn cs s f) (fun _ w' => InTurn R cs w w') Any w := by
  induction cs generalizing s w with
  | nil => exact .nil
  | cons c cs ih =>
    obtain ⟨hc, hcs⟩ := forall_mem_cons.1 h
    rw [forIn_cons]
    refine (hc s w).andThen ?_
    rintro _ w1 ⟨⟨s', rfl⟩, hstep⟩
    exact (ih hcs s').imp fun _ _ => .cons hstep

/-- An operation was launched, and then its event was given to the arrays that it writes. -/
def LaunchedOnto (context : Context) (op : StandardOperation) (values : List Actual) (targets : List DeviceArray)
    (w w' : World) : Prop :=
  ∃ k q range wait e w1 w2 w3, (standardKernel context op).run.run w = (.ok k, w1) ∧ w1.Quiet w2 ∧
    (call q k range values wait).run.run w2 = (.ok e, w3) ∧ w' = targets.foldl (·.added · e) w3

lemma leads_launchOnto (targets : List DeviceArray) (context : Context) (op : StandardOperation) (indices : DeviceArray)
    (queue : Option Queue) (values : List Actual) (wait : List EventId) :
    Leads (launchOnto targets context op indices queue values wait)
      (fun _ w' => LaunchedOnto context op values targets w w') Any w := by
  have hnote : ∀ e w, Leads (forIn targets PUnit.unit fun o _ => do
        addEvent o e
        pure (ForInStep.yield PUnit.unit))
      (fun _ w' => w' = targets.foldl (·.added · e) w) Any w := by
    intro e
    induction targets with
    | nil => exact fun _ => rfl
    | cons o targets ih =>
      intro w
      rw [forIn_cons, leads_bind, leads_bind, leads_addEvent_iff]
      exact ih _
  rw [launchOnto, launchGather, bind_assoc]
  refine (leads_run _ w).bind fun k w1 hk => ?_
  simp only [bind_assoc]
  refine leads_quiet_bind (quiet_needQueue _) (fun q w2 h2 => ?_) fun _ _ _ => trivial
  refine leads_quiet_bind (quiet_groupLimit _ _) (fun limit w3 h3 => ?_) fun _ _ _ => trivial
  refine leads_quiet_bind (quiet_splayArray _ _ _) (fun s w4 h4 => ?_) fun _ _ _ => trivial
  refine (leads_run _ w4).bind fun e w5 hcall => ?_
  refine (hnote e w5).andThen ?_
  rintro _ _ rfl
  exact ⟨k, q, _, wait, e, w1, w4, w5, hk, h2.trans (h3.trans h4), hcall, rfl⟩

/-- The arrays of a chunk are written by a launch of an operation on as many arrays, once its kernel is there. It is
passed as many values as the kernel takes. -/
def WrittenBy (context : Context) (op : Nat → StandardOperation) (out : List DeviceArray) (c : Nat × Nat)
    (w w' : World) : Prop :=
  (Gather.part c out).length = c.2 ∧ ∃ values k w₁, (standardKernel context (op c.2)).run.run w = (.ok k, w₁) ∧
    (op c.2).Takes values.length ∧ (∀ o ∈ Gather.part c out, .buffer o.buffer ∈ values) ∧
    LaunchedOnto context (op c.2) values (Gather.part c out) w₁ w'

/-- A chunk is dealt with. -/
def TakePut.Step (p : TakePut) (type : ElementType) (out : List DeviceArray) (c : Nat × Nat) (w w' : World) : Prop :=
  (takePutChunk p type out c).run.run w = (.ok (), w') ∧ WrittenBy p.sourceIndices.context (p.operation type) out c w w'

@[inherit_doc TakePut.Step]
def PutAll.Step (p : PutAll) (wait : List EventId) (type : ElementType) (out : List DeviceArray) (c : Nat × Nat)
    (w w' : World) : Prop :=
  ∃ marks marks' arrays w₁, (putChunk p type out wait marks c).run.run w = (.ok marks', w') ∧
    (markChunk p marks c).run.run w = (.ok (marks', arrays), w₁) ∧
    WrittenBy p.indices.context (p.operation type) out c w₁ w'

/-- Nothing is done for no arrays. Otherwise the arrays to write are found or made, then a kernel is, and then the chunks
of the arrays are dealt with in turn. -/
def InChunks (n : Nat) (targets : ElementType → Host (List DeviceArray)) (context : Context)
    (op : ElementType → Nat → StandardOperation)
    (step : ElementType → List DeviceArray → Nat × Nat → World → World → Prop) (out : List DeviceArray) (w w' : World) :
    Prop :=
  n = 0 ∧ w' = w ∨ ∃ type w₁ k w₂, (targets type).run.run w = (.ok out, w₁) ∧
    (standardKernel context (op type (min n Gather.mostArrays))).run.run w₁ = (.ok k, w₂) ∧
    InTurn (step type out) (Gather.chunks n) w₂ w'

lemma length_passWithOffset (as : List DeviceArray) : (as.flatMap passWithOffset).length = 2 * as.length := by
  simp [length_flatMap, passWithOffset, Nat.mul_comm]

variable {type : ElementType} {out : List DeviceArray} {c : Nat × Nat}

lemma leads_mapM_eventsOf {E : Fault → World → Prop} {xs : List DeviceArray} {Q : List (List EventId) → World → Prop} :
    Leads (xs.mapM eventsOf) Q E w ↔ Q (xs.map fun x => w.listed x.events) w := leads_mapM_of fun _ _ => Iff.rfl

lemma leads_takePutChunk {p : TakePut} (hout : out.length = p.arrays.length)
    (hoffs : ∀ xs, p.sourceOffsets = some xs → xs.length = p.arrays.length) (hc : c ∈ chunks p.arrays.length) :
    Leads (takePutChunk p type out c)
      (fun _ w' => WrittenBy p.sourceIndices.context (p.operation type) out c w w') Any w := by
  have htar : (part c out).length = c.2 := length_part (hout ▸ hc)
  have hsrcs : (part c p.arrays).length = c.2 := length_part hc
  have hpassed : (part c (p.sourceOffsets.getD [])).length = if p.sourceOffsets.isSome then c.2 else 0 := by
    cases h : p.sourceOffsets with
    | none => simp [part]
    | some xs => exact length_part (hoffs xs h ▸ hc)
  refine (leads_run _ w).bind (fun k w1 hk => ?_) fun _ _ _ => trivial
  refine ((quiet_needQueue (R := Eq) _).leads w1).bind ?_ fun _ _ _ => trivial
  rintro _ _ rfl
  rw [leads_bind, leads_mapM_eventsOf]
  have hdata : Leads ((part c out).mapM fun o => do return Actual.buffer (← lift o.data))
      (fun values w' => List.Forall₂ (fun o v => v = Actual.buffer o.buffer) (part c out) values ∧ w' = w1)
      Any w1 := by
    refine leads_mapM (fun o _ w hw => ?_) rfl
    by_cases ho : o.offset = 0 <;> simp [DeviceArray.data, ho, hw]
  refine hdata.andThen ?_
  rintro values _ ⟨hval, rfl⟩
  refine (leads_launchOnto _ _ _ _ _ _ _).imp fun _ w' h => ⟨htar, _, k, _, hk, ?_, fun o ho => ?_, h⟩
  · simp only [length_append, length_passWithOffset, length_singleton, hsrcs, hpassed, ← hval.length_eq, htar]
    exact StandardOperation.takes_takePut type p.sourceIndices.type p.sourceOffsets.isSome c.2
  · have hmap := map_eq_of_forall₂ (g := id) hval
    rw [map_id] at hmap
    simp only [hmap, mem_append]
    exact .inl (.inl (.inl (.inl (.inl (mem_map_of_mem ho)))))

lemma leads_putChunk {p : PutAll} {wait : List EventId} (marks : PutMarks) (hout : out.length = p.arrays.length)
    (hc : c ∈ chunks p.arrays.length) : Leads (putChunk p type out wait marks c)
      (fun marks' w' => ∃ arrays w₁, (markChunk p marks c).run.run w = (.ok (marks', arrays), w₁) ∧
        WrittenBy p.indices.context (p.operation type) out c w₁ w') Any w := by
  have htar : (part c out).length = c.2 := length_part (hout ▸ hc)
  have hsrcs : (part c p.arrays).length = c.2 := length_part hc
  refine (leads_run _ w).bind ?_ fun _ _ _ => trivial
  rintro ⟨marks', fills, lengths⟩ w1 hmarks
  refine (leads_run _ w1).bind (fun k w2 hk => ?_) fun _ _ _ => trivial
  rw [leads_bind, leads_mapM_eventsOf]
  refine (leads_launchOnto _ _ _ _ _ _ _).andThen fun _ w' h =>
    ⟨_, w1, hmarks, htar, _, k, w2, hk, ?_, fun o ho => ?_, h⟩
  · simp only [length_append, length_passWithOffset, length_singleton, hsrcs, htar]
    exact StandardOperation.takes_put type p.indices.type c.2
  · simp only [mem_append]
    exact .inl (.inl (.inl (.inl (.inl (mem_flatMap.2 ⟨o, ho, mem_cons_self⟩)))))

lemma leads_typeOfAll (as : List DeviceArray) : Leads (typeOfAll as) (fun _ w' => w' = w) Any w := by
  cases as with
  | nil => trivial
  | cons a as => by_cases h : (as.all fun b => b.type.same a.type) = true <;> simp [typeOfAll, h]

lemma leads_gatherTargets (allocator : Option Allocator) (n : Nat) (queue : Option Queue) (shape : Option (List Int))
    (given : Option (List DeviceArray)) :
    Leads (gatherTargets type allocator n queue shape given) (fun out _ => out.length = n) Any w := by
  cases given with
  | none =>
    refine (leads_mapM (I := fun _ => True) (P := fun _ _ => True) (fun _ _ w _ => ?_) trivial).imp fun out _ h => ?_
    · exact leads_any_bind fun q w1 => by split <;> (unfold Leads; split <;> trivial)
    · rw [← h.1.length_eq, length_range]
  | some given =>
    refine leads_any_bind fun t w1 => ?_
    by_cases ht : t.same type = true <;> by_cases hn : given.length = n <;> simp [ht, hn]

end Host

end ClHost
