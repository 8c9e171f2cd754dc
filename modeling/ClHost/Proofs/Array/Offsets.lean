import ClHost.Proofs.Array.Operations
import ClHost.Proofs.Kernel.Received
import ClHost.Proofs.Kernel.Remembered
import ClHost.Proofs.Scan.Launches
import ClHost.Session.Reductions

/-!
# Offsets of arrays that are passed to kernels

An array may start anywhere in its buffer. Operations on arrays, and reductions of numbers, pass its offset directly
after its buffer.
-/

namespace ClHost

open Host List World

inductive VectorOperation where
  /-- An operation on arrays, which launches a kernel over the elements of the first one. -/
  | elementwise (kernel : Host KernelId) (target : DeviceArray) (operands : List ArrayOperand) (queue : Option Queue)
      (wait : List EventId)
  /-- A launch that takes elements from indices or puts them there. -/
  | gather (context : Context) (op : StandardOperation) (indices : DeviceArray) (operands : List ArrayOperand)
      (queue : Option Queue) (wait : List EventId)
  /-- A call of an elementwise operation that has its own source, which declares some parameters. -/
  | called (i : Nat) (params : List KernelArgument) (args : List Actual) (queue : Option Queue)
      (selection : List ElementSelection) (wait : List EventId)
  | reduction (op : StandardReduction) (context : Context) (arrays : List DeviceArray) (queue : Option Queue)
      (slice : Session.Value) (wait : List EventId)
  | sums (a : DeviceArray) (type : Option ElementType) (queue : Option Queue) (wait : List EventId)
  | selecting (what : Selection) (a : DeviceArray) (condition : String) (extra : List ExtraArgument)
      (preamble : String) (queue : Option Queue) (wait : List EventId)

/-- The array that an operand is, which is passed with its offset. -/
def Host.ArrayOperand.vector? : ArrayOperand → Option (DeviceArray × Bool)
  | .array a => some (a, true)
  | .value _ => none

def passedVector? : KernelArgument × Actual → Option (DeviceArray × Bool)
  | (.vector _ _ withOffset, .array a) => some (a, withOffset)
  | _ => none

def movedValue (offset : Int) : KernelArgument × Actual → Actual
  | (.vector _ _ false, .array a) => .array (a.moved offset)
  | (_, v) => v

def movedArguments (offset : Int) : List KernelArgument → List Actual → List Actual
  | p :: params, v :: args => movedValue offset (p, v) :: movedArguments offset params args
  | _, args => args

def Host.ExtraArgument.moved (offset : Int) (e : ExtraArgument) : ExtraArgument :=
  ⟨e.argument, movedValue offset (e.argument, e.value)⟩

namespace VectorOperation

def run : VectorOperation → Host Unit
  | elementwise kernel target operands queue wait => do
    let _ ← runElementwise kernel target operands queue wait
  | gather context op indices operands queue wait => do
    let _ ← launchGather context op indices queue (operands.flatMap operandValues) wait
  | called i _ args queue selection wait => do
    let _ ← callElementwise (← prepareElementwise i args queue selection wait [])
  | reduction op context arrays queue slice wait => do
    let _ ← Session.reduceArrays op context arrays queue slice wait
  | sums a type queue wait => do
    let _ ← runningSums a type queue wait
  | selecting what a condition extra preamble queue wait => do
    let _ ← select what a condition extra preamble queue wait

def vectors : VectorOperation → List (DeviceArray × Bool)
  | elementwise _ target operands _ _ => (.array target :: operands).filterMap (·.vector?)
  | gather _ _ _ operands _ _ => operands.filterMap (·.vector?)
  | called _ params args _ _ _ => (params.zip args).filterMap passedVector?
  | reduction op _ arrays _ _ _ => arrays.map fun a => (a, op.takesOffsets)
  | sums a _ _ _ => [(a, false)]
  | selecting _ a _ extra _ _ _ => (a, false) :: extra.filterMap fun e => passedVector? (e.argument, e.value)

def moved (offset : Int) : VectorOperation → VectorOperation
  | called i params args queue selection wait =>
    called i params (movedArguments offset params args) queue selection wait
  | reduction op context arrays queue slice wait =>
    reduction op context (if op.takesOffsets then arrays else arrays.map (·.moved offset)) queue slice wait
  | sums a type queue wait => sums (a.moved offset) type queue wait
  | selecting what a condition extra preamble queue wait =>
    selecting what (a.moved offset) condition (extra.map (·.moved offset)) preamble queue wait
  | op => op

/-- A kernel is built without a trace in the arrays, parameters are those that the source declares, a reduction gets as
many arrays as it takes, and what conditions use is declared without offsets. -/
def Fits (w : World) : VectorOperation → Prop
  | elementwise kernel _ _ _ _ => Stays Keeps kernel
  | called i params _ _ _ _ => ∃ e r, w.elementwise[i]? = some e ∧ e.code.arguments.read r true = .ok params
  | reduction op _ arrays _ _ _ => arrays.length = op.arity
  | selecting _ _ _ extra _ _ _ => ∀ e ∈ extra, e.argument.pointer? ≠ some true
  | _ => True

end VectorOperation

/-- Kernels for operations on arrays may need launches of others while they are built, to find out the layouts of
structures. -/
def VectorOperation.Prepares (before : List Record) : VectorOperation → Prop
  | elementwise .. | gather .. => True
  | _ => before = []

/-! ## Values that are passed -/

def Record.slots : Record → List BoundArg
  | .launch _ _ _ _ _ _ slots _ _ => slots
  | _ => []

def Record.Places (w : World) (a : DeviceArray) (r : Record) : Prop :=
  ∃ values, r.Got w values ∧ [.buffer a.buffer, .literal (.int a.offset)] <:+: values

def Record.Folds (w : World) (arrays : List DeviceArray) (r : Record) : Prop :=
  ∃ (result input : DeviceArray) (numbers : List Int),
    r.Got w ([.buffer result.buffer, .literal (.int result.offset)] ++
      (input :: arrays).map (fun a => .buffer a.buffer) ++ numbers.map fun n => .literal (.int n))

lemma infix_flatMap_of_mem {α β : Type} (f : α → List β) {x : α} {xs : List α} (h : x ∈ xs) : f x <:+: xs.flatMap f :=
  infix_of_mem_flatten (mem_map_of_mem h)

section Vectors

open KernelArgument

variable {params : List KernelArgument} {arrays : List DeviceArray} {n : Nat} {withOffset : Bool}

lemma KernelArgument.Vectors.mem_zip (h : Vectors withOffset n params) (hn : arrays.length = n) {a : DeviceArray}
    (ha : a ∈ arrays) :
    ∃ type name, (.vector type name withOffset, Actual.array a) ∈ params.zip (arrays.map .array) := by
  induction arrays generalizing params n with
  | nil => cases ha
  | cons b arrays ih =>
    subst hn
    obtain ⟨p, params, rfl⟩ := exists_cons_of_length_eq_add_one h.1
    obtain ⟨⟨type, name, rfl⟩, hpars⟩ := forall_mem_cons.1 h.2
    rcases mem_cons.1 ha with rfl | ha
    · exact ⟨type, name, mem_cons_self⟩
    · obtain ⟨type, name, hmem⟩ := ih ⟨Nat.succ.inj h.1, hpars⟩ rfl ha
      exact ⟨type, name, mem_cons_of_mem _ hmem⟩

lemma KernelArgument.Vectors.values_eq (h : Vectors false n params) (hn : arrays.length = n) :
    (params.zip (arrays.map .array)).flatMap passedValues = arrays.map fun a => .buffer a.buffer := by
  induction arrays generalizing params n with
  | nil => simp
  | cons a arrays ih =>
    subst hn
    obtain ⟨p, params, rfl⟩ := exists_cons_of_length_eq_add_one h.1
    obtain ⟨⟨type, name, rfl⟩, hpars⟩ := forall_mem_cons.1 h.2
    rw [map_cons, zip_cons_cons, flatMap_cons, ih ⟨Nat.succ.inj h.1, hpars⟩ rfl]
    rfl

lemma forall₂_unread_moved (h : ∀ p ∈ params, ∃ type name, p = .vector type name false) (offset : Int) :
    List.Forall₂ Unread (params.zip (arrays.map .array)) (params.zip ((arrays.map (·.moved offset)).map .array)) := by
  induction arrays generalizing params with
  | nil => simp
  | cons a arrays ih =>
    cases params with
    | nil => exact .nil
    | cons =>
      obtain ⟨⟨type, name, rfl⟩, hpars⟩ := forall_mem_cons.1 h
      exact .cons (.moved type name a offset) (ih hpars)

end Vectors

lemma World.Grown.launches {w w' : World} (h : w.Grown w') : ∃ more, w'.launches = w.launches ++ more := by
  obtain ⟨more, hlog⟩ := h.log
  exact ⟨more.filter (·.isLaunch), by rw [World.launches, hlog, filter_append, World.launches]⟩

namespace Host

variable {w : World}

variable {wait : List EventId} {queue : Option Queue}

lemma leads_call_last {w1 : World} {q : Queue} {k : KernelId} {range : LaunchRange} {values : List Actual}
    (hw : w1.Fitted) (hgr : w.Grown w1) (hval : values ≠ []) : Leads (call q k range values wait)
      (fun _ w' => ∃ before r, w'.launches = w.launches ++ before ++ [r] ∧ r.Got w' values) Any w1 := by
  refine (leads_call_got hw hval).imp ?_
  rintro _ w' ⟨r, hr, hst⟩
  obtain ⟨before, hbef⟩ := hgr.launches
  exact ⟨before, r, by rw [hst.launches, hbef], hr⟩

lemma leads_runElementwise_got {kernel : Host KernelId} {target : DeviceArray} {operands : List ArrayOperand}
    (hw : Tracks w []) (hker : Stays Keeps kernel) : Leads (runElementwise kernel target operands queue wait)
      (fun _ w' => ∃ before r, w'.launches = w.launches ++ before ++ [r] ∧
        r.Got w' ((.array target :: operands).flatMap operandValues ++ [.literal (.int target.size)])) Any w := by
  refine leads_keeps_bind hker hw fun k w1 hw1 h1 => ?_
  refine leads_keeps_bind (quiet_needQueue _).keeps hw1 fun q w2 hw2 h2 => ?_
  refine leads_keeps_bind (quiet_groupLimit _ _).keeps hw2 fun limit w3 hw3 h3 => ?_
  refine leads_keeps_bind (quiet_splayArray _ _ _).keeps hw3 fun s w4 hw4 h4 => ?_
  refine leads_keeps_bind (stays_mapM fun o _ => ?_) hw4 fun waits w5 hw5 h5 => ?_
  · cases o with
    | array a =>
      have hevs : Stays Keeps (eventsOf a) := stays_get.map
      exact stays_guarded hevs
    | value => exact stays_pure _
  · exact leads_call_last hw5.fitted (h1.trans (h2.trans (h3.trans (h4.trans h5)))) (by simp [operandValues])

variable {args : List Actual}

lemma leads_launchGather_got {context : Context} {op : StandardOperation} {indices : DeviceArray} (hw : Tracks w [])
    (hargs : args ≠ []) : Leads (launchGather context op indices queue args wait)
      (fun _ w' => ∃ before r, w'.launches = w.launches ++ before ++ [r] ∧ r.Got w' args) Any w := by
  refine leads_keeps_bind (keeps_standardKernel _ _) hw fun k w1 hw1 h1 => ?_
  refine leads_keeps_bind (quiet_needQueue _).keeps hw1 fun q w2 hw2 h2 => ?_
  refine leads_keeps_bind (quiet_groupLimit _ _).keeps hw2 fun limit w3 hw3 h3 => ?_
  refine leads_keeps_bind (quiet_splayArray _ _ _).keeps hw3 fun s w4 hw4 h4 => ?_
  exact leads_call_last hw4.fitted (h1.trans (h2.trans (h3.trans h4))) hargs

lemma leads_prepareElementwise {i : Nat} {selection : List ElementSelection} {unknown : List String}
    (hw : w.Remembers) : Leads (prepareElementwise i args queue selection wait unknown)
      (fun l w' => w.Quiet w' ∧ ∃ params numbers,
        (w.elementwise[i]?.getD default).code.Reads (!selection.isEmpty) params ∧
        l.args = (params.zip args).flatMap passedValues ++ numbers) Any w := by
  refine (leads_getElementwise hw i _).andThen ?_
  rintro ⟨k, params⟩ w1 ⟨hw1, hpars⟩
  refine Leads.mono (reaches_prepareLaunch (R := Quiet) k params args queue selection wait unknown) ?_
    fun _ _ _ => trivial
  rintro l w' ⟨hw', -, -, -, hl⟩
  exact ⟨hw1.trans hw', params, _, hpars, hl⟩

end Host

/-! ## Offsets that are passed -/

section Pointers

open KernelArgument

variable {params params' more : List KernelArgument} {args : List Actual}

variable {p : KernelArgument} {a : DeviceArray}

lemma eq_of_passedVector {v : Actual} {withOffset : Bool} (h : passedVector? (p, v) = some (a, withOffset)) :
    p.pointer? = some withOffset ∧ v = .array a := by
  unfold passedVector? at h
  split at h
  · rename_i heq
    cases heq
    cases h
    exact ⟨rfl, rfl⟩
  · cases h

lemma passedValues_of_pointer (hp : p.pointer? = some true) (a : DeviceArray) :
    passedValues (p, .array a) = [.buffer a.buffer, .literal (.int a.offset)] := by
  cases p with
  | vector =>
    cases hp
    rfl
  | _ => cases hp

lemma mem_zip_of_pointers (h : params.map (·.pointer?) = params'.map (·.pointer?)) (more : List KernelArgument)
    (ha : (a, true) ∈ (params.zip args).filterMap passedVector?) :
    ∃ x ∈ (params' ++ more).zip args, passedValues x = [.buffer a.buffer, .literal (.int a.offset)] := by
  induction params generalizing params' args with
  | nil => simp at ha
  | cons p params ih =>
    cases params' with
    | nil => simp at h
    | cons p' params' =>
      obtain ⟨hp, hrest⟩ := List.cons.inj h
      cases args with
      | nil => simp at ha
      | cons v args =>
        rw [zip_cons_cons, filterMap_cons] at ha
        have hlater : (a, true) ∈ (params.zip args).filterMap passedVector? →
            ∃ x ∈ (p', v) :: (params' ++ more).zip args,
              passedValues x = [.buffer a.buffer, .literal (.int a.offset)] := by
          intro ha
          obtain ⟨x, hx, hval⟩ := ih hrest ha
          exact ⟨x, mem_cons_of_mem _ hx, hval⟩
        split at ha
        · exact hlater ha
        · rename_i hpassed
          rcases mem_cons.1 ha with rfl | ha
          · obtain ⟨hpointer, rfl⟩ := eq_of_passedVector hpassed
            exact ⟨_, mem_cons_self, passedValues_of_pointer (hp.symm.trans hpointer) a⟩
          · exact hlater ha

lemma unread_movedValue {p' : KernelArgument} (hp : p.pointer? = p'.pointer?) (v : Actual) (offset : Int) :
    Unread (p', v) (p', movedValue offset (p, v)) := by
  unfold movedValue
  split
  · rename_i heq
    cases heq
    cases p' with
    | vector type name =>
      cases hp
      exact .moved type name _ offset
    | _ => cases hp
  · rename_i heq
    cases heq
    exact .same _

/-- A vector that is passed without an offset, with another one. -/
abbrev movedVector (offset : Int) (v : DeviceArray × Bool) : DeviceArray × Bool :=
  if v.2 then v else (v.1.moved offset, false)

lemma passedVector?_movedValue (p : KernelArgument) (v : Actual) (offset : Int) :
    passedVector? (p, movedValue offset (p, v)) =
      (passedVector? (p, v)).map (movedVector offset) := by
  cases p with
  | vector type name withOffset => cases withOffset <;> cases v <;> rfl
  | _ => cases v <;> rfl

lemma forall₂_unread_arguments (h : params.map (·.pointer?) = params'.map (·.pointer?)) (offset : Int) :
    List.Forall₂ Unread ((params' ++ more).zip args) ((params' ++ more).zip (movedArguments offset params args)) := by
  fun_induction movedArguments offset params args generalizing params' with
  | case1 p params v args ih =>
    cases params' with
    | nil => simp at h
    | cons =>
      obtain ⟨hp, hrest⟩ := List.cons.inj h
      exact .cons (unread_movedValue hp v offset) (ih hrest)
  | case2 => exact forall₂_same.2 fun x _ => .same x

lemma vectors_movedArguments (params : List KernelArgument) (args : List Actual) (offset : Int) :
    (params.zip (movedArguments offset params args)).filterMap passedVector? =
      ((params.zip args).filterMap passedVector?).map (movedVector offset) := by
  fun_induction movedArguments offset params args with
  | case1 p params v args ih =>
    rw [zip_cons_cons, zip_cons_cons, filterMap_cons, filterMap_cons, ih, passedVector?_movedValue]
    cases passedVector? (p, v) <;> rfl
  | case2 params args hoth =>
    cases params with
    | nil => rfl
    | cons p params =>
      cases args with
      | nil => rfl
      | cons v args => exact (hoth p params v args rfl rfl).elim

end Pointers

namespace VectorOperation

/-- An array was passed with its offset: the first launch for the operation got both, and those that follow it fold
what is left. -/
def Hands (op : VectorOperation) (a : DeviceArray) (w w' : World) : Prop :=
  ∃ before first more, w'.launches = w.launches ++ before ++ first :: more ∧ op.Prepares before ∧ first.Places w' a ∧
    ∀ r ∈ more, r.Folds w' (op.vectors.map (·.1))

variable {w : World} {a : DeviceArray}

variable {operands : List ArrayOperand} {queue : Option Queue} {wait : List EventId} {context : Context}
  {params : List KernelArgument}

lemma infix_operandValues (ha : (a, true) ∈ operands.filterMap (·.vector?)) :
    [.buffer a.buffer, .literal (.int a.offset)] <:+: operands.flatMap operandValues := by
  obtain ⟨o, ho, hoa⟩ := mem_filterMap.1 ha
  cases o with
  | array =>
    cases hoa
    exact infix_flatMap_of_mem operandValues ho
  | value => cases hoa

lemma hands_elementwise {kernel : Host KernelId} {target : DeviceArray} (hw : Tracks w [])
    (hker : Stays Keeps kernel) (ha : (a, true) ∈ (elementwise kernel target operands queue wait).vectors) :
    Leads (elementwise kernel target operands queue wait).run
      (fun _ w' => (elementwise kernel target operands queue wait).Hands a w w') Any w := by
  refine (leads_runElementwise_got hw hker).andThen ?_
  rintro _ w' ⟨before, r, hlaun, hr⟩
  exact ⟨before, r, [], hlaun, trivial, ⟨_, hr, (infix_operandValues ha).trans (prefix_append _ _).isInfix⟩,
    by simp⟩

lemma hands_gather {op : StandardOperation} {indices : DeviceArray} (hw : Tracks w [])
    (ha : (a, true) ∈ (gather context op indices operands queue wait).vectors) :
    Leads (gather context op indices operands queue wait).run
      (fun _ w' => (gather context op indices operands queue wait).Hands a w w') Any w := by
  have hplaced := infix_operandValues ha
  refine (leads_launchGather_got hw (hplaced.ne_nil (by simp))).andThen ?_
  rintro _ w' ⟨before, r, hlaun, hr⟩
  exact ⟨before, r, [], hlaun, trivial, ⟨_, hr, hplaced⟩, by simp⟩

variable {i : Nat} {args : List Actual} {chosen : List ElementSelection} {op : StandardReduction}
  {arrays : List DeviceArray} {slice : Session.Value} {what : Selection} {extra : List ExtraArgument}

lemma hands_called (hw : w.Fitted) (hr : w.Remembers) (hop : (called i params args queue chosen wait).Fits w)
    (ha : (a, true) ∈ (called i params args queue chosen wait).vectors) :
    Leads (called i params args queue chosen wait).run
      (fun _ w' => (called i params args queue chosen wait).Hands a w w') Any w := by
  obtain ⟨e, r, he, hpars⟩ := hop
  refine (leads_prepareElementwise hr).andThen ?_
  rintro l w1 ⟨hw1, _, numbers, ⟨r', declared, hdecl, rfl⟩, hl⟩
  rw [he] at hdecl
  obtain ⟨x, hx, hval⟩ := mem_zip_of_pointers (ArgumentSource.pointers_read hpars hdecl) _ ha
  have hplaced : [.buffer a.buffer, .literal (.int a.offset)] <:+: l.args := by
    rw [hl, ← hval]
    exact (infix_flatMap_of_mem passedValues hx).trans (prefix_append _ _).isInfix
  refine (leads_call_got (hw1.fitted hw) (hplaced.ne_nil (by simp))).andThen ?_
  rintro _ w' ⟨first, hfst, hw'⟩
  refine ⟨[], first, [], ?_, rfl, ⟨_, hfst, hplaced⟩, by simp⟩
  rw [hw'.launches, hw1.launches, append_nil]

lemma stays_selectionBy (slice : Session.Value) : Stays Eq (Session.selectionBy .slice slice) := by
  have hneed : ∀ v : Option Int, Stays Eq (Session.need .type v) := by
    intro v
    cases v with
    | none => exact stays_fail _
    | some n => exact stays_pure n
  have hnum : ∀ v, Stays Eq (Session.ofValue v : Host (Option Int)) := by
    intro v
    change Stays Eq (Session.given (fun v => Session.need .type v.int?) v)
    unfold Session.given
    split
    · exact stays_pure _
    · exact (hneed _).map
  have hpts : ∀ v, Stays Eq (Session.sliceParts v) := by
    intro v
    unfold Session.sliceParts
    split
    · exact (hnum _).bind fun _ => (hnum _).bind fun _ => (hnum _).map
    · exact stays_pure _
    · exact stays_fail _
  unfold Session.selectionBy
  split
  · exact stays_pure _
  · exact (hpts _).map

lemma hands_reduction (hw : w.Fitted) (hr : w.Remembers) (hop : (reduction op context arrays queue slice wait).Fits w)
    (ha : (a, true) ∈ (reduction op context arrays queue slice wait).vectors) :
    Leads (reduction op context arrays queue slice wait).run
      (fun _ w' => (reduction op context arrays queue slice wait).Hands a w w') Any w := by
  obtain ⟨b, hb, hba⟩ := mem_map.1 ha
  obtain ⟨rfl, htks⟩ := Prod.mk.inj hba
  rw [run, leads_bind]
  refine (leads_standardReduction hr context op).andThen ?_
  rintro i w1 ⟨hw1, k, hk, hfst, hsnd⟩
  refine ((stays_selectionBy slice).leads w1).bind ?_
  rintro chosen _ rfl
  refine (leads_callReduction_got (hw1.fitted hw) hk).andThen ?_
  rintro ⟨result, e⟩ w2 ⟨first, more, hw2, ⟨out, numbers, hgot⟩, hmore⟩
  refine leads_addEvent_beside.andThen ?_
  intro _ w3 hw3
  replace hw3 := hw3.started
  obtain ⟨type, name, hmem⟩ := hfst.mem_zip hop hb
  refine ⟨[], first, more, ?_, rfl, ?_, fun r hr => ?_⟩
  · rw [hw3.launches, hw2.launches, hw1.launches, append_nil, append_nil]
  · refine ⟨_, hgot.started hw3, IsInfix.trans ?_ (infix_append _ _ _)⟩
    rw [htks] at hmem
    exact infix_flatMap_of_mem passedValues hmem
  · obtain ⟨input, out, numbers, hgot⟩ := hmore r hr
    have harrs : (reduction op context arrays queue slice wait).vectors.map (·.1) = arrays := by
      simp [vectors, Function.comp_def]
    refine ⟨out, input, numbers, ?_⟩
    rw [harrs, ← hsnd.values_eq (congrArg (· + 1) hop)]
    exact hgot.started hw3

/-! ## Offsets that are not passed -/

lemma run_moved_called (hr : w.Remembers) (hop : (called i params args queue chosen wait).Fits w) (offset : Int) :
    ((called i params args queue chosen wait).moved offset).run.run.run w =
      (called i params args queue chosen wait).run.run.run w := by
  obtain ⟨e, r, he, hpars⟩ := hop
  refine (run_congr_bind (prepareElementwise_congr ?_)).symm
  refine (leads_getElementwise hr i _).imp ?_
  rintro ⟨k, _⟩ w1 ⟨-, r', declared, hdecl, rfl⟩
  rw [he] at hdecl
  exact forall₂_unread_arguments (ArgumentSource.pointers_read hpars hdecl) offset

lemma run_moved_reduction (hr : w.Remembers) (offset : Int) :
    ((reduction op context arrays queue slice wait).moved offset).run.run.run w =
      (reduction op context arrays queue slice wait).run.run.run w := by
  cases htks : op.takesOffsets with
  | true => simp [moved, htks]
  | false =>
    simp only [moved, htks, Bool.false_eq_true, if_false]
    refine (run_congr_bind (run_bind_congr ?_)).symm
    refine (leads_standardReduction hr context op).imp ?_
    rintro i w1 ⟨-, k, hk, hfst, hsnd⟩
    refine run_bind_congr (((stays_selectionBy slice).leads w1).mono ?_)
    rintro chosen _ rfl
    refine run_congr_bind (callReduction_congr hk ?_ fun result => ?_)
    · exact forall₂_unread_moved (htks ▸ hfst.2) offset
    · obtain ⟨p, params, hpars⟩ := exists_cons_of_length_eq_add_one hsnd.1
      rw [hpars]
      exact .cons (.same _) (forall₂_unread_moved (forall_mem_cons.1 (hpars ▸ hsnd.2)).2 offset)

lemma leads_newArray_scans {type : ElementType} {shape strides : List Int} {allocator : Option Allocator} :
    Leads (newArray context queue type shape strides allocator)
      (fun _ w' => (w.Remembers → w'.Remembers) ∧ w'.scans = w.scans) Any w := by
  refine leads_newArray.mono ?_
  rintro _ _ ⟨-, m, size, flags, rfl⟩
  exact ⟨fun h => ⟨h.names, h.elementwise, h.reductions, h.sums, h.selections⟩, rfl⟩

lemma run_moved_sums {type : Option ElementType} (hr : w.Remembers) (offset : Int) :
    ((sums a type queue wait).moved offset).run.run.run w = (sums a type queue wait).run.run.run w := by
  refine (run_congr_bind (run_bind_congr ?_)).symm
  refine leads_newArray_scans.imp ?_
  rintro result w1 ⟨hr1, -⟩
  refine run_bind_congr ((leads_runningSum (hr1 hr) _ _ _).imp ?_)
  rintro i w2 ⟨k, hk, hargs⟩
  have hevs : Leads (eventsOf a) (fun _ w' => w2 = w') Any w2 := rfl
  refine run_bind_congr (hevs.imp ?_)
  rintro events _ rfl
  obtain ⟨p, params, hpars⟩ := exists_cons_of_length_eq_add_one hargs.1
  obtain ⟨type, name, rfl⟩ := hargs.2 p (hpars ▸ mem_cons_self)
  refine run_congr_bind (callScan_congr hk rfl ?_)
  rw [hpars]
  exact .cons (.moved type name a offset) (forall₂_same.2 fun x _ => .same x)

lemma forall₂_unread_selected (hpars : what.Takes (extra.map (·.argument)) params) {own : List Actual}
    (hown : own.length + 1 = what.arity) (offset : Int) :
    List.Forall₂ Unread (params.zip (.array a :: own ++ extra.map (·.value)))
      (params.zip (.array (a.moved offset) :: own ++ (extra.map (·.moved offset)).map (·.value))) := by
  obtain ⟨ps, hps, rfl⟩ := hpars
  obtain ⟨p, ps, rfl⟩ := exists_cons_of_length_eq_add_one (hps.1.trans hown.symm)
  obtain ⟨type, name, rfl⟩ := hps.2 _ mem_cons_self
  have hlen : ps.length = own.length := Nat.succ.inj (hps.1.trans hown.symm)
  refine .cons (.moved type name a offset) ?_
  change List.Forall₂ Unread ((ps ++ extra.map (·.argument)).zip (own ++ extra.map (·.value)))
    ((ps ++ extra.map (·.argument)).zip (own ++ (extra.map (·.moved offset)).map (·.value)))
  rw [zip_append hlen, zip_append hlen]
  refine rel_append (forall₂_same.2 fun x _ => .same x) ?_
  rw [map_map, zip_map', zip_map', forall₂_map_left_iff, forall₂_map_right_iff]
  exact forall₂_same.2 fun e _ => unread_movedValue rfl e.value offset

def extraEvents (e : ExtraArgument) : Host (List EventId) :=
  match e.value with
  | .array a => eventsOf a
  | _ => pure []

lemma select_moved {condition : String} {preamble : String} (hr : w.Remembers) (offset : Int) :
    (select what a condition extra preamble queue wait).run.run w =
      (select what (a.moved offset) condition (extra.map (·.moved offset)) preamble queue wait).run.run w := by
  have harg : (extra.map (·.moved offset)).map (·.argument) = extra.map (·.argument) := by
    simp [ExtraArgument.moved, Function.comp_def]
  have hwaits : (extra.map (·.moved offset)).mapM extraEvents = extra.mapM extraEvents := by
    rw [mapM_map]
    congr 1
    funext ⟨p, v⟩
    cases p with
    | vector type name withOffset => cases withOffset <;> cases v <;> rfl
    | _ => cases v <;> rfl
  have hsh : (a.moved offset).shape = a.shape := rfl
  have hextra : ∀ e, Stays Eq (extraEvents e) := by
    intro e
    unfold extraEvents
    split
    · exact stays_get.map
    · exact stays_pure _
  unfold select
  rw [harg, hsh]
  extract_lets find find'
  have hfind : ∀ n, (find n).run.run w = (find' n).run.run w := by
    intro n
    refine .trans ?_ (run_congr_bind (congrArg (fun m => m.run.run w) hwaits.symm))
    refine run_bind_congr (((stays_mapM fun e _ => hextra e).leads w).mono ?_)
    rintro waits _ rfl
    refine run_bind_congr ((leads_selectionScan hr _ _).imp ?_)
    rintro i w1 ⟨k, hk, hargs⟩
    refine run_bind_congr (leads_newArray_scans.imp ?_)
    rintro chosen w2 ⟨-, hw2⟩
    extract_lets call call'
    have hcall : ∀ others w3, others.toList.length + 3 = what.arity → w3.scans = w1.scans →
        (call others).run.run w3 = (call' others).run.run w3 := by
      intro others w3 hoths hw3
      refine run_bind_congr (leads_newArray_scans.imp ?_)
      rintro counted w4 ⟨-, hw4⟩
      have hk4 : w4.scans[i]? = some k := by rw [hw4, hw3, hk]
      have hown : ([Actual.array chosen] ++ others.toList.map Actual.array ++ [Actual.array counted]).length + 1 =
          what.arity := by
        simpa using hoths
      exact run_congr_bind (callScan_congr hk4 (by simp) (forall₂_unread_selected hargs hown offset))
    split
    · rename_i hparting
      have harity : what.arity = 4 := by
        cases what with
        | parting => rfl
        | _ => cases hparting
      refine run_bind_congr (leads_newArray_scans.imp ?_)
      rintro other w3 ⟨-, hw3⟩
      exact hcall _ w3 harity.symm (hw3.trans hw2)
    · rename_i hoth
      have harity : what.arity = 3 := by
        cases what with
        | parting => exact (hoth rfl).elim
        | _ => rfl
      exact hcall none w2 harity.symm hw2
  clear_value find find'
  cases a.shape with
  | nil => exact run_bind_congr (leads_bare.2 trivial)
  | cons n => exact hfind n

/-- **Offsets that are not passed make no difference.** -/
lemma run_moved {op : VectorOperation} (hr : w.Remembers) (hop : op.Fits w) (offset : Int) :
    (op.moved offset).run.run.run w = op.run.run.run w := by
  cases op with
  | elementwise => rfl
  | gather => rfl
  | called => exact run_moved_called hr hop offset
  | reduction => exact run_moved_reduction hr offset
  | sums => exact run_moved_sums hr offset
  | selecting => exact (run_congr_bind (select_moved hr offset)).symm

/-- **Offsets that are passed come directly after their buffers.** -/
lemma leads_run_hands {op : VectorOperation} (hw : Tracks w []) (hr : w.Remembers) (hop : op.Fits w)
    (ha : (a, true) ∈ op.vectors) : Leads op.run (fun _ w' => op.Hands a w w') Any w := by
  cases op with
  | elementwise => exact hands_elementwise hw hop ha
  | gather => exact hands_gather hw ha
  | called => exact hands_called hw.fitted hr hop ha
  | reduction => exact hands_reduction hw.fitted hr hop ha
  | sums => simp [vectors] at ha
  | selecting =>
    rcases mem_cons.1 ha with h | h
    · cases h
    · obtain ⟨e, he, hpassed⟩ := mem_filterMap.1 h
      exact (hop e he (eq_of_passedVector hpassed).1).elim

lemma vectors_moved (op : VectorOperation) (offset : Int) :
    (op.moved offset).vectors = op.vectors.map (movedVector offset) := by
  have hops : ∀ operands : List ArrayOperand, operands.filterMap (·.vector?) =
      (operands.filterMap (·.vector?)).map (movedVector offset) := by
    intro operands
    rw [map_filterMap]
    congr 1
    funext o
    cases o <;> rfl
  cases op with
  | elementwise => exact hops _
  | gather => exact hops _
  | called i params args => exact vectors_movedArguments params args offset
  | reduction op => cases htks : op.takesOffsets <;> simp [moved, vectors, htks]
  | sums => rfl
  | selecting what a condition extra =>
    have hextra : (extra.map (·.moved offset)).filterMap (fun e => passedVector? (e.argument, e.value)) =
        (extra.filterMap fun e => passedVector? (e.argument, e.value)).map
          (movedVector offset) := by
      rw [filterMap_map, map_filterMap]
      congr 1
      funext e
      exact passedVector?_movedValue e.argument e.value offset
    exact congrArg ((a.moved offset, false) :: ·) hextra

/-- **An array is passed with its offset directly after its buffer, or its offset makes no difference at all.**
Operations on arrays and reductions of numbers do the first, as calls of elementwise operations do for the parameters
that are declared so. Reductions to truth values, running sums and selections do the second. -/
theorem run_offsets {op : VectorOperation} (hw : Tracks w []) (hr : w.Remembers) (hop : op.Fits w) :
    (∀ a, (a, true) ∈ op.vectors → Leads op.run (fun _ w' => op.Hands a w w') (fun _ _ => True) w) ∧
      ∀ offset, (op.moved offset).run.run.run w = op.run.run.run w ∧
        (op.moved offset).vectors = op.vectors.map fun v => if v.2 then v else (v.1.moved offset, false) :=
  ⟨fun _ ha => leads_run_hands hw hr hop ha, fun offset => ⟨run_moved hr hop offset, vectors_moved op offset⟩⟩

def sampleView : DeviceArray := { Reduction.sampleArray with shape := [38], offset := 8 }

def sampleRegistry : TypeRegistry :=
  { types := [("float", .number .float32)], names := [(.type (.number .float32), "float")] }

def sampleTotals : World :=
  { Reduction.sampleWorld with
    registries := #[sampleRegistry], standardReductions := [((0, .sum none (.number .float32)), 0)] }

def sampleSums : World :=
  { Scan.sampleWorld with
    registries := #[sampleRegistry], runningSums := [((0, .number .float32, .number .float32), 0)] }

lemma names_sampleRegistry (t : ElementType) (name : String) (h : sampleRegistry.typeName t = .ok name) :
    ',' ∉ name.toList := by
  obtain ⟨x, hx, rfl⟩ := TypeRegistry.exists_of_typeName h
  cases mem_singleton.1 hx
  decide

lemma tracks_start (hw : w.Fitted) (hlog : w.log = #[]) : Tracks w [] :=
  ⟨by rw [hlog]; rintro before r after h; simp at h, by simp [hlog, commands], by simp [hlog, commands], hw,
    nofun, nofun, nofun⟩

lemma fitted_sampleTotals : sampleTotals.Fitted :=
  World.fitted_of_forall (forall_mem_cons.2 ⟨⟨rfl, rfl⟩, forall_mem_singleton.2 ⟨rfl, rfl⟩⟩)

lemma fitted_sampleSums : sampleSums.Fitted :=
  World.fitted_of_forall (forall_mem_cons.2 ⟨⟨rfl, rfl⟩, forall_mem_cons.2 ⟨⟨rfl, rfl⟩, forall_mem_singleton.2 ⟨rfl, rfl⟩⟩⟩)

lemma remembers_sampleTotals : sampleTotals.Remembers where
  names := names_sampleRegistry
  elementwise := nofun
  reductions := by
    rintro context op i h
    cases mem_singleton.1 h
    refine ⟨_, rfl, ⟨rfl, ?_⟩, rfl, ?_⟩
    · exact forall_mem_singleton.2 ⟨_, _, rfl⟩
    · exact forall_mem_cons.2 ⟨⟨_, _, rfl⟩, forall_mem_singleton.2 ⟨_, _, rfl⟩⟩
  sums := nofun
  selections := nofun

lemma remembers_sampleSums : sampleSums.Remembers where
  names := names_sampleRegistry
  elementwise := nofun
  reductions := nofun
  sums := by
    rintro key i h
    cases mem_singleton.1 h
    exact ⟨_, rfl, rfl, forall_mem_cons.2 ⟨⟨_, _, rfl⟩, forall_mem_singleton.2 ⟨_, _, rfl⟩⟩⟩
  selections := nofun

def sampleTotal : VectorOperation := reduction (.sum none (.number .float32)) default [sampleView] none .none []

theorem run_offsets_view :
    (sampleTotal.run.run.run sampleTotals).1.toBool = true ∧
      Leads sampleTotal.run (fun _ w' => sampleTotal.Hands sampleView sampleTotals w') (fun _ _ => True) sampleTotals ∧
      ((sums sampleView none none []).run.run.run sampleSums).1.toBool = true ∧
      ∀ offset, (sums (sampleView.moved offset) none none []).run.run.run sampleSums =
        (sums sampleView none none []).run.run.run sampleSums := by
  refine ⟨by decide +kernel, ?_, by decide +kernel, fun offset => ?_⟩
  · have hw := tracks_start fitted_sampleTotals rfl
    have hr := remembers_sampleTotals
    generalize sampleTotals = w at hw hr ⊢
    have hop : sampleTotal.Fits w := rfl
    exact (run_offsets hw hr hop).1 sampleView mem_cons_self
  · have hw := tracks_start fitted_sampleSums rfl
    have hr := remembers_sampleSums
    generalize sampleSums = w at hw hr ⊢
    have hop : (sums sampleView none none []).Fits w := trivial
    exact ((run_offsets hw hr hop).2 offset).1

/-- The kernels of running sums get the buffer of a view, and the buffer of the result directly after it. -/
theorem sums_slots_view :
    sampleView.offset = 8 ∧ sampleView.contiguity.any = true ∧
      ((sums sampleView none none []).run.run.run sampleSums).1.toBool = true ∧
      ((sums sampleView none none []).run.run.run sampleSums).2.launches.length = 3 ∧
      ∀ r ∈ ((sums sampleView none none []).run.run.run sampleSums).2.launches,
        [.buffer 0, .buffer 1] <+: r.slots ∧ .data (Primitive.int64.store (.int 8)) ∉ r.slots := by
  decide +kernel

end VectorOperation

end ClHost
