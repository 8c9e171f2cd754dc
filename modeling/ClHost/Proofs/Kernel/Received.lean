import ClHost.Proofs.CType.Pointers
import ClHost.Proofs.Reduction.Launches

/-!
# What launched kernels receive

A kernel is launched with slots that its rules fill from the values of the call.
-/

namespace ClHost

open World

def Record.Got (w : World) (values : List Actual) (r : Record) : Prop :=
  ∃ (k : KernelId) (c : Kernel), w.kernels[k]? = some c ∧ values.length = c.bindings.length ∧
    ∃ queue globalSize localSize offset slots wait event, Binding.FillsAll (values.zip c.bindings) slots ∧
      r = .launch c.name c.program queue globalSize localSize offset slots wait event

/-- Between two states there were these launches, kernels keep their rules, and all of them still have one value for
each of their slots. -/
structure World.Started (rs : List Record) (w w' : World) : Prop extends Ran rs w w' where
  fitted : w.Fitted → w'.Fitted

section Started

variable {w w' w'' : World} {rs rs' : List Record}

lemma World.Started.trans (h : Started rs w w') (h' : Started rs' w' w'') : Started (rs ++ rs') w w'' :=
  ⟨h.toRan.trans h'.toRan, fun hw => h'.fitted (h.fitted hw)⟩

instance : Std.Refl (Started []) := ⟨fun w => ⟨.refl w, id⟩⟩

lemma World.Beside.started (h : w.Beside w') : Started [] w w' := by
  refine ⟨h.ran, ?_⟩
  obtain ⟨_, _, _, _, rfl, -⟩ := h
  exact id

lemma Record.Got.started {r : Record} {values : List Actual} (h : r.Got w values) (hw : Started rs w w') :
    r.Got w' values := by
  obtain ⟨k, c, hc, hval⟩ := h
  obtain ⟨_, hc', bound, buffers, rfl, -⟩ := hw.kernels k c hc
  exact ⟨k, _, hc', hval⟩

lemma World.Quiet.launches (h : w.Quiet w') : w'.launches = w.launches := by
  obtain ⟨more, hlog, hmore⟩ := h.log
  have hnone : more.filter (·.isLaunch) = [] := by
    refine List.filter_eq_nil_iff.2 fun r hr => ?_
    have hcommand := hmore r hr
    cases r with
    | launch => cases hcommand
    | _ => exact Bool.false_ne_true
  rw [World.launches, hlog, List.filter_append, hnone, List.append_nil, World.launches]

end Started

namespace Host

variable {w : World}

/-- **A call launches its kernel with the values that it passes.** -/
lemma leads_call_got {q : Queue} {k : KernelId} {range : LaunchRange} {values : List Actual} {wait : List EventId}
    (hw : w.Fitted) (hval : values ≠ []) : Leads (call q k range values wait)
      (fun _ w' => ∃ r, r.Got w' values ∧ Started [r] w w') Any w := by
  obtain ⟨v, values, rfl⟩ := List.exists_cons_of_ne_nil hval
  cases hc : w.kernels[k]? with
  | none =>
    -- A kernel that is not there takes no arguments.
    have hker : Leads (kernel k) (fun c _ => c.bindings = []) Any w := by
      simp [kernel, hc, default, instInhabitedKernel.default]
    rw [call, leads_bind]
    refine hker.andThen ?_
    rintro c _ hbind
    simp only [hbind]
    trivial
  | some c =>
    have hfit := hw k c hc
    cases hr : range.resolve with
    | error e =>
      refine (leads_call hc hfit).mono ?_
      rintro e _ ⟨r, _, _, hr', -⟩
      rw [hr] at hr'
      cases hr'
    | ok =>
      refine ((leads_call_ran ⟨c, hc, hfit, rfl⟩ hr).and (issues_call q k range v values wait w hw)).mono ?_
      rintro e w' ⟨⟨hlen, c', slots, hc', hfills, hran⟩, _, -, -, hiss⟩
      obtain rfl : c = c' := Option.some.inj (hc.symm.trans hc')
      have hst : Started _ w w' := ⟨hran, hiss.fitted⟩
      exact ⟨_, Record.Got.started ⟨k, c, hc, hlen, _, _, _, _, slots, _, _, hfills, rfl⟩ hst, hst⟩

end Host

/-! ## Reductions -/

def Record.Reduces (w : World) (params : List KernelArgument) (args : List Actual) (r : Record) : Prop :=
  ∃ (result : DeviceArray) (numbers : List Int),
    r.Got w ([.buffer result.buffer, .literal (.int result.offset)] ++ (params.zip args).flatMap passedValues ++
      numbers.map fun n => .literal (.int n))

lemma Record.Reduces.started {w w' : World} {rs : List Record} {params : List KernelArgument} {args : List Actual}
    {r : Record} (h : r.Reduces w params args) (hw : Started rs w w') : r.Reduces w' params args := by
  obtain ⟨result, numbers, h⟩ := h
  exact ⟨result, numbers, h.started hw⟩

namespace Host

variable {w : World} {k : ReductionKernel} {args : List Actual} {c : ReductionCall}

lemma leads_launchReduction_got {type : ElementType} {stage : ReductionStage} (hw : w.Fitted) :
    Leads (launchReduction type stage args c)
      (fun _ w' => ∃ r, Started [r] w w' ∧ r.Reduces w' stage.arguments args) Any w := by
  refine Leads.bind (reaches_prepareReduction type stage args c) ?_
  rintro l w1 ⟨hw1, range, n, s, hl⟩
  rw [hl.args]
  refine (leads_call_got (hw1.started.fitted hw) (by simp)).bind ?_
  rintro e w2 ⟨r, hr, hw2⟩
  refine leads_addEvent_beside.bind fun _ w3 hw3 => ?_
  exact ⟨r, (hw1.started.trans hw2).trans hw3.started, Record.Reduces.started ⟨l.result, _, hr⟩ hw3.started⟩

lemma leads_foldReduction_got {fuel : Nat} {start : DeviceArray × EventId × Int} (hw : w.Fitted) :
    Leads (foldReduction k args c fuel start) (fun _ w' => ∃ more, Started more w w' ∧
        ∀ r ∈ more, ∃ input : DeviceArray, r.Reduces w' k.second.arguments (.array input :: args)) Any w := by
  induction fuel generalizing w start with
  | zero => exact ⟨[], refl w, by simp⟩
  | succ fuel ih =>
    obtain ⟨result, e, groups⟩ := start
    rw [foldReduction]
    split
    · exact ⟨[], refl w, by simp⟩
    · refine (leads_launchReduction_got hw).bind ?_
      rintro next w1 ⟨r, hw1, hr⟩
      refine (ih (hw1.fitted hw)).mono ?_
      rintro _ w2 ⟨more, hw2, hmore⟩
      exact ⟨r :: more, hw1.trans hw2, List.forall_mem_cons.2 ⟨⟨result, hr.started hw2⟩, hmore⟩⟩

/-- **A reduction launches its first kernel with its arguments**, and then its second one with the values that were
left and the same arguments. -/
lemma leads_callReduction_got {i : Nat} (hw : w.Fitted) (hk : w.reductions[i]? = some k) :
    Leads (callReduction i args c)
      (fun _ w' => ∃ first more, Started (first :: more) w w' ∧ first.Reduces w' k.first.arguments args ∧
        ∀ r ∈ more, ∃ input : DeviceArray, r.Reduces w' k.second.arguments (.array input :: args)) Any w := by
  simp only [callReduction, reduction, leads_bind, leads_get, leads_pure, hk, Option.getD_some]
  refine (leads_launchReduction_got hw).mono ?_
  rintro start w1 ⟨first, hw1, hfst⟩
  refine (leads_foldReduction_got (hw1.fitted hw)).mono ?_
  rintro _ w2 ⟨more, hw2, hmore⟩
  exact ⟨first, more, hw1.trans hw2, hfst.started hw2, hmore⟩

end Host

/-! ## Offsets that are not read -/

open List

def DeviceArray.moved (a : DeviceArray) (offset : Int) : DeviceArray := { a with offset }

inductive Unread : KernelArgument × Actual → KernelArgument × Actual → Prop
  | same (x : KernelArgument × Actual) : Unread x x
  | moved (type : ElementType) (name : String) (a : DeviceArray) (offset : Int) :
      Unread (.vector type name false, .array a) (.vector type name false, .array (a.moved offset))

namespace Host

inductive PassedArguments.Resembles : PassedArguments → PassedArguments → Prop
  | same (p : PassedArguments) : Resembles p p
  | moved (values : List Actual) (a : DeviceArray) (offset : Int) (wait : List EventId) :
      Resembles ⟨values, some a, wait⟩ ⟨values, some (a.moved offset), wait⟩

variable {refusal : String} {p p' : PassedArguments} {x x' : KernelArgument × Actual}

lemma passArgument_array (type : ElementType) (name : String) (withOffset : Bool) (a : DeviceArray) :
    passArgument refusal p (.vector type name withOffset) (.array a) =
      if a.contiguity.any = true then do
        let events ← eventsOf a
        pure ⟨p.values ++ [.buffer a.buffer] ++ if withOffset then [.literal (.int a.offset)] else [],
          p.first <|> some a, p.wait ++ events⟩
      else refuse .runtime refusal := by
  dsimp only [passArgument]
  cases a.contiguity.any <;> rfl

lemma alike_passArgument (hp : p.Resembles p') (hx : Unread x x') :
    Alike PassedArguments.Resembles (passArgument refusal p x.1 x.2) (passArgument refusal p' x'.1 x'.2) := by
  cases hx with
  | same x =>
    cases hp with
    | same => exact (alike_refl _).mono fun _ _ h => h ▸ .same _
    | moved =>
      rcases x with ⟨param, v⟩
      cases param with
      | vector =>
        cases v with
        | array b =>
          rw [passArgument_array, passArgument_array]
          split
          · refine alike_bind (alike_refl (eventsOf b)) ?_
            rintro events _ rfl
            exact alike_pure (.moved _ _ _ _)
          · exact alike_fail _
        | host =>
          unfold passArgument
          dsimp only
          split <;> exact alike_fail _
        | _ => exact alike_fail _
      | _ => exact alike_pure (.moved _ _ _ _)
  | moved type name a offset =>
    rw [passArgument_array, passArgument_array]
    have hrows : (a.moved offset).contiguity = a.contiguity := rfl
    rw [hrows]
    split
    · refine alike_bind (alike_refl (eventsOf a)) ?_
      rintro events _ rfl
      refine alike_pure ?_
      cases hp with
      | same p =>
        rcases p with ⟨values, _ | first, wait⟩
        · exact .moved _ _ _ _
        · exact .same _
      | moved => exact .moved _ _ _ _
    · exact alike_fail _

variable {args args' : List Actual} {c : ReductionCall}

variable {wait : List EventId} {params : List KernelArgument}

lemma alike_passArguments (h : List.Forall₂ Unread (params.zip args) (params.zip args')) :
    Alike PassedArguments.Resembles (passArguments refusal wait params args)
      (passArguments refusal wait params args') := by
  refine alike_foldlM (T := Unread) (fun p p' hp x x' hx => ?_) h (.same _)
  exact alike_passArgument hp hx

variable {args args' : List Actual}

variable {w : World} {i : Nat}

lemma prepareElementwise_congr {queue : Option Queue} {selection : List ElementSelection} {unknown : List String}
    (h : Leads (getElementwise i !selection.isEmpty) (fun x _ => List.Forall₂ Unread (x.2.zip args) (x.2.zip args')) Any w)
    : (prepareElementwise i args queue selection wait unknown).run.run w =
      (prepareElementwise i args' queue selection wait unknown).run.run w := by
  refine run_bind_congr (h.mono (fun x w' hx => ?_))
  refine Alike.run_eq (alike_bind (alike_passArguments hx) fun p p' hp => ?_) w'
  cases hp with
  | same => exact alike_refl _
  | moved values a offset =>
    -- The elements are chosen by the size of the first array alone.
    have hq : elementwiseQueue queue (some (a.moved offset)) = elementwiseQueue queue (some a) := by
      cases queue <;> rfl
    have hchosen : chosenElements selection (some (a.moved offset)) = chosenElements selection (some a) := by
      rcases selection with _ | ⟨_ | _ | _, _ | _⟩ <;> rfl
    split
    · exact alike_fail _
    · rw [hq, hchosen]
      refine alike_bind (alike_refl _) ?_
      rintro queue? _ rfl
      refine alike_bind (alike_refl _) ?_
      rintro (_ | ⟨start, _ | stop, step⟩) _ rfl <;> exact alike_refl _

variable {k : ReductionKernel}

lemma alike_launchReduction {type : ElementType} {stage : ReductionStage}
    (h : List.Forall₂ Unread (stage.arguments.zip args) (stage.arguments.zip args')) :
    Alike Eq (launchReduction type stage args c) (launchReduction type stage args' c) := by
  have hready : Alike Eq (prepareReduction type stage args c) (prepareReduction type stage args' c) := by
    refine alike_bind (alike_passArguments h) fun p p' hp => ?_
    cases hp with
    | same => exact alike_refl _
    | moved values a offset =>
      have hq : reductionQueue c.queue (some (a.moved offset)) = reductionQueue c.queue (some a) := by
        cases c.queue <;> rfl
      rw [hq]
      exact alike_refl _
  refine alike_bind hready ?_
  rintro l _ rfl
  exact alike_refl _

lemma alike_foldReduction {fuel : Nat} {start : DeviceArray × EventId × Int}
    (h : ∀ result : DeviceArray, List.Forall₂ Unread (k.second.arguments.zip (.array result :: args))
      (k.second.arguments.zip (.array result :: args'))) :
    Alike Eq (foldReduction k args c fuel start) (foldReduction k args' c fuel start) := by
  induction fuel generalizing start with
  | zero => exact alike_refl _
  | succ fuel ih =>
    obtain ⟨result, e, groups⟩ := start
    rw [foldReduction, foldReduction]
    split
    · exact alike_refl _
    · refine alike_bind (alike_launchReduction (h result)) ?_
      rintro next _ rfl
      exact ih

/-- **A reduction does not depend on offsets that it does not take.** -/
lemma callReduction_congr (hk : w.reductions[i]? = some k)
    (hfst : List.Forall₂ Unread (k.first.arguments.zip args) (k.first.arguments.zip args'))
    (hsnd : ∀ result : DeviceArray, List.Forall₂ Unread (k.second.arguments.zip (.array result :: args))
      (k.second.arguments.zip (.array result :: args'))) :
    (callReduction i args c).run.run w = (callReduction i args' c).run.run w := by
  refine run_bind_congr ?_
  simp only [reduction, leads_bind, leads_get, leads_pure, hk, Option.getD_some]
  refine Alike.run_eq (alike_bind (alike_launchReduction hfst) ?_) w
  rintro start _ rfl
  exact alike_foldReduction hsnd

lemma alike_passScanArguments {l l' : List (KernelArgument × Actual)} (h : List.Forall₂ Unread l l') :
    Alike Eq (l.foldlM (fun p (param, v) => passScanArgument p param v) p)
      (l'.foldlM (fun p (param, v) => passScanArgument p param v) p) := by
  refine alike_foldlM (T := Unread) (fun p p' hp x x' hx => ?_) h rfl
  subst hp
  cases hx <;> exact alike_refl _

lemma getElem?_of_unread (h : List.Forall₂ Unread (params.zip args) (params.zip args'))
    (hargs : args.length = params.length) (hargs' : args'.length = params.length) (i : Nat) :
    args'[i]? = args[i]? ∨ ∃ a offset, args[i]? = some (.array a) ∧ args'[i]? = some (.array (a.moved offset)) := by
  induction params generalizing args args' i with
  | nil =>
    rw [eq_nil_of_length_eq_zero hargs, eq_nil_of_length_eq_zero hargs']
    exact .inl rfl
  | cons p params ih =>
    obtain ⟨v, args, rfl⟩ := exists_cons_of_length_eq_add_one hargs
    obtain ⟨v', args', rfl⟩ := exists_cons_of_length_eq_add_one hargs'
    rw [zip_cons_cons, zip_cons_cons, forall₂_cons] at h
    cases i with
    | zero =>
      obtain ⟨hv, -⟩ := h
      generalize hx : (p, v) = x at hv
      generalize hx' : (p, v') = x' at hv
      cases hv with
      | same =>
        cases hx
        cases hx'
        exact .inl rfl
      | moved type name a offset =>
        cases hx
        cases hx'
        exact .inr ⟨a, offset, rfl, rfl⟩
    | succ i => exact ih h.2 (Nat.succ.inj hargs) (Nat.succ.inj hargs') i

/-- **A scan does not depend on offsets that it does not take.** -/
lemma callScan_congr {k : ScanKernel} {c : ScanCall} (hk : w.scans[i]? = some k) (hlen : args'.length = args.length)
    (hargs : List.Forall₂ Unread (k.arguments.zip args) (k.arguments.zip args')) :
    (callScan i args c).run.run w = (callScan i args' c).run.run w := by
  have hscan : ∀ {Q : ScanKernel → World → Prop} {E : Fault → World → Prop}, Leads (scan i) Q E w ↔ Q k w := by
    simp [scan, hk]
  refine run_bind_congr (hscan.2 (Alike.run_eq ?_ w))
  extract_lets isSerial found checked found' checked'
  -- Only the arguments that are passed differ once the first array is found.
  have hfnd : ∀ b, Alike Eq (found b) (found' b) := by
    intro b
    unfold found found'
    extract_lets allocator queue count count'
    have hcnt : ∀ n, Alike Eq (count n) (count' n) := by
      intro n
      unfold count count'
      split
      · exact alike_refl _
      · cases k.kernels with
        | levels =>
          refine alike_bind (alike_passScanArguments hargs) ?_
          rintro passed _ rfl
          exact alike_refl _
        | serial =>
          refine alike_bind (alike_refl _) ?_
          rintro q _ rfl
          refine alike_bind (alike_refl _) ?_
          rintro values _ rfl
          refine alike_bind (alike_passScanArguments hargs) ?_
          rintro passed _ rfl
          exact alike_refl _
    split
    · exact hcnt _
    · exact hcnt _
    · exact alike_fail _
  rw [hlen]
  split
  · exact alike_fail _
  · rename_i hcnt
    have hcnt : args.length = k.arguments.length := by simpa using hcnt
    unfold checked checked'
    rcases getElem?_of_unread hargs hcnt (hlen.trans hcnt) k.firstArray with hfst | ⟨a, offset, ha, ha'⟩
    · rw [hfst]
      split
      · exact hfnd _
      · exact alike_fail _
    · rw [ha, ha']
      exact hfnd a

end Host

end ClHost
