import ClHost.Proofs.Reduction.Launches
import ClHost.Proofs.Scan.Launches
import ClHost.Proofs.Scan.Sources
import Mathlib.Data.List.Basic

/-!
# What calls leave as it is

A call of a reduction or a scan makes arrays, asks devices, and launches kernels that have parameters.
-/

namespace ClHost

open World

/-- A relation that allows the steps of which calls are made: what is made, new buffers and commands, and launches of
kernels with parameters. -/
class CallSteps (R : World → World → Prop) : Prop extends Std.Refl R, IsTrans World R where
  made {w w' : World} (h : w.Made w') : R w w'
  beside {w w' : World} (h : w.Beside w') : R w w'
  call (q : Queue) (k : KernelId) (range : LaunchRange) {values : List Actual} (hval : values ≠ [])
    (wait : List EventId) : Host.Stays R (Host.call q k range values wait)

namespace Host

variable {α : Type} {R : World → World → Prop} [CallSteps R]

variable (i : Nat) (args : List Actual) {m : Host α}

lemma Stays.steps (hm : Stays Made m) : Stays R m := hm.mono fun _ _ => CallSteps.made

lemma Stays.beside (hm : Stays Beside m) : Stays R m := hm.mono fun _ _ => CallSteps.beside

lemma steps_send (f : CommandForm) (args : List (String × Datum)) : Stays R (f.send args) := by
  have hrecord {r : Record} (hr : r.isLaunch = false) : Stays R (record r) :=
    stays_modify fun _ => CallSteps.beside ⟨_, _, _, _, rfl, Nat.le_refl _, launches_push hr⟩
  have hevent : Stays R newEvent := stays_get_bind fun _ => CallSteps.beside ⟨_, _, _, _, rfl, Nat.le_refl _, rfl⟩
  unfold CommandForm.send
  extract_lets names given all rest
  have hrest : Stays R (rest ()) := by
    refine Stays.ite (hevent.bind fun e => (hrecord rfl).map) ?_
    exact (hrecord rfl).map
  exact stays_guarded hrest

lemma steps_enqueueMarker (q : Queue) (wait : Option (List EventId)) : Stays R (enqueueMarker q wait) := by
  have hsend (f : CommandForm) (args : List (String × Datum)) : Stays R (f.enqueue args) :=
    (steps_send f args).map
  refine (quiet_supports q.context (1, 2)).steps.bind fun isLater => ?_
  refine Stays.ite (hsend _ _) ?_
  exact Stays.ite ((steps_send _ _).bind fun _ => hsend _ _) (hsend _ _)

lemma steps_launchReduction (type : ElementType) (stage : ReductionStage) (args : List Actual) (c : ReductionCall) :
    Stays R (launchReduction type stage args c) := by
  refine stays_of_reaches (Q := fun _ _ _ => True) fun w => ?_
  refine reaches_bind ((reaches_prepareReduction type stage args c).imp fun _ => CallSteps.beside) ?_
  rintro l w1 - ⟨r, n, s, hl⟩
  have hadd (e : EventId) : Stays Beside (addEvent l.result e) := stays_of_leads fun _ => leads_addEvent_beside
  exact ((CallSteps.call _ _ _ (by simp [hl.args]) _).bind fun e =>
    (hadd e).beside.map).reaches w1

lemma steps_foldReduction (k : ReductionKernel) (args : List Actual) (c : ReductionCall) (fuel : Nat)
    (start : DeviceArray × EventId × Int) : Stays R (foldReduction k args c fuel start) := by
  induction fuel generalizing start with
  | zero => exact stays_pure _
  | succ fuel ih => exact Stays.ite (stays_pure _) ((steps_launchReduction _ _ _ _).bind ih)

/-- **A call of a reduction is made of such steps.** -/
lemma steps_callReduction (c : ReductionCall) : Stays R (callReduction i args c) :=
  stays_get.map.bind fun _ =>
    (steps_launchReduction _ _ _ _).bind fun _ => steps_foldReduction _ _ _ _ _

lemma steps_passScanArguments (args : List (KernelArgument × Actual)) (p : PassedArguments) :
    Stays R (args.foldlM (fun p (param, v) => passScanArgument p param v) p) := by
  refine stays_of_leads fun w => leads_passScanArguments.mono ?_ ?_
  · rintro p' w' ⟨rfl, -⟩
    exact refl w'
  · rintro e w' rfl
    exact refl w'

lemma steps_launchScan (k : ScanKernel) (q : Queue) (allocator : Option Allocator) (n : Int) (args : PassedArguments)
    (first second : KernelId) (shape : Scan.GroupShape) (update : KernelId) (updateGroup : Nat) :
    Stays R (launchScan k q allocator n args first second shape update updateGroup) := by
  refine stays_of_reaches (Q := fun _ _ _ => True) fun w => ?_
  refine reaches_bind ((reaches_prepareIntervals k q allocator n args.values shape).imp fun _ => CallSteps.beside) ?_
  rintro l w1 - ⟨-, results, values, starts, flags, hl⟩
  extract_lets run
  have hrun (k : KernelId) (groups : Int) (size : Nat) {values : List Actual} (hval : values ≠ [])
      (wait : List EventId) : Stays R (run k groups size values wait) := CallSteps.call _ _ _ hval _
  refine Stays.reaches ((hrun _ _ _ (by simp [hl.first]) _).bind fun e => ?_) w1
  have hrest := (hrun second 1 shape.group (by simp [hl.second] : l.second ≠ []) [e]).bind fun e =>
    hrun update l.intervals.count updateGroup (by simp [hl.update] : l.update ≠ []) [e]
  exact stays_guarded hrest

/-- **A call of a scan is made of such steps.** -/
lemma steps_callScan (c : ScanCall) : Stays R (callScan i args c) := by
  refine stays_get.map.bind fun k => ?_
  extract_lets isSerial ofFirst rest
  have hfst (first : DeviceArray) : Stays R (ofFirst first) := by
    unfold ofFirst
    extract_lets allocator queue? ofCount
    have hcnt (n : Int) : Stays R (ofCount n) := by
      refine Stays.ite ?_ ?_
      · exact (quiet_needQueue _).bind fun q => steps_enqueueMarker q _
      · split
        · refine (steps_passScanArguments _ _).bind fun passed => (quiet_arrayQueue _).bind fun q => ?_
          exact steps_launchScan _ _ _ _ _ _ _ _ _ _
        · have hrows (q : Queue) : Stays R (newRows q k.code.type [n] allocator) :=
            (stays_of_reaches fun _ => reaches_newRows).beside
          refine (quiet_arrayQueue _).bind fun q => Stays.bind (hrows q) fun values => ?_
          exact (steps_passScanArguments _ _).bind fun passed => CallSteps.call _ _ _ (by simp) _
    split
    · exact (stays_pure _).bind hcnt
    · exact (stays_pure _).bind hcnt
    · exact (stays_fail _).bind hcnt
  have hrest : Stays R (rest ()) := by
    dsimp only [rest]
    split
    · exact (stays_pure _).bind hfst
    · exact (stays_fail _).bind hfst
  exact stays_guarded hrest

end Host

section Carries

variable {w w' : World}

lemma World.Lasts.of_eq (hkers : w'.kernels = w.kernels) (hprog : w'.programs = w.programs)
    (htab : w'.tables = w.tables) : w.Lasts w' :=
  ⟨fun k c hc _ => ⟨c, by rw [hkers, hc], rfl, rfl, rfl⟩, fun h p hp => ⟨p, by rw [hprog, hp], rfl⟩,
    fun hw k c hc => hw k c (hkers ▸ hc), htab⟩

lemma World.Beside.lasts (h : w.Beside w') : w.Lasts w' := by
  obtain ⟨_, _, _, _, rfl, -⟩ := h
  exact .of_eq rfl rfl rfl

lemma World.Lasts.withKernel {k : KernelId} {c c' : Kernel} (hc : w.kernels[k]? = some c) (hc' : c.Rebound c') :
    w.Lasts (w.withKernel k c') := by
  obtain ⟨bound, buffers, rfl, hlen⟩ := hc'
  refine ⟨fun k' d hd htys => ?_, fun h p hp => ⟨p, hp, rfl⟩, fun hw k' d hd => ?_, rfl⟩
  · by_cases hk : k = k'
    · subst hk
      obtain rfl := Option.some.inj (hc.symm.trans hd)
      exact ⟨_, getElem?_withKernel hc, rfl, rfl, rfl⟩
    · exact ⟨d, by rw [World.withKernel, Array.getElem?_setIfInBounds_ne hk, hd], rfl, rfl, rfl⟩
  · by_cases hk : k = k'
    · subst hk
      obtain rfl := Option.some.inj ((World.getElem?_withKernel hc).symm.trans hd)
      exact ⟨hlen.trans (hw k c hc).1, (hw k c hc).2⟩
    · rw [World.withKernel, Array.getElem?_setIfInBounds_ne hk] at hd
      exact hw k' d hd

def World.Carries (w w' : World) : Prop := w.Fitted → w.Lasts w'

lemma Host.carries_call (q : Queue) (k : KernelId) (range : LaunchRange) {values : List Actual}
    (hval : values ≠ []) (wait : List EventId) : Stays Carries (call q k range values wait) := by
  intro w hw
  refine Leads.state (P := w.Lasts) ?_
  cases hc : w.kernels[k]? with
  | none =>
    -- A kernel that is not there takes no arguments.
    have hker : Leads (kernel k) (fun c w' => c.bindings = [] ∧ w' = w) Never w := by
      simp [kernel, hc, default, instInhabitedKernel.default]
    rw [call, leads_bind]
    refine hker.bind ?_
    rintro c _ ⟨hbind, rfl⟩
    have hlen : (values.length != c.bindings.length) = true := by simpa [hbind] using hval
    simp only [bindAll, hlen, if_true]
    exact refl _
  | some c =>
    refine (leads_call hc (hw k c hc)).mono ?_ ?_
    · rintro e _ ⟨r, c', w1, -, hc', -, -, ⟨replies, memory, -, rfl⟩, -, rfl⟩
      exact (Lasts.withKernel hc hc').trans (.of_eq rfl rfl rfl)
    · rintro e _ ⟨c', hc', replies, memory, -, rfl⟩
      exact (Lasts.withKernel hc hc').trans (.of_eq rfl rfl rfl)

instance : CallSteps Carries where
  refl w _ := refl w
  trans _ _ _ h h' hw := (h hw).trans (h' ((h hw).fitted hw))
  made h _ := h.toLasts
  beside h _ := h.lasts
  call q k range _ hval wait := Host.carries_call q k range hval wait

end Carries

open KernelArgument List Host

/-! ## Arguments that are read -/

lemma Declarator.isIdentifier_of_read {s : String} {d : Declarator} (h : Declarator.read s = .ok d) :
    Text.IsIdentifier d.name := by
  have hpl : ofPlain? (withoutQualifiers s) = some d := by
    unfold Declarator.read at h
    dsimp only at h
    split at h
    · rename_i hd
      rw [hd, Except.ok.inj h]
    · cases h
  unfold ofPlain? at hpl
  split at hpl
  · cases hpl
  · dsimp only at hpl
    split at hpl
    · cases hpl
    · rename_i cs _ hname
      rw [← Option.some.inj hpl, Text.IsIdentifier, String.toList_ofList]
      refine ⟨by simpa using hname, fun c hc => ?_⟩
      exact all_eq_true.1 all_takeWhile c (mem_reverse.1 hc)

lemma KernelArgument.named_of_read {r : TypeRegistry} {withOffset : Bool} {s : String} {a : KernelArgument}
    (h : read r withOffset s = .ok a) : a.Named := by
  unfold read readWith at h
  split at h
  · cases h
  · obtain ⟨d, hd, h⟩ := of_bind_ok h
    obtain ⟨t, -, h⟩ := of_bind_ok h
    have hname := Declarator.isIdentifier_of_read hd
    rw [← Except.ok.inj h]
    split <;> exact hname

def ArgumentSource.Plain : ArgumentSource → Prop
  | .text _ => True
  | .items xs => ∀ a, .inr a ∈ xs → a.Named

section Read

variable {s : ArgumentSource} {r : TypeRegistry} {withOffset : Bool} {args : List KernelArgument}

lemma ArgumentSource.Plain.named (hs : s.Plain) (h : s.read r withOffset = .ok args) : ∀ a ∈ args, a.Named := by
  intro a ha
  cases s with
  | text =>
    obtain ⟨x, -, hx⟩ := exists_of_forall₂_of_mem (mapM_ok_iff.1 h) ha
    exact named_of_read hx
  | items =>
    obtain ⟨x, hmem, hx⟩ := exists_of_forall₂_of_mem (mapM_ok_iff.1 h) ha
    cases x with
    | inl => exact named_of_read hx
    | inr b => exact Except.ok.inj hx ▸ hs b hmem

lemma ArgumentSource.length_of_read {args' : List KernelArgument} (h : s.read r false = .ok args)
    (h' : s.read r true = .ok args') : args.length = args'.length := by
  cases s <;> exact (mapM_ok_iff.1 h).length_eq.symm.trans (mapM_ok_iff.1 h').length_eq

end Read

/-! ## What was built -/

def ReductionKernel.Built (k : ReductionKernel) (w : World) : Prop :=
  ∃ c : ReductionCode, (∀ source, c.arguments = some source → source.Plain) ∧
    c.Built w.registry .mapping w k.first ∧ c.Built w.registry .folding w k.second

def ScanKernel.Built (k : ScanKernel) (w : World) : Prop :=
  ∀ first second shape update group, k.kernels = .levels first second shape update group →
    ∃ (s : Scan.Setup) (x : Scan.Sources), s.Prepared w.registry k.code ∧ s.arguments = k.arguments ∧
      k.code.arguments.Plain ∧ x.Take w.registry s ∧ w.Generated first x.first ∧ w.Generated second x.second ∧
      w.Generated update x.update

structure World.AllBuilt (w : World) : Prop where
  names : w.registry.Speaks
  fitted : w.Fitted
  sources : w.KnowsSources
  plain : ∀ (i : Nat) e, w.elementwise[i]? = some e → e.code.arguments.Plain
  elementwise : ∀ i overRange x, ((i, overRange), x) ∈ w.elementwiseBuilds →
    ∃ e, w.elementwise[i]? = some e ∧ e.code.Built w.registry overRange w x
  reductions : ∀ (i : Nat) k, w.reductions[i]? = some k → k.Built w
  scans : ∀ (i : Nat) k, w.scans[i]? = some k → k.Built w

lemma World.AllBuilt.lasts {w w' : World} (hw : w.AllBuilt) (h : w.Lasts w') : w'.AllBuilt := by
  have htab := h.tables
  simp only [tables, Prod.mk.injEq] at htab
  obtain ⟨-, helt, hbs, hred, hscans, -⟩ := htab
  refine ⟨h.registry.symm ▸ hw.names, h.fitted hw.fitted, hw.sources.lasts h, helt ▸ hw.plain, ?_, ?_, ?_⟩
  · rw [helt, hbs, h.registry]
    intro i overRange x hx
    obtain ⟨e, he, hblt⟩ := hw.elementwise i overRange x hx
    exact ⟨e, he, hblt.lasts h⟩
  · rw [hred]
    intro i k hk
    obtain ⟨c, hc, hfst, hsnd⟩ := hw.reductions i k hk
    rw [← h.registry] at hfst hsnd
    exact ⟨c, hc, hfst.lasts h, hsnd.lasts h⟩
  · rw [hscans]
    intro i k hk first second shape update group hkers
    obtain ⟨s, x, hs, hargs, hpl, hx, hfst, hsnd, hupd⟩ := hw.scans i k hk _ _ _ _ _ hkers
    rw [← h.registry] at hs hx
    exact ⟨s, x, hs, hargs, hpl, hx, hfst.lasts h, hsnd.lasts h, hupd.lasts h⟩

lemma forall_getElem?_push {α : Type} {xs : Array α} {P : α → Prop} (h : ∀ (i : Nat) x, xs[i]? = some x → P x) {y : α}
    (hy : P y) (i : Nat) (x : α) (hx : (xs.push y)[i]? = some x) : P x := by
  rw [Array.getElem?_push] at hx
  split at hx
  · exact Option.some.inj hx ▸ hy
  · exact h i x hx

lemma World.AllBuilt.addScan {w : World} (hw : w.AllBuilt) {k : ScanKernel} (hk : k.Built w) :
    AllBuilt { w with scans := w.scans.push k } := { hw with scans := forall_getElem?_push hw.scans hk }

namespace Host

variable {w : World}

variable {e : ElementwiseKernel}

lemma allBuilt_newElementwise (hw : w.AllBuilt) (he : e.code.arguments.Plain) :
    AllBuilt ((newElementwise e).run.run w).2 := by
  refine { hw with plain := forall_getElem?_push hw.plain he, elementwise := fun i overRange x hx => ?_ }
  obtain ⟨e', he', hblt⟩ := hw.elementwise i overRange x hx
  exact ⟨e', getElem?_push_of_some he' e, hblt⟩

/-- **The kernel of an operation was built for it, now or before.** -/
lemma leads_getElementwise_all (hw : w.AllBuilt) {i : Nat} (he : w.elementwise[i]? = some e) (overRange : Bool) :
    Leads (getElementwise i overRange)
      (fun x w' => w'.AllBuilt ∧ w'.registry = w.registry ∧ e.code.Built w'.registry overRange w' x)
      (fun _ w' => w'.AllBuilt) w := by
  refine (leads_getElementwise_built i overRange).mono ?_ fun _ _ h => hw.lasts h.toLasts
  rintro x _ (⟨hx, rfl⟩ | ⟨w1, hw1, hblt, rfl⟩)
  · obtain ⟨e', he', hblt⟩ := hw.elementwise i overRange x hx
    obtain rfl := Option.some.inj (he.symm.trans he')
    exact ⟨hw, rfl, hblt⟩
  · have hall := hw.lasts hw1.toLasts
    have helt : w1.elementwise = w.elementwise := congrArg (fun t => t.2.1) hw1.tables
    rw [he, ← hw1.registry] at hblt
    refine ⟨{ hall with elementwise := fun i' overRange' x' hx' => ?_ }, hw1.registry, hblt⟩
    rcases mem_append.1 hx' with hx' | hx'
    · exact hall.elementwise i' overRange' x' hx'
    · cases mem_singleton.1 hx'
      exact ⟨e, helt ▸ he, hblt⟩

lemma leads_callElementwise_all (hw : w.AllBuilt) {i : Nat} (he : w.elementwise[i]? = some e) (args : List Actual)
    (queue : Option Queue) (selection : List ElementSelection) (wait : List EventId) (unknown : List String) :
    Leads (do callElementwise (← prepareElementwise i args queue selection wait unknown)) (fun _ w' => w'.AllBuilt)
      (fun _ w' => w'.AllBuilt) w := by
  rw [prepareElementwise, bind_assoc]
  refine (leads_getElementwise_all hw he _).andThen ?_
  rintro ⟨k, params⟩ w1 ⟨hw1, -⟩
  refine Leads.bind (reaches_prepareLaunch (R := Made) k params args queue selection wait unknown) ?_
    fun _ _ h => hw1.lasts h.toLasts
  rintro l w2 ⟨hw2, -, -, hidx, hl⟩
  replace hw2 := hw1.lasts hw2.toLasts
  have hargs : l.args ≠ [] := by
    intro h
    rw [h, eq_comm, append_eq_nil_iff, map_eq_nil_iff] at hl
    rw [hl.2] at hidx
    cases selection <;> cases hidx
  have hcall : Stays Carries (callElementwise l) := carries_call l.queue l.kernel l.splay.range hargs l.wait
  exact (hcall.leads w2).mono (fun _ _ h => hw2.lasts (h hw2.fitted)) fun _ _ h => hw2.lasts (h hw2.fitted)

/-- **The kernels of a reduction are built for it.** -/
lemma leads_buildReduction_all (hw : w.AllBuilt) (context : Context) {c : ReductionCode}
    (hc : ∀ source, c.arguments = some source → source.Plain) :
    Leads (buildReduction context c) (fun _ w' => w'.AllBuilt) (fun _ w' => w'.AllBuilt) w := by
  refine (leads_buildReduction_built context c).mono ?_ fun _ _ h => hw.lasts h.toLasts
  rintro _ _ ⟨first, second, w1, -, hw1, ⟨hfst, hsnd⟩, -, -, rfl⟩
  have hall := hw.lasts hw1.toLasts
  rw [← hw1.registry] at hfst hsnd
  exact { hall with reductions := forall_getElem?_push hall.reductions ⟨c, hc, hfst, hsnd⟩ }

/-- **The kernels of a scan are built for it**, whether its sources are generated or found. -/
lemma leads_buildScan_all (hw : w.AllBuilt) (context : Context) {c : ScanCode} (hc : c.arguments.Plain) :
    Leads (buildScan context c) (fun _ w' => w'.AllBuilt) (fun _ w' => w'.AllBuilt) w := by
  refine Leads.bind (reaches_prepareScan context c) ?_ fun _ _ h => hw.lasts h.toLasts
  rintro s w1 ⟨hw1, hs⟩
  have hall1 := hw.lasts hw1.toLasts
  rw [← hw1.registry] at hs
  refine (leads_knownSources hs hall1.names (hc.named hs.arguments) hall1.sources).bind ?_ fun _ _ h => hall1.lasts h.toLasts
  rintro x w2 ⟨hx, w', sources, hw', hw2, hsrcs⟩
  have hall2 : w2.AllBuilt := by
    subst hw2
    exact { hall1.lasts hw'.toLasts with sources := hsrcs }
  have hreg : w2.registry = w1.registry := hw2 ▸ hw'.registry
  refine Leads.bind (reaches_buildKernels context c.options x) ?_ fun _ _ h => hall2.lasts h.toLasts
  rintro _ w3 ⟨hw3, first, second, update, rfl, hfst, hsnd, hupd⟩
  refine (hall2.lasts hw3.toLasts).addScan ?_
  rintro _ _ _ _ _ ⟨⟩
  rw [← hreg, ← hw3.registry] at hs hx
  obtain rfl := hs.code
  exact ⟨s, x, hs, rfl, hc, hx, hfst, hsnd, hupd⟩

end Host

/-! ## States of a session -/

open Host in
/-- The states of a session that starts without operations. -/
inductive World.Reachable : World → Prop
  | start {w : World} (hnms : w.registry.Speaks) (hfit : w.Fitted)
      (htab : w.tables = (w.registries, #[], [], #[], #[], [])) : w.Reachable
  | makeElementwise {w : World} (hw : w.Reachable) {e : ElementwiseKernel} (he : e.code.arguments.Plain) :
      Reachable ((newElementwise e).run.run w).2
  | makeReduction {w : World} (hw : w.Reachable) (context : Context) {c : ReductionCode}
      (hc : ∀ source, c.arguments = some source → source.Plain) : Reachable ((buildReduction context c).run.run w).2
  | makeScan {w : World} (hw : w.Reachable) (context : Context) {c : ScanCode} (hc : c.arguments.Plain) :
      Reachable ((buildScan context c).run.run w).2
  | addSerial {w : World} (hw : w.Reachable) {k : ScanKernel} {kernel : KernelId} (hk : k.kernels = .serial kernel) :
      Reachable { w with scans := w.scans.push k }
  | callElementwise {w : World} (hw : w.Reachable) {i : Nat} {e : ElementwiseKernel} (he : w.elementwise[i]? = some e)
      (args : List Actual) (queue : Option Queue) (selection : List ElementSelection) (wait : List EventId)
      (unknown : List String) :
      Reachable ((do callElementwise (← prepareElementwise i args queue selection wait unknown)).run.run w).2
  | callReduction {w : World} (hw : w.Reachable) (i : Nat) (args : List Actual) (c : ReductionCall) :
      Reachable ((callReduction i args c).run.run w).2
  | callScan {w : World} (hw : w.Reachable) (i : Nat) (args : List Actual) (c : ScanCall) :
      Reachable ((callScan i args c).run.run w).2
  | goOn {w w' : World} (hw : w.Reachable) (h : w.Lasts w') : w'.Reachable

/-- **In every state of a session, all kernels were built for the arguments that are kept with them.** -/
lemma World.Reachable.allBuilt {w : World} (hw : w.Reachable) : w.AllBuilt := by
  induction hw with
  | start hnms hfit htab =>
    simp only [tables, Prod.mk.injEq] at htab
    obtain ⟨-, helt, hbs, hred, hscans, hsrcs⟩ := htab
    exact ⟨hnms, hfit, by simp [KnowsSources, hsrcs], by simp [helt], by simp [hbs],
      by simp [hred], by simp [hscans]⟩
  | makeElementwise _ he ih => exact allBuilt_newElementwise ih he
  | makeReduction _ context hc ih => exact (leads_buildReduction_all ih context hc).state
  | makeScan _ context hc ih => exact (leads_buildScan_all ih context hc).state
  | addSerial _ hk ih =>
    refine ih.addScan ?_
    intro _ _ _ _ _ hkers
    cases hk.symm.trans hkers
  | callElementwise _ he args queue selection wait unknown ih =>
    exact (leads_callElementwise_all ih he args queue selection wait unknown).state
  | callReduction _ i args c ih => exact ih.lasts (steps_callReduction (R := Carries) i args c _ ih.fitted)
  | callScan _ i args c ih => exact ih.lasts (steps_callScan (R := Carries) i args c _ ih.fitted)
  | goOn _ h ih => exact ih.lasts h

end ClHost

/-! ## The data of captured calls -/

namespace ClHost.Capture

open List

lemma flatten_pieces {size : Nat} (hsize : 0 < size) (cs : List Char) : (pieces size cs).flatten = cs := by
  have hgo (n : Nat) : ∀ cs, cs.length ≤ n → (pieces.go size n cs).flatten = cs := by
    induction n with
    | zero => simp [pieces.go]
    | succ n ih =>
      rintro (_ | ⟨c, cs⟩) h
      · rfl
      · rw [pieces.go, flatten_cons, ih _ (by simp at h ⊢; omega), take_append_drop]
        simp
  exact hgo _ _ (Nat.le_refl _)

/-- The letters that a literal shows as they are. -/
def plain : List Char := "b'=".toList ++ Base64.letters.toList

lemma encode_subset (data : Bytes) : Base64.encode data ⊆ plain := by
  have hletters : ∀ k < 64, Base64.letters.getD k 'A' ∈ plain := by decide +kernel
  have hletter (n : Nat) : Base64.letter n ∈ plain := hletters _ (Nat.mod_lt _ (by decide))
  have hpad : '=' ∈ plain := by decide
  fun_induction Base64.encode data with
  | case1 => exact nil_subset _
  | _ => simp_all

def literal (cs : List Char) : String :=
  let quote := String.singleton (if '\'' ∈ cs then '"' else '\'')
  quote ++ String.ofList cs ++ quote

lemma quoteChar_eq {q c : Char} (hc : c ∈ plain) (hq : c ≠ q) : Text.quoteChar q c = String.singleton c := by
  have hpl : plain.all (fun c => !"\\\n\r\t".toList.contains c && Text.isShown c) = true := by decide
  have hone := all_eq_true.1 hpl c hc
  simp_all [Text.quoteChar]

lemma quoted_eq {cs : List Char} (h : cs ⊆ plain) : Text.quoted (String.ofList cs) = literal cs := by
  have hdbl : '"' ∉ cs := fun hmem => absurd (h hmem) (by decide)
  have hjoin {q : Char} (hq : q ∉ cs) : String.join (cs.map (Text.quoteChar q)) = String.ofList cs := by
    rw [map_congr_left fun c hc => quoteChar_eq (h hc) fun heq : c = q => hq (heq ▸ hc), ← String.toList_inj]
    simp [String.toList_join, flatMap_map]
  rw [Text.quoted, literal, String.toList_ofList]
  by_cases hsingle : '\'' ∈ cs
  · simp [hsingle, hdbl, hjoin]
  · simp [hsingle, hjoin]

/-- The literals of the data have no escapes, and their texts one after the other are the compressed data in letters, with
the mark and the quotes of a byte literal around them. -/
theorem dataLines_literals (name : String) (data : Bytes) : ∃ texts : List (List Char),
    dataLines name data = (name ++ " = (") :: texts.map (fun cs => "    " ++ literal cs) ++ ["    )"] ∧
    texts.flatten = "b'".toList ++ Base64.encode (Deflate.compress data) ++ ['\''] := by
  have hletters : letters data ⊆ plain := by
    simp only [letters, append_subset, encode_subset]
    decide
  rw [← letters, dataLines]
  generalize letters data = all at hletters ⊢
  refine ⟨pieces lineLength all, ?_, flatten_pieces (by decide) all⟩
  rw [map_congr_left fun cs hcs => ?_]
  rw [quoted_eq fun c hc => hletters ?_]
  rw [← flatten_pieces (by decide : 0 < lineLength) all]
  exact mem_flatten.2 ⟨cs, hcs, hc⟩

end ClHost.Capture
