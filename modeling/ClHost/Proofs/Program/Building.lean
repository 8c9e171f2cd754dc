import ClHost.Proofs.Device.Commands

/-!
# Building is quiet

Programs and kernels are made and built without a command to a queue. Kernels that are made have one unset value for
each of their slots, and rules that fill them; declaring the types of arguments gives them other rules that do.
-/

namespace ClHost

open QuietSteps

namespace Host

section Reports

/-! ## Reports -/

variable {R : World → World → Prop} [Std.Refl R]

lemma quiet_environment? (name : String) : Stays R (environment? name) := stays_get.map

lemma quiet_deviceProgram (p : ProgramId) : Stays R (deviceProgram p) := stays_get.map

variable [IsTrans World R]

lemma quiet_deviceText (d : DeviceRef) : Stays R (deviceText d) :=
  (quiet_deviceInfo d).bind fun _ => (quiet_platformInfo _).map

lemma quiet_deviceLog (d : DeviceRef) : Stays R (deviceLog d) := by
  refine stays_get.bind fun w => ?_
  split <;> exact stays_pure _

lemma quiet_buildLogs (p : ProgramId) : Stays R (buildLogs p) :=
  (quiet_deviceProgram p).bind fun _ => stays_mapM fun d _ => (quiet_deviceLog d).map

lemma quiet_reports (logs : List (DeviceRef × String)) (f : String → String → String) :
    Stays R (logs.mapM fun (d, log) => do return f (← deviceText d) log) :=
  stays_mapM fun l _ => (quiet_deviceText l.1).map

variable (hwarn : ∀ kind message, Stays R (warn kind message))

include hwarn

lemma stays_compilerOutput (text : String) : Stays R (compilerOutput text) := by
  refine (quiet_environment? _).bind fun v => ?_
  split
  · exact stays_fail _
  · exact hwarn _ _
  · exact hwarn _ _

lemma stays_buildWithLogs {p : ProgramId} {options : String} {devices : Option (List DeviceRef)}
    (hbuild : Stays R (buildDevice p options devices)) : Stays R (buildWithLogs p options devices) := by
  refine hbuild.attempt.bind fun r => ?_
  extract_lets rest
  have hrest : ∀ x, Stays R (rest x) := by
    intro x
    refine (quiet_buildLogs p).bind fun _ => (quiet_reports _ _).bind fun texts => Stays.ite ?_ (stays_pure _)
    exact (quiet_deviceProgram p).bind fun _ => stays_compilerOutput hwarn _
  split
  · exact hrest ()
  · exact (quiet_buildLogs p).bind fun _ => (quiet_reports _ _).bind fun _ => (stays_fail _).bind fun x => hrest x
  · exact (stays_fail _).bind fun x => hrest x

end Reports

variable {α : Type} {R : World → World → Prop} [QuietSteps R]

/-! ## The session -/

lemma quiet_registry : Stays R registry := stays_get.map

lemma quiet_typeName (t : ElementType) : Stays R (typeName t) := quiet_registry.bind fun _ => stays_lift _

variable (p : ProgramId) (k : KernelId) (d : DeviceRef) (context : Context)

lemma quiet_hasDouble : Stays R (hasDouble d) := (quiet_deviceInfo d).map

lemma quiet_platformVersion (i : Nat) : Stays R (platformVersion i) := by
  refine (quiet_platformInfo i).map.bind fun text => (quiet_platformInfo i).bind fun info => ?_
  unfold versionOf
  split
  · exact stays_pure _
  · exact stays_fail _

lemma quiet_supports (c : Context) (v : Version) : Stays R (supports c v) := by
  have hversion : Stays R (contextVersion c) := by
    unfold contextVersion
    split
    · exact quiet_platformVersion _
    · exact stays_fail _
  exact hversion.bind fun _ => stays_get.map.ite (stays_pure _)

lemma quiet_newTag : Stays R newTag := stays_get_bind fun _ => of_eq rfl rfl rfl

lemma quiet_changeFiles (f : FileTree → Result FileTree) : Stays R (changeFiles f) := by
  refine stays_get_bind fun w => ?_
  cases f w.files with
  | error => exact refl w
  | ok => exact of_eq rfl rfl rfl

variable (name : String) (source : String) (options : String) (devices : Option (List DeviceRef))

lemma quiet_newContext (hasType : Bool) : Stays R (newContext devices hasType) := by
  have hrest : Stays R (do
      let w ← get
      let devices := devices.getD [⟨0, 0⟩]
      set { w with contexts := w.contexts + 1 }
      return ⟨w.contexts, devices⟩ : Host Context) := stays_get_bind fun _ => of_eq rfl rfl rfl
  exact stays_guarded hrest

lemma quiet_newQueue (device : Option DeviceRef) (properties : Nat) : Stays R (newQueue context device properties) := by
  unfold newQueue
  split
  · exact stays_fail _
  · exact stays_get_bind fun _ => of_eq rfl rfl rfl

/-! ## Programs -/

lemma quiet_program (h : ProgramHandle) : Stays R (program h) := stays_get.map

lemma quiet_newProgram : Stays R (newProgram context source) := by
  refine stays_get_bind fun w => aside ⟨⟨[], (List.append_nil _).symm, by simp⟩, rfl, fun h p hp => ?_⟩
  exact ⟨p, getElem?_push_of_some hp _, rfl⟩

lemma quiet_modifyProgram (h : ProgramHandle) {f : Program → Program} (hf : ∀ p, (f p).source = p.source) :
    Stays R (modifyProgram h f) := by
  refine stays_modify fun w => aside ⟨⟨[], by simp⟩, rfl, fun h' p hp => ?_⟩
  rw [Array.getElem?_modify]
  split
  · exact ⟨f p, by rw [hp, Option.map_some], hf p⟩
  · exact ⟨p, hp, rfl⟩

lemma quiet_programFromSource : Stays R (programFromSource context source) :=
  stays_get.map.bind fun _ => stays_get_bind fun _ => of_eq rfl rfl rfl

lemma quiet_deviceOf (h : ProgramHandle) : Stays R (deviceOf h) := by
  refine (quiet_program h).bind fun p => ?_
  split
  · exact stays_pure _
  · exact (quiet_warn _ _).bind fun _ => (quiet_programFromSource _ _).bind fun _ =>
      (quiet_modifyProgram _ (by exact fun _ => rfl)).map
  · exact stays_fail _

lemma quiet_shownBefore : Stays R (shownBefore p source) := by
  refine stays_get_bind fun w => ?_
  split
  · exact refl w
  · exact of_eq rfl rfl rfl

lemma quiet_takeFailure (d : DeviceProgram) : Stays R (takeFailure d) := by
  refine stays_get_bind fun w => ?_
  dsimp only
  split
  · exact refl w
  · exact of_eq rfl rfl rfl

lemma quiet_buildDevice : Stays R (buildDevice p options devices) := by
  refine (quiet_deviceProgram p).bind fun d => (quiet_shownBefore _ _).bind fun same => ?_
  refine (quiet_record rfl).bind fun _ => Stays.bind (stays_modify fun _ => of_eq rfl rfl rfl) fun _ => ?_
  refine (quiet_takeFailure d).bind fun f => ?_
  split
  · exact stays_fail _
  · exact stays_pure _

lemma quiet_buildWithLogs :
    Stays R (buildWithLogs p options devices) := stays_buildWithLogs quiet_warn (quiet_buildDevice p options devices)

lemma quiet_standingOptions : Stays R (standingOptions context) := by
  unfold standingOptions
  split
  · exact stays_fail _
  · exact stays_get.bind fun _ => (quiet_platformInfo _).bind fun _ => (quiet_environment? _).map

lemma quiet_explainBuildFailure (source : Option String) {body : Host α}
    (hbody : Stays R body) : Stays R (explainBuildFailure options source body) := by
  refine hbody.attempt.bind fun r => ?_
  split
  · cases source with
    | none => exact (stays_pure _).bind fun _ => stays_fail _
    | some =>
      exact quiet_newTag.bind fun _ => (quiet_changeFiles _).bind fun _ => stays_get.bind fun _ =>
        (stays_pure _).bind fun _ => stays_fail _
  · exact stays_lift _

lemma quiet_builtProgram (source options : String) (devices : Option (List DeviceRef))
    (includePath : List String) : Stays R (builtProgram context source options devices .standard includePath) := by
  unfold builtProgram
  extract_lets again retry finish
  have hagain : ∀ x, Stays R (again x) := fun _ => (quiet_programFromSource _ _).map
  have hretry : ∀ wasCached e, Stays R (retry wasCached e) := by
    intro wasCached e
    refine Stays.ite ((stays_fail e).bind fun _ => ?_) ?_
    all_goals
      exact Stays.ite ((quiet_warn _ _).bind fun x => hagain x) (hagain ())
  have hfin : ∀ r, Stays R (finish r) := fun r =>
    Stays.ite (quiet_buildWithLogs _ _ _).map (stays_pure _)
  exact (hretry false _).bind hfin

/-- **Building a program is quiet.** -/
lemma quiet_build (h : ProgramHandle) (options : List String) (devices : Option (List DeviceRef)) :
    Stays R (build h options devices .standard) := by
  refine (quiet_program h).bind fun p => ?_
  split
  · exact (quiet_deviceOf h).bind fun _ => stays_fail _
  · refine Stays.bind ((quiet_standingOptions _).map) fun all => ?_
    refine (quiet_environment? _).bind fun v => ?_
    dsimp only
    split
    · refine Stays.ite ?_ ?_
      · exact (quiet_programFromSource _ _).bind fun d => (quiet_modifyProgram _ (by exact fun _ => rfl)).bind fun _ =>
          quiet_explainBuildFailure _ _ (quiet_buildWithLogs _ _ _)
      · exact (quiet_explainBuildFailure _ _ (quiet_builtProgram _ _ _ _ _)).bind fun d => quiet_modifyProgram _ (by exact fun _ => rfl)
    · exact quiet_explainBuildFailure _ _ (quiet_buildWithLogs _ _ _)
    · exact stays_fail _

/-! ## Kernels -/

lemma quiet_kernel : Stays R (kernel k) := stays_get.map

lemma quiet_kernelContext : Stays R (kernelContext k) :=
  (quiet_kernel k).bind fun _ => (quiet_deviceProgram _).map

lemma quiet_modifyKernel {f : Kernel → Kernel} (hf : ∀ c : Kernel, c.Revised (f c)) :
    Stays R (modifyKernel k f) := stays_modify fun _ => modify fun c _ => hf c

lemma totalSlots_generic (n : Nat) : Binding.totalSlots (List.replicate n .generic) = n := by
  induction n with
  | zero => rfl
  | succ n ih =>
    rw [List.replicate_succ, Binding.totalSlots_cons, ih]
    exact Nat.add_comm 1 n

lemma reaches_newKernel (source : Option String) (w : World) : Reaches R (newKernel p name source)
      (fun k w' => ∃ c, w'.kernels[k]? = some c ∧ c.name = name ∧ c.source = source ∧ c.passedTypes = none) w := by
  refine Stays.reaches_bind (quiet_deviceProgram p) fun d w' _ => ?_
  split
  · exact refl (r := R) w'
  · rename_i n _
    exact ⟨push ⟨List.length_replicate, totalSlots_generic n⟩ rfl, _, Array.getElem?_push_size, rfl, rfl, rfl⟩

lemma reaches_programKernel (h : ProgramHandle) (name : String) (w : World) : Reaches R (programKernel h name)
      (fun k w' => ∃ c w1, w'.kernels[k]? = some c ∧ c.name = name ∧ c.passedTypes = none ∧ R w w1 ∧
        c.source = (w1.programs[h]?.getD default).source) w := by
  refine (quiet_deviceOf h).reaches_bind fun d w1 hw1 => ?_
  have hprogram : Reaches R (program h) (fun p w' => w' = w1 ∧ p = w1.programs[h]?.getD default) w1 :=
    ⟨refl w1, rfl, rfl⟩
  refine reaches_bind hprogram ?_
  rintro _ w2 - ⟨rfl, rfl⟩
  rw [Reaches, leads_bind, leads_attempt]
  refine Leads.mono (reaches_newKernel (R := R) d name _ w2) ?_ ?_
  · rintro k w3 ⟨hw3, c, hc, hname, hsrc, htys⟩
    exact ⟨hw3, c, w2, hc, hname, htys, hw1, hsrc⟩
  · intro e w3 hw3
    split <;> exact hw3

lemma quiet_programKernel (h : ProgramHandle) (name : String) : Stays R (programKernel h name) :=
  stays_of_reaches fun w => reaches_programKernel h name w

lemma quiet_queryGroupLimit (d : DeviceRef) : Stays R (queryGroupLimit name d) := by
  refine stays_get_bind fun w => ?_
  dsimp only
  split
  · exact refl w
  · exact of_eq rfl rfl rfl
  · exact ((quiet_deviceInfo d).map) w

lemma quiet_queryGroupFact (param : Int) (d : DeviceRef) : Stays R (queryGroupFact k param d) := by
  unfold queryGroupFact
  split
  · exact (quiet_kernel k).bind fun _ => (quiet_queryGroupLimit _ _).map
  · exact stays_pure _
  · exact stays_pure _
  · exact stays_pure _
  · exact (quiet_deviceInfo d).map
  · exact stays_fail _

lemma quiet_groupLimit : Stays R (groupLimit k d) := by
  refine Stays.map ?_
  refine (quiet_kernel k).bind fun c => ?_
  split
  · exact stays_pure _
  · refine (quiet_queryGroupFact _ _ _).bind fun _ => Stays.map (quiet_modifyKernel k fun c => ?_)
    exact ⟨rfl, rfl, fun _ => rfl, id⟩

/-! ## Types of arguments -/

lemma quiet_hasType (bit : Nat) : Stays R (hasType d bit) := (quiet_deviceInfo d).map

lemma quiet_splitsStructures (context : Option Context) : Stays R (splitsStructures d context) := by
  refine stays_get.bind fun w => ?_
  split
  · exact stays_pure _
  · have hrest : ∀ c : Context, ∀ source : String, Stays R (do
        let p ← newProgram c source
        build p [] none .standard
        let result := (← kernel (← programKernel p "test_knl")).numArgs == 2
        modify fun w => { w with structureTests := w.structureTests ++ [(d, result)] }
        return result : Host Bool) := fun c source =>
      (quiet_newProgram _ _).bind fun _ => (quiet_build _ _ _).bind fun _ => (quiet_programKernel _ _).bind fun _ =>
        (quiet_kernel _).bind fun _ => Stays.bind (stays_modify fun _ => of_eq rfl rfl rfl) fun _ =>
        stays_pure _
    cases context with
    | none => exact (quiet_newContext _ _).bind fun c => hrest c _
    | some c => exact (stays_pure _).bind fun c => hrest c _

lemma quiet_structureTrait (context : Option Context) : Stays R (structureTrait d context) := by
  refine (quiet_platformInfo _).bind fun p => (quiet_hasType _ _).bind fun _ => Stays.ite (stays_pure _) ?_
  refine Stays.ite ?_ (stays_pure _)
  split
  · exact (quiet_warn _ _).bind fun _ => (stays_fail _).map
  · refine Stays.ite (stays_pure _) (Stays.ite ?_ (stays_pure _))
    exact (quiet_splitsStructures _ _).bind fun _ => Stays.ite (stays_pure _) (stays_pure _)

variable {w : World} {k : KernelId}

lemma quiet_bindings {bindings : List Binding}
    (hbind : Binding.totalSlots bindings = (w.kernels[k]?.getD default).numArgs) :
    R w { w with kernels := w.kernels.modify k fun c => { c with bindings } } := by
  refine modify fun c hc => ⟨rfl, rfl, fun _ => rfl, fun hfit => ⟨hfit.1, ?_⟩⟩
  rw [hc] at hbind
  exact hbind

end Host

def World.noting (w : World) (k : KernelId) (types : List PassedType) : World :=
  { w with kernels := w.kernels.modify k fun c => { c with passedTypes := some types } }

namespace Host

variable {R : World → World → Prop} [QuietSteps R]

lemma leads_declareTypes (k : KernelId) (types : List PassedType) (w : World) :
    Leads (declareTypes k types) (fun _ w' => R (w.noting k types) w') (fun _ w' => R (w.noting k types) w') w := by
  unfold declareTypes
  rw [leads_bind]
  refine Stays.leads (Stays.bind (quiet_kernelContext k) fun context => ?_) (w.noting k types)
  refine Stays.bind (stays_mapM fun d _ => quiet_structureTrait _ _) fun traits => ?_
  extract_lets affected plain rest
  have hrest : ∀ x, Stays R (rest x) := by
    rintro ⟨workAround, warned⟩
    refine stays_of_leads fun w => ?_
    simp only [rest, kernel, leads_bind, leads_get, leads_pure]
    refine (leads_planBindings _ _ _ _ _).mono ?_ ?_
    · rintro bindings _ ⟨hchecked, warnings, rfl⟩
      have hbind := Int.ofNat.inj (Binding.checked_eq_ok.1 hchecked).2
      -- neither the warnings nor the note of them touch the kernels
      split
      · exact IsTrans.trans _ _ _ (quiet_bindings hbind) (of_eq rfl rfl rfl)
      · exact IsTrans.trans _ _ _ (quiet_bindings hbind) (of_eq rfl rfl rfl)
    · rintro _ _ ⟨-, warnings, rfl⟩
      exact of_eq rfl rfl rfl
  refine Stays.ite ((stays_pure _).bind hrest) (Stays.ite (Stays.ite ?_ ?_) ?_)
  · exact (stays_pure _).bind hrest
  · exact (stays_fail _).bind hrest
  · exact (stays_pure _).bind hrest

lemma reaches_declareTypes {k : KernelId} {c : Kernel} {w : World} (hc : w.kernels[k]? = some c)
    (htys : c.passedTypes = none) (types : List PassedType) :
    Reaches R (declareTypes k types) (fun _ w' => R (w.noting k types) w') w := by
  have hnoted : R w (w.noting k types) := by
    refine modify fun c' hc' => ⟨rfl, rfl, fun hsome => ?_, id⟩
    obtain rfl := Option.some.inj (hc.symm.trans hc')
    rw [htys] at hsome
    cases hsome
  exact (leads_declareTypes k types w).mono (fun _ _ h => ⟨IsTrans.trans _ _ _ hnoted h, h⟩)
    fun _ _ h => IsTrans.trans _ _ _ hnoted h

end Host

/-! ## What is built lasts -/

open World

def World.registry (w : World) : TypeRegistry := w.registries[0]?.getD {}

structure World.Lasts (w w' : World) : Prop where
  kernels : ∀ (k : KernelId) (c : Kernel), w.kernels[k]? = some c → c.passedTypes.isSome →
    ∃ c', w'.kernels[k]? = some c' ∧ c'.name = c.name ∧ c'.source = c.source ∧ c'.passedTypes = c.passedTypes
  sources : ∀ (h : ProgramHandle) (p : Program), w.programs[h]? = some p →
    ∃ p', w'.programs[h]? = some p' ∧ p'.source = p.source
  fitted : w.Fitted → w'.Fitted
  tables : w'.tables = w.tables

structure World.Made (w w' : World) : Prop extends Quiet w w', Lasts w w' where
  platforms : w'.platforms = w.platforms

section Lasts

variable {w w' w'' : World}

lemma World.Lasts.trans (h : w.Lasts w') (h' : w'.Lasts w'') : w.Lasts w'' := by
  refine ⟨fun k c hc htys => ?_, fun p d hd => ?_, fun hw => h'.fitted (h.fitted hw), h'.tables.trans h.tables⟩
  · obtain ⟨c1, hc1, hname1, hsrc1, htys1⟩ := h.kernels k c hc htys
    obtain ⟨c2, hc2, hname2, hsrc2, htys2⟩ := h'.kernels k c1 hc1 (htys1 ▸ htys)
    exact ⟨c2, hc2, hname2.trans hname1, hsrc2.trans hsrc1, htys2.trans htys1⟩
  · obtain ⟨d1, hd1, hsrc1⟩ := h.sources p d hd
    obtain ⟨d2, hd2, hsrc2⟩ := h'.sources p d1 hd1
    exact ⟨d2, hd2, hsrc2.trans hsrc1⟩

instance : Std.Refl Lasts := ⟨fun _ => ⟨fun _ c hc _ => ⟨c, hc, rfl, rfl, rfl⟩, fun _ p hp => ⟨p, hp, rfl⟩, id, rfl⟩⟩

instance : IsTrans World Lasts := ⟨fun _ _ _ => Lasts.trans⟩

instance : QuietSteps Lasts where
  aside {w w'} h := by
    obtain ⟨-, hkept, hsrcs⟩ := h
    simp only [kept, Prod.mk.injEq] at hkept
    obtain ⟨-, -, -, hkers, htab, -⟩ := hkept
    exact ⟨fun k c hc _ => ⟨c, hkers ▸ hc, rfl, rfl, rfl⟩, hsrcs, fun hw k c hc => hw k c (hkers ▸ hc), htab⟩
  push hfit _ :=
    ⟨fun _ d hd _ => ⟨d, getElem?_push_of_some hd _, rfl, rfl, rfl⟩, fun _ p hp => ⟨p, hp, rfl⟩,
      fun hw => fitted_push hw hfit, rfl⟩
  modify {w k f} hf := by
    refine ⟨fun k' c hc htys => ?_, fun _ p hp => ⟨p, hp, rfl⟩,
      fun hw => fitted_modify hw fun c hc => (hf c hc).fitted, rfl⟩
    change ∃ c', (w.kernels.modify k f)[k']? = some c' ∧ _
    rw [Array.getElem?_modify]
    split
    · rename_i heq
      subst heq
      have hrev := hf c hc
      exact ⟨f c, by rw [hc, Option.map_some], hrev.name, hrev.source, hrev.types htys⟩
    · exact ⟨c, hc, rfl, rfl, rfl⟩

lemma World.Made.of (hqu : w.Quiet w') (hlasts : w.Lasts w') (hplat : w'.platforms = w.platforms) : w.Made w' :=
  { toQuiet := hqu, sources := hlasts.sources, kernels := hlasts.kernels, tables := hlasts.tables
    platforms := hplat }

lemma World.Made.trans (h : w.Made w') (h' : w'.Made w'') : w.Made w'' :=
  .of (h.toQuiet.trans h'.toQuiet) (h.toLasts.trans h'.toLasts) (h'.platforms.trans h.platforms)

instance : QuietSteps Made where
  refl w := .of (refl w) (refl w) rfl
  trans _ _ _ := Made.trans
  aside h := .of (aside h) (aside h) (congrArg (fun k => k.2.2.2.2.2.1) h.kept)
  push hfit htys := .of (push hfit htys) (push hfit htys) rfl
  modify hf := .of (modify hf) (modify hf) rfl

lemma World.Lasts.registry (h : w.Lasts w') : w'.registry = w.registry := by
  rw [World.registry, World.registry, show w'.registries = w.registries from congrArg Prod.fst h.tables]

end Lasts

/-! ## Kernels that are generated -/

def World.Holds (w : World) (p : ProgramHandle) (source : String) : Prop :=
  ∃ h, w.programs[p]? = some h ∧ h.source = some source

def World.Fresh (w : World) (k : KernelId) (name source : String) : Prop :=
  ∃ c, w.kernels[k]? = some c ∧ c.name = name ∧ c.source = some source ∧ c.passedTypes = none

def World.Generated (w : World) (k : KernelId) (s : KernelSource) : Prop :=
  ∃ c, w.kernels[k]? = some c ∧ c.name = s.name ∧ c.source = some s.text ∧ c.passedTypes = some s.passed

section Generated

variable {w w' : World}

lemma World.Holds.lasts {p : ProgramHandle} {source : String} (hp : w.Holds p source) (h : w.Lasts w') :
    w'.Holds p source := by
  obtain ⟨d, hd, hsrc⟩ := hp
  obtain ⟨d', hd', hsrc'⟩ := h.sources p d hd
  exact ⟨d', hd', hsrc'.trans hsrc⟩

lemma World.Generated.lasts {k : KernelId} {s : KernelSource} (hk : w.Generated k s) (h : w.Lasts w') :
    w'.Generated k s := by
  obtain ⟨c, hc, hname, hsrc, htys⟩ := hk
  obtain ⟨c', hc', hname', hsrc', htys'⟩ := h.kernels k c hc (by rw [htys]; rfl)
  exact ⟨c', hc', hname'.trans hname, hsrc'.trans hsrc, htys'.trans htys⟩

end Generated

namespace Host

variable {w : World}

lemma mem_of_find? {α β : Type} [BEq α] [LawfulBEq α] {l : List (α × β)} {key : α} {e : α × β}
    (h : l.find? (fun e => e.1 == key) = some e) : (key, e.2) ∈ l := by
  obtain rfl : e.1 = key := by simpa using List.find?_some h
  exact List.mem_of_find?_eq_some h

lemma reaches_registry_bind {R : World → World → Prop} {α : Type} {f : TypeRegistry → Host α} {Q : α → World → Prop}
    (h : Reaches R (f w.registry) Q w) : Reaches R (registry >>= f) Q w := h

lemma reaches_newProgram (context : Context) (source : String) :
    Reaches Made (newProgram context source) (fun p w' => w'.Holds p source) w :=
  (quiet_newProgram context source).reaches_and ⟨_, Array.getElem?_push_size, rfl⟩

lemma reaches_programKernel_of_holds {p : ProgramHandle} {source : String} (hp : w.Holds p source) (name : String) :
    Reaches Made (programKernel p name) (fun k w' => w'.Fresh k name source) w := by
  refine (reaches_programKernel p name w).mono ?_
  rintro k w' - ⟨c, w1, hc, hname, htys, hw1, hsrc⟩
  obtain ⟨d, hd, hd'⟩ := hp.lasts hw1.toLasts
  refine ⟨c, hc, hname, ?_, htys⟩
  rw [hsrc, hd, Option.getD_some, hd']

lemma reaches_declareTypes_of_fresh {k : KernelId} {name source : String} (hk : w.Fresh k name source)
    (types : List PassedType) :
    Reaches Made (declareTypes k types) (fun _ w' => w'.Generated k ⟨source, name, types⟩) w := by
  obtain ⟨c, hc, hname, hsrc, htys⟩ := hk
  refine (reaches_declareTypes hc htys types).mono fun _ w' _ hw' => ?_
  refine Generated.lasts ⟨{ c with passedTypes := some types }, ?_, hname, hsrc, rfl⟩ hw'.toLasts
  rw [noting, Array.getElem?_modify, if_pos rfl, hc, Option.map_some]

end Host

/-! ## Include directories in build options -/

namespace Options

open List

/-- Neither a blank, a quote nor a backslash. -/
def isPlain (c : Char) : Bool := !(isSeparator c || c == '\'' || c == '"' || c == '\\')

def IsWord (s : String) : Prop := s ≠ "" ∧ ∀ c ∈ s.toList, isPlain c = true

lemma splitFrom_plain {state : QuoteState} (hstate : state = .between ∨ state = .word) {c : Char}
    (hc : isPlain c = true) (w cs : List Char) :
    splitFrom state w (c :: cs) = splitFrom .word (c :: if state == .word then w else []) cs := by
  obtain ⟨hsep, hsingle, hdbl, hback⟩ : isSeparator c = false ∧ c ≠ '\'' ∧ c ≠ '"' ∧ c ≠ '\\' := by
    simpa [isPlain, and_assoc] using hc
  rcases hstate with rfl | rfl
  all_goals
    rw [splitFrom]
    · simp [hsep, hsingle, hdbl, hback]
    all_goals simp_all

lemma splitFrom_word {cs : List Char} (hcs : ∀ c ∈ cs, isPlain c = true) (w rest : List Char) :
    splitFrom .word w (cs ++ rest) = splitFrom .word (cs.reverse ++ w) rest := by
  induction cs generalizing w with
  | nil => rfl
  | cons c cs ih =>
    obtain ⟨hc, hcs⟩ := forall_mem_cons.1 hcs
    rw [cons_append, splitFrom_plain (.inr rfl) hc, reverse_cons, append_assoc]
    exact ih hcs _

lemma split_join {options : List String} (h : ∀ s ∈ options, IsWord s) : split (join options) = .ok options := by
  induction options with
  | nil => rfl
  | cons s options ih =>
    obtain ⟨⟨hne, hs⟩, h⟩ := forall_mem_cons.1 h
    have hword (rest : List Char) :
        splitFrom .between [] (s.toList ++ rest) = splitFrom .word s.toList.reverse rest := by
      rcases hcs : s.toList with _ | ⟨c, cs⟩
      · exact absurd (String.toList_eq_nil_iff.1 hcs) hne
      · rw [hcs] at hs
        obtain ⟨hc, hs⟩ := forall_mem_cons.1 hs
        rw [cons_append, splitFrom_plain (.inl rfl) hc, splitFrom_word hs, reverse_cons]
        rfl
    cases options with
    | nil =>
      have hlast := hword []
      rw [append_nil] at hlast
      rw [join, String.intercalate_singleton, split, hlast, splitFrom, reverse_reverse, String.ofList_toList]
    | cons t options =>
      have hrest : splitFrom .between [] (join (t :: options)).toList = _ := ih h
      rw [join, split, String.intercalate_cons_cons, String.toList_append, String.toList_append, append_assoc, hword]
      change (do return String.ofList s.toList.reverse.reverse ::
        (← splitFrom .between [] (join (t :: options)).toList)) = _
      rw [hrest, reverse_reverse, String.ofList_toList]
      rfl

end Options

namespace Host

open Options

/-- The compiler is given the directories that are searched for changed files if the options are plain words. -/
theorem buildOptions_directories (context : Context) (options : List String) (w : World) :
    Leads (buildOptions context options)
      (fun all _ => options <+: all ∧ ((∀ s ∈ all, IsWord s) →
        (split (join all)).map includeDirectories = .ok (includePath all).tail))
      (fun _ _ => context.devices = []) w := by
  rw [buildOptions, standingOptions]
  cases hdevs : context.devices with
  | nil => rfl
  | cons d devices =>
    refine ⟨List.prefix_append _ _, fun hwds => ?_⟩
    rw [split_join hwds]
    rfl

end Host

end ClHost
