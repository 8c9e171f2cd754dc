import ClHost.Proofs.CType.Pointers
import ClHost.Proofs.Elementwise.Building

/-!
# Kernels that are remembered

Operations, reductions and scans are built when they are first asked for, and found again later.
-/

namespace ClHost

open KernelArgument List World String Reduction Text KernelArgument Except

/-! ## Texts without marks -/

namespace Template

def IsPlain (s : String) : Prop := '%' ∉ s.toList ∧ '/' ∉ s.toList ∧ '\n' ∉ s.toList

instance (s : String) : Decidable (IsPlain s) := inferInstanceAs (Decidable (_ ∧ _ ∧ _))

variable {b : Bindings} {fuel : Nat} {cs : List Char}

lemma renderPieces_plain {d : Datum} (hfuel : cs.length ≤ fuel) (h : '%' ∉ cs) :
    renderPieces (some b) d fuel false cs = .ok (cs.map singleton) := by
  induction cs generalizing fuel with
  | nil => cases fuel <;> rfl
  | cons c cs ih =>
    obtain ⟨hc, hcs⟩ := ne_and_not_mem_of_not_mem_cons h
    cases fuel with
    | zero => simp at hfuel
    | succ fuel =>
      have hnext : renderPieces (some b) d (fuel + 1) false (c :: cs) =
          (do return singleton c :: (← renderPieces (some b) d fuel false cs)) := by
        rw [renderPieces]
        exact fun h => hc h.symm
      rw [hnext, ih (Nat.le_of_succ_le_succ hfuel) hcs]
      rfl

variable {s : String}

lemma renderNamed_plain (h : '%' ∉ s.toList) : renderNamed b s = .ok s := by
  have hjoin : ∀ (cs : List Char) (t : String), (cs.map singleton).foldl (· ++ ·) t = t ++ ofList cs := by
    intro cs
    induction cs with
    | nil => intro t; simp
    | cons c cs ih =>
      intro t
      rw [map_cons, foldl_cons, ih, String.append_assoc, String.singleton_eq_ofList, ← String.ofList_append]
      rfl
  rw [renderNamed, renderPieces_plain (Nat.le_succ_of_le (Nat.le_of_eq length_toList)) h]
  refine congrArg ok ((hjoin s.toList "").trans ?_)
  rw [empty_append, ofList_toList]

lemma dropComments_plain (h : '/' ∉ cs) : dropComments fuel cs = cs := by
  induction fuel generalizing cs with
  | zero => rw [dropComments]
  | succ fuel ih =>
    cases cs with
    | nil => rw [dropComments]; simp
    | cons =>
      obtain ⟨hc, hcs⟩ := ne_and_not_mem_of_not_mem_cons h
      rw [dropComments, ih hcs]
      rintro _ rfl
      exact absurd rfl hc

lemma replaceAll_plain (h : '\n' ∉ s.toList) : replaceAll s "\n" " " = s := by
  have hch : ∀ cs : List Char, '\n' ∉ cs → replaceChars ['\n'] [' '] 0 cs = cs := by
    intro cs hcs
    induction cs with
    | nil => rfl
    | cons c cs ih =>
      obtain ⟨hc, hcs⟩ := ne_and_not_mem_of_not_mem_cons hcs
      rw [replaceChars, if_neg (by simpa [startsWithChars] using hc), ih hcs]
  exact (congrArg ofList (hch s.toList h)).trans ofList_toList

lemma readMark_plain (h : '/' ∉ s.toList) : readMark s = .absent := by
  unfold readMark
  split
  · rename_i heq
    exact absurd (heq ▸ mem_cons_self) h
  · rename_i heq
    exact absurd (heq ▸ mem_cons_self) h
  · rfl

lemma Renderer.entries_plain {r : Renderer} (hr : r.processor = some "printf") (h : IsPlain s) :
    r.entries (.text s) = .ok ((splitAt ',' s).map .declared) := by
  obtain ⟨hformat, hmark, hline⟩ := h
  have hrender : r.render s = .ok s := by
    have hchoose : choose (some "printf") s = .ok (.printf, s) := by
      unfold choose
      rw [readMark_plain hmark]
      rfl
    rw [Renderer.render, Template.render, hr, hchoose]
    exact renderNamed_plain hformat
  rw [Renderer.entries, hrender]
  change ok _ = _
  rw [dropComments_plain hmark, ofList_toList, replaceAll_plain hline]

end Template

/-! ## Arguments of scans -/

namespace Selection

open Template Declarator

def arity : Selection → Nat
  | parting => 4
  | satisfying | distinct => 3

def Takes (what : Selection) (extra args : List KernelArgument) : Prop :=
  ∃ own, Vectors false what.arity own ∧ args = own ++ extra

end Selection

namespace Template

open Declarator

def Pointer (s : String) : Prop := ',' ∉ s.toList ∧ ∃ name, IsName name ∧ Declares name (strip s)

def Pointers (n : Nat) (s : String) : Prop := (splitAt ',' s).length = n ∧ ∀ t ∈ splitAt ',' s, Pointer t

variable {s : String}

lemma pointers_of_split (declared : List (String × String))
    (hs : (splitAt ',' s).map (fun t => (strip t).toList) = declared.map fun d => d.1.toList ++ ' ' :: '*' :: d.2.toList)
    (hnms : ∀ d ∈ declared, ',' ∉ d.1.toList ∧ IsName d.2.toList) : Pointers declared.length s := by
  refine ⟨by simpa using congrArg List.length hs, fun t ht => ⟨notMem_of_mem_splitAt ht, ?_⟩⟩
  have hmem := mem_map_of_mem (f := fun t => (strip t).toList) ht
  rw [hs] at hmem
  obtain ⟨d, hd, heq⟩ := mem_map.1 hmem
  exact ⟨d.2.toList, (hnms d hd).2, d.1.toList, heq.symm, (hnms d hd).1⟩

namespace Renderer

variable {r : Renderer} {registry : TypeRegistry} {withOffset : Bool} {last : Option KernelArgument}

lemma readEntries_pointers {texts : List String} {rest : List ArgumentEntry} {args : List KernelArgument}
    (htxs : ∀ s ∈ texts, Pointer s)
    (h : r.readEntries registry withOffset last (texts.map .declared ++ rest) = .ok args) :
    ∃ own more last', Vectors withOffset texts.length own ∧ args = own ++ more ∧
      r.readEntries registry withOffset last' rest = .ok more := by
  induction texts generalizing last args with
  | nil => exact ⟨[], args, last, ⟨rfl, by simp⟩, rfl, h⟩
  | cons s texts ih =>
    obtain ⟨⟨-, name, hname, hs⟩, htxs⟩ := forall_mem_cons.1 htxs
    have hemp : (strip s).isEmpty = false := by
      obtain ⟨before, hs, -⟩ := hs
      rw [Bool.eq_false_iff, Ne, String.isEmpty_iff, ← String.toList_eq_nil_iff, hs]
      simp
    rw [map_cons, cons_append, readEntries] at h
    simp only [hemp, Bool.false_eq_true, if_false] at h
    obtain ⟨a, ha, h⟩ := of_bind_ok h
    obtain ⟨tail, htail, h⟩ := of_bind_ok h
    cases h
    obtain ⟨own, more, last', hown, rfl, hmore⟩ := ih htxs htail
    have hvecs : Vectors withOffset (texts.length + 1) (a :: own) :=
      ⟨congrArg (· + 1) hown.1, forall_mem_cons.2 ⟨readWith_pointer hname hs ha, hown.2⟩⟩
    exact ⟨a :: own, more, last', hvecs, rfl, hmore⟩

lemma readEntries_arguments (args : List KernelArgument) :
    r.readEntries registry withOffset last (args.map .argument) = .ok args := by
  induction args generalizing last with
  | nil => rfl
  | cons a args ih =>
    rw [map_cons, readEntries, ih]
    rfl

end Renderer

end Template

namespace Selection

open Template Declarator

lemma pointers_template (what : Selection) :
    ∃ s, what.template.arguments = .text s ∧ IsPlain s ∧ Pointers what.arity s := by
  cases what with
  | satisfying =>
    refine ⟨_, rfl, by decide, pointers_of_split [("item_t", "ary"), ("item_t", "out"), ("scan_t", "count")] ?_ ?_⟩
    all_goals decide
  | parting =>
    refine ⟨_, rfl, by decide, pointers_of_split [("item_t", "ary"), ("item_t", "out_true"), ("item_t", "out_false"),
      ("scan_t", "count_true")] ?_ ?_⟩
    all_goals decide
  | distinct =>
    refine ⟨_, rfl, by decide, pointers_of_split [("item_t", "ary"), ("item_t", "out"), ("scan_t", "count_unique")] ?_ ?_⟩
    all_goals decide

lemma takes_arguments {what : Selection} {r : Renderer} (hr : r.processor = some "printf")
    {registry : TypeRegistry} {extra args : List KernelArgument}
    (h : r.arguments registry false [what.template.arguments, .entries (extra.map .argument)] = .ok args) :
    what.Takes extra args := by
  obtain ⟨s, hs, hpl, hptr⟩ := what.pointers_template
  obtain ⟨all, hall, h⟩ := of_bind_ok h
  rw [hs, mapM_cons, Renderer.entries_plain hr hpl] at hall
  obtain ⟨first, hfst, hall⟩ := of_bind_ok hall
  obtain ⟨rest, hrest, hall⟩ := of_bind_ok hall
  cases hfst
  cases hrest
  cases hall
  simp only [flatten_cons, reverse_cons, reverse_nil, nil_append, flatten_nil, append_nil] at h
  obtain ⟨own, more, last, hown, rfl, hmore⟩ := Renderer.readEntries_pointers hptr.2 h
  rw [Renderer.readEntries_arguments] at hmore
  cases hmore
  exact ⟨own, hptr.1 ▸ hown, rfl⟩

end Selection

/-! ## Arguments of kernels that are built -/

def ElementwiseCode.Reads (c : ElementwiseCode) (overRange : Bool) (params : List KernelArgument) : Prop :=
  ∃ r declared, c.arguments.read r true = .ok declared ∧ params = declared ++ ElementwiseCode.indexParameters overRange

variable (c : ReductionCode) (r : TypeRegistry) (phase : ReductionPhase)

/-- The arguments that a kernel of a reduction declares where types have these names. -/
def ReductionCode.Declares (args : List KernelArgument) : Prop :=
  ∃ source, c.arguments = some source ∧
    match phase with
    | .mapping => source.read r true = .ok args
    | .folding => ∃ rest, source.read r false = .ok rest ∧ args = .vector c.type inputName false :: rest

/-- A kernel was built for a phase of a reduction: it has the arguments that are declared, and was made from the source
for them. -/
def ReductionCode.Built (w : World) (s : ReductionStage) : Prop :=
  c.Declares r phase s.arguments ∧ ∃ (parameters : List (List Parameter)) (types : List PassedType)
    (parts : SourceParts),
    s.arguments.mapM (KernelArgument.parameters r) = .ok parameters ∧ parts.parameters = parameters.flatten ∧
    KernelArgument.passedTypes s.arguments = .ok types ∧
    w.Generated s.kernel ⟨parts.text, parts.name, passedOf leadingParameters ++ types ++
      passedOf rangeParameters ++ passedOf countParameters⟩

variable {r : TypeRegistry}

variable {w w' : World}

lemma ReductionCode.Built.lasts {c : ReductionCode} {phase : ReductionPhase} {s : ReductionStage}
    (h : c.Built r phase w s) (hw : w.Lasts w') : c.Built r phase w' s := by
  obtain ⟨hargs, parameters, types, parts, hpars, hpts, htys, hgen⟩ := h
  exact ⟨hargs, parameters, types, parts, hpars, hpts, htys, hgen.lasts hw⟩

def World.groupSize (w : World) (typeSize : Nat) (d : DeviceRef) : Nat :=
  deviceGroupSize (if Text.contains (w.device d).name "RV770" then 64 else (w.device d).maxWorkGroupSize) typeSize

def ReductionCode.groupSize (c : ReductionCode) (w : World) (context : Context) (limit : Option Nat) : Nat :=
  let least := (context.devices.map (w.groupSize c.type.size)).min?.getD 0
  match limit with
  | some l => min l least
  | none => least

lemma ReductionCode.groupSize_congr (c : ReductionCode) (h : w'.platforms = w.platforms) :
    c.groupSize w' = c.groupSize w := by
  unfold groupSize World.groupSize World.device
  rw [h]

def ReductionStage.Sized (s : ReductionStage) (size : Nat) : Prop := s.groupSize = size ∧ (halvings size).isSome

def ReductionStage.Allowed (s : ReductionStage) (context : Context) (w : World) : Prop :=
  ∃ d limit w1 w2, context.devices.head? = some d ∧ w.Made w1 ∧
    (Host.groupLimit s.kernel d).run.run w1 = (.ok limit, w2) ∧ s.groupSize ≤ limit

structure Scan.Setup.Prepared (s : Setup) (r : TypeRegistry) (c : ScanCode) : Prop where
  code : s.code = c
  arguments : c.arguments.read r false = .ok s.arguments
  firstArray : s.arguments.findIdx? isVector = some s.firstArray
  typeName : r.typeName c.type = .ok s.typeName
  indexName : r.typeName c.indexType = .ok s.indexName
  declarators : s.arguments.mapM (declarator r) = .ok s.declarators
  isSegmented : s.segmentMacro.isSome = c.segmentStart.isSome
  scanMacro : Source.macroBody c.scan = .ok s.scanMacro

namespace Host

variable {w : World}

lemma reaches_groupSizes (typeSize : Nat) (devices : List DeviceRef) :
    Reaches Made (devices.mapM (reductionGroupSize typeSize))
      (fun sizes w' => sizes = devices.map (w.groupSize typeSize) ∧ w' = w) w := by
  induction devices with
  | nil => exact reaches_pure ⟨rfl, rfl⟩
  | cons d devices ih =>
    have hsize : Reaches Made (reductionGroupSize typeSize d) (fun n w' => n = w.groupSize typeSize d ∧ w' = w) w := by
      refine reaches_bind (P := fun i w' => i = w.device d ∧ w' = w) ⟨refl w, rfl, rfl⟩ ?_
      rintro _ _ - ⟨rfl, rfl⟩
      exact reaches_ite (reaches_fail_bind _ _) (reaches_pure ⟨rfl, rfl⟩)
    rw [mapM_cons]
    refine reaches_bind hsize ?_
    rintro _ _ - ⟨rfl, rfl⟩
    refine reaches_bind ih ?_
    rintro _ _ - ⟨rfl, rfl⟩
    exact reaches_pure ⟨rfl, rfl⟩

lemma reaches_reductionArguments (phase : ReductionPhase) (c : ReductionCode) :
    Reaches Made (reductionArguments phase c)
      (fun args? _ => ∀ args, args? = some args → c.Declares w.registry phase args) w := by
  unfold reductionArguments
  cases hsrc : c.arguments with
  | none => exact reaches_pure nofun
  | some source =>
    cases phase
    all_goals
      refine reaches_registry_bind (reaches_lift_bind fun args hargs => ?_)
      refine reaches_pure ?_
      rintro _ ⟨⟩
    · exact ⟨source, hsrc, hargs⟩
    · exact ⟨source, hsrc, args, hargs, rfl⟩

variable (context : Context) (c : ScanCode)

/-- **A kernel of a reduction is built at the size that suits the devices and the limit.** -/
lemma reaches_buildReductionStage (phase : ReductionPhase) (c : ReductionCode)
    (map : Option String) (limit : Option Nat) (w : World) :
    Reaches Made (buildReductionStage context phase c map limit)
      (fun s w' => c.Built w.registry phase w' s ∧ s.Sized (c.groupSize w context limit)) w := by
  refine reaches_bind (reaches_reductionArguments phase c) fun args? w1 hw1 hargs => ?_
  extract_lets name finish
  have hfin : ∀ offsets w2, w.Made w2 → Reaches Made (finish offsets)
      (fun s w' => c.Built w.registry phase w' s ∧ s.Sized (c.groupSize w context limit)) w2 := by
    intro offsets w2 hw2
    refine (quiet_typeName _).reaches_bind fun typeName w3 hw3 => reaches_bind (reaches_groupSizes _ _) ?_
    rintro _ w3 - ⟨rfl, rfl⟩
    replace hw3 := hw2.trans hw3
    rw [← c.groupSize_congr hw3.platforms]
    extract_lets sized
    split
    · exact reaches_fail_bind _ _
    · rename_i s rest hleast
      refine reaches_bind (reaches_pure (Q := fun x w' => x = rest.foldl min s ∧ w' = w3) ⟨rfl, rfl⟩) ?_
      rintro _ w3 - ⟨rfl, rfl⟩
      unfold sized
      extract_lets size make
      have hsize : size = c.groupSize w3 context limit := by
        unfold ReductionCode.groupSize
        rw [hleast]
        rfl
      cases args? with
      | none => exact reaches_fail_bind _ _
      | some args =>
        refine reaches_bind (reaches_pure (Q := fun x w' => x = args ∧ w' = w3) ⟨rfl, rfl⟩) ?_
        rintro given _ - ⟨rfl, rfl⟩
        refine reaches_registry_bind ?_
        rw [hw3.registry]
        refine reaches_lift_bind fun parameters hpars => ?_
        refine (stays_lift _).reaches_bind fun reduceMacro w6 _ => (stays_lift _).reaches_bind fun mapMacro w7 _ => ?_
        refine (stays_mapM fun d _ => quiet_hasDouble d).reaches_bind fun doubles w8 _ => ?_
        split
        · rename_i rounds hrds
          refine (stays_pure _).reaches_bind fun rounds w9 _ => ?_
          refine reaches_bind (reaches_newProgram _ _) fun p w10 _ hp => ?_
          refine (quiet_build _ _ _).reaches_bind fun _ w11 hw11 => ?_
          refine reaches_bind (reaches_programKernel_of_holds (hp.lasts hw11.toLasts) _) fun k w12 _ hk => ?_
          refine reaches_lift_bind fun types htys => ?_
          refine reaches_bind (reaches_declareTypes_of_fresh hk _) fun _ w13 _ hgen => ?_
          exact reaches_pure ⟨⟨hargs given rfl, parameters, types, _, hpars, rfl, htys, hgen⟩, hsize,
            by rw [← hsize, hrds]; rfl⟩
        · exact reaches_fail_bind _ _
  split
  · refine quiet_registry.reaches_bind fun _ w2 hw2 => (stays_lift _).reaches_bind fun offsets w3 hw3 => ?_
    exact hfin offsets w3 (hw1.trans (hw2.trans hw3))
  · exact (stays_pure _).reaches_bind fun offsets w2 hw2 => hfin offsets w2 (hw1.trans hw2)

lemma reaches_buildFirstStage (c : ReductionCode) (tries : Nat) (limit : Option Nat) (w : World) :
    Reaches Made (buildFirstStage context c tries limit) (fun x w' => c.Built w.registry .mapping w' x.1 ∧
      x.1.Sized (c.groupSize w context x.2) ∧ x.1.Allowed context w) w := by
  induction tries generalizing limit w with
  | zero | succ tries ih =>
    refine reaches_bind (reaches_buildReductionStage context .mapping c c.map limit w) ?_
    rintro stage w1 hw1 ⟨hblt, hsized⟩
    extract_lets check
    split
    · rename_i d rest hdevs
      refine reaches_bind ((quiet_groupLimit _ _).reaches_and ((leads_run _ _).mono (fun _ _ h => h) fun _ _ _ => trivial)) fun allowed w2 hw2 hallowed => ?_
      unfold check
      split
      · rename_i hfits
        exact reaches_pure ⟨hblt.lasts hw2.toLasts, hsized, d, allowed, w1, w2, by rw [hdevs]; rfl, hw1, hallowed, hfits⟩
      · first
        | exact refl (r := Made) w2
        | replace hw2 := hw1.trans hw2
          rw [← hw2.registry, ← c.groupSize_congr hw2.platforms]
          refine (ih (some allowed) w2).mono fun x w' _ hx => ⟨hx.1, hx.2.1, ?_⟩
          obtain ⟨d, limit, w3, w4, hd, hw3, hlim⟩ := hx.2.2
          exact ⟨d, limit, w3, w4, hd, hw2.trans hw3, hlim⟩
    · exact reaches_fail_bind _ _

lemma leads_buildReduction_built (c : ReductionCode) : Leads (buildReduction context c)
      (fun i w' => ∃ first second w1 limit, w.Made w1 ∧
        (c.Built w.registry .mapping w1 first ∧ c.Built w.registry .folding w1 second) ∧
        (first.Sized (c.groupSize w context limit) ∧ second.Sized (c.groupSize w context limit) ∧ first.Allowed context w) ∧
        i = w1.reductions.size ∧ w' = { w1 with reductions := w1.reductions.push { type := c.type, first, second } })
      (fun _ w' => w.Made w') w := by
  refine Leads.bind (reaches_buildFirstStage context c sizeAttempts none w) ?_
  rintro ⟨first, limit⟩ w1 ⟨hw1, hfst, hsized, hallowed⟩
  refine Leads.bind (reaches_buildReductionStage context .folding c none limit w1) ?_ fun _ _ h => hw1.trans h
  rintro second w2 ⟨hw2, hsnd, hsecondSized⟩
  rw [hw1.registry] at hsnd
  rw [c.groupSize_congr hw1.platforms] at hsecondSized
  exact ⟨first, second, w2, limit, hw1.trans hw2, ⟨hfst.lasts hw2.toLasts, hsnd⟩,
    ⟨hsized, hsecondSized, hallowed⟩, rfl, rfl⟩

lemma reaches_typeName (t : ElementType) :
    Reaches Made (typeName t) (fun c w' => w.registry.typeName t = .ok c ∧ w' = w) w := by
  exact reaches_registry_bind (reaches_lift _)

lemma reaches_optionMapM {α β : Type} (f : α → Result β) (o : Option α) :
    Reaches Made (o.mapM fun x => lift (f x)) (fun o' _ => o'.isSome = o.isSome) w := by
  cases o with
  | none => exact reaches_pure rfl
  | some x => exact (stays_lift (f x)).reaches_bind fun _ _ _ => reaches_pure rfl

lemma reaches_prepareScan : Reaches Made (prepareScan context c) (fun s _ => s.Prepared w.registry c) w := by
  unfold prepareScan
  extract_lets devices read bounded sized
  clear_value devices
  have hread : ∀ x w', w.Made w' → Reaches Made (read x) (fun s _ => s.Prepared w.registry c) w' := by
    intro x w1 hw1
    refine reaches_registry_bind ?_
    rw [hw1.registry]
    refine reaches_lift_bind fun arguments hargs => ?_
    extract_lets found
    have hfnd : ∀ i, arguments.findIdx? isVector = some i → ∀ w', w.Made w' →
        Reaches Made (found i) (fun s _ => s.Prepared w.registry c) w' := by
      intro i hi w2 hw2
      refine reaches_bind (reaches_optionMapM _ _) fun segmentMacro w3 hw3 hseg => ?_
      replace hw3 := hw2.trans hw3
      extract_lets fetched
      have hfetched : ∀ x, Reaches Made (fetched x) (fun s _ => s.Prepared w.registry c) w3 := by
        intro x
        refine Stays.reaches_bind (stays_mapM fun a _ => ?_) fun types w4 hw4 => reaches_lift_bind fun scanMacro hscan => ?_
        · split
          · exact (quiet_typeName _).map
          · exact stays_fail _
        replace hw4 := hw3.trans hw4
        extract_lets neutral
        have hneutral : ∀ m w', w.Made w' → Reaches Made (neutral m) (fun s _ => s.Prepared w.registry c) w' := by
          intro m w6 hw6
          unfold neutral
          extract_lets make
          have hmake : ∀ b w', w.Made w' → Reaches Made (make b) (fun s _ => s.Prepared w.registry c) w' := by
            intro b w7 hw7
            refine (stays_mapM fun d _ => quiet_hasDouble d).reaches_bind fun doubles w8 hw8 => ?_
            replace hw8 := hw7.trans hw8
            refine reaches_bind (reaches_typeName _) ?_
            rintro indexName w8 - ⟨hidx, rfl⟩
            refine reaches_bind (reaches_typeName _) ?_
            rintro typeName w8 - ⟨htype, rfl⟩
            refine reaches_registry_bind ?_
            rw [hw8.registry] at hidx htype ⊢
            refine reaches_lift_bind fun declarators hdecls => ?_
            exact reaches_pure ⟨rfl, hargs, hi, htype, hidx, hdecls, hseg, hscan⟩
          split
          · exact (quiet_hasType _ _).reaches_bind fun b w7 hw7 => hmake b w7 (hw6.trans hw7)
          · exact reaches_fail_bind _ _
        split
        · exact (stays_lift _).reaches_bind fun m w6 hw6 => hneutral m w6 (hw4.trans hw6)
        · exact reaches_fail_bind _ _
      exact reaches_ite (reaches_fail_bind _ _) (hfetched ())
    split
    · rename_i i hi
      exact hfnd i hi w1 hw1
    · exact reaches_fail_bind _ _
  have hbounded : ∀ x w', w.Made w' → Reaches Made (bounded x) (fun s _ => s.Prepared w.registry c) w' := by
    intro x w1 hw1
    refine (stays_lift _).reaches_bind fun bounds w2 hw2 => ?_
    exact reaches_ite (reaches_fail_bind _ _) (hread () w2 (hw1.trans hw2))
  have hsized : ∀ x w', w.Made w' → Reaches Made (sized x) (fun s _ => s.Prepared w.registry c) w' :=
    fun x w1 hw1 => reaches_ite (reaches_fail_bind _ _) (hbounded () w1 hw1)
  exact reaches_ite ((quiet_warn _ _).reaches_bind hsized) (hsized () w (refl w))

lemma leads_buildScan : Leads (buildScan context c)
      (fun i w' => ∃ k, w'.scans[i]? = some k ∧ k.code = c ∧ ∃ r, c.arguments.read r false = .ok k.arguments)
      Any w := by
  refine Leads.bind (reaches_prepareScan context c) ?_
  rintro s _ ⟨-, hs⟩
  refine leads_any_bind fun sources _ => leads_any_bind fun kernels _ => ?_
  exact ⟨_, Array.getElem?_push_size, hs.code, _, hs.arguments⟩

lemma leads_buildSerialScan : Leads (buildSerialScan context c)
      (fun i w' => ∃ k, w'.scans[i]? = some k ∧ k.code = c ∧ ∃ r, c.arguments.read r false = .ok k.arguments)
      Any w := by
  refine Leads.bind (reaches_prepareScan context c) ?_
  rintro s _ ⟨-, hs⟩
  refine leads_any_bind fun r _ => leads_any_bind fun offsets _ => leads_any_bind fun parameters _ =>
    leads_any_bind fun input _ => leads_any_bind fun common _ => leads_any_bind fun fetches _ => ?_
  refine leads_any_bind fun p _ => leads_any_bind fun _ _ => leads_any_bind fun kernel _ =>
    leads_any_bind fun passed _ => leads_any_bind fun _ _ => ?_
  exact ⟨_, Array.getElem?_push_size, hs.code, _, hs.arguments⟩

lemma leads_getElementwise_built (i : Nat) (overRange : Bool) : Leads (getElementwise i overRange)
      (fun x w' => ((i, overRange), x) ∈ w.elementwiseBuilds ∧ w' = w ∨
        ∃ w1, w.Made w1 ∧ (w.elementwise[i]?.getD default).code.Built w.registry overRange w1 x ∧
          w' = { w1 with elementwiseBuilds := w1.elementwiseBuilds ++ [((i, overRange), x)] })
      (fun _ w' => w.Made w') w := by
  rw [getElementwise, leads_bind, leads_get]
  split
  · rename_i hfind
    exact .inl ⟨mem_of_find? hfind, rfl⟩
  · refine Leads.bind (reaches_buildElementwise _ _ overRange w) ?_
    rintro ⟨k, params⟩ w1 ⟨hw1, hblt⟩
    have hwarn : Stays Made (forIn params PUnit.unit fun p _ => if (p.isVector && !p.hasOffset) = true then
        warn .deprecation (noOffsetWarning (w.elementwise[i]?.getD default).code.name) >>= fun _ =>
          pure (ForInStep.yield PUnit.unit)
        else pure (ForInStep.yield PUnit.unit) : Host PUnit) :=
      stays_forIn (fun p _ _ => Stays.ite (quiet_warn _ _).map (stays_pure _)) _
    refine (hwarn.leads w1).bind ?_ fun _ w2 hw2 => hw1.trans hw2
    intro _ w2 hw2
    replace hw1 : w.Made w2 := hw1.trans hw2
    split
    · exact hw1
    · exact .inr ⟨w2, hw1, hblt.lasts hw2.toLasts, rfl⟩

end Host

/-! ## What is remembered -/

/-- The kernels of a reduction take the arrays of a reduction of the library: the first one with their offsets, if it
takes any, and the second one the values of the first one and the arrays without offsets. -/
def ReductionKernel.Serves (k : ReductionKernel) (op : StandardReduction) : Prop :=
  Vectors op.takesOffsets op.arity k.first.arguments ∧ Vectors false (op.arity + 1) k.second.arguments

lemma TypeRegistry.exists_of_typeName {t : ElementType} {name : String} (h : r.typeName t = .ok name) :
    ∃ x ∈ r.names, x.2 = name := by
  unfold typeName at h
  split at h
  · rename_i hname
    obtain ⟨x, hx, hs⟩ := Option.map_eq_some_iff.1 hname
    exact ⟨x, mem_of_find?_eq_some hx, hs.trans (ok.inj h)⟩
  · cases h

structure World.Remembers (w : World) : Prop where
  names : ∀ t name, (w.registries[0]?.getD ({} : TypeRegistry)).typeName t = .ok name → ',' ∉ name.toList
  elementwise : ∀ i overRange built, ((i, overRange), built) ∈ w.elementwiseBuilds →
    (w.elementwise[i]?.getD default).code.Reads overRange built.2
  reductions : ∀ context op i, ((context, op), i) ∈ w.standardReductions → ∃ k, w.reductions[i]? = some k ∧ k.Serves op
  sums : ∀ key i, (key, i) ∈ w.runningSums → ∃ k, w.scans[i]? = some k ∧ Vectors false 2 k.arguments
  selections : ∀ context key i, ((context, key), i) ∈ w.selections →
    ∃ k, w.scans[i]? = some k ∧ key.what.Takes key.extra k.arguments

lemma ReductionCode.Declares.serves {k : ReductionKernel} {op : StandardReduction} {code : ReductionCode}
    {allowDouble : Bool} (hnms : ∀ t name, r.typeName t = .ok name → ',' ∉ name.toList)
    (hcode : op.code r allowDouble = .ok code) (hfst : code.Declares r .mapping k.first.arguments)
    (hsnd : code.Declares r .folding k.second.arguments) : k.Serves op := by
  obtain ⟨source, hsrc, hvecs⟩ := StandardReduction.vectors_read hnms hcode
  obtain ⟨_, hsrc1, hfst⟩ := hfst
  obtain ⟨_, hsrc2, rest, hrest, hsnd⟩ := hsnd
  obtain rfl := Option.some.inj (hsrc.symm.trans hsrc1)
  obtain rfl := Option.some.inj (hsrc.symm.trans hsrc2)
  refine ⟨hvecs r true _ hfst, ?_⟩
  obtain ⟨hlen, hrest⟩ := hvecs r false _ hrest
  rw [hsnd]
  exact ⟨congrArg (· + 1) hlen, forall_mem_cons.2 ⟨⟨_, _, rfl⟩, hrest⟩⟩

namespace Host

variable {w : World}

lemma leads_getElementwise (hw : w.Remembers) (i : Nat) (overRange : Bool) : Leads (getElementwise i overRange)
      (fun x w' => w.Quiet w' ∧ (w.elementwise[i]?.getD default).code.Reads overRange x.2) Any w := by
  refine (leads_getElementwise_built i overRange).mono ?_
  rintro x _ (⟨hx, rfl⟩ | ⟨w1, hw1, ⟨declared, -, -, -, -, hdecl, hparams, -⟩, rfl⟩)
  · exact ⟨.refl _, hw.elementwise i overRange x hx⟩
  · exact ⟨hw1.toQuiet.trans (.of_eq rfl rfl rfl rfl rfl), _, declared, hdecl, hparams⟩

lemma leads_standardReduction (hw : w.Remembers) (context : Context) (op : StandardReduction) :
    Leads (standardReduction context op)
      (fun i w' => w.Quiet w' ∧ ∃ k, w'.reductions[i]? = some k ∧ k.Serves op) Any w := by
  rw [standardReduction, leads_bind, leads_get]
  split
  · rename_i hfind
    exact ⟨.refl w, hw.reductions context.id op _ (mem_of_find? hfind)⟩
  · cases hdevs : context.devices with
    | nil => simp [firstDevice, hdevs]
    | cons d =>
      have hdbl : Leads (hasDouble d) (fun _ w' => w = w') Any w := rfl
      simp only [firstDevice, hdevs, pure_bind]
      refine hdbl.andThen ?_
      rintro allowDouble _ rfl
      have hreg : Leads registry (fun r w' => r = w.registries[0]?.getD {} ∧ w = w') Any w :=
        ⟨rfl, rfl⟩
      refine hreg.andThen ?_
      rintro _ _ ⟨rfl, rfl⟩
      cases hcode : op.code (w.registries[0]?.getD ({} : TypeRegistry)) allowDouble with
      | error => trivial
      | ok code =>
        refine (leads_buildReduction_built context code).bind ?_
        rintro _ _ ⟨first, second, w1, -, hw1, ⟨hfst, hsnd⟩, -, rfl, rfl⟩
        exact ⟨hw1.toQuiet.trans (.of_eq rfl rfl rfl rfl rfl), _, Array.getElem?_push_size,
          hfst.1.serves hw.names hcode hsnd.1⟩

lemma leads_runningSum (hw : w.Remembers) (context : Context) (input output : ElementType) :
    Leads (runningSum context input output) (fun i w' => ∃ k, w'.scans[i]? = some k ∧ Vectors false 2 k.arguments)
      Any w := by
  rw [runningSum, leads_bind, leads_get]
  split
  · rename_i hfind
    exact hw.sums _ _ (mem_of_find?_eq_some hfind)
  · refine (leads_buildScan context _).andThen ?_
    rintro i w' ⟨k, hk, -, r, hread⟩
    refine ⟨k, hk, ?_⟩
    rw [← ok.inj hread]
    exact ⟨rfl, forall_mem_cons.2 ⟨⟨_, _, rfl⟩, forall_mem_singleton.2 ⟨_, _, rfl⟩⟩⟩

lemma gives_scanTemplateCode (context : Context) (what : Selection) (f : Filling) (devices : Option (List DeviceRef))
    {extra : List KernelArgument} (hextra : f.moreArguments = .entries (extra.map .argument)) :
    Gives (scanTemplateCode context what.template f devices) fun c =>
      ∃ args, c.arguments = .items (args.map .inr) ∧ what.Takes extra args := by
  unfold scanTemplateCode
  rw [hextra]
  refine gives_bind (gives_lift (P := fun r => r.processor = some "printf") ?_) fun r hr =>
    gives_then fun registry => gives_bind (gives_lift fun args h => what.takes_arguments hr h) fun args hargs =>
    gives_then fun _ => gives_then fun declarations => ?_
  · intro r h
    obtain ⟨_, -, h⟩ := of_bind_ok h
    cases h
    cases what <;> rfl
  · extract_lets go render
    have hrender : ∀ type, Gives (render type) fun c =>
        ∃ args, c.arguments = .items (args.map .inr) ∧ what.Takes extra args := by
      intro type
      repeat refine gives_then fun _ => ?_
      exact gives_pure ⟨args, rfl, hargs⟩
    split <;> exact gives_then hrender

lemma leads_selectionScan (hw : w.Remembers) (context : Context) (key : SelectionKey) :
    Leads (selectionScan context key)
      (fun i w' => ∃ k, w'.scans[i]? = some k ∧ key.what.Takes key.extra k.arguments) Any w := by
  rw [selectionScan, leads_bind, leads_get]
  extract_lets known
  split
  · rename_i hfind _
    exact hw.selections context.id key _ (mem_of_find? hfind)
  · refine (gives_scanTemplateCode context key.what _ none rfl w).andThen ?_
    rintro code w1 ⟨args, hargs, htks⟩
    refine (leads_buildScan context _).andThen ?_
    rintro i w' ⟨k, hk, -, r, hread⟩
    refine ⟨k, hk, ?_⟩
    rw [hargs, ArgumentSource.read_args] at hread
    exact ok.inj hread ▸ htks

end Host

end ClHost
