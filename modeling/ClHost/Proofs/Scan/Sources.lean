import ClHost.Proofs.Kernel.Declarations
import ClHost.Proofs.Kernel.Remembered

/-!
# Signatures and sources of generated kernels

The generators of elementwise kernels, reductions and scans each lay out their parameters in their own way: on one
line, on lines that end with commas, or on lines that start with them and may have comments before them.
-/

namespace ClHost

open String (intercalate intercalate_cons_of_ne_nil)
open KernelArgument Source List Source

variable {r : TypeRegistry} {args : List KernelArgument} {pss : List (List Parameter)} {types : List PassedType}

lemma KernelSource.takes_of_signs {s : KernelSource} {ps : List Parameter}
    (hsigns : Signs s.text s.name (ps.map (·.declaration))) (hps : ∀ p ∈ ps, p.Typed r s.text)
    (hpassed : s.passed = ps.filterMap (·.passed)) : s.Takes r (ps.map (·.declaration)) :=
  ⟨hsigns, hpassed ▸ Parameter.forall₂_typed hps⟩

lemma intercalate_concat_append (sep : String) (lines : List String) (s t : String) :
    intercalate sep (lines ++ [s ++ t]) = intercalate sep (lines ++ [s]) ++ t := by
  cases lines with
  | nil => simp
  | cons =>
    rw [String.intercalate_append_of_ne_nil (by simp) (by simp), String.intercalate_append_of_ne_nil (by simp) (by simp),
      String.intercalate_singleton, String.intercalate_singleton, ← String.append_assoc]

/-! ## Elementwise kernels -/

lemma ElementwiseCode.exists_source (c : ElementwiseCode) (overRange : Bool) (preamble loopPrep : String)
    (texts : List String) : ∃ before after, c.source overRange preamble loopPrep texts = intercalate "\n" (before ++
      ["        __kernel void " ++ c.name ++ "(" ++ intercalate ", " texts ++ ")"] ++ after) :=
  ⟨[_, _, _, _, _], [_, _, _, _, _, _, _, _, _, _, _], rfl⟩

/-- **The source of an elementwise kernel takes the parameters of its arguments.** -/
lemma ElementwiseCode.takes {texts : List String} (hr : r.Speaks) (hargs : ∀ a ∈ args, a.Named) (hne : args ≠ [])
    (htxs : args.mapM (declarator r) = .ok texts) (htys : passedTypes args = .ok types) (c : ElementwiseCode)
    (overRange : Bool) (preamble loopPrep : String) : ∃ pss, args.mapM (parameters r) = .ok pss ∧
      KernelSource.Takes ⟨c.source overRange preamble loopPrep texts, c.name, types⟩ r
        (pss.flatten.map (·.declaration)) := by
  obtain ⟨pss, hpss, rfl⟩ := exists_of_mapM_declarator htxs
  refine ⟨pss, hpss, KernelSource.takes_of_signs ?_ (mapM_parameters_typed hr hargs hpss) (passedTypes_eq hpss htys)⟩
  obtain ⟨before, after, hsrc⟩ := c.exists_source overRange preamble loopPrep
    (pss.map fun ps => intercalate ", " (ps.map (·.declaration)))
  rw [hsrc]
  refine (lists_declarators hr hargs hpss hne).signs_lines "        __kernel " "" ?_
  rw [String.append_empty]
  rfl

/-! ## Reductions -/

namespace Reduction

variable {source : String}

lemma typed_leading : ∀ p ∈ leadingParameters, p.Typed r source := by
  refine forall_mem_cons.2 ⟨⟨by decide, _, rfl, .pointer (by decide)⟩, forall_mem_singleton.2 ?_⟩
  exact ⟨by decide, _, rfl, .value (by decide) (by decide) denotes_long⟩

lemma typed_range : ∀ p ∈ rangeParameters, p.Typed r source := by
  have hv : ∀ n ∈ ["pcl_start", "pcl_step", "pcl_stop"], Text.IsIdentifier n := by decide
  intro p hp
  obtain ⟨n, hn, rfl⟩ := mem_map.1 hp
  exact typed_value isPhrase_long (hv n hn) denotes_long rfl

lemma typed_count : ∀ p ∈ countParameters, p.Typed r source := by
  have hunsigned : Denotes r source "unsigned int" (.number .uint32) :=
    .language ⟨["uint", "unsigned", "unsigned int"], by simp [TypeRegistry.kernelTypes], by simp⟩
  refine forall_mem_cons.2 ⟨⟨by decide, _, rfl, .value (by decide) (by decide) hunsigned⟩, ?_⟩
  exact forall_mem_singleton.2 ⟨by decide, _, rfl, .value (by decide) (by decide) denotes_long⟩

lemma lists_parameterLine {ps : List Parameter} {ds lines : List String}
    (hps : ∀ d ∈ ps.map (·.declaration), IsDeclaration d)
    (hlns : Lists ds (intercalate "\n" lines)) (hne : lines ≠ []) :
    Lists (ps.map (·.declaration) ++ ds) (intercalate "\n" (parameterLine ps ++ lines)) := by
  cases ps with
  | nil => exact hlns
  | cons =>
    rw [parameterLine, if_neg (by simp), singleton_append, intercalate_cons_of_ne_nil hne, String.append_assoc]
    exact (Lists.of_intercalate hps (by simp)).append (hlns.gap_append isGap_newline)

lemma SourceParts.exists_text (p : SourceParts) :
    ∃ before after, p.text = intercalate "\n" (before ++ (("__kernel void " ++ p.name ++ "(") ::
      (parameterLine leadingParameters ++ (parameterLine p.parameters ++ (parameterLine rangeParameters ++
        [intercalate ", " (countParameters.map (·.declaration)) ++ ")"])))) ++ after) := by
  refine ⟨["//CL//", "#define PCL_GROUP_SIZE " ++ toString p.groupSize,
      "#define PCL_READ_AND_MAP(i) (" ++ p.mapMacro ++ ")",
      "#define PCL_REDUCE(a, b) (" ++ p.reduceMacro ++ ")"] ++
    (if p.hasDouble then [Declarations.doubleLines ""] else []) ++
    ["#include <pyopencl-complex.h>", p.preamble, "typedef " ++ p.typeName ++ " pcl_out_type;"], ?_, ?_⟩
  rotate_left
  · unfold SourceParts.text
    simp only [append_assoc, cons_append, nil_append]
    rfl

/-- **The source of a kernel of a reduction takes the parameters of its arguments between its own.** -/
lemma SourceParts.takes (hr : r.Speaks) (hargs : ∀ a ∈ args, a.Named)
    (hpss : args.mapM (KernelArgument.parameters r) = .ok pss) (htys : passedTypes args = .ok types) {p : SourceParts}
    (hp : p.parameters = pss.flatten) :
    KernelSource.Takes ⟨p.text, p.name, passedOf leadingParameters ++ types ++ passedOf rangeParameters ++
      passedOf countParameters⟩ r
      ((leadingParameters ++ pss.flatten ++ (rangeParameters ++ countParameters)).map (·.declaration)) := by
  have htyd : ∀ q ∈ leadingParameters ++ pss.flatten ++ (rangeParameters ++ countParameters), q.Typed r p.text := by
    simp only [forall_mem_append]
    exact ⟨⟨typed_leading, mapM_parameters_typed hr hargs hpss⟩, typed_range, typed_count⟩
  refine KernelSource.takes_of_signs ?_ htyd ?_
  · have hdecls := Parameter.isDeclaration_of_typed htyd
    simp only [map_append, forall_mem_append] at hdecls ⊢
    obtain ⟨⟨hlead, hpss⟩, hrg, hcnt⟩ := hdecls
    have hlast : Lists (countParameters.map (·.declaration))
        (String.intercalate "\n" [String.intercalate ", " (countParameters.map (·.declaration))]) := by
      exact .of_intercalate hcnt (by decide)
    have hlns := lists_parameterLine hlead (lists_parameterLine hpss (lists_parameterLine hrg hlast (by simp))
      (by simp)) (by simp)
    obtain ⟨before, after, htext⟩ := p.exists_text
    rw [← hp, htext]
    rw [← hp] at hlns
    refine (hlns.gap_append isGap_newline).signs_lines "__kernel " "" ?_
    rw [String.intercalate_cons_of_ne_nil (by simp)]
    simp only [← append_assoc]
    rw [intercalate_concat_append]
    simp only [String.append_assoc]
    rfl
  · rw [passedTypes_eq hpss htys]
    simp [passedOf]

end Reduction

/-! ## Scans -/

namespace Scan

variable {ps fixed more : List Parameter} {notes : Parameter → List String}

lemma fixedLines_ne_nil (hne : fixed ≠ []) : fixedLines fixed ≠ [] := by
  rcases fixed with _ | ⟨p, _ | ⟨q, rest⟩⟩
  · exact absurd rfl hne
  all_goals simp [fixedLines]

lemma lists_fixedLines (hfix : ∀ d ∈ fixed.map (·.declaration), IsDeclaration d) (hne : fixed ≠ []) :
    Lists (fixed.map (·.declaration)) (intercalate "\n" (fixedLines fixed)) := by
  induction fixed with
  | nil => exact absurd rfl hne
  | cons p ps ih =>
    obtain ⟨hp, hps⟩ := forall_mem_cons.1 hfix
    cases ps with
    | nil => exact .one hp
    | cons =>
      rw [fixedLines, intercalate_cons_of_ne_nil (fixedLines_ne_nil (by simp)), String.append_assoc]
      · exact (Lists.one hp).append ((ih hps (by simp)).gap_append isGap_newline)
      · simp

variable {lines : List String} {source : String} {index : ElementType}

lemma exists_gap_of_notes (h : ∀ l ∈ lines, IsGap (l ++ "\n")) (s : String) :
    ∃ gap, IsGap gap ∧ String.intercalate "\n" (lines ++ [s]) = gap ++ s := by
  induction lines with
  | nil => exact ⟨"", isGap_empty, by simp⟩
  | cons l lines ih =>
    obtain ⟨hl, hlns⟩ := forall_mem_cons.1 h
    obtain ⟨gap, hgap, htext⟩ := ih hlns
    refine ⟨l ++ "\n" ++ gap, hl.append hgap, ?_⟩
    rw [cons_append, String.intercalate_cons_of_ne_nil (by simp), htext, ← String.append_assoc]

lemma lists_moreLines {ds : List String} (hlns : Lists ds (intercalate "\n" lines)) (hne : lines ≠ [])
    (hmore : ∀ d ∈ more.map (·.declaration), IsDeclaration d) (hnotes : ∀ p ∈ more, ∀ l ∈ notes p, IsGap (l ++ "\n")) :
    Lists (ds ++ more.map (·.declaration))
      (intercalate "\n" (lines ++ more.flatMap fun p => notes p ++ [", " ++ p.declaration])) := by
  induction more generalizing ds lines with
  | nil => simpa using hlns
  | cons p more ih =>
    obtain ⟨hp, hmore⟩ := forall_mem_cons.1 hmore
    obtain ⟨hnote, hnotes⟩ := forall_mem_cons.1 hnotes
    obtain ⟨gap, hgap, htext⟩ := exists_gap_of_notes hnote (", " ++ p.declaration)
    have hline : Lists (ds ++ [p.declaration])
        (intercalate "\n" (lines ++ (notes p ++ [", " ++ p.declaration]))) := by
      have hjoined := (hlns.append_gap (isGap_newline.append hgap)).append ((Lists.one hp).gap_append isGap_space)
      have hcomma : ", " ++ p.declaration = "," ++ (" " ++ p.declaration) := by rw [← String.append_assoc]; rfl
      rw [String.intercalate_append_of_ne_nil hne (by simp), htext, hcomma]
      simpa only [String.append_assoc] using hjoined
    have hall := ih hline (by simp) hmore hnotes
    simpa only [map_cons, flatMap_cons, append_assoc, singleton_append] using hall

lemma exists_lists_signature (hps : ∀ d ∈ ps.map (·.declaration), IsDeclaration d) (hne : ps ≠ [])
    (hfix : ∀ d ∈ fixed.map (·.declaration), IsDeclaration d) (hne' : fixed ≠ [])
    (hmore : ∀ d ∈ more.map (·.declaration), IsDeclaration d) (hnotes : ∀ p ∈ more, ∀ l ∈ notes p, IsGap (l ++ "\n")) :
    ∃ list, intercalate "\n" (signature ps fixed more notes) = list ++ ")" ∧
      Lists ((ps ++ fixed ++ more).map (·.declaration)) list := by
  have hfr : Lists (ps.map (·.declaration) ++ fixed.map (·.declaration))
      (intercalate "\n" (argumentLine ps :: fixedLines fixed)) := by
    rw [intercalate_cons_of_ne_nil (fixedLines_ne_nil hne'), String.append_assoc]
    exact (Lists.of_intercalate hps (by simpa using hne)).append
      ((lists_fixedLines hfix hne').gap_append isGap_newline)
  have hlist := (lists_moreLines hfr (by simp) hmore hnotes).append_gap isGap_newline
  rw [← map_append, ← map_append] at hlist
  refine ⟨_, ?_, hlist⟩
  rw [signature, String.intercalate_append_of_ne_nil (by simp) (by simp), String.intercalate_singleton]

lemma typed_sizes (hidx : Denotes r source "psc_index_type" index) :
    ∀ p ∈ sizeParameters index, p.Typed r source := by
  have hv : ∀ n, Text.IsIdentifier n →
      Parameter.Typed r source ⟨"const psc_index_type" ++ " " ++ n, some (.value index)⟩ :=
    fun n hn => typed_value (by decide) hn (.const hidx) rfl
  exact forall_mem_cons.2 ⟨hv "N" (by decide), forall_mem_singleton.2 (hv "psc_interval_size" (by decide))⟩

lemma typed_buffers : ∀ p ∈ [firstStarts, allStarts, intervalResults, partialValues], p.Typed r source := by
  simp only [forall_mem_cons]
  refine ⟨⟨by decide, _, rfl, .pointer (by decide)⟩, ⟨by decide, _, rfl, .pointer (by decide)⟩,
    ⟨by decide, _, rfl, .pointer (by decide)⟩, ⟨by decide, _, rfl, .pointer (by decide)⟩, nofun⟩

lemma CommonParts.denotes_index {p : CommonParts} (hr : r.Speaks) (hidx : r.typeName index = .ok p.indexName)
    (group : Nat) (rest : List String) :
    Denotes r (intercalate "\n" (p.lines group ++ rest)) "psc_index_type" index := by
  refine .alias (mem_lines_intercalate (mem_append_left _ ?_) ?_) (.registered hidx)
  · have hline : "typedef " ++ p.indexName ++ " " ++ "psc_index_type" ++ ";" =
        "typedef " ++ p.indexName ++ " psc_index_type;" := by
      simp only [String.append_assoc]
      rfl
    rw [hline]
    simp [CommonParts.lines]
  · have hname := (hr index _ hidx).notMem (by decide : Text.isWordChar '\n' = false) (by decide)
    simp [hname]

lemma IntervalParts.exists_text (p : IntervalParts) :
    ∃ before after, p.text = intercalate "\n" (p.common.lines p.shape.group ++
      (before ++ ((("void " ++ p.name ++ "(") :: p.signatureLines) ++ after))) := by
  unfold IntervalParts.text
  rw [append_assoc, append_assoc]
  exact ⟨[_, _, _, _, _, _, _, _, _], _, rfl⟩

lemma UpdateParts.exists_text (p : UpdateParts) :
    ∃ before after, p.text = intercalate "\n" (p.common.lines p.groupSize ++
      (before ++ ((("void " ++ p.name ++ "(") :: signature p.arguments (UpdateParts.fixedParameters p.indexType)
        (UpdateParts.moreParameters p.common.isSegmented p.looksBehind) (fun _ => [])) ++ after))) := by
  unfold UpdateParts.text
  rw [append_assoc, append_assoc]
  exact ⟨[_, _], _, rfl⟩

section Kernels

variable (hr : r.Speaks) (hargs : ∀ a ∈ args, a.Named) (hpss : args.mapM (KernelArgument.parameters r) = .ok pss)
  (htys : passedTypes args = .ok types) (hne : args ≠ [])

include hr hargs hpss htys hne

/-- **A source with such a signature takes the parameters of its arguments and then its own.** -/
lemma takes_of_signature {text name : String} {before after : List String} (htext : text = intercalate "\n"
      (before ++ (("void " ++ name ++ "(") :: signature pss.flatten fixed more notes) ++ after))
    (hfix : ∀ p ∈ fixed, p.Typed r text) (hne' : fixed ≠ []) (hmore : ∀ p ∈ more, p.Typed r text)
    (hnotes : ∀ p ∈ more, ∀ l ∈ notes p, IsGap (l ++ "\n")) :
    KernelSource.Takes ⟨text, name, types ++ (fixed ++ more).filterMap (·.passed)⟩ r
      ((pss.flatten ++ (fixed ++ more)).map (·.declaration)) := by
  have hpssTyped : ∀ p ∈ pss.flatten, p.Typed r text := mapM_parameters_typed hr hargs hpss
  refine KernelSource.takes_of_signs ?_ ?_ ?_
  · obtain ⟨list, hlist, hlists⟩ := exists_lists_signature (Parameter.isDeclaration_of_typed hpssTyped)
      (flatten_parameters_ne_nil hr hargs hpss hne) (Parameter.isDeclaration_of_typed hfix) hne'
      (Parameter.isDeclaration_of_typed hmore) hnotes
    rw [← append_assoc]
    rw [htext]
    refine (hlists.gap_append isGap_newline).signs_lines "" "" ?_
    rw [String.intercalate_cons_of_ne_nil (by simp [signature]), hlist, String.append_empty, String.empty_append]
    simp only [String.append_assoc]
  · simp only [forall_mem_append]
    exact ⟨hpssTyped, hfix, hmore⟩
  · rw [passedTypes_eq hpss htys, ← filterMap_append]

/-- **The source of a kernel that scans intervals takes the parameters of its arguments and then its own.** -/
lemma IntervalParts.takes {p : IntervalParts} (hp : p.arguments = pss.flatten)
    (hidx : r.typeName p.indexType = .ok p.common.indexName) :
    KernelSource.Takes ⟨p.text, p.name, types ++ (IntervalParts.fixedParameters p.indexType ++
      IntervalParts.moreParameters p.level p.common.isSegmented p.storesStarts).filterMap (·.passed)⟩ r
      ((pss.flatten ++ (IntervalParts.fixedParameters p.indexType ++
        IntervalParts.moreParameters p.level p.common.isSegmented p.storesStarts)).map (·.declaration)) := by
  obtain ⟨before, after, htext⟩ := p.exists_text
  have hdenotes : Denotes r p.text "psc_index_type" p.indexType := htext ▸ CommonParts.denotes_index hr hidx _ _
  rw [IntervalParts.signatureLines, hp, ← append_assoc, ← append_assoc] at htext
  refine takes_of_signature hr hargs hpss htys hne htext ?_ (by simp [IntervalParts.fixedParameters]) ?_ ?_
  · exact forall_mem_cons.2 ⟨typed_buffers _ (by simp), typed_sizes hdenotes⟩
  · refine fun q hq => typed_buffers q ?_
    unfold IntervalParts.moreParameters at hq
    grind
  · intro q _ l hl
    split at hl
    · rw [mem_singleton.1 hl]
      exact IsGap.of_comment " NO_SEG_BOUNDARY if no segment boundary in interval." (by decide) (by decide)
    · cases hl

/-- **The source of the last kernel of a scan takes the parameters of its arguments and then its own.** -/
lemma UpdateParts.takes {p : UpdateParts} (hp : p.arguments = pss.flatten)
    (hidx : r.typeName p.indexType = .ok p.common.indexName) :
    KernelSource.Takes ⟨p.text, p.name, types ++ (UpdateParts.fixedParameters p.indexType ++
      UpdateParts.moreParameters p.common.isSegmented p.looksBehind).filterMap (·.passed)⟩ r
      ((pss.flatten ++ (UpdateParts.fixedParameters p.indexType ++
        UpdateParts.moreParameters p.common.isSegmented p.looksBehind)).map (·.declaration)) := by
  obtain ⟨before, after, htext⟩ := p.exists_text
  have hdenotes : Denotes r p.text "psc_index_type" p.indexType := htext ▸ CommonParts.denotes_index hr hidx _ _
  rw [hp, ← append_assoc, ← append_assoc] at htext
  refine takes_of_signature hr hargs hpss htys hne htext ?_ (by simp [UpdateParts.fixedParameters]) ?_ (by simp)
  · exact forall_mem_append.2 ⟨typed_sizes hdenotes, fun q hq =>
      typed_buffers q (mem_cons_of_mem _ (mem_cons_of_mem _ hq))⟩
  · refine fun q hq => typed_buffers q ?_
    unfold UpdateParts.moreParameters at hq
    grind

end Kernels

end Scan

open Scan World

/-! ## Parameters of the kernels of a scan -/

namespace ScanCode

def firstParameters (c : ScanCode) : List Parameter :=
  IntervalParts.fixedParameters c.indexType ++ IntervalParts.moreParameters .first c.segmentStart.isSome c.storesStarts

def secondParameters (c : ScanCode) : List Parameter :=
  IntervalParts.fixedParameters c.indexType ++ IntervalParts.moreParameters .second c.segmentStart.isSome false

def updateParameters (c : ScanCode) : List Parameter :=
  UpdateParts.fixedParameters c.indexType ++ UpdateParts.moreParameters c.segmentStart.isSome c.looksBehind

end ScanCode

namespace Scan

/-- The declarations of the arrays that the second kernel scans, where the types of values and indices have these
names. -/
def carriedDeclarations (isSegmented : Bool) (typeName indexName : String) : List String :=
  ("__global " ++ typeName ++ " *" ++ "interval_sums") ::
    if isSegmented then ["__global " ++ indexName ++ " *" ++ "g_first_segment_start_in_interval_input"] else []

structure Setup.Keyed (s : Setup) (key : Key) : Prop where
  declarators : key.declarators = s.declarators
  fragments : key.fragments = [some s.code.input, some s.code.scan, s.code.neutral, some s.code.output, s.segmentMacro,
    some s.code.name, some s.code.preamble]
  index : key.index = s.code.indexType
  typeNames : key.typeNames = (s.indexName, s.typeName)
  isSegmented : s.segmentMacro.isSome = s.code.segmentStart.isSome

def Setup.declared (s : Setup) : List String := s.declarators.flatMap parametersOf

variable {s : Setup} {r : TypeRegistry}

lemma Setup.Prepared.spelled {c : ScanCode} (h : s.Prepared r c) (hr : r.Speaks) (hargs : ∀ a ∈ s.arguments, a.Named)
    : Spelled r s.arguments s.declared := by
  obtain ⟨pss, hpss, -⟩ := exists_of_mapM_declarator h.declarators
  have hspelled : Spelled r s.arguments (pss.flatten.map (·.declaration)) := ⟨pss, hpss, rfl⟩
  rwa [hspelled.eq_flatMap hr hargs h.declarators] at hspelled

structure Sources.Take (x : Sources) (r : TypeRegistry) (s : Setup) : Prop where
  first : x.first.Takes r (s.declared ++ s.code.firstParameters.map (·.declaration))
  second : x.second.Takes r (s.declared ++ carriedDeclarations s.code.segmentStart.isSome s.typeName s.indexName ++
    s.code.secondParameters.map (·.declaration))
  update : x.update.Takes r (s.declared ++ s.code.updateParameters.map (·.declaration))

/-- **Sources serve all scans with the key that they were generated for.** -/
lemma Sources.Take.of_keyed {x : Sources} {s' : Setup} {key : Key} (h : x.Take r s) (hs : s.Keyed key)
    (hs' : s'.Keyed key) : x.Take r s' := by
  have hdecl : s'.declared = s.declared := by
    rw [Setup.declared, Setup.declared, ← hs.declarators, ← hs'.declarators]
  have hidx : s'.code.indexType = s.code.indexType := hs'.index.symm.trans hs.index
  obtain ⟨hindexName, htn⟩ := Prod.mk.inj (hs'.typeNames.symm.trans hs.typeNames)
  have hfrag := hs'.fragments.symm.trans hs.fragments
  simp only [List.cons.injEq, Option.some.injEq] at hfrag
  obtain ⟨-, -, -, hout, hsegment, -⟩ := hfrag
  have hseg : s'.code.segmentStart.isSome = s.code.segmentStart.isSome := by
    rw [← hs.isSegmented, ← hs'.isSegmented, hsegment]
  have hbehind : s'.code.looksBehind = s.code.looksBehind := congrArg (Text.contains · "prev_item") hout
  have hsts : s'.code.storesStarts = s.code.storesStarts := by
    rw [ScanCode.storesStarts, ScanCode.storesStarts, hseg, hbehind]
  obtain ⟨hfst, hsnd, hupd⟩ := h
  refine ⟨?_, ?_, ?_⟩
  · rwa [hdecl, ScanCode.firstParameters, hidx, hseg, hsts]
  · rwa [hdecl, ScanCode.secondParameters, hidx, hseg, hindexName, htn]
  · rwa [hdecl, ScanCode.updateParameters, hidx, hseg, hbehind]

/-! ## What sources are generated from -/

def Setup.common (s : Setup) (input : String) (segmentStart : Option String) (largest : Int) : CommonParts where
  scan := s.scanMacro
  input := input
  segmentStart := segmentStart
  preamble := s.code.preamble
  typeName := s.typeName
  indexName := s.indexName
  largestIndex := largest
  hasDouble := s.hasDouble

def Setup.parts (s : Setup) (level : Level) (common : CommonParts) (shape : GroupShape) (arguments : List Parameter)
    (offsets : String) (fetches : List (Fetch × String × Nat)) (spreadsBanks : Bool) : IntervalParts :=
  ⟨common, level, s.code.name ++ level.ending, shape, arguments, offsets, fetches,
    level == .first && s.code.storesStarts, spreadsBanks, s.isGpu, s.code.type.size, s.code.indexType,
    s.code.indexType.size⟩

def Setup.Generates (s : Setup) (r : TypeRegistry) (level : Level) (arguments : List KernelArgument) (input : String)
    (segmentStart : Option String) (k : KernelSource) : Prop :=
  ∃ largest shape pss types offsets fetches spreadsBanks, arguments.mapM (KernelArgument.parameters r) = .ok pss ∧
    passedTypes arguments = .ok types ∧
    let p := s.parts level (s.common input segmentStart largest) shape pss.flatten offsets fetches spreadsBanks
    k = ⟨p.text, p.name, types ++ (IntervalParts.fixedParameters p.indexType ++
      IntervalParts.moreParameters level p.common.isSegmented p.storesStarts).filterMap (·.passed)⟩

lemma Setup.Generates.takes {level : Level} {arguments : List KernelArgument} {input : String}
    {segmentStart : Option String} {k : KernelSource} (h : s.Generates r level arguments input segmentStart k)
    (hr : r.Speaks) (hargs : ∀ a ∈ arguments, a.Named) (hne : arguments ≠ [])
    (hidx : r.typeName s.code.indexType = .ok s.indexName) : ∃ ds, Spelled r arguments ds ∧ k.Takes r
      (ds ++ (IntervalParts.fixedParameters s.code.indexType ++ IntervalParts.moreParameters level segmentStart.isSome
        (level == .first && s.code.storesStarts)).map (·.declaration)) := by
  obtain ⟨largest, shape, pss, types, offsets, fetches, spreadsBanks, hpss, htys, rfl⟩ := h
  refine ⟨_, ⟨pss, hpss, rfl⟩, ?_⟩
  rw [← map_append]
  exact IntervalParts.takes hr hargs hpss htys hne rfl hidx

def Setup.GeneratesUpdate (s : Setup) (r : TypeRegistry) (input : String) (k : KernelSource) : Prop :=
  ∃ largest pss types offsets groupSize, s.arguments.mapM (KernelArgument.parameters r) = .ok pss ∧
    passedTypes s.arguments = .ok types ∧
    let p : UpdateParts := ⟨s.common input s.code.segmentStart largest, s.code.name ++ "_final_update", groupSize,
      pss.flatten, offsets, s.neutralMacro, s.code.output, s.code.looksBehind, s.code.indexType⟩
    k = ⟨p.text, p.name, types ++ (UpdateParts.fixedParameters p.indexType ++
      UpdateParts.moreParameters p.common.isSegmented p.looksBehind).filterMap (·.passed)⟩

structure Sources.Generated (x : Sources) (r : TypeRegistry) (s : Setup) (element : String) : Prop where
  input : Source.macroBody s.code.input = .ok element
  first : s.Generates r .first s.arguments element s.code.segmentStart x.first
  second : s.Generates r .second (Host.secondArguments s) "interval_sums[i]"
    (s.code.segmentStart.map fun _ => "g_first_segment_start_in_interval_input[i] != NO_SEG_BOUNDARY") x.second
  update : s.GeneratesUpdate r element x.update

end Scan

def World.KnowsSources (w : World) : Prop :=
  ∀ key x, (key, x) ∈ w.scanSources → ∃ s : Setup, s.Keyed key ∧ x.Take w.registry s

lemma World.KnowsSources.lasts {w w' : World} (hw : w.KnowsSources) (h : w.Lasts w') : w'.KnowsSources := by
  have hsrcs : w'.scanSources = w.scanSources := congrArg (fun t => t.2.2.2.2.2) h.tables
  intro key x hx
  rw [h.registry]
  exact hw key x (hsrcs ▸ hx)

namespace Host

variable {w : World}

/-! ## Sources that are generated -/

section Generated

variable {s : Setup}

lemma stays_scanFetches (s : Setup) : Stays Made (scanFetches s) := by
  refine stays_mapM fun f _ => ?_
  split
  · exact stays_pure _
  · exact stays_fail _

lemma reaches_scanCommon (s : Setup) (input : String) (segmentStart : Option String) :
    Reaches Made (scanCommon s input segmentStart) (fun p _ => ∃ largest, p = s.common input segmentStart largest) w :=
  (stays_lift _).reaches_bind fun (_, largest) _ _ => reaches_pure ⟨largest, rfl⟩

variable (context : Context) (options : List String)

lemma reaches_buildKernelSource (k : KernelSource) :
    Reaches Made (buildKernelSource context options k) (fun id w' => w'.Generated id k) w := by
  refine reaches_bind (reaches_newProgram _ _) fun p w1 _ hp => ?_
  refine (quiet_build _ _ _).reaches_bind fun _ w2 hw2 => ?_
  refine reaches_bind (reaches_programKernel_of_holds (hp.lasts hw2.toLasts) _) fun id w3 _ hk => ?_
  exact reaches_bind (reaches_declareTypes_of_fresh hk _) fun _ w4 _ hgen => reaches_pure hgen

lemma reaches_buildKernels (x : Sources) : Reaches Made (buildKernels context options x)
      (fun ks w' => ∃ first second update, ks = .levels first second x.shape update x.updateGroup ∧
        w'.Generated first x.first ∧ w'.Generated second x.second ∧ w'.Generated update x.update) w := by
  refine reaches_bind (reaches_buildKernelSource context options x.first) fun first w1 _ hfst => ?_
  refine reaches_bind (reaches_buildKernelSource context options x.second) fun second w2 hw2 hsnd => ?_
  refine reaches_bind (reaches_buildKernelSource context options x.update) fun update w3 hw3 hupd => ?_
  exact reaches_pure ⟨first, second, update, rfl, (hfst.lasts hw2.toLasts).lasts hw3.toLasts,
    hsnd.lasts hw3.toLasts, hupd⟩

lemma reaches_intervalSource (s : Setup) (level : Level) (arguments : List KernelArgument) (input : String)
    (segmentStart : Option String) (limit run : Nat) (spreadsBanks : Bool) :
    Reaches Made (intervalSource s level arguments input segmentStart limit run spreadsBanks)
      (fun x _ => s.Generates w.registry level arguments input segmentStart x.1) w := by
  refine reaches_lift_bind fun types htys => ?_
  extract_lets shape storesStarts name more
  refine reaches_registry_bind ?_
  refine (stays_lift _).reaches_bind fun offsets w1 _ => ?_
  refine reaches_lift_bind fun pss hpss => ?_
  extract_lets fetched
  have hfetched : ∀ fetches w', Reaches Made (fetched fetches)
      (fun x _ => s.Generates w.registry level arguments input segmentStart x.1) w' := by
    intro fetches w2
    refine reaches_ite (reaches_fail_bind _ _) (reaches_bind (reaches_scanCommon s input segmentStart) ?_)
    rintro _ w3 - ⟨largest, rfl⟩
    exact reaches_pure ⟨largest, shape, pss, types, offsets, fetches, spreadsBanks, hpss, htys, rfl⟩
  exact reaches_ite ((stays_scanFetches s).reaches_bind fun fetches w2 _ => hfetched fetches w2)
    ((stays_pure _).reaches_bind fun fetches w2 _ => hfetched fetches w2)

lemma reaches_firstSource (s : Setup) (run : Nat) (spreadsBanks : Bool) (tries limit : Nat) :
    Reaches Made (firstSource s run spreadsBanks tries limit)
      (fun x _ => ∃ input, Source.macroBody s.code.input = .ok input ∧
        s.Generates w.registry .first s.arguments input s.code.segmentStart x.1) w := by
  induction tries generalizing limit w
  all_goals
    refine reaches_lift_bind fun input hinp => ?_
    refine reaches_bind (reaches_intervalSource s .first s.arguments input s.code.segmentStart limit run spreadsBanks) ?_
    rintro ⟨source, shape⟩ w1 hw1 hsrc
    refine (stays_of_reaches fun _ => reaches_buildKernelSource _ _ _).reaches_bind fun k w2 hw2 => ?_
    refine (stays_mapM fun d _ => quiet_groupLimit k d).reaches_bind fun limits w3 hw3 => ?_
    refine reaches_ite (reaches_pure ⟨input, hinp, hsrc⟩) ?_
  case zero => exact refl (r := Made) w3
  case succ tries ih =>
    refine Reaches.mono (ih _) fun x _ _ hx => ?_
    rwa [hw3.registry, hw2.registry, hw1.registry] at hx

end Generated

section Sources

variable {s : Setup} {c : ScanCode} {r : TypeRegistry}

lemma stays_scanSpreadsBanks (s : Setup) : Stays Made (scanSpreadsBanks s) := by
  unfold scanSpreadsBanks
  split
  · exact stays_fail _
  · exact (quiet_platformInfo _).map

lemma stays_scanShape (s : Setup) (spreadsBanks : Bool) : Stays Made (scanShape s spreadsBanks) := by
  have hlims : Stays Made (scanLimits s) := by
    refine (stays_mapM fun d _ => quiet_deviceInfo d).bind fun infos => ?_
    split
    · exact (quiet_platformInfo _).bind fun _ => (quiet_hasType _ _).map
    · exact stays_fail _
  refine hlims.bind fun limits => ?_
  extract_lets shared value chosen
  have hchosen : ∀ x, Stays Made (chosen x) := by
    intro x
    refine (stays_mapM fun a _ => ?_).bind fun bytes => ?_
    · split
      · exact stays_pure _
      · exact stays_fail _
    · split
      · exact stays_pure _
      · exact stays_fail _
  exact stays_guarded (hchosen ())

lemma named_secondArguments (hargs : ∀ a ∈ s.arguments, a.Named) : ∀ a ∈ secondArguments s, a.Named := by
  unfold secondArguments
  simp only [forall_mem_append]
  refine ⟨⟨hargs, forall_mem_singleton.2 (show Text.IsIdentifier _ by decide)⟩, ?_⟩
  split
  · exact forall_mem_singleton.2 (show Text.IsIdentifier _ by decide)
  · simp

lemma spelled_secondArguments {ds : List String} (hs : s.Prepared r c) (hr : r.Speaks)
    (hargs : ∀ a ∈ s.arguments, a.Named) (h : Spelled r (secondArguments s) ds) :
    ds = s.declared ++ carriedDeclarations s.code.segmentStart.isSome s.typeName s.indexName := by
  obtain rfl := hs.code
  unfold secondArguments at h
  rw [append_assoc] at h
  obtain ⟨ds1, _, h1, hcarried, rfl⟩ := h.of_append
  obtain ⟨ds2, ds3, h2, h3, rfl⟩ := hcarried.of_append
  obtain rfl := h1.eq_flatMap hr hargs hs.declarators
  obtain rfl := h2.vector hs.typeName
  refine congrArg (s.declared ++ _ :: ·) ?_
  cases hsegment : s.code.segmentStart.isSome <;> rw [hsegment] at h3
  · obtain ⟨pss, hpss, rfl⟩ := h3
    cases hpss
    rfl
  · exact h3.vector hs.indexName

/-- **How the sources of a scan are generated.** -/
lemma reaches_scanSources (s : Setup) :
    Reaches Made (scanSources s) (fun x _ => ∃ element, x.Generated w.registry s element) w := by
  refine (stays_scanSpreadsBanks s).reaches_bind fun spreadsBanks w1 hw1 => ?_
  refine (stays_scanShape s spreadsBanks).reaches_bind fun chosen w2 hw2 => ?_
  refine reaches_bind (reaches_firstSource s _ _ _ _) ?_
  rintro ⟨first, shape, limit⟩ w3 hw3 ⟨element, hel, hfst⟩
  refine reaches_bind (reaches_intervalSource s .second _ _ _ _ _ _) ?_
  rintro ⟨second, _⟩ w4 hw4 hsnd
  refine reaches_registry_bind ?_
  rw [hw2.registry, hw1.registry] at hfst
  rw [hw3.registry, hw2.registry, hw1.registry] at hsnd
  rw [hw4.registry, hw3.registry, hw2.registry, hw1.registry]
  extract_lets updateGroup
  refine reaches_lift_bind fun pss hpss => (stays_lift _).reaches_bind fun offsets w5 _ => ?_
  refine reaches_lift_bind fun element' hel' => ?_
  obtain rfl : element' = element := Except.ok.inj (hel'.symm.trans hel)
  refine reaches_bind (reaches_scanCommon s element' s.code.segmentStart) ?_
  rintro _ w6 - ⟨largest, rfl⟩
  refine reaches_lift_bind fun types htys => reaches_pure ⟨element', hel, hfst, hsnd, ?_⟩
  exact ⟨largest, pss, types, offsets, updateGroup, hpss, htys, rfl⟩

lemma take_of_generated {x : Sources} {element : String} (h : x.Generated r s element) (hs : s.Prepared r c)
    (hr : r.Speaks) (hargs : ∀ a ∈ s.arguments, a.Named) : x.Take r s := by
  have hidx : r.typeName s.code.indexType = .ok s.indexName := hs.code.symm ▸ hs.indexName
  have hne : s.arguments ≠ [] := by
    intro h
    have hfst := hs.firstArray
    rw [h] at hfst
    cases hfst
  obtain ⟨ds1, hds1, hfst⟩ := h.first.takes hr hargs hne hidx
  obtain ⟨ds2, hds2, hsnd⟩ := h.second.takes hr (named_secondArguments hargs) (by simp [secondArguments]) hidx
  obtain rfl : ds1 = s.declared := hds1.eq_flatMap hr hargs hs.declarators
  rw [spelled_secondArguments hs hr hargs hds2, Option.isSome_map] at hsnd
  obtain ⟨largest, pss, types, offsets, groupSize, hpss, htys, hupd⟩ := h.update
  refine ⟨hfst, hsnd, ?_⟩
  rw [hupd, show s.declared = pss.flatten.map (·.declaration) from
    (Spelled.eq_flatMap ⟨pss, hpss, rfl⟩ hr hargs hs.declarators).symm, ← map_append]
  exact UpdateParts.takes hr hargs hpss htys hne rfl hidx

lemma reaches_scanKey (hs : s.Prepared r c) : Reaches Made (scanKey s) (fun key _ => s.Keyed key) w := by
  have hdev : ∀ d, Stays Made (deviceCacheId d) := fun d =>
    (quiet_platformInfo _).bind fun _ => (quiet_deviceInfo d).map
  refine (stays_mapM fun d _ => hdev d).reaches_bind fun devices w1 _ => ?_
  exact reaches_pure ⟨rfl, rfl, rfl, rfl, hs.code.symm ▸ hs.isSegmented⟩

/-- **The sources of a scan take its parameters, whether they are generated or found.** -/
lemma leads_knownSources (hs : s.Prepared w.registry c) (hr : w.registry.Speaks) (hargs : ∀ a ∈ s.arguments, a.Named)
    (hw : w.KnowsSources) : Leads (knownSources s)
      (fun x w' => x.Take w.registry s ∧ ∃ w1 sources, w.Made w1 ∧ w' = { w1 with scanSources := sources } ∧
        w'.KnowsSources)
      (fun _ w' => w.Made w') w := by
  refine Leads.bind (reaches_scanKey hs) ?_
  rintro key w1 ⟨hw1, hkey⟩
  have hreg := hw1.registry
  have hkn := hw.lasts hw1.toLasts
  rw [leads_bind, leads_get]
  split
  · rename_i key' x hfind
    obtain ⟨s', hs', hx⟩ := hkn key x (mem_of_find? hfind)
    rw [hreg] at hx
    exact ⟨hx.of_keyed hs' hkey, w1, _, hw1, rfl, hkn⟩
  · refine Leads.bind (reaches_scanSources s) ?_ fun _ _ h => hw1.trans h
    rintro x w2 ⟨hw2, element, hx⟩
    rw [hreg] at hx
    replace hx := take_of_generated hx hs hr hargs
    refine ⟨hx, w2, _, hw1.trans hw2, rfl, fun key' x' hx' => ?_⟩
    rcases mem_append.1 hx' with hx' | hx'
    · exact hkn.lasts hw2.toLasts key' x' hx'
    · cases mem_singleton.1 hx'
      exact ⟨s, hkey, (hw2.registry.trans hreg).symm ▸ hx⟩

end Sources

end Host

end ClHost
