import ClHost.Proofs.Scan.Sources

/-!
# Snippets in the macros of scans

The snippets that a scan is made of become bodies of macros. A macro ends with the first line that no backslash ends,
so that a snippet of more lines is a whole body only if all of its lines but the last one end in a backslash.
-/

namespace ClHost

open String (ofList toList_ofList singleton ofList_cons toList_append)
open List Text

namespace Source

/-! ## Reading macros -/

def logicalLines : List String → List (List String)
  | [] => []
  | l :: ls =>
    if endsWith l "\\" then
      match logicalLines ls with
      | [] => [[l]]
      | group :: groups => (l :: group) :: groups
    else [l] :: logicalLines ls

def bodyAfter? (head : String) : List String → Option (List String)
  | [] => none
  | l :: ls => if startsWith l head then some (String.ofList (l.toList.drop head.toList.length) :: ls) else none

def definition? (name source : String) : Option (List String) :=
  (logicalLines (lines source)).findSome? (bodyAfter? ("#define " ++ name ++ " "))

def continued : List String → List String
  | [] => []
  | [l] => [l]
  | l :: ls => (l ++ " \\") :: continued ls

def Defines (source name text : String) : Prop := definition? name source = some (continued (lines text))

def unmarked (snippet : String) : String := replaceAll snippet lineMark "\n"

/-! ## Lines of texts -/

lemma exists_lines (s : String) : ∃ l ls, lines s = l :: ls := by
  refine exists_cons_of_ne_nil ?_
  rw [lines, splitAt_eq_splitOn]
  simp

lemma intercalate_lines (s : String) : String.intercalate "\n" (lines s) = s := by
  rw [← String.toList_inj, String.toList_intercalate, lines, splitAt_eq_splitOn, map_map]
  have hid : String.toList ∘ ofList = id := funext fun _ => toList_ofList
  rw [hid, map_id]
  exact intercalate_splitOn '\n'

lemma lines_newline (s rest : String) : lines (s ++ "\n" ++ rest) = lines s ++ lines rest :=
  splitAt_between rfl s rest

lemma lines_intercalate {pieces : List String} (h : pieces ≠ []) :
    lines (String.intercalate "\n" pieces) = pieces.flatMap lines := by
  obtain ⟨s, pieces, rfl⟩ := exists_cons_of_ne_nil h
  clear h
  induction pieces generalizing s with
  | nil => rw [flatMap_singleton]; rfl
  | cons t pieces ih => rw [String.intercalate_cons_cons, lines_newline, flatMap_cons, ih]

variable {s l snippet : String} {ls : List String}

lemma notMem_of_lines_eq (h : lines s = [l]) : '\n' ∉ s.toList := by
  have hl : '\n' ∉ l.toList := notMem_of_mem_splitAt (s := s) (h ▸ mem_singleton_self l : l ∈ lines s)
  rwa [← intercalate_lines s, h]

lemma lines_append (h : lines s = l :: ls) (head : String)
    (hhead : '\n' ∉ head.toList) : lines (head ++ s) = (head ++ l) :: ls := by
  have hpcs : ∀ x ∈ (head ++ l) :: ls, '\n' ∉ x.toList := by
    have hlns : ∀ x ∈ l :: ls, '\n' ∉ x.toList := fun x hx => notMem_of_mem_splitAt (h ▸ hx : x ∈ lines s)
    rw [forall_mem_cons] at hlns ⊢
    simpa [hhead] using hlns
  have hjoined : head ++ s = String.intercalate "\n" ((head ++ l) :: ls) := by
    rw [← intercalate_lines s, h]
    cases ls with
    | nil => rfl
    | cons => rw [String.intercalate_cons_cons, String.intercalate_cons_cons]; simp [String.append_assoc]
  rw [hjoined]
  exact splitAt_intercalate rfl hpcs (cons_ne_nil _ _)

lemma lines_induction {P : String → Prop} (hnil : P "")
    (hline : ∀ cs, lines (ofList ('\n' :: cs)) = "" :: lines (ofList cs) → P (ofList cs) → P (ofList ('\n' :: cs)))
    (hchar : ∀ c cs l ls, c ≠ '\n' → lines (ofList cs) = l :: ls → lines (ofList (c :: cs)) = (singleton c ++ l) :: ls →
      P (ofList cs) → P (ofList (c :: cs))) (s : String) : P s := by
  rw [← String.ofList_toList (s := s)]
  induction s.toList with
  | nil => exact hnil
  | cons c cs ih =>
    by_cases hc : c = '\n'
    · subst hc
      refine hline cs ?_ ih
      rw [ofList_cons]
      exact lines_newline "" (ofList cs)
    · obtain ⟨l, ls, hl⟩ := exists_lines (ofList cs)
      have happ := lines_append hl (singleton c) (by simpa using Ne.symm hc)
      refine hchar c cs l ls hc hl ?_ ih
      rw [ofList_cons, happ]

variable {c : Char} {head : String}

lemma notMem_of_mem_lines : c ∉ s.toList → ∀ l ∈ lines s, c ∉ l.toList := by
  induction s using lines_induction with
  | hnil => exact fun hc => forall_mem_singleton.2 hc
  | hline cs hlns ih =>
    intro hc
    rw [hlns, forall_mem_cons]
    rw [toList_ofList] at hc ih
    exact ⟨not_mem_nil, ih (not_mem_of_not_mem_cons hc)⟩
  | hchar d cs l ls _ hl hlns ih =>
    intro hc
    rw [toList_ofList] at hc ih
    obtain ⟨hd, hcs⟩ := ne_and_not_mem_of_not_mem_cons hc
    have hrest := ih hcs
    rw [hl, forall_mem_cons] at hrest
    rw [hlns, forall_mem_cons]
    exact ⟨by simpa [hd] using hrest.1, hrest.2⟩

/-! ## Lines of snippets -/

lemma replaceAll_newline_append (s t new : String) :
    replaceAll (s ++ t) "\n" new = replaceAll s "\n" new ++ replaceAll t "\n" new := by
  have hch : ∀ cs ds : List Char, replaceChars ['\n'] new.toList 0 (cs ++ ds) =
      replaceChars ['\n'] new.toList 0 cs ++ replaceChars ['\n'] new.toList 0 ds := by
    intro cs ds
    induction cs with
    | nil => rfl
    | cons c cs ih =>
      rw [cons_append, replaceChars, replaceChars]
      simp only [startsWithChars, length_singleton, Nat.sub_self, ih]
      split <;> simp
  rw [replaceAll, toList_append]
  exact (congrArg ofList (hch _ _)).trans (String.ofList_append)

/-- **What is done to a snippet continues its lines.** -/
lemma lines_continued (s : String) : lines (replaceAll s "\n" " \\\n") = continued (lines s) := by
  induction s using lines_induction with
  | hnil => rfl
  | hline cs hlns ih =>
    obtain ⟨l, ls, hl⟩ := exists_lines (ofList cs)
    have hline : replaceAll (singleton '\n') "\n" " \\\n" = " \\" ++ "\n" := by decide
    rw [ofList_cons, replaceAll_newline_append, ← ofList_cons, hlns, hline, lines_newline, ih, hl]
    rfl
  | hchar c cs l ls hc hl hlns ih =>
    have hsame : replaceAll (singleton c) "\n" " \\\n" = singleton c := by
      simp [replaceAll, replaceChars, startsWithChars, Ne.symm hc]
    have hchar : '\n' ∉ (singleton c).toList := by simpa using Ne.symm hc
    rw [hlns, ofList_cons, replaceAll_newline_append, hsame]
    rw [hl] at ih
    cases ls with
    | nil => exact lines_append ih _ hchar
    | cons => exact (lines_append ih _ hchar).trans (by rw [← String.append_assoc]; rfl)

lemma macroBody_eq {text : String} (h : macroBody snippet = .ok text) :
    text = replaceAll (unmarked snippet) "\n" " \\\n" := by
  unfold macroBody at h
  simp only at h
  split at h
  · cases h
  · exact (Except.ok.inj h).symm

lemma mem_replaceChars {part new : List Char} {n : Nat} {cs : List Char} (h : c ∈ replaceChars part new n cs) :
    c ∈ new ∨ c ∈ cs := by
  fun_induction replaceChars part new n cs with
  | case1 => cases h
  | case2 => rcases mem_append.1 h with h | h <;> grind
  | case3 => rcases mem_cons.1 h with h | h <;> grind
  | case4 => grind

lemma notMem_unmarked (h : '\\' ∉ snippet.toList) : '\\' ∉ (unmarked snippet).toList := by
  intro hmem
  rw [unmarked, replaceAll, toList_ofList] at hmem
  rcases mem_replaceChars hmem with hmem | hmem
  · revert hmem
    decide
  · exact h hmem

lemma unmarked_eq (h : '\n' ∉ (unmarked snippet).toList) : unmarked snippet = snippet := by
  have hch : ∀ cs : List Char, '\n' ∉ replaceChars lineMark.toList ['\n'] 0 cs →
      replaceChars lineMark.toList ['\n'] 0 cs = cs := by
    intro cs hcs
    induction cs with
    | nil => rfl
    | cons c cs ih =>
      rw [replaceChars] at hcs ⊢
      split at hcs
      · exact absurd (mem_append_left _ mem_cons_self) hcs
      · rename_i hmark
        rw [if_neg hmark, ih (not_mem_of_not_mem_cons hcs)]
  rw [unmarked, replaceAll, toList_ofList] at h
  exact (congrArg ofList (hch _ h)).trans String.ofList_toList

/-! ## Finding macros -/

lemma endsWith_backslash : endsWith s "\\" = true ↔ s.toList.getLast? = some '\\' := by
  rw [endsWith, startsWithChars_iff, getLast?_eq_head?_reverse]
  cases s.toList.reverse with
  | nil => simp
  | cons => simp [eq_comm]

lemma endsWith_of_notMem (h : '\\' ∉ s.toList) : endsWith s "\\" = false := by
  rw [Bool.eq_false_iff, ne_eq, endsWith_backslash]
  exact fun hlast => h (mem_of_getLast? hlast)

lemma logicalLines_plain (h : ∀ l ∈ ls, '\\' ∉ l.toList) (rest : List String) :
    logicalLines (ls ++ rest) = ls.map (fun l => [l]) ++ logicalLines rest := by
  induction ls with
  | nil => rfl
  | cons l ls ih =>
    obtain ⟨hl, hls⟩ := forall_mem_cons.1 h
    rw [cons_append, logicalLines, if_neg (by simp [endsWith_of_notMem hl]), ih hls]
    rfl

lemma logicalLines_continued (h : ∀ l ∈ ls, '\\' ∉ l.toList) (hne : ls ≠ []) (rest : List String) :
    logicalLines (continued ls ++ rest) = continued ls :: logicalLines rest := by
  induction ls with
  | nil => exact absurd rfl hne
  | cons l ls ih =>
    obtain ⟨hl, hls⟩ := forall_mem_cons.1 h
    cases ls with
    | nil => rw [continued, singleton_append, logicalLines, if_neg (by simp [endsWith_of_notMem hl])]
    | cons =>
      have hends : endsWith (l ++ " \\") "\\" = true := endsWith_backslash.2 (by simp)
      rw [continued, cons_append, logicalLines, if_pos hends, ih hls (cons_ne_nil _ _)]
      simp

lemma continued_append (head : String) :
    ∃ l' ls', continued (l :: ls) = l' :: ls' ∧ continued ((head ++ l) :: ls) = (head ++ l') :: ls' := by
  cases ls with
  | nil => exact ⟨l, [], rfl, rfl⟩
  | cons l' ls => exact ⟨l ++ " \\", continued (l' :: ls), rfl, by rw [← String.append_assoc]; rfl⟩

lemma exists_continued (h : '\n' ∉ head.toList) (s : String) :
    ∃ l ls, continued (lines s) = l :: ls ∧ continued (lines (head ++ s)) = (head ++ l) :: ls := by
  obtain ⟨l, ls, hl⟩ := exists_lines s
  rw [hl, lines_append hl _ h]
  exact continued_append head

lemma bodyAfter?_append (head l : String) (ls : List String) : bodyAfter? head ((head ++ l) :: ls) = some (l :: ls) := by
  have hsts : startsWith (head ++ l) head = true := startsWith_iff.2 (by simp)
  rw [bodyAfter?, if_pos hsts]
  simp

def Apart (a b : String) : Prop := ¬ a.toList <+: b.toList ∧ ¬ b.toList <+: a.toList

instance (a b : String) : Decidable (Apart a b) := inferInstanceAs (Decidable (_ ∧ _))

lemma bodyAfter?_apart {other : String} (h : Apart head other) (l : String) (ls : List String) :
    bodyAfter? head ((other ++ l) :: ls) = none := by
  refine if_neg fun hsts => ?_
  rw [startsWith_iff, toList_append] at hsts
  rcases prefix_or_prefix_of_prefix hsts (prefix_append _ _) with hpre | hpre
  · exact h.1 hpre
  · exact h.2 hpre

end Source

namespace Scan

open Source

/-! ## The macros of a scan -/

def combination : String := "psc_SCAN_EXPR(a, b, across_seg_boundary)"

def elementValue : String := "psc_INPUT_EXPR(i)"

def segmentTest : String := "psc_IS_SEG_START(i, a)"

def opening (hasDouble : Bool) (groupSize : Nat) : List String :=
  platformLines ++ (if hasDouble then doubleLines else []) ++ ["//CL//", "#define psc_WG_SIZE " ++ toString groupSize]

structure Plain (l : String) : Prop where
  newline : '\n' ∉ l.toList
  backslash : '\\' ∉ l.toList
  undefined : ∀ name ∈ [combination, elementValue, segmentTest], bodyAfter? ("#define " ++ name ++ " ") [l] = none

lemma plain_opening (hasDouble : Bool) (groupSize : Nat) : ∀ l ∈ opening hasDouble groupSize, Plain l := by
  have hfix : ∀ l ∈ platformLines ++ doubleLines ++ ["//CL//"], '\n' ∉ l.toList ∧ '\\' ∉ l.toList ∧
      ∀ name ∈ [combination, elementValue, segmentTest], bodyAfter? ("#define " ++ name ++ " ") [l] = none := by
    decide
  have hdigits : ∀ c ∈ (toString groupSize).toList, c.isDigit = true := by
    intro c hc
    rw [Nat.toString_eq_ofList_toDigits, toList_ofList] at hc
    exact Nat.isDigit_of_mem_toDigits (by decide) (by decide) hc
  have hsize : Plain ("#define psc_WG_SIZE " ++ toString groupSize) := by
    refine ⟨fun h => ?_, fun h => ?_, fun name hname => ?_⟩
    · rw [toList_append, mem_append] at h
      exact h.elim (by decide) fun h => absurd (hdigits _ h) (by decide)
    · rw [toList_append, mem_append] at h
      exact h.elim (by decide) fun h => absurd (hdigits _ h) (by decide)
    · refine bodyAfter?_apart ?_ _ _
      revert name
      decide
  intro l hl
  simp only [opening, mem_append, mem_cons, not_mem_nil, or_false] at hl
  have hpl : l ∈ platformLines ++ doubleLines ++ ["//CL//"] → Plain l := fun hl =>
    ⟨(hfix l hl).1, (hfix l hl).2.1, (hfix l hl).2.2⟩
  rcases hl with (hl | hl) | rfl | rfl
  · exact hpl (by simp [hl])
  · split at hl
    · exact hpl (by simp [hl])
    · cases hl
  · exact hpl (by simp)
  · exact hsize

def Opens (source scan input : String) (segmentStart : Option String) : Prop :=
  ∃ (p : CommonParts) (groupSize : Nat) (rest : List String),
    source = String.intercalate "\n" (p.lines groupSize ++ rest) ∧ p.scan = scan ∧ p.input = input ∧ p.segmentStart = segmentStart

lemma opens_interval (p : IntervalParts) : Opens p.text p.common.scan p.common.input p.common.segmentStart := by
  rw [IntervalParts.text, append_assoc, append_assoc]
  exact ⟨p.common, _, _, rfl, rfl, rfl, rfl⟩

variable {source scan input : String} {segmentStart : Option String}

variable {s : Setup} {r : TypeRegistry} {k : KernelSource} {scanText inputText : String}

lemma opens_of_generates {level : Level} {arguments : List KernelArgument}
    (h : s.Generates r level arguments input segmentStart k) : Opens k.text s.scanMacro input segmentStart := by
  obtain ⟨largest, shape, pss, types, offsets, fetches, spreadsBanks, -, -, rfl⟩ := h
  dsimp only
  exact opens_interval (s.parts level (s.common input segmentStart largest) shape pss.flatten offsets fetches spreadsBanks)

lemma opens_of_generatesUpdate (h : s.GeneratesUpdate r input k) :
    Opens k.text s.scanMacro input s.code.segmentStart := by
  obtain ⟨_, _, _, _, _, -, -, rfl⟩ := h
  dsimp only
  rw [UpdateParts.text, append_assoc, append_assoc]
  exact ⟨_, _, _, rfl, rfl, rfl, rfl⟩

lemma lines_between (before after : String) (hbef : replaceAll before "\n" " \\\n" = before)
    (haft : replaceAll after "\n" " \\\n" = after) (s : String) :
    lines (before ++ replaceAll s "\n" " \\\n" ++ after) = continued (lines (before ++ s ++ after)) := by
  rw [← lines_continued, replaceAll_newline_append, replaceAll_newline_append, hbef, haft]

def macroLines (name before snippet after : String) : List String :=
  continued (lines ("#define " ++ name ++ " " ++ (before ++ snippet ++ after)))

lemma lines_of_opens (h : Opens source scanText inputText segmentStart) (hscan : macroBody scan = .ok scanText)
    (hinput : macroBody input = .ok inputText) :
    ∃ hasDouble groupSize rest, lines source = opening hasDouble groupSize ++
      (macroLines combination "" (unmarked scan) "" ++ (macroLines elementValue "(" (unmarked input) ")" ++
        ((segmentStart.toList.flatMap fun e => lines ("#define " ++ segmentTest ++ " " ++ ("(" ++ e ++ ")"))) ++
          rest))) := by
  obtain ⟨p, groupSize, rest, rfl, rfl, rfl, rfl⟩ := h
  have hopening : (opening p.hasDouble groupSize).flatMap lines = opening p.hasDouble groupSize := by
    have hsingle : ∀ l ∈ opening p.hasDouble groupSize, lines l = [l] := fun l hl =>
      splitAt_of_notMem (plain_opening _ _ l hl).newline
    rw [flatMap_def, map_congr_left hsingle]
    exact flatMap_singleton' _
  have hcomb : lines ("#define psc_SCAN_EXPR(a, b, across_seg_boundary) " ++ p.scan) =
      macroLines combination "" (unmarked scan) "" := by
    have hbtw := lines_between "#define psc_SCAN_EXPR(a, b, across_seg_boundary) " ""
      (by decide) rfl (unmarked scan)
    rw [← macroBody_eq hscan, String.append_empty, String.append_empty] at hbtw
    rw [hbtw, macroLines, String.empty_append, String.append_empty]
    rfl
  have hel : lines ("#define psc_INPUT_EXPR(i) (" ++ p.input ++ ")") =
      macroLines elementValue "(" (unmarked input) ")" := by
    have hbtw := lines_between "#define psc_INPUT_EXPR(i) (" ")" (by decide)
      (by decide) (unmarked input)
    rw [← macroBody_eq hinput] at hbtw
    rw [hbtw, macroLines, ← String.append_assoc, ← String.append_assoc]
    rfl
  have hlns : ∃ tail, p.lines groupSize = opening p.hasDouble groupSize ++
      (["#define psc_SCAN_EXPR(a, b, across_seg_boundary) " ++ p.scan] ++
        (["#define psc_INPUT_EXPR(i) (" ++ p.input ++ ")"] ++
          ((p.segmentStart.toList.map fun e => "#define psc_IS_SEG_START(i, a) (" ++ e ++ ")") ++ tail))) := by
    unfold CommonParts.lines opening
    cases p.segmentStart <;>
      simp only [append_assoc, cons_append, nil_append, Option.toList, map_cons, map_nil] <;>
      exact ⟨_, rfl⟩
  obtain ⟨tail, hlns⟩ := hlns
  refine ⟨p.hasDouble, groupSize, (tail ++ rest).flatMap lines, ?_⟩
  rw [lines_intercalate (by simp [hlns]), hlns]
  have hseg : ∀ e : String, "#define psc_IS_SEG_START(i, a) (" ++ e ++ ")" =
      "#define " ++ segmentTest ++ " " ++ ("(" ++ e ++ ")") := by
    intro e
    rw [← String.append_assoc, ← String.append_assoc]
    rfl
  simp only [append_assoc, flatMap_append, hopening, flatMap_singleton, hcomb, hel, flatMap_map, hseg]

section Macros

variable {scanText inputText : String} (h : Opens source scanText inputText segmentStart)
  (hscanText : macroBody scan = .ok scanText) (hscan : '\\' ∉ scan.toList)
  (hinp : macroBody input = .ok inputText) (hinput : '\\' ∉ input.toList)

include h hscanText hscan hinp hinput in
lemma definition?_of_opens : ∃ rest, ∀ name ∈ [combination, elementValue, segmentTest], definition? name source =
      (macroLines combination "" (unmarked scan) "" :: macroLines elementValue "(" (unmarked input) ")" ::
        logicalLines ((segmentStart.toList.flatMap fun e =>
          lines ("#define " ++ segmentTest ++ " " ++ ("(" ++ e ++ ")"))) ++ rest)).findSome?
            (bodyAfter? ("#define " ++ name ++ " ")) := by
  obtain ⟨hasDouble, groupSize, rest, hlns⟩ := lines_of_opens h hscanText hinp
  have hopening := plain_opening hasDouble groupSize
  have hlogical : ∀ {name before after s : String}, '\\' ∉ ("#define " ++ name ++ " " ++ (before ++ s ++ after)).toList →
      ∀ ls, logicalLines (macroLines name before s after ++ ls) = macroLines name before s after :: logicalLines ls := by
    intro name before after s hpl ls
    obtain ⟨l, ls', hl⟩ := exists_lines ("#define " ++ name ++ " " ++ (before ++ s ++ after))
    exact logicalLines_continued (notMem_of_mem_lines hpl) (hl ▸ cons_ne_nil _ _) ls
  refine ⟨rest, fun name hname => ?_⟩
  rw [definition?, hlns, logicalLines_plain fun l hl => (hopening l hl).backslash, hlogical, hlogical,
    findSome?_append, findSome?_eq_none_iff.2, Option.none_or]
  · intro group hgrp
    obtain ⟨l, hl, rfl⟩ := mem_map.1 hgrp
    exact (hopening l hl).undefined name hname
  · have := notMem_unmarked hinput
    simpa [toList_append, this] using (by decide : '\\' ∉ elementValue.toList)
  · have := notMem_unmarked hscan
    simpa [toList_append, this] using (by decide : '\\' ∉ combination.toList)

variable {name before after : String}

lemma bodyAfter?_macroLines (hname : '\n' ∉ ("#define " ++ name ++ " ").toList) (s : String) :
    bodyAfter? ("#define " ++ name ++ " ") (macroLines name before s after) =
      some (continued (lines (before ++ s ++ after))) := by
  obtain ⟨l, ls, hl, hall⟩ := exists_continued hname (before ++ s ++ after)
  rw [macroLines, hall, hl, bodyAfter?_append]

lemma bodyAfter?_macroLines_apart {other : String} (hoth : '\n' ∉ ("#define " ++ other ++ " ").toList)
    (hapart : Apart ("#define " ++ name ++ " ") ("#define " ++ other ++ " ")) (s : String) :
    bodyAfter? ("#define " ++ name ++ " ") (macroLines other before s after) = none := by
  obtain ⟨l, ls, hl, hall⟩ := exists_continued hoth (before ++ s ++ after)
  rw [macroLines, hall, bodyAfter?_apart hapart]

include h hscanText hscan hinp hinput

lemma defines_combination : Defines source combination (unmarked scan) := by
  obtain ⟨rest, hmac⟩ := definition?_of_opens h hscanText hscan hinp hinput
  rw [Defines, hmac combination (by decide), findSome?_cons, bodyAfter?_macroLines (by decide)]
  simp

lemma defines_elementValue : Defines source elementValue ("(" ++ unmarked input ++ ")") := by
  obtain ⟨rest, hmac⟩ := definition?_of_opens h hscanText hscan hinp hinput
  rw [Defines, hmac elementValue (by decide), findSome?_cons,
    bodyAfter?_macroLines_apart (by decide) (by decide), findSome?_cons,
    bodyAfter?_macroLines (by decide)]

lemma definition?_segmentTest {e : String} (he : segmentStart = some e) (hpl : '\\' ∉ e.toList) :
    definition? segmentTest source = some ((lines ("(" ++ e ++ ")")).take 1) := by
  subst he
  obtain ⟨rest, hmac⟩ := definition?_of_opens h hscanText hscan hinp hinput
  obtain ⟨l, ls, hl⟩ := exists_lines ("(" ++ e ++ ")")
  have hlns := lines_append hl ("#define " ++ segmentTest ++ " ") (by decide)
  have hbsl : '\\' ∉ ("#define " ++ segmentTest ++ " " ++ ("(" ++ e ++ ")")).toList := by
    simpa [toList_append, hpl] using (by decide : '\\' ∉ segmentTest.toList)
  have hpl' := notMem_of_mem_lines hbsl
  rw [hlns] at hpl'
  rw [hmac segmentTest (by decide), findSome?_cons,
    bodyAfter?_macroLines_apart (by decide) (by decide), findSome?_cons,
    bodyAfter?_macroLines_apart (by decide) (by decide), Option.toList, flatMap_singleton, hlns,
    logicalLines_plain hpl', hl]
  simp [bodyAfter?_append]

end Macros

lemma length_continued (ls : List String) : (continued ls).length = ls.length := by
  fun_induction continued ls with
  | case1 | case2 => rfl
  | case3 l ls _ ih => rw [length_cons, length_cons, ih]

lemma take_lines_iff {e : String} : (lines ("(" ++ e ++ ")")).take 1 = continued (lines ("(" ++ unmarked e ++ ")")) ↔
      '\n' ∉ (unmarked e).toList := by
  constructor
  · intro h
    have hlen := congrArg List.length h
    obtain ⟨l, ls, hl⟩ := exists_lines ("(" ++ unmarked e ++ ")")
    rw [length_continued, hl, length_take, length_cons] at hlen
    obtain rfl : ls = [] := length_eq_zero_iff.1 (by omega)
    exact fun hmem => notMem_of_lines_eq hl (by simp [toList_append, hmem])
  · intro h
    have hsame := unmarked_eq h
    rw [hsame] at h ⊢
    have hnone : '\n' ∉ ("(" ++ e ++ ")").toList := by simpa [toList_append] using h
    rw [show lines ("(" ++ e ++ ")") = [_] from splitAt_of_notMem hnone]
    rfl

end Scan

namespace Host

open Source Scan

/-! ## Generated sources -/

/-- **Snippets in macros.** In all sources that are generated for a scan, the macros that combine values and that give
the values of elements are whole snippets, with a backslash after each line but the last. The macro that tells where
segments start is the first line of its snippet in the first and in the last kernel, so that it is whole exactly if the
snippet has no other lines. In the second kernel it is always whole. -/
theorem scanSources_macros (context : Context) (c : ScanCode) (hscan : '\\' ∉ c.scan.toList)
    (hinput : '\\' ∉ c.input.toList) (hseg : ∀ e ∈ c.segmentStart, '\\' ∉ e.toList) :
    Gives (prepareScan context c >>= scanSources) fun x =>
      (∀ k ∈ [x.first, x.second, x.update], Defines k.text combination (unmarked c.scan)) ∧
      (∀ k ∈ [x.first, x.update], Defines k.text elementValue ("(" ++ unmarked c.input ++ ")") ∧
        ∀ e ∈ c.segmentStart, definition? segmentTest k.text = some ((Text.lines ("(" ++ e ++ ")")).take 1) ∧
          (Defines k.text segmentTest ("(" ++ unmarked e ++ ")") ↔ '\n' ∉ (unmarked e).toList)) ∧
      Defines x.second.text elementValue "(interval_sums[i])" ∧
      (c.segmentStart.isSome → Defines x.second.text segmentTest
        "(g_first_segment_start_in_interval_input[i] != NO_SEG_BOUNDARY)") := by
  intro w
  refine Leads.bind (reaches_prepareScan context c) ?_ fun _ _ _ => trivial
  rintro s w₁ ⟨-, hs⟩
  obtain rfl := hs.code
  have hscanText := hs.scanMacro
  refine Leads.mono (reaches_scanSources s) ?_ fun _ _ _ => trivial
  rintro x - ⟨-, element, hx⟩
  have hinp := hx.input
  have hlev : ∀ k ∈ [x.first, x.update], Opens k.text s.scanMacro element s.code.segmentStart :=
    forall_mem_cons.2 ⟨opens_of_generates hx.first, forall_mem_singleton.2 (opens_of_generatesUpdate hx.update)⟩
  have hsnd := opens_of_generates hx.second
  have hfix : macroBody "interval_sums[i]" = .ok "interval_sums[i]" := by decide
  have hpl : '\\' ∉ "interval_sums[i]".toList := by decide
  have hsecondScan := defines_combination hsnd hscanText hscan hfix hpl
  have hfst := fun k hk => defines_combination (hlev k hk) hscanText hscan hinp hinput
  refine ⟨?_, fun k hk => ⟨?_, fun e he => ?_⟩, ?_, fun hsegmented => ?_⟩
  · rw [forall_mem_cons, forall_mem_singleton] at hfst
    rw [forall_mem_cons, forall_mem_cons, forall_mem_singleton]
    exact ⟨hfst.1, hsecondScan, hfst.2⟩
  · exact defines_elementValue (hlev k hk) hscanText hscan hinp hinput
  · have hline := definition?_segmentTest (hlev k hk) hscanText hscan hinp hinput he (hseg e he)
    refine ⟨hline, ?_⟩
    rw [Defines, hline, Option.some.injEq]
    exact take_lines_iff
  · have hv := defines_elementValue hsnd hscanText hscan hfix hpl
    rwa [show "(" ++ unmarked "interval_sums[i]" ++ ")" = "(interval_sums[i])" by decide] at hv
  · obtain ⟨e, he⟩ := Option.isSome_iff_exists.1 hsegmented
    rw [he] at hsnd
    have hline := definition?_segmentTest hsnd hscanText hscan hfix hpl (Option.map_some _ _) (by decide)
    rw [Defines, hline]
    decide

def segmentedSum : ScanCode where
  type := .number .int32
  arguments := .items [.inr (.vector (.number .int32) "ary" false)]
  input := "ary[i]"
  scan := "across_seg_boundary ? b :\na + b"
  neutral := some "0"
  output := "ary[i] = item"
  segmentStart := some "ary[i] == 0\n|| ary[i] == 1"

theorem scanSources_macros_sum :
    '\n' ∈ segmentedSum.scan.toList ∧ '\\' ∉ segmentedSum.scan.toList ∧
      Gives (prepareScan ⟨0, [⟨0, 0⟩]⟩ segmentedSum >>= scanSources) fun x =>
        definition? combination x.first.text = some ["across_seg_boundary ? b : \\", "a + b"] ∧
          definition? segmentTest x.first.text = some ["(ary[i] == 0"] := by
  have hscan : '\\' ∉ segmentedSum.scan.toList := by decide
  have hseg : ∀ e ∈ segmentedSum.segmentStart, '\\' ∉ e.toList := by
    rintro e ⟨⟩
    decide
  refine ⟨by decide, hscan, fun w => ?_⟩
  refine (scanSources_macros ⟨0, [⟨0, 0⟩]⟩ segmentedSum hscan (by decide) hseg w).imp ?_
  rintro x - ⟨hcomb, hlev, -⟩
  refine ⟨(hcomb _ mem_cons_self).trans (by decide), ?_⟩
  exact (((hlev _ mem_cons_self).2 _ rfl).1).trans (by decide)

theorem segmentTest_cut :
    ∃ p : IntervalParts, p.common.segmentStart = segmentedSum.segmentStart ∧
      macroBody segmentedSum.scan = .ok p.common.scan ∧ macroBody segmentedSum.input = .ok p.common.input ∧
      definition? segmentTest p.text = some ["(ary[i] == 0"] ∧
      ¬ Defines p.text segmentTest "(ary[i] == 0\n|| ary[i] == 1)" := by
  have hscan : macroBody segmentedSum.scan = .ok "across_seg_boundary ? b : \\\na + b" := by decide
  have hinput : macroBody segmentedSum.input = .ok "ary[i]" := by decide
  let p : IntervalParts := { (default : IntervalParts) with common := { (default : CommonParts) with
    scan := "across_seg_boundary ? b : \\\na + b", input := "ary[i]", segmentStart := segmentedSum.segmentStart } }
  have hline := definition?_segmentTest (opens_interval p) hscan (by decide) hinput (by decide)
    (e := "ary[i] == 0\n|| ary[i] == 1") rfl (by decide)
  have hfst : (Text.lines ("(" ++ "ary[i] == 0\n|| ary[i] == 1" ++ ")")).take 1 = ["(ary[i] == 0"] := by decide
  rw [hfst] at hline
  refine ⟨p, rfl, hscan, hinput, hline, ?_⟩
  rw [Defines, hline]
  decide

end Host

end ClHost
