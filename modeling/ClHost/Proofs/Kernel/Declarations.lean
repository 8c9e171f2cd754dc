import ClHost.Proofs.CType.Pointers
import ClHost.Proofs.Kernel.Arguments

/-!
# Parameters of a signature

The parameters of a generated kernel stand between commas, on one line or on many, with blanks and comments around
them.
-/

namespace ClHost

open String (intercalate toList_append toList_ofList ofList_toList)
open List Text ClHost.Lists

namespace Text

lemma strip_between {before after : List Char} {s : String} (hbef : ∀ c ∈ before, isBlank c = true)
    (haft : ∀ c ∈ after, isBlank c = true) (hfst : s.toList.head?.map isBlank = some false)
    (hlast : s.toList.getLast?.map isBlank = some false) : strip (String.ofList (before ++ s.toList ++ after)) = s := by
  have hleft : (before ++ s.toList ++ after).dropWhile isBlank = s.toList ++ after := by
    rw [append_assoc, dropWhile_append_of_pos hbef]
    obtain ⟨c, cs, hcs⟩ : ∃ c cs, s.toList = c :: cs := by
      cases hs : s.toList with
      | nil => simp [hs] at hfst
      | cons c cs => exact ⟨c, cs, rfl⟩
    have hc : isBlank c = false := by simpa [hcs] using hfst
    rw [hcs, cons_append, dropWhile_cons_of_neg (by simp [hc])]
  have hright : ((s.toList ++ after).reverse.dropWhile isBlank).reverse = s.toList := by
    rw [reverse_append, dropWhile_append_of_pos fun c hc => haft c (mem_reverse.1 hc)]
    rw [getLast?_eq_head?_reverse] at hlast
    cases hs : s.toList.reverse with
    | nil => simp [hs] at hlast
    | cons c =>
      have hc : isBlank c = false := by simpa [hs] using hlast
      rw [dropWhile_cons_of_neg (by simp [hc]), ← hs, reverse_reverse]
  rw [strip, stripRight, stripLeft, toList_ofList, toList_ofList, hleft, hright, ofList_toList]

end Text

namespace Source

def parametersOf (list : String) : List String :=
  (splitAt ',' (String.ofList (withoutComments .code list.toList))).map strip

def declaredName (declaration : String) : String :=
  String.ofList (declaration.toList.reverse.takeWhile isWordChar).reverse

def IsDeclaration (d : String) : Prop :=
  (∀ c ∈ d.toList, c ≠ ',' ∧ c ≠ '/' ∧ c ≠ ')') ∧ d.toList.head?.map isBlank = some false ∧
    d.toList.getLast?.map isBlank = some false

instance (d : String) : Decidable (IsDeclaration d) := @instDecidableAnd _ _ (List.decidableBAll _ _) _

def IsGap (s : String) : Prop :=
  ')' ∉ s.toList ∧ ∃ blanks : List Char, (∀ c ∈ blanks, isBlank c = true) ∧
    ∀ rest, withoutComments .code (s.toList ++ rest) = blanks ++ withoutComments .code rest

inductive Lists : List String → String → Prop
  | last {before d after : String} (hbef : IsGap before) (hd : IsDeclaration d) (haft : IsGap after) :
      Lists [d] (before ++ d ++ after)
  | cons {before d after rest : String} {ds : List String} (hbef : IsGap before) (hd : IsDeclaration d)
      (haft : IsGap after) (hrest : Lists ds rest) : Lists (d :: ds) (before ++ d ++ after ++ "," ++ rest)

def Signs (source name : String) (declarations : List String) : Prop :=
  ∃ before list after, source = before ++ "void " ++ name ++ "(" ++ list ++ ")" ++ after ∧ ')' ∉ list.toList ∧
    parametersOf list = declarations

/-! ## Gaps -/

variable {cs : List Char} {s d g name : String} {middle : List String}

lemma withoutComments_append (h : '/' ∉ cs) (rest : List Char) :
    withoutComments .code (cs ++ rest) = cs ++ withoutComments .code rest := by
  induction cs with
  | nil => rfl
  | cons c cs ih =>
    obtain ⟨hc, hcs⟩ := ne_and_not_mem_of_not_mem_cons h
    rw [cons_append, withoutComments, ih hcs, cons_append]
    · rintro _ rfl
      exact absurd rfl hc
    · rintro _ rfl
      exact absurd rfl hc

lemma withoutComments_line (h : '\n' ∉ cs) (rest : List Char) :
    withoutComments .line (cs ++ '\n' :: rest) = '\n' :: withoutComments .code rest := by
  induction cs with
  | nil => rfl
  | cons c cs ih =>
    obtain ⟨hc, hcs⟩ := ne_and_not_mem_of_not_mem_cons h
    rw [cons_append, withoutComments, if_neg (by simpa using hc.symm), ih hcs]

lemma IsGap.of_blank (h : ∀ c ∈ s.toList, isBlank c = true) : IsGap s := by
  have hmark : ∀ {c : Char}, isBlank c = false → c ∉ s.toList := by
    intro c hc hmem
    rw [h c hmem] at hc
    cases hc
  exact ⟨hmark (by decide), s.toList, h, withoutComments_append (hmark (by decide))⟩

lemma IsGap.of_comment (note : String) (hline : '\n' ∉ note.toList) (hclose : ')' ∉ note.toList) :
    IsGap ("//" ++ note ++ "\n") := by
  refine ⟨by simp [hclose], ['\n'], all_eq_true.1 (by decide), fun rest => ?_⟩
  have hspl : ("//" ++ note ++ "\n").toList ++ rest = '/' :: '/' :: (note.toList ++ '\n' :: rest) := by simp
  rw [hspl, withoutComments, withoutComments_line hline, singleton_append]

lemma IsGap.append {t : String} (hs : IsGap s) (ht : IsGap t) : IsGap (s ++ t) := by
  obtain ⟨hclose, blanks, hbls, hread⟩ := hs
  obtain ⟨hclose', blanks', hbls', hread'⟩ := ht
  refine ⟨by simp [hclose, hclose'], blanks ++ blanks', ?_, fun rest => ?_⟩
  · exact fun c hc => (mem_append.1 hc).elim (hbls c) (hbls' c)
  · rw [toList_append, append_assoc, hread, hread', append_assoc]

lemma isGap_empty : IsGap "" := .of_blank (by simp)

lemma isGap_space : IsGap " " := .of_blank (all_eq_true.1 (by decide))

lemma isGap_newline : IsGap "\n" := .of_blank (all_eq_true.1 (by decide))

/-! ## Lists -/

variable {ds es : List String} {s t : String}

lemma Lists.one (hd : IsDeclaration d) : Lists [d] d := by
  have h := last isGap_empty hd isGap_empty
  rwa [String.empty_append, String.append_empty] at h

lemma Lists.append (hs : Lists ds s) (ht : Lists es t) : Lists (ds ++ es) (s ++ "," ++ t) := by
  induction hs with
  | last hbef hd haft => exact .cons hbef hd haft ht
  | cons hbef hd haft _ ih =>
    have h := cons hbef hd haft ih
    simpa only [String.append_assoc, cons_append] using h

lemma Lists.gap_append (hg : IsGap g) (hs : Lists ds s) : Lists ds (g ++ s) := by
  cases hs with
  | last hbef hd haft =>
    have h := last (hg.append hbef) hd haft
    simpa only [String.append_assoc] using h
  | cons hbef hd haft hrest =>
    have h := cons (hg.append hbef) hd haft hrest
    simpa only [String.append_assoc] using h

lemma Lists.append_gap (hs : Lists ds s) (hg : IsGap g) : Lists ds (s ++ g) := by
  induction hs with
  | last hbef hd haft =>
    have h := last hbef hd (haft.append hg)
    simpa only [String.append_assoc] using h
  | cons hbef hd haft _ ih =>
    have h := cons hbef hd haft ih
    simpa only [String.append_assoc] using h

lemma Lists.intercalate {α : Type} {declarations : α → List String} {text : α → String} {xs : List α}
    (h : ∀ x ∈ xs, Lists (declarations x) (text x)) (hne : xs ≠ []) :
    Lists (xs.flatMap declarations) (String.intercalate ", " (xs.map text)) := by
  induction xs with
  | nil => exact absurd rfl hne
  | cons x xs ih =>
    obtain ⟨hx, hxs⟩ := forall_mem_cons.1 h
    cases xs with
    | nil => simpa using hx
    | cons y ys =>
      have hjoined := hx.append (gap_append isGap_space (ih hxs (cons_ne_nil _ _)))
      have htext : String.intercalate ", " ((x :: y :: ys).map text) =
          text x ++ "," ++ (" " ++ String.intercalate ", " ((y :: ys).map text)) := by
        rw [map_cons, map_cons, String.intercalate_cons_cons]
        simp only [String.append_assoc]
        rfl
      rw [htext]
      exact hjoined

lemma Lists.of_intercalate (h : ∀ d ∈ ds, IsDeclaration d) (hne : ds ≠ []) : Lists ds (String.intercalate ", " ds) := by
  have hall := @Lists.intercalate String (fun d => [d]) id ds (fun d hd => one (h d hd)) hne
  simpa using hall

lemma exists_piece {before after : String} (hbef : IsGap before) (hd : IsDeclaration d) (haft : IsGap after) :
    ∃ piece : String, ',' ∉ piece.toList ∧ strip piece = d ∧ ∀ rest,
      withoutComments .code ((before ++ d ++ after).toList ++ rest) = piece.toList ++ withoutComments .code rest := by
  obtain ⟨-, blanks, hbls, hread⟩ := hbef
  obtain ⟨-, blanks', hbls', hread'⟩ := haft
  obtain ⟨hpl, hfst, hlast⟩ := hd
  refine ⟨String.ofList (blanks ++ d.toList ++ blanks'), ?_, strip_between hbls hbls' hfst hlast, ?_⟩
  · have hcomma : ∀ {cs : List Char}, (∀ c ∈ cs, isBlank c = true) → ',' ∉ cs :=
      fun h hmem => absurd (h ',' hmem) (by decide)
    have hd : ',' ∉ d.toList := fun hmem => (hpl _ hmem).1 rfl
    simp [hcomma hbls, hcomma hbls', hd]
  · intro rest
    have hd : '/' ∉ d.toList := fun hmem => (hpl _ hmem).2.1 rfl
    simp only [toList_append, toList_ofList, append_assoc]
    rw [hread, withoutComments_append hd, hread']

/-- **The declarations that a text lists are those that are read from it.** -/
lemma Lists.parametersOf_eq (h : Lists ds s) : parametersOf s = ds := by
  induction h with
  | last hbef hd haft =>
    obtain ⟨piece, hcomma, hstrip, hread⟩ := exists_piece hbef hd haft
    have hall := hread []
    rw [append_nil, withoutComments, append_nil] at hall
    rw [parametersOf, hall, ofList_toList, splitAt_of_notMem hcomma, map_singleton, hstrip]
  | @cons before d after rest ds hbef hd haft _ ih =>
    obtain ⟨piece, hcomma, hstrip, hread⟩ := exists_piece hbef hd haft
    have hall : String.ofList (withoutComments .code (before ++ d ++ after ++ "," ++ rest).toList) =
        piece ++ "," ++ String.ofList (withoutComments .code rest.toList) := by
      have hspl : (before ++ d ++ after ++ "," ++ rest).toList = (before ++ d ++ after).toList ++ (',' :: rest.toList) := by
        simp
      rw [hspl, hread, ← singleton_append, withoutComments_append (by decide)]
      simp [String.append_assoc]
    rw [parametersOf, hall, splitAt_append hcomma, map_cons, hstrip]
    exact congrArg (d :: ·) ih

lemma Lists.notMem_close (h : Lists ds s) : ')' ∉ s.toList := by
  have hdecl : ∀ {d : String}, IsDeclaration d → ')' ∉ d.toList := fun hd hmem => (hd.1 _ hmem).2.2 rfl
  induction h with
  | last hbef hd haft => simp [hbef.1, hdecl hd, haft.1]
  | cons hbef hd haft _ ih => simp [hbef.1, hdecl hd, haft.1, ih]

lemma exists_intercalate_eq (before : List String) (hne : middle ≠ []) (after : List String) :
    ∃ s t, intercalate "\n" (before ++ middle ++ after) = s ++ intercalate "\n" middle ++ t := by
  have hfr : ∃ s, intercalate "\n" (before ++ middle) = s ++ intercalate "\n" middle := by
    by_cases hbef : before = []
    · exact ⟨"", by rw [hbef, nil_append, String.empty_append]⟩
    · exact ⟨_, String.intercalate_append_of_ne_nil hbef hne⟩
  obtain ⟨s, hs⟩ := hfr
  by_cases haft : after = []
  · exact ⟨s, "", by rw [haft, append_nil, hs, String.append_empty]⟩
  · refine ⟨s, "\n" ++ intercalate "\n" after, ?_⟩
    rw [String.intercalate_append_of_ne_nil (by simp [hne]) haft, hs, String.append_assoc]

lemma Lists.signs_lines (h : Lists ds s) {before after : List String} (mark : String) (rest : String)
    (hmid : String.intercalate "\n" middle = mark ++ "void " ++ name ++ "(" ++ s ++ ")" ++ rest) :
    Signs (String.intercalate "\n" (before ++ middle ++ after)) name ds := by
  have hne : middle ≠ [] := by
    rintro rfl
    have hopen := congrArg (fun t : String => '(' ∈ t.toList) hmid
    simp at hopen
  obtain ⟨t, u, htext⟩ := exists_intercalate_eq before hne after
  refine ⟨t ++ mark, s, rest ++ u, ?_, h.notMem_close, h.parametersOf_eq⟩
  rw [htext, hmid]
  simp only [String.append_assoc]

lemma mem_lines_intercalate {l : String} {ls : List String} (h : l ∈ ls) (hline : '\n' ∉ l.toList) :
    l ∈ lines (intercalate "\n" ls) := by
  induction ls with
  | nil => cases h
  | cons x ls ih =>
    by_cases hls : ls = []
    · obtain rfl : l = x := by simpa [hls] using h
      rw [hls, String.intercalate_singleton, lines, splitAt_of_notMem hline]
      exact mem_singleton.2 rfl
    · rw [String.intercalate_cons_of_ne_nil hls, lines, splitAt_between rfl, mem_append]
      rcases mem_cons.1 h with rfl | h
      · refine .inl ?_
        rw [splitAt_of_notMem hline]
        exact mem_singleton.2 rfl
      · exact .inr (ih h)

/-! ## Names -/

lemma declaredName_append {before : List Char} {c : Char} {declaration : String}
    (hdecl : declaration.toList = before ++ c :: name.toList) (hc : isWordChar c = false)
    (hname : ∀ c ∈ name.toList, isWordChar c = true) : declaredName declaration = name := by
  have hrev : declaration.toList.reverse = name.toList.reverse ++ c :: before.reverse := by simp [hdecl]
  rw [declaredName, hrev, takeWhile_append_of_pos fun c hc => hname c (mem_reverse.1 hc),
    takeWhile_cons_of_neg (by simp [hc]), append_nil, reverse_reverse, ofList_toList]

end Source

open Except Source

/-! ## Words -/

namespace Text

def IsIdentifier (s : String) : Prop := s.toList ≠ [] ∧ ∀ c ∈ s.toList, isWordChar c = true

instance (s : String) : Decidable (IsIdentifier s) := @instDecidableAnd _ _ _ (List.decidableBAll _ _)

def IsPhrase (s : String) : Prop :=
  s.toList.head?.map isWordChar = some true ∧ ∀ c ∈ s.toList, isWordChar c = true ∨ c = ' '

instance (s : String) : Decidable (IsPhrase s) := @instDecidableAnd _ _ _ (List.decidableBAll _ _)

variable {s : String} {c : Char}

lemma IsIdentifier.append {t : String} (hs : IsIdentifier s) (ht : ∀ c ∈ t.toList, isWordChar c = true) :
    IsIdentifier (s ++ t) := by
  refine ⟨by simp [hs.1], fun c hc => ?_⟩
  rw [toList_append, mem_append] at hc
  exact hc.elim (hs.2 c) (ht c)

lemma IsIdentifier.notMem (hs : IsIdentifier s) (hc : isWordChar c = false) : c ∉ s.toList := by
  intro hmem
  rw [hs.2 c hmem] at hc
  cases hc

lemma IsPhrase.notMem (hs : IsPhrase s) (hc : isWordChar c = false) (hbl : c ≠ ' ') : c ∉ s.toList := by
  intro hmem
  rcases hs.2 c hmem with h | h
  · rw [h] at hc
    cases hc
  · exact hbl h

end Text

def TypeRegistry.Speaks (r : TypeRegistry) : Prop := ∀ t c, r.typeName t = .ok c → IsPhrase c

def KernelArgument.Named : KernelArgument → Prop
  | .vector _ n _ | .scalar _ n => IsIdentifier n
  | _ => False

/-! ## Types of declarations -/

namespace Source

/-- The element type that a type of a source stands for: one that has this name, a type of the kernel language, one that
is only read, or one that a line of the source gives this name. -/
inductive Denotes (r : TypeRegistry) (source : String) : String → ElementType → Prop
  | registered {c : String} {t : ElementType} (h : r.typeName t = .ok c) : Denotes r source c t
  | language {c : String} {t : ElementType} (h : ∃ names, (names, t) ∈ TypeRegistry.kernelTypes ∧ c ∈ names) :
      Denotes r source c t
  | const {c : String} {t : ElementType} (h : Denotes r source c t) : Denotes r source ("const " ++ c) t
  | alias {c name : String} {t : ElementType} (hline : "typedef " ++ c ++ " " ++ name ++ ";" ∈ lines source)
      (h : Denotes r source c t) : Denotes r source name t

inductive Declares (r : TypeRegistry) (source : String) : String → Option ElementType → Prop
  | pointer {d : String} (hstar : '*' ∈ d.toList) : Declares r source d none
  | value {c d : String} {t : ElementType} (hstar : '*' ∉ d.toList) (hd : d = c ++ " " ++ declaredName d)
      (h : Denotes r source c t) : Declares r source d (some t)

def Receives (d : String) (x : String × Actual) : Prop := declaredName d = x.1 ∧ ('*' ∈ d.toList → ∃ b, x.2 = .buffer b)

end Source

def KernelSource.Takes (s : KernelSource) (r : TypeRegistry) (declarations : List String) : Prop :=
  Signs s.text s.name declarations ∧ List.Forall₂ (fun d p => Declares r s.text d p.type?) declarations s.passed

def Parameter.Typed (r : TypeRegistry) (source : String) (p : Parameter) : Prop :=
  IsDeclaration p.declaration ∧ ∃ q, p.passed = some q ∧ Declares r source p.declaration q.type?

section Typed

variable {r : TypeRegistry} {source : String} {ps : List Parameter}

lemma Parameter.forall₂_typed (h : ∀ p ∈ ps, p.Typed r source) :
    List.Forall₂ (fun d (q : PassedType) => Declares r source d q.type?) (ps.map (·.declaration))
      (ps.filterMap (·.passed)) := by
  induction ps with
  | nil => exact .nil
  | cons p ps ih =>
    obtain ⟨⟨-, q, hq, hp⟩, hps⟩ := forall_mem_cons.1 h
    rw [filterMap_cons_some hq]
    exact .cons hp (ih hps)

lemma Parameter.isDeclaration_of_typed (h : ∀ p ∈ ps, p.Typed r source) :
    ∀ d ∈ ps.map (·.declaration), IsDeclaration d := by
  intro d hd
  obtain ⟨p, hp, rfl⟩ := mem_map.1 hd
  exact (h p hp).1

end Typed

/-! ## Parameters of arguments -/

namespace Source

variable {r : TypeRegistry} {source before name : String}

lemma isMark_of_all {cs : List Char} (h : cs.all (fun c => isWordChar c || c == ' ' || c == '*') = true) :
    ∀ c ∈ cs, isWordChar c = true ∨ c = ' ' ∨ c = '*' := by
  simpa [or_assoc] using h

lemma isDeclaration_append (hfst : before.toList.head?.map isBlank = some false)
    (hbef : ∀ c ∈ before.toList, isWordChar c = true ∨ c = ' ' ∨ c = '*') (hname : IsIdentifier name) :
    IsDeclaration (before ++ name) := by
  refine ⟨fun c hc => ?_, ?_, ?_⟩
  · have hmarks : isWordChar c = true ∨ c = ' ' ∨ c = '*' := by
      rw [toList_append, mem_append] at hc
      exact hc.elim (hbef c) fun hc => .inl (hname.2 c hc)
    refine ⟨?_, ?_, ?_⟩ <;> rintro rfl <;> revert hmarks <;> decide
  · cases hb : before.toList.head? with
    | none => simp [hb] at hfst
    | some => simpa [hb] using hfst
  · obtain ⟨cs, c, hcs⟩ := eq_nil_or_concat name.toList |>.resolve_left hname.1
    have hc : isWordChar c = true := hname.2 c (by simp [hcs])
    simp [hcs, isBlank_of_isWordChar hc]

section Kinds

variable {c n : String} (hc : IsPhrase c) (hn : IsIdentifier n)

include hn in
lemma declaredName_pointer (c : String) : declaredName ("__global " ++ c ++ " *" ++ n) = n := by
  have hspl : ("__global " ++ c ++ " *" ++ n).toList = ("__global " ++ c ++ " ").toList ++ '*' :: n.toList := by simp
  exact declaredName_append hspl (by decide) hn.2

include hn in
lemma declaredName_value (c : String) : declaredName (c ++ " " ++ n) = n := by
  have hspl : (c ++ " " ++ n).toList = c.toList ++ ' ' :: n.toList := by simp
  exact declaredName_append hspl (by decide) hn.2

include hc hn

lemma typed_pointer : Parameter.Typed r source ⟨"__global " ++ c ++ " *" ++ n, some .buffer⟩ := by
  refine ⟨isDeclaration_append (by simp; decide) (fun ch hch => ?_) hn, _, rfl, .pointer (by simp)⟩
  simp only [toList_append, mem_append] at hch
  rcases hch with (hch | hch) | hch
  · exact isMark_of_all (by decide) ch hch
  · exact (hc.2 ch hch).imp_right .inl
  · exact isMark_of_all (by decide) ch hch

lemma notMem_star_value : '*' ∉ (c ++ " " ++ n).toList := by
  simp [hc.notMem (by decide : isWordChar '*' = false) (by decide), hn.notMem (by decide : isWordChar '*' = false)]

lemma typed_value {t : ElementType} {q : PassedType} (h : Denotes r source c t) (hq : q.type? = some t) :
    Parameter.Typed r source ⟨c ++ " " ++ n, some q⟩ := by
  refine ⟨isDeclaration_append ?_ (fun ch hch => ?_) hn, q, rfl, ?_⟩
  · cases hhead : c.toList.head? with
    | none => simp [IsPhrase, hhead] at hc
    | some ch =>
      have hword : isWordChar ch = true := by simpa [hhead] using hc.1
      simp [hhead, isBlank_of_isWordChar hword]
  · simp only [toList_append, mem_append] at hch
    rcases hch with hch | hch
    · exact (hc.2 ch hch).imp_right .inl
    · exact isMark_of_all (by decide) ch hch
  · rw [hq]
    exact .value (notMem_star_value hc hn) (by rw [declaredName_value hn]) h

end Kinds

end Source

def namedValues : KernelArgument × Actual → List (String × Actual)
  | (.vector _ n withOffset, .array a) =>
    if withOffset then [(n ++ "__base", .buffer a.buffer), (n ++ "__offset", .literal (.int a.offset))]
    else [(n, .buffer a.buffer)]
  | (.scalar _ n, v) => [(n, v)]
  | _ => []

namespace KernelArgument

variable {r : TypeRegistry} {source : String} {a : KernelArgument} {ps : List Parameter}

variable {n : String}

lemma isIdentifier_base (hn : IsIdentifier n) : IsIdentifier (n ++ "__base") := hn.append (all_eq_true.1 (by decide))

lemma isIdentifier_offset (hn : IsIdentifier n) : IsIdentifier (n ++ "__offset") :=
  hn.append (all_eq_true.1 (by decide))

lemma isPhrase_long : IsPhrase "long" := by decide

lemma denotes_long : Denotes r source "long" (.number .int64) :=
  .language ⟨["long", "long int", "signed long int", "long signed int"], by simp [TypeRegistry.kernelTypes], by simp⟩

section Argument

variable (hr : r.Speaks) (ha : a.Named) (h : a.parameters r = .ok ps)

include hr ha h

lemma parameters_cases : (∃ t n c, a = .vector t n false ∧ IsIdentifier n ∧ IsPhrase c ∧
      ps = [⟨"__global " ++ c ++ " *" ++ n, some .buffer⟩]) ∨
    (∃ t n c, a = .vector t n true ∧ IsIdentifier n ∧ IsPhrase c ∧
      ps = [⟨"__global " ++ c ++ " *" ++ (n ++ "__base"), some .buffer⟩,
        ⟨"long" ++ " " ++ (n ++ "__offset"), some .offset⟩]) ∨
    ∃ t n c, a = .scalar t n ∧ IsIdentifier n ∧ r.typeName t = .ok c ∧ IsPhrase c ∧
      ps = [⟨c ++ " " ++ n, some (.value t)⟩] := by
  cases a with
  | vector t n withOffset =>
    obtain ⟨c, hc, h⟩ := of_bind_ok h
    cases withOffset with
    | false => exact .inl ⟨t, n, c, rfl, ha, hr t c hc, (ok.inj h).symm⟩
    | true =>
      refine .inr (.inl ⟨t, n, c, rfl, ha, hr t c hc, (ok.inj h).symm.trans ?_⟩)
      simp only [← String.append_assoc]
      rfl
  | scalar t n =>
    obtain ⟨c, hc, h⟩ := of_bind_ok h
    exact .inr (.inr ⟨t, n, c, rfl, ha, hc, hr t c hc, (ok.inj h).symm⟩)
  | other => exact ha.elim
  | foreign => exact ha.elim

/-- **The parameters of an argument are passed by the types of their declarations.** -/
lemma parameters_typed : ∀ p ∈ ps, p.Typed r source := by
  rcases parameters_cases hr ha h with ⟨t, n, c, -, hn, hc, rfl⟩ | ⟨t, n, c, -, hn, hc, rfl⟩ |
    ⟨t, n, c, -, hn, hname, hc, rfl⟩
  · exact forall_mem_singleton.2 (typed_pointer hc hn)
  · exact forall_mem_cons.2 ⟨typed_pointer hc (isIdentifier_base hn),
      forall_mem_singleton.2 (typed_value isPhrase_long (isIdentifier_offset hn) denotes_long rfl)⟩
  · exact forall_mem_singleton.2 (typed_value hc hn (.registered hname) rfl)

/-- **The parameters of an argument receive what is passed for it.** -/
lemma parameters_receive {v : Actual}
    (hfits : Fits (a, v)) : List.Forall₂ Receives (ps.map (·.declaration)) (namedValues (a, v)) ∧
      (namedValues (a, v)).map (·.2) = passedValues (a, v) := by
  rcases parameters_cases hr ha h with ⟨t, n, c, rfl, hn, hc, rfl⟩ | ⟨t, n, c, rfl, hn, hc, rfl⟩ |
    ⟨t, n, c, rfl, hn, -, hc, rfl⟩
  · obtain ⟨a, rfl⟩ := hfits
    exact ⟨.cons ⟨declaredName_pointer hn c, fun _ => ⟨_, rfl⟩⟩ .nil, rfl⟩
  · obtain ⟨a, rfl⟩ := hfits
    have hoff := isIdentifier_offset hn
    refine ⟨.cons ⟨declaredName_pointer (isIdentifier_base hn) c, fun _ => ⟨_, rfl⟩⟩
      (.cons ⟨declaredName_value hoff _, fun hstar => ?_⟩ .nil), rfl⟩
    exact absurd hstar (notMem_star_value isPhrase_long hoff)
  · exact ⟨.cons ⟨declaredName_value hn c, fun hstar => absurd hstar (notMem_star_value hc hn)⟩ .nil, rfl⟩

lemma parameters_ne_nil : ps ≠ [] := by
  rcases parameters_cases hr ha h with ⟨t, n, c, -, -, -, rfl⟩ | ⟨t, n, c, -, -, -, rfl⟩ | ⟨t, n, c, -, -, -, -, rfl⟩ <;>
    exact cons_ne_nil _ _

lemma lists_declarator : Source.Lists (ps.map (·.declaration)) (intercalate ", " (ps.map (·.declaration))) := by
  have htyd : ∀ p ∈ ps, p.Typed r "" := parameters_typed hr ha h
  exact .of_intercalate (Parameter.isDeclaration_of_typed htyd) (by simpa using parameters_ne_nil hr ha h)

end Argument

/-! ## Lists of arguments -/

section Arguments

variable {args : List KernelArgument} {pss : List (List Parameter)} {texts : List String}

lemma passedTypes_eq {types : List PassedType} (hpss : args.mapM (parameters r) = .ok pss)
    (htys : passedTypes args = .ok types) : types = pss.flatten.filterMap (·.passed) := by
  have hall := mapM_ok_iff.1 hpss
  clear hpss
  induction hall generalizing types with
  | nil => exact (ok.inj htys).symm
  | @cons a ps args pss hps _ ih =>
    rw [flatten_cons, filterMap_append]
    cases a with
    | vector t n withOffset =>
      obtain ⟨rest, hrest, htys⟩ := of_bind_ok htys
      obtain ⟨c, -, hps⟩ := of_bind_ok hps
      rw [← ih hrest, ← ok.inj htys]
      cases withOffset <;> cases hps <;> rfl
    | scalar =>
      obtain ⟨rest, hrest, htys⟩ := of_bind_ok htys
      obtain ⟨c, -, hps⟩ := of_bind_ok hps
      rw [← ih hrest, ← ok.inj htys]
      cases hps
      rfl
    | other => cases htys
    | foreign => cases htys

lemma exists_of_mapM_declarator (h : args.mapM (declarator r) = .ok texts) : ∃ pss, args.mapM (parameters r) = .ok pss ∧
      texts = pss.map fun ps => intercalate ", " (ps.map (·.declaration)) := by
  induction args generalizing texts with
  | nil => exact ⟨[], rfl, (ok.inj h).symm⟩
  | cons a args ih =>
    rw [mapM_cons] at h
    obtain ⟨text, htext, h⟩ := of_bind_ok h
    obtain ⟨rest, hrest, h⟩ := of_bind_ok h
    obtain ⟨ps, hps, htext⟩ := of_bind_ok htext
    obtain ⟨pss, hpss, rfl⟩ := ih hrest
    refine ⟨ps :: pss, ?_, ?_⟩
    · rw [mapM_cons, hps, hpss]
      rfl
    · rw [← ok.inj h, ← ok.inj htext, map_cons]

section Named

variable (hr : r.Speaks) (hargs : ∀ a ∈ args, a.Named) (hpss : args.mapM (parameters r) = .ok pss)

include hr hargs hpss

lemma mapM_parameters_typed : ∀ p ∈ pss.flatten, p.Typed r source := by
  intro p hp
  obtain ⟨ps, hps, hp⟩ := mem_flatten.1 hp
  obtain ⟨a, ha, hpars⟩ := exists_of_forall₂_of_mem (mapM_ok_iff.1 hpss) hps
  exact parameters_typed hr (hargs a ha) hpars p hp

/-- **All parameters of arguments receive what is passed for them.** -/
lemma mapM_parameters_receive {values : List Actual} (hlen : values.length = args.length)
    (hfits : ∀ x ∈ args.zip values, Fits x) :
    List.Forall₂ Receives (pss.flatten.map (·.declaration)) ((args.zip values).flatMap namedValues) ∧
      ((args.zip values).flatMap namedValues).map (·.2) = (args.zip values).flatMap passedValues := by
  have hall := mapM_ok_iff.1 hpss
  clear hpss
  induction hall generalizing values with
  | nil => exact ⟨.nil, rfl⟩
  | @cons a ps args pss hps _ ih =>
    obtain ⟨v, values, rfl⟩ := exists_cons_of_length_eq_add_one hlen
    obtain ⟨ha, hargs⟩ := forall_mem_cons.1 hargs
    obtain ⟨hv, hfits⟩ := forall_mem_cons.1 hfits
    obtain ⟨hrecv, hval⟩ := parameters_receive hr ha hps hv
    obtain ⟨hreceives, hrest⟩ := ih hargs (Nat.succ.inj hlen) hfits
    simp only [flatten_cons, zip_cons_cons, flatMap_cons, map_append, hval, hrest, and_true]
    exact rel_append hrecv hreceives

lemma flatten_parameters_ne_nil (hne : args ≠ []) : pss.flatten ≠ [] := by
  obtain ⟨a, rest, rfl⟩ := exists_cons_of_ne_nil hne
  cases mapM_ok_iff.1 hpss with
  | cons hps => simp [parameters_ne_nil hr (hargs a mem_cons_self) hps]

lemma lists_declarators (hne : args ≠ []) : Source.Lists (pss.flatten.map (·.declaration))
      (intercalate ", " (pss.map fun ps => intercalate ", " (ps.map (·.declaration)))) := by
  have hall := mapM_ok_iff.1 hpss
  have hne' : pss ≠ [] := by
    rintro rfl
    exact hne (forall₂_nil_right_iff.1 hall)
  rw [map_flatten]
  refine Lists.intercalate (fun ps hps => ?_) hne'
  obtain ⟨a, ha, hpars⟩ := exists_of_forall₂_of_mem hall hps
  exact lists_declarator hr (hargs a ha) hpars

end Named

def Spelled (r : TypeRegistry) (args : List KernelArgument) (ds : List String) : Prop :=
  ∃ pss, args.mapM (parameters r) = .ok pss ∧ ds = pss.flatten.map (·.declaration)

variable {ds : List String}

lemma Spelled.of_append {args' : List KernelArgument} (h : Spelled r (args ++ args') ds) :
    ∃ ds1 ds2, Spelled r args ds1 ∧ Spelled r args' ds2 ∧ ds = ds1 ++ ds2 := by
  obtain ⟨pss, hpss, rfl⟩ := h
  rw [mapM_append] at hpss
  obtain ⟨ps, hps, hpss⟩ := of_bind_ok hpss
  obtain ⟨ps', hps', hpss⟩ := of_bind_ok hpss
  cases hpss
  exact ⟨_, _, ⟨ps, hps, rfl⟩, ⟨ps', hps', rfl⟩, by simp⟩

lemma Spelled.vector {t : ElementType} {n c : String} (h : Spelled r [.vector t n false] ds)
    (hc : r.typeName t = .ok c) : ds = ["__global " ++ c ++ " *" ++ n] := by
  obtain ⟨pss, hpss, rfl⟩ := h
  have hpars : [KernelArgument.vector t n false].mapM (parameters r) =
      .ok [[⟨"__global " ++ c ++ " *" ++ n, some .buffer⟩]] := by
    simp only [mapM_cons, parameters, hc]
    rfl
  obtain rfl := ok.inj (hpss.symm.trans hpars)
  rfl

lemma Spelled.eq_flatMap (h : Spelled r args ds) (hr : r.Speaks) (hargs : ∀ a ∈ args, a.Named)
    (htxs : args.mapM (declarator r) = .ok texts) : ds = texts.flatMap parametersOf := by
  obtain ⟨pss, hpss, rfl⟩ := h
  obtain ⟨_, hpss', rfl⟩ := exists_of_mapM_declarator htxs
  obtain rfl := ok.inj (hpss.symm.trans hpss')
  rw [map_flatten, flatMap_map]
  refine flatMap_congr fun ps hps => ?_
  obtain ⟨a, ha, hpars⟩ := exists_of_forall₂_of_mem (mapM_ok_iff.1 hpss) hps
  exact (lists_declarator hr (hargs a ha) hpars).parametersOf_eq.symm

end Arguments

end KernelArgument

end ClHost
