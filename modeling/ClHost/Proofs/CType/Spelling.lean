import ClHost.Proofs.CType.Structures
import ClHost.Proofs.Kernel.Declarations

/-!
# Qualifiers in declarations

Qualifiers and the address space of buffers may stand in a declaration as words of their own.
-/

namespace ClHost

open List Declarator

namespace Text

variable {x a b : List Char} {c : Char}

lemma infix_append_cons (hc : c ∉ x) (h : x <:+: a ++ c :: b) : x <:+: a ∨ x <:+: b := by
  induction a with
  | nil =>
    rcases infix_cons_iff.1 h with h | h
    · rw [← nil_append (c :: b), prefix_append_cons hc, prefix_nil] at h
      exact .inl (h ▸ nil_infix)
    · exact .inr h
  | cons d a ih =>
    rcases infix_cons_iff.1 h with h | h
    · exact .inl ((@prefix_append_cons x (d :: a) b c hc).1 h).isInfix
    · exact (ih h).imp infix_cons id

lemma contains_iff {s part : String} : contains s part = true ↔ part.toList <:+: s.toList := by
  rw [contains]
  induction s.toList with
  | nil => simp [containsChars]
  | cons d cs ih => rw [containsChars, Bool.or_eq_true, startsWithChars_iff, ih, infix_cons_iff]

/-! ## What is cut out -/

def stripped (parts : List String) (cs : List Char) : List Char :=
  parts.foldl (fun cs q => replaceChars q.toList [] 0 cs) cs

lemma replaceChars_of_not_infix {part cs : List Char} (h : ¬ part <:+: cs) : replaceChars part [] 0 cs = cs := by
  induction cs with
  | nil => rfl
  | cons d cs ih =>
    rw [infix_cons_iff, not_or, ← startsWithChars_iff] at h
    rw [replaceChars, if_neg h.1, ih h.2]

variable {parts : List String}

lemma stripped_of_not_infix {cs : List Char} (h : ∀ q ∈ parts, ¬ q.toList <:+: cs) : stripped parts cs = cs := by
  induction parts with
  | nil => rfl
  | cons q parts ih =>
    rw [forall_mem_cons] at h
    rw [stripped, foldl_cons, replaceChars_of_not_infix h.1]
    exact ih h.2

lemma stripped_append (h : ∀ q ∈ parts, q.toList ≠ [] ∧ c ∉ q.toList) (a b : List Char) :
    stripped parts (a ++ c :: b) = stripped parts a ++ c :: stripped parts b := by
  induction parts generalizing a b with
  | nil => rfl
  | cons q parts ih =>
    obtain ⟨⟨hne, hc⟩, hpts⟩ := forall_mem_cons.1 h
    rw [stripped, foldl_cons, replaceChars_append hne hc (Nat.zero_le _)]
    exact ih hpts _ _

/-! ## Pieces -/

def joined (pieces : List (List Char × Char)) (last : List Char) : List Char :=
  pieces.foldr (fun p rest => p.1 ++ p.2 :: rest) last

variable {pieces : List (List Char × Char)} {last : List Char}

lemma joined_append (pieces : List (List Char × Char)) (last : List Char) :
    joined pieces last = joined pieces [] ++ last := by
  induction pieces with
  | nil => rfl
  | cons p pieces ih =>
    rw [joined, foldr_cons, joined, foldr_cons, append_assoc, cons_append]
    exact congrArg (p.1 ++ p.2 :: ·) ih

lemma stripped_joined (h : ∀ q ∈ parts, q.toList ≠ [] ∧ ∀ p ∈ pieces, p.2 ∉ q.toList) :
    stripped parts (joined pieces last) = joined (pieces.map fun p => (stripped parts p.1, p.2)) (stripped parts last) := by
  induction pieces with
  | nil => rfl
  | cons p pieces ih =>
    have hrest := ih fun q hq => ⟨(h q hq).1, fun p hp => (h q hq).2 p (mem_cons_of_mem _ hp)⟩
    rw [joined, foldr_cons, stripped_append fun q hq => ⟨(h q hq).1, (h q hq).2 p mem_cons_self⟩]
    exact congrArg (_ ++ p.2 :: ·) hrest

lemma infix_joined (hx : ∀ p ∈ pieces, p.2 ∉ x) (h : x <:+: joined pieces last) :
    (∃ p ∈ pieces, x <:+: p.1) ∨ x <:+: last := by
  induction pieces with
  | nil => exact .inr h
  | cons p pieces ih =>
    rw [forall_mem_cons] at hx
    rcases infix_append_cons hx.1 h with h | h
    · exact .inl ⟨p, mem_cons_self, h⟩
    · exact (ih hx.2 h).imp_left fun ⟨q, hq, hinfix⟩ => ⟨q, mem_cons_of_mem _ hq, hinfix⟩

lemma getLast?_joined : (joined pieces []).getLast? = pieces.getLast?.map (·.2) := by
  rcases pieces.eq_nil_or_concat with rfl | ⟨rest, p, rfl⟩
  · rfl
  · rw [joined, concat_eq_append, foldr_append]
    change (joined rest (p.1 ++ [p.2])).getLast? = _
    rw [joined_append]
    simp

lemma blank_of_mem_joined (h : ∀ p ∈ pieces, p = ([], ' ')) : ∀ c ∈ joined pieces [], isBlank c = true := by
  induction pieces with
  | nil => nofun
  | cons p pieces ih =>
    obtain ⟨rfl, hrest⟩ := forall_mem_cons.1 h
    exact forall_mem_cons.2 ⟨rfl, ih hrest⟩

lemma wordsAux_cons (cs current : List Char) : wordsAux (c :: cs) current =
    if isBlank c then wordsAux [] current ++ wordsAux cs [] else wordsAux cs (c :: current) := by
  cases current <;> rfl

lemma wordsAux_append (hc : isBlank c = true) (a b current : List Char) :
    wordsAux (a ++ c :: b) current = wordsAux a current ++ wordsAux b [] := by
  induction a generalizing current with
  | nil => rw [nil_append, wordsAux_cons, if_pos hc]
  | cons d a ih =>
    rw [cons_append, wordsAux_cons, wordsAux_cons]
    split
    · rw [ih, append_assoc]
    · exact ih _

lemma wordsAux_word {u : List Char} (hu : ∀ c ∈ u, isWordChar c = true) {current : List Char} (hne : current ++ u ≠ []) :
    wordsAux u current = [String.ofList (current.reverse ++ u)] := by
  induction u generalizing current with
  | nil =>
    cases current with
    | nil => exact absurd rfl hne
    | cons => exact congrArg (fun cs => [String.ofList cs]) (append_nil _).symm
  | cons d u ih =>
    rw [forall_mem_cons] at hu
    rw [wordsAux_cons, isBlank_of_isWordChar hu.1, if_neg (by decide), ih hu.2 (by simp), reverse_cons, append_assoc,
      singleton_append]

lemma wordsAux_blanks {blanks : List Char} (h : ∀ c ∈ blanks, isBlank c = true) (a : List Char) :
    wordsAux (a ++ blanks) [] = wordsAux a [] := by
  induction blanks generalizing a with
  | nil => rw [append_nil]
  | cons c blanks ih =>
    rw [forall_mem_cons] at h
    rw [wordsAux_append h.1, ← nil_append blanks, ih h.2, show wordsAux [] [] = [] from rfl, append_nil]

end Text

/-! ## Declarations with qualifiers -/

namespace KernelArgument

open Text

/-- What is cut out of a declaration. -/
def cut : List String := "__global" :: qualifiers

/-- Nothing in a text is cut out of declarations or makes them refused. -/
def Spared (s : String) : Prop := ∀ q ∈ "__local" :: cut, contains s q = false

instance (s : String) : Decidable (Spared s) := List.decidableBAll _ _

lemma spared_iff {s : String} : Spared s ↔ ∀ q ∈ "__local" :: cut, ¬ q.toList <:+: s.toList := by
  simp only [Spared, ← contains_iff, Bool.not_eq_true]

def led (words : List String) (s : String) : String := words.foldr (fun u s => u ++ " " ++ s) s

variable (front : List String)

/-- A declaration: the words of a type and qualifiers, a star for a pointer, more qualifiers, and a name. -/
def declared (isPointer : Bool) (marks : List String) (name : String) : String :=
  led front ((if isPointer then "*" else "") ++ led marks name)

/-- The words of the type among those before a name. -/
def typeWords : List String := front.filter (· ∉ cut)

/-- Words that may be before a name. -/
def IsFront : Prop := ∀ u ∈ front, u ∈ cut ∨ IsIdentifier u ∧ Spared u

instance (front : List String) : Decidable (IsFront front) := List.decidableBAll _ _

def remains (u : String) : List Char := if u ∈ cut then [] else u.toList

def pieces (f : String → List Char) (front : List String) (isPointer : Bool) (marks : List String) :
    List (List Char × Char) :=
  front.map (fun u => (f u, ' ')) ++ ((if isPointer then [([], '*')] else []) ++ marks.map fun u => (f u, ' '))

variable {front marks : List String} {isPointer : Bool} {name : String}

lemma toList_declared : (declared front isPointer marks name).toList =
    joined (pieces String.toList front isPointer marks) name.toList := by
  have hled (us : List String) (s : String) : (led us s).toList = joined (us.map fun u => (u.toList, ' ')) s.toList := by
    induction us with
    | nil => rfl
    | cons u us ih =>
      rw [led, foldr_cons, String.toList_append, String.toList_append, append_assoc]
      exact congrArg (u.toList ++ ' ' :: ·) ih
  simp only [declared, hled, String.toList_append, pieces, joined, foldr_append]
  cases isPointer <;> rfl

lemma mem_pieces {f : String → List Char} {p : List Char × Char} (hp : p ∈ pieces f front isPointer marks) :
    (p.2 = ' ' ∨ p.2 = '*') ∧ (p.1 = [] ∨ ∃ u ∈ front ++ marks, p.1 = f u) := by
  simp only [pieces, mem_append, mem_map] at hp
  rcases hp with ⟨u, hu, rfl⟩ | hp | ⟨u, hu, rfl⟩
  · exact ⟨.inl rfl, .inr ⟨u, mem_append_left _ hu, rfl⟩⟩
  · cases isPointer
    · cases hp
    · rw [mem_singleton.1 hp]
      exact ⟨.inr rfl, .inl rfl⟩
  · exact ⟨.inl rfl, .inr ⟨u, mem_append_right _ hu, rfl⟩⟩

lemma separate (f : String → List Char) (front : List String) (isPointer : Bool) (marks : List String) :
    ∀ q ∈ "__local" :: "__constant" :: cut, q.toList ≠ [] ∧ ∀ p ∈ pieces f front isPointer marks, p.2 ∉ q.toList := by
  have hq : ∀ q ∈ "__local" :: "__constant" :: cut, q.toList ≠ [] ∧ ' ' ∉ q.toList ∧ '*' ∉ q.toList := by decide
  intro q hmem
  obtain ⟨hne, hbl, hstar⟩ := hq q hmem
  refine ⟨hne, fun p hp => ?_⟩
  rcases (mem_pieces hp).1 with hp | hp <;> rwa [hp]

lemma stripped_declared (hfr : IsFront front) (hmarks : marks ⊆ cut) (x : List Char) :
    stripped cut (joined (pieces String.toList front isPointer marks) x) =
      joined (pieces remains front isPointer marks) (stripped cut x) := by
  have hcut : ∀ u ∈ cut, stripped cut u.toList = [] := by decide
  have hword : ∀ u, u ∈ cut ∨ IsIdentifier u ∧ Spared u → stripped cut u.toList = remains u := by
    intro u hu
    rw [remains]
    split
    · exact hcut u ‹_›
    · exact stripped_of_not_infix fun q hq => spared_iff.1 (hu.resolve_left ‹_›).2 q (mem_cons_of_mem _ hq)
  have hsep := separate String.toList front isPointer marks
  rw [stripped_joined fun q hq => hsep q (mem_cons_of_mem _ (mem_cons_of_mem _ hq)), pieces, pieces, map_append,
    map_append, map_map, map_map]
  congr 1
  congr 1
  · exact map_congr_left fun u hu => congrArg (·, ' ') (hword u (hfr u hu))
  · congr 1
    · cases isPointer <;> rfl
    · exact map_congr_left fun u hu => congrArg (·, ' ') (hword u (.inl (hmarks hu)))

lemma mem_remains (hfr : IsFront front) : ∀ c ∈ joined (front.map fun u => (remains u, ' ')) [],
    isWordChar c = true ∨ c = ' ' := by
  induction front with
  | nil => nofun
  | cons u front ih =>
    obtain ⟨hu, hfr⟩ := forall_mem_cons.1 hfr
    intro c hc
    rcases mem_append.1 hc with hc | hc
    · change c ∈ remains u at hc
      unfold remains at hc
      split at hc
      · cases hc
      · exact .inl ((hu.resolve_left ‹_›).1.2 c hc)
    · exact (mem_cons.1 hc).elim .inr (ih hfr c)

lemma words_remains (hfr : IsFront front) :
    wordsAux (joined (front.map fun u => (remains u, ' ')) []) [] = typeWords front := by
  induction front with
  | nil => rfl
  | cons u front ih =>
    obtain ⟨hu, hfr⟩ := forall_mem_cons.1 hfr
    rw [map_cons, joined, foldr_cons, wordsAux_append (show isBlank ' ' = true from rfl), ← joined, ih hfr,
      remains, typeWords, typeWords]
    split
    · rw [filter_cons_of_neg (by simpa using ‹_›)]
      rfl
    · obtain ⟨hne, hword⟩ := (hu.resolve_left ‹_›).1
      rw [filter_cons_of_pos (by simpa using ‹_›), wordsAux_word hword hne]
      simp

lemma no_stars {cs : List Char} (h : ∀ c ∈ cs, isWordChar c = true ∨ c = ' ') :
    cs.takeWhile (· == '*') = [] ∧ cs.dropWhile (· == '*') = cs := by
  cases cs with
  | nil => exact ⟨rfl, rfl⟩
  | cons c =>
    have hc : ¬ (c == '*') = true := by
      rw [beq_iff_eq]
      rintro rfl
      exact absurd (h '*' mem_cons_self) (by decide)
    exact ⟨takeWhile_cons_of_neg hc, dropWhile_cons_of_neg hc⟩

/-- **What is left of a declaration is read as it should be.** -/
lemma ofPlain?_declared (hfr : IsFront front) (hmarks : marks ⊆ cut) (hname : IsIdentifier name) {s : String}
    (hs : s.toList = joined (pieces remains front isPointer marks) name.toList) :
    ofPlain? s = some ⟨String.intercalate " " (typeWords front), name, isPointer⟩ := by
  rw [joined_append] at hs
  have hbef : ∀ c ∈ (joined (pieces remains front isPointer marks) []).getLast?, isWordChar c = false := by
    intro c hc
    rw [getLast?_joined, Option.mem_def, Option.map_eq_some_iff] at hc
    obtain ⟨p, hp, rfl⟩ := hc
    rcases (mem_pieces (mem_of_getLast? hp)).1 with hp | hp <;> rw [hp] <;> decide
  have hmarks' : ∀ u ∈ marks, remains u = [] := fun u hu => if_pos (hmarks hu)
  cases isPointer with
  | true =>
    have hbls : ∀ c ∈ (joined (marks.map fun u => (remains u, ' ')) []).reverse, isBlank c = true := by
      rw [map_congr_left fun u hu => congrArg (·, ' ') (hmarks' u hu)]
      exact fun c hc => blank_of_mem_joined (by simp) c (mem_reverse.1 hc)
    have hspl : joined (pieces remains front true marks) [] =
        joined (front.map fun u => (remains u, ' ')) [] ++ '*' :: joined (marks.map fun u => (remains u, ' ')) [] := by
      rw [← joined_append, pieces, joined, foldr_append]
      rfl
    have hrest : (joined (pieces remains front true marks) []).reverse.dropWhile isBlank =
        '*' :: (joined (front.map fun u => (remains u, ' ')) []).reverse := by
      rw [hspl, reverse_append, reverse_cons, append_assoc, dropWhile_append_of_pos hbls]
      rfl
    obtain ⟨-, hstop⟩ := no_stars fun c hc => mem_remains hfr c (mem_reverse.1 hc)
    rw [ofPlain?_eq hname.1 hname.2 hs hbef hrest, dropWhile_cons_of_pos rfl, hstop, takeWhile_cons_of_pos rfl,
      reverse_reverse, words, String.toList_ofList, words_remains hfr, String.ofList_toList]
    rfl
  | false =>
    have hall : IsFront (front ++ marks) := forall_mem_append.2 ⟨hfr, fun u hu => .inl (hmarks hu)⟩
    have hpcs : pieces remains front false marks = (front ++ marks).map fun u => (remains u, ' ') := by simp [pieces]
    have hwds : typeWords (front ++ marks) = typeWords front := by
      have hnone : marks.filter (· ∉ cut) = [] := filter_eq_nil_iff.2 fun u hu => by simpa using hmarks hu
      rw [typeWords, filter_append, hnone, append_nil, typeWords]
    rw [hpcs] at hs hbef
    generalize hbef' : joined ((front ++ marks).map fun u => (remains u, ' ')) [] = before at hs hbef
    have hmem : ∀ c ∈ before.reverse.dropWhile isBlank, isWordChar c = true ∨ c = ' ' := fun c hc =>
      mem_remains hall c (hbef' ▸ mem_reverse.1 (dropWhile_subset _ hc))
    have hkept : wordsAux (before.reverse.dropWhile isBlank).reverse [] = typeWords front := by
      have hspl : before = (before.reverse.dropWhile isBlank).reverse ++ (before.reverse.takeWhile isBlank).reverse := by
        rw [← reverse_append, takeWhile_append_dropWhile, reverse_reverse]
      rw [← hwds, ← words_remains hall, hbef', ← wordsAux_blanks (fun c hc => ?_), ← hspl]
      exact all_eq_true.1 all_takeWhile c (mem_reverse.1 hc)
    rw [ofPlain?_eq hname.1 hname.2 hs hbef rfl, (no_stars hmem).1, (no_stars hmem).2, words, String.toList_ofList,
      hkept, String.ofList_toList]
    rfl

/-- An argument that is declared. -/
def argument (isPointer : Bool) (t : ElementType) (name : String) (withOffset : Bool) : KernelArgument :=
  if isPointer then .vector t name withOffset else .scalar t name

/-- **A declared argument is read as it is declared.** -/
lemma read_declared {r : TypeRegistry} {t : ElementType} {withOffset : Bool} (hfr : IsFront front)
    (hmarks : marks ⊆ cut) (hname : IsIdentifier name) (hspared : Spared name)
    (ht : r.type? (String.intercalate " " (typeWords front)) = some t) :
    read r withOffset (declared front isPointer marks name) = .ok (argument isPointer t name withOffset) := by
  have hall : IsFront (front ++ marks) := forall_mem_append.2 ⟨hfr, fun u hu => .inl (hmarks hu)⟩
  have hpl (s : String) : (withoutQualifiers (replaceAll s "__global" "")).toList = stripped cut s.toList := by
    simp [withoutQualifiers, qualifiers, replaceAll, stripped, cut]
  have href : ∀ q ∈ refusedSpaces, ¬ q.toList <:+: (declared front isPointer marks name).toList := by
    intro q hq hinfix
    have hcut : ∀ u ∈ cut, ∀ q ∈ refusedSpaces, contains u q = false := by decide
    have hfree {u : String} (hu : Spared u) : ¬ q.toList <:+: u.toList := by
      rcases mem_pair.1 hq with rfl | rfl
      · exact spared_iff.1 hu _ mem_cons_self
      · have hconst : contains "__constant" "const" = true := by decide
        exact fun h => spared_iff.1 hu "const" (by decide) ((contains_iff.1 hconst).trans h)
    have hq' : q ∈ "__local" :: "__constant" :: cut := by
      rcases mem_pair.1 hq with rfl | rfl <;> decide
    have hsep := separate String.toList front isPointer marks
    rw [toList_declared] at hinfix
    rcases infix_joined (hsep q hq').2 hinfix with ⟨p, hp, hinfix⟩ | hinfix
    · rcases (mem_pieces hp).2 with hnil | ⟨u, hu, hpiece⟩
      · rw [hnil, infix_nil] at hinfix
        exact (hsep q hq').1 hinfix
      · rw [hpiece] at hinfix
        exact (hall u hu).elim (fun hu => Bool.eq_false_iff.1 (hcut u hu q hq) (contains_iff.2 hinfix))
          fun hu => hfree hu.2 hinfix
    · exact hfree hspared hinfix
  have hany : refusedSpaces.any (contains (declared front isPointer marks name)) = false := by
    rw [any_eq_false]
    exact fun q hq => by rw [contains_iff]; exact href q hq
  have hname' : stripped cut name.toList = name.toList :=
    stripped_of_not_infix fun q hq => spared_iff.1 hspared q (mem_cons_of_mem _ hq)
  have hread := ofPlain?_declared hfr hmarks hname
    (s := withoutQualifiers (replaceAll (declared front isPointer marks name) "__global" ""))
    (by rw [hpl, toList_declared, stripped_declared hfr hmarks, hname'])
  unfold read readWith Declarator.read
  simp only [hany, hread, ht, Bool.false_eq_true, if_false, bind, Except.bind]
  rfl

lemma led_eq {us : List String} (hne : us ≠ []) (s : String) : led us s = String.intercalate " " us ++ " " ++ s := by
  induction us with
  | nil => exact absurd rfl hne
  | cons u us ih =>
    cases us with
    | nil => simp [led]
    | cons =>
      rw [String.intercalate_cons_cons, led, foldr_cons, ← led, ih (cons_ne_nil _ _)]
      simp only [String.append_assoc]

/-- **Declarations are read as they stand, if their names are spared.** A declaration with the words of a bound type gives
the declared argument. The declaration of that argument, if it has no offset, is read as the same argument again. -/
theorem declarations_read {r : TypeRegistry} {t : ElementType} (front marks us : List String) (isPointer : Bool)
    (name : String) (hr : r.Filed) (hfr : IsFront front) (hmarks : marks ⊆ cut) (hname : IsIdentifier name)
    (hspared : Spared name) (ht : r.type? (String.intercalate " " (typeWords front)) = some t)
    (hus : us ≠ [] ∧ ∀ u ∈ us, IsIdentifier u ∧ Spared u) (hn : r.name? t = some (String.intercalate " " us)) :
    (∀ withOffset, read r withOffset (declared front isPointer marks name) =
      .ok (argument isPointer t name withOffset)) ∧
    ∃ s t', (argument isPointer t name false).declarator r = .ok s ∧
      read r false s = .ok (argument isPointer t' name false) ∧ t'.same t = true := by
  refine ⟨fun _ => read_declared hfr hmarks hname hspared ht, ?_⟩
  obtain ⟨t', ht', hsame⟩ := hr t _ hn
  have hcut : ∀ u ∈ us, u ∉ cut := fun u hu hcut =>
    absurd ((hus.2 u hu).2 u (mem_cons_of_mem _ hcut)) (by simpa using contains_iff.2 infix_rfl)
  have hwds : typeWords us = us := filter_eq_self.2 fun u hu => by simpa using hcut u hu
  have hus' : IsFront us := fun u hu => .inr (hus.2 u hu)
  have htn : r.typeName t = .ok (String.intercalate " " us) := by rw [TypeRegistry.typeName, hn]
  cases isPointer with
  | true =>
    have hdecl : declared ("__global" :: us) true [] name =
        "__global " ++ String.intercalate " " us ++ " *" ++ name := by
      rw [declared, led, foldr_cons, ← led, led_eq hus.1]
      exact String.toList_injective (by simp [led])
    refine ⟨declared ("__global" :: us) true [] name, t', ?_, ?_, hsame⟩
    · rw [hdecl, argument, if_pos rfl, declarator, parameters, htn]
      rfl
    · exact read_declared (forall_mem_cons.2 ⟨.inl mem_cons_self, hus'⟩) (nil_subset _) hname hspared
        (show r.type? (String.intercalate " " (typeWords us)) = some t' by rwa [hwds])
  | false =>
    refine ⟨declared us false [] name, t', ?_, ?_, hsame⟩
    · rw [declared, led_eq hus.1, argument, if_neg (by decide), declarator, parameters, htn]
      exact congrArg Except.ok (String.toList_injective (by simp [led]))
    · exact read_declared hus' (nil_subset _) hname hspared (by rwa [hwds])

def unsignedOnly : TypeRegistry := (({} : TypeRegistry).fill [(["unsigned int"], .number .uint32)]).1

theorem declarations_read_unsigned :
    read unsignedOnly true "const unsigned int *__restrict__ x" = .ok (.vector (.number .uint32) "x" true) :=
  (declarations_read (t := .number .uint32) ["const", "unsigned", "int"] ["__restrict__"] ["unsigned", "int"] true "x"
    (TypeRegistry.filed_fill _ TypeRegistry.filed_empty) (by decide) (by decide) (by decide) (by decide) rfl (by decide)
    rfl).1 true

theorem read_constants :
    read unsignedOnly false "unsigned int constants" = .ok (.scalar (.number .uint32) "ants") := by rfl

end KernelArgument

end ClHost
