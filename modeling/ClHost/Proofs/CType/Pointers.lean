import ClHost.Proofs.Host.Outcomes
import ClHost.Proofs.Text.Splitting
import ClHost.Reduction.Kernel

/-!
# Declared pointers

The arguments of a generated kernel are declared in a text or given one by one.
-/

namespace ClHost

open List Text Reduction Nat ArgumentSource

/-! ## Texts -/

namespace Text

variable {part before after : List Char} {c : Char}

lemma prefix_append_cons (hc : c ∉ part) : part <+: before ++ c :: after ↔ part <+: before := by
  refine ⟨fun h => ?_, fun h => h.trans (prefix_append _ _)⟩
  induction before generalizing part with
  | nil =>
    cases part with
    | nil => exact nil_prefix
    | cons => exact absurd (cons_prefix_cons.1 h).1.symm (ne_of_not_mem_cons hc)
  | cons b before ih =>
    cases part with
    | nil => exact nil_prefix
    | cons =>
      obtain ⟨hp, h⟩ := cons_prefix_cons.1 h
      exact cons_prefix_cons.2 ⟨hp, ih (not_mem_of_not_mem_cons hc) h⟩

lemma replaceChars_append {new : List Char} (hne : part ≠ []) (hc : c ∉ part) {skip : Nat}
    (hskip : skip ≤ before.length) : replaceChars part new skip (before ++ c :: after) =
      replaceChars part new skip before ++ c :: replaceChars part new 0 after := by
  have hsts (cs : List Char) : startsWithChars part (cs ++ c :: after) = startsWithChars part cs := by
    rw [Bool.eq_iff_iff, startsWithChars_iff, startsWithChars_iff, prefix_append_cons hc]
  induction before generalizing skip with
  | nil =>
    obtain rfl : skip = 0 := le_zero.1 hskip
    have hnone : startsWithChars part (c :: after) = false := by
      rw [Bool.eq_false_iff, ne_eq, ← nil_append (c :: after), hsts, startsWithChars_iff, prefix_nil]
      exact hne
    rw [nil_append, replaceChars, replaceChars, hnone]
    rfl
  | cons b before ih =>
    cases skip with
    | succ => exact ih (le_of_succ_le_succ hskip)
    | zero =>
      rw [cons_append, replaceChars, replaceChars, ← cons_append, hsts]
      split
      · rename_i hpre
        have hlen := (startsWithChars_iff.1 hpre).length_le
        rw [length_cons] at hlen
        rw [ih (by omega), append_assoc]
      · rw [ih (zero_le _), cons_append]

lemma isBlank_of_isWordChar (h : isWordChar c = true) : isBlank c = false := by
  have hrg : 48 ≤ c.toNat ∧ c.toNat ≤ 122 := by
    rw [isWordChar, Bool.or_eq_true, beq_iff_eq] at h
    change ((decide (65 ≤ c.val ∧ c.val ≤ 90) || 97 ≤ c.val && c.val ≤ 122) || 48 ≤ c.val && c.val ≤ 57) = true ∨ c = '_' at h
    simp only [Bool.or_eq_true, Bool.and_eq_true, decide_eq_true_eq, UInt32.le_iff_toNat_le] at h
    change (((65 ≤ c.toNat ∧ c.toNat ≤ 90) ∨ (97 ≤ c.toNat ∧ c.toNat ≤ 122)) ∨ (48 ≤ c.toNat ∧ c.toNat ≤ 57)) ∨
      c = '_' at h
    rcases h with ((h | h) | h) | rfl
    · omega
    · omega
    · omega
    · decide
  simp only [isBlank, Bool.or_eq_false_iff, Bool.and_eq_false_iff, decide_eq_false_iff_not, beq_eq_false_iff_ne]
  omega

end Text

/-! ## Declarations -/

namespace Declarator

def IsName (name : List Char) : Prop :=
  name ≠ [] ∧ (∀ c ∈ name, isWordChar c = true) ∧
    ∀ part ∈ "__global" :: qualifiers, replaceChars part.toList [] 0 (' ' :: '*' :: name) = ' ' :: '*' :: name

instance (name : List Char) : Decidable (IsName name) :=
  @instDecidableAnd _ _ _ (@instDecidableAnd _ _ (List.decidableBAll _ _) _)

def Declares (name : List Char) (s : String) : Prop := ∃ before, s.toList = before ++ ' ' :: '*' :: name ∧ ',' ∉ before

variable {name : List Char}

variable {s : String} {before : List Char}

lemma replaceAll_pointer (hname : IsName name) {part : String} (hpart : part ∈ "__global" :: qualifiers)
    (hs : s.toList = before ++ ' ' :: '*' :: name) :
    ∃ before', (replaceAll s part "").toList = before' ++ ' ' :: '*' :: name := by
  have hbl : ∀ part ∈ "__global" :: qualifiers, part.toList ≠ [] ∧ ' ' ∉ part.toList := by decide
  obtain ⟨hne, hbl⟩ := hbl part hpart
  have hkept := hname.2.2 part hpart
  rw [← nil_append (' ' :: _), replaceChars_append hne hbl (zero_le _)] at hkept
  refine ⟨replaceChars part.toList [] 0 before, ?_⟩
  rw [replaceAll, String.toList_ofList, hs, String.toList_empty, replaceChars_append hne hbl (zero_le _)]
  exact congrArg (_ ++ ·) hkept

lemma withoutQualifiers_pointer (hname : IsName name) (hs : s.toList = before ++ ' ' :: '*' :: name) :
    ∃ before', (withoutQualifiers s).toList = before' ++ ' ' :: '*' :: name := by
  have hfold : ∀ parts ⊆ "__global" :: qualifiers, ∀ (s : String) (before : List Char),
      s.toList = before ++ ' ' :: '*' :: name →
      ∃ before', (parts.foldl (fun s q => replaceAll s q "") s).toList = before' ++ ' ' :: '*' :: name := by
    intro parts hpts
    induction parts with
    | nil => exact fun s before hs => ⟨before, hs⟩
    | cons part parts ih =>
      intro s before hs
      obtain ⟨hpart, hpts⟩ := cons_subset.1 hpts
      obtain ⟨before', hs'⟩ := replaceAll_pointer hname hpart hs
      exact ih hpts _ before' hs'
  exact hfold qualifiers (subset_cons_self _ _) s before hs

lemma ofPlain?_eq {rest : List Char} (hne : name ≠ []) (hword : ∀ c ∈ name, isWordChar c = true)
    (hs : s.toList = before ++ name) (hbef : ∀ c ∈ before.getLast?, isWordChar c = false)
    (hrest : before.reverse.dropWhile isBlank = rest) :
    ofPlain? s = some ⟨String.intercalate " " (words (String.ofList (rest.dropWhile (· == '*')).reverse)),
      String.ofList name, !(rest.takeWhile (· == '*')).isEmpty⟩ := by
  have hrev : s.toList.reverse = name.reverse ++ before.reverse := by rw [hs, reverse_append]
  have hword' : ∀ c ∈ name.reverse, isWordChar c = true := fun c hc => hword c (mem_reverse.1 hc)
  -- The name has no brackets behind it.
  have hbrackets : dropBrackets s.length s.toList.reverse = some (0, s.toList.reverse) := by
    obtain ⟨c, cs, hcs⟩ := exists_cons_of_ne_nil (mt reverse_eq_nil_iff.1 hne)
    have hc : isWordChar c = true := hword' c (hcs ▸ mem_cons_self)
    have hclose : c ≠ ']' := by
      rintro rfl
      exact absurd hc (by decide)
    obtain ⟨fuel, hfuel⟩ : ∃ fuel, s.length = fuel + 1 := exists_eq_add_one.2 (by
      rw [← String.length_toList, ← length_reverse, hrev, hcs, length_append, length_cons]
      omega)
    rw [hfuel, hrev, hcs, dropBrackets, cons_append, dropWhile_cons_of_neg (by simp [isBlank_of_isWordChar hc])]
    split
    · rename_i heq
      exact absurd (List.cons.inj heq).1 hclose
    · rfl
  have hstop : before.reverse.takeWhile isWordChar = [] ∧ before.reverse.dropWhile isWordChar = before.reverse := by
    rw [← head?_reverse] at hbef
    cases h : before.reverse with
    | nil => exact ⟨rfl, rfl⟩
    | cons c =>
      have hc : isWordChar c = false := hbef c (by simp [h])
      exact ⟨takeWhile_cons_of_neg (by simp [hc]), dropWhile_cons_of_neg (by simp [hc])⟩
  unfold ofPlain?
  rw [hbrackets]
  simp only [hrev, takeWhile_append_of_pos hword', dropWhile_append_of_pos hword', hstop, append_nil, hrest,
    isEmpty_reverse, isEmpty_eq_false_iff.2 hne, reverse_reverse, Bool.false_eq_true, if_false, bne_self_eq_false,
    Bool.or_false]

lemma isPointer_of_ofPlain? (hname : IsName name) {d : Declarator}
    (hs : s.toList = before ++ ' ' :: '*' :: name) (h : ofPlain? s = some d) : d.isPointer = true := by
  have hs' : s.toList = (before ++ [' ', '*']) ++ name := by simp [hs]
  rw [ofPlain?_eq hname.1 hname.2.1 hs' (by simp; decide) rfl, Option.some.injEq] at h
  subst h
  simp [dropWhile_cons_of_neg, show isBlank '*' = false from rfl]

end Declarator

/-! ## Arguments -/

namespace KernelArgument

open Declarator

def Vectors (withOffset : Bool) (n : Nat) (args : List KernelArgument) : Prop :=
  args.length = n ∧ ∀ a ∈ args, ∃ type name, a = .vector type name withOffset

variable {r : TypeRegistry} {withOffset : Bool} {name : List Char} {s : String}

variable {resolve : String → Result ElementType} {a : KernelArgument}

lemma readWith_eq_ok (h : readWith resolve withOffset s = .ok a) :
    ∃ d t, Declarator.read (replaceAll s "__global" "") = .ok d ∧ resolve d.typeName = .ok t ∧
      a = if d.isPointer = true then .vector t d.name withOffset else .scalar t d.name := by
  unfold readWith at h
  split at h
  · cases h
  · obtain ⟨d, hd, h⟩ := of_bind_ok h
    obtain ⟨t, ht, h⟩ := of_bind_ok h
    exact ⟨d, t, hd, ht, (Except.ok.inj h).symm⟩

/-- **A declared pointer is read as one**, with an offset if that is asked for. -/
lemma readWith_pointer (hname : IsName name) (hs : Declares name s) (h : readWith resolve withOffset s = .ok a) :
    ∃ type n, a = .vector type n withOffset := by
  obtain ⟨before, hs, -⟩ := hs
  obtain ⟨before1, hs1⟩ := replaceAll_pointer hname mem_cons_self hs
  obtain ⟨before2, hs2⟩ := withoutQualifiers_pointer hname hs1
  obtain ⟨d, t, hd, -, rfl⟩ := readWith_eq_ok h
  refine ⟨t, d.name, if_pos ?_⟩
  unfold Declarator.read at hd
  dsimp only at hd
  split at hd
  · rename_i d' hpl
    cases hd
    exact isPointer_of_ofPlain? hname hs2 hpl
  · cases hd

def Lists (n : Nat) (s : String) : Prop :=
  ∀ r withOffset args, readList r withOffset s = .ok args → Vectors withOffset n args

lemma comma_notMem (hname : IsName name) (hs : Declares name s) : ',' ∉ s.toList := by
  obtain ⟨before, hs, hbef⟩ := hs
  have hcomma : ',' ∉ name := fun hc => absurd (hname.2.1 _ hc) (by decide)
  simp [hs, hbef, hcomma]

lemma lists_one (hname : IsName name) (hs : Declares name s) : Lists 1 s := by
  intro r withOffset args h
  rw [readList, splitAt_of_notMem (comma_notMem hname hs)] at h
  obtain ⟨a, ha, h⟩ := of_bind_ok h
  cases h
  exact ⟨rfl, by simpa using readWith_pointer hname hs ha⟩

lemma lists_append (hname : IsName name) (hs : Declares name s) {n : Nat} {rest : String}
    (hrest : Lists n (" " ++ rest)) : Lists (n + 1) (s ++ ", " ++ rest) := by
  intro r withOffset args h
  have hcomma : s ++ ", " ++ rest = s ++ "," ++ (" " ++ rest) := String.toList_injective (by simp)
  rw [readList, hcomma, splitAt_append (comma_notMem hname hs), mapM_cons] at h
  obtain ⟨a, ha, h⟩ := of_bind_ok h
  obtain ⟨more, hmore, h⟩ := of_bind_ok h
  cases h
  obtain ⟨hlen, hvecs⟩ := hrest r withOffset more hmore
  exact ⟨congrArg (· + 1) hlen, forall_mem_cons.2 ⟨readWith_pointer hname hs ha, hvecs⟩⟩

def pointer? : KernelArgument → Option Bool
  | vector _ _ withOffset => some withOffset
  | _ => none

lemma pointer?_read {r' : TypeRegistry} {a' : KernelArgument} (h : read r withOffset s = .ok a)
    (h' : read r' withOffset s = .ok a') : a.pointer? = a'.pointer? := by
  obtain ⟨d, t, hd, -, rfl⟩ := readWith_eq_ok h
  obtain ⟨d', t', hd', -, rfl⟩ := readWith_eq_ok h'
  obtain rfl : d = d' := Except.ok.inj (hd.symm.trans hd')
  split <;> rfl

end KernelArgument

lemma map_eq_of_mapM {α β γ : Type} {f f' : α → Result β} {g : β → γ} {xs : List α} {ys ys' : List β}
    (hg : ∀ x y y', f x = .ok y → f' x = .ok y' → g y = g y') (h : xs.mapM f = .ok ys) (h' : xs.mapM f' = .ok ys') :
    ys.map g = ys'.map g := by
  induction xs generalizing ys ys' with
  | nil =>
    cases h
    cases h'
    rfl
  | cons x xs ih =>
    rw [mapM_cons] at h h'
    obtain ⟨y, hy, h⟩ := of_bind_ok h
    obtain ⟨y', hy', h'⟩ := of_bind_ok h'
    obtain ⟨rest, hrest, h⟩ := of_bind_ok h
    obtain ⟨rest', hrest', h'⟩ := of_bind_ok h'
    cases h
    cases h'
    rw [map_cons, map_cons, hg x y y' hy hy', ih hrest hrest']

lemma ArgumentSource.pointers_read {source : ArgumentSource} {r r' : TypeRegistry} {withOffset : Bool}
    {args args' : List KernelArgument} (h : source.read r withOffset = .ok args)
    (h' : source.read r' withOffset = .ok args') : args.map (·.pointer?) = args'.map (·.pointer?) := by
  cases source with
  | text => exact map_eq_of_mapM (fun _ _ _ => KernelArgument.pointer?_read) h h'
  | items =>
    refine map_eq_of_mapM (fun x y y' hy hy' => ?_) h h'
    cases x with
    | inl => exact KernelArgument.pointer?_read hy hy'
    | inr =>
      cases hy
      cases hy'
      rfl

lemma ArgumentSource.read_args (args : List KernelArgument) (r : TypeRegistry) (withOffset : Bool) :
    (items (args.map .inr)).read r withOffset = .ok args := by
  induction args with
  | nil => rfl
  | cons a args ih =>
    rw [read] at ih ⊢
    rw [map_cons, mapM_cons, ih]
    rfl

/-! ## Reductions of the library -/

namespace StandardReduction

open Declarator KernelArgument

def takesOffsets : StandardReduction → Bool
  | any _ | all _ => false
  | _ => true

def arity : StandardReduction → Nat
  | any _ | all _ | sum _ _ | extreme _ _ => 1
  | dot _ _ _ _ | subsetExtreme _ _ _ => 2
  | subsetDot _ _ _ _ _ => 3

variable {r : TypeRegistry}

lemma declares_readPointer {typeName : String} (h : ',' ∉ typeName.toList) (name : String) :
    Declares name.toList (readPointer typeName name) := by
  refine ⟨"const ".toList ++ typeName.toList, by simp [readPointer], ?_⟩
  rw [mem_append, not_or]
  exact ⟨by decide, h⟩

lemma declares_after_blank {name : List Char} {s : String} (h : Declares name s) : Declares name (" " ++ s) := by
  obtain ⟨before, hs, hbef⟩ := h
  exact ⟨' ' :: before, by simp [hs], by simp [hbef]⟩

variable {op : StandardReduction} {allowDouble : Bool} {code : ReductionCode}

lemma lists_code (hnms : ∀ t name, r.typeName t = .ok name → ',' ∉ name.toList) (hop : op.takesOffsets = true)
    (h : op.code r allowDouble = .ok code) : ∃ s, code.arguments = some (.text s) ∧ Lists op.arity s := by
  have hin : IsName "in".toList := by decide
  have ha : IsName "a".toList := by decide
  have hb : IsName "b".toList := by decide
  have htable : IsName "lookup_tbl".toList := by decide
  have declares : ∀ {t : ElementType} {typeName : String}, r.typeName t = .ok typeName → ∀ name : String,
      Declares name.toList (readPointer typeName name) := fun h => declares_readPointer (hnms _ _ h)
  cases op with
  | any t | all t => cases hop
  | sum =>
    obtain ⟨parts, -, h⟩ := of_bind_ok h
    obtain ⟨name, hname, h⟩ := of_bind_ok h
    cases h
    exact ⟨_, rfl, lists_one hin (declares hname _)⟩
  | dot =>
    obtain ⟨types, -, h⟩ := of_bind_ok h
    obtain ⟨map, -, h⟩ := of_bind_ok h
    obtain ⟨parts, -, h⟩ := of_bind_ok h
    obtain ⟨first, hfst, h⟩ := of_bind_ok h
    obtain ⟨second, hsnd, h⟩ := of_bind_ok h
    cases h
    exact ⟨_, rfl, lists_append ha (declares hfst _) (lists_one hb (declares_after_blank (declares hsnd _)))⟩
  | subsetDot subset output a b =>
    obtain ⟨types, -, h⟩ := of_bind_ok h
    obtain ⟨map, -, h⟩ := of_bind_ok h
    obtain ⟨table, htys, h⟩ := of_bind_ok h
    obtain ⟨first, hfst, h⟩ := of_bind_ok h
    obtain ⟨second, hsnd, h⟩ := of_bind_ok h
    cases h
    have hfactors : Lists 2 (" " ++ (readPointer first "a" ++ ", " ++ readPointer second "b")) := by
      exact lists_append ha (declares_after_blank (declares hfst _))
        (lists_one hb (declares_after_blank (declares hsnd _)))
    have hall := lists_append htable (declares htys _) hfactors
    rw [← String.append_assoc, ← String.append_assoc] at hall
    exact ⟨_, rfl, hall⟩
  | extreme =>
    obtain ⟨reduce, -, h⟩ := of_bind_ok h
    obtain ⟨neutral, -, h⟩ := of_bind_ok h
    obtain ⟨name, hname, h⟩ := of_bind_ok h
    cases h
    exact ⟨_, rfl, lists_one hin (declares hname _)⟩
  | subsetExtreme =>
    obtain ⟨reduce, -, h⟩ := of_bind_ok h
    obtain ⟨neutral, -, h⟩ := of_bind_ok h
    obtain ⟨name, hname, h⟩ := of_bind_ok h
    obtain ⟨table, htys, h⟩ := of_bind_ok h
    cases h
    exact ⟨_, rfl, lists_append htable (declares htys _) (lists_one hin (declares_after_blank (declares hname _)))⟩

/-- **The arguments of a reduction of the library are pointers, one for each of its arrays.** They are read with
offsets where these are asked for, but for the reductions that take none. -/
lemma vectors_read (hnms : ∀ t name, r.typeName t = .ok name → ',' ∉ name.toList)
    (h : op.code r allowDouble = .ok code) :
    ∃ source, code.arguments = some source ∧ ∀ r' withOffset args, source.read r' withOffset = .ok args →
      Vectors (withOffset && op.takesOffsets) op.arity args := by
  cases hop : op.takesOffsets with
  | true =>
    obtain ⟨s, hs, hlists⟩ := lists_code hnms hop h
    refine ⟨.text s, hs, fun r' withOffset args hargs => ?_⟩
    rw [Bool.and_true]
    exact hlists r' withOffset args hargs
  | false =>
    -- The argument of these reductions is given as it is.
    have hgiven : ∀ t : ElementType, ∀ r' withOffset args,
        read (.items [.inr (.vector t "in" false)]) r' withOffset = .ok args →
        Vectors (withOffset && false) 1 args := by
      intro t r' withOffset args hargs
      cases hargs
      exact ⟨rfl, by simp⟩
    cases op with
    | any t | all t =>
      cases h
      exact ⟨_, rfl, hgiven t⟩
    | _ => cases hop

end StandardReduction

end ClHost
