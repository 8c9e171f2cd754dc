import ClHost.Text.Basic
import Mathlib.Tactic.Lemma

/-!
# Cutting texts

How texts are cut at a separator and what they start with, said in terms of lists of characters.
-/

namespace ClHost.Text

open List

lemma startsWithChars_iff {part cs : List Char} : startsWithChars part cs = true ↔ part <+: cs := by
  induction part generalizing cs with
  | nil => simp [startsWithChars]
  | cons p part ih =>
    cases cs with
    | nil => simp [startsWithChars]
    | cons => simp [startsWithChars, ih, cons_prefix_cons]

lemma startsWith_iff {s part : String} : startsWith s part = true ↔ part.toList <+: s.toList := startsWithChars_iff

lemma splitChars_eq_splitOnPPrepend (sep : Char) (cs current : List Char) :
    splitChars sep cs current = (List.splitOnPPrepend (· == sep) cs current).map String.ofList := by
  induction cs generalizing current with
  | nil => rfl
  | cons c cs ih =>
    rw [splitChars, splitOnPPrepend_cons_eq_if]
    split
    · rw [ih, splitOnPPrepend_nil_right, map_cons]
    · exact ih (c :: current)

lemma splitAt_eq_splitOn (sep : Char) (s : String) : splitAt sep s = (s.toList.splitOn sep).map String.ofList :=
  splitChars_eq_splitOnPPrepend sep s.toList []

variable {sep : Char}

variable (e : String) {s : String} {cut : String} {cs rest : List Char}

lemma splitAt_of_notMem (h : sep ∉ s.toList) : splitAt sep s = [s] := by
  rw [splitAt_eq_splitOn, splitOn_eq_singleton h, map_singleton, String.ofList_toList]

lemma splitAt_between (hcut : cut.toList = [sep]) (s rest : String) :
    splitAt sep (s ++ cut ++ rest) = splitAt sep s ++ splitAt sep rest := by
  have hlist : (s ++ cut ++ rest).toList = s.toList ++ sep :: rest.toList := by simp [hcut]
  rw [splitAt_eq_splitOn, hlist, splitOn_append_cons_self, map_append, ← splitAt_eq_splitOn, ← splitAt_eq_splitOn]

lemma splitAt_append (h : ',' ∉ s.toList) (rest : String) : splitAt ',' (s ++ "," ++ rest) = s :: splitAt ',' rest := by
  rw [splitAt_between rfl, splitAt_of_notMem h, singleton_append]

lemma splitAt_intercalate (hcut : cut.toList = [sep]) {pieces : List String}
    (h : ∀ s ∈ pieces, sep ∉ s.toList) (hne : pieces ≠ []) : splitAt sep (String.intercalate cut pieces) = pieces := by
  have hpcs : ∀ cs ∈ pieces.map String.toList, sep ∉ cs := by
    intro cs hcs
    obtain ⟨s, hs, rfl⟩ := mem_map.1 hcs
    exact h s hs
  rw [splitAt_eq_splitOn, String.toList_intercalate, hcut, splitOn_intercalate sep hpcs (by simpa using hne),
    map_map]
  exact map_id'' (fun s => String.ofList_toList) pieces

lemma notMem_of_mem_splitOn {cs piece : List Char} (h : piece ∈ cs.splitOn sep) : sep ∉ piece := by
  induction cs generalizing piece with
  | nil =>
    rw [splitOn_nil, mem_singleton] at h
    simp [h]
  | cons c cs ih =>
    rw [splitOn_cons_eq_if_modifyHead] at h
    split at h
    · rcases mem_cons.1 h with rfl | h
      · exact not_mem_nil
      · exact ih h
    · rename_i hc
      obtain ⟨first, rest, hspl⟩ := exists_cons_of_ne_nil (splitOn_ne_nil sep cs)
      rw [hspl] at h
      rcases mem_cons.1 h with rfl | h
      · have hfst : sep ∉ first := ih (by rw [hspl]; exact mem_cons_self)
        have hne : sep ≠ c := fun heq => hc (by simp [heq])
        exact not_mem_cons_of_ne_of_not_mem hne hfst
      · exact ih (by rw [hspl]; exact mem_cons_of_mem _ h)

lemma notMem_of_mem_splitAt {s piece : String} (h : piece ∈ splitAt sep s) : sep ∉ piece.toList := by
  rw [splitAt_eq_splitOn] at h
  obtain ⟨cs, hcs, rfl⟩ := mem_map.1 h
  simpa using notMem_of_mem_splitOn hcs

/-! ## Lists of texts -/

lemma listFrom_cons {c : Char} {cs : List Char} (hc : c ≠ ',') (h : c = '\\' → cs.head? ≠ some ',')
    (part : List Char) : listFrom part (c :: cs) = listFrom (c :: part) cs := by
  rw [listFrom]
  · rintro cs' hback rfl
    exact h hback rfl
  · exact hc

lemma head?_escape_append (h : cs = [] → rest.head? ≠ some ',') : (escape cs ++ rest).head? ≠ some ',' := by
  cases cs with
  | nil => exact h rfl
  | cons c => by_cases hc : c = ',' <;> simp [escape, hc]

lemma listFrom_escape (h : cs.getLast? = some '\\' → rest.head? ≠ some ',')
    (part : List Char) : listFrom part (escape cs ++ rest) = listFrom (cs.reverse ++ part) rest := by
  induction cs generalizing part with
  | nil => rfl
  | cons c cs ih =>
    have ih := ih fun hlast => h (by simp [getLast?_cons, hlast])
    rw [reverse_cons, append_assoc, singleton_append, ← ih (c :: part)]
    by_cases hc : c = ','
    · rw [hc]
      rfl
    · have hstep : escape (c :: cs) = c :: escape cs := by simp [escape, hc]
      rw [hstep]
      exact listFrom_cons hc (fun hback => head?_escape_append fun hnil => h (by rw [hnil, hback]; rfl)) part

lemma toList_joinList (es : List String) :
    (joinList (e :: es)).toList = escape e.toList ++ if es = [] then [] else ',' :: (joinList es).toList := by
  cases es <;> simp [joinList, String.toList_intercalate]

/-- An element other than the last that takes the comma after it for its own. -/
def swallows : Bool := e.toList.getLast? == some '\\'

lemma listFrom_joinList (part : List Char) (e : String) (es : List String) :
    (listFrom part (joinList (e :: es)).toList).length + (e :: es).dropLast.countP swallows = es.length + 1 ∧
      ((e :: es).dropLast.countP swallows = 0 →
        listFrom part (joinList (e :: es)).toList = String.ofList (part.reverse ++ e.toList) :: es) := by
  induction es generalizing part e with
  | nil =>
    rw [toList_joinList, if_pos rfl, listFrom_escape (by simp)]
    simp [listFrom]
  | cons f es ih =>
    rw [toList_joinList, if_neg (cons_ne_nil f es), dropLast_cons_cons, countP_cons]
    cases he : swallows e with
    | true =>
      obtain ⟨cs, hcs⟩ := getLast?_eq_some_iff.1 (beq_iff_eq.1 he)
      have hescape : escape (cs ++ ['\\']) = escape cs ++ ['\\'] := flatMap_append
      obtain ⟨hlen, -⟩ := ih (',' :: (cs.reverse ++ part)) f
      rw [hcs, hescape, append_assoc, listFrom_escape (by simp)]
      exact ⟨by rw [if_pos rfl, length_cons, ← hlen]; rfl, fun h => absurd h (Nat.succ_ne_zero _)⟩
    | false =>
      obtain ⟨hlen, hpts⟩ := ih [] f
      rw [listFrom_escape fun h => absurd (beq_iff_eq.2 h) (Bool.eq_false_iff.1 he)]
      simp only [Bool.false_eq_true, if_false, Nat.add_zero, listFrom, length_cons]
      refine ⟨by omega, fun h => ?_⟩
      rw [hpts h]
      simp

/-- A list is read back unless it is one empty element, or an element other than the last ends with a backslash: the
comma that follows is then taken for a comma of the element. -/
theorem splitList_joinList_iff (es : List String) :
    splitList (joinList es) = es ↔ es ≠ [""] ∧ ∀ e ∈ es.dropLast, e.toList.getLast? ≠ some '\\' := by
  cases es with
  | nil => simp [splitList, joinList]
  | cons e es =>
    obtain ⟨hlen, hpts⟩ := listFrom_joinList [] e es
    have hemp : (joinList (e :: es)).isEmpty ↔ e :: es = [""] := by
      have hnil : escape e.toList = [] ↔ e.toList = [] := by
        cases e.toList with
        | nil => simp [escape]
        | cons c cs => by_cases hc : c = ',' <;> simp [escape, hc]
      rw [String.isEmpty_iff, ← String.toList_inj, toList_joinList]
      simp [hnil]
    have hcnt : (e :: es).dropLast.countP swallows = 0 ↔ ∀ x ∈ (e :: es).dropLast, x.toList.getLast? ≠ some '\\' := by
      simp [countP_eq_zero, swallows]
    rw [splitList]
    split
    · simp_all
    · rename_i hne
      rw [and_iff_right (mt hemp.2 hne), ← hcnt]
      refine ⟨fun heq => ?_, fun h => ?_⟩
      · rw [heq, length_cons] at hlen
        omega
      · rw [hpts h, reverse_nil, nil_append, String.ofList_toList]

end ClHost.Text
