import ClHost.Radix.Run
import ClHost.Proofs.Radix.Digits

/-!
# Choosing a count by its bin

A sort counts its keys in a record with one field for each bin, and its kernels choose a field by the number of a bin. The
text of that choice, read as an expression, gives the field that the record has for the number.
-/

namespace ClHost.Radix

open List Text

/-- Reads an expression at the front of a text: a member of `s`, or a choice between two expressions by a bound on the
number `mnr`, with choices inside each other up to some depth. Gives the name of the chosen member, and the rest. -/
def readMember (mnr : Nat) : Nat → List Char → Option (List Char × List Char)
  | 0, _ => none
  | depth + 1, cs => match cs.dropPrefix? "((mnr < ".toList with
    | none => do return (← cs.dropPrefix? "s.".toList).span isWordChar
    | some rest => do
      let (bound, rest) := rest.span Char.isDigit
      let (low, rest) ← readMember mnr depth (← rest.dropPrefix? ") ? ".toList)
      let (high, rest) ← readMember mnr depth (← rest.dropPrefix? " : ".toList)
      return (if mnr < Nat.ofDigitChars 10 bound 0 then low else high, ← rest.dropPrefix? [')'])

variable {n bits : Nat} {rest : List Char}

lemma dropPrefix?_append (cs : List Char) : (cs ++ rest).dropPrefix? cs = some rest :=
  dropPrefix?_append_of_beq rest (beq_self_eq_true cs)

lemma span_append {p : Char → Bool} {word : List Char} (hword : ∀ c ∈ word, p c = true)
    (hrest : ∀ c ∈ rest.head?, p c = false) : (word ++ rest).span p = (word, rest) := by
  rw [span_eq_takeWhile_dropWhile, takeWhile_append_of_pos hword, dropWhile_append_of_pos hword]
  cases rest with
  | nil => simp
  | cons c rest => simp [hrest c rfl]

lemma isWordChar_of_mem {digits : List Bool} {c : Char} (hc : c ∈ ("c" ++ digitText digits).toList) :
    isWordChar c = true := by
  simp only [digitText, String.toList_append, String.toList_ofList, mem_append, mem_map] at hc
  obtain hc | ⟨d, -, rfl⟩ := hc
  · obtain rfl : c = 'c' := by simpa using hc
    rfl
  · cases d <;> rfl

lemma readMember_choose (known : List Bool) (left : Nat) (hrest : ∀ c ∈ rest.head?, isWordChar c = false) :
    readMember n (left + 1) ((Branch.choose known left).text.toList ++ rest) =
      some (("c" ++ digitText ((Branch.choose known left).select n)).toList, rest) := by
  induction left generalizing known rest with
  | zero =>
    have htext : (Branch.choose known 0).text.toList ++ rest = "s.".toList ++ (("c" ++ digitText known).toList ++ rest) := by
      simp [Branch.choose, Branch.text]
    have hmember : ("s.".toList ++ (("c" ++ digitText known).toList ++ rest)).dropPrefix? "((mnr < ".toList = none := rfl
    rw [htext, readMember, hmember]
    simp only [dropPrefix?_append, Option.bind_eq_bind, Option.bind_some, span_append (fun _ => isWordChar_of_mem) hrest]
    rfl
  | succ left ih =>
    rw [Branch.choose, Branch.text, Branch.select]
    generalize ofDigits (known ++ true :: replicate left false) = bound
    have hbd : (toString bound).toList = Nat.toDigits 10 bound := by
      rw [Nat.toString_eq_ofList_toDigits, String.toList_ofList]
    simp only [String.toList_append, append_assoc, hbd]
    rw [readMember, dropPrefix?_append]
    simp only
    rw [span_append (fun c hc => Nat.isDigit_of_mem_toDigits (by omega) (by omega) hc) (by rintro c ⟨⟩; rfl),
      Nat.ofDigitChars_toDigits (by omega) (by omega)]
    -- What follows either side is no letter, so its field's name ends there.
    simp only [dropPrefix?_append, Option.bind_eq_bind, Option.bind_some]
    rw [ih _ (by rintro c ⟨⟩; rfl)]
    simp only [dropPrefix?_append, Option.bind_some]
    rw [ih _ (by rintro c ⟨⟩; rfl)]
    simp only [Option.bind_some]
    rw [show ")".toList = [')'] from rfl, dropPrefix?_append]
    split <;> simp_all

lemma toList_ofList (fs : List Field) : (FieldList.ofList fs).toList = fs := by
  induction fs with
  | nil => rfl
  | cons f fs ih => rw [FieldList.ofList, FieldList.toList, ih]

lemma ofDigitChars_digitText (digits : List Bool) : Nat.ofDigitChars 2 (digitText digits).toList 0 = ofDigits digits := by
  rw [Nat.ofDigitChars_eq_foldl, digitText, String.toList_ofList, foldl_map, ofDigits]
  congr 1
  funext m d
  cases d <;> rfl

/-- **The text of the choice gives the declared field.** For every number of bits and every bin, it chooses the member of
`s` that the record of counts has at the place of the bin: `c` and the number of the bin in binary, with one digit for each
bit. -/
theorem choice_reads_declared_field (index : ElementType) (hn : n < 2 ^ bits) :
    ∃ fields size f, countsType bits index = .record fields size false ∧ fields.toList[n]? = some f ∧ f.type = index ∧
      f.name = "c" ++ padded n bits ∧ (padded n bits).length = bits ∧ Nat.ofDigitChars 2 (padded n bits).toList 0 = n ∧
      readMember n (bits + 1) (Branch.choose [] bits).text.toList = some (f.name.toList, []) := by
  refine ⟨_, _, ⟨"c" ++ padded n bits, n * index.size, index⟩, rfl, ?_, rfl, rfl, ?_, ?_, ?_⟩
  · rw [toList_ofList, getElem?_map, getElem?_range (by rwa [Nat.pow_eq])]
    rfl
  · rw [padded_eq, digitText, String.length_ofList, length_map, length_paddedDigits hn]
  · rw [padded_eq, ofDigitChars_digitText, ofDigits_paddedDigits]
  · rw [← append_nil (Branch.text _).toList, readMember_choose [] bits (by simp), select_choose hn, padded_eq]

theorem choice_reads_declared_field_five : 5 < 2 ^ 3 ∧ padded 5 3 = "101" ∧
    ∃ fields size f, countsType 3 (.number .int32) = .record fields size false ∧ fields.toList[5]? = some f ∧
      f.type = .number .int32 ∧ f.name = "c" ++ padded 5 3 ∧ (padded 5 3).length = 3 ∧
      Nat.ofDigitChars 2 (padded 5 3).toList 0 = 5 ∧
      readMember 5 4 (Branch.choose [] 3).text.toList = some (f.name.toList, []) :=
  ⟨by decide, by decide +kernel, choice_reads_declared_field (.number .int32) (by decide)⟩

end ClHost.Radix
