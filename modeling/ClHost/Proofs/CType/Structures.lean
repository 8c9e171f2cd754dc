import ClHost.Proofs.Host.Outcomes
import ClHost.Session.Value

/-!
# Registered types and declared structures

A registry has two tables: the type of each name, and the name of each type.
-/

namespace ClHost

open List Host Session ElementType

lemma ElementType.same_iff {t u : ElementType} : t.same u = true ↔ t.plain = u.plain := decide_eq_true_iff

namespace TypeRegistry

/-- The name of a type is bound to a type of the same layout. -/
def Filed (r : TypeRegistry) : Prop := ∀ t n, r.name? t = some n → ∃ u, r.type? n = some u ∧ u.same t = true

def Extends (r r' : TypeRegistry) : Prop := ∀ n t, r.type? n = some t → r'.type? n = some t

variable {r r' : TypeRegistry} {t : ElementType}

lemma Extends.exists_same (h : r.Extends r') {n : String} (hn : ∃ u, r.type? n = some u ∧ u.same t = true) :
    ∃ u, r'.type? n = some u ∧ u.same t = true := by
  obtain ⟨u, hu, hsame⟩ := hn
  exact ⟨u, h n u hu, hsame⟩

lemma bind_ok {n : String} (h : r.bind n t = .ok r') :
    r.Extends r' ∧ r'.names = r.names ∧ ∃ u, r'.type? n = some u ∧ u.same t = true := by
  unfold TypeRegistry.bind at h
  split at h
  · rename_i hnone
    cases h
    refine ⟨fun m u hm => ?_, rfl, t, ?_, same_iff.2 rfl⟩
    · obtain ⟨e, he, rfl⟩ := Option.map_eq_some_iff.1 hm
      rw [type?, find?_append, he]
      rfl
    · rw [type?, find?_append, Option.map_eq_none_iff.1 hnone]
      simp
  · rename_i u hu
    split at h
    · cases h
      exact ⟨fun _ _ h => h, rfl, u, hu, ‹_›⟩
    · cases h

lemma bindAll_spec (r : TypeRegistry) (t : ElementType) (ns : List String) :
    r.Extends (r.bindAll t ns).1 ∧ (r.bindAll t ns).1.names = r.names ∧
      ((r.bindAll t ns).2 = .ok () → ∀ n ∈ ns, ∃ u, (r.bindAll t ns).1.type? n = some u ∧ u.same t = true) := by
  induction ns generalizing r with
  | nil => exact ⟨fun _ _ h => h, rfl, fun _ => nofun⟩
  | cons n ns ih =>
    rw [bindAll]
    cases hbind : r.bind n t with
    | error => exact ⟨fun _ _ h => h, rfl, nofun⟩
    | ok r' =>
      obtain ⟨hext, hnms, hn⟩ := bind_ok hbind
      obtain ⟨hrest, hnms', hbd⟩ := ih r'
      refine ⟨fun m u hm => hrest m u (hext m u hm), hnms'.trans hnms, fun hok => ?_⟩
      exact forall_mem_cons.2 ⟨hrest.exists_same hn, hbd hok⟩

lemma Filed.settled (h : r.Filed) (t : ElementType) :
    ∃ known, r.settled t = .ok known ∧ (known = none → r.name? t = none) ∧ ∀ u, known = some u → u.same t = true := by
  unfold TypeRegistry.settled
  split
  · rename_i hnone
    exact ⟨none, rfl, fun _ => hnone, nofun⟩
  · rename_i n hn
    obtain ⟨u, hu, hsame⟩ := h t n hn
    rw [hu]
    dsimp only
    rw [if_pos hsame]
    exact ⟨some u, rfl, nofun, fun v hv => Option.some.inj hv ▸ hsame⟩

lemma name?_file (r : TypeRegistry) (isKnown : Bool) (t u : ElementType) (n : String) :
    (r.file isKnown t n).name? u = (r.name? u).or (if !isKnown && t.same u then some n else none) := by
  have htext : ∀ (r : TypeRegistry) (s : String),
      ({ r with names := r.names ++ [(.text s, n)] } : TypeRegistry).name? u = r.name? u := by
    simp [name?, find?_append]
  have hlast : (r.file isKnown t n).name? u =
      (if isKnown then r else { r with names := r.names ++ [(.type t, n)] } : TypeRegistry).name? u := by
    unfold file
    dsimp only
    generalize (if isKnown = true then r else _) = r1
    split
    · rfl
    · exact htext _ _
  rw [hlast]
  cases isKnown with
  | true => simp
  | false =>
    simp only [Bool.false_eq_true, if_false, name?, find?_append, Option.map_or, Bool.not_false, Bool.true_and]
    cases hsame : t.same u <;> simp [hsame]

lemma file_types (r : TypeRegistry) (isKnown : Bool) (t : ElementType) (n : String) :
    (r.file isKnown t n).types = r.types := by
  unfold file
  cases isKnown <;> simp only [Bool.false_eq_true, if_true, if_false] <;> split <;> rfl

/-- **A registration keeps the tables together, also if it fails.** -/
lemma register_spec (h : r.Filed) (ns : List String) (t : ElementType) :
    (r.register ns t).1.Filed ∧ r.Extends (r.register ns t).1 := by
  obtain ⟨known, hkn, hnone, hsame⟩ := h.settled t
  obtain ⟨hext, hnms, hbd⟩ := bindAll_spec r (known.getD t) ns
  have hfiled : (r.bindAll (known.getD t) ns).1.Filed := by
    intro u n hn
    rw [name?, hnms] at hn
    exact hext.exists_same (h u n hn)
  rw [register, hkn]
  dsimp only
  rcases hall : r.bindAll (known.getD t) ns with ⟨r1, e | _⟩ <;> rw [hall] at hext hfiled hbd
  · exact ⟨hfiled, hext⟩
  · cases ns with
    | nil =>
      dsimp only
      split <;> exact ⟨hfiled, hext⟩
    | cons first ns =>
      have htys : ∀ m, (r1.file known.isSome (known.getD t) first).type? m = r1.type? m :=
        fun m => by rw [type?, file_types, type?]
      refine ⟨fun u n hn => ?_, fun m u hm => (htys m).trans (hext m u hm)⟩
      rw [htys]
      rw [name?_file] at hn
      rcases Option.or_eq_some_iff.1 hn with hn | ⟨-, hn⟩
      · exact hfiled u n hn
      · -- only a type that had no name gets the first one
        split at hn
        · rename_i hnew
          cases hn
          rw [Bool.and_eq_true] at hnew
          obtain ⟨v, hv, hvt⟩ := hbd rfl first mem_cons_self
          exact ⟨v, hv, same_iff.2 ((same_iff.1 hvt).trans (same_iff.1 hnew.2))⟩
        · cases hn

lemma filed_empty : ({} : TypeRegistry).Filed := nofun

lemma filed_fill (entries : List (List String × ElementType)) (h : r.Filed) : (r.fill entries).1.Filed := by
  induction entries generalizing r with
  | nil => exact h
  | cons entry entries ih =>
    have hnext := (register_spec h entry.1 entry.2).1
    rw [fill]
    rcases hreg : r.register entry.1 entry.2 with ⟨r', _ | _⟩ <;> rw [hreg] at hnext
    · exact hnext
    · exact ih hnext

end TypeRegistry

/-! ## Calls one after the other -/

def World.registryAt (w : World) (i : Nat) : TypeRegistry := w.registries[i]?.getD {}

/-- The tables of all registries still belong together, and no name is bound anew. -/
def World.Files (w w' : World) : Prop :=
  ∀ i, (w.registryAt i).Filed → (w'.registryAt i).Filed ∧ (w.registryAt i).Extends (w'.registryAt i)

instance : Std.Refl World.Files := ⟨fun _ _ h => ⟨h, fun _ _ hn => hn⟩⟩

instance : IsTrans World World.Files :=
  ⟨fun _ _ _ h h' i hi => ⟨(h' i (h i hi).1).1, fun n t hn => (h' i (h i hi).1).2 n t ((h i hi).2 n t hn)⟩⟩

namespace Session

/-- What may be called on registries. A new one is empty. -/
inductive RegistryCall where
  | create
  | getOrRegister (r : RegistryRef) (names : Names) (t : Option ElementType)
  | registerNew (t : ElementType) (names : Names) (aliasOk : Bool)

namespace RegistryCall

def run : RegistryCall → Host Unit
  | create => do let _ ← newRegistry
  | getOrRegister r names t => do let _ ← registerType r names t
  | registerNew t names aliasOk => registerNewType t names aliasOk

/-- The state after calls, each of which may fail. -/
def after (calls : List RegistryCall) (w : World) : World := calls.foldl (fun w c => (c.run.run.run w).2) w

lemma files_of_eq {w w' : World} (h : w'.registries = w.registries) : w.Files w' := by
  intro i hi
  rw [World.registryAt, h]
  exact ⟨hi, fun _ _ hn => hn⟩

lemma files_registerType (r : RegistryRef) (names : Names) (t : Option ElementType) :
    Stays World.Files (registerType r names t) := by
  cases t with
  | none => exact stays_get.map.bind fun _ => stays_lift _
  | some t =>
    refine stays_get_bind fun w => ?_
    refine IsTrans.trans _ _ _ (fun i hi => ?_) (stays_lift (R := World.Files) _ _)
    change (World.registryAt { w with registries := w.registries.setIfInBounds r.index _ } i).Filed ∧ _
    rw [World.registryAt, Array.getElem?_setIfInBounds]
    split
    · subst i
      split
      · exact TypeRegistry.register_spec hi names.items t
      · exact ⟨TypeRegistry.filed_empty, fun n t hn => by simp_all [World.registryAt]⟩
    · exact ⟨hi, fun _ _ hn => hn⟩

lemma files_run (c : RegistryCall) : Stays World.Files c.run := by
  cases c with
  | create =>
    refine (stays_get_bind fun w => ?_ : Stays World.Files newRegistry).map
    intro i hi
    have hpush : (World.registryAt { w with registries := w.registries.push {} } i) = w.registryAt i := by
      simp only [World.registryAt, Array.getElem?_push]
      split
      · rw [Array.getElem?_eq_none (by omega)]
        rfl
      · rfl
    change (World.registryAt { w with registries := w.registries.push {} } i).Filed ∧ _
    exact ⟨hpush.symm ▸ hi, fun n t hn => (congrArg (·.type? n) hpush).trans hn⟩
  | getOrRegister r names t => exact (files_registerType r names t).map
  | registerNew t names =>
    have hwarn : ∀ kind message, Stays World.Files (warn kind message) :=
      fun _ _ => stays_modify fun w => files_of_eq rfl
    refine (hwarn _ _).bind fun _ => ?_
    refine stays_get.map.bind fun r => ?_
    have hreg : Stays World.Files (do let _ ← registerType standardRegistry names (some t)) :=
      (files_registerType _ _ _).map
    split
    · exact stays_guarded hreg
    · exact hreg

lemma files_after (calls : List RegistryCall) (w : World) : w.Files (after calls w) := by
  induction calls generalizing w with
  | nil => exact refl w
  | cons c calls ih => exact IsTrans.trans _ _ _ (files_run c w) (ih _)

end RegistryCall

/-- **The two tables of a registry stay consistent over all calls**, whether these fail or not, and whatever registries
are filled with at first: a bound name keeps its type, the name of a type leads back to it, and looking for a type that
is known already never fails. -/
theorem registries_consistent (calls more : List RegistryCall) (w : World)
    (hw : ∀ r ∈ w.registries, ∃ entries, r = (({} : TypeRegistry).fill entries).1) (i : Nat) :
    let w₁ := RegistryCall.after calls w
    let r := w₁.registryAt i
    (∀ n t, r.type? n = some t → ((RegistryCall.after more w₁).registryAt i).type? n = some t) ∧
      (∀ t n, r.typeName t = .ok n → ∃ u, r.lookup [n] = .ok u ∧ u.same t = true) ∧
      ∀ t, ∃ known, r.settled t = .ok known := by
  intro w₁ r
  have hst : (w.registryAt i).Filed := by
    rw [World.registryAt]
    cases hi : w.registries[i]? with
    | none => exact TypeRegistry.filed_empty
    | some r =>
      obtain ⟨entries, rfl⟩ := hw r (Array.mem_of_getElem? hi)
      exact TypeRegistry.filed_fill entries TypeRegistry.filed_empty
  have hr : r.Filed := (RegistryCall.files_after calls w i hst).1
  refine ⟨(RegistryCall.files_after more w₁ i hr).2, fun t n hn => ?_, fun t => ?_⟩
  · unfold TypeRegistry.typeName at hn
    split at hn
    · rename_i hname
      cases hn
      obtain ⟨u, hu, hsame⟩ := hr t n hname
      exact ⟨u, by rw [TypeRegistry.lookup, hu]; rfl, hsame⟩
    · cases hn
  · obtain ⟨known, hkn, -⟩ := hr.settled t
    exact ⟨known, hkn⟩

theorem registries_consistent_halfway :
    let calls := [RegistryCall.getOrRegister ⟨0⟩ ⟨["int"]⟩ (some (.number .int32)),
      .getOrRegister ⟨0⟩ ⟨["half", "int"]⟩ (some (.number .float16)),
      .getOrRegister ⟨0⟩ ⟨["small", "half"]⟩ (some (.number .float16))]
    let r := (RegistryCall.after calls { registries := #[{}] }).registryAt 0
    r.typeName (.number .float16) = .ok "small" ∧ r.type? "half" = some (.number .float16) ∧
      ∃ u, r.lookup ["small"] = .ok u ∧ u.same (.number .float16) = true := by
  intro calls r
  have hname : r.typeName (.number .float16) = .ok "small" := by decide
  refine ⟨hname, by decide, ?_⟩
  exact (registries_consistent calls [] { registries := #[{}] } (by simpa using ⟨[], rfl⟩) 0).2.1 _ _ hname

end Session

/-! ## Declared structures -/

namespace ElementType

/-- A type that a declaration is needed for. The short vectors are known to every device. -/
def isStructure : ElementType → Bool
  | record _ _ _ | raw _ => true
  | _ => false

/-- A type is that of a field, or of a field of a field, and so on. -/
inductive Holds : ElementType → ElementType → Prop
  | field {fields size aligned f} (hf : f ∈ FieldList.toList fields) : Holds (record fields size aligned) f.type
  | inner {fields size aligned f s} (hf : f ∈ FieldList.toList fields) (h : Holds f.type s) :
      Holds (record fields size aligned) s

def Covers (t form : ElementType) : Prop := ∃ u, (u = t ∨ Holds t u) ∧ u.isStructure = true ∧ u.plain = form

lemma isStructure_plain (t : ElementType) : t.plain.isStructure = t.isStructure := by
  cases t <;> simp [plain, isStructure]

end ElementType

lemma FieldList.toList_plain : ∀ fields : FieldList,
    fields.plain.toList = fields.toList.map fun f => { f with type := f.type.plain }
  | .nil => by simp [FieldList.plain, toList]
  | .cons name offset type rest => by simp [FieldList.plain, toList, toList_plain rest]

lemma FieldList.sizeOf_type_lt {f : Field} : ∀ {fields : FieldList}, f ∈ fields.toList → sizeOf f.type < sizeOf fields
  | .cons name offset type rest, h => by
    rw [FieldList.cons.sizeOf_spec]
    rcases mem_cons.1 h with rfl | h
    · dsimp only
      omega
    · have hrest := sizeOf_type_lt h
      omega

namespace ElementType

variable {s t u : ElementType}

lemma Holds.sizeOf_lt (h : Holds t s) : sizeOf s < sizeOf t := by
  induction h with
  | field hf | inner hf _ ih =>
    have hlt := FieldList.sizeOf_type_lt hf
    rw [record.sizeOf_spec]
    omega

lemma Holds.congr (h : Holds t s) (htu : t.plain = u.plain) : ∃ s', Holds u s' ∧ s'.plain = s.plain := by
  have hfield : ∀ {fields size aligned f} (u : ElementType), f ∈ FieldList.toList fields →
      (record fields size aligned).plain = u.plain → ∃ fields' size' aligned', u = record fields' size' aligned' ∧
        ∃ f' ∈ FieldList.toList fields', f'.type.plain = f.type.plain := by
    intro fields size aligned f u hf htu
    cases u with
    | record =>
      rw [plain, plain] at htu
      have hlists := congrArg FieldList.toList (record.inj htu).1
      rw [FieldList.toList_plain, FieldList.toList_plain] at hlists
      obtain ⟨f', hf', heq⟩ := mem_map.1 (hlists ▸ mem_map_of_mem hf)
      exact ⟨_, _, _, rfl, f', hf', congrArg Field.type heq⟩
    | _ => simp [plain] at htu
  induction h generalizing u with
  | field hf =>
    obtain ⟨_, _, _, rfl, f', hf', heq⟩ := hfield u hf htu
    exact ⟨f'.type, .field hf', heq⟩
  | inner hf _ ih =>
    obtain ⟨_, _, _, rfl, f', hf', heq⟩ := hfield u hf htu
    obtain ⟨s', hs', heq'⟩ := ih heq.symm
    exact ⟨s', .inner hf' hs', heq'⟩

lemma Holds.plain_ne {t s : ElementType} (h : Holds t s) : s.plain ≠ t.plain := by
  intro heq
  obtain ⟨s', hs', heq'⟩ := h.congr heq.symm
  exact hs'.plain_ne heq'
termination_by sizeOf t
decreasing_by exact h.sizeOf_lt

variable {P : ElementType → Prop}

/-- Something holds of a type or of one that it holds. -/
def Somewhere (P : ElementType → Prop) (t : ElementType) : Prop := ∃ u, (u = t ∨ Holds t u) ∧ P u

lemma Somewhere.congr (hP : ∀ {u v : ElementType}, u.plain = v.plain → P u → P v) (h : Somewhere P t)
    (heq : t.plain = u.plain) : Somewhere P u := by
  obtain ⟨v, rfl | hv, hPv⟩ := h
  · exact ⟨u, .inl rfl, hP heq hPv⟩
  · obtain ⟨v', hv', hpl⟩ := hv.congr heq
    exact ⟨v', .inr hv', hP hpl.symm hPv⟩

def parts : ElementType → List ElementType
  | record fields _ _ => fields.toList.map (·.type)
  | _ => []

lemma Holds.of_part (hu : u ∈ t.parts) (hs : s = u ∨ Holds u s) : Holds t s := by
  cases t with
  | record =>
    obtain ⟨f, hf, rfl⟩ := mem_map.1 hu
    rcases hs with rfl | hs
    · exact .field hf
    · exact .inner hf hs
  | _ => cases hu

lemma Holds.exists_part (h : Holds t s) : ∃ u ∈ t.parts, s = u ∨ Holds u s := by
  cases h with
  | field hf => exact ⟨_, mem_map_of_mem hf, .inl rfl⟩
  | inner hf h => exact ⟨_, mem_map_of_mem hf, .inr h⟩

lemma somewhere_iff : Somewhere P t ↔ P t ∨ ∃ u ∈ t.parts, Somewhere P u := by
  constructor
  · rintro ⟨v, rfl | hv, hPv⟩
    · exact .inl hPv
    · obtain ⟨u, hu, hv⟩ := hv.exists_part
      exact .inr ⟨u, hu, v, hv, hPv⟩
  · rintro (ht | ⟨u, hu, v, hv, hPv⟩)
    · exact ⟨t, .inl rfl, ht⟩
    · exact ⟨v, .inr (.of_part hu hv), hPv⟩

lemma Covers.congr {form : ElementType} (hform : Covers t form) (h : t.plain = u.plain) : Covers u form := by
  refine Somewhere.congr (fun {u v} huv hu => ?_) hform h
  rw [← isStructure_plain, ← huv, isStructure_plain]
  exact hu

end ElementType

/-! ## Collecting -/

namespace Declarations

/-- Each type comes once, and after the structures that it holds. -/
def Ordered (types : List ElementType) : Prop :=
  ∀ before t after, types = before ++ t :: after → t.plain ∉ before.map plain ∧
    ∀ s, Holds t s → s.isStructure = true → s.plain ∈ before.map plain

variable {types : List ElementType} {t : ElementType}

lemma Ordered.concat (h : Ordered types) (hnew : t.plain ∉ types.map plain)
    (hpts : ∀ s, Holds t s → s.isStructure = true → s.plain ∈ types.map plain) : Ordered (types ++ [t]) := by
  intro before u after heq
  rcases eq_nil_or_concat after with rfl | ⟨after, v, rfl⟩
  · obtain ⟨rfl, hu⟩ := append_inj' heq rfl
    obtain rfl : t = u := (List.cons.inj hu).1
    exact ⟨hnew, hpts⟩
  · rw [concat_eq_append, ← cons_append, ← append_assoc] at heq
    exact h before u after (append_inj' heq rfl).1

lemma Ordered.covered (h : Ordered types) (ht : t.plain ∈ types.map plain) {form : ElementType}
    (hform : Covers t form) : form ∈ types.map plain := by
  obtain ⟨u, hu, heq⟩ := mem_map.1 ht
  obtain ⟨v, rfl | hv, hstruct, rfl⟩ := hform.congr heq.symm
  · exact mem_map_of_mem hu
  · obtain ⟨before, after, rfl⟩ := append_of_mem hu
    have hmem := (h before u after rfl).2 v hv hstruct
    exact map_append ▸ mem_append_left _ hmem

structure Adds (ts : List ElementType) (d d' : Declarations) : Prop where
  ordered : Ordered d'.types
  covered : ∀ form, form ∈ d'.types.map plain ↔ form ∈ d.types.map plain ∨ ∃ t ∈ ts, Covers t form
  kept : d.types <+: d'.types

lemma has_iff {d : Declarations} : d.has t = true ↔ t.plain ∈ d.types.map plain := by
  simp only [has, any_eq_true, same_iff, mem_map, eq_comm (a := t.plain)]

lemma addFields_eq : ∀ fields : FieldList, addFields fields = fields.toList.map fun f => (f.name, add f.type)
  | .nil => by simp [addFields, FieldList.toList]
  | .cons name offset type rest => by simp [addFields, FieldList.toList, addFields_eq rest]

lemma add_record (fields : FieldList) (size : Nat) (aligned : Bool) (d : Declarations) :
    add (record fields size aligned) d = if d.has (record fields size aligned) then d
      else (addAll d ((fields.toList.mergeSort fun a b => decide (a.name ≤ b.name)).map (·.type))).push
        (record fields size aligned) := by
  rw [add, addFields_eq]
  dsimp only
  rw [← map_mergeSort (r := fun a b : Field => decide (a.name ≤ b.name)) fun _ _ _ _ => rfl, foldl_map, addAll, foldl_map]

/-- What adding does, told of its steps: `I` is kept, and `R` follows for a list of types. -/
structure Steps (I : Declarations → Prop) (R : List ElementType → Declarations → Declarations → Prop) : Prop where
  keeps : ∀ {ts d d'}, R ts d d' → I d'
  nil : ∀ {d}, I d → R [] d d
  cons : ∀ {t ts d d1 d2}, R [t] d d1 → R ts d1 d2 → R (t :: ts) d d2
  known : ∀ {t d}, I d → t.plain ∈ d.types.map plain → R [t] d d
  note : ∀ {t d}, I d → t.isStructure = false → R [t] d (d.note t)
  push : ∀ {t ts d d'}, t.isStructure = true → t.plain ∉ d.types.map plain → (∀ u, u ∈ ts ↔ u ∈ t.parts) → R ts d d' →
    R [t] d (d'.push t)

variable {I : Declarations → Prop} {R : List ElementType → Declarations → Declarations → Prop}

lemma Steps.addAll_of (h : Steps I R) {ts : List ElementType} (hts : ∀ t ∈ ts, ∀ d, I d → R [t] d (add t d))
    {d : Declarations} (hd : I d) : R ts d (addAll d ts) := by
  induction ts generalizing d with
  | nil => exact h.nil hd
  | cons t ts ih =>
    obtain ⟨ht, hrest⟩ := forall_mem_cons.1 hts
    have hfst := ht d hd
    exact h.cons hfst (ih hrest (h.keeps hfst))

lemma Steps.add (h : Steps I R) (t : ElementType) (d : Declarations) (hd : I d) : R [t] d (d.add t) := by
  cases t with
  | record =>
    rw [add_record]
    split
    · exact h.known hd (has_iff.1 ‹_›)
    · refine h.push rfl (mt has_iff.2 ‹_›) (fun u => by simp [mem_mergeSort, parts]) (h.addAll_of (fun u hu d hd => ?_) hd)
      obtain ⟨f, hf, rfl⟩ := mem_map.1 hu
      have hf := mem_mergeSort.1 hf
      exact h.add f.type d hd
  | raw =>
    rw [Declarations.add]
    split
    · exact h.known hd (has_iff.1 ‹_›)
    · exact h.push rfl (mt has_iff.2 ‹_›) (fun u => Iff.rfl) (h.nil hd)
  | _ => exact h.note hd rfl
termination_by sizeOf t
decreasing_by exact (Holds.field hf).sizeOf_lt

lemma Steps.addAll (h : Steps I R) (ts : List ElementType) {d : Declarations} (hd : I d) : R ts d (d.addAll ts) :=
  h.addAll_of (fun t _ => h.add t) hd

lemma adds_push {d d' : Declarations} {ts : List ElementType} (hstruct : t.isStructure = true)
    (hnew : t.plain ∉ d.types.map plain) (hts : ∀ u, u ∈ ts ↔ u ∈ t.parts) (h : Adds ts d d') :
    Adds [t] d (d'.push t) := by
  have hpts : ∀ form, Covers t form ↔ form = t.plain ∨ ∃ u ∈ ts, Covers u form := by
    intro form
    refine somewhere_iff.trans (or_congr (by simp [hstruct, eq_comm]) ?_)
    simp only [hts]
    rfl
  refine ⟨h.ordered.concat (fun hmem => ?_) fun s hs hstruct => ?_, fun form => ?_, h.kept.trans (prefix_append _ _)⟩
  · rcases (h.covered _).1 hmem with hmem | ⟨u, hu, v, hv, -, heq⟩
    · exact hnew hmem
    · exact (Holds.of_part ((hts u).1 hu) hv).plain_ne heq
  · rcases (hpts s.plain).1 ⟨s, .inr hs, hstruct, rfl⟩ with heq | hcovers
    · exact absurd heq hs.plain_ne
    · exact (h.covered _).2 (.inr hcovers)
  · simp only [push, map_append, map_singleton, mem_append, mem_singleton, exists_eq_left, h.covered, hpts]
    rw [or_assoc]
    exact or_congr_right or_comm

lemma not_holds_of_isStructure (h : t.isStructure = false) (s : ElementType) : ¬ Holds t s := by
  rintro (_ | _) <;> cases h

lemma steps_adds : Steps (fun d => Ordered d.types) Adds where
  keeps h := h.ordered
  nil h := ⟨h, by simp, prefix_rfl⟩
  cons hfst hall := by
    refine ⟨hall.ordered, fun form => (hall.covered form).trans ?_, hfst.kept.trans hall.kept⟩
    rw [hfst.covered]
    simp [or_assoc]
  known h ht := by
    refine ⟨h, fun form => ⟨.inl, ?_⟩, prefix_rfl⟩
    rintro (hform | ⟨u, hu, hform⟩)
    · exact hform
    · exact h.covered ht (mem_singleton.1 hu ▸ hform)
  note {t d} h ht := by
    have hnone : ∀ form, ¬ Covers t form := by
      rintro form ⟨u, rfl | hu, hstruct, -⟩
      · exact absurd (ht.symm.trans hstruct) (by decide)
      · exact not_holds_of_isStructure ht u hu
    exact ⟨h, fun form => by simp [Declarations.note, hnone], prefix_rfl⟩
  push := adds_push

end Declarations

/-! ## Declaring -/

/-- The declaration of a structure: a line with type and name for each of its fields, and its own name. -/
def TypeRegistry.Declares (r : TypeRegistry) (t : ElementType) (text : String) : Prop :=
  ∃ name fields lines, r.typeName t = .ok name ∧ t.namedParts? = some fields ∧
    List.Forall₂ (fun (f : Field) (l : String × String) => r.typeName f.type = .ok l.1 ∧ f.name = l.2) fields lines ∧
    text = "typedef struct \x7b\n" ++
      String.intercalate "\n" (lines.map fun l => "  " ++ l.1 ++ " " ++ l.2 ++ ";") ++ "\n\x7d " ++ name ++ ";\n\n"

/-- The layout of a structure with a name is known for a device. -/
def World.Matched (w : World) (r : TypeRegistry) (d : DeviceRef) (t : ElementType) : Prop :=
  t.fields?.isSome ∧ ∃ name u, r.typeName t = .ok name ∧ ((d, name, t, none), u) ∈ w.layouts

namespace Host

variable {r : TypeRegistry} {d : DeviceRef} {t : ElementType} {text : String}

lemma declares_iff : r.Declares t text ↔ ∃ name, r.typeName t = .ok name ∧ declarationText r name t = .ok text := by
  have hline (f : Field) (l : String × String) :
      (do return (← r.typeName f.type, f.name) : Result _) = .ok l ↔ r.typeName f.type = .ok l.1 ∧ f.name = l.2 := by
    cases r.typeName f.type <;> simp [bind, Except.bind, pure, Except.pure, Prod.ext_iff]
  constructor
  · rintro ⟨name, fields, lines, hname, hflds, hlns, rfl⟩
    have hread := mapM_ok_iff.2 (hlns.imp fun f l => (hline f l).2)
    refine ⟨name, hname, ?_⟩
    rw [declarationText, hflds]
    exact (congrArg (· >>= fun lines => .ok (structureText name lines)) hread :)
  · rintro ⟨name, hname, htext⟩
    obtain ⟨fields, hflds, htext⟩ := of_bind_ok htext
    obtain ⟨lines, hlns, htext⟩ := of_bind_ok htext
    refine ⟨name, fields, lines, hname, ?_, (mapM_ok_iff.1 hlns).imp fun f l => (hline f l).1, ?_⟩
    · cases hpts : t.namedParts? with
      | none => simp [hpts] at hflds
      | some parts => simpa [hpts] using hflds
    · exact (Except.ok.inj htext).symm

lemma leads_matchLayout (depth : Nat) (name : String) (context : Option Context) (w : World) :
    Leads (matchLayout r d depth name t context) (fun x _ => declarationText r name t = .ok x.2) Any w := by
  cases depth with
  | zero => exact leads_bare.2 trivial
  | succ depth =>
    refine leads_bind.2 ?_
    cases htext : declarationText r name t with
    | error => trivial
    | ok text =>
      exact leads_any_bind fun _ _ => leads_any_bind fun _ _ => rfl

lemma leads_declarePart (t : ElementType) (w : World) :
    Leads (declarePart d r t) (fun text _ => r.Declares t text) Any w := by
  unfold declarePart
  split
  · trivial
  · cases hname : r.typeName t with
    | error => trivial
    | ok name => 
      refine leads_bind.2 (leads_lift_ok.2 (leads_map.2 ?_))
      exact (leads_matchLayout _ name none w).mono (fun _ _ h => declares_iff.2 ⟨name, hname, h⟩) fun _ _ h => h

lemma run_declarePart {w : World} (htext : r.Declares t text) (hw : w.Matched r d t) :
    (declarePart d r t).run.run w = (.ok text, w) := by
  obtain ⟨hflds, name, u, hname, hu⟩ := hw
  obtain ⟨n, hn, htext⟩ := declares_iff.1 htext
  obtain rfl : name = n := Except.ok.inj (hname.symm.trans hn)
  have hkn : ∃ e, (w.layouts.find? fun e => e.1.1 == d && e.1.2.1 == name && e.1.2.2.1.same t && e.1.2.2.2 == none) =
      some e := Option.isSome_iff_exists.1 (find?_isSome.2 ⟨_, hu, by simp [same_iff]⟩)
  obtain ⟨e, he⟩ := hkn
  have hmatch : (matchLayout r d (t.depth + 1) name t none).run.run w = (.ok (e.2, text), w) := by
    change ((lift (declarationText r name t) >>= fun _ => _ : Host _).run.run w) = _
    rw [htext]
    change (((_ : Option (Host ElementType)).getD _ >>= fun found => pure (found, text) : Host _).run.run w) = _
    rw [he]
    rfl
  rw [declarePart, if_neg (by simpa [Option.isSome_iff_ne_none] using hflds), hname]
  change ((matchLayout r d (t.depth + 1) name t none >>= fun x => pure x.2 : Host String).run.run w) = _
  rw [run_bind, hmatch]
  rfl

lemma foldlM_declareType (types : List ElementType) (c : DeclaredParts) (hc : Declarations.Ordered c.parts.types) :
    types.foldlM (declareType d r) c = (do
      let more ← ((c.parts.addAll types).types.drop c.parts.types.length).mapM (declarePart d r)
      return ⟨c.parts.addAll types, c.declared ++ more⟩) := by
  induction types generalizing c with
  | nil => simp [Declarations.addAll]
  | cons t types ih =>
    have hadds := Declarations.steps_adds.add t c.parts hc
    have hrest : (Declarations.add t c.parts).types <+: ((Declarations.add t c.parts).addAll types).types :=
      (Declarations.steps_adds.addAll types hadds.ordered).kept
    obtain ⟨new, hnew⟩ := hadds.kept
    obtain ⟨more, hmore⟩ := hrest
    have hall : ((c.parts.addAll (t :: types)).types.drop c.parts.types.length) = new ++ more := by
      change ((Declarations.add t c.parts).addAll types).types.drop _ = _
      rw [← hmore, ← hnew, append_assoc, drop_left]
    rw [hall, foldlM_cons, declareType, ← hnew, drop_left, mapM_append, bind_assoc, bind_assoc]
    congr 1
    funext texts
    rw [pure_bind, ih _ hadds.ordered, bind_assoc]
    dsimp only
    rw [← hmore, drop_left]
    simp only [pure_bind, append_assoc]
    rfl

end Host

/-- **Structures are declared once and in order.** When types are added one after the other, there is one declaration for
each structure that they are or hold, and it comes after those of all structures that it holds itself. Adding fails only
where matching one of these structures fails, and it succeeds if their layouts are known. -/
theorem declareType_ordered (r : TypeRegistry) (d : DeviceRef) (types : List ElementType) : ∃ parts : Declarations,
    types.foldlM (declareType d r) {} = DeclaredParts.mk parts <$> parts.types.mapM (declarePart d r) ∧
    (∀ w, Leads (parts.types.mapM (declarePart d r)) (fun texts _ => List.Forall₂ r.Declares parts.types texts) Any w) ∧
    (∀ w texts, List.Forall₂ (fun t text => r.Declares t text ∧ w.Matched r d t) parts.types texts →
      (parts.types.mapM (declarePart d r)).run.run w = (.ok texts, w)) ∧
    (∀ s, (∃ u ∈ parts.types, u.same s = true) ↔
      ∃ t ∈ types, ∃ u, (u = t ∨ Holds t u) ∧ u.isStructure = true ∧ u.same s = true) ∧
    ∀ before t after, parts.types = before ++ t :: after → (∀ u ∈ before, u.same t = false) ∧
      ∀ s, Holds t s → s.isStructure = true → ∃ u ∈ before, u.same s = true := by
  have hnone : Declarations.Ordered ({} : Declarations).types := by
    intro before t after h
    simp at h
  have hadds : Declarations.Adds types {} (Declarations.addAll {} types) :=
    Declarations.steps_adds.addAll types hnone
  refine ⟨Declarations.addAll {} types, ?_, fun w => ?_, fun w texts htxs => ?_, fun s => ?_, ?_⟩
  · rw [foldlM_declareType types {} hnone]
    simp
  · exact (leads_mapM (I := fun _ => True) (fun t _ w1 _ =>
      (leads_declarePart t w1).mono (fun _ _ h => ⟨h, trivial⟩) fun _ _ h => h) trivial).mono
        (fun _ _ h => h.1) fun _ _ h => h
  · generalize (Declarations.addAll {} types).types = parts at htxs
    induction htxs with
    | nil => rfl
    | cons ht _ ih =>
      rw [mapM_cons, run_bind, run_declarePart ht.1 ht.2]
      dsimp only
      rw [run_bind, ih]
      rfl
  · simpa [same_iff, Covers] using hadds.covered s.plain
  · intro before t after heq
    obtain ⟨hnew, hheld⟩ := hadds.ordered before t after heq
    refine ⟨fun u hu => ?_, fun s hs hstruct => ?_⟩
    · rw [Bool.eq_false_iff, ne_eq, same_iff]
      exact fun hsame => hnew (mem_map.2 ⟨u, hu, hsame⟩)
    · obtain ⟨u, hu, hsame⟩ := mem_map.1 (hheld s hs hstruct)
      exact ⟨u, hu, same_iff.2 hsame⟩

end ClHost
