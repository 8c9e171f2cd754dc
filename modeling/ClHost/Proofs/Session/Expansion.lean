import ClHost.Proofs.Kernel.Declarations
import ClHost.Session.Programs
import Mathlib.Data.Set.Card

/-!
# What settings expand to

A text can be expanded if the names that it leads to are all set and none leads back to itself.
-/

namespace ClHost.Session.Settings

open Relation

variable {σ : Settings} {s v name other : String}

/-- The value of a name refers to another one. -/
def Refers (σ : Settings) (name other : String) : Prop :=
  ∃ v, σ.value? name = some (.text v) ∧ .reference other ∈ pieces v

def Follows (σ : Settings) (s name : String) : Prop :=
  ∃ first, .reference first ∈ pieces s ∧ ReflTransGen σ.Refers first name

structure Grounded (σ : Settings) (s : String) : Prop where
  defined : ∀ name, σ.Follows s name → ∃ v, σ.value? name = some (.text v)
  acyclic : ∀ name, σ.Follows s name → ¬ TransGen σ.Refers name name

lemma transGen_iff (hv : σ.value? name = some (.text v)) : TransGen σ.Refers name other ↔ σ.Follows v other := by
  rw [TransGen.head'_iff]
  constructor
  · rintro ⟨next, ⟨v', hv', hnext⟩, hrest⟩
    cases hv.symm.trans hv'
    exact ⟨next, hnext, hrest⟩
  · rintro ⟨next, hnext, hrest⟩
    exact ⟨next, ⟨v, hv, hnext⟩, hrest⟩

lemma Grounded.value (h : σ.Grounded s) (hname : .reference name ∈ pieces s) :
    ∃ v, σ.value? name = some (.text v) ∧ σ.Grounded v ∧ (∀ x, σ.Follows v x → σ.Follows s x) ∧ ¬ σ.Follows v name := by
  have hself : σ.Follows s name := ⟨name, hname, .refl⟩
  obtain ⟨v, hv⟩ := h.defined name hself
  have hsub : ∀ x, σ.Follows v x → σ.Follows s x := fun x hx =>
    ⟨name, hname, ((transGen_iff hv).2 hx).to_reflTransGen⟩
  -- the name itself is no longer followed, or it would lead back to itself
  have hnot : ¬ σ.Follows v name := fun hx => h.acyclic name hself ((transGen_iff hv).2 hx)
  exact ⟨v, hv, ⟨fun x hx => h.defined x (hsub x hx), fun x hx => h.acyclic x (hsub x hx)⟩, hsub, hnot⟩

lemma grounded_of_values
    (h : ∀ name, .reference name ∈ pieces s → ∃ v, σ.value? name = some (.text v) ∧ σ.Grounded v) : σ.Grounded s := by
  constructor
  · rintro name ⟨first, hfst, hrest⟩
    obtain ⟨v, hv, hgrounded⟩ := h first hfst
    rcases reflTransGen_iff_eq_or_transGen.1 hrest with rfl | hrest
    · exact ⟨v, hv⟩
    · exact hgrounded.defined name ((transGen_iff hv).1 hrest)
  · rintro name ⟨first, hfst, hrest⟩ hcycle
    obtain ⟨v, hv, hgrounded⟩ := h first hfst
    exact hgrounded.acyclic name ((transGen_iff hv).1 (hcycle.trans_right hrest)) hcycle

lemma grounded_of_expandText {limit : Nat} {r : String} (h : σ.expandText limit s = .ok r) : σ.Grounded s := by
  induction limit generalizing s r with
  | zero => cases h
  | succ limit ih =>
    obtain ⟨parts, hpts, -⟩ := of_bind_ok h
    refine grounded_of_values fun name hname => ?_
    obtain ⟨part, -, hpart⟩ := exists_of_forall₂_of_mem (mapM_ok_iff.1 hpts).flip hname
    rw [expandPiece] at hpart
    split at hpart
    · exact ⟨_, ‹_›, ih hpart⟩
    · cases hpart
    · cases hpart

/-! ## What a text becomes -/

def fillPiece (σ : Settings) (full : String → String) : Piece → String
  | .char c => String.singleton c
  | .reference name => match σ.value? name with
    | some (.text v) => full v
    | _ => ""

/-- A text with its references replaced by what `full` makes of their values. -/
def fill (σ : Settings) (full : String → String) (s : String) : String :=
  String.join ((pieces s).map (σ.fillPiece full))

lemma mapM_eq_ok {α β : Type} {f : α → Result β} {g : α → β} {xs : List α} (h : ∀ x ∈ xs, f x = .ok (g x)) :
    xs.mapM f = .ok (xs.map g) :=
  mapM_ok_iff.2 (List.forall₂_map_right_iff.2 (List.forall₂_same.2 h))

/-- How many names are set. -/
def count (σ : Settings) : Nat := σ.options.length + σ.environment.length

/-- What a text expands to if one expansion for each name that is set may be nested in that of the text. -/
def full (σ : Settings) (s : String) : String := (σ.expandText (σ.count + 1) s).toOption.getD ""

lemma Grounded.mem_names (h : σ.Grounded s) (hname : σ.Follows s name) :
    name ∈ σ.options.map (·.1) ++ σ.environment.map (·.1) := by
  obtain ⟨v, hv⟩ := h.defined name hname
  rcases Option.or_eq_some_iff.1 hv with hv | ⟨-, hv⟩
  · obtain ⟨before, after, heq, -⟩ := List.lookup_eq_some_iff.1 hv
    simp [heq]
  · obtain ⟨_, hv, -⟩ := Option.map_eq_some_iff.1 hv
    obtain ⟨before, after, heq, -⟩ := List.lookup_eq_some_iff.1 hv
    simp [heq]

lemma Grounded.finite (h : σ.Grounded s) : {x | σ.Follows s x}.Finite :=
  (List.finite_toSet _).subset fun _ => h.mem_names

lemma Grounded.ncard_le (h : σ.Grounded s) : {x | σ.Follows s x}.ncard ≤ σ.count := by
  let names := σ.options.map (·.1) ++ σ.environment.map (·.1)
  calc {x | σ.Follows s x}.ncard ≤ {x | x ∈ names}.ncard :=
        Set.ncard_le_ncard (fun _ => h.mem_names) (List.finite_toSet names)
    _ = names.toFinset.card := by rw [← List.coe_toFinset, Set.ncard_coe_finset]
    _ ≤ names.length := List.toFinset_card_le names
    _ = σ.count := by simp [names, count]

/-- **A text can be expanded if one expansion for each name that it leads to may be nested in its own.** -/
lemma Grounded.expandText_eq (h : σ.Grounded s) : σ.full s = σ.fill σ.full s ∧
    ∀ limit, {x | σ.Follows s x}.ncard < limit → σ.expandText limit s = .ok (σ.full s) := by
  -- the values of the references lead to fewer names
  induction hn : {x | σ.Follows s x}.ncard using Nat.strong_induction_on generalizing s with
  | _ n ih =>
    subst hn
    have hfilled : ∀ limit, {x | σ.Follows s x}.ncard < limit → σ.expandText limit s = .ok (σ.fill σ.full s) := by
      intro limit hlim
      obtain ⟨limit, rfl⟩ := Nat.exists_eq_add_one_of_ne_zero (Nat.ne_zero_of_lt hlim)
      have hpcs : ∀ p ∈ pieces s, σ.expandPiece (σ.expandText limit) p = .ok (σ.fillPiece σ.full p) := by
        intro p hp
        cases p with
        | char => rfl
        | reference name =>
          obtain ⟨v, hv, hgrounded, hsub, hnot⟩ := h.value hp
          have hfewer : {x | σ.Follows v x}.ncard < {x | σ.Follows s x}.ncard :=
            Set.ncard_lt_ncard (Set.ssubset_iff_exists.2 ⟨hsub, name, ⟨name, hp, .refl⟩, hnot⟩) h.finite
          simp only [expandPiece, fillPiece, hv]
          exact (ih _ hfewer hgrounded rfl).2 limit (by omega)
      rw [expandText, mapM_eq_ok hpcs]
      rfl
    have hfull : σ.full s = σ.fill σ.full s := by
      rw [full, hfilled _ (Nat.lt_succ_of_le h.ncard_le)]
      rfl
    exact ⟨hfull, hfull ▸ hfilled⟩

end ClHost.Session.Settings
