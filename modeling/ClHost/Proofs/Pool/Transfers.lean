import Mathlib.Algebra.BigOperators.Group.List.Basic
import Mathlib.Data.List.Count
import Mathlib.Data.List.Induction
import Mathlib.Data.List.Nodup
import ClHost.Pool.Basic

/-!
# Blocks in bins and between a pool and its allocator

Bins stand in ascending order, so that `putBin` replaces the very bin that `State.bin` reads. What a pool does with its
allocator is a list of transfers: a block is obtained with so many bytes, or a block is given back.
-/

namespace ClHost.Pool

open List

variable (bins : List (Nat × List Block))

def filed : List (Nat × Block) := bins.flatMap fun bin => bin.2.map fun b => (bin.1, b)

def State.heldPointers (p : State) : List Block := (filed p.bins).map (·.2)

def Ascending : Prop := (bins.map (·.1)).Pairwise (· < ·)

def binIn (n : Nat) : List Block :=
  ((bins.find? fun bin => bin.1 == n).map (·.2)).getD []

@[simp] lemma filed_nil : filed [] = [] := rfl

@[simp] lemma filed_cons (n : Nat) (bs : List Block) (bins : List (Nat × List Block)) :
    filed ((n, bs) :: bins) = bs.map (fun b => (n, b)) ++ filed bins := rfl

@[simp] lemma filed_append (xs ys : List (Nat × List Block)) : filed (xs ++ ys) = filed xs ++ filed ys := by
  simp [filed]

lemma State.heldBlocks_eq (p : State) : p.heldBlocks = (filed p.bins).length := by
  have hsum : ∀ bins : List (Nat × List Block), (filed bins).length = (bins.map fun bin => bin.2.length).sum := by
    intro bins
    induction bins with
    | nil => rfl
    | cons bin bins ih =>
      obtain ⟨n, bs⟩ := bin
      simp [ih]
  rw [State.heldBlocks, hsum, sum_eq_foldl]

variable {n : Nat} {bs : List Block} {bins : List (Nat × List Block)}

lemma ascending_cons : Ascending ((n, bs) :: bins) ↔ (∀ bin ∈ bins, n < bin.1) ∧ Ascending bins := by
  simp [Ascending]

lemma binIn_cons_of_eq (n : Nat) (bs : List Block) (bins : List (Nat × List Block)) :
    binIn ((n, bs) :: bins) n = bs := by
  simp [binIn]

lemma binIn_cons_of_ne {m n : Nat} (bs : List Block) (bins : List (Nat × List Block)) (h : m ≠ n) :
    binIn ((m, bs) :: bins) n = binIn bins n := by
  simp [binIn, h]

lemma binIn_eq_nil (h : ∀ bin ∈ bins, bin.1 ≠ n) : binIn bins n = [] := by
  have hfind : bins.find? (fun bin => bin.1 == n) = none :=
    find?_eq_none.2 fun bin hbin => by simpa using h bin hbin
  simp [binIn, hfind]

lemma binIn_of_mem (h : Ascending bins) (hmem : (n, bs) ∈ bins) : binIn bins n = bs := by
  induction bins with
  | nil => cases hmem
  | cons bin bins ih =>
    obtain ⟨m, cs⟩ := bin
    obtain ⟨hlt, hasc⟩ := ascending_cons.1 h
    rcases mem_cons.1 hmem with he | hmem
    · cases he
      exact binIn_cons_of_eq n bs bins
    · rw [binIn_cons_of_ne cs bins (Nat.ne_of_lt (hlt _ hmem)), ih hasc hmem]

/-- **Replacing a bin.** The held blocks are those of the bin and some others; after a replacement they are
the new ones of the bin and the same others. -/
lemma filed_putBin (h : Ascending bins) (n : Nat) :
    ∃ others, (filed bins).Perm ((binIn bins n).map (fun b => (n, b)) ++ others) ∧
      ∀ bs, (filed (putBin n bs bins)).Perm (bs.map (fun b => (n, b)) ++ others) := by
  induction bins with
  | nil => exact ⟨[], by simp [binIn], fun bs => by simp [putBin]⟩
  | cons bin bins ih =>
    obtain ⟨m, cs⟩ := bin
    obtain ⟨hlt, hasc⟩ := ascending_cons.1 h
    rcases Nat.lt_trichotomy n m with hn | rfl | hn
    · -- there is no such bin yet
      refine ⟨filed ((m, cs) :: bins), ?_, fun bs => ?_⟩
      · rw [binIn_eq_nil (n := n)]
        · simp
        · intro bin hbin
          rcases mem_cons.1 hbin with rfl | hbin
          · exact Nat.ne_of_gt hn
          · exact Nat.ne_of_gt (Nat.lt_trans hn (hlt bin hbin))
      · simp [putBin, Nat.ne_of_lt hn, hn]
    · exact ⟨filed bins, by rw [binIn_cons_of_eq]; simp, fun bs => by simp [putBin]⟩
    · obtain ⟨others, hold, hnew⟩ := ih hasc
      have hput : ∀ bs, putBin n bs ((m, cs) :: bins) = (m, cs) :: putBin n bs bins := by
        intro bs
        simp [putBin, Nat.ne_of_gt hn, Nat.not_lt.2 (Nat.le_of_lt hn)]
      refine ⟨cs.map (fun b => (m, b)) ++ others, ?_, fun bs => ?_⟩
      · rw [binIn_cons_of_ne cs bins (Nat.ne_of_lt hn)]
        exact (hold.append_left _).trans (perm_append_comm_assoc _ _ _)
      · rw [hput]
        exact ((hnew bs).append_left _).trans (perm_append_comm_assoc _ _ _)

lemma filed_open (h : Ascending bins) (hbin : binIn bins n = []) : (filed (putBin n [] bins)).Perm (filed bins) := by
  obtain ⟨others, hold, hnew⟩ := filed_putBin h n
  rw [hbin] at hold
  exact (hnew []).trans hold.symm

lemma filed_push (h : Ascending bins) (n : Nat) (b : Block) :
    (filed (putBin n (b :: binIn bins n) bins)).Perm ((n, b) :: filed bins) := by
  obtain ⟨others, hold, hnew⟩ := filed_putBin h n
  exact (hnew (b :: binIn bins n)).trans (hold.symm.cons (n, b))

lemma filed_pop (h : Ascending bins) {b : Block} {rest : List Block} (hbin : binIn bins n = b :: rest) :
    (filed bins).Perm ((n, b) :: filed (putBin n rest bins)) := by
  obtain ⟨others, hold, hnew⟩ := filed_putBin h n
  rw [hbin] at hold
  exact hold.trans ((hnew rest).symm.cons (n, b))

lemma mem_putBin {bin : Nat × List Block} (h : bin ∈ putBin n bs bins) : bin = (n, bs) ∨ bin ∈ bins := by
  induction bins with
  | nil => exact Or.inl (by simpa [putBin] using h)
  | cons b bins ih =>
    simp only [putBin] at h
    split at h
    · rcases mem_cons.1 h with h | h
      · exact Or.inl h
      · exact Or.inr (mem_cons_of_mem _ h)
    split at h
    · exact mem_cons.1 h
    · rcases mem_cons.1 h with rfl | h
      · exact Or.inr mem_cons_self
      · exact (ih h).imp id (mem_cons_of_mem _)

lemma ascending_putBin (h : Ascending bins) (n : Nat) (bs : List Block) : Ascending (putBin n bs bins) := by
  induction bins with
  | nil => simp [putBin, Ascending]
  | cons b bins ih =>
    obtain ⟨m, cs⟩ := b
    obtain ⟨hlt, hasc⟩ := ascending_cons.1 h
    simp only [putBin]
    split
    · rename_i he
      obtain rfl : n = m := by simpa using he
      exact ascending_cons.2 ⟨hlt, hasc⟩
    rename_i hne
    split
    · rename_i hn
      refine ascending_cons.2 ⟨fun bin hbin => ?_, h⟩
      rcases mem_cons.1 hbin with rfl | hbin
      · exact hn
      · exact Nat.lt_trans hn (hlt bin hbin)
    · rename_i hn
      have hmn : m < n := by
        simp only [beq_iff_eq] at hne
        omega
      refine ascending_cons.2 ⟨fun bin hbin => ?_, ih hasc⟩
      rcases mem_putBin hbin with rfl | hbin
      · exact hmn
      · exact hlt bin hbin

lemma putBin_middle {xs ys : List (Nat × List Block)} {cs : List Block} (h : Ascending (xs ++ (n, cs) :: ys))
    (bs : List Block) : putBin n bs (xs ++ (n, cs) :: ys) = xs ++ (n, bs) :: ys := by
  induction xs with
  | nil => simp [putBin]
  | cons x xs ih =>
    obtain ⟨m, ds⟩ := x
    obtain ⟨hlt, hasc⟩ := ascending_cons.1 h
    have hm : m < n := hlt (n, cs) (by simp)
    rw [cons_append, putBin]
    simp [Nat.ne_of_gt hm, Nat.not_lt.2 (Nat.le_of_lt hm), ih hasc]

lemma largestBin_mem {bin : Nat × List Block} (h : largestBin bins = some bin) : bin ∈ bins := by
  induction bins with
  | nil => cases h
  | cons b bins ih =>
    simp only [largestBin] at h
    split at h
    · rename_i found hf
      cases h
      exact mem_cons_of_mem _ (ih hf)
    · split at h
      · cases h
      · cases h
        exact mem_cons_self

/-! ## Blocks between a pool and its allocator -/

inductive Transfer where
  /-- The allocator handed the block out with so many bytes. -/
  | obtained (b : Block) (bytes : Nat)
  /-- The block was given back. -/
  | returned (b : Block)
deriving DecidableEq

namespace Transfer

/-- Whether the block is handed out. -/
def obtains (b : Block) : Transfer → Bool
  | obtained c _ => c == b
  | returned _ => false

def apply (out : List (Block × Nat)) : Transfer → List (Block × Nat)
  | obtained b bytes => (b, bytes) :: out
  | returned b => out.filter fun o => o.1 != b

end Transfer

variable (b : Block) (ts : List Transfer) (t : Transfer)

def outstanding : List (Block × Nat) := ts.foldl Transfer.apply []

@[simp] lemma outstanding_nil : outstanding [] = [] := rfl

@[simp] lemma outstanding_concat : outstanding (ts ++ [t]) = t.apply (outstanding ts) := by
  simp [outstanding]

def returnsBeforeNext : Nat := (ts.takeWhile fun t => !t.obtains b).count (.returned b)

lemma returnsBeforeNext_concat : returnsBeforeNext b (ts ++ [t]) =
      returnsBeforeNext b ts + if ts.any (·.obtains b) then 0 else if t = .returned b then 1 else 0 := by
  unfold returnsBeforeNext
  induction ts with
  | nil => cases t <;> simp [Transfer.obtains, takeWhile_cons] <;> split <;> simp_all
  | cons u ts ih =>
    cases hu : u.obtains b with
    | true => simp [hu]
    | false =>
      simp only [cons_append, takeWhile_cons, hu, Bool.not_false, if_true, List.count_cons, any_cons, Bool.false_or, ih]
      omega

/-! ## Allocators that are written down -/

structure Recorded (σ : Type) where
  state : σ
  transfers : List Transfer := []

section

variable {σ : Type}

variable (a : Allocator σ) (s₀ : σ)

def Allocator.recorded : Allocator (Recorded σ) where
  allocate s bytes :=
    match a.allocate s.state bytes with
    | (.ok b, s') => (.ok b, ⟨s', s.transfers ++ [.obtained b bytes]⟩)
    | (.error e, s') => (.error e, ⟨s', s.transfers⟩)
  free s b :=
    match a.free s.state b with
    | (.ok (), s') => (.ok (), ⟨s', s.transfers ++ [.returned b]⟩)
    | (.error e, s') => (.error e, ⟨s', s.transfers⟩)
  collect s := ((a.collect s.state).1, ⟨(a.collect s.state).2, s.transfers⟩)

/-- The states an allocator comes to, with the transfers that led there, if nothing but outstanding blocks
is given back. -/
inductive Allocator.Reaches (a : Allocator σ) (s₀ : σ) : σ → List Transfer → Prop
  | start : Reaches a s₀ s₀ []
  | obtain {s s' : σ} {ts : List Transfer} {bytes : Nat} {b : Block} :
      Reaches a s₀ s ts → a.allocate s bytes = (.ok b, s') → Reaches a s₀ s' (ts ++ [.obtained b bytes])
  | refuse {s s' : σ} {ts : List Transfer} {bytes : Nat} {e : ErrorRecord} :
      Reaches a s₀ s ts → a.allocate s bytes = (.error e, s') → Reaches a s₀ s' ts
  | giveBack {s s' : σ} {ts : List Transfer} {b : Block} :
      Reaches a s₀ s ts → b ∈ (outstanding ts).map (·.1) → a.free s b = (.ok (), s') →
      Reaches a s₀ s' (ts ++ [.returned b])
  | keep {s s' : σ} {ts : List Transfer} {b : Block} {e : ErrorRecord} :
      Reaches a s₀ s ts → b ∈ (outstanding ts).map (·.1) → a.free s b = (.error e, s') →
      Reaches a s₀ s' ts
  | collect {s : σ} {ts : List Transfer} : Reaches a s₀ s ts → Reaches a s₀ (a.collect s).2 ts

def Allocator.Fresh : Prop :=
  ∀ s ts bytes b s', a.Reaches s₀ s ts → a.allocate s bytes = (.ok b, s') → b ∉ (outstanding ts).map (·.1)

def Allocator.FreesSucceed : Prop :=
  ∀ s ts b, a.Reaches s₀ s ts → b ∈ (outstanding ts).map (·.1) → (a.free s b).1 = .ok ()

variable {a : Allocator σ} {s₀ : σ}

lemma map_fst_filter_ne (out : List (Block × Nat)) (b : Block) :
    (out.filter fun o => o.1 != b).map (·.1) = (out.map (·.1)).filter (· != b) := by
  rw [filter_map]
  rfl

variable {ts : List Transfer}

variable {s : σ} {t : Transfer}

/-- **No block is outstanding twice.** -/
lemma Allocator.Reaches.outstanding_nodup (hf : a.Fresh s₀) (h : a.Reaches s₀ s ts) :
    ((outstanding ts).map (·.1)).Nodup := by
  induction h with
  | start => exact nodup_nil
  | obtain h ha ih =>
    rw [outstanding_concat]
    exact nodup_cons.2 ⟨hf _ _ _ _ _ h ha, ih⟩
  | giveBack _ _ _ ih =>
    rw [outstanding_concat, Transfer.apply, map_fst_filter_ne]
    exact ih.filter _
  | refuse _ _ ih | keep _ _ _ ih | collect _ ih => exact ih

def settlement (p : Block) (ts later : List Transfer) : Nat :=
  (if later.any (·.obtains p) then 0 else ((outstanding ts).map (·.1)).count p) + returnsBeforeNext p later

section Settled

variable (hobt : ∀ b bytes, t = .obtained b bytes → b ∉ (outstanding ts).map (·.1))
  (hret : ∀ b, t = .returned b → b ∈ (outstanding ts).map (·.1))

include hobt hret

lemma settlement_concat {p : Block} {later : List Transfer} (ih : settlement p ts later = 1) :
    settlement p (ts ++ [t]) (later ++ [t]) = 1 := by
  unfold settlement at ih ⊢
  rw [returnsBeforeNext_concat, any_append, outstanding_concat]
  cases hl : later.any (·.obtains p) with
  | true => simpa [hl] using ih
  | false =>
    simp only [hl, Bool.false_eq_true, if_false, Bool.false_or, any_cons, any_nil, Bool.or_false] at ih ⊢
    cases t with
    | obtained b bytes =>
      by_cases hb : b = p
      · -- obtained again: it was not out, so that it had been given back once
        subst hb
        rw [count_eq_zero_of_not_mem (hobt b bytes rfl)] at ih
        simpa [Transfer.obtains] using ih
      · simpa [Transfer.obtains, Transfer.apply, hb] using ih
    | returned b =>
      simp only [Transfer.obtains, Transfer.apply, map_fst_filter_ne, Bool.false_eq_true, if_false]
      by_cases hb : b = p
      · subst hb
        have := count_pos_iff.2 (hret b rfl)
        rw [count_eq_zero_of_not_mem (by simp)]
        simp only [if_true]
        omega
      · rw [count_filter (by simpa using Ne.symm hb), if_neg (by simpa using hb)]
        omega

def Settled (ts : List Transfer) : Prop :=
  ∀ before p bytes later, ts = before ++ .obtained p bytes :: later → settlement p ts later = 1

lemma Settled.concat (ih : Settled ts) : Settled (ts ++ [t]) := by
  intro before p bytes later he
  rcases eq_nil_or_concat later with rfl | ⟨later, u, rfl⟩
  · -- the last transfer is the one in question
    obtain ⟨rfl, ht⟩ := append_inj' he rfl
    obtain rfl : t = .obtained p bytes := by simpa using ht
    have := count_eq_zero_of_not_mem (hobt p bytes rfl)
    simp [settlement, returnsBeforeNext, Transfer.apply, this]
  · rw [concat_eq_append] at he ⊢
    rw [← cons_append, ← append_assoc] at he
    obtain ⟨rfl, hu⟩ := append_inj' he rfl
    obtain rfl : t = u := by simpa using hu
    exact settlement_concat hobt hret (ih _ _ _ _ rfl)

end Settled

/-- **Obtained blocks are outstanding or given back once.** -/
lemma Allocator.Reaches.settled (hf : a.Fresh s₀) (h : a.Reaches s₀ s ts) : Settled ts := by
  induction h with
  | start => intro before p bytes later he; simp at he
  | obtain h ha ih =>
    refine ih.concat (fun b bytes he => ?_) (fun b he => by cases he)
    cases he
    exact hf _ _ _ _ _ h ha
  | giveBack h hb _ ih =>
    refine ih.concat (fun b bytes he => by cases he) (fun b he => ?_)
    cases he
    exact hb
  | refuse _ _ ih | keep _ _ _ ih | collect _ ih => exact ih

lemma mem_outstanding {b : Block} {bytes : Nat} (h : (b, bytes) ∈ outstanding ts) :
    ∃ before later, ts = before ++ .obtained b bytes :: later ∧ .returned b ∉ later := by
  induction ts using List.reverseRecOn with
  | nil => simp at h
  | append_singleton ts t ih =>
    rw [outstanding_concat] at h
    cases t with
    | obtained c m =>
      rcases mem_cons.1 h with he | h
      · cases he
        exact ⟨ts, [], rfl, by simp⟩
      · obtain ⟨before, later, rfl, hl⟩ := ih h
        exact ⟨before, later ++ [.obtained c m], by simp, by simpa using hl⟩
    | returned c =>
      obtain ⟨h, hc⟩ := mem_filter.1 h
      obtain ⟨before, later, rfl, hl⟩ := ih h
      refine ⟨before, later ++ [.returned c], by simp, ?_⟩
      simp only [bne_iff_ne, ne_eq] at hc
      simp [hl, hc]

end

/-! ## The allocator of numbered blocks -/

namespace Numbered

lemma next_allocate (s : Numbered) (bytes : Nat) :
    (∃ s', functions.allocate s bytes = (.ok s.next, s') ∧ s'.next = s.next + 1) ∨
      ∃ e s', functions.allocate s bytes = (.error e, s') ∧ s'.next = s.next := by
  unfold functions
  dsimp only
  split
  · exact Or.inr ⟨_, _, rfl, rfl⟩
  · split
    · exact Or.inr ⟨_, _, rfl, rfl⟩
    · exact Or.inl ⟨_, rfl, rfl⟩

lemma next_free (s : Numbered) (b : Block) : (functions.free s b).2.next = s.next := rfl

variable {s₀ s : Numbered} {ts : List Transfer}

lemma lt_next (h : functions.Reaches s₀ s ts) : ∀ b ∈ (outstanding ts).map (·.1), b < s.next := by
  induction h with
  | start => simp
  | @obtain s s' ts bytes b h ha ih =>
    rcases next_allocate s bytes with ⟨t, ht, hnext⟩ | ⟨e, t, ht, _⟩
    · cases ht.symm.trans ha
      rw [outstanding_concat]
      intro c hc
      rcases mem_cons.1 hc with rfl | hc
      · show s.next < s'.next
        omega
      · have := ih c hc
        omega
    · cases ht.symm.trans ha
  | @refuse s s' ts bytes e h ha ih =>
    rcases next_allocate s bytes with ⟨t, ht, _⟩ | ⟨e, t, ht, hnext⟩
    · cases ht.symm.trans ha
    · cases ht.symm.trans ha
      rw [hnext]
      exact ih
  | @giveBack s s' ts b h _ hb ih =>
    have hnext := next_free s b
    rw [hb] at hnext
    rw [outstanding_concat, hnext, Transfer.apply, map_fst_filter_ne]
    exact fun c hc => ih c (mem_filter.1 hc).1
  | @keep s s' ts b e h _ hb ih =>
    have hnext := next_free s b
    rw [hb] at hnext
    rw [hnext]
    exact ih
  | collect _ ih => exact ih

lemma fresh (s₀ : Numbered) : functions.Fresh s₀ := by
  intro s ts bytes b s' h ha hb
  have hlt := lt_next h b hb
  rcases next_allocate s bytes with ⟨t, ht, _⟩ | ⟨e, t, ht, _⟩
  · cases ht.symm.trans ha
    omega
  · cases ht.symm.trans ha

lemma freesSucceed (s₀ : Numbered) : functions.FreesSucceed s₀ := fun _ _ _ _ _ => rfl

end Numbered

end ClHost.Pool
