import ClHost.Proofs.Host.Outcomes
import ClHost.Proofs.Pool.BinSizes
import ClHost.Proofs.Pool.Transfers

/-!
# The books of a pool

A pool keeps every block it obtained in one place: in a bin, with the application, or back with the allocator.
-/

namespace ClHost.Pool

open ClHost.Pool.Allocator

/-! ## Where operations of a pool lead -/

variable {σ α β : Type}

variable {Q : α → Run σ → Prop} {E : PoolError → Run σ → Prop} {r : Run σ} {m : PoolM σ α} {x : α}

variable (k : Nat) (bits : Nat) {a : Allocator σ} {f : PoolError → PoolM σ α}

@[simp] lemma leads_modifyPool {f : State → State} {Q : Unit → Run σ → Prop} :
    Leads (modifyPool f) Q E r ↔ Q () { r with pool := f r.pool } := Iff.rfl

lemma leads_arithmetic_ok : Leads (arithmetic (.ok x)) Q E r ↔ Q x r := Iff.rfl

lemma leads_getFromAllocator {bytes : Nat} {Q : Block → Run σ → Prop} :
    Leads (getFromAllocator a bytes) Q E r ↔ match a.allocate r.allocator bytes with
      | (.ok b, s) => Q b { r with allocator := s, pool := { r.pool with active := increment r.pool.active } }
      | (.error e, s) => E (.device e) { r with allocator := s } := by
  unfold getFromAllocator
  rw [leads_bind, leads_get]
  rcases a.allocate r.allocator bytes with ⟨_ | b, s⟩ <;> rfl

lemma leads_giveBack {b : Block} {Q : Unit → Run σ → Prop} : Leads (giveBack a b) Q E r ↔
      match a.free r.allocator b with
      | (.ok (), s) => Q () { r with allocator := s }
      | (.error e, s) => E (.device e) { r with allocator := s } := by
  unfold giveBack
  rw [leads_bind, leads_get]
  rcases a.free r.allocator b with ⟨_ | ⟨⟩, s⟩ <;> rfl

open List

/-! ## Counters -/

lemma increment_mod : increment (k % word32) = (k + 1) % word32 := by
  rw [increment, word32_eq]
  omega

lemma decrement_mod_succ : decrement ((k + 1) % word32) = k % word32 := by
  rw [decrement, word32_eq]
  simp only [beq_iff_eq]
  split <;> omega

/-! ## Who has which block -/

def granted (ts : List Transfer) : List (Block × Except BinFault Nat) := (outstanding ts).map fun o => (o.1, .ok o.2)

def stock (held : List (Nat × Block)) : List (Block × Except BinFault Nat) :=
  held.map fun h => (h.2, allocSize bits h.1)

def bytesFor (bits size : Nat) : Except BinFault Nat := binNumber bits size >>= allocSize bits

def lent (out : List (Block × Nat)) : List (Block × Except BinFault Nat) :=
  out.map fun o => (o.1, bytesFor bits o.2)

variable {bits size : Nat} {ts : List Transfer} {b : Block} {x : Except BinFault Nat}

lemma bytesFor_eq {n : Nat} (h : binNumber bits size = .ok n) : bytesFor bits size = allocSize bits n := by
  rw [bytesFor, h]
  rfl

lemma binNumber_of_bytesFor {bytes : Nat} (h : bytesFor bits size = .ok bytes) :
    ∃ n, binNumber bits size = .ok n ∧ allocSize bits n = .ok bytes := by
  cases hn : binNumber bits size with
  | error =>
    rw [bytesFor, hn] at h
    cases h
  | ok n => exact ⟨n, rfl, by rw [← bytesFor_eq hn, h]⟩

lemma granted_obtained (ts : List Transfer) (b : Block) (bytes : Nat) :
    granted (ts ++ [.obtained b bytes]) = (b, .ok bytes) :: granted ts := by
  simp [granted, Transfer.apply]

lemma mem_granted (h : (b, x) ∈ granted ts) : ∃ bytes, x = .ok bytes ∧ (b, bytes) ∈ outstanding ts := by
  obtain ⟨⟨c, bytes⟩, hmem, he⟩ := mem_map.1 h
  cases he
  exact ⟨bytes, rfl, hmem⟩

lemma granted_returned {rest : List (Block × Except BinFault Nat)} (hn : ((outstanding ts).map (·.1)).Nodup)
    (h : (granted ts).Perm ((b, x) :: rest)) : (granted (ts ++ [.returned b])).Perm rest := by
  have hfst : (granted ts).map (·.1) = (outstanding ts).map (·.1) := by
    simp [granted, Function.comp_def]
  have hnot : b ∉ rest.map (·.1) := by
    have hperm := h.map (·.1)
    rw [hfst] at hperm
    exact (nodup_cons.1 (hperm.nodup_iff.1 hn)).1
  have hrest : rest.filter (fun o => o.1 != b) = rest := by
    refine filter_eq_self.2 fun o ho => ?_
    simp only [bne_iff_ne, ne_eq]
    rintro rfl
    exact hnot (mem_map_of_mem ho)
  have hgranted : granted (ts ++ [.returned b]) = (granted ts).filter fun o => o.1 != b := by
    simp [granted, Transfer.apply, filter_map, Function.comp_def]
  rw [hgranted]
  have hfilt := h.filter fun o => o.1 != b
  rwa [filter_cons_of_neg (by simp), hrest] at hfilt

/-! ## The invariant -/

/-- What a pool does with blocks that come back: it holds them, it is about to give all of them back, or it
holds none any more. -/
inductive Phase where
  | holding | draining | stopped
deriving DecidableEq

def Phase.flag : Phase → Bool
  | holding => false
  | draining | stopped => true

section

variable {σ : Type}

/-- The books of a pool: `as` are the allocations made through it and `out` the blocks handed out, with the
sizes that were asked for. -/
structure Books (a : Allocator σ) (s₀ : σ) (bits : Nat) (ph : Phase) (as : List (Option Allocation))
    (out : List (Block × Nat)) (r : Run (Recorded σ)) : Prop where
  bits_eq : r.pool.leadingBits = bits
  flag_eq : r.pool.stopped = ph.flag
  allocations_eq : r.allocations = as
  ascending : Ascending r.pool.bins
  reached : a.Reaches s₀ r.allocator.state r.allocator.transfers
  owned : (granted r.allocator.transfers).Perm (stock bits (filed r.pool.bins) ++ lent bits out)
  held_eq : r.pool.held = (filed r.pool.bins).length % word32
  active_eq : a.FreesSucceed s₀ → r.pool.active = out.length % word32
  none_held : ph = .stopped → filed r.pool.bins = []

variable {a : Allocator σ} {s₀ : σ} {bits size : Nat} {ph : Phase} {as : List (Option Allocation)}
  {out out' : List (Block × Nat)} {r : Run (Recorded σ)}

lemma Books.start (a : Allocator σ) (s₀ : σ) (bits : Nat) :
    Books a s₀ bits .holding [] [] ⟨{ leadingBits := bits }, ⟨s₀, []⟩, []⟩ where
  bits_eq := rfl
  flag_eq := rfl
  allocations_eq := rfl
  ascending := List.Pairwise.nil
  reached := .start
  owned := List.Perm.nil
  held_eq := rfl
  active_eq := fun _ => rfl
  none_held := fun h => by cases h

namespace Books

variable (h : Books a s₀ bits ph as out r)

include h

lemma perm (hp : out.Perm out') : Books a s₀ bits ph as out' r :=
  { h with
    owned := h.owned.trans ((hp.map _).append_left _)
    active_eq := fun hs => by rw [h.active_eq hs, hp.length_eq] }

lemma printed (text : String) : Books a s₀ bits ph as out { r with pool := { r.pool with printed := text } } :=
  ⟨h.bits_eq, h.flag_eq, h.allocations_eq, h.ascending, h.reached, h.owned, h.held_eq, h.active_eq, h.none_held⟩

variable {s : σ} {bytes : Nat}

lemma allocatorState (hs : a.Reaches s₀ s r.allocator.transfers) :
    Books a s₀ bits ph as out { r with allocator := ⟨s, r.allocator.transfers⟩ } :=
  ⟨h.bits_eq, h.flag_eq, h.allocations_eq, h.ascending, hs, h.owned, h.held_eq, h.active_eq, h.none_held⟩

variable {b : Block} {n : Nat} {rest : List Block}

lemma outstanding_of_mem {x : Except BinFault Nat} (hb : (b, x) ∈ stock bits (filed r.pool.bins) ++ lent bits out) :
    ∃ bytes, x = .ok bytes ∧ (b, bytes) ∈ outstanding r.allocator.transfers := mem_granted (h.owned.mem_iff.2 hb)

lemma mem_outstanding_of_held (hbin : binIn r.pool.bins n = b :: rest) :
    b ∈ (outstanding r.allocator.transfers).map (·.1) := by
  have hmem : (n, b) ∈ filed r.pool.bins :=
    (filed_pop h.ascending hbin).mem_iff.2 mem_cons_self
  obtain ⟨bytes, -, hb⟩ :=
    h.outstanding_of_mem (mem_append_left _ (mem_map_of_mem hmem))
  exact mem_map_of_mem hb

lemma nodup (hf : a.Fresh s₀) : (r.pool.heldPointers ++ out.map (·.1)).Nodup := by
  have hperm := h.owned.map (·.1)
  have hout := h.reached.outstanding_nodup hf
  simp only [granted, stock, lent, map_append, map_map, Function.comp_def] at hperm
  exact hperm.nodup_iff.1 hout

lemma count_outstanding (b : Block) : ((outstanding r.allocator.transfers).map (·.1)).count b =
      r.pool.heldPointers.count b + (out.map (·.1)).count b := by
  have hperm := h.owned.map (·.1)
  simp only [granted, stock, lent, map_append, map_map, Function.comp_def] at hperm
  rw [hperm.count_eq, List.count_append]
  rfl

/-! ### Moves of blocks -/

lemma update {bins : List (Nat × List Block)} {held active : Nat}
    {s : Recorded σ} (hasc : Ascending bins) (hreach : a.Reaches s₀ s.state s.transfers)
    (hown : (granted s.transfers).Perm (stock bits (filed bins) ++ lent bits out'))
    (hheld : held = (filed bins).length % word32) (hact : a.FreesSucceed s₀ → active = out'.length % word32)
    (hnone : ph = .stopped → filed bins = []) : Books a s₀ bits ph as out' { r with
      pool := { r.pool with bins := bins, held := held, active := active }, allocator := s } :=
  ⟨h.bits_eq, h.flag_eq, h.allocations_eq, hasc, hreach, hown, hheld, hact, hnone⟩

lemma openBin (hbin : binIn r.pool.bins n = []) :
    Books a s₀ bits ph as out { r with pool := { r.pool with bins := putBin n [] r.pool.bins } } := by
  have hfiled := filed_open h.ascending hbin
  refine h.update (ascending_putBin h.ascending n []) h.reached ?_ ?_ h.active_eq fun hp => ?_
  · exact h.owned.trans ((hfiled.symm.map _).append_right _)
  · rw [h.held_eq, hfiled.length_eq]
  · rw [h.none_held hp] at hfiled
    exact hfiled.eq_nil

lemma take (hn : binNumber bits size = .ok n) (hbin : binIn r.pool.bins n = b :: rest) :
    Books a s₀ bits ph as ((b, size) :: out) { r with pool := { r.pool with
      bins := putBin n rest r.pool.bins, held := decrement r.pool.held,
      active := increment r.pool.active } } := by
  have hfiled := filed_pop h.ascending hbin
  refine h.update (ascending_putBin h.ascending n rest) h.reached ?_ ?_ (fun hs => ?_) fun hp => ?_
  · refine h.owned.trans (((hfiled.map _).append_right _).trans ?_)
    simp only [lent, map_cons, bytesFor_eq hn]
    exact perm_middle.symm
  · rw [h.held_eq, hfiled.length_eq, length_cons, decrement_mod_succ]
  · rw [h.active_eq hs, increment_mod, length_cons]
  · rw [h.none_held hp] at hfiled
    exact absurd hfiled.symm.eq_nil (by simp)

lemma obtain (hby : bytesFor bits size = .ok bytes) (ha : a.allocate r.allocator.state bytes = (.ok b, s)) :
    Books a s₀ bits ph as ((b, size) :: out) { r with
      pool := { r.pool with active := increment r.pool.active }
      allocator := ⟨s, r.allocator.transfers ++ [.obtained b bytes]⟩ } := by
  refine h.update h.ascending (h.reached.obtain ha) ?_ h.held_eq (fun hs => ?_) h.none_held
  · rw [granted_obtained]
    simp only [lent, map_cons, hby]
    exact (h.owned.cons _).trans perm_middle.symm
  · rw [h.active_eq hs, increment_mod, length_cons]

lemma returnHeld (hf : a.Fresh s₀) (hbin : binIn r.pool.bins n = b :: rest)
    (hfree : a.free r.allocator.state b = (.ok (), s)) : Books a s₀ bits ph as out { r with
      pool := { r.pool with bins := putBin n rest r.pool.bins, held := decrement r.pool.held }
      allocator := ⟨s, r.allocator.transfers ++ [.returned b]⟩ } := by
  have hfiled := filed_pop h.ascending hbin
  have hown := h.owned.trans ((hfiled.map _).append_right _)
  refine h.update (ascending_putBin h.ascending n rest) (h.reached.giveBack (h.mem_outstanding_of_held hbin) hfree)
    (granted_returned (h.reached.outstanding_nodup hf) hown) ?_ h.active_eq fun hp => ?_
  · rw [h.held_eq, hfiled.length_eq, length_cons, decrement_mod_succ]
  · rw [h.none_held hp] at hfiled
    exact absurd hfiled.symm.eq_nil (by simp)

section Lent

omit h

variable (hl : Books a s₀ bits ph as ((b, size) :: out) r)

include hl

lemma mem_outstanding_of_lent : b ∈ (outstanding r.allocator.transfers).map (·.1) := by
  obtain ⟨bytes, -, hb⟩ :=
    hl.outstanding_of_mem (mem_append_right _ (mem_map_of_mem mem_cons_self))
  exact mem_map_of_mem hb

lemma file (hstop : r.pool.stopped = false) (hn : binNumber bits size = .ok n) :
    Books a s₀ bits ph as out { r with pool := { r.pool with
      active := decrement r.pool.active, bins := putBin n (b :: binIn r.pool.bins n) r.pool.bins,
      held := increment r.pool.held } } := by
  have hfiled := filed_push hl.ascending n b
  refine hl.update (ascending_putBin hl.ascending n _) hl.reached ?_ ?_ (fun hs => ?_) fun hp => ?_
  · refine hl.owned.trans (List.Perm.trans ?_ ((hfiled.symm.map _).append_right _))
    simp only [lent, map_cons, bytesFor_eq hn]
    exact perm_middle
  · rw [hl.held_eq, hfiled.length_eq, length_cons, increment_mod]
  · rw [hl.active_eq hs, length_cons, decrement_mod_succ]
  · have hflag := hl.flag_eq
    rw [hstop, hp] at hflag
    cases hflag

lemma returnLent (hf : a.Fresh s₀) (hfree : a.free r.allocator.state b = (.ok (), s)) :
    Books a s₀ bits ph as out { r with
      pool := { r.pool with active := decrement r.pool.active }
      allocator := ⟨s, r.allocator.transfers ++ [.returned b]⟩ } := by
  have hown := hl.owned.trans perm_middle
  refine hl.update hl.ascending (hl.reached.giveBack hl.mem_outstanding_of_lent hfree)
    (granted_returned (hl.reached.outstanding_nodup hf) hown) hl.held_eq (fun hs => ?_) hl.none_held
  rw [hl.active_eq hs, length_cons, decrement_mod_succ]

lemma keepLent {e : ErrorRecord} (hfree : a.free r.allocator.state b = (.error e, s)) (active : Nat) :
    Books a s₀ bits ph as ((b, size) :: out) { r with
      pool := { r.pool with active := active }
      allocator := ⟨s, r.allocator.transfers⟩ } := by
  refine hl.update hl.ascending (hl.reached.keep hl.mem_outstanding_of_lent hfree) hl.owned hl.held_eq
    (fun hs => ?_) hl.none_held
  have hok := hs _ _ _ hl.reached hl.mem_outstanding_of_lent
  rw [hfree] at hok
  cases hok

end Lent

/-! ### Operations on blocks -/

lemma getFromAllocator (hby : bytesFor bits size = .ok bytes) :
    Leads (getFromAllocator a.recorded bytes) (fun b => Books a s₀ bits ph as ((b, size) :: out))
      (fun _ => Books a s₀ bits ph as out) r := by
  rw [leads_getFromAllocator]
  rcases ha : a.allocate r.allocator.state bytes with ⟨e | b, s⟩
  · simp only [recorded, ha]
    exact h.allocatorState (h.reached.refuse ha)
  · simp only [recorded, ha]
    exact h.obtain hby ha

lemma takeBlock (hn : binNumber bits size = .ok n) (hbin : r.pool.bin n = b :: rest)
    {E : PoolError → Run (Recorded σ) → Prop} :
    Leads (takeBlock n b rest) (fun b => Books a s₀ bits ph as ((b, size) :: out)) E r := by
  exact h.take hn hbin

lemma giveBackHeld (hf : a.Fresh s₀) (hbin : binIn r.pool.bins n = b :: rest) :
    Leads (giveBack a.recorded b) (fun _ r' =>
        r'.pool = r.pool ∧ Books a s₀ bits ph as out { r' with pool := { r'.pool with
          bins := putBin n rest r'.pool.bins, held := decrement r'.pool.held } })
      (fun _ r' => Books a s₀ bits ph as out r' ∧ ¬ a.FreesSucceed s₀) r := by
  rw [leads_giveBack]
  rcases hfree : a.free r.allocator.state b with ⟨e | ⟨⟩, s⟩
  · simp only [recorded, hfree]
    have hmem := h.mem_outstanding_of_held hbin
    refine ⟨h.allocatorState (h.reached.keep hmem hfree), fun hs => ?_⟩
    have hok := hs _ _ _ h.reached hmem
    rw [hfree] at hok
    cases hok
  · simp only [recorded, hfree]
    exact ⟨trivial, h.returnHeld hf hbin hfree⟩

lemma tryToFreeMemory (hf : a.Fresh s₀) :
    Leads (tryToFreeMemory a.recorded) (fun _ => Books a s₀ bits ph as out) (fun _ => Books a s₀ bits ph as out) r := by
  unfold Pool.tryToFreeMemory
  rw [leads_bind, leads_get]
  split
  · rename_i n b rest hlarg
    have hbin := binIn_of_mem h.ascending (largestBin_mem hlarg)
    rw [leads_bind]
    exact (h.giveBackHeld hf hbin).mono (fun _ _ hr => hr.2) (fun _ _ hr => hr.1)
  · exact h

lemma retry (hf : a.Fresh s₀) (hby : bytesFor bits size = .ok bytes) (fuel : Nat) :
    Leads (retry a.recorded bytes fuel) (fun b => Books a s₀ bits ph as ((b, size) :: out))
      (fun _ => Books a s₀ bits ph as out) r := by
  induction fuel generalizing r with
  | zero => exact h
  | succ fuel ih =>
    unfold Pool.retry
    rw [leads_bind]
    refine (h.tryToFreeMemory hf).mono (fun more r' hr => ?_)
    split
    · rw [leads_tryCatch]
      refine (hr.getFromAllocator hby).mono (fun _ _ hb => hb) (fun e r' hr => ?_)
      split
      · exact ih hr
      · exact hr
    · exact hr

end Books

lemma leads_say {line : String} {Q : Unit → Run σ → Prop} {E : PoolError → Run σ → Prop} {r : Run σ}
    (h : ∀ text, Q () { r with pool := { r.pool with printed := text } }) : Leads (say line) Q E r := by
  unfold say
  rw [leads_modifyPool]
  split
  · exact h r.pool.printed
  · exact h _

variable {b : Block}

lemma Books.release (h : Books a s₀ bits ph as ((b, size) :: out) r) (hf : a.Fresh s₀) :
    Leads (release a.recorded b size) (fun _ => Books a s₀ bits ph as out)
      (fun _ => Books a s₀ bits ph as ((b, size) :: out)) r := by
  obtain rfl := h.bits_eq
  obtain ⟨bytes, hby, -⟩ :=
    h.outstanding_of_mem (mem_append_right _ (mem_map_of_mem mem_cons_self))
  obtain ⟨n, hn, -⟩ := binNumber_of_bytesFor hby
  unfold Pool.release
  simp only [leads_bind, leads_modifyPool, leads_get, hn, leads_arithmetic_ok]
  split
  · rw [leads_giveBack]
    rcases hfree : a.free r.allocator.state b with ⟨e | ⟨⟩, s⟩
    · simp only [recorded, hfree]
      exact h.keepLent hfree _
    · simp only [recorded, hfree]
      exact h.returnLent hf hfree
  · rename_i hstop
    simp only [leads_bind, leads_modifyPool]
    exact leads_say fun text => (h.file (by simpa using hstop) hn).printed text

/-! ## Allocations -/

def live (as : List (Option Allocation)) : List (Block × Nat) :=
  as.filterMap fun x => x.bind fun al => if al.valid then some (al.block, al.size) else none

lemma live_set {i : Nat} {al : Allocation} (h : as[i]? = some (some al)) (hv : al.valid = true) :
    (live as).Perm ((al.block, al.size) :: live (as.set i (some { al with valid := false }))) := by
  induction as generalizing i with
  | nil => simp at h
  | cons x xs ih =>
    cases i with
    | zero =>
      obtain rfl : x = some al := by simpa using h
      simp [live, hv]
    | succ i =>
      have hrest := ih (i := i) (by simpa using h)
      simp only [live, set_cons_succ, filterMap_cons] at hrest ⊢
      split
      · exact hrest
      · exact (hrest.cons _).trans (.swap _ _ _)

def Sound (a : Allocator σ) (s₀ : σ) (bits : Nat) (ph : Phase) (r : Run (Recorded σ)) : Prop :=
  Books a s₀ bits ph r.allocations (live r.allocations) r

lemma Books.sound (h : Books a s₀ bits ph as (live as) r) : Sound a s₀ bits ph r := by
  unfold Sound
  rw [h.allocations_eq]
  exact h

def Found (a : Allocator σ) (s₀ : σ) (bits : Nat) (ph : Phase) (size : Nat) (b : Block)
    (r : Run (Recorded σ)) : Prop := Books a s₀ bits ph r.allocations ((b, size) :: live r.allocations) r

lemma Books.found (h : Books a s₀ bits ph as ((b, size) :: live as) r) : Found a s₀ bits ph size b r := by
  unfold Found
  rw [h.allocations_eq]
  exact h

lemma Books.remember (h : Books a s₀ bits ph as out r) (as' : List (Option Allocation)) :
    Books a s₀ bits ph as' out { r with allocations := as' } :=
  ⟨h.bits_eq, h.flag_eq, rfl, h.ascending, h.reached, h.owned, h.held_eq, h.active_eq, h.none_held⟩

namespace Sound

variable (h : Sound a s₀ bits ph r) (hf : a.Fresh s₀)

include h hf

lemma free (i : Nat) : Leads (free a.recorded i) (fun _ => Sound a s₀ bits ph) (fun _ => Sound a s₀ bits ph) r := by
  unfold Pool.free
  rw [leads_bind, leads_get]
  split
  · exact h
  · exact h
  · rename_i al hal
    split
    · rename_i hv
      have hperm := live_set hal hv
      rw [leads_bind]
      refine ((Books.perm h hperm).release hf).mono (fun _ r' hr => ?_) (fun _ r' hr => ?_)
      · rw [leads_modify, hr.allocations_eq]
        exact (hr.remember _).sound
      · exact (hr.perm hperm.symm).sound
    · exact h

lemma releaseGarbage (garbage : List Nat) :
    Leads (releaseGarbage a.recorded garbage) (fun _ => Sound a s₀ bits ph) (fun _ => Sound a s₀ bits ph) r := by
  induction garbage generalizing r with
  | nil => exact h
  | cons i garbage ih =>
    unfold Pool.releaseGarbage
    rw [leads_bind, leads_get]
    split
    · split
      · rw [leads_bind]
        exact (h.free hf i).mono (fun _ _ hr => ih hr)
      · exact ih h
    · exact ih h

omit h hf in
/-- What a request does once the allocator has no memory left: garbage is released, which may fill the bin,
and then held blocks are given back, one before each further try. -/
def reclaim (a : Allocator σ) (n bytes : Nat) : PoolM σ Block := do
  say "allocation triggered OOM, running GC"
  let r ← get
  let (garbage, s) := a.collect r.allocator
  set { r with allocator := s }
  Pool.releaseGarbage a garbage
  let p := (← get).pool
  match p.bin n with
  | b :: rest => takeBlock n b rest
  | [] =>
    say "allocation still OOM after GC"
    retry a bytes (p.heldBlocks + 1)

lemma reclaim_leads {n bytes : Nat} (hn : binNumber bits size = .ok n) (hby : bytesFor bits size = .ok bytes) :
    Leads (reclaim a.recorded n bytes) (Found a s₀ bits ph size) (fun _ => Sound a s₀ bits ph) r := by
  unfold reclaim
  rw [leads_bind]
  refine leads_say fun text => ?_
  -- allocations are freed in the middle of the request
  rw [leads_bind, leads_get, leads_bind, leads_set, leads_bind]
  have hcollected := ((Books.printed h text).allocatorState h.reached.collect).sound
  refine (hcollected.releaseGarbage hf _).mono (fun _ r1 h1 => ?_)
  rw [leads_bind, leads_get]
  dsimp only
  split
  · rename_i b rest hbin
    exact (Books.takeBlock h1 hn hbin).mono (fun _ _ h2 => h2.found)
  · rw [leads_bind]
    refine leads_say fun text => ?_
    exact ((Books.printed h1 text).retry hf hby _).mono (fun _ _ h2 => h2.found) (fun _ _ h2 => h2.sound)

lemma allocateBlock (size : Nat) :
    Leads (allocateBlock a.recorded size) (Found a s₀ bits ph size) (fun _ => Sound a s₀ bits ph) r := by
  obtain rfl := h.bits_eq
  unfold Pool.allocateBlock
  simp only [leads_bind, leads_get]
  cases hn : binNumber r.pool.leadingBits size with
  | error => exact h
  | ok n =>
    rw [leads_arithmetic_ok]
    split
    · rename_i b rest hbin
      rw [leads_bind]
      refine leads_say fun text => ?_
      exact ((Books.printed h text).takeBlock hn hbin).mono (fun _ _ hr => hr.found)
    · rename_i hbin
      simp only [leads_bind, leads_modifyPool]
      have hopen := Books.openBin h hbin
      cases hby : allocSize r.pool.leadingBits n with
      | error => exact hopen
      | ok bytes =>
        have hreq : bytesFor r.pool.leadingBits size = .ok bytes := by rw [bytesFor_eq hn, hby]
        rw [leads_arithmetic_ok, leads_bind]
        refine leads_say fun text => ?_
        rw [leads_tryCatch]
        refine ((hopen.printed text).getFromAllocator hreq).mono (fun _ _ hr => hr.found) (fun e r1 h1 => ?_)
        split
        · exact h1.sound
        · exact reclaim_leads h1.sound hf hn hreq

lemma allocate (size : Nat) : Leads (allocate a.recorded size)
      (fun x r' => Sound a s₀ bits ph r' ∧ x.2 = size ∧ x ∈ live r'.allocations) (fun _ => Sound a s₀ bits ph) r := by
  unfold Pool.allocate
  simp only [leads_bind, leads_tryCatch]
  refine (h.allocateBlock hf size).mono (fun b r' hr => ?_) (fun e r' hr => ?_)
  · have hlive : live (r'.allocations ++ [some ⟨b, size, true⟩]) = live r'.allocations ++ [(b, size)] := by
      simp [live]
    refine ⟨?_, rfl, ?_⟩
    · refine ((Books.remember hr (r'.allocations ++ [some ⟨b, size, true⟩])).perm ?_).sound
      rw [hlive]
      exact (perm_append_singleton _ _).symm
    · rw [hlive]
      exact mem_append_right _ mem_cons_self
  · refine ((Books.remember hr (r'.allocations ++ [none])).perm ?_).sound
    simp [live]

end Sound

/-! ## Giving back all held blocks -/

namespace Books

variable (h : Books a s₀ bits ph as out r)

include h

variable {xs ys : List (Nat × List Block)}

lemma emptyBin (hf : a.Fresh s₀) {n : Nat} {bs : List Block}
    (hbins : r.pool.bins = xs ++ (n, bs) :: ys) : Leads (emptyBin a.recorded n bs)
      (fun _ r' => Books a s₀ bits ph as out r' ∧ r'.pool.bins = xs ++ (n, []) :: ys)
      (fun _ r' => Books a s₀ bits ph as out r' ∧ ¬ a.FreesSucceed s₀) r := by
  induction bs generalizing r with
  | nil => exact ⟨h, hbins⟩
  | cons b rest ih =>
    have hbin : binIn r.pool.bins n = b :: rest := binIn_of_mem h.ascending (by simp [hbins])
    unfold Pool.emptyBin
    rw [leads_bind]
    refine (h.giveBackHeld hf hbin).mono (fun _ r' hr => ?_)
    rw [leads_bind, leads_modifyPool]
    refine ih hr.2 ?_
    rw [hr.1, hbins]
    exact putBin_middle (hbins ▸ h.ascending) rest

lemma emptyBins (hf : a.Fresh s₀) (hbins : r.pool.bins = xs ++ ys)
    (hxs : filed xs = []) : Leads (emptyBins a.recorded ys)
      (fun _ r' => Books a s₀ bits ph as out r' ∧ filed r'.pool.bins = [])
      (fun _ r' => Books a s₀ bits ph as out r' ∧ ¬ a.FreesSucceed s₀) r := by
  induction ys generalizing r xs with
  | nil => exact ⟨h, by rw [hbins, append_nil, hxs]⟩
  | cons bin ys ih =>
    obtain ⟨n, bs⟩ := bin
    unfold Pool.emptyBins
    rw [leads_bind]
    refine (h.emptyBin hf hbins).mono (fun _ r' hr => ?_)
    have hbins' : r'.pool.bins = (xs ++ [(n, [])]) ++ ys := by simp [hr.2]
    exact ih hr.1 hbins' (by simp [hxs])

lemma freeHeld (hf : a.Fresh s₀) : Leads (freeHeld a.recorded)
      (fun _ r' => Books a s₀ bits ph as out r' ∧ filed r'.pool.bins = [])
      (fun _ r' => Books a s₀ bits ph as out r' ∧ ¬ a.FreesSucceed s₀) r := by
  exact h.emptyBins hf (nil_append _).symm filed_nil

lemma drain : Books a s₀ bits .draining as out { r with pool := { r.pool with stopped := true } } :=
  ⟨h.bits_eq, rfl, h.allocations_eq, h.ascending, h.reached, h.owned, h.held_eq, h.active_eq, fun hp => by cases hp⟩

omit h in
lemma stop (h : Books a s₀ bits .draining as out r) (hnone : filed r.pool.bins = []) :
    Books a s₀ bits .stopped as out r :=
  ⟨h.bits_eq, h.flag_eq, h.allocations_eq, h.ascending, h.reached, h.owned, h.held_eq, h.active_eq, fun _ => hnone⟩

lemma stopHolding (hf : a.Fresh s₀) : Leads (stopHolding a.recorded) (fun _ => Books a s₀ bits .stopped as out)
      (fun _ r' => Books a s₀ bits .draining as out r' ∧ ¬ a.FreesSucceed s₀) r := by
  exact (h.drain.freeHeld hf).mono (fun _ _ hr => hr.1.stop hr.2)

end Books

end

end ClHost.Pool
