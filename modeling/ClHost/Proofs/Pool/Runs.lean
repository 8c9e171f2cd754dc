import ClHost.Proofs.Pool.Accounting

/-!
# Runs of a pool

A run is any list of operations. The allocator may answer them as it likes, as long as it hands out no
block that is outstanding; an operation that fails leaves a state like any other, and the run goes on.
-/

namespace ClHost.Pool

section

variable {σ : Type} {a : Allocator σ} {s₀ : σ} {bits : Nat} {ph : Phase} {r : Run (Recorded σ)}

inductive Operation where
  | allocate (size : Nat)
  | free (i : Nat)
  | freeHeld
  | stopHolding
  | tryToFreeMemory
deriving DecidableEq

namespace Operation

def perform (a : Allocator σ) : Operation → PoolM σ Unit
  | allocate size => do let _ ← Pool.allocate a size
  | free i => Pool.free a i
  | freeHeld => Pool.freeHeld a
  | stopHolding => Pool.stopHolding a
  | tryToFreeMemory => do let _ ← Pool.tryToFreeMemory a

def phase : Operation → Phase → Phase
  | stopHolding, _ => .stopped
  | _, ph => ph

end Operation

def runAll (a : Allocator σ) (ops : List Operation) (r : Run σ) : Run σ :=
  ops.foldl (fun r op => ((op.perform a).run.run r).2) r

def newRun (bits : Nat) (s₀ : σ) : Run (Recorded σ) := ⟨{ leadingBits := bits }, ⟨s₀, []⟩, []⟩

lemma Leads.state {α : Type} {m : PoolM σ α} {P : Run σ → Prop} {r : Run σ}
    (h : Leads m (fun _ => P) (fun _ => P) r) : P (m.run.run r).2 := by
  unfold Leads at h
  split at h
  · rename_i hm
    rw [hm]
    exact h
  · rename_i hm
    rw [hm]
    exact h

/-- **An operation keeps the books.** -/
lemma Sound.perform (h : Sound a s₀ bits ph r) (hf : a.Fresh s₀) (op : Operation) :
    ∃ ph', Sound a s₀ bits ph' ((op.perform a.recorded).run.run r).2 ∧ (a.FreesSucceed s₀ → ph' = op.phase ph) := by
  cases op with
  | allocate size =>
    refine ⟨ph, Leads.state ?_, fun _ => rfl⟩
    unfold Operation.perform
    rw [leads_bind]
    exact (h.allocate hf size).mono (fun _ _ hr => hr.1)
  | free i => exact ⟨ph, (h.free hf i).state, fun _ => rfl⟩
  | freeHeld =>
    refine ⟨ph, Leads.state ?_, fun _ => rfl⟩
    exact (Books.freeHeld h hf).mono (fun _ _ hr => hr.1.sound) (fun _ _ hr => hr.1.sound)
  | stopHolding =>
    by_cases hs : a.FreesSucceed s₀
    · refine ⟨.stopped, Leads.state ?_, fun _ => rfl⟩
      exact (Books.stopHolding h hf).mono (fun _ _ hr => hr.sound) (fun _ _ hr => absurd hs hr.2)
    · have hlead : Leads (Pool.stopHolding a.recorded) (fun _ r' => ∃ ph', Sound a s₀ bits ph' r')
          (fun _ r' => ∃ ph', Sound a s₀ bits ph' r') r :=
        (Books.stopHolding h hf).mono (fun _ _ hr => ⟨_, hr.sound⟩) (fun _ _ hr => ⟨_, hr.1.sound⟩)
      obtain ⟨ph', hr⟩ := hlead.state
      exact ⟨ph', hr, fun hs' => absurd hs' hs⟩
  | tryToFreeMemory =>
    refine ⟨ph, Leads.state ?_, fun _ => rfl⟩
    unfold Operation.perform
    rw [leads_bind]
    exact (Books.tryToFreeMemory h hf).mono (fun _ _ hr => hr.sound) (fun _ _ hr => hr.sound)

/-- **A run keeps the books**, whatever its operations and whatever the allocator answers. -/
lemma Sound.runAll (hf : a.Fresh s₀) (ops : List Operation) :
    ∀ {ph : Phase} {r : Run (Recorded σ)}, Sound a s₀ bits ph r → ∃ ph', Sound a s₀ bits ph' (runAll a.recorded ops r) ∧
        (a.FreesSucceed s₀ → ph' = ops.foldl (fun ph op => op.phase ph) ph) := by
  induction ops with
  | nil => exact fun {ph r} h => ⟨ph, h, fun _ => rfl⟩
  | cons op ops ih =>
    intro ph r h
    obtain ⟨ph1, h1, hph1⟩ := h.perform hf op
    obtain ⟨ph2, h2, hph2⟩ := ih h1
    refine ⟨ph2, h2, fun hs => ?_⟩
    rw [hph2 hs, hph1 hs, List.foldl_cons]

lemma sound_newRun (a : Allocator σ) (s₀ : σ) (bits : Nat) : Sound a s₀ bits .holding (newRun bits s₀) :=
  Books.start a s₀ bits

lemma phase_stopped (ops : List Operation) : ops.foldl (fun ph op => op.phase ph) .stopped = .stopped := by
  induction ops with
  | nil => rfl
  | cons op ops ih =>
    have hop : op.phase .stopped = .stopped := by cases op <;> rfl
    rw [List.foldl_cons, hop, ih]

/-! ## What the books say -/

structure Accounted (ops : List Operation) (r : Run (Recorded σ)) : Prop where
  /-- One counter tells how many blocks are in the bins. -/
  held_eq : r.pool.held = r.pool.heldBlocks % word32
  /-- The other tells how many blocks are with the application. -/
  active_eq : r.pool.active = (live r.allocations).length % word32
  /-- No block is in two places. -/
  apart : (r.pool.heldPointers ++ (live r.allocations).map (·.1)).Nodup
  /-- Each time a block is obtained, it is then held, with the application or given back once, unless it was
  given back once and then obtained again. -/
  fate : ∀ before b bytes later, r.allocator.transfers = before ++ .obtained b bytes :: later →
    (if later.any (·.obtains b) then 0
      else r.pool.heldPointers.count b + ((live r.allocations).map (·.1)).count b) +
        returnsBeforeNext b later = 1
  /-- Once the pool has stopped holding blocks, it holds none. -/
  stopped : ∀ earlier later, ops = earlier ++ .stopHolding :: later → r.pool.heldPointers = []

/-- **The accounts of a pool are right after every run.** -/
theorem run_accounted (a : Allocator σ) (s₀ : σ) (hf : a.Fresh s₀) (hs : a.FreesSucceed s₀) (bits : Nat)
    (ops : List Operation) : Accounted ops (runAll a.recorded ops (newRun bits s₀)) := by
  obtain ⟨ph, h, hph⟩ := (sound_newRun a s₀ bits).runAll hf ops
  refine ⟨?_, h.active_eq hs, h.nodup hf, fun before b bytes later he => ?_, fun earlier later he => ?_⟩
  · rw [State.heldBlocks_eq]
    exact h.held_eq
  · rw [← h.count_outstanding]
    exact h.reached.settled hf before b bytes later he
  · have hstopped : ph = .stopped := by
      rw [hph hs, he, List.foldl_append, List.foldl_cons]
      exact phase_stopped later
    rw [State.heldPointers, h.none_held hstopped]
    rfl

theorem run_accounted_numbered :
    Numbered.functions.Fresh { capacity := 64 } ∧ Numbered.functions.FreesSucceed { capacity := 64 } ∧
      Accounted [.allocate 40, .free 0, .allocate 41, .allocate 50, .stopHolding, .free 1]
        (runAll Numbered.functions.recorded
          [.allocate 40, .free 0, .allocate 41, .allocate 50, .stopHolding, .free 1]
          (newRun 4 { capacity := 64 })) :=
  ⟨Numbered.fresh _, Numbered.freesSucceed _,
    run_accounted _ _ (Numbered.fresh _) (Numbered.freesSucceed _) 4 _⟩

lemma le_bytesFor {size bytes : Nat} (h : size < 2 ^ 32) (hby : bytesFor 4 size = .ok bytes) : size ≤ bytes := by
  obtain ⟨n, hn, hle, -⟩ := allocSize_binNumber_of_lt h
  rw [bytesFor_eq (binNumber_eq (Nat.lt_trans h (by decide))), hn] at hby
  cases hby
  exact hle

/-- **Blocks are large enough.** The block that serves a request, new or from a bin, was obtained with at
least the bytes that were asked for, and was not given back since. -/
theorem allocate_bytes (a : Allocator σ) (s₀ : σ) (hf : a.Fresh s₀) (ops : List Operation) (size : Nat)
    (hsize : size < 2 ^ 32) (b : Block) (n : Nat) (r : Run (Recorded σ))
    (h : (allocate a.recorded size).run.run (runAll a.recorded ops (newRun 4 s₀)) = (.ok (b, n), r)) :
    ∃ before bytes later, r.allocator.transfers = before ++ .obtained b bytes :: later ∧
      .returned b ∉ later ∧ size ≤ bytes := by
  obtain ⟨ph, hrun, -⟩ := (sound_newRun a s₀ 4).runAll hf ops
  have hlead := hrun.allocate hf size
  unfold Leads at hlead
  rw [h] at hlead
  obtain ⟨hr, rfl, hlive⟩ := hlead
  obtain ⟨bytes, hby, hout⟩ := Books.outstanding_of_mem hr
    (List.mem_append_right _ (List.mem_map_of_mem hlive))
  obtain ⟨before, later, hts, hnot⟩ := mem_outstanding hout
  exact ⟨before, bytes, later, hts, hnot, le_bytesFor hsize hby⟩

theorem allocate_bytes_reused :
    ∃ r, (allocate Numbered.functions.recorded 41).run.run
        (runAll Numbered.functions.recorded [.allocate 40, .free 0] (newRun 4 { capacity := 64 })) =
          (.ok (0, 41), r) ∧
      ∃ before bytes later, r.allocator.transfers = before ++ .obtained 0 bytes :: later ∧
        .returned 0 ∉ later ∧ 41 ≤ bytes := by
  have hok : ((allocate Numbered.functions.recorded 41).run.run
      (runAll Numbered.functions.recorded [.allocate 40, .free 0] (newRun 4 { capacity := 64 }))).1 =
        .ok (0, 41) := by
    decide +kernel
  revert hok
  rcases hrun : (allocate Numbered.functions.recorded 41).run.run _ with ⟨result, r⟩
  rintro rfl
  exact ⟨r, rfl, allocate_bytes _ _ (Numbered.fresh _) _ 41 (by decide) 0 41 r hrun⟩

end

open List

/-! ## Allocators that are watched -/

inductive Answer where
  | granted (b : Block) (bytes : Nat)
  | refused (bytes : Nat) (e : ErrorRecord)
  | returned (b : Block)
  /-- The allocator raised an error instead of taking the block back. -/
  | kept (b : Block) (e : ErrorRecord)
  | collected (garbage : List Nat)
deriving DecidableEq

def Answer.error? : Answer → Option ErrorRecord
  | refused _ e | kept _ e => some e
  | _ => none

def Answer.ofAllocate (bytes : Nat) : Except ErrorRecord Block → Answer
  | .ok b => granted b bytes
  | .error e => refused bytes e

/-- The answer when a block is given back. -/
def Answer.ofFree (b : Block) : Except ErrorRecord Unit → Answer
  | .ok () => returned b
  | .error e => kept b e

structure Watched (σ : Type) where
  state : σ
  answers : List Answer := []

section

variable {σ : Type}

def Allocator.watched (a : Allocator σ) : Allocator (Watched σ) where
  allocate s bytes :=
    let (x, s') := a.allocate s.state bytes
    (x, ⟨s', s.answers ++ [.ofAllocate bytes x]⟩)
  free s b :=
    let (x, s') := a.free s.state b
    (x, ⟨s', s.answers ++ [.ofFree b x]⟩)
  collect s :=
    let (garbage, s') := a.collect s.state
    (garbage, ⟨s', s.answers ++ [.collected garbage]⟩)

def Run.watched (r : Run σ) : Run (Watched σ) := ⟨r.pool, ⟨r.allocator, []⟩, r.allocations⟩

/-! ## What frees leave -/

def Balanced (lost : Nat) (r r' : Run σ) : Prop :=
  (r'.pool.active + lost + (live r.allocations).length) % word32 =
    (r.pool.active + (live r'.allocations).length) % word32

lemma Balanced.refl (r : Run σ) : Balanced 0 r r := rfl

lemma Balanced.trans {k l : Nat} {r r' r'' : Run σ} (h : Balanced k r r') (h' : Balanced l r' r'') :
    Balanced (k + l) r r'' := by
  unfold Balanced at *
  rw [word32_eq] at *
  omega

lemma succ_decrement (n : Nat) : (decrement n + 1) % word32 = n % word32 := by
  rw [decrement, word32_eq]
  simp only [beq_iff_eq]
  split <;> omega

lemma binIn_putBin (n : Nat) (bs : List Block) (m : Nat) (bins : List (Nat × List Block)) :
    binIn (putBin n bs bins) m = if m = n then bs else binIn bins m := by
  have hcons : ∀ k cs rest, binIn ((k, cs) :: rest) m = if m = k then cs else binIn rest m := by
    intro k cs rest
    split
    · subst k
      exact binIn_cons_of_eq m cs rest
    · rename_i h
      exact binIn_cons_of_ne cs rest (Ne.symm h)
  induction bins with
  | nil => exact hcons n bs []
  | cons bin bins ih =>
    obtain ⟨k, cs⟩ := bin
    simp only [putBin, beq_iff_eq]
    split
    · subst k
      rw [hcons, hcons]
      split <;> rfl
    · split
      · rw [hcons]
      · rw [hcons, hcons, ih]
        split <;> grind

structure Passed (lost : Nat) (r r' : Run (Watched σ)) (answers : List Answer) : Prop where
  balanced : Balanced lost r r'
  bits : r'.pool.leadingBits = r.pool.leadingBits
  live : (live r'.allocations).Subperm (live r.allocations)
  bins : ∀ n, binIn r.pool.bins n <:+ binIn r'.pool.bins n
  ascending : Ascending r.pool.bins → Ascending r'.pool.bins
  answers : r'.allocator.answers = r.allocator.answers ++ answers

namespace Passed

lemma refl (r : Run (Watched σ)) : Passed 0 r r [] :=
  ⟨.refl r, rfl, Subperm.refl _, fun _ => suffix_refl _, id, (append_nil _).symm⟩

lemma trans {k l : Nat} {r r' r'' : Run (Watched σ)} {xs ys : List Answer} (h : Passed k r r' xs)
    (h' : Passed l r' r'' ys) : Passed (k + l) r r'' (xs ++ ys) where
  balanced := h.balanced.trans h'.balanced
  bits := h'.bits.trans h.bits
  live := h'.live.trans h.live
  bins := fun n => (h.bins n).trans (h'.bins n)
  ascending := h'.ascending ∘ h.ascending
  answers := by rw [h'.answers, h.answers, append_assoc]

end Passed

variable {a : Allocator σ} {r : Run (Watched σ)}

def FreeFails (r : Run (Watched σ)) (e : PoolError) (r' : Run (Watched σ)) : Prop :=
  (∃ f x, x ∈ live r.allocations ∧ binNumber r.pool.leadingBits x.2 = .error f ∧ e = .arithmetic f ∧ Passed 1 r r' []) ∨
  ∃ b err, e = .device err ∧ Passed 1 r r' [.kept b err]

variable {r' : Run (Watched σ)}

lemma passed_decrement {answers : List Answer}
    (hact : r'.pool.active = decrement r.pool.active) (halloc : r'.allocations = r.allocations)
    (hbits : r'.pool.leadingBits = r.pool.leadingBits) (hbins : ∀ n, binIn r.pool.bins n <:+ binIn r'.pool.bins n)
    (hasc : Ascending r.pool.bins → Ascending r'.pool.bins)
    (hans : r'.allocator.answers = r.allocator.answers ++ answers) : Passed 1 r r' answers := by
  have hstep := succ_decrement r.pool.active
  refine ⟨?_, hbits, halloc ▸ Subperm.refl _, hbins, hasc, hans⟩
  rw [Balanced, halloc]
  rw [word32_eq] at hstep ⊢
  omega

lemma leads_release {b : Block} {size : Nat} (hlive : (b, size) ∈ live r.allocations) :
    Leads (release a.watched b size) (fun _ r' => r'.allocations = r.allocations ∧
      ∃ bs : List Block, Passed 1 r r' (bs.map .returned)) (FreeFails r) r := by
  unfold release
  simp only [leads_bind, leads_modifyPool, leads_get]
  cases hn : binNumber r.pool.leadingBits size with
  | error f =>
    refine Or.inl ⟨f, (b, size), hlive, hn, rfl, passed_decrement rfl rfl rfl (fun _ => suffix_refl _) id ?_⟩
    exact (append_nil _).symm
  | ok n =>
    rw [leads_arithmetic_ok]
    split
    · rw [leads_giveBack]
      rcases hfree : a.free r.allocator.state b with ⟨err | ⟨⟩, s⟩
      · simp only [Allocator.watched, hfree]
        exact Or.inr ⟨b, err, rfl, passed_decrement rfl rfl rfl (fun _ => suffix_refl _) id rfl⟩
      · simp only [Allocator.watched, hfree]
        exact ⟨trivial, [b], passed_decrement rfl rfl rfl (fun _ => suffix_refl _) id rfl⟩
    · simp only [leads_bind, leads_modifyPool]
      refine leads_say fun text => ⟨rfl, [], passed_decrement rfl rfl rfl (fun m => ?_) (fun h => ?_) ?_⟩
      · rw [binIn_putBin]
        split
        · subst m
          exact suffix_cons _ _
        · exact suffix_refl _
      · exact ascending_putBin h n _
      · exact (append_nil _).symm

lemma leads_free_live {i : Nat} {al : Allocation} (hi : r.allocations[i]? = some (some al)) (hv : al.valid = true) :
    Leads (free a.watched i) (fun _ r' => ∃ bs : List Block, Passed 0 r r' (bs.map .returned)) (FreeFails r) r := by
  have hperm := live_set hi hv
  have hlive : (al.block, al.size) ∈ live r.allocations := hperm.mem_iff.2 mem_cons_self
  unfold free
  simp only [leads_bind, leads_get, hi, hv, if_true]
  refine (leads_release hlive).mono ?_
  rintro _ r' ⟨halloc, bs, h⟩
  rw [leads_modify]
  have hlen := hperm.length_eq
  refine ⟨bs, ?_, h.bits, ?_, h.bins, h.ascending, h.answers⟩
  · have hbal := h.balanced
    rw [Balanced, halloc] at hbal
    rw [Balanced, halloc]
    dsimp only
    rw [length_cons] at hlen
    rw [word32_eq] at hbal ⊢
    omega
  · rw [halloc]
    exact (sublist_cons_self _ _).subperm.trans hperm.symm.subperm

lemma leads_releaseGarbage (garbage : List Nat) :
    Leads (releaseGarbage a.watched garbage) (fun _ r' => ∃ bs : List Block, Passed 0 r r' (bs.map .returned))
      (fun e r' => ∃ (bs : List Block) (r1 : Run (Watched σ)),
        Passed 0 r r1 (bs.map .returned) ∧ FreeFails r1 e r') r := by
  induction garbage generalizing r with
  | nil => exact ⟨[], .refl r⟩
  | cons i garbage ih =>
    unfold releaseGarbage
    rw [leads_bind, leads_get]
    split
    · rename_i al hi
      split
      · rename_i hv
        rw [leads_bind]
        refine (leads_free_live hi hv).mono ?_ fun e r' h => ⟨[], r, .refl r, h⟩
        rintro _ r1 ⟨bs, h⟩
        refine ih.mono ?_ ?_
        · rintro _ r' ⟨bs', h'⟩
          exact ⟨bs ++ bs', by rw [map_append]; exact h.trans h'⟩
        · rintro e r' ⟨bs', r2, h', hfails⟩
          exact ⟨bs ++ bs', r2, by rw [map_append]; exact h.trans h', hfails⟩
      · exact ih
    · exact ih

end

end ClHost.Pool
