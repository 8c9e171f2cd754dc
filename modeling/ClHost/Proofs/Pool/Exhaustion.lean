import ClHost.Proofs.Pool.Runs

/-!
# Requests that find no memory

A request whose bin is empty goes to the allocator. If that has no memory, garbage is released, and then the blocks in
the bins are given back, one before each further try.
-/

namespace ClHost.Pool

open List

/-! ## The order in which blocks are given back -/

variable (bins : List (Nat × List Block))

def downward : List Block := bins.reverse.flatMap (·.2)

lemma downward_append (xs ys : List (Nat × List Block)) : downward (xs ++ ys) = downward ys ++ downward xs := by
  simp [downward]

lemma downward_cons (n : Nat) (bs : List Block) (bins : List (Nat × List Block)) :
    downward ((n, bs) :: bins) = downward bins ++ bs := by
  simp [downward]

lemma length_downward : (downward bins).length = (filed bins).length := by
  induction bins with
  | nil => rfl
  | cons bin bins ih => rw [downward_cons, filed_cons, length_append, length_append, ih, length_map, Nat.add_comm]

variable {bins : List (Nat × List Block)}

lemma downward_of_largestBin_none (h : largestBin bins = none) : downward bins = [] := by
  induction bins with
  | nil => rfl
  | cons bin bins ih =>
    simp only [largestBin] at h
    split at h
    · cases h
    · rename_i hrest
      split at h
      · rename_i hemp
        rw [downward_cons, ih hrest, List.isEmpty_iff.1 hemp]
        rfl
      · cases h

variable {n : Nat}

lemma exists_of_largestBin {bs : List Block} (h : largestBin bins = some (n, bs)) :
    bs ≠ [] ∧ ∃ xs ys, bins = xs ++ (n, bs) :: ys ∧ downward ys = [] := by
  induction bins with
  | nil => cases h
  | cons bin bins ih =>
    obtain ⟨m, cs⟩ := bin
    simp only [largestBin] at h
    split at h
    · rename_i hfnd
      cases h
      obtain ⟨hne, xs, ys, rfl, hys⟩ := ih hfnd
      exact ⟨hne, (m, cs) :: xs, ys, rfl, hys⟩
    · rename_i hrest
      split at h
      · cases h
      · rename_i hne
        cases h
        exact ⟨by simpa using hne, [], bins, rfl, downward_of_largestBin_none hrest⟩

lemma downward_pop (h : Ascending bins) {b : Block} {rest : List Block}
    (hlarg : largestBin bins = some (n, b :: rest)) : downward bins = b :: downward (putBin n rest bins) := by
  obtain ⟨-, xs, ys, rfl, hys⟩ := exists_of_largestBin hlarg
  rw [putBin_middle h, downward_append, downward_append, downward_cons, downward_cons, hys]
  rfl

/-! ## Tries -/

section

variable {σ : Type} {a : Allocator σ}

structure GaveBack (a : Allocator σ) (r r' : Run σ) (more : Bool) : Prop where
  ascending : Ascending r'.pool.bins
  active : r'.pool.active = r.pool.active
  allocations : r'.allocations = r.allocations
  held : more = true → ∃ b, downward r.pool.bins = b :: downward r'.pool.bins ∧
    a.free r.allocator b = (.ok (), r'.allocator)
  none : more = false → r' = r ∧ downward r.pool.bins = []

variable {r : Run σ} {α : Type} {bound : Nat} {s' : Watched σ} {b : Block} {refusal : ErrorRecord}

lemma leads_tryToFreeMemory (h : Ascending r.pool.bins) :
    Leads (tryToFreeMemory a) (fun more r' => GaveBack a r r' more)
      (fun e r' => ∃ b err, e = .device err ∧ a.free r.allocator b = (.error err, r'.allocator) ∧
        r'.pool = r.pool ∧ r'.allocations = r.allocations) r := by
  unfold tryToFreeMemory
  rw [leads_bind, leads_get]
  split
  · rename_i n b rest hlarg
    rw [leads_bind, leads_giveBack]
    rcases hfree : a.free r.allocator b with ⟨err | ⟨⟩, s⟩
    · exact ⟨b, err, rfl, hfree, rfl, rfl⟩
    · exact ⟨ascending_putBin h n rest, rfl, rfl, fun _ => ⟨b, downward_pop h hlarg, hfree⟩,
        fun hmore => (by cases hmore)⟩
  · rename_i hoth
    refine ⟨h, rfl, rfl, fun hmore => (by cases hmore), fun _ => ⟨rfl, ?_⟩⟩
    cases hlarg : largestBin r.pool.bins with
    | none => exact downward_of_largestBin_none hlarg
    | some bin =>
      obtain ⟨n, bs⟩ := bin
      obtain ⟨b, rest, rfl⟩ := exists_cons_of_ne_nil (exists_of_largestBin hlarg).1
      exact absurd hlarg (hoth n b rest)

lemma run_tryCatch_congr {m : PoolM σ α} {f g : PoolError → PoolM σ α}
    (h : Leads m (fun _ _ => True) (fun e r' => (f e).run.run r' = (g e).run.run r') r) :
    (tryCatch m f).run.run r = (tryCatch m g).run.run r := by
  unfold Leads at h
  rw [run_tryCatch, run_tryCatch]
  rcases hm : m.run.run r with ⟨e | _, s⟩
  · rw [hm] at h
    exact h
  · rfl

/-- **The tries end by themselves**: a bound that is larger than the number of held blocks does not matter. -/
lemma retry_eq (a : Allocator σ) (bytes : Nat) (h : Ascending r.pool.bins) {bound' : Nat}
    (hbd : r.pool.heldBlocks < bound) (hbd' : r.pool.heldBlocks < bound') :
    (retry a bytes bound).run.run r = (retry a bytes bound').run.run r := by
  rw [State.heldBlocks_eq, ← length_downward] at hbd hbd'
  induction bound generalizing r bound' with
  | zero => omega
  | succ bound ih =>
    obtain ⟨bound', rfl⟩ := Nat.exists_eq_add_one_of_ne_zero (Nat.ne_zero_of_lt hbd')
    refine run_bind_congr ((leads_tryToFreeMemory h).mono (fun more r₁ h1 => ?_) fun _ _ _ => trivial)
    cases more with
    | false => rfl
    | true =>
      obtain ⟨b, hb, -⟩ := h1.held rfl
      rw [hb] at hbd hbd'
      refine run_tryCatch_congr ?_
      rw [leads_getFromAllocator]
      rcases a.allocate r₁.allocator bytes with ⟨e | c, s⟩
      · dsimp only
        split
        · exact @ih ⟨r₁.pool, s, r₁.allocations⟩ h1.ascending _ (Nat.lt_of_succ_lt_succ hbd)
            (Nat.lt_of_succ_lt_succ hbd')
        · rfl
      · trivial

/-! ## What the allocator answers -/

def Calm (answers : List Answer) : Prop :=
  ∀ x ∈ answers, ∀ e, x.error? = some e → (PoolError.device e).isOutOfMemory = true

lemma Calm.append {xs ys : List Answer} (hxs : Calm xs) (hys : Calm ys) : Calm (xs ++ ys) :=
  forall_mem_append.2 ⟨hxs, hys⟩

lemma calm_returned (bs : List Block) : Calm (bs.map .returned) := by
  refine forall_mem_map.2 fun b _ e he => ?_
  cases he

lemma calm_refused {e : ErrorRecord} (h : (PoolError.device e).isOutOfMemory = true) (bytes : Nat) :
    Calm [.refused bytes e] := by
  intro x hx e' he
  cases mem_singleton.1 hx
  cases he
  exact h

/-- An answer that ends a request with an error: a block was not taken back, or the request was refused for another
reason than that memory ran out. -/
def Ends (e : ErrorRecord) : Answer → Prop
  | .kept _ e' => e' = e
  | .refused _ e' => e' = e ∧ (PoolError.device e).isOutOfMemory = false
  | _ => False

def rounds (bytes : Nat) (blocks : List (Block × ErrorRecord)) : List Answer :=
  blocks.flatMap fun x => [.returned x.1, .refused bytes x.2]

structure AllRefused (blocks : List (Block × ErrorRecord)) (given : List Block) : Prop where
  given : blocks.map (·.1) = given
  outOfMemory : ∀ x ∈ blocks, (PoolError.device x.2).isOutOfMemory = true

variable {r : Run (Watched σ)}

variable {e : PoolError} {s : Watched σ} {bytes size : Nat} {r₁ r' : Run (Watched σ)} {answers : List Answer}

lemma answers_of_free {x : Except ErrorRecord Unit} (h : a.watched.free s b = (x, s')) :
    s'.answers = s.answers ++ [.ofFree b x] := by
  cases h
  rfl

lemma answers_of_allocate {x : Except ErrorRecord Block} (h : a.watched.allocate s bytes = (x, s')) :
    s'.answers = s.answers ++ [.ofAllocate bytes x] := by
  cases h
  rfl

def TriesFail (bytes : Nat) (r : Run (Watched σ)) (e : PoolError) (r' : Run (Watched σ)) : Prop :=
  (∃ earlier x err, Calm earlier ∧ Ends err x ∧ e = .device err ∧
    r'.allocator.answers = r.allocator.answers ++ (earlier ++ [x])) ∨
  (e = .device exhausted ∧ downward r'.pool.bins = [] ∧ ∃ blocks, AllRefused blocks (downward r.pool.bins) ∧
    r'.allocator.answers = r.allocator.answers ++ rounds bytes blocks)

lemma TriesFail.cons (h : TriesFail bytes r₁ e r') (hr : downward r.pool.bins = b :: downward r₁.pool.bins)
    (hans : r₁.allocator.answers = r.allocator.answers ++ [.returned b, .refused bytes refusal])
    (href : (PoolError.device refusal).isOutOfMemory = true) : TriesFail bytes r e r' := by
  rcases h with ⟨earlier, x, err, hearlier, hx, he, h⟩ | ⟨he, hnone, blocks, ⟨hgiven, hmem⟩, h⟩
  · refine Or.inl ⟨[.returned b, .refused bytes refusal] ++ earlier, x, err, ?_, hx, he, ?_⟩
    · exact ((calm_returned [b]).append (calm_refused href bytes)).append hearlier
    · rw [h, hans, append_assoc, append_assoc]
  · refine Or.inr ⟨he, hnone, (b, refusal) :: blocks, ⟨?_, forall_mem_cons.2 ⟨href, hmem⟩⟩, ?_⟩
    · rw [map_cons, hgiven, hr]
    · rw [h, hans, append_assoc]
      rfl

/-- **Further tries** give back blocks from the largest bin down, until the allocator does something else than to
refuse the request for want of memory. -/
lemma leads_retry (h : Ascending r.pool.bins) (hbd : (downward r.pool.bins).length < bound) :
    Leads (retry a.watched bytes bound)
      (fun _ r' => r'.pool.active = increment r.pool.active ∧ r'.allocations = r.allocations ∧
        ∃ answers, Calm answers ∧ r'.allocator.answers = r.allocator.answers ++ answers)
      (fun e r' => r'.pool.active = r.pool.active ∧ r'.allocations = r.allocations ∧ TriesFail bytes r e r') r := by
  induction bound generalizing r with
  | zero => omega
  | succ bound ih =>
    unfold retry
    rw [leads_bind]
    refine (leads_tryToFreeMemory h).mono (fun more r₁ h1 => ?_) ?_
    · cases more with
      | false =>
        obtain ⟨rfl, hnone⟩ := h1.none rfl
        exact ⟨rfl, rfl, Or.inr ⟨rfl, hnone, [], ⟨hnone.symm, fun _ h => absurd h not_mem_nil⟩, (append_nil _).symm⟩⟩
      | true =>
        obtain ⟨b, hb, hfree⟩ := h1.held rfl
        have hret := answers_of_free hfree
        rw [if_pos rfl, leads_tryCatch, leads_getFromAllocator]
        rcases hallocate : a.watched.allocate r₁.allocator bytes with ⟨e | c, s⟩
        · have hans := answers_of_allocate hallocate
          rw [hret, append_assoc] at hans
          dsimp only
          split
          · rename_i hmem
            have hlen : (downward r₁.pool.bins).length < bound := by
              rw [hb, length_cons] at hbd
              omega
            refine (@ih ⟨r₁.pool, s, r₁.allocations⟩ h1.ascending hlen).mono ?_ ?_
            · rintro c r' ⟨hact, halloc, answers, hcalm, h⟩
              refine ⟨hact.trans (congrArg increment h1.active), halloc.trans h1.allocations, _,
                ((calm_returned [b]).append (calm_refused hmem bytes)).append hcalm, ?_⟩
              rw [h, hans, append_assoc]
              rfl
            · rintro e' r' ⟨hact, halloc, h⟩
              exact ⟨hact.trans h1.active, halloc.trans h1.allocations, h.cons hb hans hmem⟩
          · rename_i hoth
            exact ⟨h1.active, h1.allocations, Or.inl ⟨[.returned b], .refused bytes e, e, calm_returned [b],
              ⟨rfl, by simpa using hoth⟩, rfl, hans⟩⟩
        · have hans := answers_of_allocate hallocate
          rw [hret, append_assoc] at hans
          refine ⟨congrArg increment h1.active, h1.allocations, _, ?_, hans⟩
          refine (calm_returned [b]).append fun x hx e he => ?_
          cases mem_singleton.1 hx
          cases he
    · rintro _ r' ⟨b, err, rfl, hfree, hpool, halloc⟩
      exact ⟨by rw [hpool], halloc, Or.inl ⟨[], .kept b err, err, fun _ h => absurd h not_mem_nil, rfl, rfl,
        answers_of_free hfree⟩⟩

/-! ## Requests -/

/-- All that could be given back was: the allocator refused the request, garbage was released, and then all blocks were
given back that were held by then, one at a time from the largest bin down, with another refusal after each. -/
def Exhausted (r : Run (Watched σ)) (size : Nat) (r' : Run (Watched σ)) : Prop :=
  ∃ n bytes refusal garbage settled bins blocks,
    binNumber r.pool.leadingBits size = .ok n ∧ allocSize r.pool.leadingBits n = .ok bytes ∧
    r'.allocator.answers = r.allocator.answers ++ (.refused bytes refusal :: .collected garbage ::
      (List.map .returned settled ++ rounds bytes blocks)) ∧
    (PoolError.device refusal).isOutOfMemory = true ∧ AllRefused blocks (downward bins) ∧ Ascending bins ∧
    (∀ m, binIn r.pool.bins m <:+ binIn bins m) ∧ downward r'.pool.bins = []

/-- What a request fails with: the arithmetic of bins, an error that the allocator raised last, or that all memory is
exhausted. -/
inductive Cause (r : Run (Watched σ)) (size : Nat) (r' : Run (Watched σ)) : PoolError → Prop
  | arithmetic {f : BinFault} {answers : List Answer} (hcalm : Calm answers)
      (hans : r'.allocator.answers = r.allocator.answers ++ answers) : Cause r size r' (.arithmetic f)
  | allocator {earlier : List Answer} {x : Answer} {e : ErrorRecord} (hearlier : Calm earlier) (hx : Ends e x)
      (hans : r'.allocator.answers = r.allocator.answers ++ (earlier ++ [x])) : Cause r size r' (.device e)
  | exhausted (h : Exhausted r size r') : Cause r size r' (.device exhausted)

def Served (r r' : Run (Watched σ)) : Prop :=
  (∃ r₁ answers, Passed 0 r r₁ answers ∧ r'.pool.active = increment r₁.pool.active ∧ r'.allocations = r₁.allocations) ∧
    ∃ answers, Calm answers ∧ r'.allocator.answers = r.allocator.answers ++ answers

structure Failed (r : Run (Watched σ)) (size : Nat) (e : PoolError) (r' : Run (Watched σ)) : Prop where
  uncounted : ∃ lost, Balanced lost r r' ∧ (lost = 0 ∨ lost = 1 ∧
    ((∃ f, e = .arithmetic f) ∨ ∃ b err, e = .device err ∧ r'.allocator.answers.getLast? = some (.kept b err)))
  live : (live r'.allocations).Subperm (live r.allocations)
  cause : Cause r size r' e

lemma Passed.failed (h : Passed 0 r r₁ answers) (hact : r'.pool.active = r₁.pool.active)
    (halloc : r'.allocations = r₁.allocations) (hcause : Cause r size r' e) : Failed r size e r' := by
  refine ⟨⟨0, ?_, Or.inl rfl⟩, ?_, hcause⟩
  · have hbal := h.balanced
    rwa [Balanced, ← hact, ← halloc] at hbal
  · rw [halloc]
    exact h.live

lemma FreeFails.failed
    (h : Passed 0 r r₁ answers) (hcalm : Calm answers) (hfails : FreeFails r₁ e r') : Failed r size e r' := by
  rcases hfails with ⟨f, -, -, -, rfl, h'⟩ | ⟨b, err, rfl, h'⟩
  · have hall := h.trans h'
    exact ⟨⟨_, hall.balanced, Or.inr ⟨rfl, Or.inl ⟨f, rfl⟩⟩⟩, hall.live, .arithmetic (by simpa using hcalm) hall.answers⟩
  · have hall := h.trans h'
    refine ⟨⟨_, hall.balanced, Or.inr ⟨rfl, Or.inr ⟨b, err, rfl, ?_⟩⟩⟩, hall.live,
      .allocator (x := .kept b err) hcalm rfl hall.answers⟩
    rw [hall.answers, ← append_assoc, getLast?_concat]

lemma passed_of_pool {p : State} (hact : p.active = r.pool.active)
    (hbits : p.leadingBits = r.pool.leadingBits) (hbins : ∀ m, binIn p.bins m = binIn r.pool.bins m)
    (hasc : Ascending r.pool.bins → Ascending p.bins) (hans : s.answers = r.allocator.answers ++ answers) :
    Passed 0 r ⟨p, s, r.allocations⟩ answers := by
  refine ⟨?_, hbits, Subperm.refl _, fun m => ?_, hasc, hans⟩
  · rw [Balanced, hact, Nat.add_zero]
  · exact (hbins m).symm ▸ suffix_refl _

lemma leads_reclaim {n : Nat} (h : Ascending r.pool.bins) (hn : binNumber r.pool.leadingBits size = .ok n)
    (hby : allocSize r.pool.leadingBits n = .ok bytes) (h1 : Passed 0 r r₁ [.refused bytes refusal])
    (href : (PoolError.device refusal).isOutOfMemory = true) :
    Leads (Sound.reclaim a.watched n bytes) (fun _ => Served r) (Failed r size) r₁ := by
  unfold Sound.reclaim
  rw [leads_bind]
  refine leads_say fun text => ?_
  rw [leads_bind, leads_get, leads_bind, leads_set, leads_bind]
  obtain ⟨garbage, hgarbage⟩ : ∃ garbage, (a.watched.collect r₁.allocator).2.answers =
      r₁.allocator.answers ++ [.collected garbage] := ⟨_, rfl⟩
  -- What happened up to the release of garbage.
  have hcollected := h1.trans (passed_of_pool (p := { r₁.pool with printed := text })
    (s := (a.watched.collect r₁.allocator).2) rfl rfl (fun _ => rfl) id hgarbage)
  have hcalm : Calm ([.refused bytes refusal] ++ [.collected garbage]) := by
    refine (calm_refused href bytes).append fun x hx e he => ?_
    cases mem_singleton.1 hx
    cases he
  refine (leads_releaseGarbage _).mono ?_ ?_
  · rintro _ r3 ⟨settled, h3⟩
    have hall := hcollected.trans h3
    have hcalm' := hcalm.append (calm_returned settled)
    rw [leads_bind, leads_get]
    dsimp only
    split
    · unfold takeBlock
      simp only [leads_bind, leads_modifyPool, leads_pure]
      exact ⟨⟨r3, _, hall, rfl, rfl⟩, _, hcalm', hall.answers⟩
    · rw [leads_bind]
      refine leads_say fun text => ?_
      have hasc := hall.ascending h
      refine (leads_retry (r := { r3 with pool := { r3.pool with printed := text } }) hasc ?_).mono ?_ ?_
      · rw [length_downward, ← State.heldBlocks_eq]
        exact Nat.lt_succ_self _
      · rintro b r' ⟨hact, halloc, answers, hanswered, hans⟩
        refine ⟨⟨r3, _, hall, hact, halloc⟩, _, hcalm'.append hanswered, ?_⟩
        rw [hans, ← append_assoc]
        exact congrArg (· ++ answers) hall.answers
      · rintro e r' ⟨hact, halloc, htries⟩
        refine hall.failed hact halloc ?_
        rcases htries with ⟨earlier, x, err, hearlier, hx, rfl, hans⟩ | ⟨rfl, hnone, blocks, hbls, hans⟩
        · refine .allocator (hcalm'.append hearlier) hx ?_
          rw [hans, append_assoc _ earlier, ← append_assoc _ _ (earlier ++ [x])]
          exact congrArg (· ++ (earlier ++ [x])) hall.answers
        · refine .exhausted ⟨n, bytes, refusal, garbage, settled, r3.pool.bins, blocks, hn, hby, ?_, href, hbls,
            hasc, hall.bins, hnone⟩
          rw [hans]
          refine (congrArg (· ++ rounds bytes blocks) hall.answers).trans ?_
          simp
  · rintro e r' ⟨settled, r3, h3, hfails⟩
    exact hfails.failed (hcollected.trans h3) (hcalm.append (calm_returned settled))

lemma leads_allocateBlock (h : Ascending r.pool.bins)
    (hbin : ∀ n, binNumber r.pool.leadingBits size = .ok n → r.pool.bin n = []) :
    Leads (allocateBlock a.watched size) (fun _ => Served r) (Failed r size) r := by
  unfold allocateBlock
  simp only [leads_bind, leads_get]
  have hnothing : Calm [] := fun _ hx => absurd hx not_mem_nil
  cases hn : binNumber r.pool.leadingBits size with
  | error => exact (Passed.refl r).failed rfl rfl (.arithmetic hnothing (append_nil _).symm)
  | ok n =>
    have hemp : binIn r.pool.bins n = [] := hbin n hn
    rw [leads_arithmetic_ok]
    split
    · rename_i hfull
      rw [hbin n hn] at hfull
      cases hfull
    · simp only [leads_bind, leads_modifyPool]
      have hopen (text : String) (s : Watched σ) (answers : List Answer)
          (hs : s.answers = r.allocator.answers ++ answers) :
          Passed 0 r ⟨{ r.pool with bins := putBin n [] r.pool.bins, printed := text }, s, r.allocations⟩ answers := by
        refine passed_of_pool rfl rfl (fun m => ?_) (fun h => ascending_putBin h n []) hs
        rw [binIn_putBin]
        split
        · subst m
          exact hemp.symm
        · rfl
      cases hby : allocSize r.pool.leadingBits n with
      | error =>
        have hans : r.allocator.answers = r.allocator.answers ++ [] := (append_nil _).symm
        exact (hopen r.pool.printed r.allocator [] hans).failed rfl rfl (.arithmetic hnothing hans)
      | ok bytes =>
        rw [leads_arithmetic_ok, leads_bind]
        refine leads_say fun text => ?_
        rw [leads_tryCatch, leads_getFromAllocator]
        rcases hallocate : a.watched.allocate r.allocator bytes with ⟨e | b, s⟩
        · have hans := answers_of_allocate hallocate
          have hrefused := hopen text s _ hans
          dsimp only
          split
          · rename_i hoth
            refine hrefused.failed rfl rfl (.allocator (x := .refused bytes e) hnothing ⟨rfl, ?_⟩ hans)
            simpa using hoth
          · rename_i hmem
            exact leads_reclaim h hn hby hrefused (by simpa using hmem)
        · have hans := answers_of_allocate hallocate
          refine ⟨⟨_, _, hopen text s _ hans, rfl, rfl⟩, _, fun x hx e he => ?_, hans⟩
          cases mem_singleton.1 hx
          cases he

lemma leads_allocate (h : Ascending r.pool.bins)
    (hbin : ∀ n, binNumber r.pool.leadingBits size = .ok n → r.pool.bin n = []) : Leads (allocate a.watched size)
      (fun x r' => Balanced 0 r r' ∧ x ∈ live r'.allocations ∧
        ∃ answers, Calm answers ∧ r'.allocator.answers = r.allocator.answers ++ answers) (Failed r size) r := by
  unfold allocate
  simp only [leads_bind, leads_tryCatch]
  refine (leads_allocateBlock h hbin).mono ?_ ?_
  · rintro b r' ⟨⟨r₁, xs, h1, hact, halloc⟩, hans⟩
    have hlive : live (r'.allocations ++ [some ⟨b, size, true⟩]) = live r₁.allocations ++ [(b, size)] := by
      simp [live, halloc]
    refine ⟨?_, by simp [hlive], hans⟩
    have hbal := h1.balanced
    rw [Balanced] at hbal ⊢
    rw [hlive, hact, increment, length_append, length_singleton]
    rw [word32_eq] at hbal ⊢
    omega
  · intro e r' hfailed
    have hlive : live (r'.allocations ++ [none]) = live r'.allocations := by simp [live]
    obtain ⟨⟨lost, hbal, hlost⟩, hsub, hcause⟩ := hfailed
    refine ⟨⟨lost, ?_, hlost⟩, ?_, ?_⟩
    · rw [Balanced] at hbal ⊢
      rw [hlive]
      exact hbal
    · rw [hlive]
      exact hsub
    · cases hcause with
      | arithmetic hcalm hans => exact .arithmetic hcalm hans
      | allocator hearlier hx hans => exact .allocator hearlier hx hans
      | exhausted h => exact .exhausted h

/-- **Requests that find their bin empty** end whatever the allocator does: no bound on the tries is ever reached. A
request that succeeds is counted with its allocation. One that fails counts nothing, and it fails with the first error of
the allocator other than that memory ran out, or only when all memory is exhausted. -/
theorem allocate_exhaustive (a : Allocator σ) (r : Run σ) (h : Ascending r.pool.bins) (size : Nat)
    (hbin : ∀ n, binNumber r.pool.leadingBits size = .ok n → r.pool.bin n = []) :
    (∀ bytes (r₁ : Run σ) bound, Ascending r₁.pool.bins → r₁.pool.heldBlocks < bound →
      (retry a bytes bound).run.run r₁ = (retry a bytes (r₁.pool.heldBlocks + 1)).run.run r₁) ∧
    (∀ x r', (allocate a.watched size).run.run r.watched = (.ok x, r') →
      Balanced 0 r.watched r' ∧ x ∈ live r'.allocations ∧ Calm r'.allocator.answers) ∧
    ∀ e r', (allocate a.watched size).run.run r.watched = (.error e, r') → Failed r.watched size e r' := by
  have hleads := leads_allocate (a := a) (r := r.watched) h hbin
  refine ⟨fun bytes r₁ bound h₁ hbd => retry_eq a bytes h₁ hbd (Nat.lt_succ_self _), fun x r' hr' => ?_,
    fun e r' hr' => hleads.of_error hr'⟩
  obtain ⟨hbal, hx, answers, hcalm, hans⟩ := hleads.of_run hr'
  exact ⟨hbal, hx, hans ▸ hcalm⟩

end

def fullRun : Run Numbered :=
  ⟨{ leadingBits := 4, bins := [(85, [0])], held := 1, active := 1 },
    { capacity := 100, next := 2, live := [(0, 43), (1, 43)], garbage := [1] }, [some ⟨0, 42, false⟩, some ⟨1, 42, true⟩]⟩

theorem allocate_exhaustive_full :
    ∃ r', (allocate Numbered.functions.watched 200).run.run fullRun.watched = (.error (.device exhausted), r') ∧
      r'.pool.active = 0 ∧ r'.allocator.answers.length = 6 ∧ Failed fullRun.watched 200 (.device exhausted) r' := by
  have hbin : ∀ n, binNumber fullRun.pool.leadingBits 200 = .ok n → fullRun.pool.bin n = [] := by
    intro n hn
    rw [show fullRun.pool.leadingBits = 4 from rfl, binNumber_eq (by decide)] at hn
    cases hn
    decide
  have hrun : (fun x : Except PoolError (Block × Nat) × Run (Watched Numbered) =>
      (x.1, x.2.pool.active, x.2.allocator.answers.length))
        ((allocate Numbered.functions.watched 200).run.run fullRun.watched) = (.error (.device exhausted), 0, 6) := by
    decide +kernel
  rcases hx : (allocate Numbered.functions.watched 200).run.run fullRun.watched with ⟨x, r'⟩
  rw [hx] at hrun
  simp only [Prod.mk.injEq] at hrun
  obtain ⟨rfl, hact, hlen⟩ := hrun
  exact ⟨r', rfl, hact, hlen,
    (allocate_exhaustive Numbered.functions fullRun (pairwise_singleton _ _) 200 hbin).2.2 _ _ hx⟩

end ClHost.Pool
