import ClHost.Proofs.Device.Commands

/-!
# Arrays that keep track of what wrote to them

Views of one buffer share a list of events. As long as all that wrote to the buffer is covered by that list, a command
that waits for it comes after all of that.
-/

namespace ClHost

open List World Nat EventList

variable (w : World) (a : DeviceArray) (e : EventId)

def World.listed (i : Nat) : List EventId := w.eventLists[i]?.getD []

def World.noted : World :=
  { w with eventLists := w.eventLists.setIfInBounds a.events (w.listed a.events ++ [e]) }

def World.added : World :=
  let (waited, kept) := EventList.add (w.listed a.events) e
  { w with
    log := if waited.isEmpty then w.log else w.log.push (.wait waited)
    eventLists := w.eventLists.setIfInBounds a.events kept }

variable {w w' : World}

lemma World.Quiet.listed (h : w.Quiet w') (i : Nat) : w'.listed i = w.listed i := by
  rw [World.listed, h.lists, World.listed]

lemma World.Issued.listed {c : Command} (h : w.Issued c w') (i : Nat) : w'.listed i = w.listed i := by
  rw [World.listed, h.lists, World.listed]

structure Tracks (w : World) (arrays : List DeviceArray) : Prop where
  ordered : Ordered w.log.toList
  distinct : ((commands w.log.toList).map (·.event)).Nodup
  known : ∀ c ∈ commands w.log.toList, c.event < w.events ∧ ∀ b ∈ c.written, b < w.memory.size
  fitted : w.Fitted
  present : ∀ a ∈ arrays, a.buffer < w.memory.size ∧ a.events < w.eventLists.size
  /-- Arrays share their events if they share their buffer. -/
  linked : ∀ a ∈ arrays, ∀ b ∈ arrays, a.buffer = b.buffer ↔ a.events = b.events
  settled : ∀ a ∈ arrays, Settled w.log.toList a.buffer (w.listed a.events)

section Noted

variable {w : World} {a : DeviceArray} {e : EventId} {i : Nat}

lemma World.listed_noted_self (ha : a.events < w.eventLists.size) :
    (w.noted a e).listed a.events = w.listed a.events ++ [e] := by
  simp [noted, listed, ha]

lemma World.listed_noted_of_ne (hi : i ≠ a.events) : (w.noted a e).listed i = w.listed i := by
  simp [noted, listed, hi.symm]

variable {x : EventId}

lemma World.mem_listed_noted (hx : x ∈ w.listed i) : x ∈ (w.noted a e).listed i := by
  by_cases hi : i = a.events
  · subst hi
    by_cases ha : a.events < w.eventLists.size
    · rw [listed_noted_self ha]
      exact mem_append_left _ hx
    · simp [listed, Nat.not_lt.1 ha] at hx
  · rwa [listed_noted_of_ne hi]

lemma World.mem_listed_of_noted (hx : x ∈ (w.noted a e).listed i) : x ∈ w.listed i ∨ x = e := by
  by_cases hi : i = a.events
  · subst hi
    by_cases ha : a.events < w.eventLists.size
    · rw [listed_noted_self ha] at hx
      exact (mem_append.1 hx).imp_right mem_singleton.1
    · simp [noted, listed, Nat.not_lt.1 ha] at hx
  · rw [listed_noted_of_ne hi] at hx
    exact .inl hx

lemma World.log_added : ∃ more, (w.added a e).log.toList = w.log.toList ++ more := by
  unfold added
  rcases add (w.listed a.events) e with ⟨_ | ⟨x, xs⟩, kept⟩
  · exact ⟨[], (append_nil _).symm⟩
  · exact ⟨_, Array.toList_push⟩

lemma World.mem_listed_added (hx : x ∈ (w.added a e).listed a.events) : x ∈ w.listed a.events ∨ x = e := by
  have hkept : ∀ x ∈ (add (w.listed a.events) e).2, x ∈ w.listed a.events ∨ x = e := by
    intro x hx
    refine (mem_append.1 ?_).imp_right mem_singleton.1
    simp only [add] at hx
    split at hx
    · exact mem_of_mem_drop hx
    · exact hx
  by_cases ha : a.events < w.eventLists.size
  · exact hkept x (by simpa [listed, added, ha] using hx)
  · simp [listed, added, ha] at hx

end Noted

/-- The log grew, and lists of events that were there before are as they were. -/
structure World.Grown (w w' : World) : Prop where
  log : ∃ more, w'.log.toList = w.log.toList ++ more
  lists : w.eventLists.size ≤ w'.eventLists.size
  listed : ∀ i < w.eventLists.size, w'.listed i = w.listed i

section Grown

variable {w w' w'' : World}

lemma World.Grown.refl (w : World) : w.Grown w := ⟨⟨[], by simp⟩, Nat.le_refl _, fun _ _ => rfl⟩

lemma World.Grown.trans (h : w.Grown w') (h' : w'.Grown w'') : w.Grown w'' := by
  obtain ⟨more, hlog⟩ := h.log
  obtain ⟨more', hlog'⟩ := h'.log
  refine ⟨⟨more ++ more', by rw [hlog', hlog, append_assoc]⟩, Nat.le_trans h.lists h'.lists, fun i hi => ?_⟩
  rw [h'.listed i (Nat.lt_of_lt_of_le hi h.lists), h.listed i hi]

lemma World.Quiet.grown (h : w.Quiet w') : w.Grown w' := by
  obtain ⟨more, hlog, -⟩ := h.log
  exact ⟨⟨more, hlog⟩, Nat.le_of_eq (h.lists ▸ rfl), fun i _ => h.listed i⟩

lemma World.Issued.grown {c : Command} (h : w.Issued c w') : w.Grown w' := by
  obtain ⟨more, r, hlog, -⟩ := h.log
  exact ⟨⟨more ++ [r], by rw [hlog, append_assoc]⟩, Nat.le_of_eq (h.lists ▸ rfl), fun i _ => h.listed i⟩

lemma World.Grown.setList (h : w.Grown w') {i : Nat} (hi : w.eventLists.size ≤ i) (events : List EventId) :
    w.Grown { w' with eventLists := w'.eventLists.setIfInBounds i events } := by
  refine ⟨h.log, by simpa using h.lists, fun j hj => ?_⟩
  have hne : i ≠ j := Nat.ne_of_gt (Nat.lt_of_lt_of_le hj hi)
  have hlisted := h.listed j hj
  simpa [World.listed, Array.getElem?_setIfInBounds_ne hne] using hlisted

variable {a : DeviceArray}

lemma World.Grown.added (h : w.Grown w') (ha : w.eventLists.size ≤ a.events) (e : EventId) :
    w.Grown (w'.added a e) := by
  unfold World.added
  rcases add (w'.listed a.events) e with ⟨waited, kept⟩
  cases waited with
  | nil => exact h.setList ha kept
  | cons x xs =>
    have hlog : w'.Grown { w' with log := w'.log.push (.wait (x :: xs)) } :=
      ⟨⟨_, Array.toList_push⟩, Nat.le_refl _, fun _ _ => rfl⟩
    exact (h.trans hlog).setList ha kept

def World.Ready (w : World) (wait : List EventId) (a : DeviceArray) : Prop :=
  ∀ e ∈ w.listed a.events, e ∈ wait ∨ Awaited w.log.toList e

lemma World.Ready.grown {wait : List EventId} (h : w.Ready wait a) (hw : w.Grown w')
    (ha : a.events < w.eventLists.size) : w'.Ready wait a := by
  obtain ⟨more, hlog⟩ := hw.log
  intro e he
  rw [hw.listed _ ha] at he
  rw [hlog]
  exact (h e he).imp_right Awaited.mono

end Grown

namespace Tracks

variable {w w' : World} {arrays : List DeviceArray}

lemma subset {arrays' : List DeviceArray} (h : Tracks w arrays) (hsub : arrays' ⊆ arrays) : Tracks w arrays' where
  ordered := h.ordered
  distinct := h.distinct
  known := h.known
  fitted := h.fitted
  present a ha := h.present a (hsub ha)
  linked a ha b hb := h.linked a (hsub ha) b (hsub hb)
  settled a ha := h.settled a (hsub ha)

lemma forget (h : Tracks w arrays) {more : List Record} (hlog : w'.log.toList = w.log.toList ++ more)
    (hmore : ∀ r ∈ more, r.command? = none) (hevs : w'.events = w.events)
    (hmemory : w'.memory.size = w.memory.size) (hlists : w'.eventLists.size = w.eventLists.size) (hfit : w'.Fitted)
    (hkept : ∀ a ∈ arrays, ∀ e ∈ w.listed a.events, e ∈ w'.listed a.events ∨ Awaited w'.log.toList e) :
    Tracks w' arrays := by
  have hcmds : commands w'.log.toList = commands w.log.toList := by
    rw [hlog, commands_append, commands_of_none hmore, append_nil]
  constructor
  · rw [hlog]
    exact h.ordered.append_quiet hmore
  · rw [hcmds]
    exact h.distinct
  · rw [hcmds, hevs, hmemory]
    exact h.known
  · exact hfit
  · rw [hmemory, hlists]
    exact h.present
  · exact h.linked
  · intro a ha c hc hb
    rw [hcmds] at hc
    rw [hlog] at hkept ⊢
    exact (h.settled a ha c hc hb).forget (hkept a ha)

variable {a : DeviceArray}

lemma settled_of_ready (h : Tracks w arrays) (ha : a ∈ arrays) {wait : List EventId} (hready : w.Ready wait a) :
    Settled w.log.toList a.buffer wait := by
  intro c hc hb
  have hcovered := h.settled a ha c hc hb
  rw [← append_nil w.log.toList]
  refine hcovered.forget fun e he => ?_
  rw [append_nil]
  exact hready e he

lemma quiet (h : Tracks w arrays) (hw : w.Quiet w') : Tracks w' arrays := by
  obtain ⟨more, hlog, hmore⟩ := hw.log
  refine h.forget hlog hmore hw.events hw.memory (by rw [hw.lists]) (hw.fitted h.fitted) fun a _ e he => .inl ?_
  rwa [hw.listed]

lemma waited (h : Tracks w arrays) {i : Nat} (hi : i < w.eventLists.size) {waited kept : List EventId}
    (hlist : w.listed i = waited ++ kept) :
    Tracks { w with log := w.log.push (.wait waited), eventLists := w.eventLists.setIfInBounds i kept } arrays := by
  refine h.forget Array.toList_push (by simp [Record.command?]) rfl rfl (by simp) h.fitted fun a _ e he => ?_
  by_cases ha : a.events = i
  · subst ha
    rw [hlist] at he
    rcases mem_append.1 he with he | he
    · exact .inr (.wait (by simp) he)
    · exact .inl (by simpa [listed, hi] using he)
  · exact .inl (by simpa [listed, Ne.symm ha] using he)

/-- A command may be issued if all buffers it touches are settled by its wait list. -/
lemma issued (h : Tracks w arrays) {c : Command} (hw : w.Issued c w')
    (hsettled : ∀ b ∈ c.touched, Settled w.log.toList b c.wait) (ha : a ∈ arrays)
    (hwr : ∀ b ∈ c.written, b = a.buffer) : Tracks (w'.noted a c.event) arrays := by
  obtain ⟨more, r, hlog, hmore, hr⟩ := hw.log
  have hcmds : commands (w'.noted a c.event).log.toList = commands w.log.toList ++ [c] := hw.commands
  constructor
  · change Ordered w'.log.toList
    rw [hlog, ordered_concat]
    refine ⟨h.ordered.append_quiet hmore, fun c' hc' b hb => ?_⟩
    obtain rfl := Option.some.inj (hr.symm.trans hc')
    exact (hsettled b hb).append_quiet hmore
  · rw [hcmds, map_append, nodup_append]
    refine ⟨h.distinct, by simp, fun e he e' he' heq => ?_⟩
    obtain ⟨c', hc', rfl⟩ := mem_map.1 he
    obtain rfl : e' = c.event := mem_singleton.1 he'
    have hlt := (h.known c' hc').1
    rw [heq, hw.event] at hlt
    exact Nat.lt_irrefl _ hlt
  · rw [hcmds]
    intro c' hc'
    change c'.event < w'.events ∧ ∀ b ∈ c'.written, b < w'.memory.size
    rw [hw.events, hw.memory]
    rcases mem_append.1 hc' with hc' | hc'
    · exact ⟨lt_succ_of_lt (h.known c' hc').1, (h.known c' hc').2⟩
    · obtain rfl := mem_singleton.1 hc'
      refine ⟨hw.event ▸ lt_succ_self _, fun b hb => ?_⟩
      rw [hwr b hb]
      exact (h.present a ha).1
  · exact hw.fitted h.fitted
  · intro b hb
    refine ⟨?_, ?_⟩
    · exact hw.memory ▸ (h.present b hb).1
    · simpa [noted, hw.lists] using (h.present b hb).2
  · exact h.linked
  · intro b hb c' hc' hb'
    rw [hcmds] at hc'
    change Covered w'.log.toList _ _
    rcases mem_append.1 hc' with hc' | hc'
    · rw [hlog, append_assoc]
      refine (h.settled b hb c' hc' hb').forget fun e he => .inl (mem_listed_noted ?_)
      rwa [hw.listed]
    · obtain rfl := mem_singleton.1 hc'
      rw [← (h.linked a ha b hb).1 (hwr _ hb').symm, listed_noted_self (hw.lists ▸ (h.present a ha).2)]
      exact .inl ⟨_, mem_append_right _ (mem_singleton_self _), .refl _⟩

variable {e : EventId}

lemma added (h : Tracks (w.noted a e) arrays) (ha : a ∈ arrays) : Tracks (w.added a e) arrays := by
  have hsize : a.events < w.eventLists.size := by
    simpa [noted] using (h.present a ha).2
  obtain ⟨all, hall⟩ : ∃ all, w.listed a.events ++ [e] = all := ⟨_, rfl⟩
  rw [World.added, add, hall]
  by_cases hlong : all.length > limit
  · -- The oldest events leave the list, and the host waits for them.
    have hbatch : (all.take batch).isEmpty = false := by
      cases all with
      | nil => cases hlong
      | cons => rfl
    have hlist : (w.noted a e).listed a.events = all.take batch ++ all.drop batch := by
      rw [listed_noted_self hsize, take_append_drop, ← hall]
    have hwaited := h.waited (by simpa [noted] using hsize) hlist
    simpa only [hlong, if_true, hbatch, Bool.false_eq_true, if_false, noted,
      Array.setIfInBounds_setIfInBounds] using hwaited
  · simp only [hlong, if_false]
    subst hall
    exact h

lemma unnoted (h : Tracks (w.noted a e) arrays) (ha : a ∈ arrays) :
    Tracks w (arrays.filter fun b => b.buffer != a.buffer) := by
  have hkept : Tracks (w.noted a e) (arrays.filter fun b => b.buffer != a.buffer) :=
    h.subset (filter_subset_self _)
  refine ⟨hkept.ordered, hkept.distinct, hkept.known, hkept.fitted, ?_, hkept.linked, ?_⟩
  · intro b hb
    simpa [noted] using hkept.present b hb
  · intro b hb
    have hne : b.events ≠ a.events := by
      obtain ⟨hb, hbuf⟩ := mem_filter.1 hb
      exact fun heq => (bne_iff_ne.1 hbuf) ((h.linked b hb a ha).2 heq)
    rw [← listed_noted_of_ne hne (e := e)]
    exact hkept.settled b hb

end Tracks

def World.Keeps (w w' : World) : Prop := ∀ arrays, Tracks w arrays → Tracks w' arrays ∧ w.Grown w'

instance : Std.Refl Keeps := ⟨fun w _ h => ⟨h, .refl w⟩⟩

instance : IsTrans World Keeps :=
  ⟨fun _ _ _ h h' arrays hw => ⟨(h' arrays (h arrays hw).1).1, (h arrays hw).2.trans (h' arrays (h arrays hw).1).2⟩⟩

lemma World.Quiet.keeps (h : w.Quiet w') : w.Keeps w' := fun _ hw => ⟨hw.quiet h, h.grown⟩

namespace Host

variable {w : World} {arrays : List DeviceArray} {E : Fault → World → Prop}

variable {α : Type} {m : Host α}

lemma Stays.keeps (h : Stays Quiet m) : Stays Keeps m := h.mono fun _ _ => Quiet.keeps

lemma leads_keeps_bind {β : Type} {m : Host β} {f : β → Host α} {Q : α → World → Prop} (hm : Stays Keeps m)
    (h : Tracks w arrays) (hf : ∀ x w', Tracks w' arrays → w.Grown w' → Leads (f x) Q E w')
    (hE : ∀ e w', Tracks w' arrays → E e w' := by first | exact fun _ _ h => h | exact fun _ _ _ => trivial) :
    Leads (m >>= f) Q E w := by
  refine (hm.leads w).bind (fun x w' hw => ?_) fun e w' hw => hE e w' (hw arrays h).1
  exact hf x w' (hw arrays h).1 (hw arrays h).2

lemma stays_keeps_of_leads
    (h : ∀ w arrays, Tracks w arrays → Leads m (fun _ w' => Tracks w' arrays ∧ w.Grown w') (fun _ w' => Tracks w' arrays ∧ w.Grown w') w)
    : Stays Keeps m := by
  intro w arrays hw
  have hm := h w arrays hw
  unfold Leads at hm
  rcases hr : m.run.run w with ⟨_ | _, _⟩ <;> rw [hr] at hm <;> exact hm

@[simp] lemma leads_addEvent_iff {a : DeviceArray} {e : EventId} {Q : Unit → World → Prop} :
    Leads (addEvent a e) Q E w ↔ Q () (w.added a e) := leads_addEvent

lemma leads_newArray_tracks (h : Tracks w arrays) {context : Context} {queue : Option Queue} {type : ElementType}
    {shape strides : List Int} {allocator : Option Allocator} :
    Leads (newArray context queue type shape strides allocator)
      (fun a w' => Tracks w' (a :: arrays) ∧ w.Grown w' ∧ a.events = w.eventLists.size ∧ w'.listed a.events = [])
      (fun _ w' => w' = w) w := by
  refine leads_newArray.mono ?_
  rintro a w' ⟨ha, m, size, flags, hw'⟩
  have hlog : w'.log.toList = w.log.toList ++ [.alloc w.memory.size size flags] := by simp [hw']
  have hcmds : commands w'.log.toList = commands w.log.toList := by
    rw [hlog, commands_append]
    exact append_nil _
  have hbuf : a.buffer = w.memory.size := by rw [ha]
  have hevs : a.events = w.eventLists.size := by rw [ha]
  have hmemory : w'.memory.size = w.memory.size + 1 := by simp [hw']
  have hlists : w'.eventLists = w.eventLists.push [] := by rw [hw']
  have hnew : ∀ b ∈ arrays, b.buffer ≠ a.buffer ∧ b.events ≠ a.events := by
    intro b hb
    have hb := h.present b hb
    rw [hbuf, hevs]
    exact ⟨Nat.ne_of_lt hb.1, Nat.ne_of_lt hb.2⟩
  have hlisted : ∀ i < w.eventLists.size, w'.listed i = w.listed i := fun i hi => by
    simp [listed, hlists, Array.getElem?_push, Nat.ne_of_lt hi]
  refine ⟨?_, ⟨⟨_, hlog⟩, by simp [hlists], hlisted⟩, hevs, by simp [listed, hlists, hevs]⟩
  constructor
  · rw [hlog]
    exact h.ordered.append_quiet (by simp [Record.command?])
  · rw [hcmds]
    exact h.distinct
  · rw [hcmds, hmemory, show w'.events = w.events by rw [hw']]
    exact fun c hc => ⟨(h.known c hc).1, fun b hb => lt_succ_of_lt ((h.known c hc).2 b hb)⟩
  · have hkers : w'.kernels = w.kernels := by rw [hw']
    intro k c hc
    exact h.fitted k c (hkers ▸ hc)
  · rw [hmemory, hlists, Array.size_push]
    refine forall_mem_cons.2 ⟨⟨hbuf ▸ lt_succ_self _, hevs ▸ lt_succ_self _⟩, fun b hb => ?_⟩
    exact ⟨lt_succ_of_lt (h.present b hb).1, lt_succ_of_lt (h.present b hb).2⟩
  · intro b hb c hc
    rcases mem_cons.1 hb with rfl | hb' <;> rcases mem_cons.1 hc with rfl | hc'
    · exact iff_of_true rfl rfl
    · exact iff_of_false (hnew c hc').1.symm (hnew c hc').2.symm
    · exact iff_of_false (hnew b hb').1 (hnew b hb').2
    · exact h.linked b hb' c hc'
  · intro b hb c hc hwr
    rw [hcmds] at hc
    rcases mem_cons.1 hb with rfl | hb
    · -- No command has written to the new buffer.
      have hlt := (h.known c hc).2 _ hwr
      exact absurd hbuf (Nat.ne_of_lt hlt)
    · rw [hlog]
      refine (h.settled b hb c hc hwr).forget fun e he => .inl ?_
      rwa [hlisted _ (h.present b hb).2]

end Host

/-! ## Transfers of arrays that keep track -/

def World.Enqueued (w : World) (a : DeviceArray) (P : Command → Prop) (w' : World) : Prop :=
  ∃ c w1, P c ∧ w.Issued c w1 ∧ w' = w1.added a c.event

section Enqueued

variable {w w' w'' : World} {a b : DeviceArray} {arrays : List DeviceArray} {P : Command → Prop}

lemma World.Quiet.enqueued (h : w.Quiet w') (h' : w'.Enqueued a P w'') : w.Enqueued a P w'' := by
  obtain ⟨c, w1, hP, hiss, rfl⟩ := h'
  exact ⟨c, w1, hP, h.issued hiss, rfl⟩

lemma World.Grown.enqueued (h : w.Grown w') (h' : w'.Enqueued a P w'') (ha : w.eventLists.size ≤ a.events) :
    w.Grown w'' := by
  obtain ⟨c, w1, -, hiss, rfl⟩ := h'
  exact (h.trans hiss.grown).added ha c.event

lemma Tracks.enqueued (h : Tracks w arrays) (hw : w.Enqueued a P w') (ha : a ∈ arrays)
    (hP : ∀ c, P c → (∀ b ∈ c.touched, Settled w.log.toList b c.wait) ∧ ∀ b ∈ c.written, b = a.buffer) :
    Tracks w' arrays := by
  obtain ⟨c, w1, hc, hiss, rfl⟩ := hw
  exact (h.issued hiss (hP c hc).1 ha (hP c hc).2).added ha

lemma Tracks.view (h : Tracks w arrays) (ha : a ∈ arrays) (hbuf : b.buffer = a.buffer)
    (hevs : b.events = a.events) : Tracks w (b :: arrays) where
  ordered := h.ordered
  distinct := h.distinct
  known := h.known
  fitted := h.fitted
  present := forall_mem_cons.2 ⟨hbuf ▸ hevs ▸ h.present a ha, h.present⟩
  linked := by
    have hlinked : ∀ c ∈ arrays, b.buffer = c.buffer ↔ b.events = c.events := fun c hc => by
      rw [hbuf, hevs]
      exact h.linked a ha c hc
    rintro c (_ | ⟨_, hc⟩) d (_ | ⟨_, hd⟩)
    · exact iff_of_true rfl rfl
    · exact hlinked d hd
    · rw [eq_comm, hlinked c hc, eq_comm]
    · exact h.linked c hc d hd
  settled := forall_mem_cons.2 ⟨hbuf ▸ hevs ▸ h.settled a ha, h.settled⟩

lemma Settled.mono {log : List Record} {b : BufferId} {events more : List EventId} (h : Settled log b events)
    (hsub : events ⊆ more) : Settled log b more := by
  intro c hc hb
  rw [← append_nil log]
  exact (h c hc hb).forget fun e he => .inl (hsub he)

end Enqueued

namespace Host

variable {w : World} {arrays : List DeviceArray} {a : DeviceArray}

lemma quiet_ofBytes (type : ElementType) (shape strides : List Int) (bytes : Bytes) :
    Stays Quiet (HostArray.ofBytes type shape strides bytes) :=
  Stays.map (stays_of_leads fun _ => .of_eq rfl rfl rfl rfl rfl)

lemma quiet_readTarget (a : DeviceArray) (target : Option HostArray) : Stays Quiet (readTarget a target) := by
  cases target with
  | none => exact (quiet_ofBytes _ _ _ _).map
  | some =>
    exact stays_guarded (stays_guarded ((quiet_warn _ _).map.ite (stays_pure _)))

lemma leads_readArray (hw : w.Fitted) (queue : Option Queue) (target : Option HostArray) (blocking : Bool) :
    Leads (readArray a queue target blocking) (fun _ w' => w.Quiet w' ∨
        w.Enqueued a (fun c => c.wait = w.listed a.events ∧ c.touched = [a.buffer] ∧ c.written = []) w')
      (fun _ w' => w.Quiet w') w := by
  refine leads_quiet_bind (quiet_readTarget a target) (fun h w1 hw1 => ?_) fun _ _ h => h
  refine leads_quiet_bind (quiet_require _) (fun _ w2 hw2 => ?_) fun _ _ h => hw1.trans h
  have hqu := hw1.trans hw2
  split
  · exact hqu
  · rename_i q _
    split
    · exact .inl hqu
    · simp only [eventsOf, leads_bind, leads_eventList]
      refine (issues_enqueueRead _ _ _ _ _ _ w2 (hqu.fitted hw)).mono ?_ fun _ _ => hqu.trans
      rintro e w3 ⟨c, rfl, hc, hiss⟩
      simp only [leads_bind, leads_addEvent_iff, leads_pure]
      refine .inr (hqu.enqueued ⟨c, w3, ?_, hiss, rfl⟩)
      rw [hc, hqu.lists]
      exact ⟨rfl, rfl, rfl⟩

lemma leads_readArray_tracks (h : Tracks w arrays) (ha : a ∈ arrays) (queue : Option Queue)
    (target : Option HostArray) (blocking : Bool) :
    Leads (readArray a queue target blocking) (fun _ w' => Tracks w' arrays) (fun _ w' => Tracks w' arrays) w := by
  refine (leads_readArray h.fitted queue target blocking).mono ?_ fun _ _ => h.quiet
  rintro _ w' (hw | hw)
  · exact h.quiet hw
  · refine h.enqueued hw ha fun c hc => ?_
    rw [hc.1, hc.2.1, hc.2.2]
    exact ⟨forall_mem_singleton.2 (h.settled a ha), by simp⟩

def Sends {α : Type} (m : Host α) (a : DeviceArray) (P : Command → Prop) : Prop :=
  ∀ w : World, w.Fitted → Leads m (fun _ w' => w.Quiet w' ∨ w.Enqueued a P w') (fun _ w' => w.Quiet w') w

section Sends

variable {α β : Type} {P : Command → Prop}

lemma sends_of_quiet {m : Host α} (hm : Stays Quiet m) : Sends m a P := fun w _ => (hm.leads w).mono (fun _ _ => .inl)

lemma sends_bind {m : Host β} {f : β → Host α} (hm : Stays Quiet m) (hf : ∀ x, Sends (f x) a P) :
    Sends (m >>= f) a P := by
  intro w hw
  refine leads_quiet_bind hm (fun x w1 hw1 => (hf x w1 (hw1.fitted hw)).mono ?_ fun _ _ => hw1.trans) fun _ _ => id
  exact fun _ _ h => h.imp hw1.trans hw1.enqueued

lemma sends_ite {condition : Prop} [Decidable condition] {m m' : Host α} (hm : Sends m a P) (hm' : Sends m' a P) :
    Sends (if condition then m else m') a P := by
  split
  · exact hm
  · exact hm'

lemma sends_addEvent {m : Host EventId} (hm : Issues m P) : Sends (m >>= addEvent a) a P := by
  intro w hw
  refine (hm w hw).bind ?_
  rintro e w1 ⟨c, rfl, hc, hiss⟩
  rw [leads_addEvent_iff]
  exact .inr ⟨c, w1, hc, hiss, rfl⟩

end Sends

lemma sends_setArray (source : HostArray) (queue : Option Queue) (blocking : Bool) :
    Sends (setArray a source queue blocking) a fun c =>
      c = ⟨c.event, [], [a.buffer], [a.buffer], c.queue, blocking⟩ := by
  refine sends_bind (quiet_require _) fun _ => sends_bind (quiet_require _) fun _ => ?_
  extract_lets write agreeing
  have hwrite : ∀ x, Sends (write x) a fun c => c = ⟨c.event, [], [a.buffer], [a.buffer], c.queue, blocking⟩ := fun x =>
    sends_ite (sends_bind (quiet_needQueue _) fun q => sends_addEvent <|
      (issues_enqueueWrite _ _ _ _ _ _).mono fun c hc => hc.trans (by rw [hc])) (sends_of_quiet (stays_pure _))
  have hagr : ∀ x, Sends (agreeing x) a fun c => c = ⟨c.event, [], [a.buffer], [a.buffer], c.queue, blocking⟩ :=
    fun x => sends_ite (sends_bind (quiet_warn _ _) hwrite) (hwrite ())
  exact sends_ite (sends_bind (stays_fail _) hagr) (hagr ())

lemma leads_copyArray_tracks (h : Tracks w arrays) (ha : a ∈ arrays) (queue : Option Queue) :
    Leads (copyArray a queue) (fun b w' => Tracks w' (b :: arrays)) (fun _ w' => Tracks w' arrays) w := by
  refine (leads_newArray_tracks h).bind ?_ fun _ _ hw => hw ▸ h
  rintro r w1 ⟨hr, -, -, hlisted⟩
  have hview : Tracks w1 (r.withQueue queue :: r :: arrays) := hr.view mem_cons_self rfl rfl
  have hr := hview.subset (cons_subset_cons _ (subset_cons_self _ _))
  split
  · refine leads_quiet_bind (quiet_needQueue _) (fun q w2 hw2 => ?_) fun _ _ hw =>
      (hr.quiet hw).subset (subset_cons_self _ _)
    have hr := hr.quiet hw2
    simp only [eventsOf, leads_bind, leads_eventList]
    refine (issues_enqueueCopy _ _ _ _ _ _ _ w2 hr.fitted).mono ?_ fun _ _ hw =>
      (hr.quiet hw).subset (subset_cons_self _ _)
    rintro e w3 ⟨c, rfl, hc, hiss⟩
    simp only [leads_bind, leads_addEvent_iff, leads_pure]
    refine (hr.issued hiss ?_ mem_cons_self (by rw [hc]; simp)).added mem_cons_self
    rw [hc]
    refine forall_mem_cons.2 ⟨hr.settled a (mem_cons_of_mem _ ha), forall_mem_singleton.2 ?_⟩
    refine (hr.settled _ mem_cons_self).mono ?_
    rw [hw2.listed, show w1.listed (r.withQueue queue).events = [] from hlisted]
    exact nil_subset _
  · exact hr

lemma leads_toDevice_tracks (h : Tracks w arrays) (queue : Queue) (source : HostArray) (allocator : Option Allocator)
    (blocking keepsQueue : Bool) : Leads (toDevice queue source allocator blocking keepsQueue)
      (fun a w' => Tracks w' (a :: arrays) ∧ w.Grown w' ∧ (blocking = true → w'.Ready [] a))
      (fun _ w' => Tracks w' arrays ∧ w.Grown w') w := by
  refine (leads_newArray_tracks h).bind ?_ ?_
  · rintro a w1 ⟨ha, hgr, hevs, hlisted⟩
    refine (sends_setArray source (some queue) blocking w1 ha.fitted).bind ?_ fun _ w' hw =>
      ⟨(ha.quiet hw).subset (subset_cons_self _ _), hgr.trans hw.grown⟩
    rintro _ w2 (hw2 | ⟨c, w3, hc, hiss, rfl⟩)
    · refine ⟨ha.quiet hw2, hgr.trans hw2.grown, fun _ e he => ?_⟩
      rw [hw2.listed, hlisted] at he
      cases he
    · have hsettled := ha.settled a mem_cons_self
      rw [hlisted] at hsettled
      have hnoted := ha.issued hiss (by rw [hc]; simpa using hsettled) mem_cons_self (by rw [hc]; simp)
      refine ⟨hnoted.added mem_cons_self, (hgr.trans hiss.grown).added (Nat.le_of_eq hevs.symm) _,
        fun hb e he => ?_⟩
      obtain rfl : e = c.event :=
        (mem_listed_added he).resolve_left (by rw [hiss.listed, hlisted]; exact not_mem_nil)
      obtain ⟨more, hlog⟩ := log_added (w := w3) (a := a) (e := c.event)
      rw [hlog]
      have hmem : c ∈ commands w3.log.toList := by simp [hiss.commands]
      exact .inr (Awaited.blocking hmem (by rw [hc, hb])).mono
  · rintro _ w' rfl
    exact ⟨h, .refl _⟩

end Host

end ClHost
