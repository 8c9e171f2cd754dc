import ClHost.Proofs.Elementwise.Building

/-!
# Operations on arrays keep track

Arithmetic, maps and conversions give new arrays with the event of the launch that writes to them, and operations in
place add theirs to the array that they change.
-/

namespace ClHost

/-! ## Launches on arrays that keep track -/

open List

def Actual.IsPlain (v : Actual) : Prop := ∀ b, v ≠ .buffer b

namespace Host

inductive ArrayOperand.Within (arrays : List DeviceArray) : ArrayOperand → Prop
  | array {a : DeviceArray} (h : a ∈ arrays) : Within arrays (.array a)
  | value {v : Actual} (h : v.IsPlain) : Within arrays (.value v)

@[simp] lemma ArrayOperand.within_array {arrays : List DeviceArray} {a : DeviceArray} :
    (ArrayOperand.array a).Within arrays ↔ a ∈ arrays := ⟨fun | .array h => h, .array⟩

@[simp] lemma ArrayOperand.within_value {arrays : List DeviceArray} {v : Actual} :
    (ArrayOperand.value v).Within arrays ↔ v.IsPlain := ⟨fun | .value h => h, .value⟩

variable {α β : Type} {arrays : List DeviceArray} {a : DeviceArray} {Q : α → World → Prop}

def Tracked (m : Host α) (arrays : List DeviceArray) (Q : α → World → Prop) : Prop :=
  ∀ w, Tracks w arrays → Leads m Q (fun _ w' => Tracks w' arrays) w

def Writes (m : Host EventId) (a : DeviceArray) (arrays : List DeviceArray) : Prop :=
  Tracked m arrays fun e w' => Tracks (w'.noted a e) arrays

def Makes (m : Host DeviceArray) (arrays : List DeviceArray) : Prop :=
  Tracked m arrays fun a w' => Tracks w' (a :: arrays)

def Yields (m : Host α) (P : α → Prop) : Prop := ∀ w, Leads m (fun x w' => P x ∧ w.Keeps w') (fun _ w' => w.Keeps w') w

variable {P : α → Prop} {f : β → Host α} {m : Host β}

lemma yields_pure {x : α} (hx : P x) : Yields (pure x) P := fun w => ⟨hx, refl w⟩

lemma yields_fail (e : Fault) : Yields (fail e) P := fun w => show w.Keeps w from refl w

lemma yields_lift_bind {x : Result β} (hf : ∀ y, Yields (f y) P) : Yields (lift x >>= f) P := by
  cases x with
  | error e => exact yields_fail e
  | ok y => exact hf y

lemma tracked_seq (hm : Tracked m arrays fun _ w' => Tracks w' arrays) (hf : ∀ x, Tracked (f x) arrays Q) :
    Tracked (m >>= f) arrays Q := by
  intro w h
  exact (hm w h).bind (fun x w' => hf x w')

lemma tracked_of_keeps {m : Host α} (hm : Stays World.Keeps m) : Tracked m arrays fun _ w' => Tracks w' arrays :=
  fun w h => (hm.leads w).mono (fun _ _ hw => (hw arrays h).1) fun _ _ hw => (hw arrays h).1

lemma tracked_bind (hm : Stays World.Keeps m) (hf : ∀ x, Tracked (f x) arrays Q) :
    Tracked (m >>= f) arrays Q := tracked_seq (tracked_of_keeps hm) hf

lemma tracked_yields {P : β → Prop} (hm : Yields m P) (hf : ∀ x, P x → Tracked (f x) arrays Q) :
    Tracked (m >>= f) arrays Q := by
  intro w h
  exact (hm w).bind (fun x w' hw => hf x hw.1 w' (hw.2 arrays h).1) fun _ w' hw => (hw arrays h).1

lemma tracked_ite {condition : Prop} [Decidable condition] {m m' : Host α} (hm : Tracked m arrays Q)
    (hm' : Tracked m' arrays Q) : Tracked (if condition then m else m') arrays Q := by
  split
  · exact hm
  · exact hm'

lemma tracked_guarded {c : Prop} [Decidable c] {e : Fault} {f : PUnit → Host α} (h : Tracked (f ()) arrays Q) :
    Tracked (if c then fail e >>= f else f ()) arrays Q := tracked_ite (tracked_bind (stays_fail e) fun _ => h) h

lemma tracked_fail (e : Fault) : Tracked (fail e) arrays Q := fun _ h => h

lemma Writes.addEvent {m : Host EventId} (hm : Writes m a arrays) (ha : a ∈ arrays) :
    Tracked (m >>= addEvent a) arrays fun _ w' => Tracks w' arrays := by
  intro w h
  refine (hm w h).bind fun e w' hw => ?_
  rw [leads_addEvent_iff]
  exact hw.added ha

/-! ## Launches -/

lemma leads_waits {w : World} {f : ArrayOperand → Host (List EventId)} (operands : List ArrayOperand)
    (hf : ∀ o, Leads (f o) (fun events w' => w' = w ∧ ∀ a, o = .array a → w.listed a.events ⊆ events)
      (fun _ w' => w' = w) w) :
    Leads (operands.mapM f) (fun waits w' => w' = w ∧ ∀ a, .array a ∈ operands → w.listed a.events ⊆ waits.flatten)
      (fun _ w' => w' = w) w := by
  induction operands with
  | nil => exact ⟨rfl, fun a ha => nomatch ha⟩
  | cons o operands ih =>
    rw [mapM_cons]
    refine (hf o).bind ?_
    rintro events _ ⟨rfl, hevs⟩
    refine ih.bind ?_
    rintro waits _ ⟨rfl, hwaits⟩
    refine ⟨rfl, fun a ha => ?_⟩
    rcases mem_cons.1 ha with rfl | ha
    · exact Subset.trans (hevs a rfl) (subset_append_left _ _)
    · exact Subset.trans (hwaits a ha) (subset_append_right _ _)

lemma operandValues_within {o : ArrayOperand} (ho : o.Within arrays) {b : BufferId}
    (hb : Actual.buffer b ∈ operandValues o) : ∃ a, o = .array a ∧ a ∈ arrays ∧ b = a.buffer := by
  cases ho with
  | @array a ha =>
    obtain rfl : b = a.buffer := by simpa [operandValues] using hb
    exact ⟨a, rfl, ha, rfl⟩
  | @value v hv =>
    have hb : Actual.buffer b = v := by simpa [operandValues] using hb
    exact absurd hb.symm (hv b)

/-- **A launch on arrays waits for their events and writes to the first one.** -/
lemma writes_runElementwise {kernel : Host KernelId} (hker : Stays World.Keeps kernel) {target : DeviceArray}
    (htar : target ∈ arrays) {operands : List ArrayOperand} (hops : ∀ o ∈ operands, o.Within arrays)
    (queue : Option Queue) (wait : List EventId) :
    Writes (runElementwise kernel target operands queue wait) target arrays := by
  refine tracked_bind hker fun k => tracked_bind (quiet_needQueue _).keeps fun q =>
    tracked_bind (quiet_groupLimit _ _).keeps fun limit => tracked_bind (quiet_splayArray _ _ _).keeps fun s => ?_
  intro w h
  rw [leads_bind]
  have hall : ∀ o ∈ ArrayOperand.array target :: operands, o.Within arrays :=
    forall_mem_cons.2 ⟨.array htar, hops⟩
  refine (leads_waits _ fun o => ?_).mono ?_ ?_
  · cases o with
    | array a => cases hany : a.contiguity.any <;> simp [hany, eventsOf, World.listed]
    | value => exact ⟨rfl, fun _ h => by cases h⟩
  · rintro waits _ ⟨rfl, hwaits⟩
    refine (issues_call _ _ _ (.buffer target.buffer) _ _ _ h.fitted).mono ?_ fun _ _ => h.quiet
    rintro _ w' ⟨c, rfl, ⟨hwait, -, htch, hwr⟩, hiss⟩
    refine h.issued hiss (fun b hb => ?_) htar fun b hb => ?_
    · have hargs : Actual.buffer b ∈ (ArrayOperand.array target :: operands).flatMap operandValues ++
          [.literal (.int target.size)] := htch b hb
      rcases mem_append.1 hargs with hargs | hargs
      · obtain ⟨o, ho, hval⟩ := mem_flatMap.1 hargs
        obtain ⟨a, rfl, ha, rfl⟩ := operandValues_within (hall o ho) hval
        rw [hwait]
        exact (h.settled a ha).mono (Subset.trans (hwaits a ho) (subset_append_right _ _))
      · cases mem_singleton.1 hargs
    · have hb := hwr b hb
      cases hb
      rfl
  · rintro _ _ rfl
    exact h

lemma makes_newResult {write : DeviceArray → Host EventId} (a : DeviceArray) (type : ElementType)
    (hwrite : ∀ r, Writes (write r) r (r :: arrays)) : Makes (newResult a type write) arrays := by
  intro w h
  refine (leads_newArray_tracks h).bind ?_ fun _ _ hw => hw ▸ h
  rintro r w1 ⟨hr, -⟩
  rw [← bind_assoc]
  exact ((hwrite r).addEvent mem_cons_self w1 hr).bind (fun _ _ => id) fun _ _ hw =>
    hw.subset (subset_cons_self _ _)

end Host

/-! ## Operations on arrays keep track -/

open Actual World

def Actual.Within (arrays : List DeviceArray) : Actual → Prop
  | .array a => a ∈ arrays
  | .buffer _ => False
  | _ => True

def Actual.isArray : Actual → Bool
  | .array _ => true
  | _ => false

section Within

variable {arrays more : List DeviceArray} {v : Actual}

lemma Actual.Within.isPlain (h : v.Within arrays) : v.IsPlain := by
  rintro b rfl
  exact h

lemma Actual.Within.mono (h : v.Within arrays) (hsub : arrays ⊆ more) : v.Within more := by
  cases v with
  | array => exact hsub h
  | _ => exact h

lemma Actual.isArray_eq_false (h : ∀ a, v = .array a → False) : v.isArray = false := by
  cases v with
  | array a => exact (h a rfl).elim
  | _ => rfl

end Within

namespace Host

variable {arrays : List DeviceArray} {a b out : DeviceArray} {f g v : Actual}

lemma quiet_resultType (a : DeviceArray) (other : Actual) (queue : Option Queue) :
    Stays Quiet (resultType a other queue) := by
  refine (quiet_needQueue queue).bind fun q => (quiet_hasDouble _).bind fun double => ?_
  extract_lets finish
  have hfin : ∀ t, Stays Quiet (finish t) := fun _ => stays_pure _
  split
  · exact (stays_lift _).bind hfin
  · exact (stays_lift _).bind hfin
  · exact (stays_fail _).bind hfin
  · exact (stays_lift _).bind hfin
  · exact (stays_fail _).bind hfin

lemma quiet_equalsInteger (v : Actual) (n : Int) : Stays Quiet (equalsInteger v n) := by
  unfold equalsInteger
  split
  · refine (quiet_elements _).bind fun elements => ?_
    split
    · exact stays_pure _
    · exact stays_fail _
  · exact stays_pure _
  · exact stays_pure _

lemma yields_convertedTo (t : ElementType) (v : Actual) : Yields (convertedTo t v) IsPlain := by
  have hraw : ∀ n : Int, Yields
      (if n < 0 then bare .overflow else pure (.element ⟨.raw n.toNat, List.replicate n.toNat 0⟩) : Host Actual)
      IsPlain := by
    intro n
    split
    · exact yields_fail _
    · exact yields_pure fun _ => nofun
  unfold convertedTo
  split
  · exact yields_lift_bind fun _ => yields_pure fun _ => nofun
  · exact yields_pure fun _ => nofun
  · exact hraw _
  · exact hraw _
  · exact hraw _
  · exact yields_fail _

lemma yields_constantOf (t : ElementType) (n : Int) : Yields (constantOf t n) IsPlain := yields_convertedTo _ _

lemma yields_opposite (v : Actual) : Yields (opposite v) IsPlain := by
  unfold opposite
  split
  · exact yields_pure fun _ => nofun
  · refine yields_lift_bind fun x => ?_
    split
    · exact yields_pure fun _ => nofun
    · exact yields_pure fun _ => nofun
  · exact yields_fail _

lemma yields_inverse (v : Actual) : Yields (inverse v) IsPlain := by
  unfold inverse
  split
  · exact yields_pure fun _ => nofun
  · refine yields_lift_bind fun x => ?_
    split
    · exact yields_pure fun _ => nofun
    · exact yields_pure fun _ => nofun
  · exact yields_fail _

lemma writes_combineInto (hout : out ∈ arrays) (hf : f.IsPlain) (ha : a ∈ arrays) (hg : g.IsPlain) (hb : b ∈ arrays) :
    Writes (combineInto out f a g b) out arrays :=
  writes_runElementwise ((quiet_require _).keeps.bind fun _ => (quiet_require _).keeps.bind fun _ =>
    keeps_standardKernel _ _) hout (by simpa using ⟨hf, ha, hg, hb⟩) none []

lemma writes_scaleInto (hout : out ∈ arrays) (hf : f.IsPlain) (ha : a ∈ arrays) (hg : g.IsPlain) :
    Writes (scaleInto out f a g) out arrays :=
  writes_runElementwise ((stays_lift _).bind fun _ => (stays_lift _).bind fun _ =>
    (quiet_require _).keeps.bind fun _ => keeps_standardKernel _ _) hout (by simpa using ⟨hf, ha, hg⟩) none []

lemma writes_multiplyInto (hout : out ∈ arrays) (ha : a ∈ arrays) (hb : b ∈ arrays) :
    Writes (multiplyInto out a b) out arrays :=
  writes_runElementwise ((quiet_require _).keeps.bind fun _ => (quiet_require _).keeps.bind fun _ =>
    keeps_standardKernel _ _) hout (by simpa using ⟨ha, hb⟩) none []

lemma quiet_complexFunction (t : ElementType) (name : String) : Stays Quiet (complexFunction t name) :=
  (stays_lift _).map

variable {other : Actual}

lemma quiet_bitwiseType (a : DeviceArray) (other : Actual) : Stays Quiet (bitwiseType a other) :=
  (quiet_resultType _ _ _).bind fun _ => (stays_fail _).map.ite (stays_pure _)

lemma makes_typed {write : ElementType → DeviceArray → Host EventId} {queue : Option Queue}
    (hwrite : ∀ t r, Writes (write t r) r (r :: arrays)) :
    Makes (do let t ← resultType a other queue; newResult a t (write t)) arrays :=
  tracked_bind (quiet_resultType _ _ _).keeps fun t => makes_newResult a t (hwrite t)

lemma tracked_fillArray (ha : a ∈ arrays) (hv : v.IsPlain) (queue : Option Queue) (wait : List EventId) :
    Tracked (fillArray a v queue wait) arrays fun _ w' => Tracks w' arrays :=
  (writes_runElementwise (keeps_standardKernel _ _) ha (by simpa using hv) queue wait).addEvent ha

lemma issues_fillBuffer (q : Queue) (b : BufferId) (pattern : Bytes) (offset size : Int) (wait : List EventId) :
    Issues (fillBuffer q b pattern offset size wait) fun c => c = ⟨c.event, wait, [b], [b], q.id, false⟩ := by
  refine issues_bind (quiet_supports _ _) fun yes => issues_ite (issues_bind (quiet_warn _ _) fun _ => ?_) ?_
  all_goals exact issues_enqueueFill _ _ _ _ _ _

def FillsAfter (w : World) (a : DeviceArray) (queue : Option Queue) (wait : List EventId) : Prop :=
  ∀ q, (queue <|> a.queue) = some q →
    Leads (supports q.context (1, 2)) (fun yes _ => yes = true → ClHost.Settled w.log.toList a.buffer wait)
      (fun _ _ => True) w

lemma leads_zeroFill_tracks {w : World} (h : Tracks w arrays) (ha : a ∈ arrays) {queue : Option Queue}
    {wait : List EventId} (haft : FillsAfter w a queue wait) :
    Leads (zeroFill a queue wait) (fun _ w' => Tracks w' arrays) (fun _ w' => Tracks w' arrays) w := by
  rw [zeroFill]
  cases hq : queue <|> a.queue with
  | none => exact h
  | some q =>
    refine (((quiet_supports _ _).leads w).and (haft q hq)).bind ?_ fun _ _ hw => h.quiet hw.1
    rintro yes w1 ⟨hw1, hsettled⟩
    have h1 := h.quiet hw1
    split
    · rename_i hyes
      refine (issues_fillBuffer _ _ _ _ _ _ w1 h1.fitted).bind ?_ fun _ _ => h1.quiet
      rintro e w2 ⟨c, rfl, hc, hiss⟩
      obtain ⟨more, hlog, hmore⟩ := hw1.log
      have hsettled := (hsettled hyes).append_quiet hmore
      rw [← hlog] at hsettled
      rw [leads_addEvent_iff]
      exact (h1.issued hiss (by rw [hc]; simpa using hsettled) ha (by rw [hc]; simp)).added ha
    · exact tracked_fillArray (v := .element _) ha (fun _ => nofun) _ _ w1 h1

lemma makes_zerosLike (a : DeviceArray) : Makes (zerosLike a) arrays := by
  intro w h
  refine (leads_newArray_tracks h).bind ?_ fun _ _ hw => hw ▸ h
  rintro r w1 ⟨hr, -, -, hlisted⟩
  rw [leads_bind]
  have hsettled := hr.settled r mem_cons_self
  rw [hlisted] at hsettled
  refine (leads_zeroFill_tracks hr mem_cons_self fun q _ => ?_).mono (fun _ _ => id) fun _ _ hw =>
    hw.subset (subset_cons_self _ _)
  exact ((quiet_supports (R := Quiet) _ _).leads w1).mono (fun _ _ _ _ => hsettled)

lemma Writes.inPlace {m : Host EventId} (hm : Writes m a arrays) (ha : a ∈ arrays) :
    Tracked (do Host.addEvent a (← m); return b) arrays fun _ w' => Tracks w' arrays := by
  rw [← bind_assoc]
  exact tracked_seq (hm.addEvent ha) fun _ _ h => h

variable (ha : a ∈ arrays)

include ha

lemma makes_copyArray (queue : Option Queue) : Makes (copyArray a queue) arrays :=
  fun _ h => leads_copyArray_tracks h ha queue

lemma makes_scaled {f g : ElementType → Host Actual} (hf : ∀ t, Yields (f t) IsPlain) (hg : ∀ t, Yields (g t) IsPlain) :
    Makes (do
      let t ← resultType a other a.queue
      newResult a t fun result => do scaleInto result (← f t) a (← g t)) arrays :=
  makes_typed fun t _ => tracked_yields (hf t) fun _ hf => tracked_yields (hg t) fun _ hg =>
    writes_scaleInto mem_cons_self hf (mem_cons_of_mem _ ha) hg

lemma makes_subtractFrom (v : Actual) : Makes (subtractFrom a v) arrays :=
  makes_scaled ha (fun _ => yields_constantOf _ _) fun _ => yields_convertedTo _ _

lemma makes_divideFrom (other : Actual) : Makes (divideFrom a other) arrays := by
  refine makes_typed fun t r => ?_
  split
  · exact tracked_fail _
  · refine tracked_yields (yields_convertedTo _ _) fun v hv => writes_runElementwise ?_ mem_cons_self
      (by simpa using ⟨.inr ha, hv⟩) none []
    exact (stays_lift _).bind fun _ => (quiet_require _).keeps.bind fun _ => keeps_standardKernel _ _

lemma makes_invert : Makes (invert a) arrays := by
  have hmake : Makes (newResult a a.type fun result => runElementwise
      (standardKernel result.context (.unaryOperator "~" a.type result.type)) result [.array a] none []) arrays :=
    makes_newResult _ _ fun _ =>
      writes_runElementwise (keeps_standardKernel _ _) mem_cons_self (by simp [ha]) none []
  unfold invert
  exact tracked_guarded hmake

lemma makes_powerOf (v : Actual) : Makes (powerOf a v) arrays :=
  makes_typed fun _ _ => tracked_yields (yields_convertedTo _ _) fun _ hv =>
    writes_runElementwise ((stays_lift _).bind fun _ => keeps_standardKernel _ _) mem_cons_self
      (by simpa using ⟨hv, .inr ha⟩) none []

lemma makes_mapped (type : ElementType) {function : Host String} (hfunction : Stays Quiet function) :
    Makes (newResult a type fun result => mapInto result a function) arrays :=
  makes_newResult _ _ fun _ =>
    writes_runElementwise (hfunction.keeps.bind fun _ => keeps_standardKernel _ _) mem_cons_self (by simp [ha]) none []

lemma makes_addArrays (hb : b ∈ arrays) (sign : Int) : Makes (addArrays a b sign) arrays :=
  makes_typed fun _ _ =>
    tracked_yields (yields_constantOf _ _) fun _ hf => tracked_yields (yields_constantOf _ _) fun _ hg =>
      writes_combineInto mem_cons_self hf (mem_cons_of_mem _ ha) hg (mem_cons_of_mem _ hb)

variable (hoth : other.Within arrays)

include hoth

lemma writes_bitwiseInto (hout : out ∈ arrays) (op : BitOperator) : Writes (bitwiseInto out a other op) out arrays := by
  unfold bitwiseInto
  split
  · rename_i b
    refine writes_runElementwise ?_ hout (by simpa using ⟨ha, hoth⟩) none []
    exact stays_guarded (keeps_standardKernel _ _)
  · exact writes_runElementwise ((stays_lift _).bind fun _ => keeps_standardKernel _ _) hout
      (by simpa using ⟨ha, hoth.isPlain⟩) none []

lemma makes_add : Makes (add a other) arrays := by
  unfold add
  split
  · exact makes_addArrays ha hoth 1
  · refine tracked_bind (quiet_equalsInteger _ _).keeps fun zero => tracked_ite (makes_copyArray ha _) ?_
    exact makes_scaled ha (fun _ => yields_constantOf _ _) fun _ => yields_convertedTo _ _

lemma makes_subtract : Makes (subtract a other) arrays := by
  unfold subtract
  split
  · exact makes_addArrays ha hoth (-1)
  · refine tracked_bind (quiet_equalsInteger _ _).keeps fun zero => tracked_ite (makes_copyArray ha _) ?_
    exact makes_scaled ha (fun _ => yields_constantOf _ _) fun _ => yields_opposite _

lemma makes_multiply : Makes (multiply a other) arrays := by
  unfold multiply
  split
  · exact makes_typed fun _ _ =>
      writes_multiplyInto mem_cons_self (mem_cons_of_mem _ ha) (mem_cons_of_mem _ hoth)
  · exact makes_scaled ha (fun _ => yields_convertedTo _ _) fun _ => yields_constantOf _ _

lemma makes_divide : Makes (divide a other) arrays := by
  unfold divide
  split
  · exact makes_typed fun _ _ =>
      writes_runElementwise ((quiet_require _).keeps.bind fun _ => keeps_standardKernel _ _) mem_cons_self
        (by simpa using ⟨.inr ha, .inr hoth⟩) none []
  · refine tracked_bind (quiet_equalsInteger _ _).keeps fun one => tracked_ite (makes_copyArray ha _) ?_
    refine makes_typed fun t _ => ?_
    exact tracked_yields (yields_inverse _) fun v _ => tracked_yields (yields_convertedTo t v) fun _ hf =>
      tracked_yields (yields_constantOf _ _) fun _ hg =>
      writes_scaleInto mem_cons_self hf (mem_cons_of_mem _ ha) hg

lemma makes_bitwise (op : BitOperator) : Makes (bitwise op a other) arrays :=
  tracked_bind (quiet_bitwiseType _ _).keeps fun _ => makes_newResult _ _ fun _ =>
    writes_bitwiseInto (mem_cons_of_mem _ ha) (hoth.mono (subset_cons_self _ _)) mem_cons_self op

lemma makes_power : Makes (power a other) arrays := by
  unfold power
  split
  · rename_i b
    refine tracked_bind (quiet_require _).keeps fun _ => makes_typed fun _ _ => ?_
    exact writes_runElementwise (keeps_standardKernel _ _) mem_cons_self (by simpa using ⟨.inr ha, .inr hoth⟩) none []
  · refine makes_typed fun _ _ => ?_
    exact writes_runElementwise ((stays_lift _).bind fun _ => keeps_standardKernel _ _) mem_cons_self
      (by simpa using ⟨.inr ha, hoth.isPlain⟩) none []

lemma tracked_compare (c : Comparison) :
    Tracked (compare c a other) arrays fun r w' => if other.isArray || c.keepsEvent then Tracks w' (r :: arrays)
      else Tracks w' ((r :: arrays).filter fun b => b.buffer != r.buffer) := by
  intro w h
  refine (leads_newArray_tracks h).bind ?_ fun _ _ hw => hw ▸ h
  rintro r w1 ⟨hr, -⟩
  split
  · rename_i b
    rw [← bind_assoc, leads_bind]
    refine ((writes_runElementwise ?_ mem_cons_self (by simpa using ⟨.inr ha, .inr hoth⟩) none []).addEvent
      mem_cons_self w1 hr).mono (fun _ _ => id) fun _ _ hw => hw.subset (subset_cons_self _ _)
    exact stays_guarded (keeps_standardKernel _ _)
  · rename_i hnum
    rw [leads_bind, isArray_eq_false hnum, Bool.false_or]
    refine (writes_runElementwise (keeps_standardKernel _ _) mem_cons_self
      (by simpa using ⟨.inr ha, hoth.isPlain⟩) none [] w1 hr).mono (fun e w2 hw => ?_) fun _ _ hw =>
        hw.subset (subset_cons_self _ _)
    split
    · simp only [leads_bind, leads_addEvent_iff, leads_pure]
      exact hw.added mem_cons_self
    · exact hw.unnoted mem_cons_self

lemma tracked_addInPlace : Tracked (addInPlace a other) arrays fun _ w' => Tracks w' arrays := by
  unfold addInPlace
  split
  · exact tracked_yields (yields_constantOf _ _) fun _ hf => tracked_yields (yields_constantOf _ _) fun _ hg =>
      (writes_combineInto ha hf ha hg hoth).inPlace ha
  · exact tracked_yields (yields_constantOf _ _) fun _ hf => (writes_scaleInto ha hf ha hoth.isPlain).inPlace ha

lemma tracked_multiplyInPlace : Tracked (multiplyInPlace a other) arrays fun _ w' => Tracks w' arrays := by
  unfold multiplyInPlace
  split
  · exact (writes_multiplyInto ha ha hoth).inPlace ha
  · exact tracked_yields (yields_constantOf _ _) fun _ hg => (writes_scaleInto ha hoth.isPlain ha hg).inPlace ha

lemma tracked_bitwiseInPlace (op : BitOperator) :
    Tracked (bitwiseInPlace op a other) arrays fun _ w' => Tracks w' arrays :=
  tracked_bind (quiet_bitwiseType _ _).keeps fun _ => (writes_bitwiseInto ha hoth ha op).inPlace ha

lemma tracked_subtractInPlace : Tracked (subtractInPlace a other) arrays fun _ w' =>
      if other.isArray then Tracks w' arrays else Tracks w' (arrays.filter fun b => b.buffer != a.buffer) := by
  unfold subtractInPlace
  split
  · exact tracked_yields (yields_constantOf _ _) fun _ hf => tracked_yields (yields_constantOf _ _) fun _ hg =>
      (writes_combineInto ha hf ha hg hoth).inPlace ha
  · rename_i hnum
    refine tracked_yields (yields_constantOf _ _) fun _ hf => tracked_yields (yields_opposite _) fun _ hg w h => ?_
    rw [leads_bind, isArray_eq_false hnum]
    exact (writes_scaleInto ha hf ha hg w h).mono (fun _ _ hw => hw.unnoted ha)

end Host

/-! ## Views -/

namespace DeviceArray

def Shares (b a : DeviceArray) : Prop := b.buffer = a.buffer ∧ b.events = a.events

variable {a b : DeviceArray}

lemma shares_view {l : Result Layout} (h : (do return a.view (← l)) = Except.ok b) : b.Shares a := by
  cases l with
  | error => cases h
  | ok =>
    cases h
    exact ⟨rfl, rfl⟩

end DeviceArray

namespace Host

variable {arrays : List DeviceArray} {a : DeviceArray}

def Assigned.Within (arrays : List DeviceArray) : Assigned → Prop
  | .array a => a ∈ arrays
  | .host _ => True
  | .number v => v.IsPlain

lemma quiet_assignmentQueue (queue : Option Queue) (a : DeviceArray) (v : Assigned) :
    Stays World.Quiet (assignmentQueue queue a v) := by
  unfold assignmentQueue
  split
  · exact stays_pure _
  · exact stays_pure _
  · exact stays_fail _

variable {part : DeviceArray} {v : Assigned} {wait : List EventId} {E : Fault → World → Prop}

lemma Writes.ofView {m : Host EventId} (hm : Writes m part arrays) (hevs : part.events = a.events) :
    Writes m a arrays := by
  intro w h
  refine (hm w h).mono fun e w' hw => ?_
  rwa [World.noted, hevs] at hw

variable {source indices : DeviceArray}

lemma tracked_assignArray (ha : a ∈ arrays) (hpart : part ∈ arrays) (hevs : part.events = a.events)
    (hsrc : source ∈ arrays) (queue : Option Queue) (wait : List EventId) :
    Tracked (assignArray a part source queue wait) arrays fun _ w' => Tracks w' arrays := by
  have hops : ∀ o ∈ [ArrayOperand.array source], o.Within arrays := forall_mem_singleton.2 (.array hsrc)
  have hker := keeps_standardKernel part.context (.copy part.type source.type)
  have hcopy := (Writes.ofView (writes_runElementwise hker hpart hops queue wait) hevs).addEvent ha
  unfold assignArray
  exact tracked_guarded (tracked_guarded (tracked_guarded hcopy))

/-- **Assigning to a part of an array keeps track.** -/
lemma tracked_assignPart (ha : a ∈ arrays) (entries : List IndexEntry) (hv : v.Within arrays) (queue : Option Queue)
    (wait : List EventId) : Tracked (assignPart a entries v queue wait) arrays fun _ w' => Tracks w' arrays := by
  refine tracked_bind (quiet_assignmentQueue _ _ _).keeps fun queue w h => ?_
  cases hidx : a.index entries with
  | error => exact h
  | ok part =>
    obtain ⟨hbuf, hevs⟩ := DeviceArray.shares_view hidx
    have hpart : Tracks w (part :: arrays) := h.view ha hbuf hevs
    have hleave : ∀ {w'}, Tracks w' (part :: arrays) → Tracks w' arrays := fun hw =>
      hw.subset (subset_cons_self _ _)
    simp only [eventsOf, leads_eventList, leads_bind, leads_lift_ok]
    cases v with
    | number => exact (tracked_fillArray mem_cons_self hv _ _ w hpart).mono (fun _ _ => hleave) fun _ _ => hleave
    | array =>
      exact (tracked_assignArray (mem_cons_of_mem _ ha) mem_cons_self hevs (mem_cons_of_mem _ hv) _ _
        w hpart).mono (fun _ _ => hleave) fun _ _ => hleave
    | host host =>
      refine leads_quiet_bind (quiet_needQueue _) (fun q w1 hw1 => ?_) fun _ _ => h.quiet
      have h1 := hpart.quiet hw1
      split
      · -- The events were listed before the queue was asked for, which changes nothing.
        refine (issues_enqueueWrite _ _ _ _ _ _ w1 h1.fitted).bind ?_ fun _ _ hw => hleave (h1.quiet hw)
        rintro e w2 ⟨c, rfl, hc, hiss⟩
        rw [leads_addEvent_iff]
        refine hleave ((h1.issued hiss ?_ (mem_cons_of_mem _ ha) (by rw [hc]; simpa using hbuf)).added
          (mem_cons_of_mem _ ha))
        rw [hc]
        refine forall_mem_singleton.2 ((h1.settled part mem_cons_self).mono ?_)
        rw [hevs, hw1.listed]
        exact subset_append_right _ _
      · refine (leads_toDevice_tracks h1 q host a.allocator true true).bind ?_ fun _ _ hw => hleave hw.1
        rintro r w2 ⟨hr, -⟩
        exact (tracked_assignArray (mem_cons_of_mem _ (mem_cons_of_mem _ ha))
          (mem_cons_of_mem _ mem_cons_self) hevs mem_cons_self _ _ w2 hr).mono
          (fun _ _ hw => hleave (hw.subset (subset_cons_self _ _)))
          fun _ _ hw => hleave (hw.subset (subset_cons_self _ _))

/-! ## Putting elements -/

variable {w : World}

lemma leads_launchGather (h : Tracks w arrays) (ha : a ∈ arrays) {args : List Actual}
    (hargs : ∀ b, Actual.buffer b ∈ Actual.buffer a.buffer :: args → ∃ x ∈ arrays, b = x.buffer ∧ w.Ready wait x)
    (context : Context) (op : StandardOperation) (indices : DeviceArray) (queue : Option Queue) :
    Leads (launchGather context op indices queue (.buffer a.buffer :: args) wait)
      (fun e w' => Tracks (w'.noted a e) arrays) (fun _ w' => Tracks w' arrays) w := by
  refine leads_keeps_bind (keeps_standardKernel _ _) h fun k w1 h1 hgr1 => ?_
  refine leads_keeps_bind (quiet_needQueue _).keeps h1 fun q w2 h2 hgr2 => ?_
  refine leads_keeps_bind (quiet_groupLimit _ _).keeps h2 fun limit w3 h3 hgr3 => ?_
  refine leads_keeps_bind (quiet_splayArray _ _ _).keeps h3 fun s w4 h4 hgr4 => ?_
  have hgr := hgr1.trans (hgr2.trans (hgr3.trans hgr4))
  refine (issues_call _ _ _ _ _ _ w4 h4.fitted).mono ?_ fun _ _ => h4.quiet
  rintro _ w5 ⟨c, rfl, ⟨hwait, -, htch, hwr⟩, hiss⟩
  refine h4.issued hiss (fun b hb => ?_) ha fun b hb => by simpa [eq_comm] using hwr b hb
  obtain ⟨x, hx, rfl, hready⟩ := hargs b (htch b hb)
  rw [hwait]
  exact h4.settled_of_ready hx (hready.grown hgr (h.present x hx).2)

lemma quiet_firstExtent (a : DeviceArray) : Stays World.Quiet (firstExtent a) := by
  unfold firstExtent
  split
  · exact stays_pure _
  · exact stays_fail _

lemma leads_mark (h : Tracks w arrays) (q : Queue) (type : ElementType) (shape : List Int) (data : List Bytes) :
    Leads (do toDevice q (← HostArray.ofElements type shape .row data) none true true)
      (fun m w' => Tracks w' (m :: arrays) ∧ w.Grown w' ∧ w'.Ready [] m) (fun _ w' => Tracks w' arrays) w := by
  refine leads_quiet_bind (quiet_ofBytes _ _ _ _) (fun host w1 hw1 => ?_) fun _ _ => h.quiet
  refine (leads_toDevice_tracks (h.quiet hw1) q host none true true).mono ?_ fun _ _ => And.left
  rintro m w2 ⟨hm, hgr, hover⟩
  exact ⟨hm, hw1.grown.trans hgr, hover rfl⟩

lemma leads_putLaunch (h : Tracks w arrays) (ha : a ∈ arrays) {fills lengths : DeviceArray}
    (hsrc : source ∈ arrays) (hidxs : indices ∈ arrays) (hfills : fills ∈ arrays) (hlens : lengths ∈ arrays)
    (hover : w.Ready [] fills ∧ w.Ready [] lengths) (hwait : w.listed indices.events ⊆ wait) (context : Context)
    (op : StandardOperation) (queue : Option Queue) {α : Type} {f : EventId → Host α} {Q : α → World → Prop}
    (hf : ∀ e w', Tracks (w'.noted a e) arrays → Leads (f e) Q E w') (hE : ∀ e w', Tracks w' arrays → E e w') :
    Leads (do
      let _ ← standardKernel context op
      let waits ← ([source] ++ [a]).mapM eventsOf
      let e ← launchGather context op indices queue
        ([a].flatMap passWithOffset ++ passWithOffset indices ++ [source].flatMap passWithOffset ++
          passWithOffset fills ++ passWithOffset lengths ++ [.literal (.int indices.size)]) (wait ++ waits.flatten)
      f e) Q E w := by
  refine leads_keeps_bind (keeps_standardKernel _ _) h (fun _ w1 h1 hgr => ?_) hE
  rw [leads_bind, leads_mapM_eventsOf]
  refine (leads_launchGather h1 ha ?_ _ _ _ _).bind hf hE
  intro b hb
  have hb : b = a.buffer ∨ b = indices.buffer ∨ b = source.buffer ∨ b = fills.buffer ∨ b = lengths.buffer := by
    simpa [passWithOffset] using hb
  have hmark : ∀ x ∈ arrays, w.Ready [] x → ∀ wait, w1.Ready wait x := fun x hx hx' wait e he =>
    .inr ((hx'.grown hgr (h.present x hx).2 e he).resolve_left not_mem_nil)
  rcases hb with rfl | rfl | rfl | rfl | rfl
  · exact ⟨a, ha, rfl, fun e he => .inl (by simp [he])⟩
  · refine ⟨indices, hidxs, rfl, fun e he => .inl (mem_append_left _ (hwait ?_))⟩
    rwa [hgr.listed _ (h.present indices hidxs).2] at he
  · exact ⟨source, hsrc, rfl, fun e he => .inl (by simp [he])⟩
  · exact ⟨fills, hfills, rfl, hmark fills hfills hover.1 _⟩
  · exact ⟨lengths, hlens, rfl, hmark lengths hlens hover.2 _⟩

/-- **Putting an array to indices keeps track.** -/
lemma leads_putAll_tracks (h : Tracks w arrays) (ha : a ∈ arrays)
    (hsrc : source ∈ arrays) (hidxs : indices ∈ arrays) (queue : Option Queue) (wait : List EventId) :
    Leads (putAll { arrays := [source], indices, out := some [a], queue, wait }) (fun _ w' => Tracks w' arrays)
      (fun _ w' => Tracks w' arrays) w := by
  have hchunks : Gather.chunks 1 = [(0, 1)] := rfl
  have hpart : ∀ x : DeviceArray, Gather.part (0, 1) [x] = [x] := fun _ => rfl
  simp only [putAll, putChunk, markChunk, launchOnto, typeOfAll, gatherTargets, isEmpty_cons, length_singleton, hchunks, all_nil,
    if_true, if_false, Bool.false_eq_true, pure_bind, forIn_cons, forIn_nil, hpart]
  rw [leads_bind, eventsOf, leads_eventList, leads_bind]
  refine Leads.mono (Q := fun targets w' => targets = [a] ∧ w' = w) (E := fun _ w' => w' = w) ?_ ?_ ?_
  · split
    · exact rfl
    · exact ⟨rfl, rfl⟩
  · rintro _ w ⟨rfl, rfl⟩
    split
    · exact h
    · refine leads_keeps_bind (keeps_standardKernel _ _) h fun _ w1 h1 hgr1 => ?_
      rw [leads_bind, leads_bind, leads_bind]
      refine Leads.mono (Q := fun _ w' => Tracks w' arrays) ?_ (fun _ _ hw => hw) fun _ _ => id
      rw [leads_bind]
      have hextents : Stays World.Quiet ([source].mapM firstExtent) := stays_mapM fun x _ => quiet_firstExtent x
      refine leads_keeps_bind hextents.keeps h1 fun extents w2 h2 hgr2 => ?_
      refine leads_keeps_bind (quiet_arrayQueue _).keeps h2 fun q w3 h3 hgr3 => ?_
      refine (leads_mark h3 _ _ _ _).bind ?_
      rintro fills w4 ⟨h4, hgr4, hfills⟩
      refine (leads_mark h4 _ _ _ _).bind ?_ fun _ _ hw => hw.subset (subset_cons_self _ _)
      rintro lengths w5 ⟨h5, hgr5, hlens⟩
      have hleave : ∀ {w'}, Tracks w' (lengths :: fills :: arrays) → Tracks w' arrays := fun hw =>
        hw.subset fun x hx => mem_cons_of_mem _ (mem_cons_of_mem _ hx)
      have hin : ∀ {x}, x ∈ arrays → x ∈ lengths :: fills :: arrays := fun hx =>
        mem_cons_of_mem _ (mem_cons_of_mem _ hx)
      have hgr := hgr1.trans (hgr2.trans (hgr3.trans (hgr4.trans hgr5)))
      simp only [leads_pure, bind_assoc]
      refine leads_putLaunch h5 (hin ha) (hin hsrc) (hin hidxs) (mem_cons_of_mem _ mem_cons_self)
        mem_cons_self ⟨hfills.grown hgr5 (h4.present fills mem_cons_self).2, hlens⟩ ?_ _ _ _ ?_
        fun _ _ => hleave
      · -- The events of the indices were listed at the start, and have stayed the same.
        rw [hgr.listed _ (h.present indices hidxs).2]
        exact subset_append_right _ _
      · intro e w6 hw6
        simp only [hpart, forIn_cons, forIn_nil, leads_bind, leads_addEvent_iff, leads_pure]
        exact hleave (hw6.added (hin ha))
  · rintro _ _ rfl
    exact h

/-- **Assigning to the places that indices name keeps track.** -/
lemma tracked_assignAt (ha : a ∈ arrays) (hidxs : indices ∈ arrays) (hv : v.Within arrays) (queue : Option Queue)
    (wait : List EventId) : Tracked (assignAt a indices v queue wait) arrays fun _ w' => Tracks w' arrays := by
  refine tracked_bind (quiet_assignmentQueue _ _ _).keeps fun queue =>
    tracked_bind (stays_get.map.keeps) fun events => tracked_bind ?_ fun _ => ?_
  · exact stays_guarded (stays_guarded ((stays_fail _).ite (stays_pure _)))
  cases v with
  | array => exact tracked_seq (fun _ h => leads_putAll_tracks h ha hv hidxs _ _) fun _ _ h => h
  | _ => exact tracked_fail _

end Host

end ClHost
