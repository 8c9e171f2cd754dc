import ClHost.Host
import Mathlib.Data.List.Forall2

/-!
# Where operations of the host lead

`Leads m Q E w` says that the operation `m`, started in `w`, ends with a result and a state of `Q`, or fails in a state
of `E`. It is stated of any errors and states, for the operations of a pool too.
-/

namespace ClHost

open List

variable {ε α β : Type} {x : Except ε α} {f : α → Except ε β}

lemma of_bind_ok {b : β} (h : (x >>= f) = .ok b) : ∃ a, x = .ok a ∧ f a = .ok b := by
  cases x with
  | error => cases h
  | ok a => exact ⟨a, rfl, h⟩

lemma mapM_ok_iff {f : α → Except ε β} {xs : List α} {ys : List β} :
    xs.mapM f = .ok ys ↔ List.Forall₂ (fun x y => f x = .ok y) xs ys := by
  induction xs generalizing ys with
  | nil => simp [pure, Except.pure, eq_comm]
  | cons x xs ih =>
    rw [mapM_cons, forall₂_cons_left_iff]
    constructor
    · intro h
      obtain ⟨y, hy, h⟩ := of_bind_ok h
      obtain ⟨ys, hys, h⟩ := of_bind_ok h
      cases h
      exact ⟨y, ys, hy, ih.1 hys, rfl⟩
    · rintro ⟨y, ys, hy, hys, rfl⟩
      rw [hy, ih.2 hys]
      rfl

lemma error_of_bind {e : ε} (h : (x >>= f) = .error e) : x = .error e ∨ ∃ a, x = .ok a ∧ f a = .error e := by
  cases x with
  | error =>
    cases h
    exact .inl rfl
  | ok a => exact .inr ⟨a, rfl, h⟩

section Forall₂

variable {α β : Type} {xs : List α} {ys : List β}

lemma map_eq_of_forall₂ {γ : Type} {f : α → γ} {g : β → γ} (h : List.Forall₂ (fun x y => g y = f x) xs ys) :
    ys.map g = xs.map f := by
  induction h with
  | nil => rfl
  | cons h _ ih => rw [map_cons, map_cons, h, ih]

lemma exists_of_forall₂_of_mem {R : α → β → Prop} (h : List.Forall₂ R xs ys) {y : β} (hy : y ∈ ys) :
    ∃ x ∈ xs, R x y := by
  induction h with
  | nil => cases hy
  | cons hxy _ ih =>
    rcases mem_cons.1 hy with rfl | hy
    · exact ⟨_, mem_cons_self, hxy⟩
    · obtain ⟨x, hx, hxy⟩ := ih hy
      exact ⟨x, mem_cons_of_mem _ hx, hxy⟩

end Forall₂

section Leads

variable {σ : Type} {m m' : ExceptT ε (StateM σ) α} {n : ExceptT ε (StateM σ) β} {f : β → ExceptT ε (StateM σ) α}

def Leads (m : ExceptT ε (StateM σ) α) (Q : α → σ → Prop) (E : ε → σ → Prop) (w : σ) : Prop :=
  match m.run.run w with
  | (.ok x, w') => Q x w'
  | (.error e, w') => E e w'

/-- What is said of a run that may fail in any way. -/
@[simp] abbrev Any : ε → σ → Prop := fun _ _ => True

/-- What is said of a run that does not fail. -/
@[simp] abbrev Never : ε → σ → Prop := fun _ _ => False

variable {Q Q' : α → σ → Prop} {E E' : ε → σ → Prop} {w w' : σ} {P : β → σ → Prop}

lemma Leads.mono (h : Leads m Q E w) (hQ : ∀ x w', Q x w' → Q' x w') (hE : ∀ e w', E e w' → E' e w' := by
      first | exact fun _ _ h => h | exact fun _ _ _ => trivial | exact fun _ _ h => h.elim) :
    Leads m Q' E' w := by
  unfold Leads at h ⊢
  split
  · rename_i x w' hm
    rw [hm] at h
    exact hQ x w' h
  · rename_i e w' hm
    rw [hm] at h
    exact hE e w' h

lemma Leads.imp (h : Leads m Q E w) (hQ : ∀ x w', Q x w' → Q' x w') : Leads m Q' E w := h.mono hQ

lemma Leads.and (h : Leads m Q E w) (h' : Leads m Q' E' w) :
    Leads m (fun x w' => Q x w' ∧ Q' x w') (fun e w' => E e w' ∧ E' e w') w := by
  unfold Leads at h h' ⊢
  split
  · rename_i x w' hm
    rw [hm] at h h'
    exact ⟨h, h'⟩
  · rename_i e w' hm
    rw [hm] at h h'
    exact ⟨h, h'⟩

variable {x : α}

lemma Leads.of_run (h : Leads m Q E w) (hrun : m.run.run w = (.ok x, w')) : Q x w' := by
  rw [Leads, hrun] at h
  exact h

lemma Leads.of_error (h : Leads m Q E w) {e : ε} (hrun : m.run.run w = (.error e, w')) : E e w' := by
  rw [Leads, hrun] at h
  exact h

lemma Leads.state {P : σ → Prop} (h : Leads m (fun _ => P) (fun _ => P) w) : P (m.run.run w).2 := by
  unfold Leads at h
  rcases hm : m.run.run w with ⟨_ | _, _⟩ <;> rw [hm] at h <;> exact h

lemma leads_run (m : ExceptT ε (StateM σ) α) (w : σ) :
    Leads m (fun x w' => m.run.run w = (.ok x, w')) (fun e w' => m.run.run w = (.error e, w')) w := by
  unfold Leads
  split <;> assumption

lemma Leads.of_ok (h : Leads m Q E w) (hok : (m.run.run w).1.toBool = true) : Leads m Q Never w := by
  unfold Leads at h ⊢
  split <;> simp_all [Except.toBool]

lemma leads_of_map {f : α → β} {b : β} (h : (m.run.run w).1.toOption.map f = some b) :
    Leads m (fun x _ => f x = b) Never w := by
  unfold Leads
  split <;> simp_all [Except.toOption]

lemma leads_congr (h : m.run.run w = m'.run.run w) : Leads m Q E w ↔ Leads m' Q E w := by
  rw [Leads, Leads, h]

@[simp] lemma leads_pure : Leads (pure x) Q E w ↔ Q x w := Iff.rfl

variable (n f w) in
lemma run_bind : (n >>= f).run.run w = match n.run.run w with
      | (.ok x, w') => (f x).run.run w'
      | (.error e, w') => (.error e, w') := by
  change (match n.run.run w with | (x, s) => ExceptT.bindCont f x s) = _
  rcases n.run.run w with ⟨_ | _, _⟩ <;> rfl

lemma run_tryCatch {f : ε → ExceptT ε (StateM σ) α} : (tryCatch m f).run.run w = match m.run.run w with
      | (.ok x, w') => (.ok x, w')
      | (.error e, w') => (f e).run.run w' := by
  simp only [tryCatch, tryCatchThe, MonadExceptOf.tryCatch, ExceptT.tryCatch, ExceptT.run_mk, StateT.run_bind]
  unfold ExceptT.run
  rcases StateT.run m w with ⟨_ | _, _⟩ <;> rfl

@[simp] lemma leads_bind : Leads (n >>= f) Q E w ↔ Leads n (fun x => Leads (f x) Q E) E w := by
  unfold Leads
  rw [run_bind]
  rcases n.run.run w with ⟨_ | _, _⟩ <;> rfl

@[simp] lemma leads_tryCatch {f : ε → ExceptT ε (StateM σ) α} :
    Leads (tryCatch m f) Q E w ↔ Leads m Q (fun e => Leads (f e) Q E) w := by
  unfold Leads
  rw [run_tryCatch]
  rcases m.run.run w with ⟨_ | _, _⟩ <;> rfl

lemma Leads.bind {F : ε → σ → Prop} (h : Leads n P F w)
    (hf : ∀ x w', P x w' → Leads (f x) Q E w') (hE : ∀ e w', F e w' → E e w' := by
      first | exact fun _ _ h => h | exact fun _ _ _ => trivial | exact fun _ _ h => h.elim) :
    Leads (n >>= f) Q E w :=
  leads_bind.2 (h.mono hf hE)

lemma Leads.andThen (h : Leads n P E w)
    (hf : ∀ x w', P x w' → Leads (f x) Q E w') : Leads (n >>= f) Q E w := h.bind hf fun _ _ h => h

lemma leads_any_bind (h : ∀ x w', Leads (f x) Q Any w') : Leads (n >>= f) Q Any w := by
  rw [leads_bind, Leads]
  split
  · exact h _ _
  · trivial

@[simp] lemma leads_map {f : β → α} : Leads (f <$> n) Q E w ↔ Leads n (fun x => Q (f x)) E w := by
  rw [map_eq_pure_bind, leads_bind]
  rfl

lemma run_bind_congr {g : β → ExceptT ε (StateM σ) α}
    (h : Leads n (fun x w' => (f x).run.run w' = (g x).run.run w') Any w) : (n >>= f).run.run w = (n >>= g).run.run w := by
  unfold Leads at h
  rw [run_bind, run_bind]
  rcases hm : n.run.run w with ⟨_ | _, _⟩
  · rfl
  · rw [hm] at h
    exact h

lemma run_congr_bind {n' : ExceptT ε (StateM σ) β} (h : n.run.run w = n'.run.run w) :
    (n >>= f).run.run w = (n' >>= f).run.run w := by
  rw [run_bind, run_bind, h]

@[simp] lemma leads_get {Q : σ → σ → Prop} : Leads (get : ExceptT ε (StateM σ) σ) Q E w ↔ Q w w := Iff.rfl

@[simp] lemma leads_set {Q : PUnit → σ → Prop} :
    Leads (set w' : ExceptT ε (StateM σ) PUnit) Q E w ↔ Q ⟨⟩ w' := Iff.rfl

@[simp] lemma leads_modify {f : σ → σ} {Q : PUnit → σ → Prop} :
    Leads (modify f : ExceptT ε (StateM σ) PUnit) Q E w ↔ Q ⟨⟩ (f w) := Iff.rfl

end Leads

def World.device (w : World) (d : DeviceRef) : DeviceInfo :=
  (w.platforms[d.platform]?.getD {}).devices[d.index]?.getD {}

namespace Host

variable {α β : Type} {m m' : Host α} {n : Host β} {f : β → Host α}

section Leads

variable {Q : α → World → Prop} {E : Fault → World → Prop} {w : World} {c : Category} {x : α}

@[simp] lemma leads_refuse {s : String} : Leads (refuse c s : Host α) Q E w ↔ E (.told c s) w := Iff.rfl

@[simp] lemma leads_bare : Leads (bare c : Host α) Q E w ↔ E (.bare c) w := Iff.rfl

@[simp] lemma leads_lift_ok : Leads (lift (.ok x)) Q E w ↔ Q x w := Iff.rfl

@[simp] lemma leads_lift_error {e : Fault} : Leads (lift (.error e) : Host α) Q E w ↔ E e w := Iff.rfl

lemma leads_foldlM {P : List β → α → Prop} {f : α → β → Host α}
    (hf : ∀ done x a, P done a → Leads (f a x) (fun a' w' => w' = w ∧ P (done ++ [x]) a') (fun _ w' => w' = w) w)
    {a : α} (h : P [] a) (l : List β) : Leads (l.foldlM f a) (fun a' w' => w' = w ∧ P l a') (fun _ w' => w' = w) w := by
  suffices hrest : ∀ done a, P done a →
      Leads (l.foldlM f a) (fun a' w' => w' = w ∧ P (done ++ l) a') (fun _ w' => w' = w) w from hrest [] a h
  induction l with
  | nil =>
    intro done a h
    exact ⟨rfl, by rwa [append_nil]⟩
  | cons x l ih =>
    intro done a h
    rw [append_cons]
    refine (hf done x a h).andThen ?_
    rintro a' _ ⟨rfl, ha'⟩
    exact ih (done ++ [x]) a' ha'

lemma leads_mapM {I : World → Prop} {P : β → α → Prop} {f : β → Host α} {xs : List β}
    (h : ∀ x ∈ xs, ∀ w, I w → Leads (f x) (fun y w' => P x y ∧ I w') E w) (hw : I w) :
    Leads (xs.mapM f) (fun ys w' => List.Forall₂ P xs ys ∧ I w') E w := by
  induction xs generalizing w with
  | nil => exact ⟨.nil, hw⟩
  | cons x xs ih =>
    obtain ⟨hx, hxs⟩ := forall_mem_cons.1 h
    rw [mapM_cons]
    refine (hx w hw).andThen fun y w1 ⟨hy, hw1⟩ => (ih hxs hw1).andThen fun ys w2 ⟨hys, hw2⟩ => ?_
    exact ⟨.cons hy hys, hw2⟩

/-- What only looks at the state is looked up for each item. -/
lemma leads_mapM_of {f : β → Host α} {g : β → α} (hf : ∀ x (P : α → World → Prop), Leads (f x) P E w ↔ P (g x) w)
    {xs : List β} {Q : List α → World → Prop} : Leads (xs.mapM f) Q E w ↔ Q (xs.map g) w := by
  induction xs generalizing Q with
  | nil => rfl
  | cons x xs ih =>
    rw [mapM_cons, leads_bind, hf, leads_bind, ih]
    rfl

lemma leads_deviceInfos {devices : List DeviceRef} {Q : List DeviceInfo → World → Prop} :
    Leads (devices.mapM deviceInfo) Q E w ↔ Q (devices.map w.device) w := leads_mapM_of fun _ _ => Iff.rfl

@[simp] lemma leads_attempt {Q : Result α → World → Prop} :
    Leads (attempt m) Q E w ↔ Leads m (fun x => Q (.ok x)) (fun e => Q (.error e)) w := by
  unfold Leads
  have hrun : (attempt m).run.run w = (.ok (m.run.run w).1, (m.run.run w).2) := rfl
  rw [hrun]
  rcases m.run.run w with ⟨_ | _, _⟩ <;> rfl

@[simp] lemma leads_record {r : Record} {Q : Unit → World → Prop} :
    Leads (record r) Q E w ↔ Q () { w with log := w.log.push r } := Iff.rfl

@[simp] lemma leads_newEvent {Q : EventId → World → Prop} :
    Leads newEvent Q E w ↔ Q w.events { w with events := w.events + 1 } := Iff.rfl

@[simp] lemma leads_eventList {i : Nat} {Q : List EventId → World → Prop} :
    Leads (eventList i) Q E w ↔ Q (w.eventLists[i]?.getD []) w := Iff.rfl

end Leads

def Stays (R : World → World → Prop) (m : Host α) : Prop := ∀ w, R w (m.run.run w).2

section Stays

variable {R : World → World → Prop}

lemma Stays.mono {S : World → World → Prop} (h : Stays R m) (hRS : ∀ w w', R w w' → S w w') : Stays S m :=
  fun w => hRS _ _ (h w)

lemma Stays.leads (h : Stays R m) (w : World) : Leads m (fun _ w' => R w w') (fun _ w' => R w w') w := by
  have hw := h w
  unfold Leads
  rcases hm : m.run.run w with ⟨_ | _, _⟩ <;> rw [hm] at hw <;> exact hw

lemma stays_of_leads (h : ∀ w, Leads m (fun _ w' => R w w') (fun _ w' => R w w') w) : Stays R m :=
  fun w => (h w).state

lemma stays_modify {f : World → World} (h : ∀ w, R w (f w)) : Stays R (modify f : Host PUnit) := h

lemma stays_get_bind {f : World → Host α} (h : ∀ w, R w ((f w).run.run w).2) : Stays R (get >>= f) := by
  intro w
  exact h w

lemma Stays.bind [IsTrans World R] (hn : Stays R n) (hf : ∀ x, Stays R (f x)) : Stays R (n >>= f) := by
  intro w
  have hw := hn w
  rw [run_bind]
  rcases hr : n.run.run w with ⟨_ | x, w'⟩ <;> rw [hr] at hw
  · exact hw
  · exact IsTrans.trans _ _ _ hw (hf x w')

lemma Stays.map {f : β → α} (hn : Stays R n) : Stays R (n >>= fun x => pure (f x)) := by
  intro w
  have hw := hn w
  rw [run_bind]
  rcases hr : n.run.run w with ⟨_ | x, w'⟩ <;> rwa [hr] at hw

lemma Stays.ite {c : Prop} [Decidable c] (hm : Stays R m) (hm' : Stays R m') : Stays R (if c then m else m') := by
  split
  · exact hm
  · exact hm'

lemma Stays.attempt (hm : Stays R m) : Stays R (attempt m) := hm

variable [Std.Refl R]

lemma stays_pure (x : α) : Stays R (pure x) := fun w => refl w

lemma stays_fail (e : Fault) : Stays R (fail e : Host α) := fun w => refl w

lemma stays_guarded [IsTrans World R] {c : Prop} [Decidable c] {e : Fault} {f : PUnit → Host α}
    (h : Stays R (f ())) : Stays R (if c then fail e >>= f else f ()) := ((stays_fail e).bind fun _ => h).ite h

lemma stays_lift (x : Result α) : Stays R (lift x) := by
  intro w
  cases x <;> exact refl w

lemma stays_get : Stays R (get : Host World) := fun w => refl w

lemma stays_forIn [IsTrans World R] {xs : List β} {f : β → α → Host (ForInStep α)}
    (h : ∀ x ∈ xs, ∀ s, Stays R (f x s)) (s : α) : Stays R (forIn xs s f) := by
  induction xs generalizing s with
  | nil => exact stays_pure s
  | cons x xs ih =>
    rw [forIn_cons]
    refine (h x (mem_cons_self ..) s).bind fun r => ?_
    cases r with
    | done s => exact stays_pure s
    | yield s => exact ih (fun y hy => h y (mem_cons_of_mem x hy)) s

lemma stays_mapM [IsTrans World R] {xs : List β} {f : β → Host α} (h : ∀ x ∈ xs, Stays R (f x)) :
    Stays R (xs.mapM f) := by
  induction xs with
  | nil => exact stays_pure _
  | cons x xs ih =>
    rw [mapM_cons]
    refine (h x mem_cons_self).bind fun _ => Stays.map ?_
    exact ih fun y hy => h y (mem_cons_of_mem x hy)

lemma quiet_platformInfo (i : Nat) : Stays R (platformInfo i) := stays_get.map

lemma quiet_deviceInfo (d : DeviceRef) : Stays R (deviceInfo d) := (quiet_platformInfo _).map

end Stays

def Reaches (R : World → World → Prop) (m : Host α) (Q : α → World → Prop) (w : World) : Prop :=
  Leads m (fun x w' => R w w' ∧ Q x w') (fun _ w' => R w w') w

section Reaches

variable {R : World → World → Prop} {Q : α → World → Prop} {w : World}

lemma Stays.reaches (h : Stays R m) (w : World) : Reaches R m (fun _ _ => True) w :=
  (h.leads w).mono (fun _ _ hw => ⟨hw, trivial⟩)

lemma Stays.reaches_and (h : Stays R m) (hm : Leads m Q Any w) : Reaches R m Q w :=
  ((h.leads w).and hm).mono (fun _ _ h => h) fun _ _ h => h.1

lemma Reaches.mono {Q' : α → World → Prop} (h : Reaches R m Q w) (hQ : ∀ x w', R w w' → Q x w' → Q' x w') :
    Reaches R m Q' w := Leads.mono h (fun x w' ⟨hw, hx⟩ => ⟨hw, hQ x w' hw hx⟩)

lemma Reaches.imp {S : World → World → Prop} (h : Reaches R m Q w) (hRS : ∀ w', R w w' → S w w') : Reaches S m Q w :=
  Leads.mono h (fun _ w' ⟨hw, hx⟩ => ⟨hRS w' hw, hx⟩) fun _ => hRS

lemma reaches_pure [Std.Refl R] {x : α} (h : Q x w) : Reaches R (pure x) Q w := ⟨refl w, h⟩

lemma reaches_lift [Std.Refl R] (x : Result α) : Reaches R (lift x) (fun y w' => x = .ok y ∧ w' = w) w := by
  cases x with
  | error => exact refl w
  | ok => exact ⟨refl w, rfl, rfl⟩

lemma reaches_lift_bind [Std.Refl R] {x : Result β}
    (h : ∀ y, x = .ok y → Reaches R (f y) Q w) : Reaches R (lift x >>= f) Q w := by
  cases x with
  | error => exact refl (r := R) w
  | ok y => exact h y rfl

lemma reaches_fail_bind [Std.Refl R] (e : Fault) (f : β → Host α) : Reaches R (fail e >>= f) Q w := refl (r := R) w

lemma reaches_bind [IsTrans World R] {P : β → World → Prop} (hn : Reaches R n P w)
    (hf : ∀ x w', R w w' → P x w' → Reaches R (f x) Q w') : Reaches R (n >>= f) Q w := by
  rw [Reaches, leads_bind]
  refine Leads.mono hn ?_
  rintro x w1 ⟨hw1, hx⟩
  refine Leads.mono (hf x w1 hw1 hx) ?_ fun _ _ h => IsTrans.trans _ _ _ hw1 h
  rintro y w2 ⟨hw2, hy⟩
  exact ⟨IsTrans.trans _ _ _ hw1 hw2, hy⟩

lemma Stays.reaches_bind [IsTrans World R] (hn : Stays R n) (hf : ∀ x w', R w w' → Reaches R (f x) Q w') :
    Reaches R (n >>= f) Q w :=
  Host.reaches_bind (hn.reaches w) fun x w' hw' _ => hf x w' hw'

lemma reaches_ite {condition : Prop} [Decidable condition] (hm : Reaches R m Q w)
    (hm' : Reaches R m' Q w) : Reaches R (if condition then m else m') Q w := by
  split
  · exact hm
  · exact hm'

lemma stays_of_reaches {Q : World → α → World → Prop} (h : ∀ w, Reaches R m (Q w) w) : Stays R m :=
  stays_of_leads fun w => Leads.mono (h w) (fun _ _ h => h.1)

end Reaches

def Gives (m : Host α) (P : α → Prop) : Prop := ∀ w, Leads m (fun x _ => P x) (fun _ _ => True) w

section Gives

variable {P : α → Prop}

lemma gives_pure {x : α} (hx : P x) : Gives (pure x) P := fun _ => hx

lemma gives_lift {x : Result α} (hx : ∀ y, x = .ok y → P y) : Gives (lift x) P := by
  intro w
  cases x with
  | error => trivial
  | ok y => exact hx y rfl

lemma gives_bind {R : β → Prop} (hn : Gives n R) (hf : ∀ x, R x → Gives (f x) P) :
    Gives (n >>= f) P := fun w => leads_bind.2 ((hn w).mono (fun x w' hx => hf x hx w'))

lemma gives_then (hf : ∀ x, Gives (f x) P) : Gives (n >>= f) P :=
  fun _ => leads_any_bind fun x w' => hf x w'

lemma gives_ite {condition : Prop} [Decidable condition] (hm : Gives m P) (hm' : Gives m' P) :
    Gives (if condition then m else m') P := by
  split
  · exact hm
  · exact hm'

end Gives

def Alike (R : α → β → Prop) (m : Host α) (m' : Host β) : Prop :=
  ∀ w, Leads m (fun x w' => ∃ y, m'.run.run w = (.ok y, w') ∧ R x y) (fun e w' => m'.run.run w = (.error e, w')) w

section Alike

variable {γ δ : Type} {R : α → β → Prop} {S : γ → δ → Prop}

lemma alike_pure {x : α} {y : β} (h : R x y) : Alike R (pure x) (pure y) := fun _ => ⟨y, rfl, h⟩

lemma alike_fail (e : Fault) : Alike R (fail e) (fail e) := fun _ => rfl

lemma Alike.mono {R' : α → β → Prop} (h : Alike R m n) (hR : ∀ x y, R x y → R' x y) : Alike R' m n :=
  fun w => (h w).mono (fun _ _ ⟨y, hrun, hxy⟩ => ⟨y, hrun, hR _ y hxy⟩)

lemma alike_refl (m : Host α) : Alike Eq m m := by
  intro w
  unfold Leads
  rcases m.run.run w with ⟨_ | x, w'⟩
  · rfl
  · exact ⟨x, rfl, rfl⟩

lemma alike_bind {f : α → Host γ} {f' : β → Host δ} (hm : Alike R m n)
    (hf : ∀ x y, R x y → Alike S (f x) (f' y)) : Alike S (m >>= f) (n >>= f') := by
  intro w
  rw [leads_bind]
  refine (hm w).mono ?_ ?_
  · rintro x w' ⟨y, hrun, hxy⟩
    rw [run_bind, hrun]
    exact hf x y hxy w'
  · intro e w' hrun
    rw [run_bind, hrun]

lemma alike_foldlM {κ κ' : Type} {T : κ → κ' → Prop} {f : α → κ → Host α} {f' : β → κ' → Host β}
    (hf : ∀ x y, R x y → ∀ k k', T k k' → Alike R (f x k) (f' y k')) {l : List κ} {l' : List κ'}
    (hl : List.Forall₂ T l l') {x : α} {y : β} (hxy : R x y) : Alike R (l.foldlM f x) (l'.foldlM f' y) := by
  induction hl generalizing x y with
  | nil => exact alike_pure hxy
  | cons hk _ ih => exact alike_bind (hf x y hxy _ _ hk) fun _ _ => ih

lemma Alike.run_eq (h : Alike Eq m m') (w : World) : m.run.run w = m'.run.run w := by
  have hw := h w
  unfold Leads at hw
  rcases hm : m.run.run w with ⟨_ | x, w'⟩
  · rw [hm] at hw
    exact hw.symm
  · rw [hm] at hw
    obtain ⟨_, hrun, rfl⟩ := hw
    exact hrun.symm

end Alike

end Host

end ClHost
