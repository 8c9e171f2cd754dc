import ClHost.Device.Query
import ClHost.Proofs.Host.Outcomes
import ClHost.Proofs.Text.Splitting

/-!
# Choosing a context again

A platform and its devices are chosen by answers, which are given or typed. The answers that were used are suggested for
the next time, when they choose the same devices and nothing is asked.

* `leads_chooseFrom`: what was typed comes after what was given, and all of it is suggested.
* `leads_chooseFrom_again`: the answers alone choose the devices.
* `chooseContext_again`: so does the suggestion, once it is cut at the colons again.
-/

namespace ClHost

open List Text Host

/-! ## What answers choose -/

def World.devicesAt (w : World) (i : Nat) : List DeviceRef :=
  ((w.platforms[i]?.getD {}).devices.zipIdx.filter fun (d, _) => ConstantFamily.sharesBit d.type anyType).map
    fun (_, k) => ⟨i, k⟩

/-- The devices that answers choose: the first answer is for the platform, and a second one for its devices is there
if it has several. -/
def World.Chosen (w : World) (answers : List String) (devices : List DeviceRef) : Prop :=
  ∃ a rest i, answers = a :: rest ∧ choosePlatform a w.platforms = .ok i ∧
    (rest = [] ∧ devices = w.devicesAt i ∧ (∃ x, w.devicesAt i = [x]) ∨
      ∃ b, rest = [b] ∧ 2 ≤ (w.devicesAt i).length ∧
        pickDevices ((w.devicesAt i).map fun x => (x, (w.device x).name)) b = .ok devices)

lemma World.Chosen.congr {w w' : World} {answers : List String} {devices : List DeviceRef} (h : w.Chosen answers devices)
    (hw : w'.platforms = w.platforms) : w'.Chosen answers devices := by
  unfold Chosen devicesAt device at *
  rwa [hw]

def World.setting? (w : World) (name : String) : Option String := (w.environment.find? fun e => e.1 == name).map (·.2)

/-! ## Answers that are given and typed -/

/-- A dialogue has come so far: these answers were used, the given ones before those that were typed. -/
structure Heard (provided : List Answer) (w : World) (used : List Answer) (d : Dialogue) (w' : World) : Prop where
  all : d.interactive = true → provided ++ d.typed = used ++ d.answers
  typed : d.typed = [] ∧ w'.input = w.input ∨ d.typed ≠ [] ∧ d.interactive = true ∧ d.answers = []
  heard : ∃ input shown, w' = { w with input, output := w.output ++ shown } ∧ input.toList ⊆ w.input.toList
  plain : ':' ∉ w.input.toList → ∀ a ∈ d.typed, ':' ∉ a.text.toList

namespace Host

variable {provided used : List Answer} {w w' : World} {d : Dialogue}

lemma leads_ask (h : Heard provided w used d w') (title : String) (choices : List String) (prompt : String) :
    Leads (ask d title choices prompt) (fun r w'' => ∃ a : Answer, a.text = r.1 ∧ Heard provided w (used ++ [a]) r.2 w'')
      Any w' := by
  unfold ask
  cases hd : d.answers with
  | cons a rest =>
    refine ⟨a, rfl, fun hi => ?_, h.typed.imp_right fun hnone => ?_, h.heard, h.plain⟩
    · rw [h.all hi, hd, append_assoc, singleton_append]
    · cases hd.symm.trans hnone.2.2
  | nil =>
    dsimp only
    split
    · -- Nobody is asked, and the empty answer is not kept.
      rename_i hi
      exact ⟨⟨"", true⟩, rfl, fun (h : d.interactive = true) => by simp [h] at hi, h.typed, h.heard, h.plain⟩
    · rename_i hi
      obtain ⟨input, shown, rfl, hsub⟩ := h.heard
      unfold readLine Host.print
      simp only [leads_bind, leads_modify, leads_get]
      split
      · trivial
      · have hi : d.interactive = true := by simpa using hi
        refine ⟨⟨_, true⟩, rfl, fun _ => ?_, .inr ⟨by simp, hi, rfl⟩, ⟨_, _, by rw [String.append_assoc], ?_⟩, fun hcolon a ha => ?_⟩
        · rw [← append_assoc, h.all hi, hd, append_nil, append_nil]
        · rw [String.toList_ofList]
          exact Subset.trans (drop_subset _ _) hsub
        · rcases mem_append.1 ha with ha | ha
          · exact h.plain hcolon a ha
          · rw [mem_singleton.1 ha, String.toList_ofList]
            exact fun hmem => hcolon (hsub (takeWhile_subset _ hmem))

lemma leads_chooseDevices {a : Answer} {i : Nat} (h : Heard provided w [a] d w')
    (hi : choosePlatform a.text w.platforms = .ok i) : Leads (chooseDevices (w.devicesAt i) d)
      (fun r w'' => ∃ used, Heard provided w used r.2 w'' ∧ w.Chosen (used.map (·.text)) r.1) Any w' := by
  unfold chooseDevices
  split
  · trivial
  · rename_i x hx
    exact ⟨[a], h, a.text, [], i, rfl, hi, .inl ⟨rfl, rfl, x, hx⟩⟩
  · rename_i hnone hone
    have hseveral : 2 ≤ (w.devicesAt i).length := by
      rcases hdevs : w.devicesAt i with _ | ⟨x, _ | ⟨y, rest⟩⟩
      · exact absurd hdevs hnone
      · exact absurd hdevs (hone x)
      · simp
    rw [leads_bind, leads_mapM_of fun _ _ => Iff.rfl]
    refine (leads_ask h _ _ _).bind ?_
    rintro ⟨_, d'⟩ w1 ⟨b, rfl, hb⟩
    have hdev : w1.device = w.device := by
      obtain ⟨_, _, rfl, -⟩ := hb.heard
      rfl
    rw [leads_bind, leads_mapM_of (g := fun x => (x, (w1.device x).name)) fun _ _ => Iff.rfl, hdev]
    cases hpick : pickDevices ((w.devicesAt i).map fun x => (x, (w.device x).name)) b.text with
    | error => trivial
    | ok devices => exact ⟨[a, b], hb, a.text, [b.text], i, rfl, hi, .inr ⟨b.text, rfl, hseveral, hpick⟩⟩

/-- **What was typed is suggested, after what was given.** -/
lemma leads_finishDialogue (h : Heard provided w used d w') : Leads (finishDialogue provided d)
      (fun _ w'' => w''.platforms = w.platforms ∧ w''.environment = w.environment ∧ (w''.input = w.input ∨
        ∃ s shown, Answer.join used = .ok s ∧ w''.output = w.output ++ shown ++ (suggestion s ++ "\n") ∧
          (':' ∉ w.input.toList → ∀ a ∈ used, a ∈ provided ∨ ':' ∉ a.text.toList))) Any w' := by
  obtain ⟨input, shown, rfl, -⟩ := h.heard
  unfold finishDialogue Host.print
  rcases h.typed with ⟨hnone, hinp⟩ | ⟨hsome, hi, hnone⟩
  · simp only [hnone, isEmpty_nil, Bool.not_true, Bool.false_eq_true, if_false]
    split
    · exact leads_any_bind fun _ _ => trivial
    · exact ⟨rfl, rfl, .inl hinp⟩
  · have hall := h.all hi
    rw [hnone, append_nil] at hall
    rw [hall, if_pos (by simpa using hsome), leads_bind, hnone]
    cases hjoin : Answer.join used with
    | error => trivial
    | ok s =>
      refine ⟨rfl, rfl, .inr ⟨s, shown, rfl, rfl, fun hcolon a ha => ?_⟩⟩
      exact (mem_append.1 (hall ▸ ha)).imp_right (h.plain hcolon a)

/-- **What is typed for a choice is suggested after what was given, and is all that the choice depends on.** -/
lemma leads_chooseFrom (interactive : Bool) : Leads (chooseFrom interactive provided)
      (fun c w' => w'.platforms = w.platforms ∧ w'.environment = w.environment ∧ (w'.input = w.input ∨ ∃ used,
        w.Chosen (used.map (·.text)) c.devices ∧ ∃ s shown, Answer.join used = .ok s ∧
        w'.output = w.output ++ shown ++ (suggestion s ++ "\n") ∧
        (':' ∉ w.input.toList → ∀ a ∈ used, a ∈ provided ∨ ':' ∉ a.text.toList))) Any w := by
  unfold chooseFrom
  rw [leads_bind, leads_get]
  dsimp only
  split
  · trivial
  rw [leads_bind, leads_mapM_of fun _ _ => Iff.rfl]
  have hst : Heard provided w [] { interactive, answers := provided } w :=
    ⟨fun _ => by simp, .inl ⟨rfl, rfl⟩, ⟨w.input, "", by rw [String.append_empty], Subset.refl _⟩, by simp⟩
  refine (leads_ask hst _ _ _).bind ?_
  rintro ⟨_, d⟩ w1 ⟨a, rfl, ha⟩
  rw [leads_bind]
  cases hi : choosePlatform a.text w.platforms with
  | error => trivial
  | ok i =>
    have hdevs : w1.devicesAt i = w.devicesAt i := by
      obtain ⟨_, _, rfl, -⟩ := ha.heard
      rfl
    change Leads (chooseDevices (w1.devicesAt i) d >>= _) _ _ _
    rw [hdevs]
    refine (leads_chooseDevices ha hi).bind ?_
    rintro ⟨devices, d'⟩ w2 ⟨used, htold, hchosen⟩
    refine (leads_finishDialogue htold).bind fun _ w3 ⟨hplat, henv, hask⟩ => ?_
    exact ⟨hplat, henv, hask.imp_right fun hsuggested => ⟨used, hchosen, hsuggested⟩⟩

/-- **The answers that were used choose the same devices again**, and nothing is asked. -/
lemma leads_chooseFrom_again {answers : List String} {devices : List DeviceRef} (h : w.Chosen answers devices)
    (interactive : Bool) : Leads (chooseFrom interactive (answers.map fun a => ⟨a, true⟩))
      (fun c w' => c.devices = devices ∧ w' = { w with contexts := w.contexts + 1 }) Never w := by
  obtain ⟨a, rest, i, rfl, hi, hrest⟩ := h
  have hplat : ¬ w.platforms.isEmpty = true := by
    intro hnone
    have hdevs : w.devicesAt i = [] := by simp [World.devicesAt, isEmpty_iff.1 hnone]
    rcases hrest with ⟨-, -, x, hx⟩ | ⟨-, -, hseveral, -⟩
    · cases hdevs.symm.trans hx
    · simp [hdevs] at hseveral
  unfold chooseFrom
  rw [leads_bind, leads_get]
  dsimp only
  rw [if_neg hplat, leads_bind, leads_mapM_of fun _ _ => Iff.rfl]
  simp only [map_cons, ask, leads_bind, leads_pure, hi, leads_lift_ok]
  change Leads (do
    let r ← chooseDevices (w.devicesAt i) _
    finishDialogue _ r.2
    newContext (some r.1) false) _ _ _
  rcases hrest with ⟨rfl, rfl, x, hx⟩ | ⟨b, rfl, hseveral, hb⟩
  · rw [hx]
    exact ⟨rfl, rfl⟩
  · rcases hdevs : w.devicesAt i with _ | ⟨x, _ | ⟨y, more⟩⟩
    · simp [hdevs] at hseveral
    · simp [hdevs] at hseveral
    · rw [hdevs] at hb
      unfold chooseDevices
      rw [leads_bind, leads_bind, leads_mapM_of fun _ _ => Iff.rfl, leads_bind]
      refine leads_bind.2 ((leads_mapM_of (g := fun x => (x, (w.device x).name)) fun _ _ => Iff.rfl).2 ?_)
      dsimp only
      rw [hb]
      exact ⟨rfl, rfl⟩

/-- Without devices to test, the answers of the environment are taken for those that are not given. -/
lemma run_chooseContext_none {interactive : Option Bool} (htest : w.setting? "PYOPENCL_TEST" = none) :
    (chooseContext interactive none).run.run w = (chooseFrom (interactive.getD w.isTerminal)
      (((w.setting? "PYOPENCL_CTX").map fun s => (splitAt ':' s).map fun a => ⟨a, true⟩).getD [])).run.run w := by
  have hread (name : String) : (environment? name).run.run w = (.ok (w.setting? name), w) := rfl
  have hget : (get : Host World).run.run w = (.ok w, w) := rfl
  rw [chooseContext, run_bind, hget]
  dsimp only
  rw [run_bind, hread, htest]
  simp only [pure_bind]
  rw [run_bind, hread]

/-- **The suggestion makes the same choice.** -/
theorem chooseContext_again {c : Context} {interactive : Option Bool} {answers : Option (List Answer)}
    (htest : w.setting? "PYOPENCL_TEST" = none)
    (hans : ∀ as, answers = some as → ∀ a ∈ as, ':' ∉ a.text.toList) (hinp : ':' ∉ w.input.toList)
    (hrun : (chooseContext interactive answers).run.run w = (.ok c, w')) (hask : w'.input ≠ w.input) :
    ∃ shown s, w'.output = w.output ++ shown ++ (suggestion s ++ "\n") ∧
      ∀ interactive, Leads (do setVariable "PYOPENCL_CTX" (some s); chooseContext interactive none)
        (fun c' w'' => c'.devices = c.devices ∧ w''.input = w'.input ∧ w''.output = w'.output) Never w' := by
  have hfrom : ∃ i provided, (chooseFrom i provided).run.run w = (.ok c, w') ∧ ∀ a ∈ provided, ':' ∉ a.text.toList := by
    cases answers with
    | some as => exact ⟨_, as, hrun, hans as rfl⟩
    | none =>
      refine ⟨_, _, (run_chooseContext_none htest).symm.trans hrun, fun a ha => ?_⟩
      cases hset : w.setting? "PYOPENCL_CTX" with
      | none => simp [hset] at ha
      | some s =>
        rw [hset] at ha
        obtain ⟨piece, hpiece, rfl⟩ := mem_map.1 ha
        exact notMem_of_mem_splitAt hpiece
  obtain ⟨i, provided, hrun, hprovided⟩ := hfrom
  obtain ⟨hplat, henv, hsame | ⟨used, hchosen, s, shown, hjoin, hout, hpl⟩⟩ :=
    (leads_chooseFrom i).of_run hrun
  · exact absurd hsame hask
  refine ⟨shown, s, hout, fun interactive => ?_⟩
  have hagain : splitAt ':' s = used.map (·.text) := by
    unfold Answer.join at hjoin
    split at hjoin <;> cases hjoin
    refine splitAt_intercalate rfl (fun piece hpiece => ?_) fun hnone => ?_
    · obtain ⟨a, ha, rfl⟩ := mem_map.1 hpiece
      exact (hpl hinp a ha).elim (hprovided a) id
    · obtain ⟨_, _, _, hcons, -⟩ := hchosen
      cases hnone.symm.trans hcons
  rw [leads_bind]
  set w₁ : World := { w' with environment := w'.environment.filter (fun e => e.1 != "PYOPENCL_CTX") ++ [("PYOPENCL_CTX", s)] }
  change Leads _ _ _ w₁
  have hset : w₁.setting? "PYOPENCL_CTX" = some s := by
    rw [World.setting?, find?_append, find?_eq_none.2 fun e he => by simpa using (mem_filter.1 he).2]
    simp
  have htest' : w₁.setting? "PYOPENCL_TEST" = none := by
    simp only [World.setting?, Option.map_eq_none_iff, find?_eq_none] at htest ⊢
    intro e he
    rcases mem_append.1 he with he | he
    · exact htest e (henv ▸ (mem_filter.1 he).1)
    · rw [mem_singleton.1 he]
      exact (by decide : ¬ ("PYOPENCL_CTX" == "PYOPENCL_TEST") = true)
  rw [leads_congr (run_chooseContext_none htest'), hset, Option.map_some, Option.getD_some, hagain]
  refine (leads_chooseFrom_again (hchosen.congr (show w₁.platforms = _ from hplat)) _).imp ?_
  rintro c' _ ⟨hdevs, rfl⟩
  exact ⟨hdevs, rfl, rfl⟩

def sampleChoice : World :=
  { platforms := [{ name := "A", devices := [{ name := "one" }, { name := "two" }] }], input := "\nTwo\n"
    isTerminal := true }

theorem chooseContext_again_named : ∃ c w', (chooseContext none none).run.run sampleChoice = (.ok c, w') ∧
    c = ⟨0, [⟨0, 1⟩]⟩ ∧ w'.input = "" ∧ ∃ shown s, w'.output = sampleChoice.output ++ shown ++ (suggestion s ++ "\n") ∧
      ∀ interactive, Leads (do setVariable "PYOPENCL_CTX" (some s); chooseContext interactive none)
        (fun c' w'' => c'.devices = c.devices ∧ w''.input = w'.input ∧ w''.output = w'.output) Never w' := by
  have hr : (((chooseContext none none).run.run sampleChoice).1.toOption,
      ((chooseContext none none).run.run sampleChoice).2.input) = (some ⟨0, [⟨0, 1⟩]⟩, "") := by decide
  have htest : sampleChoice.setting? "PYOPENCL_TEST" = none := rfl
  have hinp : ':' ∉ sampleChoice.input.toList := by decide
  have hask : "" ≠ sampleChoice.input := by decide
  generalize sampleChoice = w at *
  rcases hrun : (chooseContext none none).run.run w with ⟨_ | c, w'⟩ <;> rw [hrun] at hr <;>
    obtain ⟨hc, hw'⟩ := Prod.mk.inj hr
  · cases hc
  · exact ⟨c, w', rfl, Option.some.inj hc, hw',
      chooseContext_again htest (fun _ h => by cases h) hinp hrun (by rwa [hw'])⟩

end Host

end ClHost
