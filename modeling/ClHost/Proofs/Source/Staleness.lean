import ClHost.Proofs.Source.Includes

/-!
# Stale includes

The dependencies of a source tell of each file that was read whether it is as it was.
-/

namespace ClHost.Source

open List

def Resolves (tree : FileTree) (root : String) (path : List String) (source name : String)
    (found : Option (Path × FileContent)) : Prop :=
  Asks tree root path source name ∧
    found = (included? tree root path name).bind fun p => (tree.file? p).map fun f => (p, f.content)

variable (before after : FileTree) (root : String) (path : List String) (source : String)

def SameIncludes : Prop :=
  ∀ name found, Resolves before root path source name found ↔ Resolves after root path source name found

def Dated : Prop :=
  ∀ p f g, before.file? p = some f → after.file? p = some g → f.content ≠ g.content → f.time ≠ g.time

def Supplanted : Prop :=
  ∃ name p, Asks before root path source name ∧ included? after root path name = some p ∧ before.file? p = none

def Disguised : Prop :=
  ∃ name p f g text text', Asks before root path source name ∧ included? before root path name = some p ∧
    before.file? p = some f ∧ after.file? p = some g ∧ f.content ≠ g.content ∧
    before.readText p = .ok text ∧ after.readText p = .ok text' ∧ digest text = digest text'

variable {before after : FileTree} {root : String} {path : List String} {source : String} {deps : List Dependency}

lemma exists_of_isCurrent {p : Path} {d : Dependency} (hd : Entered before root p d)
    (h : isCurrent after root d = .ok true) :
    ∃ f g, before.file? p = some f ∧ after.file? p = some g ∧ (f.time = g.time ∨ ∃ text text',
      before.readText p = .ok text ∧ after.readText p = .ok text' ∧ digest text = digest text') := by
  have hloc := hd.locate_eq
  obtain ⟨f, text, hf, htext, rfl⟩ := hd.entry
  rw [isCurrent] at h
  simp only [hloc] at h
  split at h
  · rename_i g hg
    refine ⟨f, g, hf, hg, ?_⟩
    split at h
    · rename_i htime
      left
      simp only [beq_iff_eq, Int.natCast_inj] at htime
      exact htime.symm
    · right
      obtain ⟨digest', hdig, h⟩ := of_bind_ok h
      obtain ⟨text', htext', hdig⟩ := of_bind_ok hdig
      rw [hloc] at htext'
      have hnew : digest text' = digest' := Except.ok.inj hdig
      have hold : (digest' == digest text) = true := Except.ok.inj h
      exact ⟨text, text', htext, htext', by rw [hnew, beq_iff_eq.1 hold]⟩
  · split at h
    · cases h
    · simp at h

lemma exists_same_content (hdeps : dependencies before root source path = .ok deps)
    (hcur : areCurrent after root deps = .ok true) (hdated : Dated before after)
    (hdisguised : ¬ Disguised before after root path source) {name : String} {p : Path}
    (hname : Asks before root path source name) (hp : included? before root path name = some p) :
    ∃ f g, before.file? p = some f ∧ after.file? p = some g ∧ f.content = g.content := by
  obtain ⟨d, hd, hentered⟩ := entered_of_asks hdeps hname hp
  obtain ⟨f, g, hf, hg, hsame⟩ := exists_of_isCurrent hentered (areCurrent_iff.1 hcur d hd)
  refine ⟨f, g, hf, hg, ?_⟩
  by_contra hne
  rcases hsame with htime | ⟨text, text', htext, htext', hdig⟩
  · exact hdated p f g hf hg hne htime
  · exact hdisguised ⟨name, p, f, g, text, text', hname, hp, hf, hg, hne, htext, htext', hdig⟩

lemma find?_eq_find? {α : Type} {was now : α → Bool} {xs : List α} (hstays : ∀ x, xs.find? was = some x → now x)
    (hnew : ∀ x, xs.find? now = some x → was x) : xs.find? now = xs.find? was := by
  induction xs with
  | nil => rfl
  | cons x xs ih =>
    by_cases hwas : was x = true
    · have hnow : now x = true := hstays x (by rw [find?_cons_of_pos hwas])
      rw [find?_cons_of_pos hwas, find?_cons_of_pos hnow]
    · have hnow : ¬ now x = true := fun h => hwas (hnew x (by rw [find?_cons_of_pos h]))
      rw [find?_cons_of_neg hwas] at hstays ⊢
      rw [find?_cons_of_neg hnow] at hnew ⊢
      exact ih hstays hnew

lemma included?_eq (hdeps : dependencies before root source path = .ok deps)
    (hcur : areCurrent after root deps = .ok true) (hsup : ¬ Supplanted before after root path source)
    {name : String} (hname : Asks before root path source name) :
    included? after root path name = included? before root path name := by
  apply find?_eq_find?
  · intro p hp
    obtain ⟨d, hd, hentered⟩ := entered_of_asks hdeps hname hp
    obtain ⟨f, g, -, hg, -⟩ := exists_of_isCurrent hentered (areCurrent_iff.1 hcur d hd)
    rw [hg, Option.isSome_some]
  · intro p hp
    by_contra hnot
    exact hsup ⟨name, p, hname, hp, by simpa using hnot⟩

lemma resolves_some {tree : FileTree} {name : String} {p : Path} {content : FileContent} :
    Resolves tree root path source name (some (p, content)) ↔
      Asks tree root path source name ∧ included? tree root path name = some p ∧
        ∃ f, tree.file? p = some f ∧ f.content = content := by
  rw [Resolves, eq_comm, Option.bind_eq_some_iff]
  simp only [Option.map_eq_some_iff, Prod.mk.injEq]
  grind

lemma asks_of_agree {tree tree' : FileTree} (hincl : ∀ name, Asks tree root path source name →
      included? tree' root path name = included? tree root path name)
    (htext : ∀ name p, Asks tree root path source name → included? tree root path name = some p →
      tree'.readText p = tree.readText p) (name : String) :
    Asks tree root path source name ↔ Asks tree' root path source name := by
  constructor
  · intro h
    induction h with
    | source hmem => exact .source hmem
    | file h hp hread hmem ih => exact .file ih ((hincl _ h).trans hp) ((htext _ _ h hp).trans hread) hmem
  · intro h
    induction h with
    | source hmem => exact .source hmem
    | file _ hp hread hmem ih =>
      have hp' := (hincl _ ih).symm.trans hp
      exact .file ih hp' ((htext _ _ ih hp').symm.trans hread) hmem

/-- Where the dependencies of a source are current, and contents do not change without their times, the source
includes the same files with the same contents as before, exactly if no new file takes a place on the include path and
no file has new contents with the old digest. -/
theorem sameIncludes_iff (hdeps : dependencies before root source path = .ok deps)
    (hcur : areCurrent after root deps = .ok true) (hdated : Dated before after) :
    SameIncludes before after root path source ↔
      ¬ Supplanted before after root path source ∧ ¬ Disguised before after root path source := by
  constructor
  · intro h
    constructor
    · rintro ⟨name, p, hname, hp, hnone⟩
      obtain ⟨g, hg⟩ := exists_file_of_included? hp
      have hasks : Asks after root path source name := ((h name _).1 ⟨hname, rfl⟩).1
      obtain ⟨-, -, f, hf, -⟩ := resolves_some.1 ((h name _).2 (resolves_some.2 ⟨hasks, hp, g, hg, rfl⟩))
      rw [hf] at hnone
      cases hnone
    · rintro ⟨name, p, f, g, text, text', hname, hp, hf, hg, hne, -⟩
      obtain ⟨-, -, g', hg', hsame⟩ := resolves_some.1 ((h name _).1 (resolves_some.2 ⟨hname, hp, f, hf, rfl⟩))
      rw [hg] at hg'
      cases hg'
      exact hne hsame.symm
  · rintro ⟨hsup, hdisguised⟩
    have hincl := fun name => @included?_eq before after root path source deps hdeps hcur hsup name
    have hcnt := fun name p =>
      @exists_same_content before after root path source deps hdeps hcur hdated hdisguised name p
    have hasks := asks_of_agree hincl fun name p hname hp => by
      obtain ⟨f, g, hf, hg, hsame⟩ := hcnt name p hname hp
      exact (readText_congr hf hg hsame).symm
    intro name found
    rw [Resolves, Resolves, ← hasks name]
    refine and_congr_right fun hname => ?_
    rw [hincl name hname]
    cases hp : included? before root path name with
    | none => rfl
    | some p =>
      obtain ⟨f, g, hf, hg, hsame⟩ := hcnt name p hname hp
      simp [hf, hg, hsame]

lemma dependencies_of_pairwise {tree : FileTree} {found : List Dependency}
    (h : dependenciesFrom tree root path (tree.files.length + 1) source [] = .ok found)
    (hsort : found.Pairwise fun a b => decide (a.file ≤ b.file) = true) :
    dependencies tree root source path = .ok found := by
  rw [dependencies, h]
  exact congrArg Except.ok (mergeSort_of_pairwise hsort)

def headers (time : Nat) : FileTree where
  files := [(["a.h"], ⟨.bytes (utf8 "#include <b.h>\n"), 1⟩), (["b.h"], ⟨.bytes (utf8 "int b;"), time⟩)]

def headerDependencies : List Dependency :=
  [⟨"/work/a.h", 1, digest "#include <b.h>\n"⟩, ⟨"/work/b.h", 1, digest "int b;"⟩]

lemma dependencies_headers : dependencies (headers 1) "/work" "#include <a.h>\n" ["."] = .ok headerDependencies := by
  apply dependencies_of_pairwise <;> decide +kernel

lemma content_headers {time time' : Nat} {p : Path} {f g : File} (hf : (headers time).file? p = some f)
    (hg : (headers time').file? p = some g) : f.content = g.content := by
  simp only [FileTree.file?, headers, find?_cons] at hf hg
  grind

theorem sameIncludes_iff_touched :
    dependencies (headers 1) "/work" "#include <a.h>\n" ["."] = .ok headerDependencies ∧
      areCurrent (headers 2) "/work" headerDependencies = .ok true ∧ Dated (headers 1) (headers 2) ∧
      (SameIncludes (headers 1) (headers 2) "/work" ["."] "#include <a.h>\n" ↔
        ¬ Supplanted (headers 1) (headers 2) "/work" ["."] "#include <a.h>\n" ∧
          ¬ Disguised (headers 1) (headers 2) "/work" ["."] "#include <a.h>\n") := by
  have hcur : areCurrent (headers 2) "/work" headerDependencies = .ok true := by decide +kernel
  have hdated : Dated (headers 1) (headers 2) := fun p f g hf hg hne => (hne (content_headers hf hg)).elim
  exact ⟨dependencies_headers, hcur, hdated, sameIncludes_iff dependencies_headers hcur hdated⟩

def headersIn (directories : List String) : FileTree where
  directories := [["a"], ["b"]]
  files := directories.map fun d => ([d, "h.h"], ⟨.bytes (utf8 d), 1⟩)

theorem not_sameIncludes_of_areCurrent :
    ∃ deps, dependencies (headersIn ["b"]) "/work" "#include <h.h>\n" ["a", "b"] = .ok deps ∧
      areCurrent (headersIn ["b", "a"]) "/work" deps = .ok true ∧ Dated (headersIn ["b"]) (headersIn ["b", "a"]) ∧
      ¬ SameIncludes (headersIn ["b"]) (headersIn ["b", "a"]) "/work" ["a", "b"] "#include <h.h>\n" := by
  refine ⟨[⟨"/work/b/h.h", 1, digest "b"⟩], ?_, by decide, ?_, ?_⟩
  · apply dependencies_of_pairwise <;> decide +kernel
  · intro p f g hf hg hne
    simp only [FileTree.file?, headersIn, map_cons, map_nil, find?_cons] at hf hg
    split at hf <;> simp_all
  · intro h
    have hname : Asks (headersIn ["b"]) "/work" ["a", "b"] "#include <h.h>\n" "h.h" :=
      .source (mem_includes_iff.1 (by decide))
    have hbef : included? (headersIn ["b"]) "/work" ["a", "b"] "h.h" = some ["b", "h.h"] := by decide
    have haft : included? (headersIn ["b", "a"]) "/work" ["a", "b"] "h.h" = some ["a", "h.h"] := by decide
    obtain ⟨-, hincl, -⟩ := resolves_some.1
      ((h "h.h" _).1 (resolves_some.2 ⟨hname, hbef, ⟨.bytes (utf8 "b"), 1⟩, by decide +kernel, rfl⟩))
    rw [haft] at hincl
    revert hincl
    decide

/-! ## The files that a search finds -/

open ClHost.Path

def Reached (tree : FileTree) (root : String) (path : List String) (source : String) (p : Path) : Prop :=
  ∃ name, Asks tree root path source name ∧ included? tree root path name = some p

inductive Requests (tree : FileTree) (root : String) (path : List String) :
    List String → List Dependency → String → List Dependency → Prop
  | here {name : String} {names : List String} {known : List Dependency} :
      Requests tree root path (name :: names) known name known
  | inside {name text name' : String} {names : List String} {known known' : List Dependency} {p : Path} {f : File}
      (hnext : next? tree root path known name = some p) (hfile : tree.file? p = some f)
      (htext : tree.readText p = .ok text)
      (h : Requests tree root path (includes text) (known ++ [⟨fullText root p, f.time, digest text⟩]) name'
        known') : Requests tree root path (name :: names) known name' known'
  | later {name name' : String} {names : List String} {known middle known' : List Dependency}
      (hfst : Searches tree root path [name] known (.ok middle)) (h : Requests tree root path names middle name' known') :
      Requests tree root path (name :: names) known name' known'

variable {tree : FileTree} {root source : String} {path : List String} {deps : List Dependency}

/-! ## One search -/

section Searches

variable {names : List String} {known found : List Dependency}

lemma Searches.eq {r r' : Result (List Dependency)} (h : Searches tree root path names known r)
    (h' : Searches tree root path names known r') : r = r' := by
  induction h generalizing r' with
  | done =>
    cases h'
    rfl
  | _ => cases h' <;> grind

lemma Searches.exists_request (h : Searches tree root path names known (.ok found)) {d : Dependency}
    (hd : d ∈ found) : d ∈ known ∨ ∃ name known' p, Requests tree root path names known name known' ∧
      next? tree root path known' name = some p ∧ d.file = fullText root p := by
  generalize hr : Except.ok found = r at h
  induction h generalizing found with
  | done =>
    cases hr
    exact .inl hd
  | skip hnext _ ih =>
    refine (ih hd hr).imp id ?_
    rintro ⟨name, known', p, hreq, hp⟩
    exact ⟨name, known', p, .later (.skip hnext .done) hreq, hp⟩
  | refuse => cases hr
  | enter hnext hfile htext hinside _ ih ih' =>
    rcases ih' hd hr with hmid | ⟨name, known', p, hreq, hp⟩
    · rcases ih hmid rfl with hkn | ⟨name, known', p, hreq, hp⟩
      · rcases mem_append.1 hkn with hkn | hnew
        · exact .inl hkn
        · exact .inr ⟨_, _, _, .here, hnext, by rw [mem_singleton.1 hnew]⟩
      · exact .inr ⟨name, known', p, .inside hnext hfile htext hreq, hp⟩
    · exact .inr ⟨name, known', p, .later (.enter hnext hfile htext hinside .done) hreq, hp⟩
  | fail => cases hr

lemma Searches.exists_unreadable {e : Fault} (h : Searches tree root path names known (.error e)) :
    ∃ name known' p, Requests tree root path names known name known' ∧ next? tree root path known' name = some p ∧
      tree.readText p = .error e := by
  generalize hr : Except.error e = r at h
  induction h with
  | done => cases hr
  | skip hnext _ ih =>
    obtain ⟨name, known', p, hreq, hp⟩ := ih hr
    exact ⟨name, known', p, .later (.skip hnext .done) hreq, hp⟩
  | refuse hnext htext =>
    cases hr
    exact ⟨_, _, _, .here, hnext, htext⟩
  | enter hnext hfile htext hinside _ _ ih =>
    obtain ⟨name, known', p, hreq, hp⟩ := ih hr
    exact ⟨name, known', p, .later (.enter hnext hfile htext hinside .done) hreq, hp⟩
  | fail hnext hfile htext _ ih =>
    obtain ⟨name, known', p, hreq, hp⟩ := ih hr
    exact ⟨name, known', p, .inside hnext hfile htext hreq, hp⟩

lemma Searches.subset (h : Searches tree root path names known (.ok found)) : known ⊆ found := by
  generalize hr : Except.ok found = r at h
  induction h generalizing found with
  | done =>
    cases hr
    exact fun _ h => h
  | skip _ _ ih => exact ih hr
  | refuse => cases hr
  | enter _ _ _ _ _ ih ih' => exact fun d hd => ih' hr (ih rfl (mem_append_left _ hd))
  | fail => cases hr

lemma Searches.mem_of_request (h : Searches tree root path names known (.ok found)) {name : String}
    {known' : List Dependency} {p : Path} (hreq : Requests tree root path names known name known')
    (hp : next? tree root path known' name = some p) : fullText root p ∈ found.map (·.file) := by
  induction hreq generalizing found with
  | here =>
    cases h with
    | skip hnext => cases hp.symm.trans hnext
    | enter hnext hfile htext hinside hrest =>
      cases hp.symm.trans hnext
      exact mem_map.2 ⟨_, hrest.subset (hinside.subset (mem_append_right _ mem_cons_self)), rfl⟩
  | inside hnext hfile htext _ ih =>
    cases h with
    | skip hnext' => cases hnext.symm.trans hnext'
    | enter hnext' hfile' htext' hinside hrest =>
      cases hnext.symm.trans hnext'
      cases hfile.symm.trans hfile'
      cases htext.symm.trans htext'
      exact map_subset _ hrest.subset (ih hinside hp)
  | later hfst _ ih =>
    cases h with
    | skip hnext hrest =>
      cases hfst.eq (.skip hnext .done)
      exact ih hrest hp
    | enter hnext hfile htext hinside hrest =>
      cases hfst.eq (.enter hnext hfile htext hinside .done)
      exact ih hrest hp

end Searches

/-! ## What is found and what is reached -/

variable {known : List Dependency} {name : String} {p : Path}

lemma next?_eq_or (h : next? tree root path known name = some p) : included? tree root path name = some p ∨
      ∃ q, included? tree root path name = some q ∧ fullText root q ∈ known.map (·.file) := by
  obtain ⟨-, -, f, hfile⟩ := next?_spec h
  obtain ⟨q, hq⟩ : ∃ q, included? tree root path name = some q := by
    rw [← Option.isSome_iff_exists, included?, find?_isSome]
    exact ⟨p, mem_of_find?_eq_some h, by rw [hfile]; rfl⟩
  by_cases hkn : fullText root q ∈ known.map (·.file)
  · exact .inr ⟨q, hq, hkn⟩
  · exact .inl (hq.trans ((next?_of_included? hq hkn).symm.trans h))

lemma asks_of_requests {names : List String} (hnms : ∀ name ∈ names, Asks tree root path source name)
    (hagain : ∀ name known' q p, Requests tree root path names known name known' →
      included? tree root path name = some q → fullText root q ∈ known'.map (·.file) →
      next? tree root path known' name = some p → Reached tree root path source p)
    {known' : List Dependency} (h : Requests tree root path names known name known') :
    Asks tree root path source name := by
  induction h with
  | here => exact hnms _ mem_cons_self
  | @inside name text _ names known _ p f hnext hfile htext _ ih =>
    have hrch : Reached tree root path source p := by
      rcases next?_eq_or hnext with hp | ⟨q, hq, hkn⟩
      · exact ⟨_, hnms _ mem_cons_self, hp⟩
      · exact hagain _ _ q _ .here hq hkn hnext
    obtain ⟨asked, hask, hp⟩ := hrch
    exact ih (fun name hname => .file hask hp htext (mem_includes_iff.1 hname)) fun name known' q p h =>
      hagain name known' q p (.inside hnext hfile htext h)
  | later hfst _ ih =>
    exact ih (fun name hname => hnms name (mem_cons_of_mem _ hname)) fun name known' q p h =>
      hagain name known' q p (.later hfst h)

/-! ## The dependencies of a source -/

lemma fullText_inj {q : Path} (hp : Reduced p.reverse) (hq : Reduced q.reverse)
    (h : fullText root p = fullText root q) : p = q := by
  rw [← locate_fullText hp, h, locate_fullText hq]

lemma pairwise_dependencies (h : dependencies tree root source path = .ok deps) :
    deps.Pairwise fun d e => d.file < e.file := by
  obtain ⟨found, rfl, -, hgr, -⟩ := grown_dependencies h
  have hsort : (found.mergeSort fun a b => decide (a.file ≤ b.file)).Pairwise fun d e => d.file ≤ e.file := by
    refine (pairwise_mergeSort (fun a b c => ?_) (fun a b => ?_) found).imp of_decide_eq_true
    · simpa using String.le_trans
    · simpa using String.le_total a.file b.file
  have hnodup : (found.mergeSort fun a b => decide (a.file ≤ b.file)).Pairwise fun d e => d.file ≠ e.file :=
    pairwise_map.1 (((mergeSort_perm found _).map _).nodup_iff.2 hgr.sound.nodup)
  exact hsort.imp₂ (fun d e hle hne => String.not_le.1 fun hge => hne (String.le_antisymm hle hge)) hnodup

/-- **The search for dependencies ends, and misses nothing.** Whatever files include each other, the search comes to an
end. Its result is sorted and names no file twice, and it has every file that the source reaches by include lines, with
the digest of its text. There is no result only if the search comes to a file that is not a text. -/
theorem dependencies_complete (tree : FileTree) (root source : String) (path : List String) :
    (∃ r, Searches tree root path (includes source) [] r ∧ dependencies tree root source path =
        r >>= fun found => .ok (found.mergeSort fun a b => decide (a.file ≤ b.file))) ∧
      match dependencies tree root source path with
      | .ok deps => deps.Pairwise (fun d e => d.file < e.file) ∧
          ∀ p, Reached tree root path source p → ∃ f text, tree.file? p = some f ∧ tree.readText p = .ok text ∧
            ⟨Path.fullText root p, f.time, digest text⟩ ∈ deps
      | .error e => ∃ name known p, Requests tree root path (includes source) [] name known ∧
          next? tree root path known name = some p ∧ tree.readText p = .error e := by
  obtain ⟨r, hsearches, hr⟩ := searches_dependencies tree root source path
  refine ⟨⟨r, hsearches, hr⟩, ?_⟩
  split
  · rename_i deps hdeps
    refine ⟨pairwise_dependencies hdeps, fun p ⟨name, hname, hp⟩ => ?_⟩
    obtain ⟨d, hd, hentered⟩ := entered_of_asks hdeps hname hp
    obtain ⟨f, text, hf, htext, rfl⟩ := hentered.entry
    exact ⟨f, text, hf, htext, hd⟩
  · rename_i e he
    rcases error_of_bind (hr.symm.trans he) with rfl | ⟨_, -, h⟩
    · exact hsearches.exists_unreadable
    · cases h

/-- A file is missed where a comment stands behind its name, which is then no include line to the search. -/
theorem dependencies_misses_commented :
    included? (headers 1) "/work" ["."] "a.h" = some ["a.h"] ∧
      dependencies (headers 1) "/work" "#include \"a.h\" // a\n" ["."] = .ok [] :=
  ⟨by decide, dependencies_of_pairwise (by decide) .nil⟩

/-- **When the dependencies of a source are files that it reaches.** A name may be looked for again after its file `q`
is known. Then another file `p` of that name, further along the include path, is taken for it, and the dependencies
have a file that is not reached unless every such file happens to be. -/
theorem dependencies_reached_iff (h : dependencies tree root source path = .ok deps) :
    (∀ d ∈ deps, ∃ p, Reached tree root path source p ∧ d.file = Path.fullText root p) ↔
      ∀ name known q p, Requests tree root path (includes source) [] name known →
        included? tree root path name = some q → Path.fullText root q ∈ known.map (·.file) →
        next? tree root path known name = some p → Reached tree root path source p := by
  obtain ⟨found, rfl, hsearches, -, -⟩ := grown_dependencies h
  constructor
  · intro hrch name known q p hreq _ _ hp
    obtain ⟨d, hd, hfile⟩ := mem_map.1 (hsearches.mem_of_request hreq hp)
    obtain ⟨p', hp', hfile'⟩ := hrch d (mem_mergeSort.2 hd)
    obtain ⟨name', -, hincl⟩ := id hp'
    obtain rfl := fullText_inj (reduced_of_included? hincl) (next?_spec hp).1 (hfile'.symm.trans hfile)
    exact hp'
  · intro hagain d hd
    rcases hsearches.exists_request (mem_mergeSort.1 hd) with hnil | ⟨name, known, p, hreq, hp, hfile⟩
    · cases hnil
    · refine ⟨p, ?_, hfile⟩
      rcases next?_eq_or hp with hincl | ⟨q, hq, hkn⟩
      · exact ⟨name, asks_of_requests (fun _ h => .source (mem_includes_iff.1 h)) hagain hreq, hincl⟩
      · exact hagain name known q p hreq hq hkn hp

def mutualHeaders : FileTree where
  files := [(["a.h"], ⟨.bytes (utf8 "#include <b.h>\n"), 1⟩), (["b.h"], ⟨.bytes (utf8 "#include <a.h>\n"), 1⟩)]

theorem dependencies_reached_iff_mutual :
    ∃ deps, dependencies mutualHeaders "/work" "#include <a.h>\n" ["."] = .ok deps ∧
      ((∀ d ∈ deps, ∃ p, Reached mutualHeaders "/work" ["."] "#include <a.h>\n" p ∧
          d.file = Path.fullText "/work" p) ↔
        ∀ name known q p, Requests mutualHeaders "/work" ["."] (includes "#include <a.h>\n") [] name known →
          included? mutualHeaders "/work" ["."] name = some q → Path.fullText "/work" q ∈ known.map (·.file) →
          next? mutualHeaders "/work" ["."] known name = some p →
            Reached mutualHeaders "/work" ["."] "#include <a.h>\n" p) := by
  have hdeps : dependencies mutualHeaders "/work" "#include <a.h>\n" ["."] =
      .ok [⟨"/work/a.h", 1, digest "#include <b.h>\n"⟩, ⟨"/work/b.h", 1, digest "#include <a.h>\n"⟩] := by
    apply dependencies_of_pairwise <;> decide +kernel
  exact ⟨_, hdeps, dependencies_reached_iff hdeps⟩

theorem dependencies_not_reached :
    ∃ deps, dependencies (headersIn ["a", "b"]) "/work" "#include <h.h>\n#include <h.h>\n" ["a", "b"] = .ok deps ∧
      ¬ ∀ d ∈ deps, ∃ p, Reached (headersIn ["a", "b"]) "/work" ["a", "b"] "#include <h.h>\n#include <h.h>\n" p ∧
        d.file = Path.fullText "/work" p := by
  have hincl : included? (headersIn ["a", "b"]) "/work" ["a", "b"] "h.h" = some ["a", "h.h"] := by decide
  have hask : ∀ name, Asks (headersIn ["a", "b"]) "/work" ["a", "b"] "#include <h.h>\n#include <h.h>\n" name →
      name = "h.h" := by
    intro name hname
    induction hname with
    | source hmem =>
      have hinc : includes "#include <h.h>\n#include <h.h>\n" = ["h.h", "h.h"] := by decide
      simpa [hinc] using mem_includes_iff.2 hmem
    | @file name next text p _ hp htext hmem ih =>
      -- The header itself includes nothing.
      have hread : (headersIn ["a", "b"]).readText ["a", "h.h"] = .ok "a" := by decide +kernel
      have hinc : includes "a" = [] := by decide
      rw [ih, hincl] at hp
      cases hp
      cases htext.symm.trans hread
      simpa [hinc] using mem_includes_iff.2 hmem
  refine ⟨[⟨"/work/a/h.h", 1, digest "a"⟩, ⟨"/work/b/h.h", 1, digest "b"⟩], ?_, fun h => ?_⟩
  · apply dependencies_of_pairwise <;> decide +kernel
  · obtain ⟨p, ⟨name, hname, hp⟩, hfile⟩ := h ⟨"/work/b/h.h", 1, digest "b"⟩ (by simp)
    rw [hask name hname, hincl] at hp
    cases hp
    revert hfile
    decide

end ClHost.Source
