import ClHost.Proofs.FileTree.Paths
import ClHost.Proofs.Host.Outcomes
import ClHost.Proofs.Text.Splitting
import Mathlib.Data.List.Nodup
import Mathlib.Data.List.Perm.Subperm

/-!
# The files that a source includes

An included name stands for the first file that it leads to along the include path.
-/

namespace ClHost.Source

open List

/-! ## Include lines -/

section Lines

open Text

def Blanks (cs : List Char) : Prop := ∀ c ∈ cs, isBlank c = true

/-- A line that includes a name, at the start of characters: `#include` and the name in brackets or quotes, with nothing
but blanks around them. -/
inductive IncludeLine : List Char → String → Prop
  | intro {before middle space name after rest : List Char} {opening closing : Char}
      (hbef : Blanks before) (hmid : Blanks middle) (hsp : Blanks space) (haft : Blanks after) (hfst : '\n' ∉ before)
      (hne : space ≠ []) (hopen : opening = '<' ∨ opening = '"') (hclose : closing = '>' ∨ closing = '"')
      (hname : name ≠ []) (hline : '\n' ∉ opening :: (name ++ closing :: after))
      (hrest : rest = [] ∨ ∃ next, rest = '\n' :: next) :
      IncludeLine (before ++ '#' :: (middle ++ ("include".toList ++ (space ++ opening ::
        (name ++ closing :: after ++ rest))))) (String.ofList name)

/-- A name that some line of a text includes. -/
def Includes (text name : String) : Prop :=
  ∃ cs, '\n' :: cs <:+ '\n' :: text.toList ∧ IncludeLine cs name

variable {cs rest : List Char} {name : String}

lemma exists_dropWhile (p : Char → Bool) (cs : List Char) :
    ∃ front, (∀ c ∈ front, p c = true) ∧ cs = front ++ cs.dropWhile p :=
  ⟨cs.takeWhile p, all_eq_true.1 all_takeWhile, takeWhile_append_dropWhile.symm⟩

lemma dropWhile_front {p : Char → Bool} {front : List Char} {c : Char} (hfront : ∀ c ∈ front, p c = true)
    (hc : p c = false) (cs : List Char) : (front ++ c :: cs).dropWhile p = c :: cs := by
  rw [dropWhile_append_of_pos hfront, dropWhile_cons_of_neg (by simp [hc])]

lemma takeWhile_line {line : List Char} (hline : '\n' ∉ line) (hrest : rest = [] ∨ ∃ next, rest = '\n' :: next) :
    (line ++ rest).takeWhile (· != '\n') = line := by
  rw [takeWhile_append_of_pos fun c hc => by simpa using ne_of_mem_of_not_mem hc hline]
  rcases hrest with rfl | ⟨next, rfl⟩ <;> simp

lemma dropWhile_line (cs : List Char) :
    cs.dropWhile (· != '\n') = [] ∨ ∃ next, cs.dropWhile (· != '\n') = '\n' :: next := by
  induction cs with
  | nil => exact .inl rfl
  | cons c cs ih =>
    rw [dropWhile_cons]
    split
    · exact ih
    · rename_i hc
      exact .inr ⟨cs, by simpa using hc⟩

lemma IncludeLine.includeName?_eq (h : IncludeLine cs name) : includeName? cs = some name := by
  obtain ⟨hbef, hmid, hsp, haft, hfst, hne, hopen, hclose, hname, hline, hrest⟩ := h
  rename_i before middle space name after rest opening closing
  have hstart := dropWhile_front (p := fun c => isBlank c && c != '\n') (c := '#')
    (fun c (hc : c ∈ before) => by simp [hbef c hc, ne_of_mem_of_not_mem hc hfst]) (by decide)
  have hword := dropWhile_front hmid (c := 'i') (by decide)
    ("nclude".toList ++ (space ++ opening :: (name ++ closing :: after ++ rest)))
  change (middle ++ ("include".toList ++ _)).dropWhile isBlank = "include".toList ++ _ at hword
  have hdrop (cs : List Char) : ("include".toList ++ cs).drop 7 = cs := rfl
  have hspace := dropWhile_front (c := opening) hsp (by rcases hopen with rfl | rfl <;> decide)
  have hend := takeWhile_line hline hrest
  rw [cons_append] at hend
  obtain ⟨s, space, rfl⟩ := exists_cons_of_ne_nil hne
  obtain ⟨c, cs, hcs⟩ := exists_cons_of_ne_nil (reverse_ne_nil_iff.2 hname)
  have hlast : (name ++ closing :: after).reverse.dropWhile isBlank = closing :: c :: cs := by
    rw [reverse_append, reverse_cons, append_assoc, singleton_append, hcs]
    refine dropWhile_front (fun c hc => haft c (mem_reverse.1 hc)) ?_ _
    rcases hclose with rfl | rfl <;> decide
  rw [includeName?, hstart]
  simp only [hword, startsWithChars_iff.2 (prefix_append _ _), hdrop, hspace, hend, hlast]
  rw [if_pos (by simp [hsp s mem_cons_self]), if_pos (by simp [hopen, hclose]), ← hcs, reverse_reverse]

lemma includeLine_of_eq (h : includeName? cs = some name) : IncludeLine cs name := by
  obtain ⟨before, hbef, hcs⟩ := exists_dropWhile (fun c => isBlank c && c != '\n') cs
  unfold includeName? at h
  split at h
  case h_2 => cases h
  rename_i word hword
  obtain ⟨middle, hmid, hword'⟩ := exists_dropWhile isBlank word
  dsimp only at h
  split at h
  case isFalse => cases h
  rename_i hinc
  rw [Bool.and_eq_true, startsWithChars_iff] at hinc
  obtain ⟨⟨tail, htail⟩, hspaced⟩ := hinc
  obtain ⟨space, hsp, htail'⟩ := exists_dropWhile isBlank tail
  rw [show drop 7 (dropWhile isBlank word) = tail by rw [← htail]; rfl] at h hspaced
  split at h
  case h_2 => cases h
  rename_i opening inner hline
  split at h
  case h_2 => cases h
  rename_i closing c name hlast
  split at h
  case isFalse => cases h
  rename_i hends
  simp only [Bool.and_eq_true, Bool.or_eq_true, beq_iff_eq] at hends
  obtain ⟨after, haft, hinner⟩ := exists_dropWhile isBlank inner.reverse
  have hplain : '\n' ∉ opening :: inner := fun h =>
    absurd (all_eq_true.1 all_takeWhile _ (hline ▸ h)) (by decide)
  have hrest := dropWhile_line (tail.dropWhile isBlank)
  have hend := takeWhile_append_dropWhile (p := (· != '\n')) (l := tail.dropWhile isBlank)
  rw [hlast, ← reverse_inj, reverse_reverse, reverse_append, reverse_cons, append_assoc, singleton_append] at hinner
  rw [hline, hinner] at hend
  rw [hinner] at hplain
  rw [← hend] at htail'
  rw [← htail] at hword'
  rw [hcs, hword, hword', htail', ← Option.some.inj h]
  refine .intro ?_ hmid hsp (fun c hc => haft c (mem_reverse.1 hc)) ?_ ?_ hends.1 hends.2 (by simp) hplain hrest
  · exact fun c hc => (Bool.and_eq_true_iff.1 (hbef c hc)).1
  · exact fun hc => absurd (hbef _ hc) (by decide)
  · rintro rfl
    have hhead : tail.head? = some opening := by rw [htail']; rfl
    rw [hhead] at hspaced
    rcases hends.1 with rfl | rfl <;> cases hspaced

lemma mem_lineStarts {cs' : List Char} : cs' ∈ lineStarts cs ↔ '\n' :: cs' <:+ cs := by
  induction cs with
  | nil => simp [lineStarts]
  | cons c cs ih =>
    rw [lineStarts, suffix_cons_iff, ← ih]
    by_cases hc : c = '\n'
    · simp [hc]
    · simp [hc, Ne.symm hc]

lemma mem_includes_iff {text : String} : name ∈ includes text ↔ Includes text name := by
  simp only [includes, mem_filterMap, mem_lineStarts]
  exact exists_congr fun cs => and_congr_right fun _ => ⟨includeLine_of_eq, IncludeLine.includeName?_eq⟩

end Lines

/-! ## The files that names stand for -/

open ClHost.Path Option

def candidates (root : String) (path : List String) (name : String) : List Path :=
  path.map fun directory => locate root (join directory name)

def included? (tree : FileTree) (root : String) (path : List String) (name : String) : Option Path :=
  (candidates root path name).find? fun p => (tree.file? p).isSome

/-- The names that are looked for: those that a source includes, and those that the files include which they stand
for. -/
inductive Asks (tree : FileTree) (root : String) (path : List String) (source : String) : String → Prop
  | source {name : String} : Includes source name → Asks tree root path source name
  | file {name next text : String} {p : Path} : Asks tree root path source name →
      included? tree root path name = some p → tree.readText p = .ok text → Includes text next →
      Asks tree root path source next

variable {tree : FileTree} {root : String} {path : List String}

variable {name : String} {p : Path}

lemma reduced_of_mem_candidates (h : p ∈ candidates root path name) : Reduced p.reverse := by
  obtain ⟨directory, -, rfl⟩ := mem_map.1 h
  exact Reduced.locate root _

lemma reduced_of_included? (h : included? tree root path name = some p) : Reduced p.reverse :=
  reduced_of_mem_candidates (mem_of_find?_eq_some h)

lemma exists_file_of_included? (h : included? tree root path name = some p) : ∃ f, tree.file? p = some f := by
  have hsome : (tree.file? p).isSome = true := by simpa using find?_some h
  exact isSome_iff_exists.1 hsome

/-! ## Entries -/

structure Entered (tree : FileTree) (root : String) (p : Path) (d : Dependency) : Prop where
  reduced : Reduced p.reverse
  entry : ∃ f text, tree.file? p = some f ∧ tree.readText p = .ok text ∧ d = ⟨fullText root p, f.time, digest text⟩

lemma Entered.file_eq {d : Dependency} (h : Entered tree root p d) : d.file = fullText root p := by
  obtain ⟨f, text, -, -, rfl⟩ := h.entry
  rfl

lemma Entered.locate_eq {d : Dependency} (h : Entered tree root p d) : locate root d.file = p := by
  rw [h.file_eq, locate_fullText h.reduced]

structure Sound (tree : FileTree) (root : String) (found : List Dependency) : Prop where
  entered : ∀ d ∈ found, ∃ p, Entered tree root p d
  nodup : (found.map (·.file)).Nodup

namespace Sound

variable {found : List Dependency}

lemma nil : Sound tree root [] := ⟨fun _ h => (not_mem_nil h).elim, nodup_nil⟩

lemma concat {p : Path} {d : Dependency} (h : Sound tree root found) (hd : Entered tree root p d)
    (hnew : d.file ∉ found.map (·.file)) : Sound tree root (found ++ [d]) := by
  constructor
  · intro e he
    rcases mem_append.1 he with he | he
    · exact h.entered e he
    · rw [mem_singleton.1 he]
      exact ⟨p, hd⟩
  · rw [map_append]
    exact h.nodup.append (nodup_singleton _) (disjoint_singleton.2 hnew)

lemma length_le (h : Sound tree root found) : found.length ≤ tree.files.length := by
  have hsubset : found.map (·.file) ⊆ tree.files.map fun e => fullText root e.1 := by
    intro file hfile
    obtain ⟨d, hd, rfl⟩ := mem_map.1 hfile
    obtain ⟨p, hp⟩ := h.entered d hd
    obtain ⟨f, _, hf, -, rfl⟩ := hp.entry
    obtain ⟨e, he, rfl⟩ := map_eq_some_iff.1 hf
    have hpath : e.1 = p := by simpa using find?_some he
    exact mem_map.2 ⟨e, mem_of_find?_eq_some he, by rw [hpath]⟩
  have hle := (h.nodup.subperm hsubset).length_le
  rwa [length_map, length_map] at hle

lemma entered_of_file {p : Path} (h : Sound tree root found) (hp : Reduced p.reverse)
    (hmem : fullText root p ∈ found.map (·.file)) : ∃ d ∈ found, Entered tree root p d := by
  obtain ⟨d, hd, hfile⟩ := mem_map.1 hmem
  obtain ⟨q, hq⟩ := h.entered d hd
  have hpq : q = p := by rw [← hq.locate_eq, hfile, locate_fullText hp]
  exact ⟨d, hd, hpq ▸ hq⟩

end Sound

/-! ## Searches -/

/-- The file that is looked into for a name when some files are known: the first one along the include path that is
not. -/
def next? (tree : FileTree) (root : String) (path : List String) (known : List Dependency) (name : String) :
    Option Path :=
  (candidates root path name).find? fun p => !known.any (fun d => d.file == fullText root p) && (tree.file? p).isSome

/-- A search for names one after the other, from files that are known. -/
inductive Searches (tree : FileTree) (root : String) (path : List String) :
    List String → List Dependency → Except Fault (List Dependency) → Prop
  | done {known : List Dependency} : Searches tree root path [] known (.ok known)
  | skip {name : String} {names : List String} {known : List Dependency} {r : Except Fault (List Dependency)}
      (hnext : next? tree root path known name = none) (hrest : Searches tree root path names known r) :
      Searches tree root path (name :: names) known r
  | refuse {name : String} {names : List String} {known : List Dependency} {p : Path} {e : Fault}
      (hnext : next? tree root path known name = some p) (htext : tree.readText p = .error e) :
      Searches tree root path (name :: names) known (.error e)
  | enter {name text : String} {names : List String} {known middle : List Dependency} {p : Path} {f : File}
      {r : Except Fault (List Dependency)} (hnext : next? tree root path known name = some p)
      (hfile : tree.file? p = some f) (htext : tree.readText p = .ok text)
      (hinside : Searches tree root path (includes text) (known ++ [⟨fullText root p, f.time, digest text⟩])
        (.ok middle)) (hrest : Searches tree root path names middle r) :
      Searches tree root path (name :: names) known r
  | fail {name text : String} {names : List String} {known : List Dependency} {p : Path} {f : File} {e : Fault}
      (hnext : next? tree root path known name = some p) (hfile : tree.file? p = some f)
      (htext : tree.readText p = .ok text)
      (hinside : Searches tree root path (includes text) (known ++ [⟨fullText root p, f.time, digest text⟩])
        (.error e)) : Searches tree root path (name :: names) known (.error e)

section Next

variable {known : List Dependency} {name : String} {p : Path}

lemma any_file_iff {file : String} : (known.any fun d => d.file == file) = true ↔ file ∈ known.map (·.file) := by
  simp

lemma next?_spec (h : next? tree root path known name = some p) :
    Reduced p.reverse ∧ fullText root p ∉ known.map (·.file) ∧ ∃ f, tree.file? p = some f := by
  obtain ⟨hnew, hfile⟩ : (known.any fun d => d.file == fullText root p) = false ∧ (tree.file? p).isSome = true := by
    simpa using find?_some h
  refine ⟨reduced_of_mem_candidates (mem_of_find?_eq_some h), fun hmem => ?_, isSome_iff_exists.1 hfile⟩
  rw [any_file_iff.2 hmem] at hnew
  cases hnew

lemma next?_of_included? (h : included? tree root path name = some p)
    (hnew : fullText root p ∉ known.map (·.file)) : next? tree root path known name = some p := by
  obtain ⟨hp, before, after, hspl, hbef⟩ := find?_eq_some_iff_append.1 h
  refine find?_eq_some_iff_append.2 ⟨?_, before, after, hspl, fun q hq => ?_⟩
  · rw [hp, Bool.and_true, Bool.not_eq_true', Bool.eq_false_iff]
    exact fun hany => hnew (any_file_iff.1 hany)
  · have hmissing : (tree.file? q).isSome = false := by simpa using hbef q hq
    rw [hmissing, Bool.and_false]
    rfl

lemma entered_next (hnext : next? tree root path known name = some p) {f : File} {text : String}
    (hfile : tree.file? p = some f) (htext : tree.readText p = .ok text) :
    Entered tree root p ⟨fullText root p, f.time, digest text⟩ := ⟨(next?_spec hnext).1, f, text, hfile, htext, rfl⟩

lemma Sound.concat_next (h : Sound tree root known) (hnext : next? tree root path known name = some p) {f : File}
    {text : String} (hfile : tree.file? p = some f) (htext : tree.readText p = .ok text) :
    Sound tree root (known ++ [⟨fullText root p, f.time, digest text⟩]) :=
  h.concat (entered_next hnext hfile htext) (next?_spec hnext).2.1

end Next

def Closed (tree : FileTree) (root : String) (path : List String) (found : List Dependency) (text : String) : Prop :=
  ∀ name ∈ includes text, ∀ p, included? tree root path name = some p → fullText root p ∈ found.map (·.file)

lemma Closed.mono {found found' : List Dependency} {text : String} (h : Closed tree root path found text)
    (hsub : found ⊆ found') : Closed tree root path found' text := by
  intro name hname p hp
  exact map_subset _ hsub (h name hname p hp)

/-- What following a source does to a list of dependencies: entries are added, and all that the new files include is
entered as well. -/
structure Grown (tree : FileTree) (root : String) (path : List String) (found found' : List Dependency) : Prop where
  isPrefix : found <+: found'
  sound : Sound tree root found'
  closed : ∀ d ∈ found', d ∉ found → ∀ p text, Entered tree root p d → tree.readText p = .ok text →
    Closed tree root path found' text

namespace Grown

variable {found found' found'' : List Dependency}

lemma refl (h : Sound tree root found) : Grown tree root path found found :=
  ⟨prefix_refl found, h, fun _ hd hnot => (hnot hd).elim⟩

lemma trans (h : Grown tree root path found found') (h' : Grown tree root path found' found'') :
    Grown tree root path found found'' := by
  refine ⟨h.isPrefix.trans h'.isPrefix, h'.sound, ?_⟩
  intro d hd hnot p text hp htext
  by_cases hmem : d ∈ found'
  · exact (h.closed d hmem hnot p text hp htext).mono h'.isPrefix.subset
  · exact h'.closed d hd hmem p text hp htext

lemma concat {p : Path} {text : String} {d : Dependency} (h : Grown tree root path (found ++ [d]) found')
    (hd : Entered tree root p d) (htext : tree.readText p = .ok text) (hclosed : Closed tree root path found' text) :
    Grown tree root path found found' := by
  refine ⟨(prefix_append found [d]).trans h.isPrefix, h.sound, ?_⟩
  intro e he hnot q text' hq htext'
  by_cases hmem : e ∈ found ++ [d]
  · obtain rfl : e = d := by simpa [hnot] using hmem
    have hpq : q = p := by rw [← hq.locate_eq, hd.locate_eq]
    rw [hpq, htext] at htext'
    cases htext'
    exact hclosed
  · exact h.closed e he hmem q text' hq htext'

end Grown

variable {found found' : List Dependency}

lemma Searches.grown {names : List String} (h : Searches tree root path names found (.ok found'))
    (hfnd : Sound tree root found) :
    Grown tree root path found found' ∧ ∀ name ∈ names, ∀ p, included? tree root path name = some p →
      fullText root p ∈ found'.map (·.file) := by
  generalize hr : Except.ok found' = r at h
  induction h generalizing found' with
  | done =>
    cases hr
    exact ⟨Grown.refl hfnd, fun _ hname => (not_mem_nil hname).elim⟩
  | skip hnext _ ih =>
    obtain ⟨hgr, hnms⟩ := ih hfnd hr
    refine ⟨hgr, forall_mem_cons.2 ⟨fun p hp => ?_, hnms⟩⟩
    by_contra hnew
    have hsub := map_subset (·.file) hgr.isPrefix.subset
    rw [next?_of_included? hp fun hmem => hnew (hsub hmem)] at hnext
    cases hnext
  | refuse => cases hr
  | enter hnext hfile htext _ _ ih ih' =>
    obtain ⟨hinside, hclosed⟩ := ih (hfnd.concat_next hnext hfile htext) rfl
    obtain ⟨hrest, hnms⟩ := ih' hinside.sound hr
    refine ⟨(hinside.concat (entered_next hnext hfile htext) htext hclosed).trans hrest,
      forall_mem_cons.2 ⟨fun p hp => ?_, hnms⟩⟩
    -- The file was known before, or it is the one that was looked into.
    by_contra hnew
    have hsub := map_subset (·.file) (hinside.isPrefix.trans hrest.isPrefix).subset
    rw [next?_of_included? hp fun hmem => hnew (hsub (by simp [hmem]))] at hnext
    cases hnext
    exact hnew (hsub (by simp))
  | fail => cases hr

/-! ## The search of a bounded depth -/

lemma resolve_of_next {follow : String → List Dependency → Result (List Dependency)} {name : String} :
    (next? tree root path found name = none → resolve tree root name follow path found = .ok found) ∧
      ∀ p f, next? tree root path found name = some p → tree.file? p = some f →
        resolve tree root name follow path found = tree.readText p >>= fun text =>
          follow text (found ++ [⟨fullText root p, f.time, digest text⟩]) := by
  induction path with
  | nil => exact ⟨fun _ => rfl, fun _ _ h => by cases h⟩
  | cons directory rest ih =>
    rw [next?, candidates, map_cons, find?_cons, resolve]
    generalize locate root (join directory name) = q
    change (_ → (if found.any (fun d => d.file == fullText root q) then _ else _) = _) ∧ ∀ p f, _ → _ →
      (if found.any (fun d => d.file == fullText root q) then _ else _) = _
    cases hkn : found.any fun d => d.file == fullText root q with
    | true => exact ih
    | false =>
      cases hfile : tree.file? q with
      | none => exact ih
      | some g =>
        refine ⟨nofun, fun p f hp hf => ?_⟩
        obtain rfl : q = p := some.inj hp
        obtain rfl : g = f := some.inj (hfile.symm.trans hf)
        cases tree.readText q <;> rfl

/-- **A search ends.** A depth that leaves room for every file is never used up. -/
lemma searches_dependenciesFrom {depth : Nat} {names : List String} (hfnd : Sound tree root found)
    (hdepth : tree.files.length ≤ depth + found.length) :
    Searches tree root path names found (names.foldlM (fun found name =>
      resolve tree root name (dependenciesFrom tree root path depth) path found) found) := by
  induction depth using Nat.strongRecOn generalizing names found with
  | ind depth ih =>
    induction names generalizing found with
    | nil => exact .done
    | cons name names ihNames =>
      rw [foldlM_cons]
      cases hnext : next? tree root path found name with
      | none =>
        rw [resolve_of_next.1 hnext]
        exact .skip hnext (ihNames hfnd hdepth)
      | some p =>
        obtain ⟨-, -, f, hfile⟩ := next?_spec hnext
        rw [resolve_of_next.2 p f hnext hfile]
        cases htext : tree.readText p with
        | error => exact .refuse hnext htext
        | ok text =>
          -- One more file is known, so that there is depth left for it.
          have hsound := hfnd.concat_next hnext hfile htext
          have hroom := hsound.length_le
          rw [length_append, length_singleton] at hroom
          obtain ⟨depth, rfl⟩ : ∃ d, depth = d + 1 := ⟨depth - 1, by omega⟩
          have hinside := @ih depth (Nat.lt_succ_self _) _ (includes text) hsound (by simp; omega)
          change Searches tree root path (name :: names) found (List.foldlM _ _ (includes text) >>= _)
          revert hinside
          generalize (includes text).foldlM (fun found name =>
            resolve tree root name (dependenciesFrom tree root path depth) path found)
            (found ++ [⟨fullText root p, f.time, digest text⟩]) = r
          intro hinside
          cases r with
          | error => exact .fail hnext hfile htext hinside
          | ok =>
            have hgr := (hinside.grown hsound).1
            refine .enter hnext hfile htext hinside (ihNames hgr.sound ?_)
            have hlonger := hgr.isPrefix.length_le
            rw [length_append] at hlonger
            omega

/-! ## The dependencies of a source -/

variable {source : String} {deps : List Dependency}

lemma searches_dependencies (tree : FileTree) (root source : String) (path : List String) :
    ∃ r, Searches tree root path (includes source) [] r ∧ dependencies tree root source path =
      r >>= fun found => .ok (found.mergeSort fun a b => decide (a.file ≤ b.file)) :=
  ⟨_, searches_dependenciesFrom Sound.nil (Nat.le_add_right ..), rfl⟩

variable (h : dependencies tree root source path = .ok deps)

include h in
lemma grown_dependencies : ∃ found, deps = found.mergeSort (fun a b => decide (a.file ≤ b.file)) ∧
      Searches tree root path (includes source) [] (.ok found) ∧ Grown tree root path [] found ∧
      Closed tree root path found source := by
  obtain ⟨r, hsearches, hr⟩ := searches_dependencies tree root source path
  obtain ⟨found, rfl, hdeps⟩ := of_bind_ok (hr.symm.trans h)
  obtain ⟨hgr, hclosed⟩ := hsearches.grown Sound.nil
  exact ⟨found, (Except.ok.inj hdeps).symm, hsearches, hgr, hclosed⟩

include h in
lemma entered_of_asks {name : String} {p : Path}
    (hname : Asks tree root path source name) (hp : included? tree root path name = some p) :
    ∃ d ∈ deps, Entered tree root p d := by
  obtain ⟨found, rfl, -, hgr, hclosed⟩ := grown_dependencies h
  have hentered : ∃ d ∈ found, Entered tree root p d := by
    induction hname generalizing p with
    | source hmem => exact hgr.sound.entered_of_file (reduced_of_included? hp) (hclosed _ (mem_includes_iff.2 hmem) p hp)
    | file _ hq htext hmem ih =>
      obtain ⟨d, hd, hentered⟩ := ih hq
      have hnext := hgr.closed d hd not_mem_nil _ _ hentered htext
      exact hgr.sound.entered_of_file (reduced_of_included? hp) (hnext _ (mem_includes_iff.2 hmem) p hp)
  obtain ⟨d, hd, hentered⟩ := hentered
  exact ⟨d, mem_mergeSort.2 hd, hentered⟩

variable {d : Dependency}

include h in
lemma exists_entered (hd : d ∈ deps) : ∃ p, Entered tree root p d := by
  obtain ⟨found, rfl, -, hgr, -⟩ := grown_dependencies h
  exact hgr.sound.entered d (mem_mergeSort.1 hd)

/-! ## Current dependencies -/

lemma areCurrent_iff : areCurrent tree root deps = .ok true ↔ ∀ d ∈ deps, isCurrent tree root d = .ok true := by
  induction deps with
  | nil => simp [areCurrent]
  | cons d deps ih =>
    rw [areCurrent, forall_mem_cons, ← ih]
    constructor
    · intro h
      obtain ⟨current, hcur, h⟩ := of_bind_ok h
      cases current with
      | false => cases h
      | true => exact ⟨hcur, h⟩
    · rintro ⟨hcur, h⟩
      rw [hcur]
      exact h

variable {tree' : FileTree}

lemma readText_congr {p : Path} {f g : File} (hf : tree.file? p = some f) (hg : tree'.file? p = some g)
    (h : f.content = g.content) : tree.readText p = tree'.readText p := by
  obtain ⟨content, time⟩ := f
  obtain ⟨content', time'⟩ := g
  obtain rfl : content = content' := h
  have hread : tree.read p = tree'.read p := by
    rw [FileTree.read, FileTree.read, hf, hg]
    cases content <;> rfl
  rw [FileTree.readText, FileTree.readText, hread]

lemma isCurrent_congr (hfile : tree'.file? (locate root d.file) = tree.file? (locate root d.file))
    (h : isCurrent tree root d = .ok true) : isCurrent tree' root d = .ok true := by
  unfold isCurrent at h ⊢
  dsimp only at h ⊢
  cases hf : tree.file? (locate root d.file) with
  | none =>
    rw [hf] at h
    dsimp only at h
    split at h
    · cases h
    · simp at h
  | some =>
    have htext := readText_congr hf (hfile.trans hf) rfl
    rw [hf] at h
    rw [hfile, hf]
    unfold fileDigest at h ⊢
    rw [← htext]
    exact h

lemma isCurrent_of_entered {p : Path} (h : Entered tree root p d) : isCurrent tree root d = .ok true := by
  have hloc := h.locate_eq
  obtain ⟨f, text, hf, -, rfl⟩ := h.entry
  rw [isCurrent, hloc]
  simp [hf]

include h in
lemma areCurrent_dependencies : areCurrent tree root deps = .ok true := by
  rw [areCurrent_iff]
  intro d hd
  obtain ⟨p, hp⟩ := exists_entered h hd
  exact isCurrent_of_entered hp

lemma areCurrent_congr {directories : List Path} (hsame : FileTree.SameOutside directories tree tree')
    (hout : ∀ d ∈ deps, (locate root d.file).Outside directories) (h : areCurrent tree root deps = .ok true) :
    areCurrent tree' root deps = .ok true := by
  rw [areCurrent_iff] at h ⊢
  intro d hd
  exact isCurrent_congr (hsame.file _ (hout d hd)) (h d hd)

end ClHost.Source
