import Mathlib.Data.List.Basic
import ClHost.Source.Include
import ClHost.Proofs.Text.Splitting

/-!
# File trees and paths

What each change of a file tree does to the files and the directories in it, and which parts it leaves alone. A path
that was read from a text is reduced: what is left are proper names, and steps up in front of them.
-/

namespace ClHost

/-! ## Changes of files -/

open List

namespace FileTree

variable {t t' : FileTree} {p q : Path} {f : File}

lemma file?_filter (t : FileTree) (keep : Path → Bool) (q : Path) :
    ({ t with files := t.files.filter fun e => keep e.1 } : FileTree).file? q = if keep q then t.file? q else none := by
  unfold file?
  induction t.files with
  | nil => simp
  | cons e files ih =>
    by_cases hq : e.1 = q
    · subst hq
      by_cases hkeep : keep e.1 = true
      · simp [hkeep]
      · simp [hkeep] at ih ⊢
        exact ih
    · by_cases hkeep : keep e.1 = true
      · simpa [hkeep, hq] using ih
      · simpa [hkeep, hq] using ih

lemma file?_append (t : FileTree) (more : List (Path × File)) (q : Path) :
    ({ t with files := t.files ++ more } : FileTree).file? q =
      (t.file? q).or (({ t with files := more } : FileTree).file? q) := by
  unfold file?
  rw [find?_append]
  cases t.files.find? (fun e => e.1 == q) <;> rfl

lemma write_cases (h : t.write p f = .ok t') : t.isDirectory p = false ∧ t.isDirectory p.dropLast = true ∧
    t' = { t with files := t.files.filter (fun e => e.1 != p) ++ [(p, f)] } := by
  unfold write at h
  split at h
  · cases h
  · split at h
    · cases h
    · rename_i hp hpar
      cases h
      exact ⟨by simpa using hp, by simpa using hpar, rfl⟩

lemma exists_write (hp : t.isDirectory p = false) (hpar : t.isDirectory p.dropLast = true) (f : File) :
    ∃ t', t.write p f = .ok t' := by
  refine ⟨{ t with files := t.files.filter (fun e => e.1 != p) ++ [(p, f)] }, ?_⟩
  rw [write, hp, hpar]
  rfl

lemma file?_write (h : t.write p f = .ok t') (q : Path) : t'.file? q = if q = p then some f else t.file? q := by
  obtain ⟨-, -, rfl⟩ := write_cases h
  rw [file?_append { t with files := t.files.filter fun e => e.1 != p }, file?_filter t (· != p)]
  by_cases hq : q = p
  · subst hq
    simp [file?]
  · have hne : ¬ p = q := fun heq => hq heq.symm
    cases hf : t.file? q <;> simp [file?, hq, hne]

lemma isDirectory_write (h : t.write p f = .ok t') (q : Path) : t'.isDirectory q = t.isDirectory q := by
  obtain ⟨-, -, rfl⟩ := write_cases h
  rfl

lemma remove_cases (h : t.remove p = .ok t') : t' = { t with files := t.files.filter fun e => e.1 != p } := by
  unfold remove at h
  split at h
  · cases h
    rfl
  · split at h <;> cases h

lemma file?_remove (h : t.remove p = .ok t') (q : Path) : t'.file? q = if q = p then none else t.file? q := by
  obtain rfl := remove_cases h
  rw [file?_filter t (· != p)]
  by_cases hq : q = p <;> simp [hq]

lemma isDirectory_remove (h : t.remove p = .ok t') (q : Path) : t'.isDirectory q = t.isDirectory q := by
  obtain rfl := remove_cases h
  rfl

lemma filter_of_file?_none (h : t.file? p = none) : t.files.filter (fun e => e.1 != p) = t.files := by
  rw [filter_eq_self]
  intro e he
  rw [file?, Option.map_eq_none_iff, find?_eq_none] at h
  simpa using h e he

lemma remove_write (hp : t.file? p = none) (h : t.write p f = .ok t') : t'.remove p = .ok t := by
  have hsome : (t'.file? p).isSome = true := by
    rw [file?_write h, if_pos rfl]
    rfl
  obtain ⟨-, -, rfl⟩ := write_cases h
  rw [remove, if_pos hsome, filter_of_file?_none hp, filter_append, filter_of_file?_none hp]
  simp

lemma makeDirectory_cases (h : t.makeDirectory p = .ok t') : t' = { t with directories := t.directories ++ [p] } := by
  unfold makeDirectory at h
  split at h
  · cases h
  · split at h
    · cases h
    · cases h
      rfl

lemma file?_makeDirectory (h : t.makeDirectory p = .ok t') (q : Path) : t'.file? q = t.file? q := by
  obtain rfl := makeDirectory_cases h
  rfl

lemma isDirectory_makeDirectory (h : t.makeDirectory p = .ok t') (q : Path) :
    t'.isDirectory q = (t.isDirectory q || decide (q = p)) := by
  obtain rfl := makeDirectory_cases h
  simp [isDirectory, Bool.or_assoc, contains_eq_mem]

lemma eraseDirectory_cases (h : t.eraseDirectory p = .ok t') : t.isDirectory p = true ∧
    t' = ⟨t.directories.filter (· != p), t.files.filter fun e => e.1.dropLast != p⟩ := by
  unfold eraseDirectory at h
  split at h
  · cases h
  · split at h
    · cases h
    · rename_i hp _
      cases h
      exact ⟨by simpa using hp, rfl⟩

lemma file?_eraseDirectory (h : t.eraseDirectory p = .ok t') (q : Path) :
    t'.file? q = if q.dropLast = p then none else t.file? q := by
  obtain ⟨-, rfl⟩ := eraseDirectory_cases h
  have hfilt := file?_filter t (fun q => q.dropLast != p) q
  unfold file? at hfilt ⊢
  rw [hfilt]
  by_cases hq : q.dropLast = p <;> simp [hq]

lemma isDirectory_eraseDirectory (h : t.eraseDirectory p = .ok t') (hq : q ≠ p) :
    t'.isDirectory q = t.isDirectory q := by
  obtain ⟨-, rfl⟩ := eraseDirectory_cases h
  simp [isDirectory, contains_eq_mem, mem_filter, hq]

variable {d : Path} {directories more : List Path}

lemma mem_inits (h : d ∈ inits p) : d ≠ [] ∧ d <+: p := by
  obtain ⟨i, hi, rfl⟩ := mem_map.1 h
  refine ⟨?_, take_prefix _ _⟩
  rw [Ne, take_eq_nil_iff]
  rintro (h | rfl)
  · omega
  · exact absurd hi (by simp)

def withDirectories (directories more : List Path) : List Path :=
  more.foldl (fun ds d => if ds.contains d then ds else ds ++ [d]) directories

lemma mem_withDirectories : d ∈ withDirectories directories more ↔ d ∈ directories ∨ d ∈ more := by
  induction more generalizing directories with
  | nil => simp [withDirectories]
  | cons e =>
    rw [withDirectories, foldl_cons, ← withDirectories]
    by_cases he : e ∈ directories
    · simp only [contains_eq_mem, he, decide_true, if_true, mem_cons]
      grind
    · simp only [contains_eq_mem, he, decide_false, Bool.false_eq_true, if_false, mem_cons]
      grind

lemma withDirectories_of_subset (h : ∀ d ∈ more, d ∈ directories) : withDirectories directories more = directories := by
  induction more with
  | nil => rfl
  | cons e more ih =>
    rw [forall_mem_cons] at h
    rw [withDirectories, foldl_cons, ← withDirectories, if_pos (by simpa using h.1), ih h.2]

lemma isDirectory_makeDirectories (t : FileTree) (p q : Path) :
    (t.makeDirectories p).isDirectory q = (t.isDirectory q || decide (q ∈ inits p)) := by
  have hmem : q ∈ (t.makeDirectories p).directories ↔ q ∈ t.directories ∨ q ∈ inits p := mem_withDirectories
  simp [isDirectory, contains_eq_mem, hmem, Bool.or_assoc, Bool.decide_or]

lemma makeDirectories_of_isDirectory (h : ∀ d ∈ inits p, t.isDirectory d = true) : t.makeDirectories p = t := by
  have hsub : ∀ d ∈ inits p, d ∈ t.directories := by
    intro d hd
    have hdir := h d hd
    simp only [isDirectory, Bool.or_eq_true, List.isEmpty_iff, (mem_inits hd).1, false_or] at hdir
    simpa using hdir
  rw [makeDirectories, ← withDirectories, withDirectories_of_subset hsub]

end FileTree

def Path.Outside (directories : List Path) (p : Path) : Prop := ∀ d ∈ directories, ¬ d <+: p

lemma Path.Outside.mono {more fewer : List Path} {p : Path} (h : p.Outside more) (hsub : fewer ⊆ more) :
    p.Outside fewer := fun d hd => h d (hsub hd)

structure FileTree.SameOutside (directories : List Path) (t t' : FileTree) : Prop where
  file : ∀ p : Path, p.Outside directories → t'.file? p = t.file? p
  isDirectory : ∀ p : Path, p.Outside directories → t'.isDirectory p = t.isDirectory p

namespace FileTree

variable {t t' t'' : FileTree} {p : Path} {f : File} {directories : List Path}

lemma SameOutside.refl (directories : List Path) (t : FileTree) : SameOutside directories t t :=
  ⟨fun _ _ => rfl, fun _ _ => rfl⟩

lemma SameOutside.trans (h : SameOutside directories t t') (h' : SameOutside directories t' t'') :
    SameOutside directories t t'' :=
  ⟨fun p hp => (h'.file p hp).trans (h.file p hp), fun p hp => (h'.isDirectory p hp).trans (h.isDirectory p hp)⟩

lemma SameOutside.mono {more : List Path} (h : SameOutside directories t t') (hsub : directories ⊆ more) :
    SameOutside more t t' := ⟨fun p hp => h.file p (hp.mono hsub), fun p hp => h.isDirectory p (hp.mono hsub)⟩

lemma sameOutside_write {d : Path} (hd : d <+: p) (h : t.write p f = .ok t') : SameOutside [d] t t' := by
  refine ⟨fun q hq => ?_, fun q _ => isDirectory_write h q⟩
  rw [file?_write h, if_neg]
  rintro rfl
  exact hq d mem_cons_self hd

lemma sameOutside_makeDirectory (h : t.makeDirectory p = .ok t') : SameOutside [p] t t' := by
  refine ⟨fun q _ => file?_makeDirectory h q, fun q hq => ?_⟩
  have hne : q ≠ p := by
    rintro rfl
    exact hq q mem_cons_self (prefix_refl q)
  simp [isDirectory_makeDirectory h, hne]

lemma sameOutside_eraseDirectory (h : t.eraseDirectory p = .ok t') : SameOutside [p] t t' := by
  constructor
  · intro q hq
    rw [file?_eraseDirectory h, if_neg]
    rintro rfl
    exact hq _ mem_cons_self ( dropLast_prefix q)
  · intro q hq
    refine isDirectory_eraseDirectory h ?_
    rintro rfl
    exact hq q mem_cons_self (prefix_refl q)

end FileTree

/-! ## Paths and their texts -/

namespace Path

open Text

structure IsName (name : String) : Prop where
  ne_empty : name ≠ ""
  ne_dot : name ≠ "."
  ne_up : name ≠ ".."
  no_slash : '/' ∉ name.toList

variable {name : String}

lemma step_name (h : IsName name) (up : Path) : step up name = name :: up := by
  simp [step, h.ne_empty, h.ne_dot, h.ne_up]

/-! ## Reduced paths -/

inductive Reduced : Path → Prop
  | ups (n : Nat) : Reduced (List.replicate n "..")
  | name {up : Path} {name : String} : Reduced up → IsName name → Reduced (name :: up)

namespace Reduced

variable {up : Path}

lemma step (h : Reduced up) (hname : '/' ∉ name.toList) : Reduced (step up name) := by
  unfold Path.step
  split
  · exact h
  · rename_i hdot
    split
    · -- A step up takes the last name away, or is kept below the others.
      cases h with
      | ups n =>
        cases n with
        | zero => exact ups 1
        | succ n => simpa [replicate_succ] using ups (n + 2)
      | name h hname => simpa [hname.ne_up] using h
    · rename_i hup
      simp only [Bool.or_eq_true, beq_iff_eq, not_or] at hdot hup
      exact h.name ⟨hdot.1, hdot.2, hup, hname⟩

lemma foldl_step {names : List String} (h : Reduced up) (hnms : ∀ n ∈ names, '/' ∉ n.toList) :
    Reduced (names.foldl Path.step up) := by
  induction names generalizing up with
  | nil => exact h
  | cons n names ih =>
    rw [forall_mem_cons] at hnms
    exact ih (h.step hnms.1) hnms.2

lemma ofText (s : String) : Reduced (ofText s).reverse := by
  rw [Path.ofText, reverse_reverse]
  exact (ups 0).foldl_step fun n hn => notMem_of_mem_splitAt hn

lemma above (h : Reduced up) : Reduced (up ++ [".."]) := by
  induction h with
  | ups n =>
    rw [← replicate_succ']
    exact ups (n + 1)
  | name _ hname ih => exact name ih hname

lemma locate (root s : String) : Reduced (locate root s).reverse := by
  unfold Path.locate
  split
  · exact ofText _
  · split
    · rw [reverse_cons]
      exact (ofText s).above
    · exact ofText s

lemma no_slash (h : Reduced up) : ∀ n ∈ up, '/' ∉ n.toList := by
  induction h with
  | ups =>
    intro name hname
    rw [eq_of_mem_replicate hname]
    decide
  | name _ hname ih => exact forall_mem_cons.2 ⟨hname.no_slash, ih⟩

lemma foldl_step_reverse (h : Reduced up) : up.reverse.foldl Path.step [] = up := by
  induction h with
  | ups n =>
    rw [reverse_replicate]
    induction n with
    | zero => rfl
    | succ n ih =>
      rw [replicate_succ', foldl_append, ih]
      cases n with
      | zero => rfl
      | succ => simp [Path.step, replicate_succ, ← replicate_succ']
  | name _ hname ih => rw [reverse_cons, foldl_append, ih, foldl_cons, step_name hname, foldl_nil]

end Reduced

variable {p : Path} {root s dir : String}

lemma ofText_text (h : Reduced p.reverse) : ofText (text p) = p := by
  by_cases hp : p = []
  · subst hp
    rfl
  · have hslash : ∀ n ∈ p, '/' ∉ n.toList := fun n hn => h.no_slash n (mem_reverse.2 hn)
    have hfold := h.foldl_step_reverse
    rw [reverse_reverse] at hfold
    rw [ofText, text, splitAt_intercalate rfl hslash hp, hfold, reverse_reverse]

def fullText (root : String) (p : Path) : String := root ++ "/" ++ text p

lemma drop_root (root s : String) : ((root ++ "/" ++ s).toList.drop (root.length + 1)) = s.toList := by
  have hlist : (root ++ "/" ++ s).toList = (root.toList ++ ['/']) ++ s.toList := by simp
  rw [hlist, drop_left' (by rw [length_append, String.length_toList, length_singleton])]

lemma locate_below (root s : String) : locate root (root ++ "/" ++ s) = ofText s := by
  have hsts : startsWith (root ++ "/" ++ s ++ "/") (root ++ "/") = true := by
    rw [startsWith_iff]
    exact ⟨s.toList ++ ['/'], by simp⟩
  rw [locate, if_pos hsts, drop_root, String.ofList_toList]

lemma locate_fullText (h : Reduced p.reverse) : locate root (fullText root p) = p := by
  rw [fullText, locate_below, ofText_text h]

/-! ## Joined texts -/

structure Within (root s : String) : Prop where
  absolute : startsWith root "/" = true
  closed : endsWith root "/" = false
  inside : startsWith s "/" = true → startsWith (s ++ "/") (root ++ "/") = true

lemma ofText_between (h : IsName name) (s : String) : ofText (s ++ "/" ++ name) = ofText s ++ [name] := by
  rw [ofText, splitAt_between rfl, splitAt_of_notMem h.no_slash, foldl_append, foldl_cons,
    step_name h, foldl_nil, reverse_cons, ofText]

lemma ofText_slash (s : String) : ofText (s ++ "/") = ofText s := by
  have hspl : splitAt '/' (s ++ "/" ++ "") = splitAt '/' s ++ [""] := splitAt_between rfl s ""
  rw [String.append_empty] at hspl
  rw [ofText, hspl, foldl_append]
  rfl

lemma startsWith_slash (h : IsName name) : startsWith name "/" = false := by
  rw [Bool.eq_false_iff, Ne, startsWith_iff]
  intro hsts
  exact h.no_slash (hsts.subset (by simp))

lemma exists_of_endsWith (h : endsWith s "/" = true) : ∃ t, s = t ++ "/" := by
  rw [endsWith, startsWithChars_iff] at h
  obtain ⟨rest, hrest⟩ := h
  refine ⟨String.ofList rest.reverse, ?_⟩
  rw [← String.toList_inj, ← reverse_inj, ← hrest]
  simp

lemma join_below (h : IsName name) (root t : String) : join (root ++ "/" ++ t) name = root ++ "/" ++ join t name := by
  have hend : ((root ++ "/" ++ t).isEmpty || endsWith (root ++ "/" ++ t) "/") = (t.isEmpty || endsWith t "/") := by
    cases hlist : t.toList.reverse with
    | nil =>
      have ht : t = "" := by simpa using hlist
      subst ht
      simp [endsWith, startsWithChars]
    | cons =>
      have ht : t.isEmpty = false := by
        rw [Bool.eq_false_iff, Ne, String.isEmpty_iff]
        rintro rfl
        simp at hlist
      have hwhole : (root ++ "/" ++ t).isEmpty = false := by
        simp
      simp [endsWith, startsWithChars, hlist, ht, hwhole]
  unfold join
  rw [startsWith_slash h, if_neg Bool.false_ne_true, if_neg Bool.false_ne_true, hend]
  split
  · rw [String.append_assoc]
  · simp only [String.append_assoc]

lemma startsWith_join (h : IsName name) (s : String) : startsWith (join s name) "/" = startsWith s "/" := by
  rw [join, startsWith_slash h, if_neg Bool.false_ne_true]
  cases hlist : s.toList with
  | nil =>
    obtain rfl : s = "" := by simpa using hlist
    rw [if_pos (by decide), String.empty_append, startsWith_slash h]
    rfl
  | cons => split <;> simp [startsWith, startsWithChars, hlist]

lemma ofText_join (h : IsName name) (s : String) : ofText (join s name) = ofText s ++ [name] := by
  rw [join, startsWith_slash h, if_neg Bool.false_ne_true]
  split
  · rename_i hend
    rw [Bool.or_eq_true, String.isEmpty_iff] at hend
    rcases hend with rfl | hend
    · rw [String.empty_append, ofText, splitAt_of_notMem h.no_slash, foldl_cons, step_name h]
      rfl
    · obtain ⟨t, rfl⟩ := exists_of_endsWith hend
      rw [ofText_between h, ofText_slash]
  · exact ofText_between h s

lemma locate_relative (hroot : startsWith root "/" = true) (hs : startsWith s "/" = false) :
    locate root s = ofText s := by
  have hout : ¬ startsWith (s ++ "/") (root ++ "/") = true := by
    rw [startsWith_iff] at hroot ⊢
    rw [Bool.eq_false_iff, Ne, startsWith_iff] at hs
    obtain ⟨rest, hrest⟩ := hroot
    intro hsts
    rw [String.toList_append, ← hrest] at hsts
    cases hlist : s.toList with
    | nil => simp [hlist] at hsts
    | cons c cs =>
      have hc : c = '/' := by
        rw [String.toList_append, hlist] at hsts
        exact (cons_prefix_cons.1 hsts).1.symm
      exact hs ⟨cs, by simp [hlist, hc]⟩
  rw [locate, if_neg hout, if_neg (by simp [hs])]

lemma locate_join (hdir : Within root dir) (h : IsName name) :
    locate root (join dir name) = locate root dir ++ [name] := by
  by_cases hslash : startsWith dir "/" = true
  · have hinside := hdir.inside hslash
    rw [startsWith_iff, String.toList_append, String.toList_append] at hinside
    rcases prefix_concat_iff.1 hinside with heq | ⟨t, ht⟩
    · -- The directory is the working directory.
      obtain rfl : root = dir := String.toList_inj.1 (append_cancel_right heq)
      have hroot : root.isEmpty = false := by
        rw [startsWith_iff] at hslash
        cases hlist : root.toList with
        | nil => simp [hlist] at hslash
        | cons => exact Bool.eq_false_iff.2 fun h => by simp_all
      have hjoin : join root name = root ++ "/" ++ name := by
        simp [join, startsWith_slash h, hroot, hdir.closed]
      have hself : locate root root = [] := by
        have hdrop : root.toList.drop (root.length + 1) = [] :=
          drop_eq_nil_of_le (by rw [String.length_toList]; omega)
        rw [locate, if_pos (startsWith_iff.2 (prefix_refl _)), hdrop]
        rfl
      rw [hjoin, locate_below, hself, ofText, splitAt_of_notMem h.no_slash, foldl_cons, step_name h]
      rfl
    · obtain rfl : dir = root ++ "/" ++ String.ofList t := by
        rw [← String.toList_inj, ← ht]
        simp
      rw [join_below h, locate_below, locate_below, ofText_join h]
  · rw [Bool.not_eq_true] at hslash
    rw [locate_relative hdir.absolute ((startsWith_join h dir).trans hslash), locate_relative hdir.absolute hslash,
      ofText_join h]

lemma Within.join (hdir : Within root dir) (h : IsName name) : Within root (join dir name) := by
  refine ⟨hdir.absolute, hdir.closed, fun hslash => ?_⟩
  rw [startsWith_join h] at hslash
  have hinside := hdir.inside hslash
  have hemp : dir.isEmpty = false := by
    rw [Bool.eq_false_iff, Ne, String.isEmpty_iff]
    rintro rfl
    exact absurd hslash (by decide)
  rw [Path.join, startsWith_slash h, if_neg Bool.false_ne_true, hemp]
  rw [startsWith_iff] at hinside ⊢
  split
  · rename_i hend
    rw [String.toList_append, String.toList_append] at hinside
    rcases prefix_concat_iff.1 hinside with heq | hsts
    · obtain rfl : root = dir := String.toList_inj.1 (append_cancel_right heq)
      rw [hdir.closed] at hend
      cases hend
    · rw [String.toList_append]
      refine hsts.trans ⟨name.toList ++ ['/'], ?_⟩
      simp
  · refine hinside.trans ⟨name.toList ++ ['/'], ?_⟩
    simp

end Path

end ClHost
