import CallGraph.Proofs.Coverage
import CallGraph.Proofs.Parents

/-!
What stays in scope.

A path is in scope by its normal form. What is there has its canonical path as normal form. What is
not there has the canonical path of its parent with its name below, and if the parent is not there
either, it is left as it was spelled. Without links the first two agree, as both are the path of the
location that the path spells (`normalize_resolved`), so it makes no difference whether a file comes
and goes. The third is a spelling and nothing more (`normalize_unresolved`).

What is proved:

* a registered file stays in scope, there or not, unless it was given as a bare name and was not
  there when it was registered: the parent of a bare name is the empty path, and that is never there
  (`watchFile_keeps_scope`);
* what is below a registered directory stays in scope as long as its parent is there. Where more than
  its last name is gone, it stays in scope exactly if the directory was given by a path that starts
  with its canonical path (`watchDirectory_keeps_scope`).
-/

namespace CallGraph

open CallGraph.Volume CallGraph.Path

theorem Path.Below.spelled {p q : Path} {name : String} (h : p.Below q name) (v : Volume) :
    v.spelled p = v.spelled q ++ [name] := by
  rw [Volume.spelled, Volume.spelled, h.isAbsolute, h.advances]

namespace Watcher

variable {v v₀ : Volume} {w w' : Watcher} {p q directory r : Path} {name : String}
  {names : List String}

/-! ## The directory of a file -/

/-- The directory that a file is watched through is its parent, or the current directory if the file
is a bare name. -/
theorem directoryOf_cases (h : p.fileName? = some name) : ∃ q, p.parent? = some q ∧ p.Below q name ∧
    (q.text = "" ∧ directoryOf p = ⟨"."⟩ ∧ p.components = [.normal name] ∨
      q.text ≠ "" ∧ directoryOf p = q ∧ p.components ≠ [.normal name]) := by
  obtain ⟨q, hparent, hbelow, -⟩ := below_parent h
  refine ⟨q, hparent, hbelow, ?_⟩
  unfold directoryOf
  rw [hparent, hbelow.components]
  by_cases hq : q.text = ""
  · obtain rfl := eq_of_text hq
    exact Or.inl ⟨rfl, rfl, rfl⟩
  · exact Or.inr ⟨hq, by simp [hq], by simp [components_ne_nil hq]⟩

theorem spelled_directoryOf (h : p.fileName? = some name) (v : Volume) :
    v.spelled p = v.spelled (directoryOf p) ++ [name] := by
  obtain ⟨q, -, hbelow, ⟨hq, hdir, -⟩ | ⟨-, hdir, -⟩⟩ := directoryOf_cases h
  · -- the empty path and the dot both spell the current directory
    obtain rfl := eq_of_text hq
    rw [hbelow.spelled, hdir]
    rfl
  · rw [hbelow.spelled, hdir]

theorem contains_directoryOf (hv : v.isRegular = true) (hname : p.fileName? = some name)
    (hp : p.components ≠ [.normal name]) (h : v.contains p = true) :
    v.contains (directoryOf p) = true := by
  obtain ⟨q, hparent, -, ⟨-, -, hbare⟩ | ⟨hq, hdir, -⟩⟩ := directoryOf_cases hname
  · exact absurd hbare hp
  · rw [hdir]
    exact contains_parent (no_link_of_isRegular hv) h hname hparent hq

/-- The components of names below a directory, and the location that they spell. -/
theorem join_names (hdir : directory.text ≠ "") (hr : r.components = names.map .normal) :
    (directory.join r).components = directory.components ++ names.map .normal ∧
      v.spelled (directory.join r) = v.spelled directory ++ names := by
  obtain ⟨hrelative, -, hinner⟩ := relative_of_names hr
  refine ⟨by rw [components_join hdir hrelative, hinner], ?_⟩
  rw [spelled, spelled, isAbsolute_join hdir hrelative, foldl_advance_join hdir hrelative,
    foldl_advance_of_inner hinner]

theorem contains_directoryOf_join (hv : v.isRegular = true) (hdir : v.contains directory = true)
    (hr : r.components = [.normal name]) : v.contains (directoryOf (directory.join r)) = true := by
  have htext := text_ne_of_contains hdir
  have hjoin := (join_names htext (hr.trans List.map_singleton.symm) (v := v)).1
  obtain ⟨q, hparent, hbelow, ⟨-, -, hbare⟩ | ⟨-, hq, -⟩⟩ :=
    directoryOf_cases (fileName?_of_components hjoin)
  · rw [hjoin] at hbare
    simp [components_ne_nil htext] at hbare
  · rw [hq]
    exact contains_parent_join (no_link_of_isRegular hv) hdir hr hparent

/-! ## Normal forms -/

/-- The normal form of what is there is the way to the location that it spells. -/
theorem components_normalize (hv : v.isRegular = true) (h : v.contains p = true) :
    (normalize v p).components = .root :: (v.spelled p).map .normal := by
  rw [normalize_of_contains hv h, components_pathOf (canonical_of_contains hv h).2]

/-- The same holds of what is not there, if it has more than its name and its parent is there. -/
theorem normalize_resolved (hv : v.isRegular = true) (hname : p.fileName? = some name)
    (h : v.contains p = true ∨ p.components ≠ [.normal name] ∧ v.contains (directoryOf p) = true) :
    (normalize v p).components = .root :: (v.spelled p).map .normal := by
  by_cases hp : v.contains p = true
  · exact components_normalize hv hp
  obtain ⟨hmore, hthere⟩ := h.resolve_left hp
  obtain ⟨q, hparent, hbelow, ⟨-, -, hbare⟩ | ⟨hq, hdir, -⟩⟩ := directoryOf_cases hname
  · exact absurd hbare hmore
  rw [hdir] at hthere
  obtain ⟨hcanonical, hnames⟩ := canonical_of_contains hv hthere
  obtain ⟨fault, hfault⟩ := canonical_of_not_contains (by simpa using hp)
  have hform : normalize v p = (pathOf (v.spelled q)).child name := by
    simp [normalize, hfault, hparent, hname, hq, hcanonical]
  have htext : (pathOf (v.spelled q)).text ≠ "" := by simp [pathOf]
  rw [hform, (below_child htext hbelow.isName).components, components_pathOf hnames,
    hbelow.spelled, List.map_append]
  rfl

theorem normalize_unresolved (hname : p.fileName? = some name) (hp : v.contains p = false)
    (h : p.components = [.normal name] ∨ v.contains (directoryOf p) = false) :
    normalize v p = p := by
  obtain ⟨fault, hfault⟩ := canonical_of_not_contains hp
  obtain ⟨q, hparent, -, ⟨hq, -, -⟩ | ⟨hq, hdir, hmore⟩⟩ := directoryOf_cases hname
  · simp [normalize, hfault, hparent, hname, hq]
  · obtain ⟨fault', hfault'⟩ := canonical_of_not_contains (hdir ▸ h.resolve_left hmore)
    simp [normalize, hfault, hparent, hname, hq, hfault']

/-! ## Registering -/

/-- One watcher has become the other by registering more files and directories, whatever the file
tree was each time. -/
inductive Later : Watcher → Watcher → Prop
  | refl (w : Watcher) : Later w w
  | file {w u u' : Watcher} {v : Volume} {p : Path} (h : Later w u)
      (hnext : u.watchFile v p = .ok u') : Later w u'
  | directory {w u u' : Watcher} {v : Volume} {p : Path} (h : Later w u)
      (hnext : u.watchDirectory v p = .ok u') : Later w u'

theorem Later.grows (h : Later w w') : Service.Grows w w' := by
  induction h with
  | refl => exact .refl _
  | file _ hnext ih => exact ih.trans (.of_watchFile hnext)
  | directory _ hnext ih => exact ih.trans (.of_watchDirectory hnext)

theorem isWatching_iff : w.isWatching v p = true ↔
    (∃ f ∈ w.files, (normalize v p).components = f.components) ∨
      ∃ d ∈ w.directories, d.components <+: (normalize v p).components := by
  simp [isWatching, same, startsWith]

theorem Later.isWatching (h : Later w w') (hscope : w.isWatching v p = true) :
    w'.isWatching v p = true := by
  rw [isWatching_iff] at hscope ⊢
  rcases hscope with ⟨f, hf, hsame⟩ | ⟨d, hd, hstart⟩
  · exact Or.inl ⟨f, h.grows.files hf, hsame⟩
  · exact Or.inr ⟨d, h.grows.directories hd, hstart⟩

/-- Registering a file brings into scope what has its normal form. -/
theorem isWatching_watchFile (h : w.watchFile v₀ p = .ok w') : w'.isWatching v q = true ↔
    w.isWatching v q = true ∨ (normalize v q).components = (normalize v₀ p).components := by
  obtain ⟨-, watches, rfl⟩ := Service.watchFile_eq_ok h
  simp only [isWatching_iff, List.mem_append, List.mem_singleton, or_and_right, exists_or,
    exists_eq_left]
  exact or_right_comm

/-- Registering a directory brings into scope what starts with its normal form. -/
theorem isWatching_watchDirectory (h : w.watchDirectory v₀ p = .ok w') :
    w'.isWatching v q = true ↔
      w.isWatching v q = true ∨ (normalize v₀ p).components <+: (normalize v q).components := by
  obtain ⟨-, watches, rfl⟩ := Service.watchDirectory_eq_ok h
  simp only [isWatching_iff, List.mem_append, List.mem_singleton, or_and_right, exists_or,
    exists_eq_left]
  exact or_assoc.symm

/-! ## Files -/

/-- The name of a file in its directory, if that is there, has the way to the file as normal form. -/
theorem normalize_child (hv : v.isRegular = true) (hname : p.fileName? = some name)
    (hdir : v.contains (directoryOf p) = true) :
    (normalize v ((directoryOf p).child name)).components = .root :: (v.spelled p).map .normal := by
  have hisName := isName_of_fileName? hname
  have htext := text_ne_of_contains hdir
  have hbelow := below_child htext hisName
  have hthere : v.contains (directoryOf ((directoryOf p).child name)) = true :=
    contains_directoryOf_join hv hdir (components_of_isName hisName)
  have hmore : ((directoryOf p).child name).components ≠ [.normal name] := by
    rw [hbelow.components]
    simp [components_ne_nil htext]
  rw [normalize_resolved hv (fileName?_of_components hbelow.components) (Or.inr ⟨hmore, hthere⟩),
    hbelow.spelled, ← spelled_directoryOf hname]

/-- A registered file stays in scope, whether it is there or not. Let a file be registered in one
file tree, and let its directory be there in another, neither with links. Then the name in this
directory is in scope, if the file was there when it was registered, or was given with more than its
name. A bare name that was not there is not brought into scope by registering it, not even after the
file has been made. -/
theorem watchFile_keeps_scope (w₀ w₁ w₂ : Watcher) (v₀ v : Volume) (p : Path) (name : String)
    (hregular : v₀.isRegular = true ∧ v.isRegular = true) (hhome : v.home = v₀.home)
    (hname : p.fileName? = some name) (hfile : w₀.watchFile v₀ p = .ok w₁)
    (hlater : Later w₁ w₂) (hdir : v.contains (directoryOf p) = true) :
    (v₀.contains p = true ∨ p.components ≠ [.normal name] →
      w₂.isWatching v ((directoryOf p).child name) = true) ∧
    (w₁.isWatching v ((directoryOf p).child name) = true ↔
      w₀.isWatching v ((directoryOf p).child name) = true ∨
        v₀.contains p = true ∨ p.components ≠ [.normal name]) := by
  have hnow := normalize_child hregular.2 hname hdir
  rw [spelled_congr hhome] at hnow
  have hscope : w₁.isWatching v ((directoryOf p).child name) = true ↔
      w₀.isWatching v ((directoryOf p).child name) = true ∨
        v₀.contains p = true ∨ p.components ≠ [.normal name] := by
    rw [isWatching_watchFile hfile, hnow]
    refine or_congr_right ⟨fun hsame => ?_, fun hgiven => ?_⟩
    · by_contra hnone
      rw [not_or, Bool.not_eq_true, not_ne_iff] at hnone
      rw [normalize_unresolved hname hnone.1 (Or.inl hnone.2), hnone.2] at hsame
      cases hsame
    · have hfirst := (Service.watchFile_eq_ok hfile).1
      exact (normalize_resolved hregular.1 hname (hgiven.imp_right fun h => ⟨h, hfirst⟩)).symm
  exact ⟨fun h => hlater.isWatching (hscope.mpr (Or.inr h)), hscope⟩

/-- A current directory with a directory of sources. -/
def withSources (here sources : Volume.Entries) : Volume where
  home := ["w"]
  root := [("w", .directory (("src", .directory sources) :: here))]

theorem exists_watchFile (w : Watcher) (h : v.contains (directoryOf p) = true) :
    ∃ w', w.watchFile v p = .ok w' := by
  obtain ⟨location, e, hloc⟩ := contains_iff.mp h
  simp [watchFile, receive, hloc, bind, Except.bind, pure, Except.pure]

theorem exists_watchDirectory (w : Watcher) (h : v.contains p = true) :
    ∃ w', w.watchDirectory v p = .ok w' := by
  obtain ⟨location, e, hloc⟩ := contains_iff.mp h
  simp [watchDirectory, receive, hloc, bind, Except.bind, pure, Except.pure]

/-- A file that is registered before it is made is in scope before and after. -/
theorem watchFile_keeps_scope_unmadeFile : ∃ w,
    ({ extensions := ["rs"] } : Watcher).watchFile (withSources [] []) ⟨"src/a.rs"⟩ = .ok w ∧
    w.isWatching (withSources [] []) ⟨"src/a.rs"⟩ = true ∧
    w.isWatching (withSources [] [("a.rs", .file (.text ""))]) ⟨"src/a.rs"⟩ = true := by
  obtain ⟨w, hw⟩ := exists_watchFile (v := withSources [] []) (p := ⟨"src/a.rs"⟩)
    { extensions := ["rs"] } (by decide +kernel)
  refine ⟨w, hw, ?_, ?_⟩
  · exact (watchFile_keeps_scope _ w w (withSources [] []) (withSources [] []) ⟨"src/a.rs"⟩ "a.rs"
      (by decide +kernel) rfl (by decide +kernel) hw (.refl w) (by decide +kernel)).1
      (Or.inr (by decide +kernel))
  · exact (watchFile_keeps_scope _ w w (withSources [] [])
      (withSources [] [("a.rs", .file (.text ""))]) ⟨"src/a.rs"⟩ "a.rs" (by decide +kernel) rfl
      (by decide +kernel) hw (.refl w) (by decide +kernel)).1 (Or.inr (by decide +kernel))

/-- A bare name that is registered before the file is made is not in scope, before or after. -/
theorem unmade_bare_file_is_out_of_scope : ∃ w,
    ({ extensions := ["rs"] } : Watcher).watchFile (withSources [] []) ⟨"a.rs"⟩ = .ok w ∧
    (directoryOf ⟨"a.rs"⟩).child "a.rs" = ⟨"./a.rs"⟩ ∧
    w.isWatching (withSources [] []) ⟨"./a.rs"⟩ = false ∧
    w.isWatching (withSources [("a.rs", .file (.text ""))] []) ⟨"./a.rs"⟩ = false := by
  obtain ⟨w, hw⟩ := exists_watchFile (v := withSources [] []) (p := ⟨"a.rs"⟩)
    { extensions := ["rs"] } (by decide +kernel)
  refine ⟨w, hw, by decide +kernel, ?_, ?_⟩
  · rw [← Bool.not_eq_true, isWatching_watchFile hw]
    decide +kernel
  · rw [← Bool.not_eq_true, isWatching_watchFile hw]
    decide +kernel

/-! ## Directories -/

theorem startsWith_iff : p.startsWith q = true ↔ q.components <+: p.components := by
  simp [startsWith]

/-- Names below a directory start with the normal form of the directory only if the directory
does. -/
theorem startsWith_join (hv : v₀.isRegular = true) (h : v₀.contains directory = true)
    (hr : r.components = names.map .normal) :
    (normalize v₀ directory).components <+: (directory.join r).components ↔
      (normalize v₀ directory).components <+: directory.components := by
  have htext := text_ne_of_contains h
  rw [(join_names htext hr (v := v₀)).1, components_normalize hv h]
  refine ⟨fun hstart => ?_, fun hstart => hstart.trans (List.prefix_append _ _)⟩
  have habsolute : directory.isAbsolute = true := by
    obtain ⟨c, cs, hcs⟩ := List.exists_cons_of_ne_nil (components_ne_nil htext)
    rw [hcs, List.cons_append, List.cons_prefix_cons] at hstart
    exact isAbsolute_of_root (hcs.trans (by rw [← hstart.1]))
  refine List.prefix_of_prefix_length_le hstart (List.prefix_append _ _) ?_
  have hdepth := length_foldl_advance directory.segments []
  rw [components_eq, lead, if_pos habsolute, spelled, if_pos habsolute]
  simpa using hdepth

/-- A directory that is given from the root and without a way back up does. -/
theorem startsWith_normalize (hv : v₀.isRegular = true) (h : v₀.contains directory = true)
    (habsolute : directory.isAbsolute = true) (hup : .parent ∉ directory.components) :
    (normalize v₀ directory).components <+: directory.components := by
  have hcomponents : directory.components = .root :: inner directory.segments := by
    rw [components_eq, lead, if_pos habsolute]
    rfl
  obtain ⟨names, hnames⟩ := names_of_inner fun hp => hup (hcomponents ▸ List.mem_cons_of_mem _ hp)
  rw [components_normalize hv h, hcomponents, spelled, if_pos habsolute,
    foldl_advance_of_inner hnames, hnames, List.nil_append]

/-- Names below a directory have a normal form that starts with that of the directory if their parent
is there. If it is not, they are left as they were spelled, and so the spelling of the directory
decides. -/
theorem prefix_normalize_join (hv₀ : v₀.isRegular = true) (hv : v.isRegular = true)
    (hhome : v.home = v₀.home) (hfirst : v₀.contains directory = true)
    (hdir : v.contains directory = true) (hr : r.components = names.map .normal) (hne : names ≠ []) :
    (normalize v₀ directory).components <+: (normalize v (directory.join r)).components ↔
      v.contains (directoryOf (directory.join r)) = true ∨
        (normalize v₀ directory).components <+: directory.components := by
  have htext := text_ne_of_contains hdir
  obtain ⟨front, last, rfl⟩ : ∃ front last, names = front ++ [last] :=
    ⟨_, _, (List.dropLast_append_getLast hne).symm⟩
  obtain ⟨hcomponents, hspelled⟩ := join_names htext hr (v := v)
  have hlast : (directory.join r).components =
      directory.components ++ front.map .normal ++ [.normal last] := by
    rw [hcomponents, List.map_append, List.append_assoc]
    rfl
  have hname := fileName?_of_components hlast
  have hmore : (directory.join r).components ≠ [.normal last] := by
    intro hone
    rw [hlast, List.append_left_eq_self, List.append_eq_nil_iff] at hone
    exact components_ne_nil htext hone.1
  cases hthere : v.contains (directoryOf (directory.join r)) with
  | true =>
    -- the normal form is the way to a location below that of the directory
    have hform := normalize_resolved hv hname (Or.inr ⟨hmore, hthere⟩)
    rw [hspelled, spelled_congr hhome, List.map_append, ← List.cons_append,
      ← components_normalize hv₀ hfirst] at hform
    simp [hform]
  | false =>
    have hgone : v.contains (directory.join r) = false := by
      by_contra h
      rw [Bool.not_eq_false] at h
      rw [contains_directoryOf hv hname hmore h] at hthere
      cases hthere
    rw [normalize_unresolved hname hgone (Or.inr hthere), startsWith_join hv₀ hfirst hr]
    simp

/-- What is below a registered directory stays in scope. Let a directory be registered in one file
tree and be there in another, neither with links, and take names below it. They are in scope if their
parent is there, or if the path that was registered starts with its own canonical path; else
registering it does nothing for them. The parent is there for a name in the directory itself, and a
path from the root without a way back up starts with its canonical path. -/
theorem watchDirectory_keeps_scope (w₀ w₁ w₂ : Watcher) (v₀ v : Volume) (directory r : Path)
    (names : List String) (hregular : v₀.isRegular = true ∧ v.isRegular = true)
    (hhome : v.home = v₀.home) (hwatch : w₀.watchDirectory v₀ directory = .ok w₁)
    (hlater : Later w₁ w₂) (hdir : v.contains directory = true)
    (hr : r.components = names.map .normal) (hne : names ≠ []) :
    (v.contains (directoryOf (directory.join r)) = true ∨
        directory.startsWith (normalize v₀ directory) = true →
      w₂.isWatching v (directory.join r) = true) ∧
    (w₁.isWatching v (directory.join r) = true ↔ w₀.isWatching v (directory.join r) = true ∨
      v.contains (directoryOf (directory.join r)) = true ∨
        directory.startsWith (normalize v₀ directory) = true) ∧
    (names.length = 1 → v.contains (directoryOf (directory.join r)) = true) ∧
    (directory.isAbsolute = true → .parent ∉ directory.components →
      directory.startsWith (normalize v₀ directory) = true) := by
  have hfirst := (Service.watchDirectory_eq_ok hwatch).1
  have hscope : w₁.isWatching v (directory.join r) = true ↔
      w₀.isWatching v (directory.join r) = true ∨
        v.contains (directoryOf (directory.join r)) = true ∨
          directory.startsWith (normalize v₀ directory) = true := by
    rw [isWatching_watchDirectory hwatch, startsWith_iff,
      prefix_normalize_join hregular.1 hregular.2 hhome hfirst hdir hr hne]
  refine ⟨fun h => hlater.isWatching (hscope.mpr (Or.inr h)), hscope, ?_, ?_⟩
  · intro hone
    obtain ⟨name, rfl⟩ := List.length_eq_one_iff.mp hone
    exact contains_directoryOf_join hregular.2 hdir hr
  · intro habsolute hup
    exact startsWith_iff.mpr (startsWith_normalize hregular.1 hfirst habsolute hup)

/-- A file is in scope after it was removed, and after its directory was removed as well if the
registered directory was given from the root. -/
theorem watchDirectory_keeps_scope_removedFile : ∃ w w',
    ({ extensions := ["rs"] } : Watcher).watchDirectory
      (withSources [] [("a", .directory [("b.rs", .file (.text ""))])]) ⟨"src"⟩ = .ok w ∧
    w.isWatching (withSources [] [("a", .directory [])]) ⟨"src/a/b.rs"⟩ = true ∧
    ({ extensions := ["rs"] } : Watcher).watchDirectory
      (withSources [] [("a", .directory [("b.rs", .file (.text ""))])]) ⟨"/w/src"⟩ = .ok w' ∧
    w'.isWatching (withSources [] []) ⟨"/w/src/a/b.rs"⟩ = true := by
  obtain ⟨w, hw⟩ := exists_watchDirectory
    (v := withSources [] [("a", .directory [("b.rs", .file (.text ""))])]) (p := ⟨"src"⟩)
    { extensions := ["rs"] } (by decide +kernel)
  obtain ⟨w', hw'⟩ := exists_watchDirectory
    (v := withSources [] [("a", .directory [("b.rs", .file (.text ""))])]) (p := ⟨"/w/src"⟩)
    { extensions := ["rs"] } (by decide +kernel)
  refine ⟨w, w', hw, ?_, hw', ?_⟩
  · exact (watchDirectory_keeps_scope _ w w _ (withSources [] [("a", .directory [])]) ⟨"src"⟩
      ⟨"a/b.rs"⟩ ["a", "b.rs"] (by decide +kernel) rfl hw (.refl w) (by decide +kernel)
      (by decide +kernel) (by decide)).1 (Or.inl (by decide +kernel))
  · exact (watchDirectory_keeps_scope _ w' w' _ (withSources [] []) ⟨"/w/src"⟩ ⟨"a/b.rs"⟩
      ["a", "b.rs"] (by decide +kernel) rfl hw' (.refl w') (by decide +kernel) (by decide +kernel)
      (by decide)).1 (Or.inr (by decide +kernel))

/-- A file below a registered relative directory is out of scope after the directory that it stood in
was removed. -/
theorem removed_subtree_is_out_of_scope : ∃ w,
    ({ extensions := ["rs"] } : Watcher).watchDirectory
      (withSources [] [("a", .directory [("b.rs", .file (.text ""))])]) ⟨"src"⟩ = .ok w ∧
    (withSources [] []).contains ⟨"src"⟩ = true ∧ (Path.mk "src").join ⟨"a/b.rs"⟩ = ⟨"src/a/b.rs"⟩ ∧
    w.isWatching (withSources [] []) ⟨"src/a/b.rs"⟩ = false := by
  obtain ⟨w, hw⟩ := exists_watchDirectory
    (v := withSources [] [("a", .directory [("b.rs", .file (.text ""))])]) (p := ⟨"src"⟩)
    { extensions := ["rs"] } (by decide +kernel)
  refine ⟨w, hw, by decide +kernel, by decide +kernel, ?_⟩
  rw [← Bool.not_eq_true, isWatching_watchDirectory hw]
  decide +kernel

end Watcher

end CallGraph
