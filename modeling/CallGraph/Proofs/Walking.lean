import CallGraph.Proofs.Parents
import CallGraph.Sources
import Mathlib.Data.List.Nodup

/-!
What a walk of a directory lists.

A walk goes through the entries of a directory and enters the directories among them, with the rules
that it has met on the way. What it lists is said here without a walk: an entry is `Shown` if the
rules of the directories above it keep it, and keep every directory between it and the one that is
walked.

What is proved, in trees whose names can be segments of paths and differ within each directory:
1. `mem_walkEntry`, `mem_walkEntries`: a walk lists what is shown, by induction on entries.
2. `nodup_walk`: nothing is listed twice.
3. `Sources.lists_walked`: so the walker lists each file that is not ignored once (`Sources.Lists`),
   and no two of its paths are the same.
-/

namespace CallGraph

namespace Volume

/-! ## File trees -/

mutual

/-- Whether the names in each directory of an entry can be segments of paths and differ. -/
def Entry.isTree : Entry → Bool
  | .file _ => true
  | .directory es => Entries.areTrees es
  | .link _ => true

/-- Whether the names of some entries can be segments of paths and differ, and all entries are
trees. -/
def Entries.areTrees : List (String × Entry) → Bool
  | [] => true
  | (name, e) :: es =>
    Path.isName name && !(es.map Prod.fst).contains name && e.isTree && Entries.areTrees es

end

/-- Whether the names in each directory of a volume can be segments of paths and differ. -/
def isTree (v : Volume) : Bool := Entries.areTrees v.root

variable {v : Volume} {location : List String}

theorem Entries.areTrees_cons {name : String} {e : Entry} {es : Entries} :
    areTrees ((name, e) :: es) = true ↔ Path.isName name = true ∧ name ∉ es.map Prod.fst ∧
      e.isTree = true ∧ areTrees es = true := by
  rw [areTrees]
  simp [and_assoc]

theorem Entries.areTrees_iff {es : Entries} : areTrees es = true ↔
    (es.map Prod.fst).Nodup ∧ ∀ x ∈ es, Path.isName x.1 = true ∧ x.2.isTree = true := by
  induction es with
  | nil => simp [areTrees]
  | cons x es ih =>
    obtain ⟨name, e⟩ := x
    rw [areTrees_cons, ih, List.map_cons, List.nodup_cons, List.forall_mem_cons]
    tauto

theorem Entries.get?_of_mem {es : Entries} (hes : areTrees es = true) {x : String × Entry}
    (hx : x ∈ es) : es.get? x.1 = some x.2 := by
  have hnodup := (areTrees_iff.mp hes).1
  have hfind : es.find? (fun y => y.1 == x.1) = some x := by
    cases hf : es.find? (fun y => y.1 == x.1) with
    | none => simpa using List.find?_eq_none.mp hf x hx
    | some y =>
      have hname : y.1 = x.1 := by simpa using List.find?_some hf
      rw [List.inj_on_of_nodup_map hnodup (List.mem_of_find?_eq_some hf) hx hname]
  rw [get?, hfind]
  rfl

theorem tree_of_entryAt (hv : v.isTree = true) {e : Entry} (h : v.entryAt location = some e) :
    e.isTree = true ∧ ∀ n ∈ location, Path.isName n = true :=
  Entries.inherits_of_at? (fun e => e.isTree = true)
    (fun _ hsub => (Entries.areTrees_iff.mp hsub).2) hv h

theorem entryAt_of_mem {es : Entries} (hes : Entries.areTrees es = true)
    (h : v.entryAt location = some (.directory es)) {x : String × Entry} (hx : x ∈ es) :
    v.entryAt (location ++ [x.1]) = some x.2 := by
  rw [entryAt] at h ⊢
  rw [Entries.at?_append, h, Option.bind_some, Entry.below?_directory, Entries.at?,
    Entries.get?_of_mem hes hx]

end Volume

namespace Ignore

open Volume

variable {v : Volume} {location names : List String}

/-! ## What is shown -/

/-- Whether rules keep the entry at a location. -/
def keeps (v : Volume) (location : List String) : Bool :=
  isKept (levelsAbove v location) location (v.isDirectoryAt location)

/-- Some names lead from a directory to an entry that is no directory, and the rules keep it and every
directory on the way. -/
structure Shown (v : Volume) (location names : List String) : Prop where
  entry : ∃ e, v.entryAt (location ++ names) = some e ∧ e.isDirectory = false
  kept : ∀ way, way <+: names → way ≠ [] → keeps v (location ++ way) = true

theorem levelsAbove_snoc (v : Volume) (location : List String) (name : String) :
    levelsAbove v (location ++ [name]) = levelAt v location :: levelsAbove v location := by
  have htake : ∀ n ∈ (List.range location.length).reverse,
      levelAt v ((location ++ [name]).take n) = levelAt v (location.take n) := by
    intro n hn
    rw [List.mem_reverse, List.mem_range] at hn
    rw [List.take_append_of_le_length (by omega)]
  rw [levelsAbove, levelsAbove, List.length_append, List.length_singleton, List.range_succ,
    List.reverse_append, List.reverse_singleton, List.singleton_append, List.map_cons,
    List.take_left, List.map_congr_left htake]

theorem shown_nil : Shown v location [] ↔
    ∃ e, v.entryAt location = some e ∧ e.isDirectory = false := by
  refine ⟨?_, ?_⟩
  · intro h
    simpa using h.entry
  · intro h
    refine ⟨by simpa using h, ?_⟩
    intro way hway hne
    exact absurd (List.prefix_nil.mp hway) hne

/-- What is shown below a directory is shown below the first directory on the way, which is kept. -/
theorem shown_cons {name : String} : Shown v location (name :: names) ↔
    keeps v (location ++ [name]) = true ∧ Shown v (location ++ [name]) names := by
  refine ⟨?_, ?_⟩
  · intro h
    refine ⟨h.kept [name] (List.prefix_append [name] names) (List.cons_ne_nil _ _), ?_, ?_⟩
    · simpa using h.entry
    · intro way hway _
      have hkept := h.kept (name :: way) ((List.prefix_cons_inj name).mpr hway)
        (List.cons_ne_nil _ _)
      rwa [List.append_cons] at hkept
  · intro h
    obtain ⟨hfirst, hrest⟩ := h
    refine ⟨by simpa using hrest.entry, ?_⟩
    intro way hway hne
    obtain rfl | ⟨way', rfl, hway'⟩ := List.prefix_cons_iff.mp hway
    · exact absurd rfl hne
    · rw [List.append_cons]
      by_cases hnil : way' = []
      · rwa [hnil, List.append_nil]
      · exact hrest.kept way' hway' hnil

/-- Below what is no directory nothing is shown. -/
theorem Shown.eq_nil (h : Shown v location names) (hd : v.isDirectoryAt location = false) :
    names = [] := by
  cases names with
  | nil => rfl
  | cons n ns =>
    obtain ⟨e, he, -⟩ := h.entry
    rw [entryAt_below hd] at he
    cases he

/-- What is shown below a directory is shown below one of its entries. -/
theorem Shown.exists_cons {es : Entries} (h : Shown v location names)
    (hd : v.entryAt location = some (.directory es)) :
    ∃ x ∈ es, ∃ rest, names = x.1 :: rest := by
  obtain ⟨e, he, hno⟩ := h.entry
  cases names with
  | nil =>
    rw [List.append_nil, hd] at he
    obtain rfl := Option.some.inj he
    cases hno
  | cons n ns =>
    rw [entryAt, Entries.at?_append] at he
    rw [entryAt] at hd
    rw [hd, Option.bind_some, Entry.below?_directory, Entries.at?_cons] at he
    obtain ⟨x, hx, -⟩ := Option.bind_eq_some_iff.mp he
    exact ⟨(n, x), Entries.mem_of_get? hx, ns, rfl⟩

/-! ## What is walked -/

theorem isDirectoryAt_of_entryAt {e : Entry} (h : v.entryAt location = some e) :
    v.isDirectoryAt location = e.isDirectory := by
  rw [isDirectoryAt, h]
  rfl

mutual

/-- From an entry that is kept a walk lists what is shown below it, or the entry itself. -/
theorem mem_walkEntry (location : List String) (e : Entry) (he : e.isTree = true)
    (h : v.entryAt location = some e) (l : List String) :
    l ∈ walkEntry v (levelsAbove v location) location e ↔
      ∃ names, l = location ++ names ∧ keeps v location = true ∧ Shown v location names := by
  have hd := isDirectoryAt_of_entryAt h
  have hleaf : e.isDirectory = false →
      (l ∈ (if isKept (levelsAbove v location) location false then [location] else []) ↔
        ∃ names, l = location ++ names ∧ keeps v location = true ∧ Shown v location names) := by
    intro hno
    rw [hno] at hd
    rw [keeps, hd]
    refine ⟨?_, ?_⟩
    · intro hl
      split at hl
      · next hkept => exact ⟨[], by simpa using hl, hkept, shown_nil.mpr ⟨e, h, hno⟩⟩
      · cases hl
    · intro hx
      obtain ⟨names, rfl, hkept, hshown⟩ := hx
      rw [hshown.eq_nil hd, if_pos hkept]
      simp
  cases e with
  | directory es =>
    rw [walkEntry, keeps, hd, Entry.isDirectory]
    refine ⟨?_, ?_⟩
    · intro hl
      split at hl
      · next hkept =>
        obtain ⟨x, hx, names, rfl, hshown⟩ :=
          (mem_walkEntries location es he (fun x hx => entryAt_of_mem he h hx) l).mp hl
        exact ⟨x.1 :: names, rfl, hkept, hshown⟩
      · cases hl
    · intro hx
      obtain ⟨names, rfl, hkept, hshown⟩ := hx
      obtain ⟨x, hx, rest, rfl⟩ := hshown.exists_cons h
      rw [if_pos hkept]
      exact (mem_walkEntries location es he (fun x hx => entryAt_of_mem he h hx) _).mpr
        ⟨x, hx, rest, rfl, hshown⟩
  | file content =>
    rw [walkEntry]
    · exact hleaf rfl
    · simp
  | link target =>
    rw [walkEntry]
    · exact hleaf rfl
    · simp

/-- In a directory a walk lists what is shown below its entries. -/
theorem mem_walkEntries (location : List String) (es : List (String × Entry))
    (hes : Entries.areTrees es = true) (h : ∀ x ∈ es, v.entryAt (location ++ [x.1]) = some x.2)
    (l : List String) :
    l ∈ walkEntries v (levelAt v location :: levelsAbove v location) location es ↔
      ∃ x ∈ es, ∃ names, l = location ++ x.1 :: names ∧ Shown v location (x.1 :: names) := by
  cases es with
  | nil => simp [walkEntries]
  | cons x es =>
    obtain ⟨name, e⟩ := x
    obtain ⟨-, -, hentry, hrest⟩ := Entries.areTrees_cons.mp hes
    rw [List.forall_mem_cons] at h
    have hfirst := mem_walkEntry (location ++ [name]) e hentry h.1 l
    rw [levelsAbove_snoc] at hfirst
    rw [walkEntries, List.mem_append, hfirst, mem_walkEntries location es hrest h.2 l,
      List.exists_mem_cons_iff]
    refine or_congr_left (exists_congr fun names => ?_)
    rw [← List.append_cons, shown_cons]

end

mutual

theorem nodup_walkEntry (location : List String) (e : Entry) (he : e.isTree = true)
    (h : v.entryAt location = some e) :
    (walkEntry v (levelsAbove v location) location e).Nodup := by
  cases e with
  | directory es =>
    rw [walkEntry]
    split
    · exact nodup_walkEntries location es he fun x hx => entryAt_of_mem he h hx
    · exact List.nodup_nil
  | file content =>
    rw [walkEntry]
    · split <;> simp
    · simp
  | link target =>
    rw [walkEntry]
    · split <;> simp
    · simp

/-- Entries with different names have different locations, and so has all that is below them. -/
theorem nodup_walkEntries (location : List String) (es : List (String × Entry))
    (hes : Entries.areTrees es = true) (h : ∀ x ∈ es, v.entryAt (location ++ [x.1]) = some x.2) :
    (walkEntries v (levelAt v location :: levelsAbove v location) location es).Nodup := by
  cases es with
  | nil => simp [walkEntries]
  | cons x es =>
    obtain ⟨name, e⟩ := x
    obtain ⟨-, hnew, hentry, hrest⟩ := Entries.areTrees_cons.mp hes
    rw [List.forall_mem_cons] at h
    rw [walkEntries, ← levelsAbove_snoc v location name, List.nodup_append]
    refine ⟨nodup_walkEntry (location ++ [name]) e hentry h.1, ?_, ?_⟩
    · rw [levelsAbove_snoc]
      exact nodup_walkEntries location es hrest h.2
    · intro l hl m hm heq
      rw [levelsAbove_snoc] at hm
      obtain ⟨names, rfl, -, -⟩ := (mem_walkEntry (location ++ [name]) e hentry h.1 l).mp hl
      obtain ⟨x, hx, names', hm, -⟩ := (mem_walkEntries location es hrest h.2 m).mp hm
      rw [← heq, ← List.append_cons, List.append_cancel_left_eq, List.cons.injEq] at hm
      exact hnew (hm.1 ▸ List.mem_map_of_mem hx)

end

theorem mem_walk (hv : v.isTree = true) (h : v.isDirectoryAt location = true) :
    names ∈ walk v location ↔ Shown v location names := by
  obtain ⟨es, hes⟩ := isDirectoryAt_iff.mp h
  have htree : Entries.areTrees es = true := (tree_of_entryAt hv hes).1
  have hbelow := fun x (hx : x ∈ es) => entryAt_of_mem htree hes hx
  unfold walk
  simp only [hes, List.mem_map, mem_walkEntries location es htree hbelow]
  refine ⟨?_, ?_⟩
  · intro hx
    obtain ⟨l, ⟨x, -, rest, rfl, hshown⟩, rfl⟩ := hx
    rwa [List.drop_left]
  · intro hshown
    obtain ⟨x, hx, rest, rfl⟩ := hshown.exists_cons hes
    exact ⟨_, ⟨x, hx, rest, rfl, hshown⟩, List.drop_left⟩

theorem nodup_walk (hv : v.isTree = true) (location : List String) : (walk v location).Nodup := by
  unfold walk
  split
  · next es hes =>
    have htree : Entries.areTrees es = true := (tree_of_entryAt hv hes).1
    have hbelow := fun x (hx : x ∈ es) => entryAt_of_mem htree hes hx
    refine List.Nodup.map_on ?_ (nodup_walkEntries location es htree hbelow)
    -- all that is listed starts with the location, so cutting it off keeps apart what differs
    intro l hl m hm heq
    obtain ⟨x, -, rest, rfl, -⟩ := (mem_walkEntries location es htree hbelow l).mp hl
    obtain ⟨y, -, rest', rfl, -⟩ := (mem_walkEntries location es htree hbelow m).mp hm
    rw [List.drop_left, List.drop_left] at heq
    rw [heq]
  · exact List.nodup_nil

end Ignore

/-! ## Paths of what is walked -/

namespace Path

theorem components_below {p : Path} {names : List String} (hp : p.text ≠ "")
    (h : ∀ n ∈ names, isName n = true) :
    (names.foldl child p).components = p.components ++ names.map .normal := by
  induction names generalizing p with
  | nil => simp
  | cons n ns ih =>
    rw [List.forall_mem_cons] at h
    have hbelow := below_child hp h.1
    have htext : (p.child n).text ≠ "" := by
      intro hempty
      have hnone : (p.child n).components = [] := by
        rw [show p.child n = ⟨""⟩ from congrArg Path.mk hempty]
        rfl
      rw [hbelow.components] at hnone
      simp at hnone
    rw [List.foldl_cons, ih htext h.2, hbelow.components, List.map_cons, List.append_assoc]
    rfl

theorem same_iff {p q : Path} : p.same q = true ↔ p.components = q.components := beq_iff_eq

end Path

namespace Sources

open Volume

variable {v : Volume} {directory : Path}

/-- The path leads from a directory to an entry that is no directory and is not ignored. -/
def Listed (v : Volume) (directory p : Path) : Prop :=
  ∃ location e names, v.locate true directory = .ok (.taken location e) ∧
    Ignore.Shown v location names ∧ p = names.foldl Path.child directory

/-- A list of paths has each file that is allowed once, in any order. What is no file may be on the
list as well. -/
structure Lists (v : Volume) (allowed : Path → Prop) (entries : List Path) : Prop where
  once : entries.Pairwise fun p q => p.same q = false
  files : ∀ p, v.isFile p = true → (p ∈ entries ↔ allowed p)

/-- In a tree the walker lists each file that is not ignored once. -/
theorem lists_walked (hv : v.isTree = true) (hd : v.isDirectory directory = true)
    (hdash : directory.same ⟨"-"⟩ = false) : Lists v (Listed v directory) (walked v directory) := by
  obtain ⟨location, e, hloc⟩ : ∃ location e, v.locate true directory = .ok (.taken location e) := by
    refine contains_iff.mp ?_
    rw [isDirectory] at hd
    cases he : v.entry? directory with
    | none => simp [he] at hd
    | some e => simp [contains, he]
  have hwalked : walked v directory =
      (Ignore.walk v location).map fun names => names.foldl Path.child directory := by
    simp [walked, hdash, hloc]
  have hdirectory : v.isDirectoryAt location = true := by
    have hentry : v.entry? directory = some e := by simp [hloc, Volume.entry?]
    have hstands : v.entryAt location = some e := locate_stands hloc
    rw [Ignore.isDirectoryAt_of_entryAt hstands]
    simpa [isDirectory, hentry] using hd
  have htext : directory.text ≠ "" := text_ne_of_contains (contains_iff.mpr ⟨location, e, hloc⟩)
  have hnames : ∀ names ∈ Ignore.walk v location, ∀ n ∈ names, Path.isName n = true := by
    intro names hmem n hn
    obtain ⟨x, hx, -⟩ := ((Ignore.mem_walk hv hdirectory).mp hmem).entry
    exact (tree_of_entryAt hv hx).2 n (List.mem_append_right _ hn)
  rw [hwalked]
  refine ⟨?_, ?_⟩
  · rw [List.pairwise_map]
    refine (Ignore.nodup_walk hv location).imp_of_mem ?_
    intro names names' hmem hmem' hne
    rw [← Bool.not_eq_true, Path.same_iff, Path.components_below htext (hnames names hmem),
      Path.components_below htext (hnames names' hmem'), List.append_cancel_left_eq]
    exact fun heq => hne (List.map_injective_iff.mpr (fun _ _ => Path.Component.normal.inj) heq)
  · intro p _
    rw [List.mem_map]
    refine ⟨?_, ?_⟩
    · intro hx
      obtain ⟨names, hmem, rfl⟩ := hx
      exact ⟨location, e, names, hloc, (Ignore.mem_walk hv hdirectory).mp hmem, rfl⟩
    · intro hx
      obtain ⟨location', e', names, hloc', hshown, rfl⟩ := hx
      rw [hloc] at hloc'
      injection hloc' with hspot
      injection hspot with hsame
      subst hsame
      exact ⟨names, (Ignore.mem_walk hv hdirectory).mpr hshown, rfl⟩

end Sources

end CallGraph
