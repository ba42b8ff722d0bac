import CallGraph.Proofs.Coverage
import CallGraph.Proofs.Walking
import Mathlib.Data.List.Forall2
import Mathlib.Data.List.Induction
import Mathlib.Data.List.Lex
import Mathlib.Data.List.Sort
import Mathlib.Data.Prod.Lex
import Mathlib.Data.String.Basic

/-!
Which sources are collected, and in which order.

Inputs are files and directories in any order; they may repeat and overlap, and a directory is
listed by a walker in whatever order the file system has. Still a list of inputs has one list of
sources. Each directory comes in the order of its paths, by components (`Stands`). Of paths that are
the same, the first position counts (`KeepsFirst`). Neither says anything about a walker, so all
walkers that list the same files lead to the same sources.

What is proved:
1. `Path.lt_iff`: paths are ordered as lists of components are, so a sorted list of paths no two of
   which are the same is given by its members.
2. `ofInput?_eq_some_iff`, `expand_eq_ok_iff`, `expand_eq_error_iff`: what inputs stand for, and which
   of them is blamed.
3. `keepsFirst_distinctFrom`: dropping repeated paths keeps first occurrences.
-/

namespace CallGraph

/-! ## The order of paths -/

namespace Path

/-- A pair that stands to other pairs as a component to other components. -/
def Component.key : Component → ℕ ×ₗ String
  | normal name => toLex (3, name)
  | c => toLex (c.rank, "")

theorem Component.lt_iff {a b : Component} : a.lt b = true ↔ a.key < b.key := by
  cases a <;> cases b <;> simp [Component.lt, Component.key, Component.rank, Prod.Lex.toLex_lt_toLex]

theorem Component.key_injective : Function.Injective Component.key := by
  intro a b h
  cases a <;> cases b <;> simp_all [Component.key, Component.rank]

/-- A list of pairs that stands to other lists as a path to other paths. -/
def key (p : Path) : List (ℕ ×ₗ String) := p.components.map Component.key

theorem componentsLt_iff {as bs : List Component} :
    componentsLt as bs = true ↔ as.map Component.key < bs.map Component.key := by
  induction as generalizing bs with
  | nil => cases bs <;> simp [componentsLt]
  | cons a as ih =>
    cases bs with
    | nil => simp [componentsLt]
    | cons b bs =>
      rw [componentsLt, List.map_cons, List.map_cons, List.cons_lt_cons_iff, ← ih]
      rcases lt_trichotomy a.key b.key with h | h | h
      · simp [Component.lt_iff.mpr h, h]
      · obtain rfl := Component.key_injective h
        have hself : a.lt a = false := by
          rw [← Bool.not_eq_true, Component.lt_iff]
          exact lt_irrefl _
        simp [hself]
      · have hnot : a.lt b = false := by
          rw [← Bool.not_eq_true, Component.lt_iff]
          exact h.not_gt
        simp [hnot, Component.lt_iff.mpr h, h.not_gt, h.ne']

theorem lt_iff {p q : Path} : p.lt q = true ↔ p.key < q.key := componentsLt_iff

theorem same_comm (p q : Path) : p.same q = q.same p := BEq.comm

theorem same_eq_false_iff {p q : Path} : p.same q = false ↔ p.key ≠ q.key := by
  rw [← Bool.not_eq_true, same_iff, not_iff_not]
  exact ⟨congrArg (List.map Component.key), fun h => Component.key_injective.list_map h⟩

end Path

namespace Sources

open Volume

variable {v : Volume} {allowed : Path → Path → Prop} {extensions : List String} {walker : Walker}
  {input p : Path}

theorem notAfter_iff {p q : Path} : notAfter p q = true ↔ p.key ≤ q.key := by
  rw [notAfter, Bool.not_eq_true', ← Bool.not_eq_true, Path.lt_iff, not_lt]

theorem select_pairwise (v : Volume) (extensions : List String) (entries : List Path) :
    (select v extensions entries).Pairwise fun p q => p.key ≤ q.key := by
  have hsorted : (select v extensions entries).Pairwise fun p q => notAfter p q = true := by
    apply List.pairwise_mergeSort
    · intro a b c hab hbc
      rw [notAfter_iff] at *
      exact le_trans hab hbc
    · intro a b
      rw [Bool.or_eq_true, notAfter_iff, notAfter_iff]
      exact le_total _ _
  exact hsorted.imp notAfter_iff.mp

/-- Entries no two of which are the same are strictly ascending once they are sorted. -/
theorem select_ascending {entries : List Path}
    (h : entries.Pairwise fun p q => p.same q = false) :
    (select v extensions entries).Pairwise fun p q => p.lt q = true := by
  have hdistinct : (select v extensions entries).Pairwise fun p q => p.key ≠ q.key := by
    have hentries := h.imp Path.same_eq_false_iff.mp
    have hfilter := hentries.sublist (List.filter_sublist
      (p := fun p => v.isFile p && p.hasExtension extensions))
    exact (List.mergeSort_perm _ notAfter).symm.pairwise hfilter fun hne => hne.symm
  refine (List.Pairwise.and (select_pairwise v extensions entries) hdistinct).imp ?_
  intro p q hpq
  exact Path.lt_iff.mpr (lt_of_le_of_ne hpq.1 hpq.2)

theorem eq_of_ascending {l m : List Path} (hl : l.Pairwise fun p q => p.lt q = true)
    (hm : m.Pairwise fun p q => p.lt q = true) (h : ∀ p, p ∈ l ↔ p ∈ m) : l = m := by
  have hasymm : ∀ a b : Path, a.lt b = true → b.lt a = true → a = b := by
    intro a b hab hba
    rw [Path.lt_iff] at hab hba
    exact absurd hab hba.not_gt
  have hirrefl : ∀ a : Path, ¬ a.lt a = true := by
    intro a ha
    exact lt_irrefl _ (Path.lt_iff.mp ha)
  have : Std.Antisymm fun p q : Path => p.lt q = true := ⟨hasymm⟩
  have : Std.Irrefl fun p q : Path => p.lt q = true := ⟨hirrefl⟩
  exact hl.eq_of_mem_iff hm h

/-! ## What inputs stand for -/

/-- What an input stands for: a file for itself, whatever its extension, and a directory for the files
that are allowed for it and have one of the extensions, in the order of their paths. -/
inductive Stands (v : Volume) (allowed : Path → Path → Prop) (extensions : List String)
    (input : Path) : List Path → Prop
  | file (h : v.isFile input = true) : Stands v allowed extensions input [input]
  | directory {paths : List Path} (h : v.isDirectory input = true)
      (ascending : paths.Pairwise fun p q => p.lt q = true)
      (members : ∀ p, p ∈ paths ↔
        allowed input p ∧ v.isFile p = true ∧ p.hasExtension extensions = true) :
      Stands v allowed extensions input paths

theorem isFile_eq_false_of_isDirectory (h : v.isDirectory p = true) : v.isFile p = false := by
  unfold isDirectory at h
  unfold isFile
  cases he : v.entry? p with
  | none => rfl
  | some e => cases e <;> simp_all [Entry.isFile, Entry.isDirectory]

theorem Stands.unique {paths paths' : List Path} (h : Stands v allowed extensions input paths)
    (h' : Stands v allowed extensions input paths') : paths = paths' := by
  cases h with
  | file hfile =>
    cases h' with
    | file => rfl
    | directory hdir => simp [isFile_eq_false_of_isDirectory hdir] at hfile
  | directory hdir hascending hmembers =>
    cases h' with
    | file hfile => simp [isFile_eq_false_of_isDirectory hdir] at hfile
    | directory _ hascending' hmembers' =>
      exact eq_of_ascending hascending hascending' fun p => by rw [hmembers, hmembers']

theorem stands_select {entries : List Path} (hdir : v.isDirectory input = true)
    (h : Lists v (allowed input) entries) :
    Stands v allowed extensions input (select v extensions entries) := by
  refine .directory hdir (select_ascending h.once) ?_
  intro p
  rw [mem_select]
  refine and_congr_left ?_
  intro hp
  exact h.files p hp.1

theorem ofInput?_eq_none_iff : ofInput? walker v extensions input = none ↔
    v.isFile input = false ∧ v.isDirectory input = false := by
  unfold ofInput?
  cases v.isFile input <;> cases v.isDirectory input <;> simp

theorem ofInput?_eq_some_iff
    (h : v.isDirectory input = true → Lists v (allowed input) (walker input)) {paths : List Path} :
    ofInput? walker v extensions input = some paths ↔ Stands v allowed extensions input paths := by
  have hsome : ∀ ps, ofInput? walker v extensions input = some ps →
      Stands v allowed extensions input ps := by
    intro ps hps
    unfold ofInput? at hps
    split at hps
    · next hfile =>
      obtain rfl := Option.some.inj hps
      exact .file hfile
    split at hps
    · next hdir =>
      obtain rfl := Option.some.inj hps
      exact stands_select hdir (h hdir)
    · cases hps
  refine ⟨hsome paths, ?_⟩
  intro hstands
  cases hx : ofInput? walker v extensions input with
  | none =>
    obtain ⟨hfile, hdir⟩ := ofInput?_eq_none_iff.mp hx
    cases hstands <;> simp_all
  | some ps => rw [(hsome ps hx).unique hstands]

/-- Inputs stand for what each of them stands for, one after the other. -/
theorem expand_eq_ok_iff {inputs all : List Path}
    (h : ∀ d ∈ inputs, v.isDirectory d = true → Lists v (allowed d) (walker d)) :
    expand walker v extensions inputs = .ok all ↔
      ∃ pieces, List.Forall₂ (Stands v allowed extensions) inputs pieces ∧
        all = pieces.flatten := by
  induction inputs generalizing all with
  | nil =>
    simp only [expand, List.forall₂_nil_left_iff, Except.ok.injEq]
    refine ⟨fun hall => ⟨[], rfl, hall.symm⟩, ?_⟩
    rintro ⟨pieces, rfl, rfl⟩
    rfl
  | cons input inputs ih =>
    rw [List.forall_mem_cons] at h
    rw [expand_cons_eq_ok_iff]
    refine ⟨?_, ?_⟩
    · rintro ⟨first, rest, hfirst, hrest, rfl⟩
      obtain ⟨pieces, hpieces, rfl⟩ := (ih h.2).mp hrest
      exact ⟨first :: pieces, .cons ((ofInput?_eq_some_iff h.1).mp hfirst) hpieces, rfl⟩
    · rintro ⟨pieces, hpieces, rfl⟩
      obtain ⟨first, pieces, hfirst, hrest, rfl⟩ := List.forall₂_cons_left_iff.mp hpieces
      exact ⟨first, pieces.flatten, (ofInput?_eq_some_iff h.1).mpr hfirst,
        (ih h.2).mpr ⟨pieces, hrest, rfl⟩, rfl⟩

/-- An input that names neither a file nor a directory. -/
def Missing (v : Volume) (input : Path) : Prop :=
  v.isFile input = false ∧ v.isDirectory input = false

theorem not_missing_of_ofInput? {paths : List Path}
    (h : ofInput? walker v extensions input = some paths) : ¬ Missing v input := by
  intro hmissing
  rw [ofInput?_eq_none_iff.mpr hmissing] at h
  cases h

theorem not_missing_of_expand {inputs all : List Path}
    (h : expand walker v extensions inputs = .ok all) : ∀ i ∈ inputs, ¬ Missing v i := by
  induction inputs generalizing all with
  | nil => simp
  | cons i inputs ih =>
    obtain ⟨first, rest, hfirst, hrest, -⟩ := expand_cons_eq_ok_iff.mp h
    rw [List.forall_mem_cons]
    exact ⟨not_missing_of_ofInput? hfirst, ih hrest⟩

theorem expand_cons_of_none {inputs : List Path}
    (h : ofInput? walker v extensions input = none) :
    expand walker v extensions (input :: inputs) =
      .error (.plain ("Path does not exist: " ++ input.text)) := by
  rw [expand, h]

theorem expand_cons_of_some {inputs paths : List Path}
    (h : ofInput? walker v extensions input = some paths) :
    expand walker v extensions (input :: inputs) =
      (expand walker v extensions inputs).map (paths ++ ·) := by
  rw [expand, h]
  cases expand walker v extensions inputs <;> rfl

/-- The first input that is missing is blamed, whatever a walker lists. -/
theorem expand_eq_error_iff {inputs : List Path} {failure : Failure} :
    expand walker v extensions inputs = .error failure ↔
      ∃ before input after, inputs = before ++ input :: after ∧ (∀ i ∈ before, ¬ Missing v i) ∧
        Missing v input ∧ failure = .plain ("Path does not exist: " ++ input.text) := by
  induction inputs with
  | nil => simp [expand]
  | cons i inputs ih =>
    cases hi : ofInput? walker v extensions i with
    | none =>
      have hmissing : Missing v i := ofInput?_eq_none_iff.mp hi
      rw [expand_cons_of_none hi]
      refine ⟨?_, ?_⟩
      · intro hfailure
        exact ⟨[], i, inputs, rfl, by simp, hmissing, (Except.error.inj hfailure).symm⟩
      · rintro ⟨before, input, after, hsplit, hthere, hinput, rfl⟩
        cases before with
        | nil => rw [(List.cons.inj hsplit).1]
        | cons j before =>
          obtain ⟨rfl, -⟩ := List.cons.inj hsplit
          exact absurd hmissing (hthere i List.mem_cons_self)
    | some paths =>
      have hthere : ¬ Missing v i := not_missing_of_ofInput? hi
      have hrest : (expand walker v extensions inputs).map (paths ++ ·) = .error failure ↔
          expand walker v extensions inputs = .error failure := by
        cases expand walker v extensions inputs <;> simp [Except.map]
      rw [expand_cons_of_some hi, hrest, ih]
      refine ⟨?_, ?_⟩
      · rintro ⟨before, input, after, rfl, hbefore, hx⟩
        refine ⟨i :: before, input, after, rfl, ?_, hx⟩
        rw [List.forall_mem_cons]
        exact ⟨hthere, hbefore⟩
      · rintro ⟨before, input, after, hsplit, hbefore, hinput, hx⟩
        cases before with
        | nil =>
          obtain ⟨rfl, -⟩ := List.cons.inj hsplit
          exact absurd hinput hthere
        | cons j before =>
          obtain ⟨rfl, rfl⟩ := List.cons.inj hsplit
          exact ⟨before, input, after, rfl, (List.forall_mem_cons.mp hbefore).2, hinput, hx⟩

/-! ## First occurrences -/

/-- At the position stands a path, and no path before it is the same. -/
def IsFirst (all : List Path) (i : Nat) : Prop :=
  ∃ p, all[i]? = some p ∧ ∀ q ∈ all.take i, q.same p = false

/-- A list has the first occurrences of the paths of another, in their order. -/
def KeepsFirst (all paths : List Path) : Prop :=
  ∃ positions : List Nat, positions.Pairwise (· < ·) ∧ (∀ i, i ∈ positions ↔ IsFirst all i) ∧
    paths.map some = positions.map (all[·]?)

theorem KeepsFirst.unique {all paths paths' : List Path} (h : KeepsFirst all paths)
    (h' : KeepsFirst all paths') : paths = paths' := by
  obtain ⟨positions, hascending, hmembers, heq⟩ := h
  obtain ⟨positions', hascending', hmembers', heq'⟩ := h'
  have hsame : positions = positions' :=
    hascending.eq_of_mem_iff hascending' fun i => by rw [hmembers, hmembers']
  rw [← hsame, ← heq] at heq'
  exact (List.map_injective_iff.mpr (Option.some_injective Path) heq').symm

/-- The last of some paths is kept if it is the same as none before it. -/
theorem distinctFrom_snoc (seen l : List Path) (p : Path) : distinctFrom seen (l ++ [p]) =
    distinctFrom seen l ++ if (seen ++ l).any p.same then [] else [p] := by
  induction l generalizing seen with
  | nil => simp [distinctFrom]
  | cons q qs ih =>
    rw [List.cons_append, distinctFrom, distinctFrom]
    split
    · next hseen =>
      -- what is the same as `q` is the same as a path that was seen
      have hany : (seen ++ q :: qs).any p.same = (seen ++ qs).any p.same := by
        obtain ⟨r, hr, hsame⟩ := List.any_eq_true.mp hseen
        rw [Bool.eq_iff_iff, List.any_append, List.any_append, List.any_cons]
        simp only [Bool.or_eq_true, or_iff_right_iff_imp, or_left_comm, List.any_eq_true]
        intro hpq
        exact Or.inl ⟨r, hr, Path.same_iff.mpr ((Path.same_iff.mp hpq).trans (Path.same_iff.mp hsame))⟩
      rw [ih, hany]
    · have hany : (seen ++ q :: qs).any p.same = (q :: seen ++ qs).any p.same := by
        simp only [List.any_append, List.any_cons, List.cons_append]
        exact Bool.or_left_comm _ _ _
      rw [ih, hany]
      rfl

theorem isFirst_snoc_of_lt {l : List Path} {p : Path} {i : Nat} (hi : i < l.length) :
    IsFirst (l ++ [p]) i ↔ IsFirst l i := by
  rw [IsFirst, IsFirst, List.getElem?_append_left hi, List.take_append_of_le_length (by omega)]

theorem isFirst_length {l : List Path} {p : Path} :
    IsFirst (l ++ [p]) l.length ↔ l.any p.same = false := by
  rw [IsFirst, List.take_left, List.getElem?_append_right (Nat.le_refl _), Nat.sub_self,
    List.any_eq_false]
  simp [Path.same_comm p]

theorem lt_length_of_isFirst {l : List Path} {i : Nat} (h : IsFirst l i) : i < l.length := by
  obtain ⟨p, hp, -⟩ := h
  exact (List.getElem?_eq_some_iff.mp hp).1

theorem keepsFirst_distinctFrom (all : List Path) : KeepsFirst all (distinctFrom [] all) := by
  -- one more path at the end leaves what was first before it as it was
  induction all using List.reverseRecOn with
  | nil => exact ⟨[], List.Pairwise.nil, by simp [IsFirst], rfl⟩
  | append_singleton l p ih =>
    obtain ⟨positions, hascending, hmembers, heq⟩ := ih
    have hlt : ∀ i ∈ positions, i < l.length :=
      fun i hi => lt_length_of_isFirst ((hmembers i).mp hi)
    have hkept : positions.map ((l ++ [p])[·]?) = positions.map (l[·]?) :=
      List.map_congr_left fun i hi => List.getElem?_append_left (hlt i hi)
    have hfirst : ∀ i, IsFirst (l ++ [p]) i ↔
        i ∈ positions ∨ i = l.length ∧ l.any p.same = false := by
      intro i
      rcases Nat.lt_trichotomy i l.length with hi | rfl | hi
      · rw [isFirst_snoc_of_lt hi, hmembers]
        simp [hi.ne]
      · rw [isFirst_length]
        have hnot : l.length ∉ positions := fun hmem => absurd (hlt _ hmem) (Nat.lt_irrefl _)
        simp [hnot]
      · have hnot : i ∉ positions := fun hmem => absurd (hlt _ hmem) hi.not_gt
        have hout : ¬ IsFirst (l ++ [p]) i := by
          intro h
          have := lt_length_of_isFirst h
          rw [List.length_append, List.length_singleton] at this
          omega
        simp [hnot, hout, hi.ne']
    rw [distinctFrom_snoc, List.nil_append]
    cases hany : l.any p.same with
    | true =>
      refine ⟨positions, hascending, fun i => by simp [hfirst, hany], ?_⟩
      simpa [hkept] using heq
    | false =>
      refine ⟨positions ++ [l.length], ?_, fun i => by simp [hfirst, hany], ?_⟩
      · rw [List.pairwise_append]
        exact ⟨hascending, List.pairwise_singleton _ _, fun i hi j hj => by
          rw [List.mem_singleton.mp hj]
          exact hlt i hi⟩
      · simp [heq, hkept]

/-- No two paths that are kept are the same, and none is the same as one that was seen. -/
theorem distinctFrom_pairwise (seen l : List Path) :
    (distinctFrom seen l).Pairwise (fun p q => p.same q = false) ∧
      ∀ p ∈ distinctFrom seen l, seen.any p.same = false := by
  induction l generalizing seen with
  | nil => simp [distinctFrom]
  | cons q qs ih =>
    rw [distinctFrom]
    split
    · exact ih seen
    · next hnew =>
      obtain ⟨hpairwise, hseen⟩ := ih (q :: seen)
      have hrest : ∀ p ∈ distinctFrom (q :: seen) qs, p.same q = false ∧ seen.any p.same = false := by
        intro p hp
        simpa using hseen p hp
      refine ⟨List.pairwise_cons.mpr ⟨?_, hpairwise⟩, ?_⟩
      · intro p hp
        rw [Path.same_comm]
        exact (hrest p hp).1
      · rw [List.forall_mem_cons]
        exact ⟨by simpa using hnew, fun p hp => (hrest p hp).2⟩

/-! ## The sources of inputs -/

theorem collectWith_of_ok {inputs all : List Path}
    (h : expand walker v extensions inputs = .ok all) : collectWith walker v inputs extensions =
      ([.sourcesCollected (distinctFrom [] all).length], .ok (distinctFrom [] all)) := by
  rw [collectWith, h]

theorem collectWith_of_error {inputs : List Path} {failure : Failure}
    (h : expand walker v extensions inputs = .error failure) :
    collectWith walker v inputs extensions = ([], .error failure) := by
  rw [collectWith, h]

theorem collectWith_eq_ok_iff {inputs paths : List Path} :
    (collectWith walker v inputs extensions).2 = .ok paths ↔
      ∃ all, expand walker v extensions inputs = .ok all ∧ paths = distinctFrom [] all := by
  cases h : expand walker v extensions inputs with
  | error failure => simp [collectWith_of_error h]
  | ok all => simp [collectWith_of_ok h, eq_comm]

theorem collectWith_eq_error_iff {inputs : List Path} {failure : Failure} :
    (collectWith walker v inputs extensions).2 = .error failure ↔
      expand walker v extensions inputs = .error failure := by
  cases h : expand walker v extensions inputs with
  | error failure => simp [collectWith_of_error h]
  | ok all => simp [collectWith_of_ok h]

/-- Of two walkers only what they lead to for the inputs matters. -/
theorem collectWith_congr {walker' : Walker} {inputs : List Path}
    (h : ∀ i ∈ inputs, ofInput? walker' v extensions i = ofInput? walker v extensions i) :
    collectWith walker' v inputs extensions = collectWith walker v inputs extensions := by
  have hexpand : expand walker' v extensions inputs = expand walker v extensions inputs := by
    induction inputs with
    | nil => rfl
    | cons i inputs ih =>
      rw [List.forall_mem_cons] at h
      rw [expand, expand, h.1, ih h.2]
  rw [collectWith, collectWith, hexpand]

/-- Lists of the same files lead to the same sources. -/
theorem ofInput?_congr {walker' : Walker}
    (h : v.isDirectory input = true → Lists v (allowed input) (walker input))
    (h' : v.isDirectory input = true → Lists v (allowed input) (walker' input)) :
    ofInput? walker' v extensions input = ofInput? walker v extensions input := by
  ext paths
  rw [ofInput?_eq_some_iff h, ofInput?_eq_some_iff h']

theorem Lists.perm {listed : Path → Prop} {entries entries' : List Path} (h : Lists v listed entries)
    (hperm : entries'.Perm entries) : Lists v listed entries' := by
  refine ⟨?_, fun p hp => by rw [hperm.mem_iff, h.files p hp]⟩
  refine hperm.symm.pairwise h.once ?_
  intro p q hpq
  rwa [Path.same_comm]

/-- A list of inputs has one list of sources. Which files of a directory are allowed may be said in
any way; let a walker list each of them once for an input that is a directory, in any order. Collecting
fails exactly if an input names neither a file nor a directory, and blames the first that does.
Otherwise the sources are what the inputs stand for, one after the other, with only the first
occurrence of each path; so no two of them are the same. Every other walker that lists these files
leads to the same sources. If the files that are allowed are those that the ignore rules of a file tree
leave, so does the walker that a job has by default, except that it takes a dash for the standard
input, which holds no files. -/
theorem collect_is_determined (v : Volume) (allowed : Path → Path → Prop) (walker : Walker)
    (inputs : List Path) (extensions : List String)
    (hwalker : ∀ d ∈ inputs, v.isDirectory d = true → Lists v (allowed d) (walker d)) :
    ((∃ failure, (collectWith walker v inputs extensions).2 = .error failure) ↔
      ∃ i ∈ inputs, v.isFile i = false ∧ v.isDirectory i = false) ∧
    (∀ failure, (collectWith walker v inputs extensions).2 = .error failure →
      ∃ before input after, inputs = before ++ input :: after ∧
        (∀ i ∈ before, v.isFile i = true ∨ v.isDirectory i = true) ∧
        (v.isFile input = false ∧ v.isDirectory input = false) ∧
        failure = .plain ("Path does not exist: " ++ input.text)) ∧
    (∀ paths, (collectWith walker v inputs extensions).2 = .ok paths ↔
      ∃ pieces, List.Forall₂ (Stands v allowed extensions) inputs pieces ∧
        KeepsFirst pieces.flatten paths) ∧
    (∀ paths, (collectWith walker v inputs extensions).2 = .ok paths →
      paths.Pairwise fun p q => p.same q = false) ∧
    (∀ walker' : Walker, (∀ d ∈ inputs, v.isDirectory d = true → Lists v (allowed d) (walker' d)) →
      collectWith walker' v inputs extensions = collectWith walker v inputs extensions) ∧
    (v.isTree = true → allowed = Listed v → collect v inputs extensions =
      collectWith (fun d => if d.same ⟨"-"⟩ then [] else walker d) v inputs extensions) := by
  refine ⟨⟨?_, ?_⟩, ?_, ?_, ?_, ?_, ?_⟩
  · rintro ⟨failure, hfailure⟩
    obtain ⟨before, input, after, rfl, -, hmissing, -⟩ :=
      expand_eq_error_iff.mp (collectWith_eq_error_iff.mp hfailure)
    exact ⟨input, by simp, hmissing⟩
  · rintro ⟨i, hi, hmissing⟩
    cases hexpand : expand walker v extensions inputs with
    | error failure => exact ⟨failure, collectWith_eq_error_iff.mpr hexpand⟩
    | ok all => exact absurd hmissing (not_missing_of_expand hexpand i hi)
  · intro failure hfailure
    obtain ⟨before, input, after, hsplit, hbefore, hmissing, htext⟩ :=
      expand_eq_error_iff.mp (collectWith_eq_error_iff.mp hfailure)
    refine ⟨before, input, after, hsplit, ?_, hmissing, htext⟩
    intro i hi
    have hthere := hbefore i hi
    rw [Missing, not_and_or, Bool.not_eq_false, Bool.not_eq_false] at hthere
    exact hthere
  · intro paths
    rw [collectWith_eq_ok_iff]
    refine ⟨?_, ?_⟩
    · rintro ⟨all, hall, rfl⟩
      obtain ⟨pieces, hpieces, rfl⟩ := (expand_eq_ok_iff hwalker).mp hall
      exact ⟨pieces, hpieces, keepsFirst_distinctFrom pieces.flatten⟩
    · rintro ⟨pieces, hpieces, hfirst⟩
      exact ⟨pieces.flatten, (expand_eq_ok_iff hwalker).mpr ⟨pieces, hpieces, rfl⟩,
        hfirst.unique (keepsFirst_distinctFrom pieces.flatten)⟩
  · intro paths hpaths
    obtain ⟨all, -, rfl⟩ := collectWith_eq_ok_iff.mp hpaths
    exact (distinctFrom_pairwise [] all).1
  · intro walker' hwalker'
    exact collectWith_congr fun i hi => ofInput?_congr (hwalker i hi) (hwalker' i hi)
  · intro hv hallowed
    subst hallowed
    refine collectWith_congr fun i hi => ?_
    cases hdash : i.same ⟨"-"⟩ with
    | true => simp [ofInput?, walked, hdash]
    | false =>
      have hplain : ofInput? (fun d => if d.same ⟨"-"⟩ then [] else walker d) v extensions i =
          ofInput? walker v extensions i := by
        simp [ofInput?, hdash]
      rw [hplain]
      exact ofInput?_congr (hwalker i hi) fun hdir => lists_walked hv hdir hdash

/-- A tree with an ignored file, a link to a file, and a directory that comes before a file only if
paths are compared by components. -/
def linkedTree : Volume where
  home := ["w"]
  root := [("w", .directory [
    ("notes.txt", .file (.text "")),
    ("src", .directory [
      (".gitignore", .file (.text "gen.rs\n")),
      ("a", .directory [("x.rs", .file (.text ""))]),
      ("a.rs", .file (.text "")),
      ("b.rs", .link ⟨"../notes.txt"⟩),
      ("gen.rs", .file (.text ""))])])]

/-- A file without the extension, a file of the directory after it in another spelling, the directory,
and a directory in it. -/
def overlappingInputs : List Path := [⟨"notes.txt"⟩, ⟨"src//a.rs"⟩, ⟨"src"⟩, ⟨"src/a"⟩]

theorem collect_overlappingInputs : (collect linkedTree overlappingInputs ["rs"]).2 =
    .ok [⟨"notes.txt"⟩, ⟨"src//a.rs"⟩, ⟨"src/a/x.rs"⟩, ⟨"src/b.rs"⟩] := by
  have hsrc : select linkedTree ["rs"] (walked linkedTree ⟨"src"⟩) =
      [⟨"src/a/x.rs"⟩, ⟨"src/a.rs"⟩, ⟨"src/b.rs"⟩] := by
    refine (List.mergeSort_of_pairwise ?_).trans ?_
    · decide +kernel
    · decide +kernel
  have hinner : select linkedTree ["rs"] (walked linkedTree ⟨"src/a"⟩) = [⟨"src/a/x.rs"⟩] := by
    refine (List.mergeSort_of_pairwise ?_).trans ?_
    · decide +kernel
    · decide +kernel
  have hnotes : ofInput? (walked linkedTree) linkedTree ["rs"] ⟨"notes.txt"⟩ =
      some [⟨"notes.txt"⟩] := by
    decide +kernel
  have hspelled : ofInput? (walked linkedTree) linkedTree ["rs"] ⟨"src//a.rs"⟩ =
      some [⟨"src//a.rs"⟩] := by
    decide +kernel
  have hfirst : ofInput? (walked linkedTree) linkedTree ["rs"] ⟨"src"⟩ =
      some (select linkedTree ["rs"] (walked linkedTree ⟨"src"⟩)) := rfl
  have hsecond : ofInput? (walked linkedTree) linkedTree ["rs"] ⟨"src/a"⟩ =
      some (select linkedTree ["rs"] (walked linkedTree ⟨"src/a"⟩)) := rfl
  have hexpand : expand (walked linkedTree) linkedTree ["rs"] overlappingInputs =
      .ok [⟨"notes.txt"⟩, ⟨"src//a.rs"⟩, ⟨"src/a/x.rs"⟩, ⟨"src/a.rs"⟩, ⟨"src/b.rs"⟩,
        ⟨"src/a/x.rs"⟩] := by
    simp [overlappingInputs, expand, hnotes, hspelled, hfirst, hsecond, hsrc, hinner]
  rw [collect, collectWith_of_ok hexpand]
  decide +kernel

/-- The sources are the same if the file system lists every directory the other way round. -/
theorem collect_is_determined_overlappingInputs : linkedTree.isTree = true ∧
    (collectWith (fun d => (walked linkedTree d).reverse) linkedTree overlappingInputs ["rs"]).2 =
      .ok [⟨"notes.txt"⟩, ⟨"src//a.rs"⟩, ⟨"src/a/x.rs"⟩, ⟨"src/b.rs"⟩] := by
  have htree : linkedTree.isTree = true := by decide +kernel
  have hdash : ∀ d ∈ overlappingInputs, d.same ⟨"-"⟩ = false := by decide +kernel
  have hlists : ∀ d ∈ overlappingInputs, linkedTree.isDirectory d = true →
      Lists linkedTree (Listed linkedTree d) (walked linkedTree d) :=
    fun d hd hdir => lists_walked htree hdir (hdash d hd)
  obtain ⟨-, -, -, -, hsame, -⟩ :=
    collect_is_determined linkedTree (Listed linkedTree) (walked linkedTree) overlappingInputs ["rs"]
      hlists
  have hreverse := hsame (fun d => (walked linkedTree d).reverse)
    fun d hd hdir => (hlists d hd hdir).perm (List.reverse_perm _)
  refine ⟨htree, ?_⟩
  rw [hreverse]
  exact collect_overlappingInputs

end Sources

end CallGraph
