import CallGraph.Ignore.Rules
import CallGraph.Proofs.Storage

/-!
Where paths lead in a file tree without links.

Without links a path needs no look at the tree: it leads to the location that its segments spell, if
it leads anywhere (`locate_spelled`). So a path that is there in two trees names the same location in
both, and what is below a directory is spelled by what the directory is spelled by and the names
after it (`spelled_below`).

A tree is `isRegular` if it has no links and every name in it can be a segment of a path. There the
canonical path of a location has the names of the location for components (`components_pathOf`), so
that it starts with the canonical path of every directory around it (`startsWith_pathOf`), and a walk
that respects ignore rules yields names that can be segments (`isName_of_mem_walk`).
-/

namespace CallGraph

namespace Path

/-- Whether a text can be the name of an entry of a directory. -/
def isName (s : String) : Bool := !isIdle s && s != ".." && !s.toList.contains '/'

theorem isName_iff {s : String} :
    isName s = true ↔ isIdle s = false ∧ s ≠ ".." ∧ '/' ∉ s.toList := by
  simp [isName, and_assoc]

theorem component?_of_isName {s : String} (h : isName s = true) :
    component? s = some (.normal s) := by
  obtain ⟨hidle, hup, -⟩ := isName_iff.mp h
  simp [component?, hidle, hup]

theorem filterMap_component? {names : List String} (h : ∀ n ∈ names, isName n = true) :
    names.filterMap component? = names.map .normal := by
  induction names with
  | nil => rfl
  | cons n ns ih =>
    rw [List.forall_mem_cons] at h
    rw [List.filterMap_cons_some (component?_of_isName h.1), List.map_cons, ih h.2]

theorem splitSlashes_eq_splitOn (cs : List Char) : splitSlashes cs = cs.splitOn '/' := by
  induction cs with
  | nil => rfl
  | cons c cs ih =>
    rw [splitSlashes, List.splitOn_cons_eq_if_modifyHead, ih]
    split
    · rfl
    · obtain ⟨s, ss, hs⟩ := List.exists_cons_of_ne_nil (List.splitOn_ne_nil '/' cs)
      rw [hs]
      rfl

theorem segments_intercalate {ss : List String} (hne : ss ≠ [])
    (h : ∀ s ∈ ss, '/' ∉ s.toList) : (Path.mk (String.intercalate "/" ss)).segments = ss := by
  have hsplit : splitSlashes (String.intercalate "/" ss).toList = ss.map String.toList := by
    rw [splitSlashes_eq_splitOn, String.toList_intercalate]
    refine List.splitOn_intercalate '/' ?_ (by simpa using hne)
    simpa using h
  rw [segments, hsplit]
  simp

/-- Where a segment leads from a location, if there is no link. -/
def advance (loc : List String) (s : String) : List String :=
  if isIdle s then loc else if s == ".." then loc.dropLast else loc ++ [s]

theorem advance_of_isName {s : String} (h : isName s = true) (loc : List String) :
    advance loc s = loc ++ [s] := by
  obtain ⟨hidle, hup, -⟩ := isName_iff.mp h
  simp [advance, hidle, hup]

/-- The segments of a path below another are those of the other and the name, up to an empty
segment in between. -/
theorem foldl_advance_child {name : String} (h : isName name = true) (directory : Path)
    (start : List String) :
    (directory.child name).segments.foldl advance start =
      directory.segments.foldl advance start ++ [name] := by
  obtain ⟨-, -, hslash⟩ := isName_iff.mp h
  have hempty : ∀ loc, advance loc "" = loc := by
    intro loc
    simp [advance, isIdle]
  cases hdir : directory.text == "" || directory.text.toList.getLast? == some '/' with
  | false =>
    rw [segments_child hslash hdir, List.foldl_append]
    exact advance_of_isName h _
  | true =>
    unfold child join
    rw [if_neg (by simp [not_isAbsolute hslash]), if_pos hdir]
    obtain hnone | hend := Bool.or_eq_true_iff.mp hdir
    · -- the empty path has one segment, which is empty
      have hsegments : directory.segments = [""] := by
        rw [segments, eq_of_beq hnone]
        rfl
      have hname : (Path.mk (directory.text ++ name)).segments = [name] := by
        simp [segments, eq_of_beq hnone, splitSlashes_eq_singleton hslash]
      rw [hsegments, hname]
      simp [hempty, advance_of_isName h]
    · obtain ⟨cs, hcs⟩ := List.getLast?_eq_some_iff.mp (eq_of_beq hend)
      have hsegments : directory.segments = (splitSlashes cs).map String.ofList ++ [""] := by
        rw [segments, hcs, splitSlashes_append_slash]
        simp [splitSlashes]
      have hname : (Path.mk (directory.text ++ name)).segments =
          (splitSlashes cs).map String.ofList ++ [name] := by
        simp [segments, hcs, splitSlashes_append_slash, splitSlashes_eq_singleton hslash]
      rw [hsegments, hname]
      simp [hempty, advance_of_isName h]

theorem isAbsolute_child {name : String} (h : isName name = true) (directory : Path) :
    (directory.child name).isAbsolute = directory.isAbsolute := by
  obtain ⟨-, -, hslash⟩ := isName_iff.mp h
  have hname := not_isAbsolute hslash
  unfold child join
  rw [if_neg (by simp [hname])]
  by_cases hnone : directory.text = ""
  · simp [hnone, isAbsolute] at hname ⊢
    exact hname
  · obtain ⟨c, cs, hcs⟩ := List.exists_cons_of_ne_nil (String.toList_eq_nil_iff.not.mpr hnone)
    split <;> simp [isAbsolute, hcs]

end Path

namespace Volume

open CallGraph.Path

variable {v w : Volume} {p : Path} {loc : List String}

/-! ## Paths without links -/

/-- The location that the segments of a path spell. -/
def spelled (v : Volume) (p : Path) : List String :=
  p.segments.foldl advance (if p.isAbsolute then [] else v.home)

theorem spelled_congr (h : w.home = v.home) (p : Path) : w.spelled p = v.spelled p := by
  rw [spelled, spelled, h]

theorem spelled_child {name : String} (h : isName name = true) (directory : Path) :
    v.spelled (directory.child name) = v.spelled directory ++ [name] := by
  rw [spelled, isAbsolute_child h, foldl_advance_child h]
  rfl

theorem spelled_below {names : List String} (h : ∀ n ∈ names, isName n = true) (directory : Path) :
    v.spelled (names.foldl Path.child directory) = v.spelled directory ++ names := by
  induction names generalizing directory with
  | nil => simp
  | cons n ns ih =>
    rw [List.forall_mem_cons] at h
    rw [List.foldl_cons, ih h.2, spelled_child h.1, List.append_assoc]
    rfl

theorem walkWith_spelled (hlinks : ∀ l target, v.entryAt l ≠ some (.link target))
    {follow : List String → List String → Except Fault Spot} {last : Bool}
    {segments start : List String} {e : Entry}
    (h : walkWith v follow last segments start = .ok (.taken loc e)) :
    loc = segments.foldl advance start := by
  induction segments generalizing start with
  | nil =>
    rw [walkWith] at h
    cases he : v.entryAt start with
    | none => simp [he] at h
    | some e' =>
      rw [he] at h
      injection h with h
      injection h with hloc
      exact hloc.symm
  | cons s rest ih =>
    rw [walkWith] at h
    rw [List.foldl_cons]
    split at h
    · cases h
    split at h
    · next hidle =>
      rw [advance, if_pos hidle]
      exact ih h
    next hidle =>
    split at h
    · next hup =>
      rw [advance, if_neg hidle, if_pos hup]
      exact ih h
    next hup =>
    rw [advance, if_neg hidle, if_neg hup]
    split at h
    · cases h
    split at h
    · -- a name that is not there is no place that is taken
      split at h <;> cases h
    · next target hlink => exact absurd hlink (hlinks _ target)
    · exact ih h

/-- Without links, what a path names is at the location that it spells. -/
theorem locate_spelled (hlinks : ∀ l target, v.entryAt l ≠ some (.link target)) {last : Bool}
    {e : Entry} (h : v.locate last p = .ok (.taken loc e)) : loc = v.spelled p := by
  unfold locate at h
  split at h
  · cases h
  split at h
  · cases h
  split at h
  · cases h
  · exact walkWith_spelled hlinks h

/-! ## Regular trees -/

mutual

/-- Whether there are no links in an entry, and only names that can be segments of paths. -/
def Entry.isRegular : Entry → Bool
  | .file _ => true
  | .directory es => Entries.areRegular es
  | .link _ => false

/-- Whether the entries of a directory are regular, and their names too. -/
def Entries.areRegular : List (String × Entry) → Bool
  | [] => true
  | (name, e) :: es => isName name && e.isRegular && Entries.areRegular es

end

/-- Whether a volume has no links, and only names that can be segments of paths. -/
def isRegular (v : Volume) : Bool := Entries.areRegular v.root

theorem Entries.areRegular_iff {es : Entries} :
    areRegular es = true ↔ ∀ x ∈ es, isName x.1 = true ∧ x.2.isRegular = true := by
  induction es with
  | nil => simp [areRegular]
  | cons x es ih =>
    rw [areRegular, List.forall_mem_cons, ← ih]
    simp [Bool.and_eq_true]

theorem Entries.mem_of_get? {es : Entries} {name : String} {e : Entry}
    (h : es.get? name = some e) : (name, e) ∈ es := by
  obtain ⟨x, hx, rfl⟩ := Option.map_eq_some_iff.mp h
  have hname : x.1 = name := by simpa using List.find?_some hx
  rw [← hname]
  exact List.mem_of_find?_eq_some hx

/-- What every entry of a directory has from the directory, everything below it has. On the way there
are only names. -/
theorem Entries.inherits_of_at? (inherited : Entry → Prop)
    (hstep : ∀ es, inherited (.directory es) → ∀ x ∈ es, isName x.1 = true ∧ inherited x.2)
    {es : Entries} (hes : inherited (.directory es)) {e : Entry} (h : es.at? loc = some e) :
    inherited e ∧ ∀ n ∈ loc, isName n = true := by
  induction loc generalizing es with
  | nil =>
    obtain rfl : Entry.directory es = e := Option.some.inj h
    exact ⟨hes, by simp⟩
  | cons n ns ih =>
    rw [at?_cons] at h
    obtain ⟨x, hx, hbelow⟩ := Option.bind_eq_some_iff.mp h
    obtain ⟨hname, hbranch⟩ := hstep es hes _ (mem_of_get? hx)
    rw [List.forall_mem_cons]
    cases hd : x.isDirectory with
    | true =>
      cases x with
      | directory sub =>
        rw [Entry.below?_directory] at hbelow
        have hsub := ih hbranch hbelow
        exact ⟨hsub.1, hname, hsub.2⟩
      | file content => cases hd
      | link target => cases hd
    | false =>
      -- nothing is below what is no directory, so the location ends here
      cases ns with
      | nil =>
        rw [Entry.below?_nil, Option.some.injEq] at hbelow
        exact ⟨hbelow ▸ hbranch, hname, by simp⟩
      | cons m ms =>
        rw [Entry.below?_eq_none hd] at hbelow
        cases hbelow

theorem Entries.regular_of_at? {es : Entries} (hes : areRegular es = true) {e : Entry}
    (h : es.at? loc = some e) : e.isRegular = true ∧ ∀ n ∈ loc, isName n = true :=
  inherits_of_at? (fun e => e.isRegular = true) (fun _ hsub => areRegular_iff.mp hsub) hes h

theorem no_link_of_isRegular (hv : v.isRegular = true) (l : List String) (target : Path) :
    v.entryAt l ≠ some (.link target) := by
  intro hl
  cases (Entries.regular_of_at? hv hl).1

/-- What a path names in a regular volume is at the location that it spells, and this is the way
there. -/
theorem locate_regular (hv : v.isRegular = true) {last : Bool} {e : Entry}
    (h : v.locate last p = .ok (.taken loc e)) :
    loc = v.spelled p ∧ ∀ n ∈ loc, isName n = true :=
  ⟨locate_spelled (no_link_of_isRegular hv) h, (Entries.regular_of_at? hv (locate_stands h)).2⟩

theorem contains_iff :
    v.contains p = true ↔ ∃ loc e, v.locate true p = .ok (.taken loc e) := by
  unfold contains entry?
  split
  · next loc e h => simp [h]
  · next h => simpa using h

/-- A path that names something has a canonical form, the path of the location that it spells. -/
theorem canonical_of_contains (hv : v.isRegular = true) (h : v.contains p = true) :
    v.canonical p = .ok (pathOf (v.spelled p)) ∧ ∀ n ∈ v.spelled p, isName n = true := by
  obtain ⟨loc, e, hloc⟩ := contains_iff.mp h
  obtain ⟨rfl, hnames⟩ := locate_regular hv hloc
  unfold canonical
  rw [hloc]
  exact ⟨rfl, hnames⟩

theorem canonical_of_not_contains (h : v.contains p = false) :
    ∃ fault, v.canonical p = .error fault := by
  unfold canonical
  split
  · next loc e hloc => simp [contains_iff.mpr ⟨loc, e, hloc⟩] at h
  · exact ⟨_, rfl⟩
  · exact ⟨_, rfl⟩

/-! ## Canonical paths -/

theorem components_pathOf (h : ∀ n ∈ loc, isName n = true) :
    (pathOf loc).components = .root :: loc.map .normal := by
  have htext : (pathOf loc).text.toList = '/' :: (String.intercalate "/" loc).toList := by
    simp [pathOf]
  have habs : (pathOf loc).isAbsolute = true := by simp [isAbsolute, htext]
  have hsegments : (pathOf loc).segments =
      "" :: (Path.mk (String.intercalate "/" loc)).segments := by
    simp [segments, htext, splitSlashes]
  have hinner : (pathOf loc).segments.filterMap component? = loc.map .normal := by
    -- the empty segment before the first slash is no component
    rw [hsegments, List.filterMap_cons_none (by decide)]
    cases loc with
    | nil => decide
    | cons n ns =>
      rw [segments_intercalate (List.cons_ne_nil n ns) fun m hm => (isName_iff.mp (h m hm)).2.2,
        filterMap_component? h]
  rw [components, if_pos habs, hinner]

/-- The path of a location starts with that of every directory around it. -/
theorem startsWith_pathOf {inner : List String} (h : ∀ n ∈ loc ++ inner, isName n = true) :
    (pathOf (loc ++ inner)).startsWith (pathOf loc) = true := by
  have houter : ∀ n ∈ loc, isName n = true := fun n hn => h n (List.mem_append_left _ hn)
  rw [startsWith, components_pathOf h, components_pathOf houter, List.map_append,
    ← List.cons_append]
  exact List.isPrefixOf_iff_prefix.mpr (List.prefix_append _ _)

end Volume

/-! ## Walks -/

namespace Ignore

open Volume

variable {v : Volume}

mutual

theorem isName_of_mem_walkEntry (levels : List Level) (location : List String) (e : Entry)
    (he : e.isRegular = true) :
    ∀ l ∈ walkEntry v levels location e,
      ∃ names, l = location ++ names ∧ ∀ n ∈ names, Path.isName n = true := by
  cases e with
  | directory es =>
    intro l hl
    rw [walkEntry] at hl
    split at hl
    · exact isName_of_mem_walkEntries _ location es he l hl
    · cases hl
  | file content =>
    intro l hl
    rw [walkEntry] at hl
    · split at hl
      · exact ⟨[], by simpa using hl, by simp⟩
      · cases hl
    · simp
  | link target => cases he

theorem isName_of_mem_walkEntries (levels : List Level) (location : List String)
    (es : List (String × Entry)) (hes : Entries.areRegular es = true) :
    ∀ l ∈ walkEntries v levels location es,
      ∃ names, l = location ++ names ∧ ∀ n ∈ names, Path.isName n = true := by
  cases es with
  | nil =>
    intro l hl
    rw [walkEntries] at hl
    cases hl
  | cons x es =>
    obtain ⟨name, e⟩ := x
    rw [Entries.areRegular, Bool.and_eq_true, Bool.and_eq_true] at hes
    intro l hl
    rw [walkEntries, List.mem_append] at hl
    rcases hl with hl | hl
    · obtain ⟨names, rfl, hnames⟩ :=
        isName_of_mem_walkEntry levels (location ++ [name]) e hes.1.2 l hl
      refine ⟨name :: names, by simp, ?_⟩
      rw [List.forall_mem_cons]
      exact ⟨hes.1.1, hnames⟩
    · exact isName_of_mem_walkEntries levels location es hes.2 l hl

end

theorem isName_of_mem_walk (hv : v.isRegular = true) {location names : List String}
    (h : names ∈ walk v location) : ∀ n ∈ names, Path.isName n = true := by
  unfold walk at h
  split at h
  · next es hes =>
    obtain ⟨l, hl, rfl⟩ := List.mem_map.mp h
    have hregular := (Entries.regular_of_at? hv hes).1
    obtain ⟨names, rfl, hnames⟩ := isName_of_mem_walkEntries _ location es hregular l hl
    simpa using hnames
  · cases h

end Ignore

end CallGraph
