import CallGraph.Volume
import Mathlib.Data.List.Infix

/-!
Ways through a file tree, and what changes of the tree do to them.

What a path names depends on the directories and links on the way and on nothing else. So a change
that keeps these, such as a new file or a new directory, moves no file to another path.

What is proved:
1. `entryAt_setAt_self`, `entryAt_setAt_of_ne`: what is put at a location is there, and all other
   locations are as they were (`Alike`).
2. `walk_keeps`: a way to a directory stays a way to this directory as long as directories and
   links keep their places (`Keeps`).
3. `locate_iff`: a path leads to its last name in its folder, the directory that the segments
   before lead to.
4. `keeps_setAt`, `createDirectories_keeps`: a file that is written or removed touches its own
   location only, and making directories touches none, also when it stops half way.
-/

namespace CallGraph

namespace Volume

/-! ## Entries at a location -/

/-- The entry at some names below an entry. -/
def Entry.below? : Entry → List String → Option Entry
  | e, [] => some e
  | .directory es, name :: rest => Entries.at? es (name :: rest)
  | _, _ :: _ => none

@[simp] theorem Entry.below?_nil (e : Entry) : e.below? [] = some e := by
  cases e <;> rfl

@[simp] theorem Entry.below?_directory (es : Entries) (names : List String) :
    (Entry.directory es).below? names = es.at? names := by
  cases names <;> rfl

theorem Entry.below?_eq_none {e : Entry} (h : e.isDirectory = false) (name : String)
    (rest : List String) : e.below? (name :: rest) = none := by
  cases e with
  | directory es => cases h
  | file content => rfl
  | link target => rfl

theorem Entry.below?_eq_directory {e : Entry} {names : List String} {sub : Entries}
    (h : e.below? names = some (.directory sub)) : ∃ es, e = .directory es := by
  cases e with
  | directory es => exact ⟨es, rfl⟩
  | file content => cases names <;> simp [below?] at h
  | link target => cases names <;> simp [below?] at h

/-- Two places hold the same: nothing, the same file or link, or directories, whatever is in
them. -/
def Alike : Option Entry → Option Entry → Prop
  | some (.directory _), some (.directory _) => True
  | a, b => a = b

theorem Alike.refl (a : Option Entry) : Alike a a := by
  rcases a with _ | ⟨_ | _ | _⟩ <;> simp [Alike]

theorem Alike.directory {a : Option Entry} {es : Entries} (h : Alike (some (.directory es)) a) :
    ∃ es', a = some (.directory es') := by
  rcases a with _ | ⟨_ | es' | _⟩
  · cases h
  · cases h
  · exact ⟨es', rfl⟩
  · cases h

theorem Alike.directory_before {a : Option Entry} {es : Entries}
    (h : Alike a (some (.directory es))) : ∃ es', a = some (.directory es') := by
  rcases a with _ | ⟨_ | es' | _⟩
  · cases h
  · cases h
  · exact ⟨es', rfl⟩
  · cases h

theorem Alike.eq_some_iff {a b : Option Entry} {e : Entry} (h : Alike a b)
    (he : e.isDirectory = false) : b = some e ↔ a = some e := by
  rcases a with _ | ⟨_ | es | _⟩
  · rw [show b = none from h.symm]
  · rw [show b = _ from h.symm]
  · obtain ⟨es', rfl⟩ := h.directory
    cases e <;> simp_all [Entry.isDirectory]
  · rw [show b = _ from h.symm]

namespace Entries

theorem at?_cons (es : Entries) (name : String) (rest : List String) :
    at? es (name :: rest) = (get? es name).bind (·.below? rest) := by
  cases rest with
  | nil => cases h : get? es name <;> simp [at?, h]
  | cons n ns =>
    rw [at?]
    · cases h : get? es name with
      | none => rfl
      | some e => cases e <;> rfl
    · simp

theorem at?_append (es : Entries) (names rest : List String) :
    at? es (names ++ rest) = (at? es names).bind (·.below? rest) := by
  induction names generalizing es with
  | nil => simp [at?]
  | cons n ns ih =>
    rw [List.cons_append, at?_cons, at?_cons]
    cases get? es n with
    | none => rfl
    | some e =>
      cases e with
      | directory sub => simpa using ih sub
      | file content => cases ns <;> cases rest <;> rfl
      | link target => cases ns <;> cases rest <;> rfl

theorem get?_set (es : Entries) (name k : String) (e : Entry) :
    get? (set es name e) k = if k = name then some e else get? es k := by
  induction es with
  | nil => simp only [set, get?]; grind
  | cons x xs ih => simp only [set, get?] at ih ⊢; grind

theorem get?_erase (es : Entries) (name k : String) :
    get? (erase es name) k = if k = name then none else get? es k := by
  induction es with
  | nil => simp [erase, get?]
  | cons x xs ih => simp only [erase, get?, List.filter] at ih ⊢; grind

theorem get?_alter_name (es : Entries) (name k : String) (o : Option Entry) :
    get? (alter (fun _ => o) es [name]) k = if k = name then o else get? es k := by
  cases o with
  | none => rw [alter, get?_erase]
  | some e => rw [alter, get?_set]

/-- What a directory is changed to hold, it holds. The induction is on the way to the directory, as
in `alter`. -/
theorem at?_alter_self {es : Entries} {loc : List String} {sub : Entries}
    (h : es.at? loc = some (.directory sub)) (name : String) (o : Option Entry) :
    (es.alter (fun _ => o) (loc ++ [name])).at? (loc ++ [name]) = o := by
  induction loc generalizing es with
  | nil =>
    rw [List.nil_append, at?_cons, get?_alter_name, if_pos rfl]
    cases o <;> simp
  | cons n ns ih =>
    obtain ⟨x, hx, hsub⟩ := Option.bind_eq_some_iff.mp (at?_cons es n ns ▸ h)
    obtain ⟨inner, rfl⟩ := Entry.below?_eq_directory hsub
    rw [Entry.below?_directory] at hsub
    rw [List.cons_append, alter]
    · simp only [hx, at?_cons, get?_set, if_true, Option.bind_some, Entry.below?_directory]
      exact ih hsub
    · simp

theorem at?_alter_other (es : Entries) {loc loc' : List String} (h : ¬ loc <+: loc')
    (o : Option Entry) : Alike (es.at? loc') ((es.alter (fun _ => o) loc).at? loc') := by
  induction loc generalizing es loc' with
  | nil => exact absurd List.nil_prefix h
  | cons n ns ih =>
    cases loc' with
    | nil => simp [at?, Alike]
    | cons n' ns' =>
      rw [List.cons_prefix_cons, not_and] at h
      rw [at?_cons, at?_cons]
      cases ns with
      | nil =>
        have hn : n' ≠ n := fun heq => h heq.symm List.nil_prefix
        rw [get?_alter_name, if_neg hn]
        exact Alike.refl _
      | cons m ms =>
        rw [alter]
        · split
          · next sub hsub =>
            rw [get?_set]
            split
            · next heq =>
              -- Both ways go into the directory that is changed.
              subst heq
              rw [hsub]
              simp only [Option.bind_some, Entry.below?_directory]
              exact ih sub (h rfl)
            · exact Alike.refl _
          · exact Alike.refl _
        · simp

end Entries

variable {v w : Volume} {loc : List String} {p : Path} {name : String}

theorem isDirectoryAt_iff :
    v.isDirectoryAt loc = true ↔ ∃ es, v.entryAt loc = some (.directory es) := by
  unfold isDirectoryAt
  rcases v.entryAt loc with _ | ⟨_ | _ | _⟩ <;> simp [Entry.isDirectory]

/-- What a volume holds at a location is changed: an entry is put there or taken away. This is what
`put` and `drop` do. -/
def setAt (v : Volume) (loc : List String) (o : Option Entry) : Volume :=
  { v with root := v.root.alter (fun _ => o) loc }

theorem entryAt_setAt_self (h : v.isDirectoryAt loc = true) (name : String) (o : Option Entry) :
    (v.setAt (loc ++ [name]) o).entryAt (loc ++ [name]) = o := by
  obtain ⟨es, hes⟩ := isDirectoryAt_iff.mp h
  exact Entries.at?_alter_self hes name o

theorem entryAt_below (h : v.isDirectoryAt loc = false) (name : String) (rest : List String) :
    v.entryAt (loc ++ name :: rest) = none := by
  rw [entryAt, Entries.at?_append]
  cases he : v.root.at? loc with
  | none => rfl
  | some e =>
    have hdir : e.isDirectory = false := by simpa [isDirectoryAt, entryAt, he] using h
    exact Entry.below?_eq_none hdir name rest

/-- A change from one thing to another that nothing is below is a change at this location only. -/
theorem entryAt_setAt_of_ne {o : Option Entry} (hd : v.isDirectoryAt loc = true)
    (hno : v.isDirectoryAt (loc ++ [name]) = false)
    (hbare : ∀ n ns, o.bind (·.below? (n :: ns)) = none)
    {loc' : List String} (hne : loc' ≠ loc ++ [name]) :
    Alike (v.entryAt loc') ((v.setAt (loc ++ [name]) o).entryAt loc') := by
  -- Below the location there was nothing before and is nothing after.
  by_cases hp : loc ++ [name] <+: loc'
  · obtain ⟨rest, rfl⟩ := hp
    cases rest with
    | nil => exact absurd (List.append_nil _) hne
    | cons n ns =>
      have hself : (v.setAt (loc ++ [name]) o).root.at? (loc ++ [name]) = o :=
        entryAt_setAt_self hd name o
      rw [entryAt_below hno, entryAt, Entries.at?_append, hself, hbare]
      exact Alike.refl _
  · exact Entries.at?_alter_other v.root hp o

/-! ## Walks -/

/-- A spot is as the volume has it. -/
def Spot.Stands (v : Volume) : Spot → Prop
  | .taken loc entry => v.entryAt loc = some entry
  | .free directory name _ =>
    v.isDirectoryAt directory = true ∧ v.entryAt (directory ++ [name]) = none

theorem walkWith_stands {follow : List String → List String → Except Fault Spot} {last : Bool}
    (hf : ∀ segments start spot, follow segments start = .ok spot → spot.Stands v)
    {segments start : List String} {spot : Spot}
    (h : walkWith v follow last segments start = .ok spot) : spot.Stands v := by
  induction segments generalizing start with
  | nil =>
    rw [walkWith] at h
    split at h
    · next entry he =>
      obtain rfl := Except.ok.inj h
      exact he
    · cases h
  | cons s rest ih =>
    rw [walkWith] at h
    split at h
    · cases h
    next hdir =>
    split at h
    · exact ih h
    split at h
    · exact ih h
    split at h
    · cases h
    split at h
    · next hnone =>
      split at h
      · obtain rfl := Except.ok.inj h
        exact ⟨by simpa using hdir, hnone⟩
      · cases h
    · next target hlink =>
      split at h
      · obtain rfl := Except.ok.inj h
        exact hlink
      · exact hf _ _ _ h
    · exact ih h

theorem walk_stands {last : Bool} {n : Nat} {segments start : List String} {spot : Spot}
    (h : walk v last n segments start = .ok spot) : spot.Stands v := by
  -- The number is that of the links that may still be followed.
  induction n generalizing segments start spot with
  | zero => cases h
  | succ n ih => exact walkWith_stands (fun _ _ _ h => ih h) h

/-- Directories and links keep their places, and so do files, except at the locations that are
`touched`. There may be new directories. -/
structure Keeps (touched : List String → Prop) (v w : Volume) : Prop where
  home : w.home = v.home
  directories : ∀ loc, v.isDirectoryAt loc = true → w.isDirectoryAt loc = true
  links : ∀ loc target,
    w.entryAt loc = some (.link target) ↔ v.entryAt loc = some (.link target)
  files : ∀ loc content, ¬ touched loc →
    (w.entryAt loc = some (.file content) ↔ v.entryAt loc = some (.file content))

variable {touched : List String → Prop}

theorem Keeps.refl (v : Volume) : Keeps touched v v :=
  ⟨rfl, fun _ h => h, fun _ _ => Iff.rfl, fun _ _ _ => Iff.rfl⟩

theorem Keeps.trans {u : Volume} (h : Keeps touched v w) (h' : Keeps touched w u) :
    Keeps touched v u :=
  ⟨h'.home.trans h.home, fun loc hv => h'.directories loc (h.directories loc hv),
    fun loc target => (h'.links loc target).trans (h.links loc target),
    fun loc content hn => (h'.files loc content hn).trans (h.files loc content hn)⟩

theorem Keeps.mono {touched' : List String → Prop} (hle : ∀ loc, touched loc → touched' loc)
    (h : Keeps touched v w) : Keeps touched' v w :=
  ⟨h.home, h.directories, h.links, fun loc content hn => h.files loc content (mt (hle loc) hn)⟩

/-- A location that holds the same file as before, or none as before, need not count as touched. -/
theorem Keeps.sharpen {touched' : List String → Prop} (h : Keeps touched v w)
    (hsame : ∀ loc content, touched loc → ¬ touched' loc →
      (w.entryAt loc = some (.file content) ↔ v.entryAt loc = some (.file content))) :
    Keeps touched' v w := by
  refine ⟨h.home, h.directories, h.links, ?_⟩
  intro loc content hn
  by_cases ht : touched loc
  · exact hsame loc content ht hn
  · exact h.files loc content ht

/-- A manner of walking leads along segments to a directory. -/
def LeadsTo (walking : List String → List String → Except Fault Spot)
    (segments start loc : List String) : Prop :=
  ∃ es, walking segments start = .ok (.taken loc (.directory es))

theorem leadsTo_nil {f : List String → List String → Except Fault Spot} {start : List String} :
    LeadsTo (walkWith v f true) [] start loc ↔ start = loc ∧ v.isDirectoryAt loc = true := by
  rw [LeadsTo, isDirectoryAt_iff, walkWith]
  rcases he : v.entryAt start with _ | e
  · simp only [reduceCtorEq, exists_false, false_iff, not_and]
    intro heq
    simp [← heq, he]
  · simp only [Except.ok.injEq, Spot.taken.injEq, exists_and_left]
    refine and_congr_right fun heq => ?_
    simp [← heq, he]

/-- One step of a way to a directory: past a segment that means nothing, up, into a directory, or
along a link. -/
theorem leadsTo_cons {f : List String → List String → Except Fault Spot} {s : String}
    {rest start : List String} :
    LeadsTo (walkWith v f true) (s :: rest) start loc ↔ v.isDirectoryAt start = true ∧
      if Path.isIdle s then LeadsTo (walkWith v f true) rest start loc
      else if s == ".." then LeadsTo (walkWith v f true) rest start.dropLast loc
      else s.utf8ByteSize ≤ nameLimit ∧
        ((v.isDirectoryAt (start ++ [s]) = true ∧
            LeadsTo (walkWith v f true) rest (start ++ [s]) loc) ∨
          ∃ target, v.entryAt (start ++ [s]) = some (.link target) ∧
            LeadsTo f (target.segments ++ rest) (if target.isAbsolute then [] else start) loc) := by
  unfold LeadsTo
  rw [walkWith]
  by_cases hdir : v.isDirectoryAt start = true
  · simp only [hdir, Bool.not_true, Bool.false_eq_true, if_false, true_and]
    split
    · rfl
    split
    · rfl
    by_cases hlong : s.utf8ByteSize > nameLimit
    · simp [hlong, Nat.not_le.mpr hlong]
    simp only [hlong, if_false, Nat.not_lt.mp hlong, true_and, isDirectoryAt_iff]
    rcases he : v.entryAt (start ++ [s]) with _ | ⟨_ | inner | target⟩
    · simp only [reduceCtorEq]; split <;> simp
    · -- a file leads nowhere
      cases rest <;> simp [walkWith, isDirectoryAt, he, Entry.isDirectory]
    · simp
    · simp
  · simp [hdir]

theorem LeadsTo.start_directory {f : List String → List String → Except Fault Spot}
    {segments start : List String} (h : LeadsTo (walkWith v f true) segments start loc) :
    v.isDirectoryAt start = true := by
  cases segments with
  | nil =>
    obtain ⟨rfl, hdir⟩ := leadsTo_nil.mp h
    exact hdir
  | cons s rest => exact (leadsTo_cons.mp h).1

theorem walkWith_keeps (h : Keeps touched v w) {f g : List String → List String → Except Fault Spot}
    (hfg : ∀ segments start, LeadsTo f segments start loc → LeadsTo g segments start loc)
    {segments start : List String} (hv : LeadsTo (walkWith v f true) segments start loc) :
    LeadsTo (walkWith w g true) segments start loc := by
  induction segments generalizing start with
  | nil =>
    rw [leadsTo_nil] at hv ⊢
    exact ⟨hv.1, h.directories _ hv.2⟩
  | cons s rest ih =>
    rw [leadsTo_cons] at hv ⊢
    obtain ⟨hdir, hv⟩ := hv
    refine ⟨h.directories _ hdir, ?_⟩
    split
    · next hidle => exact ih (by rwa [if_pos hidle] at hv)
    next hidle =>
    rw [if_neg hidle] at hv
    split
    · next hup => exact ih (by rwa [if_pos hup] at hv)
    next hup =>
    rw [if_neg hup] at hv
    obtain ⟨hshort, ⟨hin, hrest⟩ | ⟨target, hlink, hrest⟩⟩ := hv
    · exact ⟨hshort, Or.inl ⟨h.directories _ hin, ih hrest⟩⟩
    · exact ⟨hshort, Or.inr ⟨target, (h.links _ _).mpr hlink, hfg _ _ hrest⟩⟩

theorem walk_keeps (h : Keeps touched v w) {n : Nat} {segments start : List String}
    (hv : LeadsTo (v.walk true n) segments start loc) :
    LeadsTo (w.walk true n) segments start loc := by
  induction n generalizing segments start with
  | zero =>
    obtain ⟨_, hes⟩ := hv
    cases hes
  | succ n ih => exact walkWith_keeps h (fun _ _ => ih) hv

/-- What stands under a name in the directory at a location. -/
def spotIn (v : Volume) (loc : List String) (name : String) : Spot :=
  match v.entryAt (loc ++ [name]) with
  | none => .free loc name false
  | some entry => .taken (loc ++ [name]) entry

/-- A walk along segments and one more name comes to what stands under this name in the directory
that the segments lead to. -/
theorem walkWith_snoc {f g : List String → List String → Except Fault Spot}
    (hidle : Path.isIdle name = false) (hup : name ≠ "..") {spot : Spot}
    (hfg : ∀ segments start, g (segments ++ [name]) start = .ok spot ↔
      name.utf8ByteSize ≤ nameLimit ∧
        ∃ loc, LeadsTo f segments start loc ∧ spot = v.spotIn loc name)
    (segments start : List String) :
    walkWith v g false (segments ++ [name]) start = .ok spot ↔
      name.utf8ByteSize ≤ nameLimit ∧
        ∃ loc, LeadsTo (walkWith v f true) segments start loc ∧ spot = v.spotIn loc name := by
  induction segments generalizing start with
  | nil =>
    simp only [List.nil_append, leadsTo_nil]
    rw [walkWith]
    by_cases hdir : v.isDirectoryAt start = true
    · by_cases hlong : name.utf8ByteSize > nameLimit
      · simp [hdir, hidle, hup, hlong, Nat.not_le.mpr hlong]
      · simp [hdir, hidle, hup, hlong, Nat.not_lt.mp hlong, spotIn]
        rcases hn : v.entryAt (start ++ [name]) with _ | ⟨_ | _ | _⟩ <;>
          simp [walkWith, hn, eq_comm]
    · simp [hdir]
  | cons s rest ih =>
    have hidle' : (rest ++ [name]).all Path.isIdle = false := by simp [hidle]
    have hne : (rest ++ [name]).isEmpty = false := by simp
    rw [List.cons_append, walkWith]
    simp only [leadsTo_cons]
    by_cases hdir : v.isDirectoryAt start = true
    · simp only [hdir, true_and, Bool.not_true, Bool.false_eq_true, if_false]
      split
      · exact ih start
      split
      · exact ih _
      by_cases hlong : s.utf8ByteSize > nameLimit
      · simp [hlong, Nat.not_le.mpr hlong]
      simp only [hlong, if_false, Nat.not_lt.mp hlong, true_and, isDirectoryAt_iff]
      rcases he : v.entryAt (start ++ [s]) with _ | ⟨_ | inner | target⟩
      · simp [hidle']
      · -- a file leads nowhere
        have hfile : ∀ loc, ¬ LeadsTo (walkWith v f true) rest (start ++ [s]) loc := by
          intro loc hl
          have := hl.start_directory
          simp [isDirectoryAt, he, Entry.isDirectory] at this
        simp [ih, hfile]
      · simp [ih]
      · simp only [hne, Bool.false_and, Bool.false_eq_true, if_false]
        rw [← List.append_assoc, hfg]
        simp
    · simp [hdir]

theorem walk_snoc (hidle : Path.isIdle name = false) (hup : name ≠ "..") {n : Nat}
    {segments start : List String} {spot : Spot} :
    walk v false n (segments ++ [name]) start = .ok spot ↔ name.utf8ByteSize ≤ nameLimit ∧
      ∃ loc, LeadsTo (v.walk true n) segments start loc ∧ spot = v.spotIn loc name := by
  induction n generalizing segments start with
  | zero => simp [walk, LeadsTo]
  | succ n ih => exact walkWith_snoc hidle hup (fun _ _ => ih) segments start

/-- Whether a link at the end is followed matters only if there is one. -/
theorem walkWith_last {f g : List String → List String → Except Fault Spot}
    (hfg : ∀ segments start, (∀ loc target, g segments start ≠ .ok (.taken loc (.link target))) →
      f segments start = g segments start)
    {segments start : List String}
    (h : ∀ loc target, walkWith v g false segments start ≠ .ok (.taken loc (.link target))) :
    walkWith v f true segments start = walkWith v g false segments start := by
  induction segments generalizing start with
  | nil => rw [walkWith, walkWith]
  | cons s rest ih =>
    rw [walkWith] at h ⊢
    rw [walkWith]
    split
    · rfl
    next hdir =>
    rw [if_neg hdir] at h
    split
    · next hidle => exact ih (by rwa [if_pos hidle] at h)
    next hidle =>
    rw [if_neg hidle] at h
    split
    · next hup => exact ih (by rwa [if_pos hup] at h)
    next hup =>
    rw [if_neg hup] at h
    split
    · rfl
    next hlong =>
    rw [if_neg hlong] at h
    rcases he : v.entryAt (start ++ [s]) with _ | ⟨_ | inner | target⟩
    · rfl
    · simp only [he] at h ⊢
      exact ih h
    · simp only [he] at h ⊢
      exact ih h
    · simp only [he] at h ⊢
      cases rest with
      | nil => exact absurd rfl (h _ target)
      | cons r rs => exact hfg _ _ h

theorem walk_last {n : Nat} {segments start : List String}
    (h : ∀ loc target, walk v false n segments start ≠ .ok (.taken loc (.link target))) :
    walk v true n segments start = walk v false n segments start := by
  induction n generalizing segments start with
  | zero => rfl
  | succ n ih => exact walkWith_last (fun _ _ => ih) h

end Volume

/-! ## Paths that end in a name -/

/-- The last segment of a path is a name. -/
structure Path.EndsIn (p : Path) (name : String) : Prop where
  segments : p.segments = p.segments.dropLast ++ [name]
  notIdle : Path.isIdle name = false
  notUp : name ≠ ".."

theorem Path.EndsIn.unique {p : Path} {name name' : String} (h : p.EndsIn name)
    (h' : p.EndsIn name') : name = name' := by
  have heq := h.segments.symm.trans h'.segments
  simpa using heq

/-- A path and its last name are such that a volume can hold them. -/
structure Path.Admissible (p : Path) (name : String) : Prop where
  noNul : '\x00' ∉ p.text.toList
  notEmpty : p.text ≠ ""
  short : p.text.utf8ByteSize ≤ Volume.pathLimit
  shortName : name.utf8ByteSize ≤ Volume.nameLimit

namespace Volume

variable {v w : Volume} {loc : List String} {p : Path} {name : String}

/-- The segments before the last one of a path lead to the directory at a location. -/
def Folder (v : Volume) (p : Path) (loc : List String) : Prop :=
  LeadsTo (v.walk true (linkLimit + 1)) p.segments.dropLast
    (if p.isAbsolute then [] else v.home) loc

theorem Folder.keeps {touched : List String → Prop} (h : Keeps touched v w)
    (hv : v.Folder p loc) : w.Folder p loc := by
  have hw := walk_keeps h hv
  rwa [← h.home] at hw

theorem Folder.unique {loc' : List String} (h : v.Folder p loc) (h' : v.Folder p loc') :
    loc = loc' := by
  obtain ⟨es, hes⟩ := h
  obtain ⟨es', hes'⟩ := h'
  rw [hes] at hes'
  injection hes' with heq
  injection heq

theorem Folder.isDirectoryAt (h : v.Folder p loc) : v.isDirectoryAt loc = true := by
  obtain ⟨es, hes⟩ := h
  exact isDirectoryAt_iff.mpr ⟨es, walk_stands hes⟩

/-- A path leads to what stands under its last name in its folder. -/
theorem locate_iff (hp : p.EndsIn name) {spot : Spot} : v.locate false p = .ok spot ↔
    p.Admissible name ∧ ∃ loc, v.Folder p loc ∧ spot = v.spotIn loc name := by
  have hwalk : v.walk false (linkLimit + 1) p.segments (if p.isAbsolute then [] else v.home) =
      .ok spot ↔ name.utf8ByteSize ≤ nameLimit ∧
        ∃ loc, v.Folder p loc ∧ spot = v.spotIn loc name := by
    rw [hp.segments]
    exact walk_snoc hp.notIdle hp.notUp
  unfold locate
  refine ⟨?_, ?_⟩
  · intro h
    split at h
    · cases h
    next hnul =>
    split at h
    · cases h
    next hempty =>
    split at h
    · cases h
    next hlong =>
    obtain ⟨hshort, hspot⟩ := hwalk.mp h
    exact ⟨⟨by simpa using hnul, by simpa using hempty, Nat.not_lt.mp hlong, hshort⟩, hspot⟩
  · intro h
    obtain ⟨hadm, hspot⟩ := h
    rw [if_neg (by simpa using hadm.noNul), if_neg (by simpa using hadm.notEmpty),
      if_neg (Nat.not_lt.mpr hadm.short)]
    exact hwalk.mpr ⟨hadm.shortName, hspot⟩

theorem locate_eq_taken_iff (hp : p.EndsIn name) {location : List String} {e : Entry} :
    v.locate false p = .ok (.taken location e) ↔ p.Admissible name ∧
      ∃ loc, v.Folder p loc ∧ location = loc ++ [name] ∧ v.entryAt (loc ++ [name]) = some e := by
  rw [locate_iff hp]
  refine and_congr_right fun _ => exists_congr fun loc => and_congr_right fun _ => ?_
  unfold spotIn
  cases v.entryAt (loc ++ [name]) <;> simp [eq_comm]

theorem locate_eq_free_iff (hp : p.EndsIn name) {dir : List String} {n : String} {slash : Bool} :
    v.locate false p = .ok (.free dir n slash) ↔ p.Admissible name ∧ v.Folder p dir ∧ n = name ∧
      slash = false ∧ v.entryAt (dir ++ [name]) = none := by
  rw [locate_iff hp]
  refine and_congr_right fun _ => ?_
  refine ⟨?_, ?_⟩
  · intro h
    obtain ⟨loc, hfolder, hspot⟩ := h
    unfold spotIn at hspot
    cases he : v.entryAt (loc ++ [name]) with
    | none =>
      rw [he] at hspot
      injection hspot with hdir hn hslash
      exact ⟨hdir ▸ hfolder, hn, hslash, hdir ▸ he⟩
    | some e =>
      rw [he] at hspot
      cases hspot
  · intro h
    obtain ⟨hfolder, rfl, rfl, he⟩ := h
    exact ⟨dir, hfolder, by rw [spotIn, he]⟩

theorem locate_stands {last : Bool} {spot : Spot} (h : v.locate last p = .ok spot) :
    spot.Stands v := by
  unfold locate at h
  split at h
  · cases h
  split at h
  · cases h
  split at h
  · cases h
  · exact walk_stands h

/-- Whether a link at the end of a path is followed matters only if there is one. -/
theorem locate_last
    (h : ∀ loc target, v.locate false p ≠ .ok (.taken loc (.link target))) :
    v.locate true p = v.locate false p := by
  unfold locate at h ⊢
  split
  · rfl
  next hnul =>
  split
  · rfl
  next hempty =>
  split
  · rfl
  next hlong =>
  rw [if_neg hnul, if_neg hempty, if_neg hlong] at h
  exact walk_last h

/-! ## Changes -/

variable {touched : List String → Prop}

/-- Nothing, or a file. -/
def Plain (o : Option Entry) : Prop := ∀ e, o = some e → e.isFile = true

theorem Plain.cases {o : Option Entry} (h : Plain o) :
    o = none ∨ ∃ content, o = some (.file content) := by
  rcases o with _ | ⟨content | _ | _⟩
  · exact Or.inl rfl
  · exact Or.inr ⟨content, rfl⟩
  · cases h _ rfl
  · cases h _ rfl

theorem plain_none : Plain none := fun _ h => by cases h

theorem plain_file (content : Content) : Plain (some (.file content)) := by
  intro e h
  obtain rfl := Option.some.inj h
  rfl

theorem Alike.eq_of_plain {a b : Option Entry} (h : Alike a b) (ha : Plain a) : b = a := by
  obtain rfl | ⟨content, rfl⟩ := ha.cases
  · exact h.symm
  · exact h.symm

theorem Plain.not_directory (h : Plain (v.entryAt loc)) : v.isDirectoryAt loc = false := by
  obtain h | ⟨content, h⟩ := h.cases <;> simp [isDirectoryAt, h, Entry.isDirectory]

/-- Where there was a file or nothing, a file or a new directory is in nobody's way, and neither is
nothing. -/
theorem alike_setAt {o : Option Entry} (hd : v.isDirectoryAt loc = true)
    (hold : Plain (v.entryAt (loc ++ [name]))) (hnew : Plain o ∨ o = some (.directory []))
    {loc' : List String} (hne : loc' ≠ loc ++ [name]) :
    Alike (v.entryAt loc') ((v.setAt (loc ++ [name]) o).entryAt loc') := by
  refine entryAt_setAt_of_ne hd hold.not_directory ?_ hne
  intro n ns
  obtain h | rfl := hnew
  · obtain rfl | ⟨content, rfl⟩ := h.cases <;> rfl
  · rw [Option.bind_some, Entry.below?_directory, Entries.at?_cons]
    rfl

theorem keeps_setAt {o : Option Entry} (hd : v.isDirectoryAt loc = true)
    (hold : Plain (v.entryAt (loc ++ [name]))) (hnew : Plain o ∨ o = some (.directory [])) :
    Keeps (· = loc ++ [name]) v (v.setAt (loc ++ [name]) o) := by
  refine ⟨rfl, ?_, ?_, ?_⟩
  · intro loc' hdir
    have hne : loc' ≠ loc ++ [name] := by
      intro heq
      rw [heq, hold.not_directory] at hdir
      cases hdir
    obtain ⟨es, hes⟩ := isDirectoryAt_iff.mp hdir
    exact isDirectoryAt_iff.mpr (Alike.directory (hes ▸ alike_setAt hd hold hnew hne))
  · intro loc' target
    by_cases heq : loc' = loc ++ [name]
    · -- There is no link here, neither before nor after.
      rw [heq, entryAt_setAt_self hd]
      obtain hv | ⟨content, hv⟩ := hold.cases <;> rw [hv]
      all_goals
        obtain h | rfl := hnew
        · obtain rfl | ⟨content, rfl⟩ := h.cases <;> simp
        · simp
    · exact (alike_setAt hd hold hnew heq).eq_some_iff rfl
  · intro loc' content hne
    exact (alike_setAt hd hold hnew hne).eq_some_iff rfl

theorem createDirectory_keeps (h : v.createDirectory p = .ok w) : Keeps touched v w := by
  unfold createDirectory at h
  split at h
  · cases h
  · next dir name slash hloc =>
    obtain rfl := Except.ok.inj h
    obtain ⟨hd, hfree⟩ := locate_stands hloc
    have hkeeps : Keeps (· = dir ++ [name]) v (v.setAt (dir ++ [name]) (some (.directory []))) :=
      keeps_setAt hd (hfree ▸ plain_none) (Or.inr rfl)
    -- The new directory is no file, and there was none in its place.
    refine hkeeps.sharpen ?_
    intro loc content heq _
    rw [heq, hfree, entryAt_setAt_self hd]
    simp
  · cases h

theorem barred_eq_ok {α : Type} {refusal : Option Fault} {outcome : Except Fault α} {a : α}
    (h : barred refusal outcome = .ok a) : refusal = none ∧ outcome = .ok a := by
  unfold barred at h
  split at h
  · cases h
  · next hno =>
    cases refusal with
    | none => exact ⟨rfl, h⟩
    | some fault => exact absurd rfl (hno a fault h)

theorem ensureDirectory_keeps {refusal : Option Fault} (h : v.ensureDirectory refusal p = .ok w) :
    Keeps touched v w := by
  unfold ensureDirectory at h
  split at h
  · next u hu =>
    obtain rfl := Except.ok.inj h
    exact createDirectory_keeps (barred_eq_ok hu).2
  · split at h
    · obtain rfl := Except.ok.inj h
      exact Keeps.refl v
    · cases h

theorem createDirectoriesFrom_keeps (refusal? : Path → Option Fault) (n : Nat) (v : Volume)
    (p : Path) : Keeps touched v (createDirectoriesFrom refusal? n v p).1 := by
  induction n generalizing v p with
  | zero => exact Keeps.refl v
  | succ n ih =>
    rw [createDirectoriesFrom]
    split
    · exact Keeps.refl v
    split
    · next w hw => exact ensureDirectory_keeps hw
    · split
      · exact Keeps.refl v
      · next parent _ =>
        have hparent := ih v parent
        split
        · next w hw =>
          rw [hw] at hparent
          refine hparent.trans ?_
          cases hq : w.ensureDirectory (refusal? p) p with
          | ok u => exact ensureDirectory_keeps hq
          | error fault => exact Keeps.refl w
        · next w fault hw =>
          rw [hw] at hparent
          exact hparent
    · exact Keeps.refl v

/-- Making directories does nothing else, whether it succeeds or not. -/
theorem createDirectories_keeps (v : Volume) (p : Path) (refusal? : Path → Option Fault) :
    Keeps touched v (v.createDirectories p refusal?).1 :=
  createDirectoriesFrom_keeps refusal? _ v p

end Volume

end CallGraph
