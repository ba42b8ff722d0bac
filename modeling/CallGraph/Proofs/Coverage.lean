import CallGraph.Proofs.Locations
import CallGraph.Watch.Service

/-!
What a build reads, against what a watcher reports.

Two parts of the program decide which files matter. A build takes every file among its inputs, and
from a directory what ignore rules leave and the extensions allow. A watcher drops notices by the
extension of their paths and by names on the way, and then asks whether the path is in scope, on
canonical paths.

The scope is no obstacle. Without links a canonical path is what a path spells, so a file that was
collected from an input is below the canonical path that the input was registered under, or is it
(`isWatching_of_from`). What is dropped before that is what the watcher is told to drop: a path
with an ignored name in it, and an input that has none of the extensions. Everything else that went
into a build leads to the next one when it changes.
-/

namespace CallGraph

/-! ## What is collected -/

namespace Sources

variable {v : Volume} {extensions : List String} {p : Path} {paths : List Path}

theorem mem_of_mem_distinctFrom {seen ps : List Path} (h : p ∈ distinctFrom seen ps) : p ∈ ps := by
  induction ps generalizing seen with
  | nil => exact h
  | cons q qs ih =>
    rw [distinctFrom] at h
    split at h
    · exact List.mem_cons_of_mem _ (ih h)
    · rcases List.mem_cons.mp h with rfl | h
      · exact List.mem_cons_self
      · exact List.mem_cons_of_mem _ (ih h)

theorem expand_cons_eq_ok_iff {walker : Walker} {input : Path} {inputs : List Path} :
    expand walker v extensions (input :: inputs) = .ok paths ↔
      ∃ first rest, ofInput? walker v extensions input = some first ∧
        expand walker v extensions inputs = .ok rest ∧ paths = first ++ rest := by
  rw [expand]
  cases ofInput? walker v extensions input with
  | none => simp
  | some first => cases expand walker v extensions inputs <;> simp [eq_comm]

theorem exists_input_of_mem_expand {walker : Walker} {inputs : List Path}
    (h : expand walker v extensions inputs = .ok paths) (hp : p ∈ paths) :
    ∃ input ∈ inputs, ∃ ps, ofInput? walker v extensions input = some ps ∧ p ∈ ps := by
  induction inputs generalizing paths with
  | nil =>
    obtain rfl := Except.ok.inj h
    cases hp
  | cons input inputs ih =>
    obtain ⟨first, rest, hi, hr, rfl⟩ := expand_cons_eq_ok_iff.mp h
    rcases List.mem_append.mp hp with hp | hp
    · exact ⟨input, List.mem_cons_self, first, hi, hp⟩
    · obtain ⟨j, hj, hx⟩ := ih hr hp
      exact ⟨j, List.mem_cons_of_mem _ hj, hx⟩

theorem mem_select {entries : List Path} : p ∈ select v extensions entries ↔
    p ∈ entries ∧ v.isFile p = true ∧ p.hasExtension extensions = true := by
  rw [select, List.mem_mergeSort, List.mem_filter, Bool.and_eq_true]

/-- A path is a directory followed by names. -/
def LiesBelow (directory p : Path) : Prop :=
  ∃ names : List String, (∀ n ∈ names, Path.isName n = true) ∧
    names.foldl Path.child directory = p

/-- What the walker that respects ignore rules lists lies below the directory. -/
theorem liesBelow_of_mem_walked (hv : v.isRegular = true) {directory : Path}
    (h : p ∈ walked v directory) : LiesBelow directory p := by
  unfold walked at h
  split at h
  · cases h
  split at h
  · next location e hloc =>
    obtain ⟨names, hnames, heq⟩ := List.mem_map.mp h
    exact ⟨names, Ignore.isName_of_mem_walk hv hnames, heq⟩
  · cases h

/-- Where a source comes from: it is an input, or it lies below an input and has one of the
extensions. -/
inductive From (v : Volume) (extensions : List String) (input p : Path) : Prop
  | itself (heq : p = input) (hfile : v.isFile input = true)
  | below (hdir : v.isDirectory input = true) (hbelow : LiesBelow input p)
      (hext : p.hasExtension extensions = true)

theorem exists_from_of_mem_collectWith {walker : Walker} {inputs : List Path}
    (hwalker : ∀ d ∈ inputs, ∀ q ∈ walker d, LiesBelow d q)
    (h : (collectWith walker v inputs extensions).2 = .ok paths) (hp : p ∈ paths) :
    ∃ input ∈ inputs, From v extensions input p := by
  unfold collectWith at h
  cases hx : expand walker v extensions inputs with
  | error failure => simp [hx] at h
  | ok all =>
    simp only [hx, Except.ok.injEq] at h
    rw [← h] at hp
    obtain ⟨input, hi, ps, hps, hmem⟩ := exists_input_of_mem_expand hx (mem_of_mem_distinctFrom hp)
    refine ⟨input, hi, ?_⟩
    unfold ofInput? at hps
    split at hps
    · next hfile =>
      obtain rfl := Option.some.inj hps
      exact .itself (List.mem_singleton.mp hmem) hfile
    split at hps
    · next hdir =>
      obtain rfl := Option.some.inj hps
      obtain ⟨hlisted, -, hext⟩ := mem_select.mp hmem
      exact .below hdir (hwalker input hi p hlisted) hext
    · cases hps

end Sources

/-! ## What is registered -/

namespace Service

variable {v : Volume} {w w' : Watcher} {input : Path} {inputs : List Path}

/-- The input has been registered under its canonical path. -/
def Registered (v : Volume) (w : Watcher) (input : Path) : Prop :=
  if v.isDirectory input then Watcher.normalize v input ∈ w.directories
  else Watcher.normalize v input ∈ w.files

/-- What one watcher has registered, another has as well. -/
structure Grows (w w' : Watcher) : Prop where
  extensions : w'.extensions = w.extensions
  files : w.files ⊆ w'.files
  directories : w.directories ⊆ w'.directories

theorem Grows.refl (w : Watcher) : Grows w w := ⟨rfl, List.Subset.refl _, List.Subset.refl _⟩

theorem Grows.trans {w'' : Watcher} (h : Grows w w') (h' : Grows w' w'') : Grows w w'' :=
  ⟨h'.extensions.trans h.extensions, List.Subset.trans h.files h'.files,
    List.Subset.trans h.directories h'.directories⟩

theorem Registered.grows (h : Registered v w input) (hg : Grows w w') :
    Registered v w' input := by
  unfold Registered at h ⊢
  split
  · next hdir =>
    rw [if_pos hdir] at h
    exact hg.directories h
  · next hdir =>
    rw [if_neg hdir] at h
    exact hg.files h

theorem receive_eq_ok {p : Path} {deep : Bool} (h : w.receive v p deep = .ok w') :
    v.contains p = true ∧ ∃ watches, w' = { w with watches } := by
  unfold Watcher.receive at h
  dsimp only at h
  split at h
  · next location e hloc =>
    obtain rfl := Except.ok.inj h
    exact ⟨Volume.contains_iff.mpr ⟨location, e, hloc⟩, _, rfl⟩
  · cases h
  · cases h

theorem watchDirectory_eq_ok {p : Path} (h : w.watchDirectory v p = .ok w') :
    v.contains p = true ∧ ∃ watches, w' =
      { w with watches, directories := w.directories ++ [Watcher.normalize v p] } := by
  simp only [Watcher.watchDirectory, bind, Except.bind] at h
  split at h
  · cases h
  · next u hu =>
    obtain ⟨hthere, watches, rfl⟩ := receive_eq_ok hu
    exact ⟨hthere, watches, (Except.ok.inj h).symm⟩

theorem watchFile_eq_ok {p : Path} (h : w.watchFile v p = .ok w') :
    v.contains (Watcher.directoryOf p) = true ∧ ∃ watches, w' =
      { w with watches, files := w.files ++ [Watcher.normalize v p] } := by
  simp only [Watcher.watchFile, bind, Except.bind] at h
  split at h
  · cases h
  · next u hu =>
    obtain ⟨hthere, watches, rfl⟩ := receive_eq_ok hu
    exact ⟨hthere, watches, (Except.ok.inj h).symm⟩

theorem Grows.of_watchDirectory {p : Path} (h : w.watchDirectory v p = .ok w') : Grows w w' := by
  obtain ⟨-, watches, rfl⟩ := watchDirectory_eq_ok h
  exact ⟨rfl, List.Subset.refl _, List.subset_append_left _ _⟩

theorem Grows.of_watchFile {p : Path} (h : w.watchFile v p = .ok w') : Grows w w' := by
  obtain ⟨-, watches, rfl⟩ := watchFile_eq_ok h
  exact ⟨rfl, List.subset_append_left _ _, List.Subset.refl _⟩

theorem watchInput_eq_ok (h : (watchInput v w input).2 = .ok w') :
    Grows w w' ∧ Registered v w' input := by
  unfold watchInput at h
  unfold Registered
  split at h
  · next hdir =>
    rw [if_pos hdir]
    refine ⟨.of_watchDirectory h, ?_⟩
    obtain ⟨-, watches, rfl⟩ := watchDirectory_eq_ok h
    exact List.mem_append_right _ (List.mem_singleton.mpr rfl)
  · next hdir =>
    rw [if_neg hdir]
    refine ⟨.of_watchFile h, ?_⟩
    obtain ⟨-, watches, rfl⟩ := watchFile_eq_ok h
    exact List.mem_append_right _ (List.mem_singleton.mpr rfl)

theorem watchInputs_eq_ok (h : (watchInputs v w inputs).2 = .ok w') :
    Grows w w' ∧ ∀ input ∈ inputs, Registered v w' input := by
  induction inputs generalizing w with
  | nil =>
    obtain rfl := Except.ok.inj h
    exact ⟨Grows.refl w, by simp⟩
  | cons input inputs ih =>
    rw [watchInputs] at h
    split at h
    · cases h
    · next events u hu =>
      have hfirst := watchInput_eq_ok (congrArg Prod.snd hu)
      have hrest := ih h
      refine ⟨hfirst.1.trans hrest.1, ?_⟩
      rw [List.forall_mem_cons]
      exact ⟨hfirst.2.grows hrest.1, hrest.2⟩

end Service

/-! ## What is reported -/

namespace Watcher

open Volume

variable {v v₀ v₁ v₂ : Volume} {w : Watcher} {p input : Path} {extensions : List String}

theorem normalize_of_contains (hv : v.isRegular = true) (h : v.contains p = true) :
    normalize v p = pathOf (v.spelled p) := by
  unfold normalize
  rw [(canonical_of_contains hv h).1]

theorem isWatching_of_from (h₀ : v₀.isRegular = true) (h₂ : v₂.isRegular = true)
    (hhome : v₂.home = v₀.home) (hinput : v₀.contains input = true)
    (hkind : v₁.isDirectory input = v₀.isDirectory input)
    (hregistered : Service.Registered v₀ w input) (hfrom : Sources.From v₁ extensions input p)
    (hthere : v₂.contains p = true) : w.isWatching v₂ p = true := by
  have hnames := (canonical_of_contains h₂ hthere).2
  unfold isWatching
  rw [normalize_of_contains h₂ hthere, Bool.or_eq_true, List.any_eq_true, List.any_eq_true]
  rw [spelled_congr hhome] at hnames ⊢
  unfold Service.Registered at hregistered
  rw [normalize_of_contains h₀ hinput] at hregistered
  cases hfrom with
  | itself heq hfile =>
    subst heq
    -- the input is no directory, so it was registered as a file
    have hnot : v₀.isDirectory p = false := by
      rw [← hkind]
      unfold isFile at hfile
      unfold isDirectory
      cases he : v₁.entry? p with
      | none => simp
      | some e => cases e <;> simp_all [Entry.isFile, Entry.isDirectory]
    rw [if_neg (by simp [hnot])] at hregistered
    exact Or.inl ⟨_, hregistered, by simp [Path.same]⟩
  | below hdir hbelow hext =>
    obtain ⟨names, hsegments, rfl⟩ := hbelow
    -- the names below the input are spelled after it, so its canonical path is where that of `p` starts
    rw [if_pos (by rw [← hkind, hdir])] at hregistered
    rw [spelled_below hsegments] at hnames ⊢
    exact Or.inr ⟨_, hregistered, startsWith_pathOf hnames⟩

theorem isIgnored_iff : isIgnored p = true ↔ ∃ c ∈ p.components, c.text ∈ ignoredNames := by
  simp [isIgnored]

theorem settle_isSome {s : Service} {n : Notice} (moment : Cache.Moment) (hn : n ∈ s.queue)
    (hscope : s.watcher.isWatching s.session.volume n.path = true) :
    (s.settle moment).2.isSome = true := by
  have hdue : (s.watcher.inScope s.session.volume s.queue).isEmpty = false := by
    rw [List.isEmpty_eq_false_iff]
    exact List.ne_nil_of_mem (List.mem_filter.mpr ⟨hn, hscope⟩)
  unfold Service.settle
  simp [hdue]

end Watcher

open Volume Watcher

/-- What a build reads, the watcher reports, apart from what it is told to drop. Let the inputs of a
job be there and be registered, in a file tree without links, and let a source be collected from
them, then or later, by any walker that lists what lies below a directory. Then the source is in
scope as long as it is there. A notice that it was modified is dropped exactly if the source is an
input that has none of the extensions, or has an ignored name on its way. If the notice gets into the
queue, the next batch is built. -/
theorem collected_is_watched (job : Job) (walker : Sources.Walker) (v₀ v₁ v₂ : Volume)
    (w : Watcher) (paths : List Path) (p : Path)
    (hwalker : ∀ d ∈ job.inputs, ∀ q ∈ walker d, Sources.LiesBelow d q)
    (hregular : v₀.isRegular = true ∧ v₂.isRegular = true) (hhome : v₂.home = v₀.home)
    (hinputs : ∀ i ∈ job.inputs, v₀.contains i = true ∧ v₁.isDirectory i = v₀.isDirectory i)
    (hw : (Service.watchInputs v₀ { extensions := job.extensions } job.inputs).2 = .ok w)
    (hc : (Sources.collectWith walker v₁ job.inputs job.extensions).2 = .ok paths) (hp : p ∈ paths)
    (hthere : v₂.contains p = true) :
    w.isWatching v₂ p = true ∧
    (w.passes ⟨.modified, p⟩ = false ↔
      p ∈ job.inputs ∧ p.hasExtension job.extensions = false ∨
        ∃ c ∈ p.components, c.text ∈ ["target", ".git", ".callfold"]) ∧
    ∀ (s : Service) (moment : Cache.Moment), s.watcher = w → s.session.volume = v₂ →
      ⟨.modified, p⟩ ∈ s.queue → (s.settle moment).2.isSome = true := by
  obtain ⟨input, hi, hfrom⟩ := Sources.exists_from_of_mem_collectWith hwalker hc hp
  obtain ⟨hgrows, hregistered⟩ := Service.watchInputs_eq_ok hw
  have hscope : w.isWatching v₂ p = true :=
    isWatching_of_from hregular.1 hregular.2 hhome (hinputs input hi).1 (hinputs input hi).2
      (hregistered input hi) hfrom hthere
  refine ⟨hscope, ?_, ?_⟩
  · have hext : w.extensions = job.extensions := hgrows.extensions
    -- only an input is collected without regard to its extension
    have hgiven : p.hasExtension job.extensions = false → p ∈ job.inputs := by
      intro hno
      cases hfrom with
      | itself heq hfile => rwa [heq]
      | below hdir hbelow hyes =>
        rw [hno] at hyes
        cases hyes
    have hnames : isIgnored p = true ↔ ∃ c ∈ p.components, c.text ∈ ["target", ".git", ".callfold"] :=
      isIgnored_iff
    rw [← hnames]
    unfold passes
    rw [hext]
    cases hd : p.hasExtension job.extensions with
    | false => simp [hgiven hd]
    | true => simp
  · rintro s moment rfl rfl hn
    exact settle_isSome moment hn hscope

/-- A tree with sources in a directory, below it, below an ignored name, and beside it. -/
def treeWithTarget (content : String) : Volume where
  home := ["w"]
  root := [("w", .directory [
    ("src", .directory [("a.rs", .file (.text "")),
      ("lib", .directory [("b.rs", .file (.text content))]),
      ("target", .directory [("gen.rs", .file (.text ""))])]),
    ("main.inc", .file (.text ""))])]

/-- A job for the directory and the file beside it. -/
def directoryAndFile : Job where
  pipeline := .extractor false true
  renderer := .standardOutput
  inputs := [⟨"src"⟩, ⟨"main.inc"⟩]
  extensions := ["rs"]

theorem collect_directoryAndFile :
    (Sources.collect (treeWithTarget "") directoryAndFile.inputs directoryAndFile.extensions).2 =
      .ok [⟨"src/a.rs"⟩, ⟨"src/lib/b.rs"⟩, ⟨"src/target/gen.rs"⟩, ⟨"main.inc"⟩] := by
  have hdir : Sources.select (treeWithTarget "") ["rs"]
      (Sources.walked (treeWithTarget "") ⟨"src"⟩) =
      [⟨"src/a.rs"⟩, ⟨"src/lib/b.rs"⟩, ⟨"src/target/gen.rs"⟩] := by
    refine (List.mergeSort_of_pairwise ?_).trans ?_
    · decide +kernel
    · decide +kernel
  have hfirst : Sources.ofInput? (Sources.walked (treeWithTarget "")) (treeWithTarget "") ["rs"]
      ⟨"src"⟩ = some (Sources.select (treeWithTarget "") ["rs"]
        (Sources.walked (treeWithTarget "") ⟨"src"⟩)) := by
    rfl
  have hsecond : Sources.ofInput? (Sources.walked (treeWithTarget "")) (treeWithTarget "") ["rs"]
      ⟨"main.inc"⟩ = some [⟨"main.inc"⟩] := by
    decide +kernel
  have hexpand : Sources.expand (Sources.walked (treeWithTarget "")) (treeWithTarget "")
      directoryAndFile.extensions directoryAndFile.inputs =
      .ok [⟨"src/a.rs"⟩, ⟨"src/lib/b.rs"⟩, ⟨"src/target/gen.rs"⟩, ⟨"main.inc"⟩] := by
    simp [directoryAndFile, Sources.expand, hfirst, hsecond, hdir]
  unfold Sources.collect Sources.collectWith
  rw [hexpand]
  rfl

theorem exists_watchInputs_directoryAndFile : ∃ w, (Service.watchInputs (treeWithTarget "")
    { extensions := directoryAndFile.extensions } directoryAndFile.inputs).2 = .ok w := by
  have hok : (Service.watchInputs (treeWithTarget "") { extensions := directoryAndFile.extensions }
      directoryAndFile.inputs).2.toOption.isSome = true := by
    decide +kernel
  cases h : (Service.watchInputs (treeWithTarget "") { extensions := directoryAndFile.extensions }
      directoryAndFile.inputs).2 with
  | error failure =>
    rw [h] at hok
    cases hok
  | ok w => exact ⟨w, rfl⟩

/-- A source two directories below an input is reported and built after its content has changed. -/
theorem collected_is_watched_nestedSource : ∃ w, (Service.watchInputs (treeWithTarget "")
      { extensions := directoryAndFile.extensions } directoryAndFile.inputs).2 = .ok w ∧
    w.isWatching (treeWithTarget "fn b() \x7b\x7d") ⟨"src/lib/b.rs"⟩ = true ∧
    w.passes ⟨.modified, ⟨"src/lib/b.rs"⟩⟩ = true ∧
    ((Service.mk directoryAndFile ⟨treeWithTarget "fn b() \x7b\x7d", {}⟩ w
      [⟨.modified, ⟨"src/lib/b.rs"⟩⟩] none).settle { savedAt := "" }).2.isSome = true := by
  obtain ⟨w, hw⟩ := exists_watchInputs_directoryAndFile
  have hinputs : ∀ i ∈ directoryAndFile.inputs, (treeWithTarget "").contains i = true ∧
      (treeWithTarget "").isDirectory i = (treeWithTarget "").isDirectory i := by
    decide +kernel
  have hwalker : ∀ d ∈ directoryAndFile.inputs, ∀ q ∈ Sources.walked (treeWithTarget "") d,
      Sources.LiesBelow d q :=
    fun d _ q hq => Sources.liesBelow_of_mem_walked (by decide +kernel) hq
  obtain ⟨hscope, hpasses, hsettle⟩ := collected_is_watched directoryAndFile _ (treeWithTarget "")
    (treeWithTarget "") (treeWithTarget "fn b() \x7b\x7d") w _ ⟨"src/lib/b.rs"⟩ hwalker
    (by decide +kernel) rfl hinputs hw collect_directoryAndFile (by decide) (by decide +kernel)
  refine ⟨w, hw, hscope, ?_, hsettle _ _ rfl rfl (List.mem_singleton.mpr rfl)⟩
  rw [← Bool.not_eq_false, hpasses]
  decide +kernel

/-- Two sources of one build whose changes are dropped: one below an ignored name, and an input that
has none of the extensions. -/
theorem collected_source_is_unreported : ∃ w paths, (treeWithTarget "").isRegular = true ∧
    (∀ i ∈ directoryAndFile.inputs, (treeWithTarget "").contains i = true) ∧
    (Service.watchInputs (treeWithTarget "") { extensions := directoryAndFile.extensions }
      directoryAndFile.inputs).2 = .ok w ∧
    (Sources.collect (treeWithTarget "") directoryAndFile.inputs directoryAndFile.extensions).2 =
      .ok paths ∧
    ⟨"src/target/gen.rs"⟩ ∈ paths ∧ w.passes ⟨.modified, ⟨"src/target/gen.rs"⟩⟩ = false ∧
    ⟨"main.inc"⟩ ∈ paths ∧ w.passes ⟨.modified, ⟨"main.inc"⟩⟩ = false := by
  obtain ⟨w, hw⟩ := exists_watchInputs_directoryAndFile
  have hext : w.extensions = ["rs"] := (Service.watchInputs_eq_ok hw).1.extensions
  refine ⟨w, _, by decide +kernel, by decide +kernel, hw, collect_directoryAndFile, by decide, ?_,
    by decide, ?_⟩
  · unfold passes
    rw [hext]
    decide +kernel
  · unfold passes
    rw [hext]
    decide +kernel

end CallGraph
