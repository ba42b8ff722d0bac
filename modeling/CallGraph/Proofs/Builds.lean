import CallGraph.Pipeline
import CallGraph.Proofs.Folding
import CallGraph.Proofs.Storage

/-!
Builds through the cache, over whole runs.

The cache is asked for the texts of all files of a build, one after the other, and for nothing else.
So a build is answered like the first one of the run that had the same texts and did not fail.

What is proved:
1. `Pipeline.build_cases`: what one build does, and how often it calls its parser.
2. `sound_visit`: the entries of the cache stay the answers to the first builds with their keys.
3. `settled_run`: over restarts, too, the cache file is in step with the memory, if every persist
   succeeds. Together: which builds of a run are hits, what they return, and when the parser runs.
-/

namespace CallGraph

namespace Pipeline

/-- The text that sources lead to when nothing is cached. -/
def answer (parse : List SourceFile → Parsed) (files : List SourceFile) : Except Error String := do
  let g ← (parse files).result
  let f ← g.fold
  return Dot.render f.clean

/-- A parser that notes the sources it is called with. -/
def noting (parse : List SourceFile → Parsed) (files : List SourceFile) :
    StateM (List (List SourceFile)) Parsed := do
  modify (· ++ [files])
  return parse files

/-- A build, and the sources that it calls the parser with. -/
def traced (p : Pipeline) (s : Session) (moment : Cache.Moment) (files : List SourceFile) :
    Built × List (List SourceFile) :=
  (p.buildWith (noting p.parse) s moment files).run []

variable {p : Pipeline} {s : Session} {moment : Cache.Moment} {files : List SourceFile}
  {dot : String}

theorem build_of_hit (h : p.cached? s files = some dot) : p.build s moment files =
    ⟨s, [.cacheHit files.length], .ok ⟨dot, { cacheHit := true, files := files.length }⟩⟩ := by
  unfold build buildWith
  rw [h]
  rfl

theorem build_of_miss (h : p.cached? s files = none) :
    p.build s moment files = p.conclude s moment files (p.parse files) := by
  unfold build buildWith
  rw [h]
  rfl

/-- Noting the calls of the parser changes nothing: there is one if the cache has no answer. -/
theorem traced_eq (p : Pipeline) (s : Session) (moment : Cache.Moment) (files : List SourceFile) :
    p.traced s moment files =
      (p.build s moment files, if (p.cached? s files).isSome then [] else [files]) := by
  unfold traced buildWith
  cases h : p.cached? s files with
  | none => rw [build_of_miss h]; rfl
  | some dot => rw [build_of_hit h]; rfl

theorem conclude_error {e : Error} (s : Session) (moment : Cache.Moment)
    (h : answer p.parse files = .error e) :
    (p.conclude s moment files (p.parse files)).session = s ∧
      (p.conclude s moment files (p.parse files)).result = .error e := by
  unfold answer at h
  unfold conclude
  cases hparse : (p.parse files).result with
  | error e' =>
    rw [hparse] at h
    exact ⟨rfl, by simpa [bind, Except.bind] using h⟩
  | ok g =>
    -- Folding never fails.
    obtain ⟨_, f, hf, _⟩ := g.fold_spec
    rw [hparse] at h
    simp [bind, Except.bind, hf, pure, Except.pure] at h

theorem conclude_ok (s : Session) (moment : Cache.Moment) (h : answer p.parse files = .ok dot) :
    (p.conclude s moment files (p.parse files)).session = (p.store s moment files dot).1 ∧
      ∃ report, report.cacheHit = false ∧
        report.persisted = (p.store s moment files dot).2.2 ∧
        (p.conclude s moment files (p.parse files)).result = .ok ⟨dot, report⟩ := by
  unfold answer at h
  unfold conclude finish
  cases hparse : (p.parse files).result with
  | error e' =>
    rw [hparse] at h
    cases h
  | ok g =>
    obtain ⟨_, f, hf, _⟩ := g.fold_spec
    rw [hparse] at h
    simp only [bind, Except.bind, hf, pure, Except.pure, Except.ok.injEq] at h
    subst h
    dsimp only
    rw [hf]
    exact ⟨rfl, _, rfl, rfl, rfl⟩

theorem conclude_dot (p : Pipeline) (s : Session) (moment : Cache.Moment)
    (files : List SourceFile) :
    (p.conclude s moment files (p.parse files)).result.map Output.dot = answer p.parse files := by
  cases h : answer p.parse files with
  | error e => rw [(conclude_error s moment h).2]; rfl
  | ok dot =>
    obtain ⟨_, _, _, _, hresult⟩ := conclude_ok s moment h
    rw [hresult]
    rfl

/-- What a build through the cache does: it returns what the cache has, or it fails with its parser,
or it stores the answer and returns it. -/
theorem build_cases (hp : p.useCache = true) (s : Session) (moment : Cache.Moment)
    (files : List SourceFile) :
    (∃ dot, s.cache.entries.get? (buildKey files) = some dot ∧
      (p.traced s moment files).1.session = s ∧
      (p.traced s moment files).1.result =
        .ok ⟨dot, { cacheHit := true, files := files.length }⟩ ∧
      (p.traced s moment files).2 = []) ∨
    s.cache.entries.get? (buildKey files) = none ∧ (p.traced s moment files).2 = [files] ∧
      ((∃ e, answer p.parse files = .error e ∧ (p.traced s moment files).1.session = s ∧
        (p.traced s moment files).1.result = .error e) ∨
      ∃ dot report, answer p.parse files = .ok dot ∧ report.cacheHit = false ∧
        report.persisted = (p.store s moment files dot).2.2 ∧
        (p.traced s moment files).1.session = (p.store s moment files dot).1 ∧
        (p.traced s moment files).1.result = .ok ⟨dot, report⟩) := by
  have hget : p.cached? s files = s.cache.entries.get? (buildKey files) := by
    rw [cached?, if_pos hp]
    rfl
  rw [traced_eq, ← hget]
  cases hcached : p.cached? s files with
  | some dot =>
    rw [build_of_hit hcached]
    exact Or.inl ⟨dot, rfl, rfl, rfl, rfl⟩
  | none =>
    rw [build_of_miss hcached]
    refine Or.inr ⟨rfl, rfl, ?_⟩
    cases hanswer : answer p.parse files with
    | error e =>
      obtain ⟨hsession, hresult⟩ := conclude_error s moment hanswer
      exact Or.inl ⟨e, rfl, hsession, hresult⟩
    | ok dot =>
      obtain ⟨hsession, report, hhit, hpersisted, hresult⟩ := conclude_ok s moment hanswer
      exact Or.inr ⟨dot, report, rfl, hhit, hpersisted, hsession, hresult⟩

theorem store_cache (hp : p.useCache = true) (s : Session) (moment : Cache.Moment)
    (files : List SourceFile) (dot : String) :
    (p.store s moment files dot).1 =
      ⟨((s.cache.insert (buildKey files) dot).persist s.volume moment).volume,
        s.cache.insert (buildKey files) dot⟩ := by
  unfold store
  rw [if_pos hp]
  dsimp only
  split <;> rfl

theorem store_persisted (hp : p.useCache = true) (s : Session) (moment : Cache.Moment)
    (files : List SourceFile) (dot : String) (h : (p.store s moment files dot).2.2 = true) :
    ((s.cache.insert (buildKey files) dot).persist s.volume moment).result = .ok () := by
  unfold store at h
  rw [if_pos hp] at h
  dsimp only at h
  split at h
  · next hok => exact hok
  · cases h

theorem build_dot_of_uncached (hp : p.useCache = false) (s : Session) (moment : Cache.Moment)
    (files : List SourceFile) :
    (p.build s moment files).result.map Output.dot = answer p.parse files := by
  rw [build_of_miss (by simp [cached?, hp]), conclude_dot]

end Pipeline

theorem isOk_map_dot (r : Except Error Output) : (r.map Output.dot).isOk = r.isOk := by
  cases r <;> rfl

/-! ## Runs -/

/-- Every item of a list is in a relation to those before it. -/
def Successive {α : Type} (R : List α → α → Prop) (l : List α) : Prop :=
  ∀ (i : Nat) (x : α), l[i]? = some x → R (l.take i) x

theorem Successive.append {α : Type} {R : List α → α → Prop} {l : List α} {x : α}
    (h : Successive R l) (hx : R l x) : Successive R (l ++ [x]) := by
  intro i y hy
  by_cases hi : i < l.length
  · rw [List.getElem?_append_left hi] at hy
    rw [List.take_append_of_le_length (Nat.le_of_lt hi)]
    exact h i y hy
  · have hlast : i = l.length := by
      have := (List.getElem?_eq_some_iff.mp hy).1
      simp at this
      omega
    subst hlast
    rw [List.getElem?_concat_length] at hy
    obtain rfl := Option.some.inj hy
    rwa [List.take_left]

/-- One build of a run: its files, what it returned, and the calls of the parser. -/
structure Visit where
  files : List SourceFile
  result : Except Error Output
  calls : List (List SourceFile)

namespace Visit

/-- The build has a key and returned a text. -/
def answers (key : String) (x : Visit) : Bool := buildKey x.files == key && x.result.isOk

/-- Whether the build was answered from the cache. -/
def isHit (x : Visit) : Bool :=
  match x.result with
  | .ok o => o.report.cacheHit
  | .error _ => false

theorem isOk_of_isHit {x : Visit} (h : x.isHit = true) : x.result.isOk = true := by
  unfold isHit at h
  cases hr : x.result with
  | ok o => rfl
  | error e => rw [hr] at h; cases h

/-- Whether the build wrote the cache file, if it stored a text. -/
def isSaved (x : Visit) : Bool :=
  match x.result with
  | .ok o => o.report.cacheHit || o.report.persisted
  | .error _ => true

/-- A build is answered like the first one with its key that returned a text. If there was none, the
parser runs. -/
def Expected (parse : List SourceFile → Parsed) (earlier : List Visit) (x : Visit) : Prop :=
  match earlier.find? (answers (buildKey x.files)) with
  | some first =>
    x.isHit = true ∧ x.calls = [] ∧ x.result.map Output.dot = Pipeline.answer parse first.files
  | none =>
    x.isHit = false ∧ x.calls = [x.files] ∧ x.result.map Output.dot = Pipeline.answer parse x.files

theorem expected_of_some {parse : List SourceFile → Parsed} {earlier : List Visit} {x first : Visit}
    (hfind : earlier.find? (answers (buildKey x.files)) = some first) :
    x.Expected parse earlier ↔
      x.isHit = true ∧ x.calls = [] ∧
        x.result.map Output.dot = Pipeline.answer parse first.files := by
  rw [Expected, hfind]

theorem expected_of_none {parse : List SourceFile → Parsed} {earlier : List Visit} {x : Visit}
    (hfind : earlier.find? (answers (buildKey x.files)) = none) :
    x.Expected parse earlier ↔
      x.isHit = false ∧ x.calls = [x.files] ∧
        x.result.map Output.dot = Pipeline.answer parse x.files := by
  rw [Expected, hfind]

end Visit

/-- A session, and the builds that led to it. -/
structure Course where
  session : Session
  visits : List Visit := []

namespace Course

def visit (p : Pipeline) (c : Course) (moment : Cache.Moment) (files : List SourceFile) : Course :=
  let traced := p.traced c.session moment files
  ⟨traced.1.session, c.visits ++ [⟨files, traced.1.result, traced.2⟩]⟩

/-- The entries are the answers to the first builds with their keys. -/
structure Remembers (parse : List SourceFile → Parsed) (visits : List Visit) (entries : TextMap) :
    Prop where
  fresh : ∀ key, visits.find? (Visit.answers key) = none → entries.get? key = none
  known : ∀ key y, visits.find? (Visit.answers key) = some y →
    ∃ dot, Pipeline.answer parse y.files = .ok dot ∧ entries.get? key = some dot

/-- The session has the entries that its builds lead to, and each build did what was expected. -/
structure Sound (parse : List SourceFile → Parsed) (c : Course) : Prop where
  remembers : Remembers parse c.visits c.session.cache.entries
  expected : Successive (Visit.Expected parse) c.visits

variable {p : Pipeline} {c : Course} {moment : Cache.Moment} {files : List SourceFile}
  {parse : List SourceFile → Parsed} {visits : List Visit} {entries : TextMap} {x : Visit}
  {dot : String}

/-- A build that has no new answer leaves the entries right. -/
theorem Remembers.append_known (h : Remembers parse visits entries)
    (hx : ∀ key, visits.find? (Visit.answers key) = none → x.answers key = false) :
    Remembers parse (visits ++ [x]) entries := by
  refine ⟨?_, ?_⟩
  · intro key hkey
    rw [List.find?_append, Option.or_eq_none_iff] at hkey
    exact h.fresh key hkey.1
  · intro key y hkey
    cases hfind : visits.find? (Visit.answers key) with
    | some y' =>
      rw [List.find?_append, hfind, Option.some_or] at hkey
      obtain rfl := Option.some.inj hkey
      exact h.known key y' hfind
    | none =>
      rw [List.find?_append, hfind, Option.none_or, List.find?_singleton, hx key hfind] at hkey
      cases hkey

theorem Remembers.append_new (h : Remembers parse visits entries)
    (hfresh : visits.find? (Visit.answers (buildKey x.files)) = none) (hok : x.result.isOk = true)
    (hdot : Pipeline.answer parse x.files = .ok dot) :
    Remembers parse (visits ++ [x]) (entries.insert (buildKey x.files) dot) := by
  have hanswers (key : String) : x.answers key = (buildKey x.files == key) := by
    rw [Visit.answers, hok, Bool.and_true]
  refine ⟨?_, ?_⟩
  · intro key hkey
    rw [List.find?_append, Option.or_eq_none_iff, List.find?_singleton, hanswers] at hkey
    have hne : key ≠ buildKey x.files := by
      intro heq
      simp [heq] at hkey
    rw [TextMap.get?_insert, if_neg hne]
    exact h.fresh key hkey.1
  · intro key y hkey
    rw [TextMap.get?_insert]
    split
    · -- No earlier build has this key, so the new one is the first.
      next heq =>
      rw [List.find?_append, heq, hfresh, Option.none_or, List.find?_singleton, hanswers,
        beq_self_eq_true, if_pos rfl] at hkey
      obtain rfl := Option.some.inj hkey
      exact ⟨dot, hdot, rfl⟩
    · next hne =>
      rw [List.find?_append, List.find?_singleton, hanswers,
        if_neg (by simpa using Ne.symm hne), Option.or_none] at hkey
      exact h.known key y hkey

/-- What a build does: it repeats the answer to the first build with its key, or it fails with its
parser, or it enters a new answer. -/
theorem visit_cases (hp : p.useCache = true)
    (h : Remembers p.parse c.visits c.session.cache.entries) (moment : Cache.Moment)
    (files : List SourceFile) :
    (∃ first dot, c.visits.find? (Visit.answers (buildKey files)) = some first ∧
      Pipeline.answer p.parse first.files = .ok dot ∧
      c.visit p moment files = ⟨c.session, c.visits ++
        [⟨files, .ok ⟨dot, { cacheHit := true, files := files.length }⟩, []⟩]⟩) ∨
    c.visits.find? (Visit.answers (buildKey files)) = none ∧
      ((∃ e, Pipeline.answer p.parse files = .error e ∧
        c.visit p moment files = ⟨c.session, c.visits ++ [⟨files, .error e, [files]⟩]⟩) ∨
      ∃ dot report, Pipeline.answer p.parse files = .ok dot ∧ report.cacheHit = false ∧
        report.persisted = (p.store c.session moment files dot).2.2 ∧
        c.visit p moment files = ⟨(p.store c.session moment files dot).1, c.visits ++
          [⟨files, .ok ⟨dot, report⟩, [files]⟩]⟩) := by
  obtain ⟨dot, hget, hsession, hresult, hcalls⟩ | ⟨hget, hcalls, hmiss⟩ :=
    Pipeline.build_cases hp c.session moment files
  -- There is an entry if and only if there is an earlier build, and it is the same answer.
  · cases hfind : c.visits.find? (Visit.answers (buildKey files)) with
    | none => cases (h.fresh _ hfind).symm.trans hget
    | some first =>
      obtain ⟨dot', hdot, hget'⟩ := h.known _ first hfind
      obtain rfl := Option.some.inj (hget.symm.trans hget')
      exact Or.inl ⟨first, dot, rfl, hdot, by rw [visit, hsession, hresult, hcalls]⟩
  · cases hfind : c.visits.find? (Visit.answers (buildKey files)) with
    | some first =>
      obtain ⟨dot', _, hget'⟩ := h.known _ first hfind
      cases hget.symm.trans hget'
    | none =>
      refine Or.inr ⟨rfl, ?_⟩
      obtain ⟨e, he, hsession, hresult⟩ |
        ⟨dot, report, hdot, hhit, hpers, hsession, hresult⟩ := hmiss
      · exact Or.inl ⟨e, he, by rw [visit, hsession, hresult, hcalls]⟩
      · exact Or.inr ⟨dot, report, hdot, hhit, hpers, by rw [visit, hsession, hresult, hcalls]⟩

theorem sound_visit (hp : p.useCache = true) (h : Sound p.parse c) (moment : Cache.Moment)
    (files : List SourceFile) : Sound p.parse (c.visit p moment files) := by
  obtain ⟨first, dot, hfind, hdot, hvisit⟩ | ⟨hfind, ⟨e, he, hvisit⟩ |
    ⟨dot, report, hdot, hhit, _, hvisit⟩⟩ := visit_cases hp h.remembers moment files
  · rw [hvisit]
    refine ⟨h.remembers.append_known ?_, h.expected.append ?_⟩
    · -- The key of this build is not new.
      intro key hkey
      have hne : buildKey files ≠ key := by
        intro heq
        rw [← heq, hfind] at hkey
        cases hkey
      simp [Visit.answers, hne]
    · exact (Visit.expected_of_some hfind).mpr ⟨rfl, rfl, hdot.symm⟩
  · rw [hvisit]
    refine ⟨h.remembers.append_known ?_, h.expected.append ?_⟩
    · intro key _
      simp [Visit.answers, Except.isOk, Except.toBool]
    · exact (Visit.expected_of_none hfind).mpr ⟨rfl, rfl, he.symm⟩
  · rw [hvisit]
    refine ⟨?_, h.expected.append ?_⟩
    · dsimp only
      rw [Pipeline.store_cache hp]
      exact h.remembers.append_new hfind rfl hdot
    · exact (Visit.expected_of_none hfind).mpr ⟨hhit, rfl, hdot.symm⟩

theorem sound_start (parse : List SourceFile → Parsed) {s : Session}
    (hempty : s.cache.entries = {}) : Sound parse { session := s } := by
  refine ⟨⟨?_, ?_⟩, ?_⟩
  · intro key _
    rw [hempty]
    rfl
  · intro key y hy
    cases hy
  · intro i x hx
    simp at hx

/-! ## Restarts -/

/-- A step of a run: a build, or a restart, which loads the cache again. -/
inductive Step where
  | build (moment : Cache.Moment) (files : List SourceFile)
  | restart

def step (p : Pipeline) (directory : Path) (ns : String) (c : Course) : Step → Course
  | .build moment files => c.visit p moment files
  | .restart =>
    { c with session := ⟨c.session.volume, (Cache.load c.session.volume directory ns).2⟩ }

def run (p : Pipeline) (directory : Path) (ns : String) (v : Volume) (steps : List Step) : Course :=
  steps.foldl (step p directory ns) { session := ⟨v, (Cache.load v directory ns).2⟩ }

variable {directory : Path} {ns : String}

/-- A sound course whose cache file holds the entries of the session. -/
structure Settled (parse : List SourceFile → Parsed) (directory : Path) (ns : String)
    (c : Course) : Prop extends Sound parse c where
  path : c.session.cache.path = some (Cache.filePath directory ns)
  holds : c.session.volume.Holds (Cache.filePath directory ns) c.session.cache.entries

theorem Settled.load (h : Settled parse directory ns c) :
    (Cache.load c.session.volume directory ns).2 = c.session.cache := by
  rw [Cache.load_of_holds h.holds, ← h.path]

theorem settled_start {v : Volume} (hvacant : v.Vacant (Cache.filePath directory ns)) :
    Settled parse directory ns { session := ⟨v, (Cache.load v directory ns).2⟩ } := by
  have hholds : v.Holds (Cache.filePath directory ns) {} := Or.inl ⟨hvacant, rfl⟩
  have hload := Cache.load_of_holds hholds
  refine ⟨sound_start parse (by rw [hload]), by rw [hload], ?_⟩
  dsimp only
  rw [hload]
  exact hholds

/-- A build whose persist succeeds keeps the cache file in step with the session. -/
theorem settled_visit (hp : p.useCache = true) (h : Settled p.parse directory ns c)
    (hsaved : ∀ x ∈ (c.visit p moment files).visits, x.isSaved = true) :
    Settled p.parse directory ns (c.visit p moment files) := by
  have hsound := sound_visit hp h.toSound moment files
  obtain ⟨first, dot, _, _, hvisit⟩ | ⟨_, ⟨e, _, hvisit⟩ | ⟨dot, report, _, hhit, hpers, hvisit⟩⟩ :=
    visit_cases hp h.remembers moment files
  · rw [hvisit] at hsound ⊢
    exact ⟨hsound, h.path, h.holds⟩
  · rw [hvisit] at hsound ⊢
    exact ⟨hsound, h.path, h.holds⟩
  · rw [hvisit] at hsaved hsound ⊢
    have hreport : report.persisted = true := by
      have hlast := hsaved _ (List.mem_append_right _ (List.mem_singleton_self _))
      simpa [Visit.isSaved, hhit] using hlast
    have hok := Pipeline.store_persisted hp c.session moment files dot (hpers ▸ hreport)
    have hpath : (c.session.cache.insert (buildKey files) dot).path =
      some (Cache.filePath directory ns) := h.path
    rw [Pipeline.store_cache hp] at hsound ⊢
    exact ⟨hsound, hpath, (Cache.persist_succeeds h.holds hpath hok).1⟩

theorem visits_step (p : Pipeline) (directory : Path) (ns : String) (c : Course) (a : Step) :
    c.visits <+: (c.step p directory ns a).visits := by
  cases a with
  | build moment files => exact List.prefix_append _ _
  | restart => exact List.prefix_rfl

/-- The invariant holds along a run. The induction is on its last step, as the persists of the
whole run are known to succeed. -/
theorem settled_run (parse : List SourceFile → Parsed) {v : Volume}
    (hvacant : v.Vacant (Cache.filePath directory ns)) (steps : List Step)
    (hsaved : ∀ x ∈ (run ⟨parse, true⟩ directory ns v steps).visits, x.isSaved = true) :
    Settled parse directory ns (run ⟨parse, true⟩ directory ns v steps) := by
  induction steps using List.reverseRecOn with
  | nil => exact settled_start hvacant
  | append_singleton steps a ih =>
    unfold run at hsaved ih ⊢
    rw [List.foldl_append] at hsaved ⊢
    have hbefore := ih fun x hx => hsaved x ((visits_step _ _ _ _ a).subset hx)
    cases a with
    | build moment files => exact settled_visit rfl hbefore hsaved
    | restart =>
      -- What is loaded is the cache that was dropped.
      refine ⟨⟨?_, hbefore.expected⟩, ?_, ?_⟩
      all_goals
        dsimp only [List.foldl, step]
        rw [hbefore.load]
      · exact hbefore.remembers
      · exact hbefore.path
      · exact hbefore.holds

/-- **Cached builds, across restarts.** A build is a hit if and only if an earlier build with its
key returned a text. A hit returns the text of the first such build, and the parser does not run. On
a miss the parser runs once, and the build returns its error or the text of its graph. -/
theorem hit_iff_answered_before (parse : List SourceFile → Parsed) (directory : Path) (ns : String)
    (v : Volume) (hvacant : v.Vacant (Cache.filePath directory ns)) (steps : List Step)
    (hsaved : ∀ x ∈ (run ⟨parse, true⟩ directory ns v steps).visits, x.isSaved = true)
    (i : Nat) (x : Visit) (hx : (run ⟨parse, true⟩ directory ns v steps).visits[i]? = some x) :
    let earlier := (run ⟨parse, true⟩ directory ns v steps).visits.take i
    (x.isHit = true ↔ ∃ y ∈ earlier, buildKey y.files = buildKey x.files ∧ y.result.isOk = true) ∧
      (x.isHit = true → ∃ first, earlier.find? (Visit.answers (buildKey x.files)) = some first ∧
        x.calls = [] ∧ x.result.map Output.dot = Pipeline.answer parse first.files) ∧
      (x.isHit = false → x.calls = [x.files] ∧
        x.result.map Output.dot = Pipeline.answer parse x.files) := by
  intro earlier
  have hexpected : x.Expected parse earlier :=
    (settled_run parse hvacant steps hsaved).expected i x hx
  cases hfind : earlier.find? (Visit.answers (buildKey x.files)) with
  | some first =>
    obtain ⟨hhit, hcalls, hdot⟩ := (Visit.expected_of_some hfind).mp hexpected
    refine ⟨iff_of_true hhit ⟨first, List.mem_of_find?_eq_some hfind, ?_⟩,
      fun _ => ⟨first, rfl, hcalls, hdot⟩, fun hmiss => by simp [hmiss] at hhit⟩
    simpa [Visit.answers] using List.find?_some hfind
  | none =>
    obtain ⟨hmiss, hcalls, hdot⟩ := (Visit.expected_of_none hfind).mp hexpected
    refine ⟨iff_of_false (by simp [hmiss]) ?_, fun hhit => by simp [hmiss] at hhit,
      fun _ => ⟨hcalls, hdot⟩⟩
    intro hex
    obtain ⟨y, hy, hkey, hok⟩ := hex
    have hno := List.find?_eq_none.mp hfind y hy
    simp [Visit.answers, hkey, hok] at hno

/-- A parser that finds nothing in sources, and rejects it when there are none. -/
def findNothing (files : List SourceFile) : Parsed :=
  ⟨[], if files.isEmpty then .error (.parse "no sources") else .ok Graph.empty⟩

/-- A build that fails, a build, a restart, and a build of the same text under another name. -/
def restartedRun : Course :=
  run ⟨findNothing, true⟩ ⟨"cache"⟩ "graphs" {}
    [.build { savedAt := "2024-01-01" } [], .build { savedAt := "2024-01-02" } [⟨⟨"a.rs"⟩, "f"⟩],
      .restart, .build { savedAt := "2024-01-03" } [⟨⟨"b.rs"⟩, "f"⟩]]

theorem hit_iff_answered_before_restartedRun :
    ∃ x, restartedRun.visits[2]? = some x ∧ x.files = [⟨⟨"b.rs"⟩, "f"⟩] ∧ x.isHit = true ∧
      x.calls = [] ∧
      x.result.map Output.dot = Pipeline.answer findNothing [⟨⟨"a.rs"⟩, "f"⟩] := by
  have hrun : restartedRun.visits.all Visit.isSaved = true ∧
      restartedRun.visits[2]?.map (fun x => (x.files, x.isHit)) =
        some ([⟨⟨"b.rs"⟩, "f"⟩], true) ∧
      ((restartedRun.visits.take 2).find? (Visit.answers "f")).map Visit.files =
        some [⟨⟨"a.rs"⟩, "f"⟩] := by
    decide +kernel
  obtain ⟨hsaved, hvisit, hfirst⟩ := hrun
  obtain ⟨x, hx, hfields⟩ := Option.map_eq_some_iff.mp hvisit
  obtain ⟨hfiles, hhit⟩ := Prod.mk.inj hfields
  obtain ⟨first, hfind, hcalls, hdot⟩ := (hit_iff_answered_before findNothing ⟨"cache"⟩ "graphs" {}
    (Volume.vacant_empty _) _ (List.all_eq_true.mp hsaved) 2 x hx).2.1 hhit
  have hkey : buildKey x.files = "f" := by
    rw [hfiles]
    decide
  obtain ⟨y, hy, hyfiles⟩ := Option.map_eq_some_iff.mp hfirst
  rw [hkey] at hfind
  obtain rfl := Option.some.inj (hfind.symm.trans hy)
  exact ⟨x, hx, hfiles, hhit, hcalls, hyfiles ▸ hdot⟩

end Course

end CallGraph
