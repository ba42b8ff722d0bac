import CallGraph.Proofs.Builds
import CallGraph.Proofs.Faults

/-!
What a strict build guarantees when caches are shared.

A strict build rejects sources with syntax errors, but the check is in the parser, and the parser
does not run when the cache has an answer. So a strict build of faulty sources may be answered with
a text that a lenient build left in the cache, or a build of other files with the same key.

What is proved:
1. `Source.faultless_of_extractFrom`: a strict extraction that succeeds had sources without faults.
2. `traced_step`: every entry of every cache, and of the cache file, is the answer to an earlier
   build that called its parser.
3. So strictness holds for all builds but those that are answered from the cache, and such an
   answer comes from an earlier build that was lenient or had other files, unless the sources have
   no faults. There is a run in which this happens.
-/

namespace CallGraph

namespace Source

/-- No file has a fault in its syntax tree. -/
def Faultless (parse : String → Tree) (files : List SourceFile) : Prop :=
  ∀ f ∈ files, (parse f.content).hasFault = false

variable {parse : String → Tree}

/-- A strict extraction that succeeds had sources without faults. -/
theorem faultless_of_extractFrom (g : Graph) (index : Nat) {files : List SourceFile}
    (h : (extractFrom parse true g index files).2.isOk = true) : Faultless parse files := by
  induction files generalizing g index with
  | nil => exact fun f hf => absurd hf List.not_mem_nil
  | cons f fs ih =>
    rw [extractFrom] at h
    split at h
    · cases h
    dsimp only at h
    split at h
    · cases h
    · -- The strict check found no line to complain about.
      next hline =>
      have hf : (parse f.content).hasFault = false := by
        rw [← faultLine?_isSome, hline]
        rfl
      exact List.forall_mem_cons.mpr ⟨hf, ih _ _ h⟩

theorem faultless_of_answer {files : List SourceFile}
    (h : (Pipeline.answer (extractWith parse true) files).isOk = true) : Faultless parse files := by
  refine faultless_of_extractFrom Graph.empty 0 ?_
  rw [← extractWith_result]
  unfold Pipeline.answer at h
  cases hr : (extractWith parse true files).result with
  | ok g => rfl
  | error e => rw [hr] at h; cases h

end Source

/-- A build by a strict or a lenient builder, on one of several caches. -/
structure Order where
  cache : Nat
  strict : Bool
  visit : Visit

/-- A volume, the caches that are in use, and the builds that were done on them. -/
structure Sharing where
  volume : Volume
  caches : List Cache := []
  orders : List Order := []

namespace Sharing

/-- What can be done: taking up a cache, in memory only or from a namespace, and building. Caches
are numbered in the order in which they were taken up. -/
inductive Action where
  | useMemory
  | load
  | build (cache : Nat) (strict : Bool) (moment : Cache.Moment) (files : List SourceFile)

/-- One action, with a parser for the texts of sources and a namespace in a directory. -/
def step (parse : String → Source.Tree) (directory : Path) (ns : String) (s : Sharing) :
    Action → Sharing
  | .useMemory => { s with caches := s.caches ++ [{}] }
  | .load => { s with caches := s.caches ++ [(Cache.load s.volume directory ns).2] }
  | .build i strict moment files =>
    match s.caches[i]? with
    | none => s
    | some c =>
      let traced := (Pipeline.extractorWith parse strict true).traced ⟨s.volume, c⟩ moment files
      { volume := traced.1.session.volume
        caches := s.caches.set i traced.1.session.cache
        orders := s.orders ++ [⟨i, strict, ⟨files, traced.1.result, traced.2⟩⟩] }

/-- Every entry is the answer to a build that called its parser. -/
def Sourced (orders : List Order) (entries : TextMap) : Prop :=
  ∀ key dot, entries.get? key = some dot → ∃ y ∈ orders, buildKey y.visit.files = key ∧
    y.visit.isHit = false ∧ y.visit.result.map Output.dot = .ok dot

/-- What a build returned is accounted for by its parser or by an earlier build. -/
structure Accounted (parse : String → Source.Tree) (earlier : List Order) (x : Order) : Prop where
  hit : x.visit.isHit = true → ∃ y ∈ earlier, buildKey y.visit.files = buildKey x.visit.files ∧
    y.visit.isHit = false ∧ y.visit.result.isOk = true ∧
    y.visit.result.map Output.dot = x.visit.result.map Output.dot
  miss : x.visit.isHit = false → x.visit.result.map Output.dot =
    Pipeline.answer (Source.extractWith parse x.strict) x.visit.files
  /-- A build on the same cache that returned a text answers all later ones with its key. -/
  shared : ∀ y ∈ earlier, y.cache = x.cache → buildKey y.visit.files = buildKey x.visit.files →
    y.visit.result.isOk = true → x.visit.isHit = true

/-- A cache in use: its file is that of the namespace, if it has one, its entries have a source, and
what was built on it is in it. -/
structure InUse (directory : Path) (ns : String) (orders : List Order) (i : Nat) (c : Cache) :
    Prop where
  path : c.path = none ∨ c.path = some (Cache.filePath directory ns)
  sourced : Sourced orders c.entries
  entered : ∀ y ∈ orders, y.cache = i → y.visit.result.isOk = true →
    (c.entries.get? (buildKey y.visit.files)).isSome = true

/-- Whatever caches hold, in memory and in the file, has a source. -/
structure Traced (parse : String → Source.Tree) (directory : Path) (ns : String) (s : Sharing) :
    Prop where
  caches : ∀ (i : Nat) (c : Cache), s.caches[i]? = some c → InUse directory ns s.orders i c
  known : ∀ y ∈ s.orders, y.cache < s.caches.length
  file : ∃ entries, s.volume.Holds (Cache.filePath directory ns) entries ∧
    Sourced s.orders entries
  accounted : Successive (Accounted parse) s.orders

variable {parse : String → Source.Tree} {directory : Path} {ns : String} {s : Sharing}
  {orders : List Order} {x : Order} {entries : TextMap}

theorem Sourced.append (h : Sourced orders entries) (x : Order) :
    Sourced (orders ++ [x]) entries := by
  intro key dot hget
  obtain ⟨y, hy, hrest⟩ := h key dot hget
  exact ⟨y, List.mem_append_left _ hy, hrest⟩

theorem sourced_empty (orders : List Order) : Sourced orders {} := by
  intro key dot h
  cases h

/-- A cache that is taken up has not been built on. -/
theorem Traced.takeUp (h : Traced parse directory ns s) {c : Cache}
    (hpath : c.path = none ∨ c.path = some (Cache.filePath directory ns))
    (hsourced : Sourced s.orders c.entries) :
    Traced parse directory ns { s with caches := s.caches ++ [c] } := by
  refine ⟨?_, ?_, h.file, h.accounted⟩
  · intro i c' hc'
    rw [List.getElem?_append] at hc'
    split at hc'
    · exact h.caches i c' hc'
    · next hi =>
      obtain rfl := List.mem_singleton.mp (List.mem_of_getElem? hc')
      refine ⟨hpath, hsourced, ?_⟩
      -- The number of the new cache is larger than those of all builds so far.
      intro y hy hcache _
      have := h.known y hy
      omega
  · intro y hy
    have := h.known y hy
    simp
    omega

theorem Traced.record (h : Traced parse directory ns s) {i : Nat} {c c' : Cache}
    (hc : s.caches[i]? = some c) {v : Volume} (hx : x.cache = i) (hpath : c'.path = c.path)
    (hsourced : Sourced (s.orders ++ [x]) c'.entries)
    (hgrow : ∀ key, (c.entries.get? key).isSome = true → (c'.entries.get? key).isSome = true)
    (hentered : x.visit.result.isOk = true →
      (c'.entries.get? (buildKey x.visit.files)).isSome = true)
    (hfile : ∃ entries, v.Holds (Cache.filePath directory ns) entries ∧
      Sourced (s.orders ++ [x]) entries)
    (haccounted : Accounted parse s.orders x) :
    Traced parse directory ns ⟨v, s.caches.set i c', s.orders ++ [x]⟩ := by
  have hi : i < s.caches.length := (List.getElem?_eq_some_iff.mp hc).1
  refine ⟨?_, ?_, hfile, h.accounted.append haccounted⟩
  · intro j d hd
    dsimp only at hd ⊢
    rw [List.getElem?_set] at hd
    split at hd
    · next hij =>
      subst hij
      obtain rfl : c' = d := by simpa [hi] using hd
      have hold := h.caches i c hc
      refine ⟨hpath ▸ hold.path, hsourced, ?_⟩
      intro y hy hcache hok
      obtain hy | hy := List.mem_append.mp hy
      · exact hgrow _ (hold.entered y hy hcache hok)
      · obtain rfl := List.mem_singleton.mp hy
        exact hentered hok
    · next hij =>
      have hold := h.caches j d hd
      refine ⟨hold.path, hold.sourced.append x, ?_⟩
      intro y hy hcache hok
      obtain hy | hy := List.mem_append.mp hy
      · exact hold.entered y hy hcache hok
      · obtain rfl := List.mem_singleton.mp hy
        exact absurd (hx.symm.trans hcache) hij
  · intro y hy
    rw [List.length_set]
    obtain hy | hy := List.mem_append.mp hy
    · exact h.known y hy
    · obtain rfl := List.mem_singleton.mp hy
      omega

theorem traced_build (h : Traced parse directory ns s) {i : Nat} {c : Cache}
    (hc : s.caches[i]? = some c) (strict : Bool) (moment : Cache.Moment) (files : List SourceFile) :
    let traced := (Pipeline.extractorWith parse strict true).traced ⟨s.volume, c⟩ moment files
    Traced parse directory ns ⟨traced.1.session.volume, s.caches.set i traced.1.session.cache,
      s.orders ++ [⟨i, strict, ⟨files, traced.1.result, traced.2⟩⟩]⟩ := by
  intro traced
  have hcache := h.caches i c hc
  obtain ⟨entries, hholds, hfile⟩ := h.file
  obtain ⟨dot, hget, hsession, hresult, hcalls⟩ | ⟨hget, hcalls, hmiss⟩ :=
    Pipeline.build_cases (p := Pipeline.extractorWith parse strict true) rfl ⟨s.volume, c⟩ moment files
  · -- A hit: its text is an entry, so it has a source.
    obtain ⟨y, hy, hkey, hyhit, hydot⟩ := hcache.sourced _ dot hget
    rw [show traced.1.session = _ from hsession, show traced.1.result = _ from hresult]
    refine h.record hc rfl rfl (hcache.sourced.append _) (fun _ h => h)
      (fun _ => by rw [hget]; rfl) ⟨entries, hholds, hfile.append _⟩ ⟨?_, ?_, fun _ _ _ _ _ => rfl⟩
    · intro _
      refine ⟨y, hy, hkey, hyhit, ?_, hydot⟩
      rw [← isOk_map_dot, hydot]
      rfl
    · intro hno
      cases hno
  -- A miss: nothing with this key was built on this cache.
  have hfirst : ∀ y ∈ s.orders, y.cache = i → buildKey y.visit.files = buildKey files →
      y.visit.result.isOk = true → False := by
    intro y hy hyc hkey hok
    have hin := hcache.entered y hy hyc hok
    rw [hkey, hget] at hin
    cases hin
  obtain ⟨e, he, hsession, hresult⟩ | ⟨dot, report, hdot, hhit, _, hsession, hresult⟩ := hmiss
  · rw [show traced.1.session = _ from hsession, show traced.1.result = _ from hresult]
    refine h.record hc rfl rfl (hcache.sourced.append _) (fun _ h => h) (fun hok => (by cases hok))
      ⟨entries, hholds, hfile.append _⟩ ⟨fun hno => (by cases hno), fun _ => he.symm, ?_⟩
    intro y hy hyc hkey hok
    exact (hfirst y hy hyc hkey hok).elim
  · rw [show traced.1.session = _ from hsession, show traced.1.result = _ from hresult,
      Pipeline.store_cache rfl]
    have hsourced : Sourced (s.orders ++ [⟨i, strict, ⟨files, .ok ⟨dot, report⟩, traced.2⟩⟩])
        (c.insert (buildKey files) dot).entries := by
      intro key text hkey
      rw [Cache.insert, TextMap.get?_insert] at hkey
      split at hkey
      · next heq =>
        obtain rfl := Option.some.inj hkey
        exact ⟨_, List.mem_append_right _ (List.mem_singleton_self _), heq.symm, hhit, rfl⟩
      · exact hcache.sourced.append _ key text hkey
    refine h.record hc rfl rfl hsourced ?_ ?_ ?_ ⟨?_, fun _ => hdot.symm, ?_⟩
    · intro key hkey
      rw [Cache.insert, TextMap.get?_insert]
      split
      · rfl
      · exact hkey
    · intro _
      rw [Cache.insert, TextMap.get?_insert, if_pos rfl]
      rfl
    · obtain hsame | hnew := Cache.holds_persist hholds
        (show (c.insert (buildKey files) dot).path = none ∨ _ from hcache.path) moment
      · exact ⟨entries, hsame, hfile.append _⟩
      · exact ⟨_, hnew, hsourced⟩
    · intro hno
      cases hhit.symm.trans hno
    · intro y hy hyc hkey hok
      exact (hfirst y hy hyc hkey hok).elim

theorem traced_step (h : Traced parse directory ns s) (a : Action) :
    Traced parse directory ns (s.step parse directory ns a) := by
  cases a with
  | useMemory => exact h.takeUp (Or.inl rfl) (sourced_empty _)
  | load =>
    obtain ⟨entries, hholds, hsourced⟩ := h.file
    have hload := Cache.load_of_holds hholds
    exact h.takeUp (Or.inr (by rw [hload])) (by rw [hload]; exact hsourced)
  | build i strict moment files =>
    rw [step]
    split
    · exact h
    · next c hc => exact traced_build h hc strict moment files

def run (parse : String → Source.Tree) (directory : Path) (ns : String) (v : Volume)
    (actions : List Action) : Sharing :=
  actions.foldl (step parse directory ns) { volume := v }

theorem traced_run (parse : String → Source.Tree) {v : Volume}
    (hvacant : v.Vacant (Cache.filePath directory ns)) (actions : List Action) :
    Traced parse directory ns (run parse directory ns v actions) := by
  suffices h : ∀ s, Traced parse directory ns s →
      Traced parse directory ns (actions.foldl (step parse directory ns) s) by
    refine h _ ⟨?_, ?_, ⟨{}, Or.inl ⟨hvacant, rfl⟩, sourced_empty _⟩, ?_⟩
    · intro i c hc
      simp at hc
    · intro y hy
      cases hy
    · intro i x hx
      simp at hx
  induction actions with
  | nil => exact fun s hs => hs
  | cons a as ih => exact fun s hs => ih _ (traced_step hs a)

theorem Accounted.faultless {earlier : List Order} (h : Accounted parse earlier x)
    (hstrict : x.strict = true) (hmiss : x.visit.isHit = false)
    (hok : x.visit.result.isOk = true) : Source.Faultless parse x.visit.files := by
  have hdot := h.miss hmiss
  rw [hstrict] at hdot
  refine Source.faultless_of_answer ?_
  rw [← hdot, isOk_map_dot]
  exact hok

/-- **Strictness on shared caches.** Whatever trees a parser makes of texts, and whatever strict and
lenient builds were done before, on any caches that share a namespace, a strict build that returns a
text had sources without faults, unless it was answered from the cache. Such an answer was given
before by a build with the same key that called its parser, and if the sources have faults, this build
was lenient or had other files. On one and the same cache a text that was returned is an answer to
every later build with its key. -/
theorem strict_build_spec (parse : String → Source.Tree) (directory : Path) (ns : String)
    (v : Volume) (hvacant : v.Vacant (Cache.filePath directory ns)) (actions : List Action) (i : Nat)
    (x : Order) (hx : (run parse directory ns v actions).orders[i]? = some x)
    (hstrict : x.strict = true) :
    let earlier := (run parse directory ns v actions).orders.take i
    ((x.visit.result.isOk = true → Source.Faultless parse x.visit.files) ↔
        (x.visit.isHit = true → Source.Faultless parse x.visit.files)) ∧
      (x.visit.isHit = true → ∃ y ∈ earlier,
        buildKey y.visit.files = buildKey x.visit.files ∧ y.visit.isHit = false ∧
        y.visit.result.map Output.dot = x.visit.result.map Output.dot ∧
        (Source.Faultless parse x.visit.files ∨ y.strict = false ∨ y.visit.files ≠ x.visit.files)) ∧
      ∀ y ∈ earlier, y.cache = x.cache → buildKey y.visit.files = buildKey x.visit.files →
        y.visit.result.isOk = true → x.visit.isHit = true := by
  intro earlier
  have haccounted := (traced_run parse hvacant actions).accounted
  have hown := haccounted i x hx
  refine ⟨⟨?_, ?_⟩, ?_, hown.shared⟩
  · intro hclaim hhit
    exact hclaim (Visit.isOk_of_isHit hhit)
  · intro hclaim hok
    cases hhit : x.visit.isHit with
    | true => exact hclaim hhit
    | false => exact hown.faultless hstrict hhit hok
  · intro hhit
    obtain ⟨y, hy, hkey, hyhit, hyok, hydot⟩ := hown.hit hhit
    refine ⟨y, hy, hkey, hyhit, hydot, ?_⟩
    -- The earlier build called its parser, which tells about its files if it was strict.
    obtain ⟨j, hj, rfl⟩ := List.mem_take_iff_getElem.mp hy
    have hyown := haccounted j _ (List.getElem?_eq_getElem (by omega))
    by_cases hystrict : (run parse directory ns v actions).orders[j].strict = false
    · exact Or.inr (Or.inl hystrict)
    by_cases hfiles : (run parse directory ns v actions).orders[j].visit.files = x.visit.files
    · exact Or.inl (hfiles ▸ hyown.faultless (by simpa using hystrict) hyhit hyok)
    · exact Or.inr (Or.inr hfiles)

/-- A lenient build of a faulty source, and strict builds of a good one and of the faulty one. -/
def mixedRun : Sharing :=
  run Source.parse ⟨"cache"⟩ "graphs" {} [.useMemory,
    .build 0 false { savedAt := "" } [⟨⟨"a.rs"⟩, "@"⟩],
    .build 0 true { savedAt := "" } [⟨⟨"b.rs"⟩, "fn f() \x7b\x7d"⟩],
    .build 0 true { savedAt := "" } [⟨⟨"a.rs"⟩, "@"⟩]]

theorem strict_build_spec_mixedRun :
    ∃ x, mixedRun.orders[1]? = some x ∧ x.visit.result.isOk = true ∧
      Source.Faultless Source.parse x.visit.files := by
  have hrun : mixedRun.orders[1]?.map (fun x => (x.strict, x.visit.isHit, x.visit.result.isOk)) =
      some (true, false, true) := by
    decide +kernel
  obtain ⟨x, hx, hfields⟩ := Option.map_eq_some_iff.mp hrun
  simp only [Prod.mk.injEq] at hfields
  obtain ⟨hstrict, hmiss, hok⟩ := hfields
  have hspec := strict_build_spec Source.parse ⟨"cache"⟩ "graphs" {} (Volume.vacant_empty _) _ 1 x hx
    hstrict
  exact ⟨x, hx, hok, hspec.1.mpr (fun hhit => by simp [hmiss] at hhit) hok⟩

/-- The text that a lenient build left in the cache is returned by a strict build of the same faulty
source. -/
theorem lenient_answer_reaches_strict_build :
    mixedRun.orders[2]?.map (fun x => (x.strict, x.visit.result.isOk,
      x.visit.files.map fun f => (Source.parse f.content).hasFault)) =
        some (true, true, [true]) := by
  decide +kernel

end Sharing

end CallGraph
