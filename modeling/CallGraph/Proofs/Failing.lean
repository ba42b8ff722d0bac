import CallGraph.Proofs.Concurrency

/-!
How builds fail.

Of all that a build does, only its parser can make it fail. Collapsing and cleaning look up nodes
that earlier steps may have taken out, but every node that they look up is there. The cache file may
be impossible to write for any reason that the system gives, and that is reported and no failure.

What is proved:
1. `answer_eq_error_iff`: what sources lead to is an error only if it is the error of the parser.
2. `build_outcome`: a build is answered from the cache, or fails with its parser, or stores a text.
3. `untouched_of_persist_fails`: a persist that fails leaves the file of every namespace alone.
4. Together: when a build fails, when it returns, and what has changed afterwards.
-/

namespace CallGraph

/-! ## What is left of a file -/

/-- The file at a path is as before, or there is none as before. The way to it may be new, if
directories have been made, so this is said of the locations that have the name of the file. -/
structure Volume.Untouched (p : Path) (v w : Volume) : Prop where
  folder : ∀ loc, v.Folder p loc → w.Folder p loc
  file : ∀ loc name content, p.EndsIn name →
    (w.entryAt (loc ++ [name]) = some (.file content) ↔
      v.entryAt (loc ++ [name]) = some (.file content))
  link : ∀ loc name target, p.EndsIn name →
    (w.entryAt (loc ++ [name]) = some (.link target) ↔
      v.entryAt (loc ++ [name]) = some (.link target))

theorem Volume.Untouched.refl (p : Path) (v : Volume) : v.Untouched p v :=
  ⟨fun _ h => h, fun _ _ _ _ => Iff.rfl, fun _ _ _ _ => Iff.rfl⟩

theorem Volume.Untouched.of_keeps {touched : List String → Prop} {p : Path} {v w : Volume}
    (h : Volume.Keeps touched v w)
    (hother : ∀ loc name, p.EndsIn name → ¬ touched (loc ++ [name])) : v.Untouched p w where
  folder := fun _ => Volume.Folder.keeps h
  file := fun loc name content hp => h.files _ content (hother loc name hp)
  link := fun _ _ target _ => h.links _ target

theorem Cache.untouched_of_persist_fails {c : Cache} {v : Volume} {moment : Moment} {e : Error}
    (h : (c.persist v moment).result = .error e) (directory : Path) (ns : String) :
    v.Untouched (filePath directory ns) (c.persist v moment).volume :=
  .of_keeps (persist_fails h) fun loc _ hp => not_temporary moment loc hp

theorem Cache.lookup_insert (c : Cache) (key value k : String) :
    (c.insert key value).lookup k = if k = key then some value else c.lookup k :=
  TextMap.get?_insert ..

namespace Pipeline

variable {p : Pipeline} {s : Session} {moment : Cache.Moment} {files : List SourceFile}

/-! ## What a build can come to -/

/-- Folding never fails, so an error is one of the parser. -/
theorem answer_eq_error_iff {parse : List SourceFile → Parsed} {e : Error} :
    answer parse files = .error e ↔ (parse files).result = .error e := by
  unfold answer
  cases hparse : (parse files).result with
  | error e' => simp [bind, Except.bind]
  | ok g =>
    obtain ⟨_, f, hf, _⟩ := g.fold_spec
    simp [bind, Except.bind, hf, pure, Except.pure]

/-- The build is not answered from the cache. -/
def Misses (p : Pipeline) (s : Session) (files : List SourceFile) : Prop :=
  p.useCache = false ∨ s.cache.lookup (buildKey files) = none

theorem cached?_eq_none_iff : p.cached? s files = none ↔ p.Misses s files := by
  unfold cached? Misses
  cases p.useCache <;> simp

theorem cached?_eq_some_iff {dot : String} : p.cached? s files = some dot ↔
    p.useCache = true ∧ s.cache.lookup (buildKey files) = some dot := by
  unfold cached?
  cases p.useCache <;> simp

/-- A build is answered from the cache and changes nothing, or it fails with its parser and changes
nothing, or it stores what it returns. -/
inductive BuildOutcome (p : Pipeline) (s : Session) (moment : Cache.Moment)
    (files : List SourceFile) (b : Built) : Prop
  | hit (o : Output) (hcache : p.useCache = true)
      (hlookup : s.cache.lookup (buildKey files) = some o.dot) (hsession : b.session = s)
      (hresult : b.result = .ok o) (hpersisted : o.report.persisted = false)
  | failed (e : Error) (hmiss : p.Misses s files) (hparse : (p.parse files).result = .error e)
      (hsession : b.session = s) (hresult : b.result = .error e)
  | stored (o : Output) (hmiss : p.Misses s files) (hparse : (p.parse files).result.isOk = true)
      (hsession : b.session = (p.store s moment files o.dot).1) (hresult : b.result = .ok o)
      (hpersisted : o.report.persisted = (p.store s moment files o.dot).2.2)

theorem build_outcome (p : Pipeline) (s : Session) (moment : Cache.Moment)
    (files : List SourceFile) : BuildOutcome p s moment files (p.build s moment files) := by
  cases hcached : p.cached? s files with
  | some dot =>
    obtain ⟨hcache, hlookup⟩ := cached?_eq_some_iff.mp hcached
    rw [build_of_hit hcached]
    exact .hit ⟨dot, _⟩ hcache hlookup rfl rfl rfl
  | none =>
    have hmiss := cached?_eq_none_iff.mp hcached
    rw [build_of_miss hcached]
    cases hanswer : answer p.parse files with
    | error e =>
      obtain ⟨hsession, hresult⟩ := conclude_error s moment hanswer
      exact .failed e hmiss (answer_eq_error_iff.mp hanswer) hsession hresult
    | ok dot =>
      obtain ⟨hsession, report, -, hpersisted, hresult⟩ := conclude_ok s moment hanswer
      have hparse : (p.parse files).result.isOk = true := by
        cases hr : (p.parse files).result with
        | ok g => rfl
        | error e =>
          rw [answer_eq_error_iff.mpr hr] at hanswer
          cases hanswer
      exact .stored ⟨dot, report⟩ hmiss hparse hsession hresult hpersisted

theorem store_of_uncached (hp : p.useCache = false) (s : Session) (moment : Cache.Moment)
    (files : List SourceFile) (dot : String) : p.store s moment files dot = (s, [], false) := by
  rw [store, hp]
  rfl

/-! ## Failing cleanly -/

/-- What a build may come to and what it may change: the error of its parser and then nothing, or a
text under its key, in memory and, if that works, in the cache file. -/
structure FailsCleanly (p : Pipeline) (s : Session) (moment : Cache.Moment)
    (files : List SourceFile) (b : Built) : Prop where
  fails : ∀ e, b.result = .error e ↔ p.Misses s files ∧ (p.parse files).result = .error e
  returns : ¬ p.Misses s files ∨ (p.parse files).result.isOk = true → ∃ o, b.result = .ok o
  /-- A build that fails leaves memory and storage as they were. -/
  unchanged : ∀ e, b.result = .error e → b.session = s
  uncached : p.useCache = false → b.session = s
  /-- What changes in memory is that the key of the build has the text that is returned. -/
  entries : p.useCache = true → ∀ o, b.result = .ok o →
    (∀ key, b.session.cache.lookup key =
      if key = buildKey files then some o.dot else s.cache.lookup key) ∧
    b.session.cache.path = s.cache.path
  persisted : ∀ o, b.result = .ok o → (o.report.persisted = true ↔
    p.useCache = true ∧ s.cache.lookup (buildKey files) = none ∧
      (b.session.cache.persist s.volume moment).result = .ok ())
  /-- Unless it has written the cache file, the file of every namespace is as it was, and no file but
  a temporary one is not. -/
  kept : ∀ o, b.result = .ok o → o.report.persisted = false →
    Volume.Keeps moment.Temporary s.volume b.session.volume ∧
      ∀ directory ns, s.volume.Untouched (Cache.filePath directory ns) b.session.volume

theorem FailsCleanly.of_hit {b : Built} {o : Output} (hcache : p.useCache = true)
    (hlookup : s.cache.lookup (buildKey files) = some o.dot) (hsession : b.session = s)
    (hresult : b.result = .ok o) (hpersisted : o.report.persisted = false) :
    FailsCleanly p s moment files b := by
  have hmiss : ¬ p.Misses s files := by simp [Misses, hcache, hlookup]
  refine ⟨?_, fun _ => ⟨o, hresult⟩, fun _ _ => hsession, fun _ => hsession, ?_, ?_, ?_⟩
  · intro e
    simp [hresult, hmiss]
  · intro _ o' ho'
    obtain rfl := Except.ok.inj (hresult.symm.trans ho')
    rw [hsession]
    refine ⟨?_, rfl⟩
    -- the text was found under the key, so it is there already
    intro key
    split
    · next heq => rw [heq, hlookup]
    · rfl
  · intro o' ho'
    obtain rfl := Except.ok.inj (hresult.symm.trans ho')
    simp [hpersisted, hlookup]
  · intro _ _ _
    rw [hsession]
    exact ⟨Volume.Keeps.refl _, fun _ _ => Volume.Untouched.refl _ _⟩

theorem FailsCleanly.of_failed {b : Built} {e : Error} (hmiss : p.Misses s files)
    (hparse : (p.parse files).result = .error e) (hsession : b.session = s)
    (hresult : b.result = .error e) : FailsCleanly p s moment files b := by
  have hnone : ∀ o, b.result ≠ .ok o := by simp [hresult]
  refine ⟨?_, ?_, fun _ _ => hsession, fun _ => hsession, fun _ o ho => absurd ho (hnone o),
    fun o ho => absurd ho (hnone o), fun o ho => absurd ho (hnone o)⟩
  · intro e'
    simp [hresult, hparse, hmiss]
  · intro hor
    rw [hparse] at hor
    rcases hor with hhit | hok
    · exact absurd hmiss hhit
    · cases hok

theorem isOk_iff {r : Except Error Unit} : r.isOk = true ↔ r = .ok () := by
  cases r <;> simp [Except.isOk, Except.toBool]

/-- A text that is stored is in memory, and in the file unless the report says that it is not. -/
theorem FailsCleanly.of_stored {b : Built} {o : Output} (hmiss : p.Misses s files)
    (hparse : (p.parse files).result.isOk = true)
    (hsession : b.session = (p.store s moment files o.dot).1) (hresult : b.result = .ok o)
    (hpersisted : o.report.persisted = (p.store s moment files o.dot).2.2) :
    FailsCleanly p s moment files b := by
  have hfails : ∀ e, b.result = .error e ↔
      p.Misses s files ∧ (p.parse files).result = .error e := by
    intro e
    refine iff_of_false (by simp [hresult]) ?_
    rintro ⟨-, herror⟩
    rw [herror] at hparse
    cases hparse
  have hout : ∀ o', b.result = .ok o' → o' = o :=
    fun o' ho' => (Except.ok.inj (hresult.symm.trans ho')).symm
  cases hcache : p.useCache with
  | false =>
    rw [store_of_uncached hcache] at hsession hpersisted
    refine ⟨hfails, fun _ => ⟨o, hresult⟩, fun _ _ => hsession, fun _ => hsession, ?_, ?_, ?_⟩
    · intro htrue
      rw [hcache] at htrue
      cases htrue
    · intro o' ho'
      obtain rfl := hout o' ho'
      simp [hpersisted, hcache]
    · intro _ _ _
      rw [hsession]
      exact ⟨Volume.Keeps.refl _, fun _ _ => Volume.Untouched.refl _ _⟩
  | true =>
    have hlookup : s.cache.lookup (buildKey files) = none := hmiss.resolve_left (by simp [hcache])
    rw [store_cache hcache] at hsession
    rw [Shared.store_persisted_iff hcache] at hpersisted
    refine ⟨hfails, fun _ => ⟨o, hresult⟩, ?_, ?_, ?_, ?_, ?_⟩
    · intro e he
      rw [hresult] at he
      cases he
    · intro hfalse
      rw [hcache] at hfalse
      cases hfalse
    · intro _ o' ho'
      obtain rfl := hout o' ho'
      rw [hsession]
      exact ⟨Cache.lookup_insert s.cache (buildKey files) o'.dot, rfl⟩
    · intro o' ho'
      obtain rfl := hout o' ho'
      rw [hsession]
      simp [hpersisted, hcache, hlookup, isOk_iff]
    · intro o' ho' hnot
      obtain rfl := hout o' ho'
      rw [hsession]
      cases hr : ((s.cache.insert (buildKey files) o'.dot).persist s.volume moment).result with
      | ok u =>
        rw [hpersisted, hr] at hnot
        cases hnot
      | error e => exact ⟨Cache.persist_fails hr, Cache.untouched_of_persist_fails hr⟩

theorem BuildOutcome.failsCleanly {b : Built} (h : BuildOutcome p s moment files b) :
    FailsCleanly p s moment files b := by
  cases h with
  | hit o hcache hlookup hsession hresult hpersisted =>
    exact .of_hit hcache hlookup hsession hresult hpersisted
  | failed e hmiss hparse hsession hresult => exact .of_failed hmiss hparse hsession hresult
  | stored o hmiss hparse hsession hresult hpersisted =>
    exact .of_stored hmiss hparse hsession hresult hpersisted

/-- A build fails only through its parser, and then it changes nothing. It fails with an error if and
only if it is not answered from the cache and its parser returned this error. Otherwise it returns a
text, also when the cache file cannot be written; then the report says so and the file is as it was.
With a cache, the memory changes only in that the key of the build has the text. Without one, nothing
changes. Neither collapsing nor cleaning can fail, whatever the graph. -/
theorem build_fails_cleanly (p : Pipeline) (s : Session) (moment : Cache.Moment)
    (files : List SourceFile) :
    FailsCleanly p s moment files (p.build s moment files) ∧
      ∀ g : Graph, (∃ c, g.collapse = .ok c) ∧ ∀ highlighted, ∃ r, g.clean highlighted = .ok r := by
  refine ⟨(build_outcome p s moment files).failsCleanly, ?_⟩
  intro g
  obtain ⟨c, hc, -⟩ := g.collapse_spec
  refine ⟨⟨c, hc⟩, ?_⟩
  intro highlighted
  obtain ⟨r, hr, -⟩ := g.clean_spec highlighted
  exact ⟨r, hr⟩

end Pipeline

end CallGraph
