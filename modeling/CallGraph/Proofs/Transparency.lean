import CallGraph.Proofs.Builds

/-!
When the cache cannot be noticed.

A build through the cache should return what the same build returns without it. The cache knows a
build by the texts of its files, one after the other. The paths of the files, and where one file
ends and the next begins, are not part of the key, although they show in the graph.

What is proved:
1. `answers_iff`: if each build is answered like the first one with its key, all are answered as
   without a cache if and only if builds with the same key have the same answer.
2. So the cache cannot be noticed in a run if and only if requests with the same key, of which the
   earlier one can be built, have the same text.
3. There is a run in which it is noticed: a file is built under two names.
-/

namespace CallGraph

namespace Visit

/-- The first of the earlier builds with the same key that returned a text, or else the build
itself. -/
def firstLike (earlier : List Visit) (x : Visit) : Visit :=
  (earlier.find? (answers (buildKey x.files))).getD x

variable {parse : List SourceFile → Parsed} {earlier : List Visit} {x : Visit}

theorem Expected.dot_eq (h : x.Expected parse earlier) :
    x.result.map Output.dot = Pipeline.answer parse (x.firstLike earlier).files := by
  unfold firstLike
  cases hfind : earlier.find? (answers (buildKey x.files)) with
  | some first => exact ((expected_of_some hfind).mp h).2.2
  | none => exact ((expected_of_none hfind).mp h).2.2

/-- A build that is a hit, or whose answer is a text, returns a text. -/
theorem Expected.isOk (h : x.Expected parse earlier)
    (hx : (∃ y ∈ earlier, y.answers (buildKey x.files) = true) ∨
      (Pipeline.answer parse x.files).isOk = true) : x.result.isOk = true := by
  cases hfind : earlier.find? (answers (buildKey x.files)) with
  | some first => exact isOk_of_isHit ((expected_of_some hfind).mp h).1
  | none =>
    obtain ⟨y, hy, hanswers⟩ | hok := hx
    · exact absurd hanswers (List.find?_eq_none.mp hfind y hy)
    · rwa [← ((expected_of_none hfind).mp h).2.2, isOk_map_dot] at hok

end Visit

namespace Course

/-- Builds one after the other, on one session. -/
def serve (p : Pipeline) (s : Session) (requests : List (Cache.Moment × List SourceFile)) :
    Course :=
  requests.foldl (fun c r => c.visit p r.1 r.2) { session := s }

variable {p : Pipeline} {s : Session}

theorem sound_serve (hp : p.useCache = true) (hempty : s.cache.entries = {})
    (requests : List (Cache.Moment × List SourceFile)) :
    Sound p.parse (serve p s requests) := by
  suffices h : ∀ c, Sound p.parse c →
      Sound p.parse (requests.foldl (fun c r => c.visit p r.1 r.2) c) from
    h _ (sound_start p.parse hempty)
  induction requests with
  | nil => exact fun c hc => hc
  | cons r rs ih => exact fun c hc => ih _ (sound_visit hp hc r.1 r.2)

theorem files_serve (p : Pipeline) (s : Session)
    (requests : List (Cache.Moment × List SourceFile)) :
    (serve p s requests).visits.map Visit.files = requests.map Prod.snd := by
  suffices h : ∀ c : Course, (requests.foldl (fun c r => c.visit p r.1 r.2) c).visits.map
      Visit.files = c.visits.map Visit.files ++ requests.map Prod.snd from
    (h _).trans (List.nil_append _)
  induction requests with
  | nil => exact fun c => (List.append_nil _).symm
  | cons r rs ih =>
    intro c
    rw [List.foldl_cons, ih]
    simp [visit]

theorem firstLike_eq {visits : List Visit} {i j : Nat} {x y : Visit} (hij : i < j)
    (hy : visits[i]? = some y) (hkey : buildKey y.files = buildKey x.files)
    (hok : y.result.isOk = true) :
    x.firstLike (visits.take j) = y.firstLike (visits.take i) := by
  have hanswers : y.answers (buildKey x.files) = true := by simp [Visit.answers, hkey, hok]
  obtain ⟨n, rfl⟩ := Nat.exists_eq_add_of_lt hij
  have htake : visits.take (i + n + 1) = visits.take i ++ y :: (visits.drop (i + 1)).take n := by
    rw [show i + n + 1 = (i + 1) + n by omega, List.take_add, List.take_add_one, hy]
    simp
  unfold Visit.firstLike
  rw [htake, hkey, List.find?_append, List.find?_cons, hanswers]
  cases (visits.take i).find? (Visit.answers (buildKey x.files)) <;> rfl

/-- If builds are answered like the first ones with their keys, all are answered as without a cache
if and only if the answers to builds with the same key are the same. -/
theorem answers_iff {parse : List SourceFile → Parsed} {visits : List Visit}
    (hexpected : Successive (Visit.Expected parse) visits) :
    (∀ x ∈ visits, x.result.isOk = true →
        x.result.map Output.dot = Pipeline.answer parse x.files) ↔
      visits.Pairwise fun y x => buildKey y.files = buildKey x.files →
        (Pipeline.answer parse y.files).isOk = true →
        Pipeline.answer parse y.files = Pipeline.answer parse x.files := by
  rw [List.pairwise_iff_getElem]
  refine ⟨?_, ?_⟩
  · -- The later build repeats what the earlier one returned, and both returned their own answers.
    intro htransparent i j hi hj hij hkey hok
    have hy := hexpected i _ (List.getElem?_eq_getElem hi)
    have hx := hexpected j _ (List.getElem?_eq_getElem hj)
    have hyok := hy.isOk (Or.inr hok)
    have hmem : visits[i] ∈ visits.take j := List.mem_take_iff_getElem.mpr ⟨i, by omega, rfl⟩
    have hxok := hx.isOk (Or.inl ⟨visits[i], hmem, by simp [Visit.answers, hkey, hyok]⟩)
    calc Pipeline.answer parse visits[i].files
        = visits[i].result.map Output.dot :=
          (htransparent _ (List.getElem_mem hi) hyok).symm
      _ = visits[j].result.map Output.dot := by
          rw [hy.dot_eq, hx.dot_eq,
            firstLike_eq hij (List.getElem?_eq_getElem hi) hkey hyok]
      _ = Pipeline.answer parse visits[j].files := htransparent _ (List.getElem_mem hj) hxok
  · -- A hit returns the answer to the first build with its key, which is its own answer.
    intro hpairs x hmem hok
    obtain ⟨j, hj, rfl⟩ := List.mem_iff_getElem.mp hmem
    have hlike := (hexpected j _ (List.getElem?_eq_getElem hj)).dot_eq
    unfold Visit.firstLike at hlike
    cases hfind : (visits.take j).find? (Visit.answers (buildKey visits[j].files)) with
    | none => rwa [hfind] at hlike
    | some first =>
      rw [hfind] at hlike
      obtain ⟨hkey, _⟩ : buildKey first.files = buildKey visits[j].files ∧ _ := by
        simpa [Visit.answers] using List.find?_some hfind
      obtain ⟨i, hi, rfl⟩ := List.mem_take_iff_getElem.mp (List.mem_of_find?_eq_some hfind)
      have hbuilt : (Pipeline.answer parse visits[i].files).isOk = true := by
        rw [← isOk_map_dot, hlike] at hok
        exact hok
      exact hlike.trans (hpairs i j (by omega) hj (by omega) hkey hbuilt)

/-- **When the cache cannot be noticed.** Each build of a run that starts with an empty cache
returns what the first build with its key returns without a cache, whatever makes graphs of sources.
So all of them return what they return without a cache if and only if requests with the same key, of
which the earlier one can be built, have the same text. -/
theorem transparent_iff (parse : List SourceFile → Parsed) (s : Session)
    (hempty : s.cache.entries = {}) (requests : List (Cache.Moment × List SourceFile)) (t : Session)
    (moment : Cache.Moment) :
    let uncached (files : List SourceFile) :=
      ((Pipeline.mk parse false).build t moment files).result.map Output.dot
    let visits := (serve ⟨parse, true⟩ s requests).visits
    (∀ (i : Nat) (x : Visit), visits[i]? = some x →
        x.result.map Output.dot = uncached (x.firstLike (visits.take i)).files) ∧
      ((∀ x ∈ visits, x.result.isOk = true → x.result.map Output.dot = uncached x.files) ↔
        (requests.map Prod.snd).Pairwise fun f g =>
          buildKey f = buildKey g → (uncached f).isOk = true → uncached f = uncached g) := by
  intro uncached visits
  have huncached : uncached = Pipeline.answer parse :=
    funext fun files => Pipeline.build_dot_of_uncached rfl t moment files
  have hexpected : Successive (Visit.Expected parse) visits :=
    (sound_serve (p := ⟨parse, true⟩) rfl hempty requests).expected
  rw [huncached, ← files_serve ⟨parse, true⟩ s requests, List.pairwise_map]
  exact ⟨fun i x hx => (hexpected i x hx).dot_eq, answers_iff hexpected⟩

/-- Two files in turn, and the first of them again. -/
def threeBuilds : List (Cache.Moment × List SourceFile) :=
  [({ savedAt := "2024-01-01" }, [⟨⟨"a.rs"⟩, "fn f() \x7b\x7d"⟩]),
    ({ savedAt := "2024-01-02" }, [⟨⟨"b.rs"⟩, "fn g() \x7b\x7d"⟩]),
    ({ savedAt := "2024-01-03" }, [⟨⟨"a.rs"⟩, "fn f() \x7b\x7d"⟩])]

theorem transparent_iff_threeBuilds :
    (serve (Pipeline.extractor false true) ⟨{}, {}⟩ threeBuilds).visits.map (·.result.isOk) =
        [true, true, true] ∧
      ∀ x ∈ (serve (Pipeline.extractor false true) ⟨{}, {}⟩ threeBuilds).visits,
        x.result.isOk = true → x.result.map Output.dot =
          ((Pipeline.extractor false false).build ⟨{}, {}⟩ { savedAt := "" } x.files).result.map
            Output.dot := by
  refine ⟨by decide +kernel,
    (transparent_iff (Source.extract false) ⟨{}, {}⟩ rfl threeBuilds ⟨{}, {}⟩
      { savedAt := "" }).2.mpr ?_⟩
  have hkeys : buildKey [⟨⟨"a.rs"⟩, "fn f() \x7b\x7d"⟩] ≠
      buildKey [⟨⟨"b.rs"⟩, "fn g() \x7b\x7d"⟩] := by
    decide
  simp [threeBuilds, hkeys, hkeys.symm]

/-- The cache is noticed when a file has another name: the second build returns a text, and it is
the one with the old name. -/
theorem renamed_file_is_noticed :
    let uncached (files : List SourceFile) :=
      ((Pipeline.extractor false false).build ⟨{}, {}⟩ { savedAt := "" } files).result.map
        Output.dot
    let visits := (serve (Pipeline.extractor false true) ⟨{}, {}⟩
      [({ savedAt := "" }, [⟨⟨"a.rs"⟩, "fn f() \x7b\x7d"⟩]),
        ({ savedAt := "" }, [⟨⟨"b.rs"⟩, "fn f() \x7b\x7d"⟩])]).visits
    visits[1]?.map (·.result.isOk) = some true ∧
      visits[1]?.map (·.result.map Output.dot) = some (uncached [⟨⟨"a.rs"⟩, "fn f() \x7b\x7d"⟩]) ∧
      uncached [⟨⟨"a.rs"⟩, "fn f() \x7b\x7d"⟩] ≠ uncached [⟨⟨"b.rs"⟩, "fn f() \x7b\x7d"⟩] := by
  decide +kernel

end Course

end CallGraph
