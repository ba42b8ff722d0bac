import CallGraph.Proofs.Locations

/-!
What parents and joins of paths mean.

The parent of a path is a text, made from the segments that are left when the last component is taken
off, and a join is a text as well. Neither looks at a file tree. What they have to do with one is told
by the location that a path spells and by its components.

What is proved:

* `below_parent`: a path that ends in a name is this name below its parent, in both respects, and the
  parent starts the path, segment by segment;
* `components_join`, `foldl_advance_join`: a relative path below another has the components of both,
  and goes on from where the other leads;
* `contains_parent`: without links, what is there has a parent that is there;
* `contains_parent_join`: so has a name below something that is there, although the parent of the join
  need not be spelled as what was joined.
-/

namespace CallGraph

namespace Path

variable {p q : Path} {name : String}

theorem eq_of_text {text : String} (h : p.text = text) : p = ⟨text⟩ := by
  cases p
  cases h
  rfl

/-! ## Texts and segments -/

theorem segments_ne_nil (p : Path) : p.segments ≠ [] := by
  simpa [segments] using splitSlashes_ne_nil p.text.toList

theorem not_mem_of_mem_splitSlashes {cs s : List Char} (h : s ∈ splitSlashes cs) : '/' ∉ s := by
  induction cs generalizing s with
  | nil =>
    obtain rfl : s = [] := by simpa [splitSlashes] using h
    simp
  | cons c cs ih =>
    obtain ⟨t, ts, ht⟩ := List.exists_cons_of_ne_nil (splitSlashes_ne_nil cs)
    rw [splitSlashes, ht] at h
    rw [ht] at ih
    split at h
    · rcases List.mem_cons.mp h with rfl | h
      · simp
      · exact ih h
    · next hc =>
      rcases List.mem_cons.mp h with rfl | h
      · have hc' : c ≠ '/' := by simpa using hc
        simpa [Ne.symm hc'] using ih List.mem_cons_self
      · exact ih (List.mem_cons_of_mem _ h)

theorem not_mem_of_mem_segments {s : String} (h : s ∈ p.segments) : '/' ∉ s.toList := by
  obtain ⟨cs, hcs, rfl⟩ := List.mem_map.mp h
  simpa using not_mem_of_mem_splitSlashes hcs

theorem text_eq_intercalate (p : Path) : p.text = String.intercalate "/" p.segments := by
  apply String.toList_inj.mp
  rw [String.toList_intercalate, segments, List.map_map, splitSlashes_eq_splitOn]
  simp [Function.comp_def]

theorem text_prefix (h : q.segments <+: p.segments) : q.text.toList <+: p.text.toList := by
  obtain ⟨rest, hrest⟩ := h
  rw [text_eq_intercalate p, text_eq_intercalate q, ← hrest]
  cases rest with
  | nil => rw [List.append_nil]
  | cons s ss =>
    rw [String.intercalate_append_of_ne_nil q.segments_ne_nil (List.cons_ne_nil s ss),
      String.append_assoc, String.toList_append]
    exact List.prefix_append _ _

/-- The first segment of a path from the root is empty, and it is not the only one. -/
theorem isAbsolute_iff : p.isAbsolute = true ↔ ∃ s ss, p.segments = "" :: s :: ss := by
  unfold isAbsolute segments
  cases p.text.toList with
  | nil => simp [splitSlashes]
  | cons c cs =>
    obtain ⟨t, ts, ht⟩ := List.exists_cons_of_ne_nil (splitSlashes_ne_nil cs)
    rw [splitSlashes, ht]
    by_cases hc : c = '/' <;> simp [hc]

/-- The first segment of a path that is not empty and starts nowhere else is not empty. -/
theorem head_segments_ne (hp : p.isAbsolute = false) (hne : p.text ≠ "") :
    p.segments.head? ≠ some "" := by
  intro hhead
  obtain ⟨ss, hss⟩ := List.head?_eq_some_iff.mp hhead
  cases ss with
  | nil =>
    rw [text_eq_intercalate, hss] at hne
    exact hne rfl
  | cons t ts =>
    rw [isAbsolute_iff.mpr ⟨t, ts, hss⟩] at hp
    cases hp

/-! ## Segments that mean nothing -/

/-- The components that segments in the middle of a path stand for. -/
def inner (ss : List String) : List Component := ss.filterMap component?

theorem inner_cons_idle {s : String} (h : isIdle s = true) (ss : List String) :
    inner (s :: ss) = inner ss := by
  simp [inner, component?, h]

theorem inner_cons {s : String} {c : Component} (h : component? s = some c) (ss : List String) :
    inner (s :: ss) = c :: inner ss := by
  simp [inner, h]

theorem inner_append (ss ts : List String) : inner (ss ++ ts) = inner ss ++ inner ts :=
  List.filterMap_append

theorem inner_idle {ss : List String} (h : ∀ s ∈ ss, isIdle s = true) : inner ss = [] := by
  rw [inner, List.filterMap_eq_nil_iff]
  intro s hs
  rw [component?, if_pos (h s hs)]

theorem foldl_advance_idle {ss : List String} (h : ∀ s ∈ ss, isIdle s = true)
    (loc : List String) : ss.foldl advance loc = loc := by
  induction ss with
  | nil => rfl
  | cons s ss ih =>
    rw [List.forall_mem_cons] at h
    rw [List.foldl_cons, advance, if_pos h.1, ih h.2]

/-- The component that a path starts with, if it starts with a slash or a dot. -/
def lead (p : Path) : List Component :=
  if p.isAbsolute then [.root] else if p.segments.head? == some "." then [.current] else []

theorem segments_eq_body (p : Path) :
    p.segments = (if p.isAbsolute then [""] else []) ++ p.body := by
  unfold body
  cases h : p.isAbsolute with
  | false => rfl
  | true =>
    obtain ⟨s, ss, hs⟩ := isAbsolute_iff.mp h
    rw [hs]
    rfl

theorem components_eq (p : Path) : p.components = p.lead ++ inner p.segments := by
  rw [components, lead, ← inner]
  split
  · rfl
  · split <;> rfl

theorem inner_segments (p : Path) : inner p.segments = inner p.body := by
  rw [segments_eq_body, inner_append, inner_idle, List.nil_append]
  split <;> simp [isIdle]

theorem foldl_segments (p : Path) (loc : List String) :
    p.segments.foldl advance loc = p.body.foldl advance loc := by
  have hidle : ∀ s ∈ (if p.isAbsolute then [""] else []), isIdle s = true := by
    split <;> simp [isIdle]
  rw [segments_eq_body, List.foldl_append, foldl_advance_idle hidle]

theorem component?_eq_normal {s : String} (h : component? s = some (.normal name)) :
    s = name ∧ isIdle s = false ∧ s ≠ ".." := by
  unfold component? at h
  split at h
  · cases h
  · next hidle =>
    split at h
    · cases h
    · next hup => exact ⟨by simpa using h, by simpa using hidle, by simpa using hup⟩

theorem exists_component? {s : String} (h : isIdle s = false) : ∃ c, component? s = some c := by
  rw [component?, if_neg (by simp [h])]
  split
  · exact ⟨_, rfl⟩
  · exact ⟨_, rfl⟩

/-- The file name is the last component that is not the first dot or slash. -/
theorem inner_of_fileName? (h : p.fileName? = some name) :
    ∃ front, inner p.body = front ++ [.normal name] := by
  have hlast : p.components.getLast? = some (.normal name) := by
    unfold fileName? at h
    split at h
    · next hc => rw [hc, Option.some.inj h]
    · cases h
  rw [components_eq, inner_segments, List.getLast?_append] at hlast
  cases hi : (inner p.body).getLast? with
  | none =>
    -- what a path starts with is no name
    rw [hi, Option.none_or, lead] at hlast
    split at hlast
    · simp at hlast
    · split at hlast <;> simp at hlast
  | some c =>
    rw [hi, Option.some_or] at hlast
    obtain rfl := Option.some.inj hlast
    exact List.getLast?_eq_some_iff.mp hi

/-! ## Parents -/

theorem isName_of_fileName? (h : p.fileName? = some name) : isName name = true := by
  obtain ⟨front, hfront⟩ := inner_of_fileName? h
  have hmem : Component.normal name ∈ inner p.body := by simp [hfront]
  obtain ⟨s, hs, hc⟩ := List.mem_filterMap.mp hmem
  obtain ⟨rfl, hidle, hup⟩ := component?_eq_normal hc
  refine isName_iff.mpr ⟨hidle, hup, not_mem_of_mem_segments (p := p) ?_⟩
  rw [segments_eq_body]
  exact List.mem_append_right _ hs

/-- What is taken off the end means nothing. -/
theorem trim_spec (absolute : Bool) (ss : List String) :
    ∃ idles, (∀ s ∈ idles, isIdle s = true) ∧ ss = idles ++ trim absolute ss := by
  have hidle (xs : List String) : ∀ s ∈ xs.takeWhile isIdle, isIdle s = true :=
    fun s hs => List.all_eq_true.mp List.all_takeWhile s hs
  unfold trim
  split
  · next h =>
    rw [Bool.and_eq_true, beq_iff_eq] at h
    refine ⟨ss.dropLast.takeWhile isIdle, hidle _, ?_⟩
    obtain ⟨xs, rfl⟩ := List.getLast?_eq_some_iff.mp h.2
    rw [← List.append_assoc, List.takeWhile_append_dropWhile, List.dropLast_concat]
  · exact ⟨ss.takeWhile isIdle, hidle _, List.takeWhile_append_dropWhile.symm⟩

/-- What is left ends in a segment that means something, or it is the first dot of the path. -/
theorem trim_eq_cons {absolute : Bool} {ss rest : List String} {s : String}
    (h : trim absolute ss = s :: rest) : isIdle s = false ∨ s :: rest = ["."] := by
  have hhead (xs : List String) {t : String} {ts : List String}
      (hx : xs.dropWhile isIdle = t :: ts) : isIdle t = false := by
    have hnot := List.head?_dropWhile_not isIdle xs
    rw [hx] at hnot
    simpa using hnot
  unfold trim at h
  split at h
  · cases hd : ss.dropLast.dropWhile isIdle with
    | nil =>
      rw [hd] at h
      exact Or.inr h.symm
    | cons t ts =>
      rw [hd, List.cons_append] at h
      rw [← (List.cons.inj h).1]
      exact Or.inl (hhead _ hd)
  · exact Or.inl (hhead _ h)

/-- The first dot of a relative path is never taken off. -/
theorem getLast?_trim {ss : List String} (h : ss.getLast? = some ".") :
    (trim false ss).getLast? = some "." := by
  rw [trim, if_pos (by simp [h])]
  simp

/-- The file name is what the parent is left without. -/
theorem trim_body (h : p.fileName? = some name) :
    ∃ before, trim p.isAbsolute p.body.reverse = name :: before := by
  obtain ⟨front, hfront⟩ := inner_of_fileName? h
  obtain ⟨idles, hidles, hbody⟩ := trim_spec p.isAbsolute p.body.reverse
  have hsome : ¬ ∀ s ∈ p.body, isIdle s = true := by
    intro hall
    rw [inner_idle hall] at hfront
    simp at hfront
  cases htrim : trim p.isAbsolute p.body.reverse with
  | nil =>
    refine absurd ?_ hsome
    intro s hs
    rw [htrim, List.append_nil] at hbody
    exact hidles s (hbody ▸ List.mem_reverse.mpr hs)
  | cons s before =>
    rw [htrim] at hbody
    rcases trim_eq_cons htrim with hidle | hdot
    · -- the last segment that means something is the last component
      have hparts : p.body = before.reverse ++ [s] ++ idles.reverse := by
        rw [← List.reverse_reverse p.body, hbody]
        simp
      obtain ⟨c, hc⟩ := exists_component? hidle
      have hone : inner [s] = [c] := by simp [inner, hc]
      have hrest : inner idles.reverse = [] := inner_idle (by simpa using hidles)
      rw [hparts, inner_append, inner_append, hone, hrest, List.append_nil] at hfront
      obtain rfl : c = .normal name := by simpa using (List.append_inj' hfront rfl).2
      exact ⟨before, by rw [(component?_eq_normal hc).1]⟩
    · refine absurd ?_ hsome
      intro x hx
      rw [hdot] at hbody
      have hmem : x ∈ idles ++ ["."] := hbody ▸ List.mem_reverse.mpr hx
      rcases List.mem_append.mp hmem with hx | hx
      · exact hidles x hx
      · rw [List.mem_singleton.mp hx]
        decide

/-- A path that is put together from segments has them, unless there are none. -/
theorem body_of_text {absolute : Bool} {kept : List String}
    (hslash : ∀ s ∈ kept, '/' ∉ s.toList) (hhead : absolute = false → kept.head? ≠ some "")
    (hq : q.text = (if absolute then "/" else "") ++ String.intercalate "/" kept) :
    q.isAbsolute = absolute ∧ (q.body = kept ∧ kept ≠ [] ∨ q.body = [""] ∧ kept = []) := by
  obtain rfl := eq_of_text hq
  cases kept with
  | nil => cases absolute <;> exact ⟨by decide, Or.inr ⟨by decide, rfl⟩⟩
  | cons k ks =>
    have hne : k :: ks ≠ [] := List.cons_ne_nil k ks
    cases absolute with
    | false =>
      have hsegments := segments_intercalate hne hslash
      have hrelative : (Path.mk (String.intercalate "/" (k :: ks))).isAbsolute = false := by
        rw [← Bool.not_eq_true, isAbsolute_iff, hsegments]
        rintro ⟨s, ss, heq⟩
        exact hhead rfl (by rw [heq]; rfl)
      simp only [Bool.false_eq_true, if_false, String.empty_append]
      exact ⟨hrelative, Or.inl ⟨by rw [body, hrelative]; exact hsegments, hne⟩⟩
    | true =>
      have htext : "/" ++ String.intercalate "/" (k :: ks) =
          String.intercalate "/" ("" :: k :: ks) := by
        rw [String.intercalate_cons_of_ne_nil hne, String.empty_append]
      have hsegments : (Path.mk ("/" ++ String.intercalate "/" (k :: ks))).segments =
          "" :: k :: ks := by
        rw [htext, segments_intercalate (List.cons_ne_nil _ _)]
        rw [List.forall_mem_cons]
        exact ⟨by decide, hslash⟩
      have habsolute := isAbsolute_iff.mpr ⟨k, ks, hsegments⟩
      simp only [if_true]
      exact ⟨habsolute, Or.inl ⟨by rw [body, habsolute, hsegments]; rfl, hne⟩⟩

theorem lead_congr (h : q.isAbsolute = p.isAbsolute) (hdot : p.isAbsolute = false →
    (q.body.head? = some "." ↔ p.body.head? = some ".")) : q.lead = p.lead := by
  unfold lead
  rw [h, segments_eq_body q, segments_eq_body p, h]
  cases hp : p.isAbsolute with
  | true => rfl
  | false => simp [hdot hp]

/-- If nothing is left before the file name, a relative path does not start with a dot. -/
theorem head_body_ne_dot {before : List String} (hname : isName name = true)
    (htrim : trim false p.body.reverse = name :: before)
    (hnone : trim false before = []) : p.body.head? ≠ some "." := by
  intro hdot
  have hlast : (name :: before).getLast? = some "." := by
    rw [← htrim]
    exact getLast?_trim (by rw [List.getLast?_reverse, hdot])
  have hne : name ≠ "." := by
    rintro rfl
    revert hname
    decide
  cases before with
  | nil => exact hne (by simpa using hlast)
  | cons b bs =>
    have hfirst : (b :: bs).getLast? = some "." := by simpa using hlast
    have hkept := getLast?_trim hfirst
    rw [hnone] at hkept
    cases hkept

/-- A path with a file name has a parent: the segments before the name, without those at their end
that mean nothing. -/
theorem exists_parent (h : p.fileName? = some name) : ∃ q kept idles rest, p.parent? = some q ∧
    p.body = kept ++ idles ++ name :: rest ∧ (∀ s ∈ idles, isIdle s = true) ∧
    (∀ s ∈ rest, isIdle s = true) ∧ q.isAbsolute = p.isAbsolute ∧ q.lead = p.lead ∧
    (q.body = kept ∧ kept ≠ [] ∨ q.body = [""] ∧ kept = []) := by
  obtain ⟨before, htrim⟩ := trim_body h
  obtain ⟨rest, hrest, hbody⟩ := trim_spec p.isAbsolute p.body.reverse
  obtain ⟨idles, hidles, hbefore⟩ := trim_spec p.isAbsolute before
  rw [htrim] at hbody
  obtain ⟨kept, hkept⟩ : ∃ kept, trim p.isAbsolute before = kept.reverse :=
    ⟨(trim p.isAbsolute before).reverse, (List.reverse_reverse _).symm⟩
  obtain ⟨q, hparent, htext⟩ : ∃ q, p.parent? = some q ∧
      q.text = (if p.isAbsolute then "/" else "") ++ String.intercalate "/" kept :=
    ⟨_, by rw [parent?, htrim], by rw [hkept, List.reverse_reverse]⟩
  have hparts : p.body = kept ++ idles.reverse ++ name :: rest.reverse := by
    rw [← List.reverse_reverse p.body, hbody, hbefore, hkept]
    simp
  have hslash : ∀ s ∈ kept, '/' ∉ s.toList := by
    intro s hs
    refine not_mem_of_mem_segments (p := p) ?_
    rw [segments_eq_body, hparts]
    simp [hs]
  have hhead : p.isAbsolute = false → kept.head? ≠ some "" := by
    intro hrelative hempty
    have hnonempty : p.text ≠ "" := by
      intro hnone
      obtain rfl := eq_of_text hnone
      cases h
    refine head_segments_ne hrelative hnonempty ?_
    rw [segments_eq_body, hrelative, hparts, List.append_assoc]
    simp [hempty]
  obtain ⟨habsolute, hq⟩ := body_of_text hslash hhead htext
  refine ⟨q, kept, idles.reverse, rest.reverse, hparent, hparts, by simpa using hidles,
    by simpa using hrest, habsolute, lead_congr habsolute ?_, hq⟩
  intro hrelative
  rcases hq with ⟨hq, hne⟩ | ⟨hq, rfl⟩
  · obtain ⟨k, ks, rfl⟩ := List.exists_cons_of_ne_nil hne
    rw [hq, hparts]
    rfl
  · rw [hrelative] at htrim hkept
    have hdot := head_body_ne_dot (isName_of_fileName? h) htrim hkept
    simp [hq, hdot]

/-- A path is a name below another path: it leads where the other one leads and then to the name. -/
structure Below (p q : Path) (name : String) : Prop where
  isName : isName name = true
  isAbsolute : p.isAbsolute = q.isAbsolute
  advances : ∀ loc, p.segments.foldl advance loc = q.segments.foldl advance loc ++ [name]
  components : p.components = q.components ++ [.normal name]

/-- A path is its file name below its parent. The parent starts the path, unless it is the root or
empty. -/
theorem below_parent (h : p.fileName? = some name) : ∃ q, p.parent? = some q ∧ p.Below q name ∧
    (q.text = "" ∨ q.text = "/" ∨ q.segments <+: p.segments) := by
  have hname := isName_of_fileName? h
  obtain ⟨q, kept, idles, rest, hparent, hparts, hidles, hrest, habsolute, hlead, hq⟩ :=
    exists_parent h
  have hinner : inner q.body = inner kept := by
    rcases hq with ⟨hq, -⟩ | ⟨hq, rfl⟩
    · rw [hq]
    · rw [hq]
      decide
  have hfold (loc : List String) : q.body.foldl advance loc = kept.foldl advance loc := by
    rcases hq with ⟨hq, -⟩ | ⟨hq, rfl⟩
    · rw [hq]
    · rw [hq]
      exact foldl_advance_idle (by decide) loc
  have hone : inner (name :: rest) = [.normal name] := by
    rw [← List.singleton_append, inner_append, inner_idle hrest]
    simp [inner, component?_of_isName hname]
  refine ⟨q, hparent, ⟨hname, habsolute.symm, ?_, ?_⟩, ?_⟩
  · intro loc
    rw [foldl_segments, foldl_segments, hfold, hparts, List.foldl_append, List.foldl_append,
      foldl_advance_idle hidles, List.foldl_cons, foldl_advance_idle hrest, advance_of_isName hname]
  · rw [components_eq, components_eq, inner_segments, inner_segments, hlead, hinner, hparts,
      inner_append, inner_append, inner_idle hidles, hone, List.append_nil, List.append_assoc]
  · rcases hq with ⟨hq, -⟩ | ⟨hq, -⟩
    · refine Or.inr (Or.inr ?_)
      rw [segments_eq_body q, segments_eq_body p, habsolute, hq, hparts, List.append_assoc kept]
      exact (List.prefix_append_right_inj _).mpr (List.prefix_append _ _)
    · rw [text_eq_intercalate q, segments_eq_body q, hq]
      split
      · exact Or.inr (Or.inl (by decide))
      · exact Or.inl (by decide)

/-! ## Joins -/

/-- The segments of a path below another are those of both, up to an empty segment in between. -/
theorem segments_join {r : Path} (hp : p.text ≠ "") (hr : r.isAbsolute = false) :
    ∃ kept tail, p.segments = kept ++ tail ∧ kept ≠ [] ∧ (∀ s ∈ tail, isIdle s = true) ∧
      (p.join r).segments = kept ++ r.segments := by
  unfold join
  rw [if_neg (by simp [hr])]
  split
  · next hend =>
    rw [Bool.or_eq_true, beq_iff_eq, beq_iff_eq] at hend
    obtain ⟨cs, hcs⟩ := List.getLast?_eq_some_iff.mp (hend.resolve_left hp)
    refine ⟨(splitSlashes cs).map String.ofList, [""], ?_, by simpa using splitSlashes_ne_nil cs,
      by simp [isIdle], ?_⟩
    · simp [segments, hcs, splitSlashes_append_slash, splitSlashes]
    · simp [segments, hcs, splitSlashes_append_slash]
  · refine ⟨p.segments, [], by simp, segments_ne_nil p, by simp, ?_⟩
    simp [segments, splitSlashes_append_slash]

theorem isAbsolute_join {r : Path} (hp : p.text ≠ "") (hr : r.isAbsolute = false) :
    (p.join r).isAbsolute = p.isAbsolute := by
  obtain ⟨c, cs, hcs⟩ := List.exists_cons_of_ne_nil (String.toList_eq_nil_iff.not.mpr hp)
  unfold join
  rw [if_neg (by simp [hr])]
  split <;> simp [isAbsolute, hcs]

theorem components_join {r : Path} (hp : p.text ≠ "") (hr : r.isAbsolute = false) :
    (p.join r).components = p.components ++ inner r.segments := by
  obtain ⟨kept, tail, hsegments, hne, htail, hjoin⟩ := segments_join hp hr
  obtain ⟨k, ks, rfl⟩ := List.exists_cons_of_ne_nil hne
  have hlead : (p.join r).lead = p.lead := by
    rw [lead, lead, isAbsolute_join hp hr, hjoin, hsegments]
    rfl
  rw [components_eq, components_eq, hlead, hjoin, hsegments, inner_append, inner_append,
    inner_idle htail, List.append_nil, List.append_assoc]

theorem foldl_advance_join {r : Path} (hp : p.text ≠ "") (hr : r.isAbsolute = false)
    (loc : List String) : (p.join r).segments.foldl advance loc =
      r.segments.foldl advance (p.segments.foldl advance loc) := by
  obtain ⟨kept, tail, hsegments, -, htail, hjoin⟩ := segments_join hp hr
  rw [hjoin, hsegments, List.foldl_append, List.foldl_append, foldl_advance_idle htail]

theorem segments_of_isName (h : isName name = true) : (Path.mk name).segments = [name] := by
  obtain ⟨-, -, hslash⟩ := isName_iff.mp h
  simp [segments, splitSlashes_eq_singleton hslash]

theorem components_of_isName (h : isName name = true) :
    (Path.mk name).components = [.normal name] := by
  obtain ⟨hidle, -, hslash⟩ := isName_iff.mp h
  have hdot : name ≠ "." := by
    rintro rfl
    cases hidle
  rw [components_eq, lead, not_isAbsolute hslash, segments_of_isName h,
    inner_cons (component?_of_isName h)]
  simp [hdot, inner]

theorem below_child (hp : p.text ≠ "") (h : isName name = true) :
    (p.child name).Below p name := by
  obtain ⟨-, -, hslash⟩ := isName_iff.mp h
  refine ⟨h, isAbsolute_child h p, fun loc => foldl_advance_child h p loc, ?_⟩
  rw [child, components_join hp (not_isAbsolute hslash), segments_of_isName h,
    inner_cons (component?_of_isName h)]
  rfl

/-- A path whose components are names is relative and does not start with a dot. -/
theorem relative_of_names {r : Path} {names : List String} (h : r.components = names.map .normal) :
    r.isAbsolute = false ∧ r.segments.head? ≠ some "." ∧
      inner r.segments = names.map .normal := by
  rw [components_eq, lead] at h
  split at h
  · cases names <;> cases h
  · next habsolute =>
    split at h
    · cases names <;> cases h
    · next hdot => exact ⟨by simpa using habsolute, by simpa using hdot, h⟩

/-- If there are any, the first segment means something. -/
theorem head_of_names {r : Path} {n : String} {names : List String}
    (h : r.components = (n :: names).map .normal) :
    ∃ s ss, r.segments = s :: ss ∧ isIdle s = false := by
  obtain ⟨hrelative, hdot, -⟩ := relative_of_names h
  have hnonempty : r.text ≠ "" := by
    intro hempty
    obtain rfl := eq_of_text hempty
    cases h
  have hhead := head_segments_ne hrelative hnonempty
  obtain ⟨s, ss, hs⟩ := List.exists_cons_of_ne_nil (segments_ne_nil r)
  rw [hs] at hhead hdot
  exact ⟨s, ss, hs, by simp_all [isIdle]⟩

theorem fileName?_of_components {front : List Component}
    (h : p.components = front ++ [.normal name]) : p.fileName? = some name := by
  simp [fileName?, h]

theorem components_ne_nil (h : p.text ≠ "") : p.components ≠ [] := by
  rw [components_eq, lead]
  cases hp : p.isAbsolute with
  | true => simp
  | false =>
    have hhead := head_segments_ne hp h
    obtain ⟨s, ss, hs⟩ := List.exists_cons_of_ne_nil (segments_ne_nil p)
    rw [hs] at hhead ⊢
    by_cases hdot : s = "."
    · simp [hdot]
    · have hidle : isIdle s = false := by simp_all [isIdle]
      obtain ⟨c, hc⟩ := exists_component? hidle
      simp [inner, hc]

/-- A path that goes along another and then on to a segment that means something ends before this
segment, if it has no more components than the other. -/
theorem prefix_of_components {kept tail rest : List String} {s : String}
    (hp : p.segments = kept ++ tail) (hkept : kept ≠ []) (htail : ∀ t ∈ tail, isIdle t = true)
    (hq : q.segments <+: kept ++ s :: rest) (hs : isIdle s = false)
    (habsolute : q.isAbsolute = p.isAbsolute) (h : q.components = p.components) :
    q.segments <+: kept := by
  rcases List.prefix_or_prefix_of_prefix hq (List.prefix_append kept (s :: rest)) with
    hshort | ⟨more, hmore⟩
  · exact hshort
  cases more with
  | nil => rw [← hmore, List.append_nil]
  | cons t ts =>
    obtain ⟨k, ks, rfl⟩ := List.exists_cons_of_ne_nil hkept
    obtain rfl : t = s := by
      rw [← hmore, List.prefix_append_right_inj, List.cons_prefix_cons] at hq
      exact hq.1
    have hlead : q.lead = p.lead := by
      rw [lead, lead, habsolute, hp, ← hmore]
      rfl
    rw [components_eq, components_eq, hlead, hp, ← hmore, inner_append, inner_append,
      inner_idle htail] at h
    have hnone := List.append_cancel_left (List.append_cancel_left h)
    obtain ⟨c, hc⟩ := exists_component? hs
    simp [inner, hc] at hnone

/-- Segments without a way back up stand for names only. -/
theorem names_of_inner {ss : List String} (h : .parent ∉ inner ss) :
    ∃ names : List String, inner ss = names.map .normal := by
  induction ss with
  | nil => exact ⟨[], rfl⟩
  | cons s ss ih =>
    cases hidle : isIdle s with
    | true =>
      rw [inner_cons_idle hidle] at h ⊢
      exact ih h
    | false =>
      obtain ⟨c, hc⟩ := exists_component? hidle
      rw [inner_cons hc, List.mem_cons, not_or] at h
      obtain ⟨names, hnames⟩ := ih h.2
      rw [inner_cons hc, hnames]
      unfold component? at hc
      rw [if_neg (by simp [hidle])] at hc
      split at hc
      · exact absurd (Option.some.inj hc) h.1
      · exact ⟨s :: names, by rw [← Option.some.inj hc]; rfl⟩

theorem foldl_advance_of_inner {ss names : List String} (h : inner ss = names.map .normal)
    (loc : List String) : ss.foldl advance loc = loc ++ names := by
  induction ss generalizing names loc with
  | nil =>
    obtain rfl : names = [] := by simpa [inner] using h
    simp
  | cons s ss ih =>
    rw [List.foldl_cons]
    cases hidle : isIdle s with
    | true =>
      rw [inner_cons_idle hidle] at h
      rw [advance, if_pos hidle]
      exact ih h loc
    | false =>
      obtain ⟨c, hc⟩ := exists_component? hidle
      rw [inner_cons hc] at h
      cases names with
      | nil => cases h
      | cons n ns =>
        obtain ⟨rfl, hrest⟩ := List.cons.inj h
        obtain ⟨rfl, -, hup⟩ := component?_eq_normal hc
        rw [advance, if_neg (by simp [hidle]), if_neg (by simpa using hup), ih hrest,
          List.append_assoc]
        rfl

theorem length_foldl_advance (ss loc : List String) :
    (ss.foldl advance loc).length ≤ loc.length + (inner ss).length := by
  induction ss generalizing loc with
  | nil => simp [inner]
  | cons s ss ih =>
    rw [List.foldl_cons]
    have hrest := ih (advance loc s)
    cases hidle : isIdle s with
    | true =>
      rw [advance, if_pos hidle] at hrest ⊢
      rwa [inner_cons_idle hidle]
    | false =>
      obtain ⟨c, hc⟩ := exists_component? hidle
      have hstep : (advance loc s).length ≤ loc.length + 1 := by
        rw [advance, if_neg (by simp [hidle])]
        split <;> simp
        omega
      rw [inner_cons hc, List.length_cons]
      omega

theorem isAbsolute_of_root {cs : List Component} (h : p.components = .root :: cs) :
    p.isAbsolute = true := by
  rw [components_eq, lead] at h
  split at h
  · assumption
  split at h
  · cases h
  · have hroot : Component.root ∈ inner p.segments := by
      rw [List.nil_append] at h
      simp [h]
    obtain ⟨s, -, hs⟩ := List.mem_filterMap.mp hroot
    unfold component? at hs
    split at hs
    · cases hs
    · split at hs <;> cases hs

end Path

namespace Volume

open CallGraph.Path

variable {v : Volume} {p q : Path} {name : String}

/-! ## What is there with a path -/

theorem contains_root (v : Volume) : v.contains ⟨"/"⟩ = true :=
  contains_iff.mpr ⟨[], .directory v.root, rfl⟩

theorem text_ne_of_contains (h : v.contains p = true) : p.text ≠ "" := by
  intro hempty
  obtain ⟨loc, e, hloc⟩ := contains_iff.mp h
  obtain rfl := eq_of_text hempty
  cases hloc

theorem walkWith_start {follow : List String → List String → Except Fault Spot} {last : Bool}
    {segments start loc : List String} {e : Entry}
    (h : walkWith v follow last segments start = .ok (.taken loc e)) :
    ∃ e', v.entryAt start = some e' := by
  cases segments with
  | nil =>
    rw [walkWith] at h
    split at h
    · next e' he => exact ⟨e', he⟩
    · cases h
  | cons s rest =>
    rw [walkWith] at h
    split at h
    · cases h
    · next hdir =>
      obtain ⟨es, hes⟩ := isDirectoryAt_iff.mp (by simpa using hdir)
      exact ⟨_, hes⟩

/-- Without links, a walk that comes to something has come to something after every segment. -/
theorem walkWith_prefix (hlinks : ∀ l target, v.entryAt l ≠ some (.link target))
    {follow : List String → List String → Except Fault Spot} {last : Bool}
    {segments rest start loc : List String} {e : Entry}
    (h : walkWith v follow last (segments ++ rest) start = .ok (.taken loc e)) :
    ∃ loc' e', walkWith v follow last segments start = .ok (.taken loc' e') := by
  induction segments generalizing start with
  | nil =>
    obtain ⟨e', he⟩ := walkWith_start h
    exact ⟨start, e', by rw [walkWith, he]⟩
  | cons s segments ih =>
    rw [List.cons_append, walkWith] at h
    rw [walkWith]
    split
    · next hdir => rw [if_pos hdir] at h; cases h
    next hdir =>
    rw [if_neg hdir] at h
    split
    · next hidle => exact ih (by rwa [if_pos hidle] at h)
    next hidle =>
    rw [if_neg hidle] at h
    split
    · next hup => exact ih (by rwa [if_pos hup] at h)
    next hup =>
    rw [if_neg hup] at h
    split
    · next hlong => rw [if_pos hlong] at h; cases h
    next hlong =>
    rw [if_neg hlong] at h
    cases he : v.entryAt (start ++ [s]) with
    | none =>
      rw [he] at h
      dsimp only at h
      split at h <;> cases h
    | some entry =>
      rw [he] at h
      cases entry with
      | link target => exact absurd he (hlinks _ target)
      | file content => exact ih h
      | directory es => exact ih h

/-- So what starts the way to something leads to something. -/
theorem contains_of_prefix (hlinks : ∀ l target, v.entryAt l ≠ some (.link target))
    (h : v.contains p = true) (hbegins : q.segments <+: p.segments)
    (habsolute : q.isAbsolute = p.isAbsolute) (hq : q.text ≠ "") : v.contains q = true := by
  obtain ⟨loc, e, hloc⟩ := contains_iff.mp h
  obtain ⟨cs, hcs⟩ := text_prefix hbegins
  obtain ⟨rest, hrest⟩ := hbegins
  have htext : p.text = q.text ++ String.ofList cs := by
    apply String.toList_inj.mp
    simp [hcs]
  unfold locate at hloc
  split at hloc
  · cases hloc
  next hnul =>
  split at hloc
  · cases hloc
  split at hloc
  · cases hloc
  next hlong =>
  rw [← hrest] at hloc
  obtain ⟨loc', e', hwalk⟩ := walkWith_prefix hlinks hloc
  refine contains_iff.mpr ⟨loc', e', ?_⟩
  unfold locate
  have hnul' : ¬ q.text.toList.contains '\x00' = true := by
    rw [← hcs] at hnul
    simp_all
  have hlong' : ¬ q.text.utf8ByteSize > pathLimit := by
    rw [htext, String.utf8ByteSize_append] at hlong
    omega
  rw [if_neg hnul', if_neg (by simpa using hq), if_neg hlong', habsolute]
  exact hwalk

/-- What is there has a parent that is there, if it is not the empty path. -/
theorem contains_parent (hlinks : ∀ l target, v.entryAt l ≠ some (.link target))
    (h : v.contains p = true) (hname : p.fileName? = some name) (hparent : p.parent? = some q)
    (hq : q.text ≠ "") : v.contains q = true := by
  obtain ⟨q', hparent', hbelow, htext⟩ := below_parent hname
  obtain rfl := Option.some.inj (hparent.symm.trans hparent')
  rcases htext with hempty | hroot | hbegins
  · exact absurd hempty hq
  · obtain rfl := eq_of_text hroot
    exact contains_root v
  · exact contains_of_prefix hlinks h hbegins hbelow.isAbsolute.symm hq

/-- The parent of a name below something that is there is there. It need not be spelled as what it
was joined to. -/
theorem contains_parent_join (hlinks : ∀ l target, v.entryAt l ≠ some (.link target))
    {directory r : Path} (hdir : v.contains directory = true) (hr : r.components = [.normal name])
    (hparent : (directory.join r).parent? = some q) : v.contains q = true := by
  have htext := text_ne_of_contains hdir
  obtain ⟨hrelative, -, hinner⟩ := relative_of_names (hr.trans (List.map_singleton).symm)
  have hjoin := components_join htext hrelative
  rw [hinner] at hjoin
  obtain ⟨q', hparent', hbelow, hstart⟩ := below_parent (fileName?_of_components hjoin)
  obtain rfl := Option.some.inj (hparent.symm.trans hparent')
  have hsame : q.components = directory.components := by
    rw [hbelow.components] at hjoin
    exact List.append_cancel_right hjoin
  have hne : q.text ≠ "" := by
    intro hempty
    refine components_ne_nil htext ?_
    rw [← hsame]
    obtain rfl := eq_of_text hempty
    decide
  have habsolute : q.isAbsolute = directory.isAbsolute := by
    rw [← hbelow.isAbsolute, isAbsolute_join htext hrelative]
  rcases hstart with hempty | hroot | hbegins
  · exact absurd hempty hne
  · obtain rfl := eq_of_text hroot
    exact contains_root v
  · obtain ⟨kept, tail, hsegments, hkept, htail, hsegments'⟩ := segments_join htext hrelative
    rw [hsegments'] at hbegins
    obtain ⟨s, ss, hr', hs⟩ := head_of_names (hr.trans (List.map_singleton).symm)
    rw [hr'] at hbegins
    have hshort := prefix_of_components hsegments hkept htail hbegins hs habsolute hsame
    refine contains_of_prefix hlinks hdir ?_ habsolute hne
    rw [hsegments]
    exact hshort.trans (List.prefix_append kept tail)

end Volume

end CallGraph
