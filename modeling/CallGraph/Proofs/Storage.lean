import CallGraph.Proofs.CacheFile
import CallGraph.Proofs.FileTree

/-!
What a cache file holds, and what persisting does to it.

A namespace of the cache is a file. Persisting goes through a temporary file whose name no namespace
has, so the file of a namespace is the old one until the last call, and then it is the new one. The
system may refuse any of the calls on the way.

What is proved:
1. `replaceText_fails`: a replacement that stops, wherever it stops, has touched no file but a
   temporary one.
2. `replaceText_succeeds`: a replacement that goes through has touched its own file only, and this
   file has the new text.
3. `Cache.load_of_holds`: what the file of a namespace holds is what loading it yields.
4. `Cache.persist_fails`, `Cache.persist_succeeds`: a persist that fails changes nothing of what any
   namespace holds, and after one that succeeds its namespace holds the entries of the cache.
-/

namespace CallGraph

/-! ## Names of files -/

namespace Path

theorem splitSlashes_eq_singleton {cs : List Char} (h : '/' ∉ cs) : splitSlashes cs = [cs] := by
  induction cs with
  | nil => rfl
  | cons c cs ih =>
    rw [List.mem_cons, not_or] at h
    rw [splitSlashes, ih h.2, if_neg (by simpa using Ne.symm h.1)]

theorem splitSlashes_ne_nil (cs : List Char) : splitSlashes cs ≠ [] := by
  cases cs with
  | nil => simp [splitSlashes]
  | cons c cs => rw [splitSlashes]; split <;> (try split) <;> simp

/-- What stands before a slash and what stands after it have their own segments. -/
theorem splitSlashes_append_slash (cs ds : List Char) :
    splitSlashes (cs ++ '/' :: ds) = splitSlashes cs ++ splitSlashes ds := by
  induction cs with
  | nil => simp [splitSlashes]
  | cons c cs ih =>
    rw [List.cons_append, splitSlashes, splitSlashes, ih]
    split
    · rfl
    · obtain ⟨s, ss, hs⟩ := List.exists_cons_of_ne_nil (splitSlashes_ne_nil cs)
      rw [hs]
      rfl

/-- An ending without a slash belongs to the last segment. -/
theorem splitSlashes_append {ds : List Char} (h : '/' ∉ ds) (cs : List Char) :
    ∃ init last, splitSlashes (cs ++ ds) = init ++ [last ++ ds] := by
  induction cs with
  | nil => exact ⟨[], [], splitSlashes_eq_singleton h⟩
  | cons c cs ih =>
    obtain ⟨init, last, hcs⟩ := ih
    rw [List.cons_append, splitSlashes, hcs]
    split
    · exact ⟨[] :: init, last, rfl⟩
    · cases init with
      | nil => exact ⟨[], c :: last, rfl⟩
      | cons i is => exact ⟨(c :: i) :: is, last, rfl⟩

/-- A last segment of three or more characters is a name. -/
theorem EndsIn.of_segments {p : Path} {name : String} (init : List String)
    (h : p.segments = init ++ [name]) (hlong : 2 < name.toList.length) : p.EndsIn name := by
  refine ⟨by rw [h, List.dropLast_concat], ?_, ?_⟩
  · by_contra hidle
    simp only [isIdle, Bool.not_eq_false, Bool.or_eq_true, beq_iff_eq] at hidle
    obtain rfl | rfl := hidle <;> revert hlong <;> decide
  · intro hup
    subst hup
    revert hlong
    decide

theorem not_isAbsolute {name : String} (h : '/' ∉ name.toList) :
    (Path.mk name).isAbsolute = false := by
  unfold isAbsolute
  cases hcs : name.toList with
  | nil => rfl
  | cons c cs => grind

theorem segments_child {name : String} (h : '/' ∉ name.toList) {directory : Path}
    (hdir : (directory.text == "" || directory.text.toList.getLast? == some '/') = false) :
    (directory.child name).segments = directory.segments ++ [name] := by
  unfold child join
  rw [if_neg (by simp [not_isAbsolute h]), if_neg (by simp [hdir])]
  simp [segments, splitSlashes_append_slash, splitSlashes_eq_singleton h]

theorem child_endsIn {name : String} (h : '/' ∉ name.toList) (hlong : 2 < name.toList.length)
    (directory : Path) : (directory.child name).EndsIn name := by
  cases hdir : directory.text == "" || directory.text.toList.getLast? == some '/' with
  | false => exact EndsIn.of_segments directory.segments (segments_child h hdir) hlong
  | true =>
    unfold child join
    rw [if_neg (by simp [not_isAbsolute h]), if_pos hdir]
    obtain hempty | hslash := Bool.or_eq_true_iff.mp hdir
    · refine EndsIn.of_segments [] ?_ hlong
      simp [segments, eq_of_beq hempty, splitSlashes_eq_singleton h]
    · obtain ⟨cs, hcs⟩ := List.getLast?_eq_some_iff.mp (eq_of_beq hslash)
      refine EndsIn.of_segments ((splitSlashes cs).map String.ofList) ?_ hlong
      simp [segments, hcs, splitSlashes_append_slash, splitSlashes_eq_singleton h]

end Path

namespace Cache

theorem two_lt_cacheName (stem : String) : 2 < (stem ++ ".cache").toList.length := by
  rw [String.toList_append, List.length_append, show ".cache".toList.length = 6 from rfl]
  omega

theorem filePath_endsIn (directory : Path) (ns : String) :
    ∃ stem, (filePath directory ns).EndsIn (stem ++ ".cache") := by
  obtain ⟨lead, hlead⟩ : ∃ lead : String, (filePath directory ns).text = lead ++ ".cache" := by
    unfold filePath Path.child Path.join
    split
    · exact ⟨ns, rfl⟩
    split
    · exact ⟨directory.text ++ ns, by simp [String.append_assoc]⟩
    · exact ⟨directory.text ++ "/" ++ ns, by simp [String.append_assoc]⟩
  obtain ⟨init, last, hsplit⟩ :=
    Path.splitSlashes_append (by decide : '/' ∉ ".cache".toList) lead.toList
  refine ⟨String.ofList last, .of_segments (init.map String.ofList) ?_ (two_lt_cacheName _)⟩
  rw [Path.segments, hlead, String.toList_append, hsplit, List.map_append, List.map_singleton,
    String.ofList_append, String.ofList_toList]

end Cache

namespace Volume

theorem Conditions.toList_temporaryName (c : Conditions) :
    c.temporaryName.toList = ['.', 't', 'm', 'p'] ++ c.tag.letters := by
  simp [temporaryName]

/-- No cache file is called like a temporary file. -/
theorem Conditions.temporaryName_ne (c : Conditions) (stem : String) :
    c.temporaryName ≠ stem ++ ".cache" := by
  intro h
  have hchars : ['.', 't', 'm', 'p'] ++ c.tag.letters = stem.toList ++ ".cache".toList := by
    rw [← toList_temporaryName, h, String.toList_append]
  -- The tag is as long as the ending of a cache file, which has a dot.
  have hletters := (List.append_inj' hchars c.tag.length_eq).2
  have hall := c.tag.alphanumeric
  rw [hletters] at hall
  revert hall
  decide

theorem Conditions.temporary_endsIn (c : Conditions) (directory : Path) :
    (directory.child c.temporaryName).EndsIn c.temporaryName := by
  have hlength : c.temporaryName.toList.length = 10 := by
    rw [toList_temporaryName, List.length_append, c.tag.length_eq]
    rfl
  refine Path.child_endsIn ?_ (by omega) directory
  rw [toList_temporaryName, List.mem_append, not_or]
  refine ⟨by decide, ?_⟩
  intro h
  have hslash := List.all_eq_true.mp c.tag.alphanumeric _ h
  revert hslash
  decide

/-! ## Replacing a file -/

variable {v w u : Volume} {p directory : Path} {name : String} {c : Conditions} {s : String}

theorem newFileAt_eq_ok (hp : p.EndsIn name) {l : List String} (h : v.newFileAt p = .ok l) :
    ∃ loc, v.Folder p loc ∧ p.Admissible name ∧ l = loc ++ [name] ∧
      v.entryAt (loc ++ [name]) = none := by
  unfold newFileAt at h
  split at h
  · cases h
  · next dir n slash hloc =>
    obtain ⟨hadm, hfolder, rfl, rfl, hfree⟩ := (locate_eq_free_iff hp).mp hloc
    exact ⟨dir, hfolder, hadm, (Except.ok.inj h).symm, hfree⟩
  · cases h

theorem removeFile_eq_ok (hp : p.EndsIn name) (h : v.removeFile p = .ok w) :
    ∃ loc, v.Folder p loc ∧ w = v.setAt (loc ++ [name]) none := by
  unfold removeFile at h
  split at h
  · cases h
  · next loc e _ hloc =>
    obtain ⟨_, dir, hfolder, rfl, _⟩ := (locate_eq_taken_iff hp).mp hloc
    exact ⟨dir, hfolder, (Except.ok.inj h).symm⟩
  · cases h
  · cases h

/-- A file that is renamed leaves its old name and has the new one, under which there was no
directory. -/
theorem rename_file_eq_ok {source : Path} {old : List String} {content : Content}
    (hs : v.locate false source = .ok (.taken old (.file content))) (hp : p.EndsIn name)
    (hne : ∀ loc, old ≠ loc ++ [name]) (h : v.rename source p = .ok w) :
    p.Admissible name ∧ ∃ loc, v.Folder p loc ∧ v.isDirectoryAt (loc ++ [name]) = false ∧
      w = (v.setAt old none).setAt (loc ++ [name]) (some (.file content)) := by
  unfold rename at h
  rw [hs] at h
  cases hloc : v.locate false p with
  | error fault => simp only [hloc] at h; cases h
  | ok spot =>
    cases spot with
    | free dir n slash =>
      obtain ⟨hadm, hfolder, rfl, rfl, hfree⟩ := (locate_eq_free_iff hp).mp hloc
      refine ⟨hadm, dir, hfolder, by simp [isDirectoryAt, hfree], ?_⟩
      simp only [hloc] at h
      split at h
      · cases h
      · simp only [Entry.isDirectory, Bool.false_and, Bool.false_eq_true, if_false] at h
        exact (Except.ok.inj h).symm
    | taken new other =>
      obtain ⟨hadm, dir, hfolder, rfl, he⟩ := (locate_eq_taken_iff hp).mp hloc
      simp only [hloc] at h
      split at h
      · cases h
      split at h
      · next heq => exact absurd (eq_of_beq heq) (hne dir)
      cases other with
      | directory es => cases h
      | file _ =>
        refine ⟨hadm, dir, hfolder, by simp [isDirectoryAt, he, Entry.isDirectory], ?_⟩
        exact (Except.ok.inj h).symm
      | link _ =>
        refine ⟨hadm, dir, hfolder, by simp [isDirectoryAt, he, Entry.isDirectory], ?_⟩
        exact (Except.ok.inj h).symm

/-- So a renamed file touches its two names, unless it replaces a link. -/
theorem rename_file_keeps {source : Path} {n : String} {dir : List String} {content : Content}
    (hs : source.EndsIn n) (hadm : source.Admissible n) (hdir : v.Folder source dir)
    (hfile : v.entryAt (dir ++ [n]) = some (.file content)) (hp : p.EndsIn name) (hne : n ≠ name)
    (hlink : ∀ loc target, v.Folder p loc → v.entryAt (loc ++ [name]) ≠ some (.link target))
    (h : v.rename source p = .ok w) :
    p.Admissible name ∧ ∃ loc, w.Folder p loc ∧
      w.entryAt (loc ++ [name]) = some (.file content) ∧ w.entryAt (dir ++ [n]) = none ∧
      Keeps (fun l => l = dir ++ [n] ∨ l = loc ++ [name]) v w := by
  have hplaces : ∀ loc, dir ++ [n] ≠ loc ++ [name] := by
    intro loc heq
    exact hne (by simpa using (List.append_inj' heq rfl).2)
  obtain ⟨hadm', loc, hfolder, hno, rfl⟩ := rename_file_eq_ok
    ((locate_eq_taken_iff hs).mpr ⟨hadm, dir, hdir, rfl, hfile⟩) hp hplaces h
  have hold : Plain (v.entryAt (loc ++ [name])) := by
    intro e he
    cases e with
    | file _ => rfl
    | directory es => simp [isDirectoryAt, he, Entry.isDirectory] at hno
    | link target => exact absurd he (hlink loc target hfolder)
  have hgone : Plain (v.entryAt (dir ++ [n])) := hfile ▸ plain_file content
  -- First the old name is freed, then the new one is given.
  have hfirst := keeps_setAt hdir.isDirectoryAt hgone (Or.inl plain_none)
  have hsame := (alike_setAt hdir.isDirectoryAt hgone (Or.inl plain_none)
    (hplaces loc).symm).eq_of_plain hold
  have hsecond := keeps_setAt (hfolder.keeps hfirst).isDirectoryAt (hsame ▸ hold)
    (Or.inl (plain_file content))
  have hfree := (alike_setAt (hfolder.keeps hfirst).isDirectoryAt (hsame ▸ hold)
    (Or.inl (plain_file content)) (hplaces loc)).eq_of_plain
    (by rw [entryAt_setAt_self hdir.isDirectoryAt]; exact plain_none)
  refine ⟨hadm', loc, (hfolder.keeps hfirst).keeps hsecond,
    entryAt_setAt_self (hfolder.keeps hfirst).isDirectoryAt name _,
    hfree.trans (entryAt_setAt_self hdir.isDirectoryAt n none), ?_⟩
  exact (hfirst.mono fun _ => Or.inl).trans (hsecond.mono fun _ => Or.inr)

/-- The locations that temporary files can have. -/
def Conditions.Temporary (c : Conditions) (location : List String) : Prop :=
  ∃ loc, location = loc ++ [c.temporaryName]

theorem keeps_setAt_temporary {loc : List String} {o : Option Entry}
    (hfolder : v.Folder (directory.child c.temporaryName) loc)
    (hold : Plain (v.entryAt (loc ++ [c.temporaryName]))) (hnew : Plain o) :
    Keeps c.Temporary v (v.setAt (loc ++ [c.temporaryName]) o) :=
  (keeps_setAt hfolder.isDirectoryAt hold (Or.inl hnew)).mono fun _ h => ⟨loc, h⟩

theorem abandon_keeps {loc : List String} {fault : Fault}
    (hfolder : v.Folder (directory.child c.temporaryName) loc)
    (hplain : Plain (v.entryAt (loc ++ [c.temporaryName]))) :
    Keeps c.Temporary v (v.abandon c (directory.child c.temporaryName) fault).1 := by
  unfold abandon
  split
  · next w hw =>
    obtain ⟨loc', hfolder', rfl⟩ :=
      removeFile_eq_ok (c.temporary_endsIn directory) (barred_eq_ok hw).2
    obtain rfl := hfolder.unique hfolder'
    exact keeps_setAt_temporary hfolder hplain plain_none
  · exact Keeps.refl v

theorem abandon_fault (v : Volume) (c : Conditions) (temporary : Path) (fault : Fault) :
    (v.abandon c temporary fault).2 = some fault := by
  unfold abandon
  split <;> rfl

/-- A replacement stops and has touched no file but a temporary one, or it comes to the renaming of
a temporary file that has the text. -/
theorem replaceText_cases (v : Volume) (c : Conditions) (directory p : Path) (s : String) :
    ((v.replaceText c directory p s).2 ≠ none ∧
      Keeps c.Temporary v (v.replaceText c directory p s).1) ∨
    ((v.replaceText c directory p s).2 = none ∧ ∃ loc,
      v.Folder (directory.child c.temporaryName) loc ∧
      (directory.child c.temporaryName).Admissible c.temporaryName ∧
      v.entryAt (loc ++ [c.temporaryName]) = none ∧
      (v.setAt (loc ++ [c.temporaryName]) (some (.file (.text s)))).rename
        (directory.child c.temporaryName) p = .ok (v.replaceText c directory p s).1) := by
  unfold replaceText
  dsimp only
  split
  · exact Or.inl ⟨by simp, Keeps.refl v⟩
  next l hl =>
  obtain ⟨loc, hfolder, hadm, rfl, hfree⟩ :=
    newFileAt_eq_ok (c.temporary_endsIn directory) (barred_eq_ok hl).2
  -- Whatever the temporary file holds, giving up leaves no other trace.
  have hgiveUp (content : Content) (fault : Fault) :
      Keeps c.Temporary v ((v.setAt (loc ++ [c.temporaryName]) (some (.file content))).abandon c
        (directory.child c.temporaryName) fault).1 := by
    have hput : Keeps c.Temporary v
        (v.setAt (loc ++ [c.temporaryName]) (some (.file content))) :=
      keeps_setAt_temporary hfolder (hfree ▸ plain_none) (plain_file content)
    refine hput.trans (abandon_keeps (hfolder.keeps hput) ?_)
    rw [entryAt_setAt_self hfolder.isDirectoryAt]
    exact plain_file content
  -- One case for each of the write, the flush and the renaming, which may be refused.
  split
  · exact Or.inl ⟨by simp [abandon_fault], hgiveUp _ _⟩
  split
  · exact Or.inl ⟨by simp [abandon_fault], hgiveUp _ _⟩
  split
  · exact Or.inl ⟨by simp [abandon_fault], hgiveUp _ _⟩
  · next u hu => exact Or.inr ⟨rfl, loc, hfolder, hadm, hfree, (barred_eq_ok hu).2⟩

theorem replaceText_fails {fault : Fault} (h : v.replaceText c directory p s = (w, some fault)) :
    Keeps c.Temporary v w := by
  obtain ⟨_, hkeeps⟩ | ⟨hnone, _⟩ := replaceText_cases v c directory p s
  · rwa [h] at hkeeps
  · rw [h] at hnone
    cases hnone

/-- A replacement that goes through has touched its own file only, which has the new text now. No
link may have the name of the file, or come to have it. -/
theorem replaceText_succeeds (hp : p.EndsIn name) (hname : c.temporaryName ≠ name)
    (hlink : ∀ u loc target, Keeps (fun _ => True) v u → u.Folder p loc →
      u.entryAt (loc ++ [name]) ≠ some (.link target))
    (h : v.replaceText c directory p s = (w, none)) :
    ∃ loc, w.Folder p loc ∧ p.Admissible name ∧
      w.entryAt (loc ++ [name]) = some (.file (.text s)) ∧ Keeps (· = loc ++ [name]) v w := by
  obtain ⟨hsome, _⟩ | ⟨_, tmp, htmp, htmpAdm, hfree, hren⟩ := replaceText_cases v c directory p s
  · rw [h] at hsome
    exact absurd rfl hsome
  rw [h] at hren
  have hput := keeps_setAt htmp.isDirectoryAt (hfree ▸ plain_none)
    (Or.inl (plain_file (.text s)))
  obtain ⟨hadm, loc, hfolder, hfile, hgone, hkeeps⟩ := rename_file_keeps
    (c.temporary_endsIn directory) htmpAdm (htmp.keeps hput)
    (entryAt_setAt_self htmp.isDirectoryAt _ _) hp hname
    (fun loc target => hlink _ loc target (hput.mono fun _ _ => trivial)) hren
  refine ⟨loc, hfolder, hadm, hfile, ?_⟩
  -- The temporary file was not there before and is not there now.
  refine ((hput.mono fun _ => Or.inl).trans hkeeps).sharpen ?_
  intro l content hl hne
  obtain rfl := hl.resolve_right hne
  rw [hfree, hgone]

/-! ## What a cache file holds -/

/-- No file and no link is where a path leads or, once directories on its way have been made, can
come to lead. -/
def Vacant (v : Volume) (p : Path) : Prop :=
  ∀ w loc name e, Keeps (fun _ => True) v w → w.Folder p loc → p.EndsIn name →
    v.entryAt (loc ++ [name]) = some e → e.isDirectory = true

theorem vacant_empty (p : Path) : Vacant {} p := by
  intro w loc name e _ _ _ he
  have hnone : (Volume.mk [] []).entryAt (loc ++ [name]) = none := by
    cases loc with
    | nil => rfl
    | cons n ns => rw [List.cons_append, entryAt, Entries.at?_cons]; rfl
  cases hnone.symm.trans he

/-- Without links and steps up, a way goes to the location that its segments spell. -/
theorem LeadsTo.eq_append {f : List String → List String → Except Fault Spot}
    {segments start loc : List String}
    (hlinks : ∀ l target, v.entryAt l ≠ some (.link target)) (hup : ".." ∉ segments)
    (h : LeadsTo (walkWith v f true) segments start loc) :
    loc = start ++ segments.filter (!Path.isIdle ·) := by
  induction segments generalizing start with
  | nil => simp [(leadsTo_nil.mp h).1]
  | cons x rest ih =>
    rw [List.mem_cons, not_or] at hup
    obtain ⟨_, h⟩ := leadsTo_cons.mp h
    rw [List.filter_cons]
    split at h
    · next hidle => rw [hidle]; exact ih hup.2 h
    · next hidle =>
      rw [if_neg (by simpa using Ne.symm hup.1)] at h
      obtain ⟨_, ⟨_, hrest⟩ | ⟨target, hlink, _⟩⟩ := h
      · rw [if_pos (by simpa using hidle), ih hup.2 hrest]
        simp
      · exact absurd hlink (hlinks _ _)

/-- So in a volume without links a path without steps up is vacant if there is no file where it
leads. -/
theorem vacant_of_no_links (hlinks : ∀ l target, v.entryAt l ≠ some (.link target))
    (hup : ".." ∉ p.segments.dropLast)
    (hfree : ∀ name e, v.entryAt ((if p.isAbsolute then [] else v.home) ++
      p.segments.dropLast.filter (!Path.isIdle ·) ++ [name]) = some e → p.EndsIn name →
      e.isDirectory = true) :
    v.Vacant p := by
  intro w loc name e hkeeps hfolder hp he
  have hlinks' : ∀ l target, w.entryAt l ≠ some (.link target) := by
    intro l target hl
    exact hlinks l target ((hkeeps.links l target).mp hl)
  obtain rfl := LeadsTo.eq_append hlinks' hup hfolder
  exact hfree name e (hkeeps.home ▸ he) hp

/-- The entries that loading finds in a file. There are none in what is not the text of a cache, or is
that of another version. -/
def Content.entries : Content → TextMap
  | .text s => (Cache.read s).toOption.getD {}
  | .binary _ => {}

/-- A path leads to a file, whatever it contains, in which loading finds these entries, or it is vacant
and there are no entries. -/
def Holds (v : Volume) (p : Path) (entries : TextMap) : Prop :=
  (v.Vacant p ∧ entries = {}) ∨
    ∃ loc name content, p.EndsIn name ∧ v.Folder p loc ∧ p.Admissible name ∧
      v.entryAt (loc ++ [name]) = some (.file content) ∧ content.entries = entries

variable {touched : List String → Prop} {entries : TextMap}

theorem Vacant.keeps (h : v.Vacant p) (hk : Keeps touched v w)
    (hother : ∀ loc name, p.EndsIn name → ¬ touched (loc ++ [name])) : w.Vacant p := by
  intro u loc name e hu hfolder hp he
  -- Ways of the later volume count as ways of the first one, so they were vacant from the start.
  have hvu : Keeps (fun _ => True) v u := (hk.mono fun _ _ => trivial).trans hu
  cases e with
  | directory es => rfl
  | file content =>
    exact h u loc name _ hvu hfolder hp ((hk.files _ _ (hother loc name hp)).mp he)
  | link target => exact h u loc name _ hvu hfolder hp ((hk.links _ _).mp he)

/-- What does not touch the file at a path does not change what it holds. -/
theorem Holds.keeps (h : v.Holds p entries) (hk : Keeps touched v w)
    (hother : ∀ loc name, p.EndsIn name → ¬ touched (loc ++ [name])) : w.Holds p entries := by
  obtain ⟨hvacant, rfl⟩ | ⟨loc, name, content, hp, hfolder, hadm, hfile, hentries⟩ := h
  · exact Or.inl ⟨hvacant.keeps hk hother, rfl⟩
  · exact Or.inr ⟨loc, name, content, hp, hfolder.keeps hk, hadm,
      (hk.files _ _ (hother loc name hp)).mpr hfile, hentries⟩

theorem Holds.not_link (h : v.Holds p entries) (hp : p.EndsIn name) {loc : List String}
    (target : Path) (hk : Keeps (fun _ => True) v w) (hfolder : w.Folder p loc) :
    w.entryAt (loc ++ [name]) ≠ some (.link target) := by
  intro he
  rw [hk.links] at he
  obtain ⟨hvacant, rfl⟩ | ⟨loc', name', content, hp', hfolder', hadm, hfile, -⟩ := h
  · cases hvacant w loc name _ hk hfolder hp he
  · obtain rfl := (hfolder'.keeps hk).unique hfolder
    obtain rfl := hp'.unique hp
    rw [hfile] at he
    cases he

end Volume

namespace Cache

variable {v w : Volume} {p directory : Path} {name ns : String} {entries : TextMap}

/-- Loading a namespace yields what its file holds. -/
theorem load_of_holds (h : v.Holds (filePath directory ns) entries) :
    (load v directory ns).2 = ⟨entries, some (filePath directory ns)⟩ := by
  obtain ⟨stem, hp⟩ := filePath_endsIn directory ns
  have hlast : v.locate true (filePath directory ns) = v.locate false (filePath directory ns) := by
    refine Volume.locate_last ?_
    intro loc target hloc
    obtain ⟨_, dir, hfolder, _, he⟩ := (Volume.locate_eq_taken_iff hp).mp hloc
    exact h.not_link hp target (Volume.Keeps.refl v) hfolder he
  unfold load Volume.contains Volume.entry? readStored Volume.readText Volume.readContent
  dsimp only
  rw [hlast]
  obtain ⟨hvacant, rfl⟩ | ⟨loc, name, content, hp', hfolder, hadm, hfile, rfl⟩ := h
  · cases hloc : v.locate false (filePath directory ns) with
    | error fault => rfl
    | ok spot =>
      cases spot with
      | free dir n slash => rfl
      | taken loc e =>
        obtain ⟨_, dir, hfolder, _, he⟩ := (Volume.locate_eq_taken_iff hp).mp hloc
        have hdir := hvacant v dir _ e (Volume.Keeps.refl v) hfolder hp he
        cases e with
        | directory es => rfl
        | file content => cases hdir
        | link target => cases hdir
  · rw [(Volume.locate_eq_taken_iff hp').mpr ⟨hadm, loc, hfolder, rfl, hfile⟩]
    cases content with
    | binary bytes => rfl
    | text s =>
      simp only [Option.isSome_some, if_true, Volume.Content.entries]
      cases read s with
      | ok entries => rfl
      | error e => rfl

theorem ensureDirectory_keeps (touched : List String → Prop) (v : Volume) (directory : Path)
    (refusal? : Path → Option Fault) :
    Volume.Keeps touched v (ensureDirectory v directory refusal?).1 := by
  unfold ensureDirectory
  split
  · exact Volume.Keeps.refl v
  · exact Volume.createDirectories_keeps v directory refusal?

variable {c : Cache} {moment : Moment}

/-- A persist fails while directories are made or while the file is replaced, or it replaces the
file. -/
theorem persist_cases (hpath : c.path = some p) :
    ∃ w, (∀ touched, Volume.Keeps touched v w) ∧
      (((∃ e, (c.persist v moment).result = .error e) ∧ (c.persist v moment).volume = w) ∨
        (∃ fault, (c.persist v moment).result = .error (.storage fault) ∧
          w.replaceText moment.toConditions (directoryOf p) p (write moment.savedAt c.entries) =
            ((c.persist v moment).volume, some fault)) ∨
        ((c.persist v moment).result = .ok () ∧
          w.replaceText moment.toConditions (directoryOf p) p (write moment.savedAt c.entries) =
            ((c.persist v moment).volume, none))) := by
  have hkeeps (touched : List String → Prop) := ensureDirectory_keeps touched v (directoryOf p)
    (fun q => moment.refusal? (.makeDirectory q))
  unfold persist
  rw [hpath]
  dsimp only
  cases hensure : ensureDirectory v (directoryOf p)
    (fun q => moment.refusal? (.makeDirectory q)) with | mk w fault? =>
  rw [hensure] at hkeeps
  refine ⟨w, hkeeps, ?_⟩
  cases fault? with
  | some fault => exact Or.inl ⟨⟨_, rfl⟩, rfl⟩
  | none =>
    dsimp only
    split
    · next u fault hu => exact Or.inr (Or.inl ⟨fault, rfl, hu⟩)
    · next u hu => exact Or.inr (Or.inr ⟨rfl, hu⟩)

/-- A persist that fails, wherever it fails, has touched no file but a temporary one. -/
theorem persist_fails {e : Error} (h : (c.persist v moment).result = .error e) :
    Volume.Keeps moment.Temporary v (c.persist v moment).volume := by
  cases hpath : c.path with
  | none =>
    rw [persist, hpath] at h
    cases h
  | some p =>
    obtain ⟨w, hw, ⟨_, hvol⟩ | ⟨fault, _, hvol⟩ | ⟨hok, _⟩⟩ := persist_cases hpath
    · exact hvol ▸ hw _
    · exact (hw _).trans (Volume.replaceText_fails hvol)
    · rw [hok] at h
      cases h

theorem not_temporary (moment : Moment) (loc : List String)
    (hp : (filePath directory ns).EndsIn name) : ¬ moment.Temporary (loc ++ [name]) := by
  intro h
  obtain ⟨loc', heq⟩ := h
  obtain ⟨stem, hstem⟩ := filePath_endsIn directory ns
  obtain rfl := hp.unique hstem
  exact moment.temporaryName_ne stem (by simpa using (List.append_inj' heq rfl).2.symm)

theorem holds_of_persist_fails {e : Error} (hholds : v.Holds (filePath directory ns) entries)
    (h : (c.persist v moment).result = .error e) :
    (c.persist v moment).volume.Holds (filePath directory ns) entries :=
  hholds.keeps (persist_fails h) fun loc _ hp => not_temporary moment loc hp

/-- A persist that succeeds has touched the file of its namespace only, which holds the entries
now. -/
theorem persist_succeeds (hholds : v.Holds (filePath directory ns) entries)
    (hpath : c.path = some (filePath directory ns))
    (h : (c.persist v moment).result = .ok ()) :
    (c.persist v moment).volume.Holds (filePath directory ns) c.entries ∧
      ∃ loc name, (filePath directory ns).EndsIn name ∧
        Volume.Keeps (· = loc ++ [name]) v (c.persist v moment).volume := by
  obtain ⟨stem, hp⟩ := filePath_endsIn directory ns
  obtain ⟨w, hw, ⟨⟨_, herr⟩, _⟩ | ⟨fault, herr, _⟩ | ⟨_, hvol⟩⟩ := persist_cases hpath
  · rw [h] at herr
    cases herr
  · rw [h] at herr
    cases herr
  · obtain ⟨loc, hfolder, hadm, hfile, hkeeps⟩ := Volume.replaceText_succeeds hp
      (moment.temporaryName_ne stem)
      (fun u _ target hu => hholds.not_link hp target ((hw _).trans hu)) hvol
    have hentries : (Volume.Content.text (write moment.savedAt c.entries)).entries = c.entries := by
      simp [Volume.Content.entries, read_write, Except.toOption]
    exact ⟨Or.inr ⟨loc, _, _, hp, hfolder, hadm, hfile, hentries⟩, loc, _, hp, (hw _).trans hkeeps⟩

/-- Whether a persist of a namespace succeeds or not, its file holds what it held or what the cache
has. A cache without a file changes nothing. -/
theorem holds_persist (hholds : v.Holds (filePath directory ns) entries)
    (hpath : c.path = none ∨ c.path = some (filePath directory ns)) (moment : Moment) :
    (c.persist v moment).volume.Holds (filePath directory ns) entries ∨
      (c.persist v moment).volume.Holds (filePath directory ns) c.entries := by
  obtain hpath | hpath := hpath
  · rw [persist, hpath]
    exact Or.inl hholds
  · cases hresult : (c.persist v moment).result with
    | error e => exact Or.inl (holds_of_persist_fails hholds hresult)
    | ok _ => exact Or.inr (persist_succeeds hholds hpath hresult).1

end Cache

end CallGraph
