import CallGraph.Proofs.Failing
import CallGraph.Watch.Service

/-!
The output shows the last good build.

A job collects its sources, reads them, builds and renders, and each of these can fail. Only rendering
writes the output, and only a build that has succeeded writes the cache, so a job that fails before it
renders has changed nothing. What is left is that a rendered text can be read back, and that nothing
but rendering changes what is read.

What is proved:

* a file that was written is read back along the same path, through links as well
  (`locate_writeContent`);
* writing or removing another file, and making directories for it, leaves the content of a file
  (`readsSame_write`, `readsSame_remove`);
* a run of a job comes to one of three ends (`Job.run_outcome`);
* after any runs and changes, the output holds the text of the last run that returned
  (`output_shows_last_build`).
-/

namespace CallGraph

namespace Volume

variable {v w : Volume} {p q : Path} {loc : List String} {content : Content}
  {touched : List String → Prop}

/-! ## Ways to files -/

/-- A file at the location is there, or can be made there. -/
def Spot.Admits : Spot → List String → Prop
  | .taken l (.file _), loc => l = loc
  | .free directory name slash, loc => slash = false ∧ directory ++ [name] = loc
  | _, _ => False

/-- A walk that comes to where a file is or can be made comes to the file when it is there. -/
theorem walkWith_admits (h : Keeps touched v w) (hfile : w.entryAt loc = some (.file content))
    {f g : List String → List String → Except Fault Spot}
    (hfg : ∀ segments start spot, f segments start = .ok spot → spot.Admits loc →
      g segments start = .ok (.taken loc (.file content)))
    {segments start : List String} {spot : Spot}
    (hwalk : walkWith v f true segments start = .ok spot) (hspot : spot.Admits loc) :
    walkWith w g true segments start = .ok (.taken loc (.file content)) := by
  induction segments generalizing start with
  | nil =>
    rw [walkWith] at hwalk
    split at hwalk
    · next e he =>
      obtain rfl := Except.ok.inj hwalk
      cases e with
      | file c =>
        obtain rfl : start = loc := hspot
        rw [walkWith, hfile]
      | directory es => exact hspot.elim
      | link target => exact hspot.elim
    · cases hwalk
  | cons s rest ih =>
    rw [walkWith] at hwalk ⊢
    split at hwalk
    · cases hwalk
    next hdir =>
    rw [if_neg (by simpa using h.directories start (by simpa using hdir))]
    split at hwalk
    · next hidle =>
      rw [if_pos hidle]
      exact ih hwalk
    next hidle =>
    rw [if_neg hidle]
    split at hwalk
    · next hup =>
      rw [if_pos hup]
      exact ih hwalk
    next hup =>
    rw [if_neg hup]
    split at hwalk
    · cases hwalk
    next hlong =>
    rw [if_neg hlong]
    cases he : v.entryAt (start ++ [s]) with
    | none =>
      rw [he] at hwalk
      dsimp only at hwalk
      split at hwalk
      · obtain rfl := Except.ok.inj hwalk
        obtain ⟨hlast, rfl⟩ := hspot
        obtain rfl : rest = [] := by simpa using hlast
        rw [hfile]
        dsimp only
        rw [walkWith, hfile]
      · cases hwalk
    | some entry =>
      rw [he] at hwalk
      cases entry with
      | link target =>
        rw [(h.links _ target).mpr he]
        simp only [Bool.not_true, Bool.and_false, Bool.false_eq_true, if_false] at hwalk ⊢
        exact hfg _ _ _ hwalk hspot
      | directory es =>
        obtain ⟨es', hes'⟩ :=
          isDirectoryAt_iff.mp (h.directories _ (isDirectoryAt_iff.mpr ⟨es, he⟩))
        rw [hes']
        exact ih hwalk
      | file c =>
        -- nothing can stand after a file
        cases rest with
        | nil =>
          dsimp only at hwalk
          rw [walkWith, he] at hwalk
          obtain rfl := Except.ok.inj hwalk
          obtain rfl : start ++ [s] = loc := hspot
          rw [hfile]
          dsimp only
          rw [walkWith, hfile]
        | cons t ts =>
          dsimp only at hwalk
          rw [walkWith, if_pos (by simp [isDirectoryAt, he, Entry.isDirectory])] at hwalk
          cases hwalk

theorem walk_admits (h : Keeps touched v w) (hfile : w.entryAt loc = some (.file content)) {n : Nat}
    {segments start : List String} {spot : Spot} (hwalk : v.walk true n segments start = .ok spot)
    (hspot : spot.Admits loc) : w.walk true n segments start = .ok (.taken loc (.file content)) := by
  induction n generalizing segments start spot with
  | zero => cases hwalk
  | succ n ih => exact walkWith_admits h hfile (fun _ _ _ => ih) hwalk hspot

theorem locate_admits (h : Keeps touched v w) (hfile : w.entryAt loc = some (.file content))
    {spot : Spot} (hloc : v.locate true p = .ok spot) (hspot : spot.Admits loc) :
    w.locate true p = .ok (.taken loc (.file content)) := by
  unfold locate at hloc ⊢
  split at hloc
  · cases hloc
  next hnul =>
  split at hloc
  · cases hloc
  next hempty =>
  split at hloc
  · cases hloc
  next hlong =>
  rw [if_neg hnul, if_neg hempty, if_neg hlong, h.home]
  exact walk_admits h hfile hloc hspot

theorem readContent_eq_ok_iff :
    v.readContent p = .ok content ↔ ∃ loc, v.locate true p = .ok (.taken loc (.file content)) := by
  unfold readContent
  split <;> simp_all

/-! ## Writing -/

theorem exists_directory (h : v.entryAt loc = some (.file content)) :
    ∃ dir name, loc = dir ++ [name] ∧ v.isDirectoryAt dir = true := by
  rcases List.eq_nil_or_concat' loc with rfl | ⟨dir, name, rfl⟩
  · cases h
  · refine ⟨dir, name, rfl, ?_⟩
    by_contra hdir
    have hnone := entryAt_below (by simpa using hdir) name []
    rw [hnone] at h
    cases h

/-- What writing a file comes to: the content is put where the path leads, in place of a file or of
nothing. -/
theorem writeContent_eq_ok (h : v.writeContent p content = .ok w) : ∃ dir name spot,
    w = v.setAt (dir ++ [name]) (some (.file content)) ∧ v.isDirectoryAt dir = true ∧
      Plain (v.entryAt (dir ++ [name])) ∧ v.locate true p = .ok spot ∧
        spot.Admits (dir ++ [name]) := by
  unfold writeContent at h
  split at h
  · next loc old hloc =>
    obtain rfl := Except.ok.inj h
    have hstands : v.entryAt loc = some (.file old) := locate_stands hloc
    obtain ⟨dir, name, rfl, hdir⟩ := exists_directory hstands
    exact ⟨dir, name, _, rfl, hdir, hstands ▸ plain_file old, hloc, rfl⟩
  · cases h
  · next dir name slash hloc =>
    obtain ⟨hdir, hfree⟩ := locate_stands hloc
    split at h
    · cases h
    · next hslash =>
      obtain rfl := Except.ok.inj h
      exact ⟨dir, name, _, rfl, hdir, hfree ▸ plain_none, hloc, by simpa using hslash, rfl⟩
  · cases h

/-- Putting a file in place of a file or of nothing, or taking it away, makes no directory. -/
theorem directories_setAt {dir : List String} {name : String} {o : Option Entry}
    (hd : v.isDirectoryAt dir = true) (hold : Plain (v.entryAt (dir ++ [name]))) (hnew : Plain o)
    (h : (v.setAt (dir ++ [name]) o).isDirectoryAt loc = true) : v.isDirectoryAt loc = true := by
  have hne : loc ≠ dir ++ [name] := by
    rintro rfl
    rw [Plain.not_directory (by rwa [entryAt_setAt_self hd])] at h
    cases h
  have halike : Alike (v.entryAt loc) ((v.setAt (dir ++ [name]) o).entryAt loc) :=
    alike_setAt hd hold (Or.inl hnew) hne
  obtain ⟨es, hes⟩ := isDirectoryAt_iff.mp h
  rw [hes] at halike
  exact isDirectoryAt_iff.mpr (Alike.directory_before halike)

theorem Keeps.symm (h : Keeps touched v w)
    (hdirs : ∀ loc, w.isDirectoryAt loc = true → v.isDirectoryAt loc = true) : Keeps touched w v :=
  ⟨h.home.symm, hdirs, fun loc target => (h.links loc target).symm,
    fun loc content hn => (h.files loc content hn).symm⟩

theorem locate_writeContent (h : v.writeContent p content = .ok w) : ∃ loc,
    w.locate true p = .ok (.taken loc (.file content)) ∧ Keeps (· = loc) v w ∧
      ∀ l, w.isDirectoryAt l = true → v.isDirectoryAt l = true := by
  obtain ⟨dir, name, spot, rfl, hdir, hold, hloc, hspot⟩ := writeContent_eq_ok h
  have hkeeps := keeps_setAt hdir hold (Or.inl (plain_file content))
  exact ⟨dir ++ [name], locate_admits hkeeps (entryAt_setAt_self hdir _ _) hloc hspot, hkeeps,
    fun l => directories_setAt hdir hold (plain_file content)⟩

/-! ## Changes elsewhere -/

theorem locate_untouched (h : Keeps touched v w)
    (hloc : v.locate true p = .ok (.taken loc (.file content))) (hn : ¬ touched loc) :
    w.locate true p = .ok (.taken loc (.file content)) :=
  locate_admits h ((h.files loc content hn).mpr (locate_stands hloc)) hloc rfl

/-- A path reads the same in two trees, or neither reads it. -/
def ReadsSame (p : Path) (v w : Volume) : Prop :=
  (w.readContent p).toOption = (v.readContent p).toOption

instance (p : Path) (v w : Volume) : Decidable (ReadsSame p v w) :=
  inferInstanceAs (Decidable (_ = _))

theorem readsSame_of_iff
    (h : ∀ content, w.readContent p = .ok content ↔ v.readContent p = .ok content) :
    ReadsSame p v w := by
  unfold ReadsSame
  cases hw : w.readContent p with
  | ok content => rw [(h content).mp hw]
  | error fault =>
    cases hv : v.readContent p with
    | ok content =>
      rw [(h content).mpr hv] at hw
      cases hw
    | error fault' => rfl

/-- Where files have changed, a path reads the same if it led and leads to none of them. That it leads
anywhere may be new if directories have been made. -/
theorem readsSame_of_keeps (h : Keeps touched v w)
    (hbefore : ∀ loc content, v.locate true p = .ok (.taken loc (.file content)) → ¬ touched loc)
    (hafter : ∀ loc content, w.locate true p = .ok (.taken loc (.file content)) → ¬ touched loc)
    (hway : (v.readContent p).isOk = true ∨
      ∀ loc, w.isDirectoryAt loc = true → v.isDirectoryAt loc = true) : ReadsSame p v w := by
  apply readsSame_of_iff
  intro content
  have hkept : ∀ c, v.readContent p = .ok c → w.readContent p = .ok c := by
    intro c hc
    obtain ⟨loc, hloc⟩ := readContent_eq_ok_iff.mp hc
    exact readContent_eq_ok_iff.mpr ⟨loc, locate_untouched h hloc (hbefore loc c hloc)⟩
  refine ⟨fun hw => ?_, hkept content⟩
  rcases hway with hread | hdirs
  · cases hv : v.readContent p with
    | ok c => rw [← hw, hkept c hv]
    | error fault =>
      rw [hv] at hread
      cases hread
  · obtain ⟨loc, hloc⟩ := readContent_eq_ok_iff.mp hw
    exact readContent_eq_ok_iff.mpr
      ⟨loc, locate_untouched (h.symm hdirs) hloc (hafter loc content hloc)⟩

theorem prepareParent_keeps (v : Volume) (p : Path) : Keeps touched v (v.prepareParent p).1 := by
  unfold prepareParent
  split
  · exact Keeps.refl v
  · exact createDirectories_keeps v _ _

/-- What writing a file from outside does: directories may be made, and then the file may be
written. -/
theorem edit_write_cases (v : Volume) (q : Path) (content : Content) :
    (v.edit (.write q (.file content))).volume = (v.prepareParent q).1 ∨
      (v.prepareParent q).1.writeContent q content =
        .ok (v.edit (.write q (.file content))).volume := by
  rcases hparent : v.prepareParent q with ⟨u, _ | fault⟩
  · cases hwrite : u.writeContent q content with
    | ok w => exact Or.inr (by simp [edit, hparent, writeEntry, hwrite, settle])
    | error fault => exact Or.inl (by simp [edit, hparent, writeEntry, hwrite, settle])
  · exact Or.inl (by simp [edit, hparent])

/-- An edit that writes or removes one file, and not the one that a path reads. The path can be read
before, or no directory has to be made for the edit. -/
inductive Elsewhere (v : Volume) (p : Path) : Edit → Prop
  | write {q : Path} {content : Content}
      (hother : ∀ loc e e',
        (v.edit (.write q (.file content))).volume.locate true q = .ok (.taken loc e) →
          (v.edit (.write q (.file content))).volume.locate true p ≠ .ok (.taken loc e'))
      (hway : (v.readContent p).isOk = true ∨ v.prepareParent q = (v, none)) :
      Elsewhere v p (.write q (.file content))
  | remove {q : Path} {loc : List String} {content : Content}
      (hfile : v.locate false q = .ok (.taken loc (.file content)))
      (hother : ∀ e, v.locate true p ≠ .ok (.taken loc e)) : Elsewhere v p (.remove q)

theorem readsSame_write
    (hother : ∀ loc e e',
      (v.edit (.write q (.file content))).volume.locate true q = .ok (.taken loc e) →
        (v.edit (.write q (.file content))).volume.locate true p ≠ .ok (.taken loc e'))
    (hway : (v.readContent p).isOk = true ∨ v.prepareParent q = (v, none)) :
    ReadsSame p v (v.edit (.write q (.file content))).volume := by
  have hmade : ∀ touched, Keeps touched v (v.prepareParent q).1 := fun _ => prepareParent_keeps v q
  rcases edit_write_cases v q content with hvolume | hwrite
  · -- the file could not be written
    rw [hvolume]
    refine readsSame_of_keeps (hmade fun _ => False) (fun _ _ _ => not_false)
      (fun _ _ _ => not_false) (hway.imp_right fun hnone loc hdir => ?_)
    rwa [hnone] at hdir
  · obtain ⟨loc, hloc, hkeeps, hdirs⟩ := locate_writeContent hwrite
    have hall := (hmade _).trans hkeeps
    refine readsSame_of_keeps hall ?_ ?_ (hway.imp_right fun hnone l hdir => ?_)
    · rintro l c hl rfl
      exact hother l _ _ hloc (locate_admits hall (locate_stands hloc) hl rfl)
    · rintro l c hl rfl
      exact hother l _ _ hloc hl
    · have hbefore := hdirs l hdir
      rwa [hnone] at hbefore

theorem readsSame_remove (hfile : v.locate false q = .ok (.taken loc (.file content)))
    (hother : ∀ e, v.locate true p ≠ .ok (.taken loc e)) :
    ReadsSame p v (v.edit (.remove q)).volume := by
  have hvolume : (v.edit (.remove q)).volume = v.setAt loc none := by
    simp [edit, remove, removeFile, hfile, settle, drop, setAt]
  have hstands : v.entryAt loc = some (.file content) := locate_stands hfile
  obtain ⟨dir, name, rfl, hdir⟩ := exists_directory hstands
  have hold : Plain (v.entryAt (dir ++ [name])) := hstands ▸ plain_file content
  rw [hvolume]
  refine readsSame_of_keeps (keeps_setAt hdir hold (Or.inl plain_none)) ?_ ?_
    (Or.inr fun l => directories_setAt hdir hold plain_none)
  · rintro l c hl rfl
    exact hother _ hl
  · rintro l c hl rfl
    have hgone := locate_stands hl
    rw [Spot.Stands, entryAt_setAt_self hdir] at hgone
    cases hgone

theorem Elsewhere.readsSame {e : Edit} (h : v.Elsewhere p e) : ReadsSame p v (v.edit e).volume := by
  cases h with
  | write hother hway => exact readsSame_write hother hway
  | remove hfile hother => exact readsSame_remove hfile hother

end Volume

open Volume

/-! ## Runs of a job -/

theorem Renderer.readContent_render {v : Volume} {path : Path} {dot : String}
    (h : ((Renderer.file path).render v dot).result = .ok ()) :
    ((Renderer.file path).render v dot).volume.readContent path = .ok (.text dot) := by
  unfold render at h ⊢
  rcases hprepare : prepare v path with ⟨w, _ | failure⟩
  · cases hwrite : w.writeText path dot with
    | error fault => simp [hprepare, hwrite] at h
    | ok u =>
      obtain ⟨loc, hloc, -⟩ := locate_writeContent hwrite
      simp [hprepare, hwrite, readContent_eq_ok_iff.mpr ⟨loc, hloc⟩]
  · simp [hprepare] at h

namespace Job

variable {j : Job} {s : Session} {moment : Cache.Moment} {path : Path}

/-- A run comes to one of three ends: there are no sources, or they cannot be built, or the text is
handed to the renderer. -/
inductive RunOutcome (j : Job) (s : Session) (moment : Cache.Moment) (r : JobRun) : Prop
  | unsourced (failure : Failure) (hsources : (j.sources s.volume).2 = .error failure)
      (hsession : r.session = s) (hrendered : r.rendered = none)
      (hresult : r.result = .error failure)
  | unbuilt (files : List SourceFile) (e : Error) (hsources : (j.sources s.volume).2 = .ok files)
      (hbuild : (j.pipeline.build s moment files).result = .error e)
      (hsession : r.session = s) (hrendered : r.rendered = none)
      (hresult : r.result = .error ⟨["Build failed"], .error e⟩)
  | delivered (files : List SourceFile) (o : Output)
      (hsources : (j.sources s.volume).2 = .ok files)
      (hbuild : (j.pipeline.build s moment files).result = .ok o)
      (hvolume : r.session.volume =
        (j.renderer.render (j.pipeline.build s moment files).session.volume o.dot).volume)
      (hrendered : r.rendered = some o.dot)
      (hresult : r.result = (j.renderer.render (j.pipeline.build s moment files).session.volume
        o.dot).result.map fun _ => o.report)

theorem run_outcome (j : Job) (s : Session) (moment : Cache.Moment) :
    RunOutcome j s moment (j.run s moment) := by
  unfold run
  rcases hsources : j.sources s.volume with ⟨events, failure | files⟩
  · exact .unsourced failure (by rw [hsources]) rfl rfl rfl
  dsimp only
  cases hbuild : (j.pipeline.build s moment files).result with
  | error e =>
    have hsession := (j.pipeline.build_outcome s moment files).failsCleanly.unchanged e hbuild
    exact .unbuilt files e (by rw [hsources]) hbuild hsession rfl rfl
  | ok o => exact .delivered files o (by rw [hsources]) hbuild rfl rfl rfl

/-- A run that fails before it renders changes nothing, neither in the file tree nor in the cache, and
one that returns has rendered the text of its build. -/
structure RunsCleanly (j : Job) (s : Session) (moment : Cache.Moment) (r : JobRun) : Prop where
  unsourced : ∀ failure, (j.sources s.volume).2 = .error failure →
    r.result = .error failure ∧ r.session = s
  unbuilt : ∀ files e, (j.sources s.volume).2 = .ok files →
    (j.pipeline.build s moment files).result = .error e →
      r.result = .error ⟨["Build failed"], .error e⟩ ∧ r.session = s
  returned : ∀ report, r.result = .ok report → ∃ files dot,
    (j.sources s.volume).2 = .ok files ∧
      (j.pipeline.build s moment files).result = .ok ⟨dot, report⟩ ∧ r.rendered = some dot

theorem RunOutcome.runsCleanly {r : JobRun} (h : RunOutcome j s moment r) :
    RunsCleanly j s moment r := by
  cases h with
  | unsourced failure hsources hsession hrendered hresult =>
    refine ⟨?_, ?_, ?_⟩
    · intro failure' h
      obtain rfl := Except.error.inj (hsources.symm.trans h)
      exact ⟨hresult, hsession⟩
    · intro files e h
      simp [hsources] at h
    · intro report h
      simp [hresult] at h
  | unbuilt files e hsources hbuild hsession hrendered hresult =>
    refine ⟨?_, ?_, ?_⟩
    · intro failure h
      simp [hsources] at h
    · intro files' e' h h'
      obtain rfl := Except.ok.inj (hsources.symm.trans h)
      obtain rfl := Except.error.inj (hbuild.symm.trans h')
      exact ⟨hresult, hsession⟩
    · intro report h
      simp [hresult] at h
  | delivered files o hsources hbuild hvolume hrendered hresult =>
    refine ⟨?_, ?_, ?_⟩
    · intro failure h
      simp [hsources] at h
    · intro files' e h h'
      obtain rfl := Except.ok.inj (hsources.symm.trans h)
      simp [hbuild] at h'
    · intro report h
      rw [hresult] at h
      refine ⟨files, o.dot, hsources, ?_, hrendered⟩
      cases hrender : (j.renderer.render (j.pipeline.build s moment files).session.volume
          o.dot).result with
      | error failure => simp [hrender, Except.map] at h
      | ok u =>
        rw [hrender] at h
        rw [hbuild, ← Except.ok.inj h]

end Job

/-- The text of a run, if it returned. -/
def JobRun.text? (r : JobRun) : Option String :=
  match r.result with
  | .ok _ => r.rendered
  | .error _ => none

/-- The text of the last of some runs that returned. -/
def JobRun.lastText? (runs : List JobRun) : Option String := (runs.filterMap JobRun.text?).getLast?

theorem JobRun.lastText?_singleton (r : JobRun) : lastText? [r] = r.text? := by
  cases h : r.text? <;> simp [lastText?, h]

theorem JobRun.lastText?_append (runs more : List JobRun) :
    lastText? (runs ++ more) = (lastText? more).or (lastText? runs) := by
  rw [lastText?, List.filterMap_append, List.getLast?_append]
  rfl

/-- Rendering did not fail: what was handed to the renderer was returned. -/
def JobRun.Rendered (r : JobRun) : Prop := r.rendered.isSome = true → r.result.isOk = true

instance (r : JobRun) : Decidable r.Rendered := inferInstanceAs (Decidable (_ → _))

/-- After a run in which rendering does not fail, the output holds the text of this run if it
returned, and what it held before if it did not. -/
theorem Job.run_shows {j : Job} {path : Path} (hfile : j.renderer = .file path) (s : Session)
    (moment : Cache.Moment) (h : (j.run s moment).Rendered) :
    ((j.run s moment).session.volume.readContent path).toOption =
      ((j.run s moment).text?.map .text).or (s.volume.readContent path).toOption := by
  cases j.run_outcome s moment with
  | unsourced failure hsources hsession hrendered hresult =>
    simp [JobRun.text?, hresult, hsession]
  | unbuilt files e hsources hbuild hsession hrendered hresult =>
    simp [JobRun.text?, hresult, hsession]
  | delivered files o hsources hbuild hvolume hrendered hresult =>
    rw [hfile] at hvolume hresult
    have hok := h (by rw [hrendered]; rfl)
    cases hrender : ((Renderer.file path).render (j.pipeline.build s moment files).session.volume
        o.dot).result with
    | error failure =>
      rw [hresult, hrender] at hok
      cases hok
    | ok u =>
      rw [hrender] at hresult
      simp [JobRun.text?, hresult, hrendered, hvolume, Renderer.readContent_render hrender,
        Except.map, Except.toOption]

/-! ## What happens to a service -/

namespace Service

variable {s : Service} {path : Path}

/-- What happens to a service and its files. -/
inductive Happening where
  /-- The job of the service is run on its own. -/
  | run (moment : Cache.Moment)
  | rebuild (moment : Cache.Moment)
  | edit (e : Edit)
  /-- The file tree is another one. -/
  | change (v : Volume)

/-- What comes of it, with the run of the job if there was one. -/
def undergo (s : Service) : Happening → Service × Option JobRun
  | .run moment =>
    let run := s.job.run s.session moment
    ({ s with session := run.session }, some run)
  | .rebuild moment =>
    let (t, run) := s.rebuild moment
    (t, some run)
  | .edit e => ((s.edit e).1, none)
  | .change v => ({ s with session := { s.session with volume := v } }, none)

/-- One thing after the other, with all runs of the job. -/
def live (s : Service) : List Happening → Service × List JobRun
  | [] => (s, [])
  | h :: hs =>
    let (t, run) := s.undergo h
    let (u, runs) := t.live hs
    (u, run.toList ++ runs)

/-- Rendering does not fail, and changes from outside leave the output alone: an edit is one of
another file, and any other change leaves what is read at the path of the output. -/
def Spares (s : Service) (path : Path) : Happening → Prop
  | .run moment => (s.job.run s.session moment).Rendered
  | .rebuild moment => (s.rebuild moment).2.Rendered
  | .edit e => s.session.volume.Elsewhere path e
  | .change v => ReadsSame path s.session.volume v

/-- All that happens spares the output. -/
def Undisturbed (path : Path) : Service → List Happening → Prop
  | _, [] => True
  | s, h :: hs => s.Spares path h ∧ (s.undergo h).1.Undisturbed path hs

/-- The content at the path of the output, if it can be read. -/
def output? (s : Service) (path : Path) : Option Content :=
  (s.session.volume.readContent path).toOption

theorem job_undergo (s : Service) (h : Happening) : (s.undergo h).1.job = s.job := by
  cases h <;> rfl

theorem output_undergo (hfile : s.job.renderer = .file path) {h : Happening}
    (hspares : s.Spares path h) : (s.undergo h).1.output? path =
      ((JobRun.lastText? (s.undergo h).2.toList).map .text).or (s.output? path) := by
  cases h with
  | run moment =>
    have hshows := Job.run_shows hfile s.session moment hspares
    rwa [← JobRun.lastText?_singleton] at hshows
  | rebuild moment =>
    have hshows := Job.run_shows hfile s.session moment hspares
    rwa [← JobRun.lastText?_singleton] at hshows
  | edit e => exact hspares.readsSame
  | change v => exact hspares

theorem output_live (hfile : s.job.renderer = .file path) {hs : List Happening}
    (hquiet : s.Undisturbed path hs) : (s.live hs).1.output? path =
      ((JobRun.lastText? (s.live hs).2).map .text).or (s.output? path) := by
  induction hs generalizing s with
  | nil => rfl
  | cons h hs ih =>
    obtain ⟨hspares, hrest⟩ := hquiet
    have hlater := ih (by rwa [job_undergo]) hrest
    rw [output_undergo hfile hspares] at hlater
    rw [live, JobRun.lastText?_append, Option.map_or, Option.or_assoc]
    exact hlater

/-- The output always shows the last good build. Let a job with any walker and any parser render to a
file, let it be run by itself or by its service any number of times, and let the file tree change in
between, so that rendering never fails and no change is one of the output. Then the output holds the
text of the last run that returned, or what it held at the start if none has. A run that fails while
sources are collected or read, or in the build, leaves the whole file tree and the cache as they
were. -/
theorem output_shows_last_build (s : Service) (path : Path) (happenings : List Happening)
    (hfile : s.job.renderer = .file path) (hquiet : s.Undisturbed path happenings) :
    (s.live happenings).1.output? path =
      ((JobRun.lastText? (s.live happenings).2).map .text).or (s.output? path) ∧
    ∀ (t : Session) (moment : Cache.Moment),
      s.job.RunsCleanly t moment (s.job.run t moment) :=
  ⟨output_live hfile hquiet, fun t moment => (s.job.run_outcome t moment).runsCleanly⟩

/-- A service with one source, which renders to a file in a directory that is not there yet. -/
def oneSource : Service where
  job := {
    pipeline := .extractor false true
    renderer := .file ⟨"out/graph.dot"⟩
    inputs := [⟨"a.rs"⟩]
    extensions := ["rs"] }
  session := ⟨⟨[("w", .directory [("a.rs", .file (.text "fn f() \x7b\x7d")),
    ("b.rs", .file (.text ""))])], ["w"]⟩, {}⟩
  watcher := { extensions := ["rs"] }

/-- The file tree after a build, with the source taken away. -/
def withoutSource : Volume :=
  (oneSource.job.run oneSource.session { savedAt := "" }).session.volume.drop ["w", "a.rs"]

/-- A file is removed that is no source, the source is built, it is taken away, and the next build
fails. -/
def buildThenFailure : List Happening :=
  [.edit (.remove ⟨"b.rs"⟩), .run { savedAt := "2024-01-01" }, .change withoutSource,
    .rebuild { savedAt := "2024-01-02" }]

theorem undisturbed_buildThenFailure : oneSource.Undisturbed ⟨"out/graph.dot"⟩ buildThenFailure := by
  have hfile : oneSource.session.volume.locate false ⟨"b.rs"⟩ =
      .ok (.taken ["w", "b.rs"] (.file (.text ""))) := by
    rfl
  have hnone : oneSource.session.volume.locate true ⟨"out/graph.dot"⟩ = .error .notFound := by
    rfl
  refine ⟨.remove hfile (by simp [hnone]), ?_, ?_, ?_, trivial⟩
  · show JobRun.Rendered _
    decide +kernel
  · show ReadsSame _ _ _
    decide +kernel
  · show JobRun.Rendered _
    decide +kernel

/-- After a build that failed the output holds the text of the one before. -/
theorem output_shows_last_build_buildThenFailure :
    ((oneSource.live buildThenFailure).2.map fun r => r.result.isOk) = [true, false] ∧
      (JobRun.lastText? (oneSource.live buildThenFailure).2).isSome = true ∧
        (oneSource.live buildThenFailure).1.output? ⟨"out/graph.dot"⟩ =
          ((JobRun.lastText? (oneSource.live buildThenFailure).2).map .text).or none := by
  refine ⟨by decide +kernel, by decide +kernel, ?_⟩
  have hnone : oneSource.output? ⟨"out/graph.dot"⟩ = none := by decide +kernel
  rw [← hnone]
  exact (output_shows_last_build oneSource ⟨"out/graph.dot"⟩ buildThenFailure rfl
    undisturbed_buildThenFailure).1

end Service

end CallGraph
