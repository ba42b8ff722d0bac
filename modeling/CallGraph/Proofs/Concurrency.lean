import CallGraph.Proofs.Builds

/-!
Builds that run at the same time on one cache.

The cache is shared, and nothing but persisting is locked. A build inserts its text, takes the lock,
reads the entries one by one, replaces the file by what it has read, and releases the lock. Other
builds insert while it reads, so what it writes may lack their entries, or have an old value for a
key that was inserted again. No step of one build waits for another but the taking of the lock.

What is proved:
1. `safe_step`: the file has the key of every build that has returned with its cache persisted. Such
   a key was in memory before the next build began to read, and whoever reads sees all keys that
   were there when the reading began.
2. `inStep_step`: as long as nobody has inserted without having begun to read, a reader has seen
   only current values. So the last one to persist writes the whole memory.
3. `solo_run`: a build that is not interrupted does what `Pipeline.store` does, so the steps here
   are those of a build.
-/

namespace CallGraph

namespace TextMap

variable {m m' : TextMap} {key value : String}

theorem find?_eq_some_iff {l : List (String × String)} (h : l.Pairwise (fun a b => a.1 < b.1)) :
    find? key l = some value ↔ (key, value) ∈ l := by
  induction l with
  | nil => simp [find?]
  | cons e es ih =>
    rw [List.pairwise_cons] at h
    rw [find?, List.mem_cons]
    by_cases he : e.1 = key
    · subst he
      -- The other keys are greater, so only the first entry counts.
      have hes : (e.1, value) ∉ es := by
        intro hmem
        exact String.lt_irrefl _ (h.1 (e.1, value) hmem)
      simp [hes, Prod.ext_iff, eq_comm]
    · have hne : (key, value) ≠ e := fun heq => he (congrArg Prod.fst heq).symm
      simp [he, hne, ih h.2]

theorem get?_eq_some_iff : m.get? key = some value ↔ (key, value) ∈ m.toList :=
  find?_eq_some_iff m.sorted

theorem ext_get? (h : ∀ key, m.get? key = m'.get? key) : m = m' := by
  have hnodup (m : TextMap) : m.toList.Nodup := by
    refine m.sorted.imp ?_
    intro a b hab heq
    exact String.lt_irrefl _ (heq ▸ hab)
  have hperm : m.toList.Perm m'.toList := by
    refine (List.perm_ext_iff_of_nodup (hnodup m) (hnodup m')).mpr ?_
    intro e
    rw [← get?_eq_some_iff, ← get?_eq_some_iff, h]
  refine ext_toList (hperm.eq_of_pairwise ?_ m.sorted m'.sorted)
  intro a b _ _ hab hba
  exact absurd (String.lt_trans hab hba) (String.lt_irrefl _)

/-- Whether a map has a value for a key. -/
def Has (m : TextMap) (key : String) : Prop := (m.get? key).isSome = true

theorem has_insert (k : String) : (m.insert key value).Has k ↔ k = key ∨ m.Has k := by
  rw [Has, Has, get?_insert]
  split <;> simp_all

theorem not_has_empty (k : String) : ¬ ({} : TextMap).Has k := by
  simp [Has, get?, find?]

theorem has_of_get? (h : m.get? key = some value) : m.Has key := by
  rw [Has, h]
  rfl

theorem has_of_mem {e : String × String} (he : e ∈ m.toList) : m.Has e.1 :=
  has_of_get? (get?_eq_some_iff.mpr he)

theorem has_iff : m.Has key ↔ ∃ value, (key, value) ∈ m.toList := by
  simp [Has, Option.isSome_iff_exists, get?_eq_some_iff]

end TextMap

namespace Shared

/-- How far a build has come with the cache. -/
inductive Stage where
  | ready
  /-- Its key was in the cache, and it has returned what is there. -/
  | answered
  | inserted
  | locked
  /-- It reads: what there was when it began, and what it has read so far. -/
  | reading (due seen : TextMap)
  /-- It has replaced the file, or tried to. -/
  | replaced (ok : Bool)
  | returned (persisted : Bool)

/-- A build: its key, its text and how far it has come. -/
structure Worker where
  key : String
  value : String
  stage : Stage := .ready

end Shared

/-- A session with the builds that work on it. The lock is held by the build with this number, and
`stored` is what the file was given last. -/
structure Shared extends Session where
  stored : TextMap
  lock : Option Nat := none
  workers : List Shared.Worker := []

namespace Shared

inductive Move where
  | answer
  | insert
  | acquire
  | look
  | see (key : String)
  | replace (moment : Cache.Moment)
  | release

/-- What can happen: another build comes, or one of them goes on. -/
inductive Action where
  | come (key value : String)
  | move (i : Nat) (m : Move)

def enter (s : Shared) (i : Nat) (w : Worker) (stage : Stage) : Shared :=
  { s with workers := s.workers.set i { w with stage } }

/-- Whether every key of the first map is in the second. -/
def covers (due seen : TextMap) : Bool := due.toList.all fun e => (seen.get? e.1).isSome

/-- One step of a build, if it can be done. A reader may read any entry that is there, again too, and
ends when it has read all that were there when it began. -/
def advance (s : Shared) (i : Nat) (w : Worker) : Move → Option Shared
  | .answer =>
    match w.stage with
    | .ready => if (s.cache.lookup w.key).isSome then some (s.enter i w .answered) else none
    | _ => none
  | .insert =>
    match w.stage with
    | .ready => some ({ s with cache := s.cache.insert w.key w.value }.enter i w .inserted)
    | _ => none
  | .acquire =>
    match w.stage with
    | .inserted => if s.lock = none then some ({ s with lock := some i }.enter i w .locked) else none
    | _ => none
  | .look =>
    match w.stage with
    | .locked => some (s.enter i w (.reading s.cache.entries {}))
    | _ => none
  | .see key =>
    match w.stage with
    | .reading due seen =>
      (s.cache.lookup key).map fun value => s.enter i w (.reading due (seen.insert key value))
    | _ => none
  | .replace moment =>
    match w.stage with
    | .reading due seen =>
      if covers due seen then
        let persisted := { s.cache with entries := seen }.persist s.volume moment
        some ({ s with
          volume := persisted.volume
          stored := if persisted.result.isOk then seen else s.stored }.enter i w
            (.replaced persisted.result.isOk))
      else none
    | _ => none
  | .release =>
    match w.stage with
    | .replaced ok => some ({ s with lock := none }.enter i w (.returned ok))
    | _ => none

/-- One thing that happens. What cannot be done is not done. -/
def step (s : Shared) : Action → Shared
  | .come key value => { s with workers := s.workers ++ [⟨key, value, .ready⟩] }
  | .move i m =>
    match s.workers[i]? with
    | some w => (s.advance i w m).getD s
    | none => s

/-- The start: a cache that was loaded from its file, and no build yet. -/
def start (v : Volume) (directory : Path) (ns : String) : Shared :=
  { volume := v
    cache := (Cache.load v directory ns).2
    stored := (Cache.load v directory ns).2.entries }

variable {s s' : Shared} {i j : Nat} {w x : Worker} {m : Move} {stage : Stage}
  {directory : Path} {ns : String}

/-! ## What a step does -/

theorem workers_enter (hw : s.workers[i]? = some w) (j : Nat) :
    (s.enter i w stage).workers[j]? = if i = j then some { w with stage } else s.workers[j]? := by
  have hlt : i < s.workers.length := (List.getElem?_eq_some_iff.mp hw).1
  rw [enter, List.getElem?_set]
  simp [hlt]

theorem covers_iff {due seen : TextMap} :
    covers due seen = true ↔ ∀ key, due.Has key → seen.Has key := by
  rw [covers, List.all_eq_true]
  refine ⟨?_, ?_⟩
  · intro h key hkey
    obtain ⟨value, hmem⟩ := TextMap.has_iff.mp hkey
    exact h (key, value) hmem
  · intro h e he
    exact h e.1 (TextMap.has_of_mem he)

theorem forall_enter {P : Nat → Worker → Prop} (hw : s.workers[i]? = some w)
    (hself : P i { w with stage }) (hother : ∀ j x, j ≠ i → s.workers[j]? = some x → P j x) :
    ∀ j x, (s.enter i w stage).workers[j]? = some x → P j x := by
  intro j x hx
  rw [workers_enter hw] at hx
  split at hx
  · next heq =>
    obtain rfl := Option.some.inj hx
    exact heq ▸ hself
  · next hne => exact hother j x (Ne.symm hne) hx

/-- Every step of a build, with what it needs and what it changes. -/
inductive Advances (s : Shared) (i : Nat) (w : Worker) : Shared → Prop where
  | answers (hstage : w.stage = .ready) : Advances s i w (s.enter i w .answered)
  | inserts (hstage : w.stage = .ready) :
    Advances s i w ({ s with cache := s.cache.insert w.key w.value }.enter i w .inserted)
  | acquires (hstage : w.stage = .inserted) (hfree : s.lock = none) :
    Advances s i w ({ s with lock := some i }.enter i w .locked)
  | looks (hstage : w.stage = .locked) :
    Advances s i w (s.enter i w (.reading s.cache.entries {}))
  | sees {due seen : TextMap} {key value : String} (hstage : w.stage = .reading due seen)
    (hvalue : s.cache.entries.get? key = some value) :
    Advances s i w (s.enter i w (.reading due (seen.insert key value)))
  | replaces {due seen : TextMap} {moment : Cache.Moment} {persisted : Cache.Persisted}
    (hstage : w.stage = .reading due seen) (hcovers : ∀ key, due.Has key → seen.Has key)
    (hpersisted : { s.cache with entries := seen }.persist s.volume moment = persisted) :
    Advances s i w ({ s with
      volume := persisted.volume
      stored := if persisted.result.isOk then seen else s.stored }.enter i w
        (.replaced persisted.result.isOk))
  | releases {ok : Bool} (hstage : w.stage = .replaced ok) :
    Advances s i w ({ s with lock := none }.enter i w (.returned ok))

theorem advances_of_advance (h : s.advance i w m = some s') : Advances s i w s' := by
  cases m with
  | answer =>
    simp only [advance] at h
    split at h
    · next hstage =>
      split at h
      · exact Option.some.inj h ▸ .answers hstage
      · cases h
    · cases h
  | insert =>
    simp only [advance] at h
    split at h
    · next hstage => exact Option.some.inj h ▸ .inserts hstage
    · cases h
  | acquire =>
    simp only [advance] at h
    split at h
    · next hstage =>
      split at h
      · next hfree => exact Option.some.inj h ▸ .acquires hstage hfree
      · cases h
    · cases h
  | look =>
    simp only [advance] at h
    split at h
    · next hstage => exact Option.some.inj h ▸ .looks hstage
    · cases h
  | see key =>
    simp only [advance] at h
    split at h
    · next hstage =>
      obtain ⟨value, hvalue, rfl⟩ := Option.map_eq_some_iff.mp h
      exact .sees hstage hvalue
    · cases h
  | replace moment =>
    simp only [advance] at h
    split at h
    · next hstage =>
      split at h
      · next hcovers => exact Option.some.inj h ▸ .replaces hstage (covers_iff.mp hcovers) rfl
      · cases h
    · cases h
  | release =>
    simp only [advance] at h
    split at h
    · next hstage => exact Option.some.inj h ▸ .releases hstage
    · cases h

/-- Whatever holds now, holds after anything that happens, if the coming of a build and every step
of a build keep it. -/
theorem step_induction {P : Shared → Prop} (hs : P s) (a : Action)
    (hcome : ∀ key value, P (s.step (.come key value)))
    (hmove : ∀ i w s', s.workers[i]? = some w → Advances s i w s' → P s') : P (s.step a) := by
  cases a with
  | come key value => exact hcome key value
  | move i m =>
    rw [step]
    split
    · next w hw =>
      cases h : s.advance i w m with
      | none => exact hs
      | some s' => exact hmove i w s' hw (advances_of_advance h)
    · exact hs

/-! ## No key is lost -/

/-- What a build at its stage can rely on. -/
def Relies (s : Shared) (i : Nat) (w : Worker) : Prop :=
  match w.stage with
  | .ready | .answered => True
  | .inserted => s.cache.entries.Has w.key
  | .locked => s.lock = some i ∧ s.cache.entries.Has w.key
  | .reading due seen =>
    s.lock = some i ∧ due.Has w.key ∧ (∀ key, s.stored.Has key → due.Has key) ∧
      ∀ key, seen.Has key → s.cache.entries.Has key
  | .replaced ok => s.lock = some i ∧ (ok = true → s.stored.Has w.key)
  | .returned persisted => persisted = true → s.stored.Has w.key

/-- The file has what was stored last, of which no key is missing in memory, and every build has
what it relies on. -/
structure Safe (directory : Path) (ns : String) (s : Shared) : Prop where
  path : s.cache.path = some (Cache.filePath directory ns)
  holds : s.volume.Holds (Cache.filePath directory ns) s.stored
  known : ∀ key, s.stored.Has key → s.cache.entries.Has key
  relies : ∀ i w, s.workers[i]? = some w → Relies s i w

/-- What others do does not take away what a build relies on. Only the one with the lock needs that
nothing is stored meanwhile. -/
theorem Relies.mono (h : Relies s i w) (hlock : s.lock = some i → s'.lock = some i)
    (hentries : ∀ key, s.cache.entries.Has key → s'.cache.entries.Has key)
    (hstored : ∀ key, s.stored.Has key → s'.stored.Has key)
    (hdue : s.lock = some i → ∀ key, s'.stored.Has key → s.stored.Has key) : Relies s' i w := by
  unfold Relies at h ⊢
  cases hstage : w.stage with
  | ready => trivial
  | answered => trivial
  | inserted =>
    rw [hstage] at h
    exact hentries _ h
  | locked =>
    rw [hstage] at h
    exact ⟨hlock h.1, hentries _ h.2⟩
  | reading due seen =>
    rw [hstage] at h
    obtain ⟨hl, hown, hold, hseen⟩ := h
    exact ⟨hlock hl, hown, fun key hkey => hold key (hdue hl key hkey),
      fun key hkey => hentries key (hseen key hkey)⟩
  | replaced ok =>
    rw [hstage] at h
    exact ⟨hlock h.1, fun hok => hstored _ (h.2 hok)⟩
  | returned persisted =>
    rw [hstage] at h
    exact fun hok => hstored _ (h hok)

theorem Safe.at (hs : Safe directory ns s) (hw : s.workers[i]? = some w)
    (hstage : w.stage = stage) : Relies s i { w with stage } := by
  subst hstage
  exact hs.relies i w hw

theorem safe_advance (hs : Safe directory ns s) (hw : s.workers[i]? = some w)
    (h : Advances s i w s') : Safe directory ns s' := by
  cases h with
  | answers hstage =>
    refine ⟨hs.path, hs.holds, hs.known, forall_enter hw trivial ?_⟩
    intro j x _ hx
    exact hs.relies j x hx
  | inserts hstage =>
    have hgrow : ∀ key, s.cache.entries.Has key →
        (s.cache.entries.insert w.key w.value).Has key :=
      fun key hkey => (TextMap.has_insert key).mpr (Or.inr hkey)
    refine ⟨hs.path, hs.holds, fun key hkey => hgrow key (hs.known key hkey),
      forall_enter hw ((TextMap.has_insert w.key).mpr (Or.inl rfl)) ?_⟩
    intro j x _ hx
    exact (hs.relies j x hx).mono id hgrow (fun _ => id) (fun _ _ => id)
  | acquires hstage hfree =>
    refine ⟨hs.path, hs.holds, hs.known, forall_enter hw ⟨rfl, hs.at hw hstage⟩ ?_⟩
    intro j x _ hx
    refine (hs.relies j x hx).mono ?_ (fun _ => id) (fun _ => id) (fun _ _ => id)
    intro hlock
    rw [hfree] at hlock
    cases hlock
  | looks hstage =>
    obtain ⟨hlock, hown⟩ := hs.at hw hstage
    refine ⟨hs.path, hs.holds, hs.known, forall_enter hw ⟨hlock, hown, hs.known, ?_⟩ ?_⟩
    · intro key hkey
      exact absurd hkey (TextMap.not_has_empty key)
    · intro j x _ hx
      exact hs.relies j x hx
  | sees hstage hvalue =>
    obtain ⟨hlock, hown, hold, hseen⟩ := hs.at hw hstage
    refine ⟨hs.path, hs.holds, hs.known, forall_enter hw ⟨hlock, hown, hold, ?_⟩ ?_⟩
    · intro key hkey
      obtain rfl | hkey := (TextMap.has_insert key).mp hkey
      · exact TextMap.has_of_get? hvalue
      · exact hseen key hkey
    · intro j x _ hx
      exact hs.relies j x hx
  | @replaces due seen moment persisted hstage hcovers hpersisted =>
    obtain ⟨hlock, hown, hold, hseen⟩ := hs.at hw hstage
    subst hpersisted
    cases hresult : ({ s.cache with entries := seen }.persist s.volume moment).result with
    | error e =>
      have hholds := Cache.holds_of_persist_fails hs.holds hresult
      simp only [Except.isOk, Except.toBool, Bool.false_eq_true, if_false]
      refine ⟨hs.path, hholds, hs.known, forall_enter hw
        ⟨hlock, fun hok => absurd hok Bool.false_ne_true⟩ ?_⟩
      intro j x _ hx
      exact hs.relies j x hx
    | ok _ =>
      have hpath : ({ s.cache with entries := seen } : Cache).path =
        some (Cache.filePath directory ns) := hs.path
      have hholds := (Cache.persist_succeeds hs.holds hpath hresult).1
      simp only [Except.isOk, Except.toBool, if_true]
      -- The new file has all keys of the old one, as whoever reads sees what was there before.
      have hgrow : ∀ key, s.stored.Has key → seen.Has key :=
        fun key hkey => hcovers key (hold key hkey)
      refine ⟨hs.path, hholds, hseen, forall_enter hw ⟨hlock, fun _ => hcovers _ hown⟩ ?_⟩
      intro j x hne hx
      refine (hs.relies j x hx).mono id (fun _ => id) hgrow ?_
      intro hj
      rw [hlock] at hj
      exact absurd (Option.some.inj hj).symm hne
  | releases hstage =>
    obtain ⟨hlock, hok⟩ := hs.at hw hstage
    refine ⟨hs.path, hs.holds, hs.known, forall_enter hw hok ?_⟩
    intro j x hne hx
    refine (hs.relies j x hx).mono ?_ (fun _ => id) (fun _ => id) (fun _ _ => id)
    intro hj
    rw [hlock] at hj
    exact absurd (Option.some.inj hj).symm hne

theorem safe_step (hs : Safe directory ns s) (a : Action) : Safe directory ns (s.step a) := by
  refine step_induction hs a ?_ fun i w s' hw h => safe_advance hs hw h
  intro key value
  refine ⟨hs.path, hs.holds, hs.known, ?_⟩
  intro i w hw
  rw [step, List.getElem?_append] at hw
  split at hw
  · exact hs.relies i w hw
  · obtain rfl := List.mem_singleton.mp (List.mem_of_getElem? hw)
    trivial

theorem Safe.lock_of_reading (hs : Safe directory ns s) (hx : s.workers[j]? = some x)
    {due seen : TextMap} (hstage : x.stage = .reading due seen) : s.lock = some j :=
  (hs.at hx hstage).1

/-! ## The last one writes everything -/

/-- Whether a build has nothing to write any more, and has not failed to write. -/
def Stage.isSettled : Stage → Bool
  | .ready | .answered => true
  | .replaced ok => ok
  | .returned persisted => persisted
  | _ => false

/-- Whether a build has inserted its text and has yet to begin reading. -/
def Stage.isPending : Stage → Bool
  | .inserted | .locked => true
  | _ => false

/-- A reader has seen only current values, and there is nothing new since it began. -/
structure UpToDate (s : Shared) (due seen : TextMap) : Prop where
  due : due = s.cache.entries
  seen : ∀ key value, seen.get? key = some value → s.cache.entries.get? key = some value

/-- All builds are at stages that satisfy a test. -/
def AllAt (s : Shared) (test : Stage → Bool) : Prop := ∀ w ∈ s.workers, test w.stage = true

/-- Unless a build is still to write, the file has what is in memory. Unless another is still to
read, the one that reads now is up to date. -/
structure InStep (s : Shared) : Prop where
  settled : s.AllAt Stage.isSettled → s.stored = s.cache.entries
  reading : s.AllAt (fun stage => !stage.isPending) →
    ∀ (i : Nat) (w : Worker), s.workers[i]? = some w →
      ∀ due seen, w.stage = .reading due seen → UpToDate s due seen

/-- Whoever has seen every key, and only current values, has seen everything. -/
theorem UpToDate.eq_entries {due seen : TextMap} (h : UpToDate s due seen)
    (hcovers : ∀ key, due.Has key → seen.Has key) : seen = s.cache.entries := by
  apply TextMap.ext_get?
  intro key
  cases hseen : seen.get? key with
  | some value => rw [h.seen key value hseen]
  | none =>
    cases hentry : s.cache.entries.get? key with
    | none => rfl
    | some value =>
      have hhas := hcovers key (h.due ▸ TextMap.has_of_get? hentry)
      rw [TextMap.Has, hseen] at hhas
      cases hhas

/-- If all builds are at such stages after one has moved, the new stage is one, and all were at such
stages before, if the old stage is one. -/
theorem AllAt.of_enter {test : Stage → Bool} (h : (s.enter i w stage).AllAt test)
    (hw : s.workers[i]? = some w) :
    test stage = true ∧ (test w.stage = true → s.AllAt test) := by
  refine ⟨h { w with stage } ?_, ?_⟩
  · exact List.mem_of_getElem? ((workers_enter hw i).trans (if_pos rfl))
  · intro hself x hx
    obtain ⟨j, hj⟩ := List.mem_iff_getElem?.mp hx
    by_cases heq : i = j
    · subst heq
      obtain rfl := Option.some.inj (hw.symm.trans hj)
      exact hself
    · exact h x (List.mem_of_getElem? (((workers_enter hw j).trans (if_neg heq)).trans hj))

theorem AllAt.not_pending (h : s.AllAt Stage.isSettled) :
    s.AllAt (fun stage => !stage.isPending) := by
  intro w hw
  have hsettled := h w hw
  cases hstage : w.stage with
  | inserted => rw [hstage] at hsettled; cases hsettled
  | locked => rw [hstage] at hsettled; cases hsettled
  | _ => rfl

theorem inStep_advance (hs : Safe directory ns s) (hin : InStep s) (hw : s.workers[i]? = some w)
    (h : Advances s i w s') : InStep s' := by
  -- Nobody else reads while a build has the lock.
  have halone : ∀ {P : TextMap → TextMap → Prop}, s.lock = some i →
      ∀ (j : Nat) (x : Worker), j ≠ i → s.workers[j]? = some x → ∀ due seen,
        x.stage = .reading due seen → P due seen := by
    intro P hlock j x hne hx due seen hstage
    have hj := hs.lock_of_reading hx hstage
    rw [hlock] at hj
    exact absurd (Option.some.inj hj).symm hne
  cases h with
  | answers hstage =>
    refine ⟨?_, ?_⟩
    · intro hall
      exact hin.settled ((hall.of_enter hw).2 (by rw [hstage]; rfl))
    · intro hall
      have hbefore := (hall.of_enter hw).2 (by rw [hstage]; rfl)
      refine forall_enter hw (fun _ _ => nofun) ?_
      intro j x _ hx due seen hreading
      have hdate := hin.reading hbefore j x hx due seen hreading
      exact ⟨hdate.due, hdate.seen⟩
  | inserts hstage =>
    refine ⟨?_, ?_⟩
    · intro hall
      cases (hall.of_enter hw).1
    · intro hall
      cases (hall.of_enter hw).1
  | acquires hstage hfree =>
    refine ⟨?_, ?_⟩
    · intro hall
      cases (hall.of_enter hw).1
    · intro hall
      cases (hall.of_enter hw).1
  | looks hstage =>
    refine ⟨?_, ?_⟩
    · intro hall
      cases (hall.of_enter hw).1
    · intro _
      refine forall_enter hw ?_ (halone (hs.at hw hstage).1)
      intro due seen hreading
      obtain ⟨rfl, rfl⟩ := Stage.reading.inj hreading
      exact ⟨rfl, nofun⟩
  | @sees due seen key value hstage hvalue =>
    refine ⟨?_, ?_⟩
    · intro hall
      cases (hall.of_enter hw).1
    · intro hall
      have hbefore := (hall.of_enter hw).2 (by rw [hstage]; rfl)
      refine forall_enter hw ?_ (halone (hs.at hw hstage).1)
      intro due' seen' hreading
      obtain ⟨rfl, rfl⟩ := Stage.reading.inj hreading
      have hdate := hin.reading hbefore i w hw due seen hstage
      refine ⟨hdate.due, ?_⟩
      intro k v hk
      rw [TextMap.get?_insert] at hk
      split at hk
      · next heq =>
        obtain rfl := Option.some.inj hk
        exact heq ▸ hvalue
      · exact hdate.seen k v hk
  | @replaces due seen moment persisted hstage hcovers hpersisted =>
    refine ⟨?_, ?_⟩
    · intro hall
      have hok : persisted.result.isOk = true := (hall.of_enter hw).1
      -- Nobody is still to read, so what was read is everything.
      have hbefore := (hall.not_pending.of_enter hw).2 (by rw [hstage]; rfl)
      have hdate := hin.reading hbefore i w hw due seen hstage
      show (if persisted.result.isOk then seen else s.stored) = s.cache.entries
      rw [if_pos hok, hdate.eq_entries hcovers]
    · intro _
      refine forall_enter hw (fun _ _ => nofun) (halone (hs.at hw hstage).1)
  | releases hstage =>
    refine ⟨?_, ?_⟩
    · intro hall
      have hok := (hall.of_enter hw).1
      exact hin.settled ((hall.of_enter hw).2 (by rw [hstage]; exact hok))
    · intro _
      refine forall_enter hw (fun _ _ => nofun) (halone (hs.at hw hstage).1)

theorem inStep_step (hs : Safe directory ns s) (hin : InStep s) (a : Action) :
    InStep (s.step a) := by
  refine step_induction hin a ?_ fun i w s' hw h => inStep_advance hs hin hw h
  intro key value
  refine ⟨fun hall => hin.settled fun w hw => hall w (List.mem_append_left _ hw), ?_⟩
  intro hall i w hw due seen hstage
  rw [step, List.getElem?_append] at hw
  split at hw
  · have hbefore : s.AllAt fun stage => !stage.isPending :=
      fun w hw => hall w (List.mem_append_left _ hw)
    have hdate := hin.reading hbefore i w hw due seen hstage
    exact ⟨hdate.due, hdate.seen⟩
  · obtain rfl := List.mem_singleton.mp (List.mem_of_getElem? hw)
    cases hstage

theorem kept_run (hs : Safe directory ns s) (hin : InStep s) (actions : List Action) :
    Safe directory ns (actions.foldl step s) ∧ InStep (actions.foldl step s) := by
  induction actions generalizing s with
  | nil => exact ⟨hs, hin⟩
  | cons a as ih => exact ih (safe_step hs a) (inStep_step hs hin a)

theorem kept_start {v : Volume} {entries : TextMap}
    (hholds : v.Holds (Cache.filePath directory ns) entries) :
    Safe directory ns (start v directory ns) ∧ InStep (start v directory ns) := by
  have hstart : start v directory ns =
      { volume := v
        cache := ⟨entries, some (Cache.filePath directory ns)⟩
        stored := entries } := by
    rw [start, Cache.load_of_holds hholds]
  rw [hstart]
  refine ⟨⟨rfl, hholds, fun _ => id, ?_⟩, ⟨fun _ => rfl, ?_⟩⟩
  · intro i w hw
    cases hw
  · intro _ i w hw
    cases hw

/-! ## A build that is not interrupted -/

/-- The state with another build after some others. -/
def withLast (s : Shared) (ws : List Worker) (w : Worker) : Shared := { s with workers := ws ++ [w] }

variable {ws : List Worker}

@[simp] theorem withLast_enter (stage : Stage) :
    (s.withLast ws w).enter ws.length w stage = s.withLast ws { w with stage } := by
  simp [enter, withLast]

theorem withLast_step (h : (s.withLast ws w).advance ws.length w m = some s') :
    (s.withLast ws w).step (.move ws.length m) = s' := by
  have hw : (s.withLast ws w).workers[ws.length]? = some w := by simp [withLast]
  rw [step, hw]
  simp [h]

theorem see_run (s : Shared) (ws : List Worker) (key value : String) (due seen : TextMap)
    (l : List (String × String)) (hl : ∀ e ∈ l, e ∈ s.cache.entries.toList) :
    (l.map fun e => Action.move ws.length (.see e.1)).foldl step
        (s.withLast ws ⟨key, value, .reading due seen⟩) =
      s.withLast ws ⟨key, value, .reading due (l.foldl (fun m e => m.insert e.1 e.2) seen)⟩ := by
  induction l generalizing seen with
  | nil => rfl
  | cons e l ih =>
    have hvalue : (s.withLast ws ⟨key, value, .reading due seen⟩).cache.lookup e.1 = some e.2 :=
      TextMap.get?_eq_some_iff.mpr (hl e List.mem_cons_self)
    have hstep : (s.withLast ws ⟨key, value, .reading due seen⟩).step (.move ws.length (.see e.1)) =
        s.withLast ws ⟨key, value, .reading due (seen.insert e.1 e.2)⟩ := by
      apply withLast_step
      simp [advance, hvalue]
    rw [List.map_cons, List.foldl_cons, hstep]
    exact ih _ fun x hx => hl x (List.mem_cons_of_mem e hx)

theorem covers_self (m : TextMap) : covers m m = true := covers_iff.mpr fun _ => id

theorem store_persisted_iff {p : Pipeline} (hp : p.useCache = true) (session : Session)
    (moment : Cache.Moment) (files : List SourceFile) (dot : String) :
    (p.store session moment files dot).2.2 =
      ((session.cache.insert (buildKey files) dot).persist session.volume moment).result.isOk := by
  unfold Pipeline.store
  rw [if_pos hp]
  dsimp only
  split
  · next hok => rw [hok]; rfl
  · next e herror => rw [herror]; rfl

/-- A build that nothing comes between leaves what storing its text leaves, and returns whether the
cache was persisted. -/
theorem solo_run {p : Pipeline} (hp : p.useCache = true) (hfree : s.lock = none)
    (moment : Cache.Moment) (files : List SourceFile) (dot : String) :
    ∃ actions : List Action,
      (actions.foldl step s).toSession = (p.store s.toSession moment files dot).1 ∧
      (actions.foldl step s).workers = s.workers ++
        [⟨buildKey files, dot, .returned (p.store s.toSession moment files dot).2.2⟩] := by
  rw [Pipeline.store_cache hp, store_persisted_iff hp]
  generalize buildKey files = key
  let filled : Shared := { s with cache := s.cache.insert key dot }
  let held : Shared := { filled with lock := some s.workers.length }
  let persisted := held.cache.persist held.volume moment
  let replaced : Shared :=
    { held with
      volume := persisted.volume
      stored := if persisted.result.isOk then held.cache.entries else held.stored }
  have hinsert : (s.withLast s.workers ⟨key, dot, .ready⟩).step (.move s.workers.length .insert) =
      filled.withLast s.workers ⟨key, dot, .inserted⟩ := by
    exact withLast_step (congrArg some (withLast_enter (s := filled) _))
  have hacquire : (filled.withLast s.workers ⟨key, dot, .inserted⟩).step
      (.move s.workers.length .acquire) = held.withLast s.workers ⟨key, dot, .locked⟩ := by
    exact withLast_step ((if_pos hfree).trans (congrArg some (withLast_enter (s := held) _)))
  have hlook : (held.withLast s.workers ⟨key, dot, .locked⟩).step (.move s.workers.length .look) =
      held.withLast s.workers ⟨key, dot, .reading held.cache.entries {}⟩ := by
    exact withLast_step (congrArg some (withLast_enter _))
  -- Reading all entries in their order yields the map itself.
  have hsee : (held.cache.entries.toList.map fun e =>
        Action.move s.workers.length (.see e.1)).foldl step
          (held.withLast s.workers ⟨key, dot, .reading held.cache.entries {}⟩) =
      held.withLast s.workers ⟨key, dot, .reading held.cache.entries held.cache.entries⟩ := by
    rw [see_run held s.workers key dot held.cache.entries {} held.cache.entries.toList fun _ => id]
    exact congrArg (fun m => held.withLast s.workers ⟨key, dot, .reading held.cache.entries m⟩)
      (TextMap.ofList_toList held.cache.entries)
  have hreplace : (held.withLast s.workers
        ⟨key, dot, .reading held.cache.entries held.cache.entries⟩).step
          (.move s.workers.length (.replace moment)) =
      replaced.withLast s.workers ⟨key, dot, .replaced persisted.result.isOk⟩ := by
    apply withLast_step
    rw [advance]
    dsimp only
    rw [if_pos (covers_self _)]
    exact congrArg some (withLast_enter (s := replaced) _)
  have hrelease : (replaced.withLast s.workers ⟨key, dot, .replaced persisted.result.isOk⟩).step
        (.move s.workers.length .release) =
      { replaced with lock := none }.withLast s.workers
        ⟨key, dot, .returned persisted.result.isOk⟩ := by
    exact withLast_step (congrArg some (withLast_enter (s := { replaced with lock := none }) _))
  refine ⟨[.come key dot, .move s.workers.length .insert, .move s.workers.length .acquire,
    .move s.workers.length .look] ++
    held.cache.entries.toList.map (fun e => Action.move s.workers.length (.see e.1)) ++
    [.move s.workers.length (.replace moment), .move s.workers.length .release], ?_⟩
  have hcome : s.step (.come key dot) = s.withLast s.workers ⟨key, dot, .ready⟩ := rfl
  simp only [List.foldl_append, List.foldl_cons, List.foldl_nil, hcome, hinsert, hacquire, hlook,
    hsee, hreplace, hrelease]
  exact ⟨rfl, rfl⟩

/-! ## What the file has -/

/-- Whether a build has returned and did not fail to persist the cache. -/
def Stage.isDone : Stage → Bool
  | .answered => true
  | .returned persisted => persisted
  | _ => false

theorem AllAt.settled_of_done (h : s.AllAt Stage.isDone) : s.AllAt Stage.isSettled := by
  intro w hw
  have hdone := h w hw
  cases hstage : w.stage with
  | answered => rfl
  | returned persisted => rw [hstage] at hdone; exact hdone
  | _ => rw [hstage] at hdone; cases hdone

/-- **Builds at the same time.** Whatever the file contains at the start, and whatever order the steps
of builds come in, the file has the key of every build that has returned with the cache persisted, and
once all builds have returned, and none has failed to persist, it has the entries in memory. The steps
are those of builds: one that is not interrupted does what storing a text does. -/
theorem no_entry_is_lost (directory : Path) (ns : String) (v : Volume) (entries : TextMap)
    (hholds : v.Holds (Cache.filePath directory ns) entries) (actions : List Action) :
    let s := actions.foldl step (start v directory ns)
    (∀ w ∈ s.workers, w.stage = .returned true →
        ((Cache.load s.volume directory ns).2.lookup w.key).isSome = true) ∧
      (s.AllAt Stage.isDone → (Cache.load s.volume directory ns).2.entries = s.cache.entries) ∧
      ∀ p : Pipeline, p.useCache = true → s.lock = none → ∀ moment files dot,
        ∃ more : List Action,
          (more.foldl step s).toSession = (p.store s.toSession moment files dot).1 ∧
          (more.foldl step s).workers = s.workers ++
            [⟨buildKey files, dot, .returned (p.store s.toSession moment files dot).2.2⟩] := by
  intro s
  obtain ⟨hstart, hinStart⟩ := kept_start hholds
  have hkept : Safe directory ns s ∧ InStep s := kept_run hstart hinStart actions
  have hload := Cache.load_of_holds hkept.1.holds
  refine ⟨?_, ?_, ?_⟩
  · intro w hw hstage
    obtain ⟨i, hi⟩ := List.mem_iff_getElem?.mp hw
    rw [hload]
    exact hkept.1.at hi hstage rfl
  · intro hdone
    rw [hload]
    exact hkept.2.settled hdone.settled_of_done
  · intro p hp hfree moment files dot
    exact solo_run hp hfree moment files dot

/-- The second build replaces the entry of the first while that one is reading, and the third comes
in between and cannot have the lock yet. -/
def overtaking : List Action :=
  [.come "f" "old", .come "f" "new", .come "g" "dot", .move 0 .insert, .move 0 .acquire,
    .move 0 .look, .move 0 (.see "f"), .move 1 .insert, .move 2 .insert, .move 2 .acquire,
    .move 0 (.see "h"), .move 0 (.replace { savedAt := "2024-01-01" }), .move 0 .release,
    .move 1 .acquire, .move 1 .look, .move 1 (.see "h"), .move 1 (.see "g"), .move 1 (.see "f"),
    .move 1 (.replace { savedAt := "2024-01-02" }), .move 1 .release, .move 2 .acquire,
    .move 2 .look, .move 2 (.see "f"), .move 2 (.see "g"), .move 2 (.see "h"),
    .move 2 (.replace { savedAt := "2024-01-03" }), .move 2 .release]

/-- A cache file with its fields in another order and blanks between them. -/
def relaidFile : Volume where
  root := [("cache", .directory [("graphs.cache", .file (.text
    "\x7b \"entries\": \x7b \"h\": \"kept\" \x7d, \"saved_at\": \"\", \"version\": 1 \x7d"))])]

theorem no_entry_is_lost_overtaking :
    (Cache.load (overtaking.foldl step (start relaidFile ⟨"cache"⟩ "graphs")).volume ⟨"cache"⟩
      "graphs").2.entries.toList = [("f", "new"), ("g", "dot"), ("h", "kept")] := by
  have hholds : relaidFile.Holds (Cache.filePath ⟨"cache"⟩ "graphs")
      (TextMap.ofList [("h", "kept")]) := by
    refine Or.inr ⟨["cache"], "graphs.cache", _, ?_, ⟨_, rfl⟩, ?_, rfl, by decide +kernel⟩
    · constructor <;> decide +kernel
    · constructor <;> decide +kernel
  have hrun : (overtaking.foldl step (start relaidFile ⟨"cache"⟩ "graphs")).workers.all
        (fun w => w.stage.isDone) = true ∧
      (overtaking.foldl step (start relaidFile ⟨"cache"⟩ "graphs")).cache.entries.toList =
        [("f", "new"), ("g", "dot"), ("h", "kept")] := by
    decide +kernel
  obtain ⟨hdone, hmemory⟩ := hrun
  rw [(no_entry_is_lost ⟨"cache"⟩ "graphs" relaidFile _ hholds overtaking).2.1
    (List.all_eq_true.mp hdone)]
  exact hmemory

end Shared

end CallGraph
