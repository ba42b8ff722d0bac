import CallGraph.Proofs.Storage

/-!
What the namespaces of a cache hold after any history.

Any number of handles are loaded from the namespaces of one directory, changed in memory and
persisted, in any order. A persist may fail, by the tree as it is or because the system refuses one
of its calls.

What is proved:
1. `tidy_step`: what each namespace holds is kept in step with the saves by every single action.
2. So after any actions, loading a namespace yields the entries that the last successful persist to
   it wrote, and none if there was no such persist. Insertions, clearings, failed persists and
   persists to other namespaces change nothing about it.
-/

namespace CallGraph

/-- The name of a namespace: one that makes a file in the directory itself. -/
structure Namespace where
  name : String
  noSlash : '/' ∉ name.toList
  deriving DecidableEq

namespace Namespace

def fileName (ns : Namespace) : String := ns.name ++ ".cache"

def path (ns : Namespace) (directory : Path) : Path := Cache.filePath directory ns.name

theorem fileName_noSlash (ns : Namespace) : '/' ∉ ns.fileName.toList := by
  rw [fileName, String.toList_append, List.mem_append, not_or]
  exact ⟨ns.noSlash, by decide⟩

theorem path_endsIn (ns : Namespace) (directory : Path) :
    (ns.path directory).EndsIn ns.fileName :=
  Path.child_endsIn ns.fileName_noSlash (Cache.two_lt_cacheName ns.name) directory

theorem fileName_ne {ns ns' : Namespace} (h : ns ≠ ns') : ns.fileName ≠ ns'.fileName := by
  intro heq
  have hname : ns.name = ns'.name := String.append_left_inj ".cache" |>.mp heq
  cases ns
  cases ns'
  exact h (by congr)

end Namespace

/-- A cache that was loaded from a namespace. -/
structure Handle where
  ns : Namespace
  cache : Cache

/-- A volume and the handles that are in use, with what has been saved: one item for every
successful persist, in order. -/
structure Storage where
  volume : Volume
  handles : List Handle := []
  saves : List (Namespace × TextMap) := []

namespace Storage

/-- What can be done with a storage. Handles are numbered in the order in which they were loaded. -/
inductive Action where
  | load (ns : Namespace)
  | insert (handle : Nat) (key value : String)
  | clear (handle : Nat)
  | persist (handle : Nat) (moment : Cache.Moment)

def change (s : Storage) (i : Nat) (f : Cache → Cache) : Storage :=
  { s with handles := s.handles.modify i fun h => { h with cache := f h.cache } }

def persist (s : Storage) (h : Handle) (moment : Cache.Moment) : Storage :=
  let persisted := h.cache.persist s.volume moment
  { s with
    volume := persisted.volume
    saves := match persisted.result with
      | .ok () => s.saves ++ [(h.ns, h.cache.entries)]
      | .error _ => s.saves }

def step (directory : Path) (s : Storage) : Action → Storage
  | .load ns =>
    { s with handles := s.handles ++ [⟨ns, (Cache.load s.volume directory ns.name).2⟩] }
  | .insert i key value => s.change i (·.insert key value)
  | .clear i => s.change i Cache.clear
  | .persist i moment =>
    match s.handles[i]? with
    | some h => s.persist h moment
    | none => s

/-- The entries that were saved last in a namespace. -/
def lastSaved (saves : List (Namespace × TextMap)) (ns : Namespace) : TextMap :=
  ((saves.filter (·.1 = ns)).getLast?.map Prod.snd).getD {}

theorem lastSaved_append (saves : List (Namespace × TextMap)) (ns ns' : Namespace) (m : TextMap) :
    lastSaved (saves ++ [(ns', m)]) ns = if ns' = ns then m else lastSaved saves ns := by
  unfold lastSaved
  split <;> simp_all

variable {directory : Path} {s : Storage}

/-- Each handle belongs to the file of its namespace, and the files hold what was saved last. -/
structure Tidy (directory : Path) (s : Storage) : Prop where
  paths : ∀ h ∈ s.handles, h.cache.path = some (h.ns.path directory)
  holds : ∀ ns, s.volume.Holds (ns.path directory) (lastSaved s.saves ns)

theorem Tidy.load (hs : Tidy directory s) (ns : Namespace) :
    (Cache.load s.volume directory ns.name).2 =
      ⟨lastSaved s.saves ns, some (ns.path directory)⟩ :=
  Cache.load_of_holds (hs.holds ns)

theorem tidy_change (hs : Tidy directory s) (i : Nat) {f : Cache → Cache}
    (hf : ∀ c, (f c).path = c.path) : Tidy directory (s.change i f) := by
  refine ⟨?_, hs.holds⟩
  intro h hmem
  obtain ⟨j, hj⟩ := List.mem_iff_getElem?.mp hmem
  rw [change, List.getElem?_modify] at hj
  obtain ⟨h', hj', rfl⟩ := Option.map_eq_some_iff.mp hj
  have hpath := hs.paths h' (List.mem_of_getElem? hj')
  split
  · exact (hf h'.cache).trans hpath
  · exact hpath

theorem tidy_persist (hs : Tidy directory s) {h : Handle} (hmem : h ∈ s.handles)
    (moment : Cache.Moment) : Tidy directory (s.persist h moment) := by
  refine ⟨hs.paths, ?_⟩
  intro ns
  unfold persist
  dsimp only
  cases hresult : (h.cache.persist s.volume moment).result with
  | error e => exact Cache.holds_of_persist_fails (hs.holds ns) hresult
  | ok _ =>
    obtain ⟨hown, loc, name, hname, hkeeps⟩ :=
      Cache.persist_succeeds (hs.holds h.ns) (hs.paths h hmem) hresult
    rw [lastSaved_append]
    split
    · next heq => exact heq ▸ hown
    · next hne =>
      -- The file that was touched has another name.
      refine (hs.holds ns).keeps hkeeps ?_
      intro loc' name' hname' heq
      obtain rfl := hname.unique (h.ns.path_endsIn directory)
      obtain rfl := hname'.unique (ns.path_endsIn directory)
      exact Namespace.fileName_ne hne (by simpa using (List.append_inj' heq rfl).2.symm)

theorem tidy_step (hs : Tidy directory s) (a : Action) : Tidy directory (s.step directory a) := by
  cases a with
  | load ns =>
    refine ⟨?_, hs.holds⟩
    intro h hmem
    rw [step, List.mem_append, List.mem_singleton] at hmem
    obtain hmem | rfl := hmem
    · exact hs.paths h hmem
    · rw [hs.load ns]
  | insert i key value => exact tidy_change hs i (f := (·.insert key value)) fun _ => rfl
  | clear i => exact tidy_change hs i (f := Cache.clear) fun _ => rfl
  | persist i moment =>
    rw [step]
    split
    · next h hi => exact tidy_persist hs (List.mem_of_getElem? hi) moment
    · exact hs

theorem tidy_run (hs : Tidy directory s) (actions : List Action) :
    Tidy directory (actions.foldl (step directory) s) := by
  induction actions generalizing s with
  | nil => exact hs
  | cons a as ih => exact ih (tidy_step hs a)

theorem tidy_start {v : Volume}
    (hvacant : ∀ ns : Namespace, v.Vacant (ns.path directory)) :
    Tidy directory { volume := v } :=
  ⟨by simp, fun ns => Or.inl ⟨hvacant ns, rfl⟩⟩

/-- A persist that fails, or that is one to another namespace, saves nothing in a namespace. -/
theorem lastSaved_persist (s : Storage) {h : Handle} {moment : Cache.Moment} {ns : Namespace}
    (hother : h.ns ≠ ns ∨ ∃ e, (h.cache.persist s.volume moment).result = .error e) :
    lastSaved (s.persist h moment).saves ns = lastSaved s.saves ns := by
  unfold persist
  dsimp only
  cases hresult : (h.cache.persist s.volume moment).result with
  | error e => rfl
  | ok _ =>
    obtain hne | ⟨e, he⟩ := hother
    · rw [lastSaved_append, if_neg hne]
    · rw [hresult] at he
      cases he

/-- **Durable storage.** Whatever was done, and whatever of it failed, a namespace holds the entries
that the last successful persist to it wrote, or none if there was no such persist. -/
theorem load_eq_lastSaved (directory : Path) (v : Volume)
    (hvacant : ∀ ns : Namespace, v.Vacant (ns.path directory))
    (actions : List Action) (ns : Namespace) :
    let s := actions.foldl (step directory) { volume := v }
    (Cache.load s.volume directory ns.name).2 =
        ⟨lastSaved s.saves ns, some (ns.path directory)⟩ ∧
      (∀ i key value, (s.step directory (.insert i key value)).volume = s.volume) ∧
      (∀ i, (s.step directory (.clear i)).volume = s.volume) ∧
      (∀ h ∈ s.handles, ∀ moment,
        (h.ns ≠ ns ∨ ∃ e, (h.cache.persist s.volume moment).result = .error e) →
          (Cache.load (h.cache.persist s.volume moment).volume directory ns.name).2 =
            (Cache.load s.volume directory ns.name).2) ∧
      ∀ savedAt entries, Cache.read (Cache.write savedAt entries) = .ok entries := by
  intro s
  have hs : Tidy directory s := tidy_run (tidy_start hvacant) actions
  refine ⟨hs.load ns, fun _ _ _ => rfl, fun _ => rfl, ?_, Cache.read_write⟩
  intro h hmem moment hother
  have hafter := (tidy_persist hs hmem moment).load ns
  rw [lastSaved_persist s hother] at hafter
  exact hafter.trans (hs.load ns).symm

/-- An empty directory for the cache, and nothing else. -/
def emptyCache : Volume := { root := [("cache", .directory [])] }

theorem emptyCache_vacant (ns : Namespace) :
    emptyCache.Vacant (ns.path ⟨"cache"⟩) := by
  have hentry (n : String) (rest : List String) : emptyCache.entryAt (n :: rest) =
      if n = "cache" ∧ rest = [] then some (.directory []) else none := by
    rw [Volume.entryAt, Volume.Entries.at?_cons]
    by_cases hn : "cache" = n
    · subst hn
      cases rest with
      | nil => rfl
      | cons m ms => simp [emptyCache, Volume.Entries.get?, Volume.Entries.at?_cons]
    · simp [emptyCache, Volume.Entries.get?, hn, Ne.symm hn]
  have hsegments : (ns.path ⟨"cache"⟩).segments.dropLast = ["cache"] := by
    have hchild : (ns.path ⟨"cache"⟩).segments = (Path.mk "cache").segments ++ [ns.fileName] :=
      Path.segments_child ns.fileName_noSlash (by decide)
    rw [hchild, List.dropLast_concat]
    decide
  refine Volume.vacant_of_no_links ?_ (by rw [hsegments]; decide) ?_
  · intro l target hl
    cases l with
    | nil => cases hl
    | cons n rest =>
      rw [hentry] at hl
      split at hl <;> cases hl
  · intro name e he _
    have hhome : (if (ns.path ⟨"cache"⟩).isAbsolute then [] else emptyCache.home) = [] := by
      split <;> rfl
    rw [hsegments, hhome] at he
    cases (hentry "cache" [name]).symm.trans he

/-- A persist at which the system refuses to rename the temporary file, and to remove it. -/
def refusedRename : Cache.Moment where
  savedAt := "2024-01-02"
  tag := ⟨['a', 'b', 'c', '1', '2', '3'], rfl, rfl⟩
  refusal? := fun call => if call = .rename ∨ call = .removeTemporary then some .busy else none

def graphs : Namespace := ⟨"graphs", by decide⟩

def notes : Namespace := ⟨"notes", by decide⟩

/-- One namespace is saved, changed and not saved again, as the system refuses it. The other is
saved after that. -/
def twoNamespaces : List Action :=
  [.load graphs, .insert 0 "fn f() \x7b\x7d" "digraph \"f\"",
    .persist 0 { savedAt := "2024-01-01" }, .insert 0 "fn g() \x7b\x7d" "digraph \"g\"",
    .persist 0 refusedRename, .load notes, .insert 1 "é\n" "\\",
    .persist 1 { savedAt := "2024-01-03" }, .clear 0]

theorem load_eq_lastSaved_twoNamespaces :
    (Cache.load (twoNamespaces.foldl (step ⟨"cache"⟩) { volume := emptyCache }).volume ⟨"cache"⟩
        graphs.name).2.entries.toList = [("fn f() \x7b\x7d", "digraph \"f\"")] ∧
      (Cache.load (twoNamespaces.foldl (step ⟨"cache"⟩) { volume := emptyCache }).volume ⟨"cache"⟩
        notes.name).2.entries.toList = [("é\n", "\\")] := by
  have hload (ns : Namespace) :=
    (load_eq_lastSaved ⟨"cache"⟩ emptyCache emptyCache_vacant twoNamespaces ns).1
  refine ⟨?_, ?_⟩
  · rw [hload graphs]
    decide +kernel
  · rw [hload notes]
    decide +kernel

end Storage

end CallGraph
