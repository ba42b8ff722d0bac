import CallGraph.Proofs.Extraction
import CallGraph.Proofs.Folding

/-!
The raw graph of some sources is a forest with one tree for each file.

The graph charts the addresses of the sources (`Charts`), and addresses say all that is needed: what
owns an entry stands before it and in the same file, and the addresses of a file stand together. So
the ids of a file form an interval, which starts with the node of the file (`mem_interval`)
and holds exactly the nodes that can be reached from there (`Charts.reaches_iff`).
-/

namespace CallGraph.Source

variable {files : List SourceFile} {roots : List Tree} {g : Graph} {A : List Address}
  {a b o : Address} {t : Tree} {i j k u v : Nat}

/-! ## Addresses of one file stand together -/

theorem Address.Precedes.index_le (h : a.Precedes b) : a.index ≤ b.index := by
  cases h with
  | nil => exact Nat.zero_le _
  | rel h => exact Nat.le_of_lt h
  | cons h => exact Nat.le_refl _

/-- In an ascending list, the values below a bound come first. -/
theorem countP_lt_le_iff {α : Type} {f : α → Nat} {l : List α} {x : α}
    (h : l.Pairwise (fun x y => f x ≤ f y)) (hi : l[i]? = some x) :
    l.countP (fun y => decide (f y < k)) ≤ i ↔ k ≤ f x := by
  induction l generalizing i with
  | nil => simp at hi
  | cons y l ih =>
    rw [List.pairwise_cons] at h
    rw [List.countP_cons]
    by_cases hy : f y < k
    · simp only [hy, decide_true, if_true]
      cases i with
      | zero =>
        obtain rfl : y = x := by simpa using hi
        omega
      | succ i =>
        rw [← ih h.2 (by simpa using hi)]
        omega
    · -- then no value is below the bound
      have hall : ∀ z ∈ y :: l, k ≤ f z := by
        rw [List.forall_mem_cons]
        refine ⟨by omega, fun z hz => ?_⟩
        have := h.1 z hz
        omega
      have hzero : l.countP (fun y => decide (f y < k)) = 0 := by
        rw [List.countP_eq_zero]
        intro z hz
        have := hall z (List.mem_cons_of_mem _ hz)
        simpa using this
      have hx := hall x (List.mem_of_getElem? hi)
      simp [hy, hzero, hx]

/-- How many addresses come before those of a file. -/
def start (A : List Address) (k : Nat) : Nat := A.countP (fun a => decide (a.index < k))

theorem start_le_iff (hA : A.Pairwise Address.Precedes) (hi : A[i]? = some a) :
    start A k ≤ i ↔ k ≤ a.index :=
  countP_lt_le_iff (hA.imp Address.Precedes.index_le) hi

/-- The addresses of a file are those from its start to the next. -/
theorem mem_interval (hA : A.Pairwise Address.Precedes) (hi : A[i]? = some a) :
    start A k ≤ i ∧ i < start A (k + 1) ↔ a.index = k := by
  rw [start_le_iff hA hi, ← Nat.not_le, start_le_iff hA hi]
  omega

theorem index_lt (hA : A.Pairwise Address.Precedes) (hu : A[u]? = some a) (hv : A[v]? = some b)
    (h : a.Precedes b) : u < v := by
  obtain ⟨hu', rfl⟩ := List.getElem?_eq_some_iff.mp hu
  obtain ⟨hv', rfl⟩ := List.getElem?_eq_some_iff.mp hv
  rcases Nat.lt_trichotomy u v with huv | rfl | huv
  · exact huv
  · exact absurd h (Address.precedes_irrefl _)
  · exact absurd (h.trans (List.pairwise_iff_getElem.mp hA v u hv' hu' huv))
      (Address.precedes_irrefl _)

theorem getElem?_start (hA : A.Pairwise Address.Precedes) (hne : [] ∉ A) (hk : [k] ∈ A) :
    A[start A k]? = some [k] := by
  obtain ⟨j, hj⟩ := List.getElem?_of_mem hk
  have hle : start A k ≤ j := (start_le_iff hA hj).mpr (Nat.le_refl k)
  have hlt : start A k < A.length := by
    have := (List.getElem?_eq_some_iff.mp hj).1
    omega
  obtain ⟨b, hb⟩ : ∃ b, A[start A k]? = some b := ⟨_, List.getElem?_eq_getElem hlt⟩
  have hge : k ≤ b.index := (start_le_iff hA hb).mp (Nat.le_refl _)
  rcases Nat.lt_or_eq_of_le hle with hlt | heq
  · -- an address before the file would be in an earlier file
    obtain ⟨hj', hjk⟩ := List.getElem?_eq_some_iff.mp hj
    obtain ⟨hb', rfl⟩ := List.getElem?_eq_some_iff.mp hb
    have hprec := List.pairwise_iff_getElem.mp hA _ _ hb' hj' hlt
    have hmem := List.getElem_mem hb'
    rw [hjk] at hprec
    generalize A[start A k] = b at hprec hge hmem
    cases hprec with
    | nil => exact absurd hmem hne
    | rel h => exact absurd hge (Nat.not_le.mpr h)
    | cons h => cases h
  · rw [heq]; exact hj

/-! ## The addresses of all files -/

theorem ne_nil_of_recorded (h : Recorded roots a) : a ≠ [] := by
  obtain ⟨t, ht, -⟩ := h
  exact ht.ne_nil

theorem index_lt_of_recorded (h : Recorded roots a) : a.index < roots.length := by
  obtain ⟨t, ⟨k, r, s, hr, rfl, -⟩, -⟩ := h
  exact (List.getElem?_eq_some_iff.mp hr).1

theorem recorded_file (hk : k < roots.length) : Recorded roots [k] :=
  ⟨_, visited_file (List.getElem?_eq_getElem hk), Or.inl rfl⟩

theorem countP_addresses (k : Nat) (rs : List Tree) :
    (addresses k rs).countP (fun a => a.length == 1) = rs.length := by
  induction rs generalizing k with
  | nil => rfl
  | cons r rs ih =>
    have hbelow : (r.asFile.entries [k]).countP (fun a => a.length == 1) = 0 := by
      rw [List.countP_eq_zero]
      intro b hb
      obtain ⟨s, d, rfl, hs, he⟩ := Tree.mem_entries.mp hb
      -- the root of a file is no entry
      have hne : s ≠ [] := by
        rintro rfl
        rw [← (Tree.Reaches.here r.asFile).unique hs] at he
        cases he
      simpa using hne
    rw [addresses, List.countP_append, List.countP_cons, hbelow, ih, List.length_cons]
    simp [Nat.add_comm]

namespace Charts

theorem nodeCount_eq (h : Charts files roots g A) : g.nodeCount = A.length :=
  h.nodes.length_eq.symm

theorem edge_spec (h : Charts files roots g A) (he : ⟨u, v⟩ ∈ g.edges) :
    u < v ∧ ∃ o a, A[u]? = some o ∧ A[v]? = some a ∧ a.index = o.index ∧ a.length ≠ 1 := by
  obtain ⟨o, a, hu, hv, ho⟩ := (h.edges u v).mp he
  obtain ⟨d, hd, -⟩ := ho.scope
  obtain ⟨x, rfl⟩ := id ho.around
  exact ⟨index_lt h.ascending hu hv ho.precedes, o, o ++ x, hu, hv,
    Address.index_append hd.ne_nil x, ho.length_ne_one⟩

theorem position_file {n : Node} (h : StandsFor files roots a n) :
    n.position.map Position.file = some a.index.toUInt32 := by
  cases h with
  | file hf hn => rw [hn]; rfl
  | @entry _ o t d n ht he ho hd hn =>
    have hpos : n.position = some ((placeOf roots a).position a.index.toUInt32) := by
      rw [hn]
      unfold Tree.entryNode
      split <;> rfl
    rw [hpos]; rfl

/-- The nodes that can be reached from a file are those of the interval of its file. -/
theorem reaches_iff (h : Charts files roots g A) (hk : A[start A k]? = some [k]) :
    Relation.ReflTransGen g.Calls (start A k) i ↔ start A k ≤ i ∧ i < start A (k + 1) := by
  constructor
  · intro hp
    have hend : ∃ a, A[i]? = some a ∧ a.index = k := by
      induction hp with
      | refl => exact ⟨[k], hk, rfl⟩
      | tail _ he ih =>
        obtain ⟨o, ho, hok⟩ := ih
        obtain ⟨-, o', a, hu, hv, hao, -⟩ := h.edge_spec he
        obtain rfl : o = o' := Option.some.inj (ho.symm.trans hu)
        exact ⟨a, hv, hao.trans hok⟩
    obtain ⟨a, ha, hak⟩ := hend
    exact (mem_interval h.ascending ha).mpr hak
  · intro hi
    induction i using Nat.strong_induction_on with
    | _ i ih =>
      have hlt : i < A.length := by
        have : start A (k + 1) ≤ A.length := List.countP_le_length
        omega
      obtain ⟨a, ha⟩ : ∃ a, A[i]? = some a := ⟨_, List.getElem?_eq_getElem hlt⟩
      have hak := (mem_interval h.ascending ha).mp hi
      by_cases hone : a.length = 1
      · obtain ⟨x, rfl⟩ := List.length_eq_one_iff.mp hone
        obtain rfl : x = k := hak
        rw [h.index_unique ha hk]
      · obtain ⟨u, he, -⟩ := h.existsUnique_source ha hone
        obtain ⟨hlt, o, a', hu, hv, hao, -⟩ := h.edge_spec he
        obtain rfl : a = a' := Option.some.inj (ha.symm.trans hv)
        have hin := (mem_interval h.ascending hu).mpr (hao.symm.trans hak)
        exact (ih u hlt hin).tail he

end Charts

/-! ## The forest -/

/-- The graph is a forest with one tree for each file: the numbers of the nodes of a file run from
where it starts to where the next one starts. -/
structure Forest (files : List SourceFile) (g : Graph) (start : Nat → Nat) : Prop where
  ids : g.ids = List.range g.nodeCount
  first : start 0 = 0
  last : start files.length = g.nodeCount
  ascend : ∀ k < files.length, start k < start (k + 1)
  file : ∀ k f, files[k]? = some f →
    g.node? (start k) = some { fileNode k.toUInt32 f.path with id := start k }
  kind : ∀ n ∈ g.nodes, n.kind = .file ↔ ∃ k < files.length, n.id = start k
  root : ∀ k < files.length, ∀ u, ⟨u, start k⟩ ∉ g.edges
  owner : ∀ n ∈ g.nodes, n.kind ≠ .file → ∃ m ∈ g.nodes, (∀ u, ⟨u, n.id⟩ ∈ g.edges ↔ u = m.id) ∧
    m.id < n.id ∧ m.isCallSite = false ∧
    m.position.map Position.file = n.position.map Position.file
  leaves : g.SitesAreLeaves
  interval : ∀ k < files.length, ∀ n ∈ g.nodes, start k ≤ n.id → n.id < start (k + 1) →
    n.position.map Position.file = some k.toUInt32
  tree : ∀ k < files.length, ∀ i,
    Relation.ReflTransGen g.Calls (start k) i ↔ start k ≤ i ∧ i < start (k + 1)
  edgeCount : g.edgeCount + files.length = g.nodeCount

namespace Charts

theorem owner_spec (h : Charts files roots g A) {n : Node} (ha : A[n.id]? = some a)
    (hn : StandsFor files roots a n) (hone : a.length ≠ 1) :
    ∃ m ∈ g.nodes, (∀ u, ⟨u, n.id⟩ ∈ g.edges ↔ u = m.id) ∧ m.id < n.id ∧ m.isCallSite = false ∧
      m.position.map Position.file = n.position.map Position.file := by
  obtain ⟨u, he, huniq⟩ := h.existsUnique_source ha hone
  obtain ⟨hlt, o, a', hu, hv, hao, -⟩ := h.edge_spec he
  obtain rfl : a = a' := Option.some.inj (ha.symm.trans hv)
  obtain ⟨m, hm, hmo⟩ := h.node_of_getElem? hu
  obtain ⟨hmem, rfl⟩ := Graph.node?_eq_some_iff.mp hm
  refine ⟨m, hmem, ?_, hlt, h.source_not_isCallSite he hm, ?_⟩
  · intro w
    constructor
    · exact huniq w
    · rintro rfl
      exact he
  · rw [position_file hmo, position_file hn, hao]

/-! For a chart of everything that the sources have. -/

variable (hA : ∀ a, a ∈ A ↔ Recorded roots a)

include hA

theorem file_getElem? (h : Charts files roots g A) (hk : k < roots.length) :
    A[start A k]? = some [k] := by
  have hnil : [] ∉ A := fun hmem => ne_nil_of_recorded ((hA _).mp hmem) rfl
  exact getElem?_start h.ascending hnil ((hA _).mpr (recorded_file hk))

theorem file_node? (h : Charts files roots g A) {f : SourceFile} (hf : files[k]? = some f)
    (hk : k < roots.length) :
    g.node? (start A k) = some { fileNode k.toUInt32 f.path with id := start A k } := by
  obtain ⟨n, hn, hs⟩ := h.node_of_getElem? (h.file_getElem? hA hk)
  obtain ⟨-, hid⟩ := Graph.node?_eq_some_iff.mp hn
  rw [hn]
  cases hs with
  | file hf' hn' =>
    obtain rfl := Option.some.inj (hf.symm.trans hf')
    rw [hn', hid]
  | entry ht he ho hd hn' => exact absurd rfl ho.length_ne_one

theorem address_of_mem (h : Charts files roots g A) {n : Node} (hn : n ∈ g.nodes) :
    ∃ a, A[n.id]? = some a ∧ StandsFor files roots a n ∧ (n.kind = .file ↔ a.length = 1) := by
  obtain ⟨a, ha, hs⟩ := h.address_of_node? (Graph.node?_eq_some_iff.mpr ⟨hn, rfl⟩)
  obtain ⟨t, ht, -⟩ := (hA a).mp (List.mem_of_getElem? ha)
  exact ⟨a, ha, hs, (hs.kind ht).2.1⟩

theorem kind_eq_file_iff (h : Charts files roots g A) {n : Node} (hn : n ∈ g.nodes) :
    n.kind = .file ↔ ∃ k < roots.length, n.id = start A k := by
  obtain ⟨a, ha, -, hkind⟩ := h.address_of_mem hA hn
  rw [hkind]
  constructor
  · intro hone
    obtain ⟨k, rfl⟩ := List.length_eq_one_iff.mp hone
    have hk : k < roots.length := index_lt_of_recorded ((hA _).mp (List.mem_of_getElem? ha))
    exact ⟨k, hk, h.index_unique ha (h.file_getElem? hA hk)⟩
  · rintro ⟨k, hk, hid⟩
    rw [hid, h.file_getElem? hA hk] at ha
    rw [← Option.some.inj ha]; rfl

theorem forest (h : Charts files roots g A) (hlen : roots.length = files.length)
    (hcount : A.countP (fun a => a.length == 1) = files.length) : Forest files g (start A) := by
  have hfile : ∀ k < files.length, A[start A k]? = some [k] := by
    intro k hk
    exact h.file_getElem? hA (by omega)
  exact
    { ids := by rw [h.ids, h.nodeCount_eq]
      first := by simp [start]
      last := by
        rw [h.nodeCount_eq, start, List.countP_eq_length]
        intro a ha
        simpa [hlen] using index_lt_of_recorded ((hA a).mp ha)
      ascend := by
        intro k hk
        exact ((mem_interval h.ascending (hfile k hk)).mpr rfl).2
      file := by
        intro k f hf
        have hk := (List.getElem?_eq_some_iff.mp hf).1
        exact h.file_node? hA hf (by omega)
      kind := by
        intro n hn
        rw [h.kind_eq_file_iff hA hn, hlen]
      root := by
        intro k hk u he
        obtain ⟨-, o, a, -, hv, -, hone⟩ := h.edge_spec he
        rw [hfile k hk] at hv
        rw [← Option.some.inj hv] at hone
        exact hone rfl
      owner := by
        intro n hn hne
        obtain ⟨a, ha, hs, hkind⟩ := h.address_of_mem hA hn
        exact h.owner_spec ha hs (mt hkind.mpr hne)
      leaves := by
        intro e he hsite
        obtain ⟨n, hn, hc, hid⟩ := Graph.mem_callSites.mp hsite
        have hnode := Graph.node?_eq_some_iff.mpr ⟨hn, hid⟩
        have hnot := h.source_not_isCallSite (u := e.source) (v := e.target) he hnode
        rw [hc] at hnot
        cases hnot
      interval := by
        intro k hk n hn hge hlt
        obtain ⟨a, ha, hs, -⟩ := h.address_of_mem hA hn
        rw [position_file hs, (mem_interval h.ascending ha).mp ⟨hge, hlt⟩]
      tree := fun k hk i => h.reaches_iff (hfile k hk)
      edgeCount := by rw [h.nodeCount_eq, ← h.count, hcount] }

end Charts

theorem forest_of_extractFrom {parse : String → Tree} {strict : Bool}
    (h : (extractFrom parse strict Graph.empty 0 files).2 = .ok g) :
    ∃ start, Forest files g start := by
  have hc := charts_of_extractFrom h
  have hlen : (trees parse files).length = files.length := List.length_map _
  refine ⟨_, hc.forest (fun a => mem_addresses_iff_recorded) hlen ?_⟩
  rw [countP_addresses, hlen]

theorem forest_of_extractWith {parse : String → Tree} {strict : Bool}
    (h : (extractWith parse strict files).result = .ok g) : ∃ start, Forest files g start := by
  rw [extractWith_result] at h
  exact forest_of_extractFrom h

theorem Forest.start_lt {start : Nat → Nat} (h : Forest files g start) (hjk : j < k)
    (hk : k ≤ files.length) : start j < start k := by
  induction k with
  | zero => cases hjk
  | succ k ih =>
    have hstep := h.ascend k hk
    rcases Nat.lt_or_eq_of_le (Nat.le_of_lt_succ hjk) with hlt | rfl
    · have := ih hlt (by omega)
      omega
    · exact hstep

theorem Forest.files_eq {start : Nat → Nat} (h : Forest files g start) :
    g.nodes.filter (fun n => n.kind == .file) =
      files.mapIdx (fun k f => { fileNode k.toUInt32 f.path with id := start k }) := by
  have hleft : (g.nodes.filter (fun n => n.kind == .file)).Pairwise (fun m n => m.id < n.id) :=
    (List.pairwise_map.mp g.ids_ascend).sublist List.filter_sublist
  have hright : (files.mapIdx (fun k f =>
      { fileNode k.toUInt32 f.path with id := start k })).Pairwise (fun m n => m.id < n.id) := by
    rw [List.pairwise_iff_getElem]
    intro i j hi hj hij
    rw [List.length_mapIdx] at hj
    simpa using h.start_lt hij (Nat.le_of_lt hj)
  -- both lists ascend by id, so their members fix them
  have hnodup : ∀ l : List Node, l.Pairwise (fun m n => m.id < n.id) → l.Nodup := by
    intro l hl
    refine hl.imp ?_
    rintro m _ hm rfl
    exact Nat.lt_irrefl _ hm
  refine List.Perm.eq_of_pairwise ?_ hleft hright
    ((List.perm_ext_iff_of_nodup (hnodup _ hleft) (hnodup _ hright)).mpr ?_)
  · intro m n _ _ hmn hnm
    omega
  · intro n
    rw [List.mem_filter, beq_iff_eq, List.mem_mapIdx]
    constructor
    · rintro ⟨hn, hkind⟩
      obtain ⟨k, hk, hid⟩ := (h.kind n hn).mp hkind
      have hfile := h.file k _ (List.getElem?_eq_getElem hk)
      rw [← hid, Graph.node?_eq_some_iff.mpr ⟨hn, rfl⟩] at hfile
      refine ⟨k, hk, ?_⟩
      rw [← hid]
      exact (Option.some.inj hfile).symm
    · rintro ⟨k, hk, rfl⟩
      have hfile := h.file k _ (List.getElem?_eq_getElem hk)
      exact ⟨(Graph.node?_eq_some_iff.mp hfile).1, rfl⟩

/-- The raw graph of sources that can be extracted is a forest, whatever trees a parser makes of their
texts. The nodes of files are its roots, one for each file and in order. Into every other node goes one
edge, from a node of the same file with a smaller id that is not a call site; out of a call site goes
none. The ids of a file are an interval, the nodes reached from its root, and there are as many edges
as nodes that are not those of files. -/
theorem extract_is_forest (parse : String → Tree) (strict : Bool) (files : List SourceFile)
    (g : Graph) (h : (extractWith parse strict files).result = .ok g) :
    ∃ start, Forest files g start ∧
      g.nodes.filter (fun n => n.kind == .file) =
        files.mapIdx (fun k f => { fileNode k.toUInt32 f.path with id := start k }) ∧
      g.edgeCount = g.nodeCount - files.length := by
  obtain ⟨start, hf⟩ := forest_of_extractWith h
  refine ⟨start, hf, hf.files_eq, ?_⟩
  have := hf.edgeCount
  omega

theorem extract_is_forest_nestedCalls :
    ∃ g start, (extract true nestedCalls).result = .ok g ∧ Forest nestedCalls g start ∧
      start 1 = 5 ∧ start 2 = 7 := by
  have hrun : (extract true nestedCalls).result.toOption.map
      (fun g => ((g.nodes.filter (fun n => n.kind == .file)).map Node.id, g.nodeCount)) =
        some ([0, 5], 7) := by
    decide +kernel
  cases hr : (extract true nestedCalls).result with
  | error e => simp [hr, Except.toOption] at hrun
  | ok g =>
    simp only [hr, Except.toOption, Option.map_some, Option.some.injEq, Prod.mk.injEq] at hrun
    obtain ⟨start, hf, hfiles, -⟩ := extract_is_forest parse true nestedCalls g hr
    rw [hfiles] at hrun
    have hids : [start 0, start 1] = [0, 5] := hrun.1
    exact ⟨g, start, rfl, hf, by simp_all, hf.last.trans hrun.2⟩

end CallGraph.Source
