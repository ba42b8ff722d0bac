import CallGraph.Proofs.Forest

/-!
The raw graph of sources that stand one after the other.

All files of an extraction grow one graph, and the ids and the number of the file in it are absolute.
So the same file leaves other nodes if other files stand before it. They are the same nodes up to
their place: ids go up by the number of nodes that were there before, and the file of a position by
the number of files.

`Concat` says that a graph is another one followed by a third at such a distance. It holds at the
start, every way of growing a graph keeps it (`Concat.addNode`, `Concat.connect`), and so does planting
an outline, by induction over the trees that a tree is entered through (`relocates`), and adding
files (`Concat.addFiles`). Errors depend on the files alone, and the first file that has one decides.
-/

namespace CallGraph

/-- The position as it is with some files more before its file. -/
def Position.shift (files : Nat) (p : Position) : Position :=
  { p with file := p.file + files.toUInt32 }

/-- The node as it is with some nodes and files more before it. -/
def Node.shift (ids files : Nat) (n : Node) : Node :=
  { n with id := n.id + ids, position := n.position.map (Position.shift files) }

/-- The edge as it is with some nodes more before its ends. -/
def Edge.shift (ids : Nat) (e : Edge) : Edge := ⟨e.source + ids, e.target + ids⟩

namespace Graph

/-- The graph `r` is `g` and then `h`, with `files` files before those of `h`. -/
structure Concat (files : Nat) (g h r : Graph) : Prop where
  nodes : r.nodes = g.nodes ++ h.nodes.map (Node.shift g.next files)
  edges : ∀ e, e ∈ r.edges ↔ e ∈ g.edges ∨ ∃ d ∈ h.edges, d.shift g.next = e
  next : r.next = h.next + g.next

variable {files : Nat} {g h r : Graph} {u v : Nat}

theorem connect_of_notMem (hn : ¬ (u ∈ g.ids ∧ v ∈ g.ids)) : g.connect u v = g := by
  unfold connect addEdge
  by_cases hu : u ∈ g.ids
  · have hv : v ∉ g.ids := fun hv => hn ⟨hu, hv⟩
    simp [hu, hv]
  · simp [hu]

namespace Concat

theorem start (files : Nat) (g : Graph) : Concat files g empty g where
  nodes := by simp [empty]
  edges := by
    intro e
    constructor
    · intro he
      exact Or.inl he
    · rintro (he | ⟨d, hd, -⟩)
      · exact he
      · cases hd
  next := by simp [empty]

theorem mem_ids (hc : Concat files g h r) : u + g.next ∈ r.ids ↔ u ∈ h.ids := by
  have hids : r.ids = g.ids ++ h.ids.map (· + g.next) := by
    simp [ids, hc.nodes, Node.shift, Function.comp_def]
  rw [hids, List.mem_append, List.mem_map]
  constructor
  · rintro (hg | ⟨i, hi, heq⟩)
    · -- the ids of the first graph are below the distance
      have := g.ids_issued _ hg
      omega
    · obtain rfl : i = u := by omega
      exact hi
  · intro hu
    exact Or.inr ⟨u, hu, rfl⟩

theorem addNode (hc : Concat files g h r) (n : Node) :
    Concat files g (h.addNode n) (r.addNode (n.shift 0 files)) where
  nodes := by simp [Graph.addNode, hc.nodes, hc.next, Node.shift]
  edges := hc.edges
  next := by
    show r.next + 1 = h.next + 1 + g.next
    rw [hc.next]
    omega

theorem link (hc : Concat files g h r) {hu : u ∈ h.ids} {hv : v ∈ h.ids}
    {hu' : u + g.next ∈ r.ids} {hv' : v + g.next ∈ r.ids} :
    Concat files g (h.link ⟨u, v⟩ hu hv) (r.link ⟨u + g.next, v + g.next⟩ hu' hv') where
  nodes := hc.nodes
  edges := by
    intro e
    rw [mem_edges_link, hc.edges]
    simp only [mem_edges_link]
    constructor
    · rintro (rfl | hg | ⟨d, hd, rfl⟩)
      · exact Or.inr ⟨⟨u, v⟩, Or.inl rfl, rfl⟩
      · exact Or.inl hg
      · exact Or.inr ⟨d, Or.inr hd, rfl⟩
    · rintro (hg | ⟨d, rfl | hd, rfl⟩)
      · exact Or.inr (Or.inl hg)
      · exact Or.inl rfl
      · exact Or.inr (Or.inr ⟨d, hd, rfl⟩)
  next := hc.next

theorem connect (hc : Concat files g h r) (u v : Nat) :
    Concat files g (h.connect u v) (r.connect (u + g.next) (v + g.next)) := by
  by_cases hm : u ∈ h.ids ∧ v ∈ h.ids
  · rw [connect_of_mem hm.1 hm.2, connect_of_mem (hc.mem_ids.mpr hm.1) (hc.mem_ids.mpr hm.2)]
    exact hc.link
  · have hm' : ¬ (u + g.next ∈ r.ids ∧ v + g.next ∈ r.ids) := by
      rwa [hc.mem_ids, hc.mem_ids]
    rw [connect_of_notMem hm, connect_of_notMem hm']
    exact hc

end Concat

end Graph

namespace Source

/-! ## One tree -/

theorem Place.position_shift (p : Place) (file : UInt32) (files : Nat) :
    (p.position file).shift files = p.position (file + files.toUInt32) := rfl

/-- Where an entry stands is all that its node takes from its file. -/
theorem Tree.entryNode_shift (inType : Bool) (t : Tree) (p : Position) (files : Nat) :
    (t.entryNode inType p).shift 0 files = t.entryNode inType (p.shift files) := by
  unfold Tree.entryNode
  split <;> rfl

/-- Planting the outline of a tree in a file comes to the same in a later file. -/
def Relocates (files : Nat) (t : Tree) : Prop :=
  ∀ {g h r : Graph} (file : UInt32) (inType : Bool) (p : Place) (u : Nat),
    Graph.Concat files g h r →
    Graph.Concat files g (Outline.plantAll h u (t.outline file inType p))
      (Outline.plantAll r (u + g.next) (t.outline (file + files.toUInt32) inType p))

end Source

namespace Graph.Concat

open Source

variable {files : Nat} {g h r : Graph}

theorem addEntry (hc : Concat files g h r) (n : Node) (u : Nat) :
    Concat files g ((h.addNode n).connect u h.next)
      ((r.addNode (n.shift 0 files)).connect (u + g.next) r.next) := by
  rw [hc.next]
  exact (hc.addNode n).connect u h.next

theorem plantEntered (hc : Concat files g h r) (t : Tree) {l : List (Address × Tree)}
    (hl : ∀ c ∈ l, Relocates files c.2) (file : UInt32) (inType : Bool) (p : Place) (u : Nat) :
    Concat files g
      (Outline.plantAll h u (l.flatMap fun c => c.2.outline file inType (p.after (t.before c.1))))
      (Outline.plantAll r (u + g.next) (l.flatMap fun c =>
        c.2.outline (file + files.toUInt32) inType (p.after (t.before c.1)))) := by
  induction l generalizing h r with
  | nil => simpa [Outline.plantAll] using hc
  | cons c l ih =>
    rw [List.forall_mem_cons] at hl
    rw [List.flatMap_cons, List.flatMap_cons, plantAll_append, plantAll_append]
    exact ih (hl.1 file inType _ u hc) hl.2

theorem plantWithin (hc : Concat files g h r) {t : Tree}
    (ht : ∀ s c, t.Enters s c → Relocates files c) (file : UInt32) (inType : Bool) (p : Place)
    (u : Nat) :
    Concat files g (Outline.plantAll h u (t.within file inType p))
      (Outline.plantAll r (u + g.next) (t.within (file + files.toUInt32) inType p)) :=
  hc.plantEntered t (fun c hm => ht c.1 c.2 (Tree.mem_entered.mp hm)) file inType p u

end Graph.Concat

/-- The induction is over the trees that a tree is entered through. A container or function is the
owner of what is below it, under the id that it has just got. -/
theorem Source.relocates (files : Nat) (t : Tree) : Relocates files t := by
  induction t using Tree.entered_induction with
  | h t ih =>
    intro g h r file inType p u hc
    have hentry := hc.addEntry (t.entryNode inType (p.position file)) u
    rw [Tree.entryNode_shift, Place.position_shift] at hentry
    by_cases hscope : t.isScope = true
    · -- the id that it has got is the next one, in both graphs
      have hbelow := hentry.plantWithin ih file t.isType p h.next
      rw [← hc.next] at hbelow
      rw [Tree.outline_scope _ _ _ hscope, Tree.outline_scope _ _ _ hscope]
      simpa [Outline.plantAll, Outline.plant] using hbelow
    by_cases hcall : t.isCall = true
    · have hbeside := hentry.plantWithin ih file inType p u
      rw [Tree.outline_call _ _ _ hcall, Tree.outline_call _ _ _ hcall]
      simpa [Outline.plantAll, Outline.plant] using hbeside
    · have hplain : t.isEntry = false := by simp [Tree.isEntry, hscope, hcall]
      rw [Tree.outline_plain _ _ _ hplain, Tree.outline_plain _ _ _ hplain]
      exact hc.plantWithin ih file inType p u

/-! ## File after file -/

namespace Graph.Concat

open Source

variable {files : Nat} {g h r : Graph}

theorem addFile (hc : Concat files g h r) (index : UInt32) (path : Path) (tree : Tree) :
    Concat files g (Source.addFile h index path tree)
      (Source.addFile r (index + files.toUInt32) path tree) := by
  have hroot := hc.addNode (fileNode index path)
  have hbelow := hroot.plantWithin (t := tree.asFile) (fun _ c _ => relocates files c) index false
    Place.start h.next
  rw [← hc.next, ← Tree.outlines_eq_within _ _ _ rfl, ← Tree.outlines_eq_within _ _ _ rfl] at hbelow
  exact hbelow

theorem addFiles (hc : Concat files g h r) (parse : String → Tree) (index : Nat)
    (fs : List SourceFile) :
    Concat files g (Source.addFiles parse h index fs)
      (Source.addFiles parse r (index + files) fs) := by
  induction fs generalizing h r index with
  | nil => exact hc
  | cons f fs ih =>
    have hindex : (index + files).toUInt32 = index.toUInt32 + files.toUInt32 :=
      UInt32.ofNat_add index files
    have hnext : index + files + 1 = index + 1 + files := by omega
    rw [Source.addFiles, Source.addFiles, hindex, hnext]
    exact ih (hc.addFile _ _ _) (index + 1)

end Graph.Concat

namespace Source

/-- The raw graph of some sources, whatever parses them. -/
def rawGraph (parse : String → Tree) (strict : Bool) (files : List SourceFile) :
    Except Error Graph :=
  (extractFrom parse strict Graph.empty 0 files).2

theorem extract_eq_rawGraph (strict : Bool) (files : List SourceFile) :
    (extract strict files).result = rawGraph parse strict files :=
  extractWith_result parse strict files

variable {parse : String → Tree} {strict : Bool} {g h : Graph} {A B files : List SourceFile}

/-- Which error an extraction ends with does not depend on where the files stand. -/
theorem extractFrom_error_iff {e : Error} {i j : Nat} :
    (extractFrom parse strict g i files).2 = .error e ↔
      (extractFrom parse strict h j files).2 = .error e := by
  induction files generalizing g h i j with
  | nil => simp [extractFrom]
  | cons f fs ih =>
    rw [extractFrom, extractFrom]
    split
    · rfl
    · dsimp only
      split
      · split
        · rfl
        · exact ih
      · exact ih

/-- An extraction of some files goes on with those after them, unless it has failed. -/
theorem extractFrom_append (g : Graph) (i : Nat) (A B : List SourceFile) :
    (extractFrom parse strict g i (A ++ B)).2 =
      (extractFrom parse strict g i A).2.bind fun h =>
        (extractFrom parse strict h (i + A.length) B).2 := by
  induction A generalizing g i with
  | nil => rfl
  | cons f A ih =>
    have hlen : i + (f :: A).length = i + 1 + A.length := by
      rw [List.length_cons]
      omega
    rw [List.cons_append, extractFrom, extractFrom, hlen]
    split
    · rfl
    · dsimp only
      split
      · split
        · rfl
        · exact ih _ _
      · exact ih _ _

theorem rawGraph_append_eq (hg : rawGraph parse strict A = .ok g) :
    rawGraph parse strict (A ++ B) = (extractFrom parse strict g A.length B).2 := by
  rw [rawGraph] at hg
  rw [rawGraph, extractFrom_append, hg, Nat.zero_add]
  rfl

/-! ## The graph of all files -/

/-- The files after others are extracted as on their own, at the distance of those before. -/
theorem concat_of_rawGraph {g₂ : Graph} (hA : rawGraph parse strict A = .ok g)
    (hB : rawGraph parse strict B = .ok g₂) :
    ∃ r, rawGraph parse strict (A ++ B) = .ok r ∧ Graph.Concat A.length g g₂ r := by
  obtain ⟨haccepts, rfl⟩ := (extractFrom_eq_ok_iff ..).mp hB
  have hconcat := (Graph.Concat.start A.length g).addFiles parse 0 B
  rw [Nat.zero_add] at hconcat
  refine ⟨_, ?_, hconcat⟩
  rw [rawGraph_append_eq hA]
  exact (extractFrom_eq_ok_iff ..).mpr ⟨haccepts, rfl⟩

theorem next_of_rawGraph (h : rawGraph parse strict files = .ok g) : g.next = g.nodeCount := by
  have hcharts := charts_of_extractFrom h
  rw [hcharts.next, hcharts.nodeCount_eq]

/-- The file of the position of a node is one of the given files. -/
theorem file_of_rawGraph (h : rawGraph parse strict files = .ok g) {n : Node} (hn : n ∈ g.nodes) :
    ∃ k < files.length, n.position.map Position.file = some k.toUInt32 := by
  obtain ⟨a, ha, hs, -⟩ :=
    (charts_of_extractFrom h).address_of_mem (fun a => mem_addresses_iff_recorded) hn
  have hrecorded := mem_addresses_iff_recorded.mp (List.mem_of_getElem? ha)
  have hlt := index_lt_of_recorded hrecorded
  rw [trees, List.length_map] at hlt
  exact ⟨a.index, hlt, Charts.position_file hs⟩

/-- The number of a file does not overflow as long as the number of all files does not. -/
theorem toNat_shift {k : Nat} {p : Position} (hp : p.file = k.toUInt32) (m : Nat)
    (hk : m + k < Nat.pow 2 32) : (p.shift m).file.toNat = p.file.toNat + m := by
  have hpow : Nat.pow 2 32 = 4294967296 := rfl
  have hsum : (k.toUInt32 + m.toUInt32).toNat = (k % 4294967296 + m % 4294967296) % 4294967296 := by
    simp [UInt32.toNat_add]
  have hone : k.toUInt32.toNat = k % 4294967296 := by simp
  rw [Position.shift, hp, hsum, hone]
  omega

/-- Extraction works file by file. If both lists of files have a graph, then the graph of all files
has the nodes of the first and then those of the second, whose ids go up by the number of nodes of the
first and whose positions go on counting files; its edges are those of the first and those of the
second under their new ids. If the first list fails, all fail with its error, and if only the second
fails, all fail with that of the second. -/
theorem rawGraph_of_append (parse : String → Tree) (strict : Bool) (A B : List SourceFile) :
    (∀ g₁ g₂, rawGraph parse strict A = .ok g₁ → rawGraph parse strict B = .ok g₂ →
      ∃ g, rawGraph parse strict (A ++ B) = .ok g ∧
        g.nodes = g₁.nodes ++ g₂.nodes.map (Node.shift g₁.nodeCount A.length) ∧
        (∀ e, e ∈ g.edges ↔ e ∈ g₁.edges ∨ ∃ d ∈ g₂.edges, d.shift g₁.nodeCount = e) ∧
        ((A ++ B).length < Nat.pow 2 32 → ∀ n ∈ g₂.nodes, ∀ p, n.position = some p →
          (p.shift A.length).file.toNat = p.file.toNat + A.length)) ∧
    (∀ e, rawGraph parse strict A = .error e → rawGraph parse strict (A ++ B) = .error e) ∧
    (∀ g₁ e, rawGraph parse strict A = .ok g₁ → rawGraph parse strict B = .error e →
      rawGraph parse strict (A ++ B) = .error e) := by
  refine ⟨?_, ?_, ?_⟩
  · intro g₁ g₂ hA hB
    obtain ⟨g, hg, hconcat⟩ := concat_of_rawGraph hA hB
    rw [← next_of_rawGraph hA]
    refine ⟨g, hg, hconcat.nodes, hconcat.edges, ?_⟩
    intro hlen n hn p hp
    obtain ⟨k, hk, hfile⟩ := file_of_rawGraph hB hn
    rw [hp, Option.map_some, Option.some.injEq] at hfile
    rw [List.length_append] at hlen
    exact toNat_shift hfile A.length (by omega)
  · intro e hA
    rw [rawGraph] at hA
    rw [rawGraph, extractFrom_append, hA]
    rfl
  · intro g₁ e hA hB
    rw [rawGraph_append_eq hA]
    exact extractFrom_error_iff.mp hB

/-- A method that calls a function of a later file, and a file that is no source. -/
theorem rawGraph_of_append_nestedCalls :
    ∃ g₁ g₂ g, rawGraph Source.parse true (nestedCalls.take 1) = .ok g₁ ∧
      rawGraph Source.parse true (nestedCalls.drop 1) = .ok g₂ ∧
      rawGraph Source.parse true nestedCalls = .ok g ∧ g₁.nodeCount = 5 ∧
      g.nodes = g₁.nodes ++ g₂.nodes.map (Node.shift 5 1) ∧
      rawGraph Source.parse true (nestedCalls.take 1 ++ [⟨⟨"notes"⟩, ""⟩]) =
        .error (.parse "notes: unsupported file type") := by
  have hfirst : (rawGraph Source.parse true (nestedCalls.take 1)).toOption.map Graph.nodeCount =
      some 5 := by decide +kernel
  have hsecond : (rawGraph Source.parse true (nestedCalls.drop 1)).toOption.isSome = true := by
    decide +kernel
  cases hA : rawGraph Source.parse true (nestedCalls.take 1) with
  | error e => simp [hA, Except.toOption] at hfirst
  | ok g₁ =>
    cases hB : rawGraph Source.parse true (nestedCalls.drop 1) with
    | error e =>
      rw [hB] at hsecond
      cases hsecond
    | ok g₂ =>
      have hcount : g₁.nodeCount = 5 := by simpa [hA, Except.toOption] using hfirst
      obtain ⟨g, hg, hnodes, -⟩ := (rawGraph_of_append Source.parse true (nestedCalls.take 1)
        (nestedCalls.drop 1)).1 g₁ g₂ hA hB
      have herror := (rawGraph_of_append Source.parse true (nestedCalls.take 1)
        [⟨⟨"notes"⟩, ""⟩]).2.2 g₁ _ hA rfl
      rw [hcount] at hnodes
      exact ⟨g₁, g₂, g, rfl, rfl, hg, hcount, hnodes, herror⟩

end Source

end CallGraph
