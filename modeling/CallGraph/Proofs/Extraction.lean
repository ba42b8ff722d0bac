import CallGraph.Source.Extract
import CallGraph.Proofs.Strictness
import CallGraph.Proofs.Views
import CallGraph.Proofs.Visiting
import Mathlib.Data.List.Forall2

/-!
The raw graph of some sources is a chart of their syntax trees.

A graph charts a list of addresses if its nodes stand for them, one by one, and its edges say which
owns which (`Charts`). Nodes and edges are added in one place of the extraction, so one lemma says
what that keeps: `Charts.add` for an entry below its owner, and `Charts.addFile` for a file. The rest
is the induction along the extraction: over the trees that a tree is entered through
(`plants`), and over the files (`Charts.addFiles`).

What is proved: an extraction succeeds exactly on supported files, in strict mode without faults, and
its graph charts the files and visited entries of the sources, all of them, in the order of the text.
-/

namespace CallGraph

/-! ## Adding a node below another -/

theorem EdgeSet.length_insertInto {e : Edge} {l : List Edge} (h : e ∉ l) :
    (insertInto e l).length = l.length + 1 := by
  induction l with
  | nil => rfl
  | cons d ds ih =>
    rw [List.mem_cons, not_or] at h
    rw [insertInto, if_neg h.1]
    split
    · rfl
    · rw [List.length_cons, ih h.2, List.length_cons]

theorem EdgeSet.size_insert {e : Edge} {s : EdgeSet} (h : e ∉ s) :
    (s.insert e).size = s.size + 1 := length_insertInto h

namespace Graph

variable {g : Graph}

theorem connect_of_mem {u v : Nat} (hu : u ∈ g.ids) (hv : v ∈ g.ids) :
    g.connect u v = g.link ⟨u, v⟩ hu hv := by
  rw [connect, addEdge_of_mem hu hv]

theorem next_notMem (g : Graph) : g.next ∉ g.ids := by
  intro h
  exact Nat.lt_irrefl _ (g.ids_issued _ h)

theorem ids_addNode (g : Graph) (n : Node) : (g.addNode n).ids = g.ids ++ [g.next] :=
  List.map_append

theorem connect_addNode (n : Node) {u : Nat} (hu : u ∈ g.ids) :
    ∃ hs ht, (g.addNode n).connect u g.next = (g.addNode n).link ⟨u, g.next⟩ hs ht := by
  have hs : u ∈ (g.addNode n).ids := by simp [ids_addNode, hu]
  have ht : g.next ∈ (g.addNode n).ids := by simp [ids_addNode]
  exact ⟨hs, ht, connect_of_mem hs ht⟩

end Graph

namespace Source

/-- The number of the file that an address is in. -/
def Address.index (a : Address) : Nat := a.headD 0

theorem Address.index_append {a : Address} (h : a ≠ []) (x : Address) :
    Address.index (a ++ x) = Address.index a := by
  cases a with
  | nil => exact absurd rfl h
  | cons k a => rfl

section Charts

variable (files : List SourceFile) (roots : List Tree)

/-- The node stands for what is at the address: a file, or a visited entry below its owner. -/
inductive StandsFor : Address → Node → Prop
  | file {k : Nat} {f : SourceFile} {n : Node} (hf : files[k]? = some f)
      (hn : n = { fileNode k.toUInt32 f.path with id := n.id }) : StandsFor [k] n
  | entry {a o : Address} {t d : Tree} {n : Node} (ht : Visited roots a t) (he : t.isEntry = true)
      (ho : Owns roots o a) (hd : Visited roots o d)
      (hn : n = { t.entryNode d.isType ((placeOf roots a).position a.index.toUInt32) with id := n.id }) :
      StandsFor a n

/-- The nodes of the graph stand for the addresses, in the order of the text, and the one edge into
a node that is not that of a file comes from its owner. -/
structure Charts (g : Graph) (A : List Address) : Prop where
  ascending : A.Pairwise Address.Precedes
  nodes : List.Forall₂ (StandsFor files roots) A g.nodes
  ids : g.ids = List.range A.length
  next : g.next = A.length
  edges : ∀ u v, ⟨u, v⟩ ∈ g.edges ↔ ∃ o a, A[u]? = some o ∧ A[v]? = some a ∧ Owns roots o a
  owned : ∀ a ∈ A, a.length = 1 ∨ ∃ o ∈ A, Owns roots o a
  count : g.edgeCount + A.countP (fun a => a.length == 1) = A.length

end Charts

variable {files : List SourceFile} {roots : List Tree} {g : Graph} {A : List Address}
  {a b o : Address} {t c d : Tree}

/-! ## One node more -/

theorem getElem?_append_of_some {B : List Address} {i : Nat} (h : A[i]? = some a) :
    (A ++ B)[i]? = some a := by
  rw [List.getElem?_append_left (List.getElem?_eq_some_iff.mp h).1, h]

theorem precedes_or_eq_of_mem_snoc (hb : ∀ x ∈ A, x.Precedes b) :
    ∀ x ∈ A ++ [b], x = b ∨ x.Precedes b := by
  intro x hx
  rcases List.mem_append.mp hx with hx | hx
  · exact Or.inr (hb x hx)
  · exact Or.inl (List.mem_singleton.mp hx)

/-- Which edges a new last address brings: those of its owner. -/
theorem owns_snoc (hb : ∀ x ∈ A, x.Precedes b) (u v : Nat) :
    (∃ o a, (A ++ [b])[u]? = some o ∧ (A ++ [b])[v]? = some a ∧ Owns roots o a) ↔
      (∃ o a, A[u]? = some o ∧ A[v]? = some a ∧ Owns roots o a) ∨
        v = A.length ∧ ∃ o, A[u]? = some o ∧ Owns roots o b := by
  constructor
  · rintro ⟨o, a, hu, hv, ho⟩
    rw [List.getElem?_append] at hu hv
    split at hu
    · split at hv
      · exact Or.inl ⟨o, a, hu, hv, ho⟩
      · obtain ⟨hlen, rfl⟩ := List.getElem?_eq_some_iff.mp hv
        simp only [List.length_singleton] at hlen
        exact Or.inr ⟨by omega, o, hu, by simpa using ho⟩
    · -- the last address owns nothing before it
      obtain ⟨hlen, rfl⟩ := List.getElem?_eq_some_iff.mp hu
      have hba : b.Precedes a := by simpa using ho.precedes
      split at hv
      · have hab := hb a (List.mem_of_getElem? hv)
        exact absurd (hab.trans hba) (Address.precedes_irrefl a)
      · obtain ⟨hlen', rfl⟩ := List.getElem?_eq_some_iff.mp hv
        simp only [List.getElem_singleton] at hba
        exact absurd hba (Address.precedes_irrefl b)
  · rintro (⟨o, a, hu, hv, ho⟩ | ⟨rfl, o, hu, ho⟩)
    · exact ⟨o, a, getElem?_append_of_some hu, getElem?_append_of_some hv, ho⟩
    · exact ⟨o, b, getElem?_append_of_some hu, by simp, ho⟩

theorem nodup_of_ascending (h : A.Pairwise Address.Precedes) : A.Nodup := by
  refine h.imp ?_
  rintro x _ hx rfl
  exact Address.precedes_irrefl x hx

theorem Charts.mem_ids (h : Charts files roots g A) {u : Nat} (hu : A[u]? = some o) :
    u ∈ g.ids := by
  rw [h.ids, List.mem_range]
  exact (List.getElem?_eq_some_iff.mp hu).1

theorem Charts.index_unique (h : Charts files roots g A) {i j : Nat} (hi : A[i]? = some a)
    (hj : A[j]? = some a) : i = j :=
  (List.getElem?_inj (List.getElem?_eq_some_iff.mp hi).1 (nodup_of_ascending h.ascending)).mp
    (hi.trans hj.symm)

theorem Charts.pairwise_snoc (h : Charts files roots g A) (hb : ∀ x ∈ A, x.Precedes b) :
    (A ++ [b]).Pairwise Address.Precedes := by
  rw [List.pairwise_append]
  exact ⟨h.ascending, by simp, by simpa using hb⟩

theorem Charts.forall₂_snoc (h : Charts files roots g A) {n : Node}
    (hn : StandsFor files roots b { n with id := g.next }) :
    List.Forall₂ (StandsFor files roots) (A ++ [b]) (g.addNode n).nodes :=
  List.rel_append h.nodes (.cons hn .nil)

theorem Charts.ids_snoc (h : Charts files roots g A) (n : Node) :
    (g.addNode n).ids = List.range (A ++ [b]).length := by
  rw [Graph.ids_addNode, h.ids, h.next, List.length_append, List.length_singleton,
    List.range_succ]

theorem Charts.owned_snoc (h : Charts files roots g A)
    (hb : b.length = 1 ∨ ∃ o ∈ A, Owns roots o b) :
    ∀ a ∈ A ++ [b], a.length = 1 ∨ ∃ o ∈ A ++ [b], Owns roots o a := by
  have hgrow : ∀ a, (∃ o ∈ A, Owns roots o a) → ∃ o ∈ A ++ [b], Owns roots o a := by
    rintro a ⟨o, ho, hoa⟩
    exact ⟨o, List.mem_append_left _ ho, hoa⟩
  intro a ha
  rcases List.mem_append.mp ha with ha | ha
  · exact (h.owned a ha).imp_right (hgrow a)
  · rw [List.mem_singleton.mp ha]
    exact hb.imp_right (hgrow b)

theorem Charts.add (h : Charts files roots g A) {u : Nat} {n : Node} (hu : A[u]? = some o)
    (ho : Owns roots o b) (hb : ∀ x ∈ A, x.Precedes b)
    (hn : StandsFor files roots b { n with id := g.next }) :
    Charts files roots ((g.addNode n).connect u g.next) (A ++ [b]) := by
  obtain ⟨hs, ht, heq⟩ := Graph.connect_addNode (g := g) n (h.mem_ids hu)
  rw [heq]
  exact
    { ascending := h.pairwise_snoc hb
      nodes := h.forall₂_snoc hn
      ids := h.ids_snoc n
      next := by simp [Graph.link, Graph.addNode, h.next]
      edges := by
        intro x y
        rw [Graph.mem_edges_link, owns_snoc hb, ← h.edges, h.next, or_comm]
        refine or_congr Iff.rfl ?_
        constructor
        · intro he
          obtain ⟨rfl, rfl⟩ := Edge.mk.inj he
          exact ⟨rfl, o, hu, ho⟩
        · rintro ⟨rfl, o', hx, ho'⟩
          obtain rfl := ho.unique ho'
          rw [h.index_unique hx hu]
      owned := h.owned_snoc (Or.inr ⟨o, List.mem_of_getElem? hu, ho⟩)
      count := by
        have hnew : (⟨u, g.next⟩ : Edge) ∉ g.edges := fun he =>
          g.next_notMem (Graph.target_mem_ids he)
        have hsize : (g.edges.insert ⟨u, g.next⟩).size = g.edgeCount + 1 :=
          EdgeSet.size_insert hnew
        have hcount := h.count
        have hzero : [b].countP (fun a => a.length == 1) = 0 := by
          simp [ho.length_ne_one]
        rw [Graph.edgeCount, List.countP_append, List.length_append, hzero]
        simp only [Graph.link, Graph.addNode, hsize, List.length_singleton]
        omega }

theorem Charts.addFile (h : Charts files roots g A) {k : Nat} {f : SourceFile}
    (hf : files[k]? = some f) (hb : ∀ x ∈ A, x.Precedes [k]) :
    Charts files roots (g.addNode (fileNode k.toUInt32 f.path)) (A ++ [[k]]) where
  ascending := h.pairwise_snoc hb
  nodes := h.forall₂_snoc (.file hf rfl)
  ids := h.ids_snoc _
  next := by simp [Graph.addNode, h.next]
  edges := by
    intro x y
    rw [owns_snoc hb, ← h.edges]
    refine (or_iff_left ?_).symm
    rintro ⟨-, o, -, ho⟩
    exact ho.length_ne_one rfl
  owned := h.owned_snoc (Or.inl rfl)
  count := by
    have hcount := h.count
    have hedges : (g.addNode (fileNode k.toUInt32 f.path)).edgeCount = g.edgeCount := rfl
    rw [hedges, List.countP_append, List.length_append, List.length_singleton]
    simp only [List.countP_singleton, List.length_singleton, BEq.rfl, if_true]
    omega

theorem charts_empty : Charts files roots Graph.empty [] where
  ascending := List.Pairwise.nil
  nodes := .nil
  ids := rfl
  next := rfl
  edges := by
    intro u v
    constructor
    · intro h; cases h
    · rintro ⟨o, a, hu, -, -⟩
      simp at hu
  owned := by simp
  count := rfl

/-! ## A tree with all that is below it -/

theorem plantAll_append (g : Graph) (u : Nat) (os os' : List Outline) :
    Outline.plantAll g u (os ++ os') = Outline.plantAll (Outline.plantAll g u os) u os' := by
  induction os generalizing g with
  | nil => simp [Outline.plantAll]
  | cons o os ih => simp [Outline.plantAll, ih]

/-- Planting the outline of a tree charts the entries at and below it. -/
def Plants (files : List SourceFile) (roots : List Tree) (t : Tree) : Prop :=
  ∀ {g : Graph} {A : List Address} {a o : Address} {d : Tree} {u : Nat},
    Charts files roots g A → Visited roots a t → A[u]? = some o → Visited roots o d →
    Owns roots o a → (∀ x ∈ A, x.Precedes a) →
    Charts files roots (Outline.plantAll g u (t.outline a.index.toUInt32 d.isType (placeOf roots a)))
      (A ++ t.entries a)

theorem Charts.plantEntered {u : Nat} {l : List (Address × Tree)} (h : Charts files roots g A)
    (hu : A[u]? = some o) (hd : Visited roots o d) (ht : Visited roots a t)
    (hl : ∀ c ∈ l, t.Enters c.1 c.2)
    (hasc : l.Pairwise (fun c d => ∀ x y, (c.1 ++ x).Precedes (d.1 ++ y)))
    (hplant : ∀ c ∈ l, Plants files roots c.2) (ho : ∀ c ∈ l, Owns roots o (a ++ c.1))
    (hA : ∀ c ∈ l, ∀ x ∈ A, x.Precedes (a ++ c.1)) :
    Charts files roots
      (Outline.plantAll g u (l.flatMap (fun c =>
        c.2.outline a.index.toUInt32 d.isType ((placeOf roots a).after (t.before c.1)))))
      (A ++ l.flatMap (fun c => c.2.entries (a ++ c.1))) := by
  induction l generalizing g A with
  | nil => simpa [Outline.plantAll] using h
  | cons c l ih =>
    rw [List.forall_mem_cons] at hl hplant ho hA
    rw [List.pairwise_cons] at hasc
    have hfirst := hplant.1 h (ht.enter hl.1) hu hd ho.1 hA.1
    rw [Address.index_append ht.ne_nil, ht.placeOf_append] at hfirst
    rw [List.flatMap_cons, List.flatMap_cons, plantAll_append, ← List.append_assoc]
    refine ih hfirst (getElem?_append_of_some hu) hl.2 hasc.2 hplant.2 ho.2 ?_
    intro e he x hx
    rcases List.mem_append.mp hx with hx | hx
    · exact hA.2 e he x hx
    · obtain ⟨y, rfl⟩ := Tree.prefix_of_mem_entries hx
      have hce := (hasc.1 e he y []).append a
      simpa using hce

theorem Charts.plantWithin {u : Nat} (h : Charts files roots g A) (hu : A[u]? = some o)
    (hd : Visited roots o d) (ht : Visited roots a t)
    (hplant : ∀ s c, t.Enters s c → Plants files roots c)
    (ho : ∀ s c, t.Enters s c → Owns roots o (a ++ s)) (hA : ∀ x ∈ A, x = a ∨ x.Precedes a) :
    Charts files roots (Outline.plantAll g u (t.within a.index.toUInt32 d.isType (placeOf roots a)))
      (A ++ t.entered.flatMap (fun c => c.2.entries (a ++ c.1))) := by
  refine h.plantEntered hu hd ht (fun c hc => Tree.mem_entered.mp hc) t.entered_pairwise
    (fun c hc => hplant c.1 c.2 (Tree.mem_entered.mp hc))
    (fun c hc => ho c.1 c.2 (Tree.mem_entered.mp hc)) ?_
  intro c hc x hx
  have hac := Address.precedes_append a (Tree.mem_entered.mp hc).ne_nil
  rcases hA x hx with rfl | hxa
  · exact hac
  · exact hxa.trans hac

theorem plants (t : Tree) : Plants files roots t := by
  induction t using Tree.entered_induction with
  | h t ih =>
    intro g A a o d u hg ht hu hd ho hA
    have hstands : t.isEntry = true → StandsFor files roots a
        { t.entryNode d.isType ((placeOf roots a).position a.index.toUInt32) with id := g.next } :=
      fun he => .entry ht he ho hd rfl
    have hlast := precedes_or_eq_of_mem_snoc hA
    rw [Tree.entries_eq]
    by_cases hscope : t.isScope = true
    · -- the new node is the owner of what is below
      have he : t.isEntry = true := by simp [Tree.isEntry, hscope]
      have hadd := hg.add hu ho hA (hstands he)
      have hself : (A ++ [a])[g.next]? = some a := by simp [hg.next]
      have hscope' : Scope roots a := ⟨t, ht, Or.inr hscope⟩
      rw [Tree.outline_scope _ _ _ hscope, if_pos he, ← List.append_assoc]
      exact hadd.plantWithin hself ht ht ih (fun s c hs => hscope'.owns ht hs) hlast
    · have hnot : ¬ Scope roots a := by
        rintro ⟨t', ht', hone | hs⟩
        · exact ho.length_ne_one hone
        · rw [ht.unique ht'] at hscope
          exact hscope hs
      have howns : ∀ s c, t.Enters s c → Owns roots o (a ++ s) :=
        fun s c hs => ho.enter hnot ht hs
      by_cases hcall : t.isCall = true
      · have he : t.isEntry = true := by simp [Tree.isEntry, hcall]
        have hadd := hg.add hu ho hA (hstands he)
        rw [Tree.outline_call _ _ _ hcall, if_pos he, ← List.append_assoc]
        exact hadd.plantWithin (getElem?_append_of_some hu) hd ht ih howns hlast
      · have he : t.isEntry = false := by simp_all [Tree.isEntry]
        rw [Tree.outline_plain _ _ _ he, he]
        exact hg.plantWithin hu hd ht ih howns (fun x hx => Or.inr (hA x hx))

/-! ## File after file -/

/-- The addresses of files and the entries below them, from a number on. -/
def addresses (k : Nat) : List Tree → List Address
  | [] => []
  | r :: rs => ([k] :: r.asFile.entries [k]) ++ addresses (k + 1) rs

theorem mem_addresses {k : Nat} {rs : List Tree} :
    a ∈ addresses k rs ↔ ∃ i r s t, rs[i]? = some r ∧ a = (k + i) :: s ∧ r.asFile.Reaches s t ∧
      (s = [] ∨ t.isEntry = true) := by
  induction rs generalizing k with
  | nil => simp [addresses]
  | cons r rs ih =>
    rw [addresses, List.mem_append, List.mem_cons, Tree.mem_entries, ih]
    constructor
    · rintro ((rfl | ⟨s, t, rfl, hs, he⟩) | ⟨i, r', s, t, hr, rfl, hs, he⟩)
      · exact ⟨0, r, [], _, rfl, rfl, .here _, Or.inl rfl⟩
      · exact ⟨0, r, s, t, rfl, rfl, hs, Or.inr he⟩
      · exact ⟨i + 1, r', s, t, hr, by rw [Nat.add_assoc, Nat.add_comm 1], hs, he⟩
    · rintro ⟨i, r', s, t, hr, rfl, hs, he⟩
      cases i with
      | zero =>
        obtain rfl : r = r' := by simpa using hr
        refine Or.inl ?_
        rcases he with rfl | he
        · exact Or.inl rfl
        · exact Or.inr ⟨s, t, rfl, hs, he⟩
      | succ i =>
        exact Or.inr ⟨i, r', s, t, hr, by rw [Nat.add_assoc, Nat.add_comm 1], hs, he⟩

theorem mem_addresses_iff_recorded : a ∈ addresses 0 roots ↔ Recorded roots a := by
  rw [mem_addresses]
  constructor
  · rintro ⟨k, r, s, t, hr, rfl, hs, he⟩
    refine ⟨t, ⟨k, r, s, hr, by rw [Nat.zero_add], hs⟩, he.imp_left ?_⟩
    rintro rfl
    rfl
  · rintro ⟨t, ⟨k, r, s, hr, rfl, hs⟩, he⟩
    exact ⟨k, r, s, t, hr, by rw [Nat.zero_add], hs, he.imp_left (by simp)⟩

def trees (parse : String → Tree) (files : List SourceFile) : List Tree :=
  files.map (fun f => parse f.content)

theorem trees_cons (parse : String → Tree) (f : SourceFile) (fs : List SourceFile) :
    trees parse (f :: fs) = parse f.content :: trees parse fs := rfl

theorem getElem?_trees (parse : String → Tree) (k : Nat) :
    (trees parse files)[k]? = files[k]?.map (fun f => parse f.content) := List.getElem?_map ..

def addFiles (parse : String → Tree) (g : Graph) (index : Nat) : List SourceFile → Graph
  | [] => g
  | f :: fs => addFiles parse (Source.addFile g index.toUInt32 f.path (parse f.content)) (index + 1) fs

/-- The files are those that an extraction does not fail on. -/
def Accepts (parse : String → Tree) (strict : Bool) (files : List SourceFile) : Prop :=
  ∀ f ∈ files, isSupported f.path = true ∧ (strict = true → (parse f.content).hasFault = false)

theorem extractFrom_eq_ok_iff (parse : String → Tree) (strict : Bool) (g h : Graph) (index : Nat)
    (fs : List SourceFile) :
    (extractFrom parse strict g index fs).2 = .ok h ↔
      Accepts parse strict fs ∧ h = addFiles parse g index fs := by
  induction fs generalizing g index with
  | nil =>
    rw [extractFrom, addFiles, Except.ok.injEq, eq_comm]
    simp [Accepts]
  | cons f fs ih =>
    have hfault := faultLine?_isSome (parse f.content)
    rw [extractFrom, addFiles, Accepts, List.forall_mem_cons, ← Accepts]
    by_cases hp : isSupported f.path = true
    · cases hl : faultLine? (parse f.content) with
      | none => simp_all
      | some line => cases strict <;> simp_all
    · simp [hp]

theorem Charts.addWhole (h : Charts files roots g A) {k : Nat} {f : SourceFile} {r : Tree}
    (hf : files[k]? = some f) (hr : roots[k]? = some r) (hA : ∀ x ∈ A, x.Precedes [k]) :
    Charts files roots (Source.addFile g k.toUInt32 f.path r)
      (A ++ ([k] :: r.asFile.entries [k])) := by
  have hroot := visited_file hr
  have hscope : Scope roots [k] := ⟨r.asFile, hroot, Or.inl rfl⟩
  have hself : (A ++ [[k]])[g.next]? = some [k] := by simp [h.next]
  have hbelow := (h.addFile hf hA).plantWithin hself hroot hroot (fun _ c _ => plants c)
    (fun s c hs => hscope.owns hroot hs) (precedes_or_eq_of_mem_snoc hA)
  rw [placeOf_file, List.append_assoc] at hbelow
  rw [Source.addFile, Tree.fileOutline, Tree.entries_eq]
  rw [← Tree.outlines_eq_within _ _ _ rfl] at hbelow
  exact hbelow

theorem Charts.addFiles (parse : String → Tree) {k : Nat} {fs : List SourceFile}
    (h : Charts files (trees parse files) g A) (hfs : files.drop k = fs)
    (hA : ∀ x ∈ A, ∃ i s, i < k ∧ x = i :: s) :
    Charts files (trees parse files) (addFiles parse g k fs)
      (A ++ addresses k (trees parse fs)) := by
  induction fs generalizing g A k with
  | nil => simpa [trees, addresses, Source.addFiles] using h
  | cons f fs ih =>
    have hk : files[k]? = some f := by
      rw [← List.head?_drop, hfs]; rfl
    have hr : (trees parse files)[k]? = some (parse f.content) := by
      rw [getElem?_trees, hk]; rfl
    have hnext : files.drop (k + 1) = fs := by
      rw [← List.tail_drop, hfs]; rfl
    have hfirst := h.addWhole hk hr (by
      intro x hx
      obtain ⟨i, s, hi, rfl⟩ := hA x hx
      exact List.Lex.rel hi)
    rw [trees_cons, addresses, ← List.append_assoc]
    refine ih hfirst hnext ?_
    intro x hx
    rcases List.mem_append.mp hx with hx | hx
    · obtain ⟨i, s, hi, rfl⟩ := hA x hx
      exact ⟨i, s, by omega, rfl⟩
    · rcases List.mem_cons.mp hx with rfl | hx
      · exact ⟨k, [], by omega, rfl⟩
      · obtain ⟨s, rfl⟩ := Tree.prefix_of_mem_entries hx
        exact ⟨k, s, by omega, rfl⟩

theorem charts_of_extractFrom {parse : String → Tree} {strict : Bool}
    (h : (extractFrom parse strict Graph.empty 0 files).2 = .ok g) :
    Charts files (trees parse files) g
      (addresses 0 (trees parse files)) := by
  obtain ⟨-, rfl⟩ := (extractFrom_eq_ok_iff ..).mp h
  have hdrop : files.drop 0 = files := List.drop_zero
  have hall := charts_empty.addFiles parse hdrop (by simp)
  simpa using hall

/-! ## The kinds of nodes -/

namespace Tree

/-- Whether the parameters of a function have a receiver. -/
def hasReceiver (t : Tree) : Bool :=
  (((t.child? .parameters).map children).getD []).any (fun c => c.kind == .receiver)

theorem functionNode_kind (inType : Bool) (t : Tree) (p : Position) :
    (functionNode inType t p).kind =
      if inType then if t.hasReceiver then .method else .associatedFunction else .function := by
  cases inType <;> rfl

theorem functionNode_kind_cases (inType : Bool) (t : Tree) (p : Position) :
    (functionNode inType t p).kind = .function ∨ (functionNode inType t p).kind = .method ∨
      (functionNode inType t p).kind = .associatedFunction := by
  rw [functionNode_kind]
  cases inType <;> cases t.hasReceiver <;> simp

theorem callee_kind_cases (t : Tree) : (callee t).2 = .call ∨ (callee t).2 = .methodCall := by
  fun_induction callee t <;> simp_all

theorem callNode_kind_cases (t : Tree) (p : Position) :
    (callNode t p).kind = .call ∨ (callNode t p).kind = .methodCall := by
  cases hf : t.child? .function with
  | none => simp [callNode, hf]
  | some f => simpa [callNode, hf] using callee_kind_cases f

/-- The kind of an entry tells whether it is a call, and whether it is a type. -/
theorem entryNode_kind (inType : Bool) (p : Position) (h : t.isEntry = true) :
    ((t.entryNode inType p).isCallSite = !t.isScope) ∧ (t.entryNode inType p).kind ≠ .file ∧
      ((t.entryNode inType p).kind = .impl ∨ (t.entryNode inType p).kind = .trait ↔
        t.isType = true) := by
  cases t with
  | leaf => cases h
  | node k slot ts =>
    have hk : k = .module ∨ k = .implementation ∨ k = .trait ∨ k = .function ∨ k = .call := by
      cases k <;> simp_all [isEntry, isScope, isCall, Kind.access]
    have hrole : ∀ nk, (entryNode inType (node k slot ts) p).kind = nk →
        (entryNode inType (node k slot ts) p).isCallSite = (nk.role == .callSite) := by
      intro nk hnk
      rw [Node.isCallSite, Node.role, hnk]
    rcases hk with rfl | rfl | rfl | rfl | rfl
    · have hkind : (entryNode inType (node .module slot ts) p).kind = .module := rfl
      simp [hrole _ hkind, hkind, NodeKind.role, isScope, Kind.access, isType, kind]
    · have hkind : (entryNode inType (node .implementation slot ts) p).kind = .impl := rfl
      simp [hrole _ hkind, hkind, NodeKind.role, isScope, Kind.access, isType, kind]
    · have hkind : (entryNode inType (node .trait slot ts) p).kind = .trait := rfl
      simp [hrole _ hkind, hkind, NodeKind.role, isScope, Kind.access, isType, kind]
    · rcases functionNode_kind_cases inType (node .function slot ts) p with hkind | hkind | hkind
      all_goals
        change (entryNode inType (node .function slot ts) p).kind = _ at hkind
        simp [hrole _ hkind, hkind, NodeKind.role, isScope, Kind.access, isType, kind]
    · rcases callNode_kind_cases (node .call slot ts) p with hkind | hkind
      all_goals
        change (entryNode inType (node .call slot ts) p).kind = _ at hkind
        simp [hrole _ hkind, hkind, NodeKind.role, isScope, Kind.access, isType, kind]

end Tree

/-- What the kind of a node says about the tree that it stands for. -/
theorem StandsFor.kind {n : Node} (h : StandsFor files roots a n) (ht : Visited roots a t) :
    (n.isCallSite = true ↔ ¬ Scope roots a) ∧ (n.kind = .file ↔ a.length = 1) ∧
      (n.kind = .impl ∨ n.kind = .trait ↔ t.isType = true) := by
  cases h with
  | @file k f n hf hn =>
    have hkind : n.kind = .file := by rw [hn]; rfl
    obtain ⟨k', r, s, -, hks, hs⟩ := id ht
    obtain ⟨-, rfl⟩ := List.cons.inj hks
    obtain rfl := (Tree.Reaches.here r.asFile).unique hs
    refine ⟨?_, by simp [hkind], by simp [hkind, Tree.isType, Tree.asFile, Tree.kind]⟩
    have hscope : Scope roots [k] := ⟨_, ht, Or.inl rfl⟩
    simp [Node.isCallSite, Node.role, hkind, NodeKind.role, hscope]
  | @entry _ o t' d n ht' he ho hd hn =>
    obtain rfl := ht.unique ht'
    have hkind := Tree.entryNode_kind d.isType ((placeOf roots a).position a.index.toUInt32) he
    have hscope : Scope roots a ↔ t.isScope = true := by
      constructor
      · rintro ⟨t', ht', hone | hs⟩
        · exact absurd hone ho.length_ne_one
        · rwa [ht.unique ht']
      · intro hs
        exact ⟨t, ht, Or.inr hs⟩
    rw [hn]
    refine ⟨?_, ?_, hkind.2.2⟩
    · have hsite := hkind.1
      rw [hscope, Bool.not_eq_true, ← Bool.not_eq_true', ← hsite]
      rfl
    · exact iff_of_false hkind.2.1 ho.length_ne_one

namespace Charts

theorem node_of_getElem? (h : Charts files roots g A) {i : Nat} (hi : A[i]? = some a) :
    ∃ n, g.node? i = some n ∧ StandsFor files roots a n := by
  obtain ⟨hlt, rfl⟩ := List.getElem?_eq_some_iff.mp hi
  have hlt' : i < g.nodes.length := by rw [← h.nodes.length_eq]; exact hlt
  have hid : g.nodes[i].id = i := by
    have hget : g.ids[i]? = some i := by rw [h.ids]; simp [hlt]
    rw [Graph.ids, List.getElem?_map, List.getElem?_eq_getElem hlt'] at hget
    simpa using hget
  refine ⟨g.nodes[i], Graph.node?_eq_some_iff.mpr ⟨List.getElem_mem hlt', hid⟩, ?_⟩
  exact (List.forall₂_iff_get.mp h.nodes).2 i hlt hlt'

theorem address_of_node? (h : Charts files roots g A) {i : Nat} {n : Node}
    (hn : g.node? i = some n) : ∃ a, A[i]? = some a ∧ StandsFor files roots a n := by
  obtain ⟨hmem, hid⟩ := Graph.node?_eq_some_iff.mp hn
  have hlt : i < A.length := by
    have := Graph.id_mem_ids hmem
    rwa [hid, h.ids, List.mem_range] at this
  obtain ⟨n', hn', hs⟩ := h.node_of_getElem? (List.getElem?_eq_getElem hlt)
  obtain rfl : n = n' := by rw [hn] at hn'; exact Option.some.inj hn'
  exact ⟨A[i], List.getElem?_eq_getElem hlt, hs⟩

theorem existsUnique_source (h : Charts files roots g A) {v : Nat} (hv : A[v]? = some a)
    (ha : a.length ≠ 1) : ∃! u, (⟨u, v⟩ : Edge) ∈ g.edges := by
  obtain ⟨o, ho, hoa⟩ := (h.owned a (List.mem_of_getElem? hv)).resolve_left ha
  obtain ⟨u, hu⟩ := List.getElem?_of_mem ho
  refine ⟨u, (h.edges u v).mpr ⟨o, a, hu, hv, hoa⟩, ?_⟩
  intro w hw
  obtain ⟨o', a', hw, hv', ho'⟩ := (h.edges w v).mp hw
  obtain rfl : a = a' := Option.some.inj (hv.symm.trans hv')
  obtain rfl := hoa.unique ho'
  exact h.index_unique hw hu

/-- Whether a function is one of a type is told by the node of its owner. -/
theorem function_kind (h : Charts files roots g A) {u v : Nat} {m n : Node}
    (he : ⟨u, v⟩ ∈ g.edges) (hm : g.node? u = some m) (hn : g.node? v = some n)
    (ha : A[v]? = some a) (ht : Visited roots a t) (hk : t.kind = .function) :
    n.kind = if m.kind = .impl ∨ m.kind = .trait then
      if t.hasReceiver then .method else .associatedFunction else .function := by
  obtain ⟨o, a', hu, hv, ho⟩ := (h.edges u v).mp he
  obtain rfl : a = a' := Option.some.inj (ha.symm.trans hv)
  obtain ⟨o', hu', hmo⟩ := h.address_of_node? hm
  obtain rfl : o = o' := Option.some.inj (hu.symm.trans hu')
  obtain ⟨a', hv', hna⟩ := h.address_of_node? hn
  obtain rfl : a = a' := Option.some.inj (ha.symm.trans hv')
  cases hna with
  | file hf hn => exact absurd rfl ho.length_ne_one
  | @entry _ o' t' d _ ht' he' ho' hd hn' =>
    obtain rfl := ht.unique ht'
    obtain rfl := ho.unique ho'
    have htype := (hmo.kind hd).2.2
    have hentry : n.kind = (t.functionNode d.isType ((placeOf roots a).position a.index.toUInt32)).kind := by
      rw [hn', Tree.entryNode, hk]
    rw [hentry, Tree.functionNode_kind]
    simp only [htype]

/-- The source of an edge is never a call. -/
theorem source_not_isCallSite (h : Charts files roots g A) {u v : Nat} {m : Node}
    (he : ⟨u, v⟩ ∈ g.edges) (hm : g.node? u = some m) : m.isCallSite = false := by
  obtain ⟨o, a, hu, -, ho⟩ := (h.edges u v).mp he
  obtain ⟨o', hu', hmo⟩ := h.address_of_node? hm
  obtain rfl : o = o' := Option.some.inj (hu.symm.trans hu')
  obtain ⟨d, hd, -⟩ := id ho.scope
  rw [← Bool.not_eq_true, (hmo.kind hd).1, not_not]
  exact ho.scope

end Charts

/-! ## The graph of some sources -/

/-- An extraction succeeds on supported files, in strict mode without faults, and then its graph is
what the syntax trees say. Its nodes, in the order of their ids, stand for the files and the visited
entries in the order of the text, each once. The one edge into an entry comes from the innermost
container or function around it, or else the file, and never from a call; a function belongs to a
type if the node of its owner does. -/
theorem extractFrom_charts_sources (parse : String → Tree) (strict : Bool)
    (files : List SourceFile) :
    ((extractFrom parse strict Graph.empty 0 files).2.isOk = true ↔ Accepts parse strict files) ∧
    ∀ g, (extractFrom parse strict Graph.empty 0 files).2 = .ok g →
      ∃ A : List Address, (∀ a, a ∈ A ↔ Recorded (trees parse files) a) ∧
        Charts files (trees parse files) g A ∧
        (∀ v a, A[v]? = some a → a.length ≠ 1 → ∃! u, ⟨u, v⟩ ∈ g.edges) ∧
        ∀ u v m n, ⟨u, v⟩ ∈ g.edges → g.node? u = some m → g.node? v = some n →
          m.isCallSite = false ∧
          ∀ a t, A[v]? = some a → Visited (trees parse files) a t → t.kind = .function →
            n.kind = if m.kind = .impl ∨ m.kind = .trait then
              if t.hasReceiver then .method else .associatedFunction else .function := by
  refine ⟨?_, ?_⟩
  · have hok := extractFrom_eq_ok_iff parse strict Graph.empty
    cases hr : (extractFrom parse strict Graph.empty 0 files).2 with
    | ok g => simpa [Except.isOk, Except.toBool] using ((hok g 0 files).mp hr).1
    | error e =>
      refine iff_of_false (by simp [Except.isOk, Except.toBool]) ?_
      intro hacc
      have := (hok _ 0 files).mpr ⟨hacc, rfl⟩
      rw [hr] at this
      cases this
  · intro g hg
    have h := charts_of_extractFrom hg
    refine ⟨_, fun a => mem_addresses_iff_recorded, h, ?_, ?_⟩
    · intro v a hv ha
      exact h.existsUnique_source hv ha
    · intro u v m n he hm hn
      refine ⟨h.source_not_isCallSite he hm, ?_⟩
      intro a t ha ht hk
      exact h.function_kind he hm hn ha ht hk

/-- A method with a call in the arguments of a call, and a function in another file. -/
def nestedCalls : List SourceFile :=
  [⟨⟨"a.rs"⟩, "impl A \x7b fn f(&self) \x7b g(h()) \x7d \x7d"⟩, ⟨⟨"b.rs"⟩, "fn g(x: u8) \x7b\x7d"⟩]

theorem extractFrom_charts_sources_nestedCalls :
    ∃ g A, (extractFrom parse true Graph.empty 0 nestedCalls).2 = .ok g ∧
      g.nodes.map Node.kind = [.file, .impl, .method, .call, .call, .file, .function] ∧
      g.edges.toList = [⟨0, 1⟩, ⟨1, 2⟩, ⟨2, 3⟩, ⟨2, 4⟩, ⟨5, 6⟩] ∧
      Charts nestedCalls (trees parse nestedCalls) g A ∧
      (∀ a, a ∈ A ↔ Recorded (trees parse nestedCalls) a) := by
  have hrun : (extractFrom parse true Graph.empty 0 nestedCalls).2.toOption.map
      (fun g => (g.nodes.map Node.kind, g.edges.toList)) =
        some ([.file, .impl, .method, .call, .call, .file, .function],
          [⟨0, 1⟩, ⟨1, 2⟩, ⟨2, 3⟩, ⟨2, 4⟩, ⟨5, 6⟩]) := by
    decide +kernel
  cases hr : (extractFrom parse true Graph.empty 0 nestedCalls).2 with
  | error e => simp [hr, Except.toOption] at hrun
  | ok g =>
    simp only [hr, Except.toOption, Option.map_some, Option.some.injEq, Prod.mk.injEq] at hrun
    obtain ⟨A, hA, hcharts, -⟩ := (extractFrom_charts_sources parse true nestedCalls).2 g hr
    exact ⟨g, A, rfl, hrun.1, hrun.2, hcharts, hA⟩

end Source

end CallGraph
