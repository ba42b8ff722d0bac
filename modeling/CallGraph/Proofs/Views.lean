import CallGraph.Graph
import Mathlib.Data.List.Nodup

/-!
A graph through its views: which nodes it holds and which edges.

An operation is described by what it does to the two memberships, and nothing after this module
opens a definition of `Graph`. Two graphs with the same nodes, the same edges and the same next id
are equal (`ext_views`), so a law on the views is a law on the graph.

The two removal loops have closed forms. Taking out a list of edges keeps the edges that are not
listed (`mem_edges_removeEdges`). Taking out a list of distinct nodes of the graph never fails, and
leaves the part of the graph on the other nodes (`removeNodes_eq`).
-/

namespace CallGraph.Graph

variable {g h : Graph}

/-! ## Nodes and ids -/

theorem mem_ids {i : Nat} : i ∈ g.ids ↔ ∃ n ∈ g.nodes, n.id = i := List.mem_map

theorem id_mem_ids {n : Node} (hn : n ∈ g.nodes) : n.id ∈ g.ids := mem_ids.mpr ⟨n, hn, rfl⟩

theorem nodup_ids (g : Graph) : g.ids.Nodup := g.ids_ascend.imp Nat.ne_of_lt

theorem eq_of_id_eq {m n : Node} (hm : m ∈ g.nodes) (hn : n ∈ g.nodes) (h : m.id = n.id) :
    m = n :=
  List.inj_on_of_nodup_map g.nodup_ids hm hn h

theorem node?_eq_some_iff {i : Nat} {n : Node} :
    g.node? i = some n ↔ n ∈ g.nodes ∧ n.id = i := by
  refine ⟨?_, ?_⟩
  · intro h
    have hid := List.find?_some h
    exact ⟨List.mem_of_find?_eq_some h, by simpa using hid⟩
  · intro hx
    obtain ⟨hn, rfl⟩ := hx
    cases hf : g.node? n.id with
    | none =>
      have hno := List.find?_eq_none.mp hf n hn
      simp at hno
    | some m =>
      have hm := List.mem_of_find?_eq_some hf
      have hid : m.id = n.id := by simpa using List.find?_some hf
      rw [eq_of_id_eq hm hn hid]

theorem getNode_of_mem {n : Node} (hn : n ∈ g.nodes) : g.getNode n.id = .ok n := by
  simp [getNode, node?_eq_some_iff.mpr ⟨hn, rfl⟩]

theorem source_mem_ids {e : Edge} (he : e ∈ g.edges) : e.source ∈ g.ids := (g.ends_present e he).1

theorem target_mem_ids {e : Edge} (he : e ∈ g.edges) : e.target ∈ g.ids := (g.ends_present e he).2

/-- Nodes ascend by id, so the members fix the list. -/
theorem nodes_eq_of_mem_iff (hn : ∀ n, n ∈ g.nodes ↔ n ∈ h.nodes) : g.nodes = h.nodes := by
  have hp : g.nodes.Perm h.nodes :=
    (List.perm_ext_iff_of_nodup g.nodup_ids.of_map h.nodup_ids.of_map).mpr hn
  have hg : g.nodes.Pairwise (fun a b => a.id < b.id) := List.pairwise_map.mp g.ids_ascend
  have hh : h.nodes.Pairwise (fun a b => a.id < b.id) := List.pairwise_map.mp h.ids_ascend
  refine hp.eq_of_pairwise ?_ hg hh
  intro a b _ _ hab hba
  omega

theorem ext_views (hn : ∀ n, n ∈ g.nodes ↔ n ∈ h.nodes) (he : ∀ e, e ∈ g.edges ↔ e ∈ h.edges)
    (hx : g.next = h.next) : g = h := by
  have hnodes := nodes_eq_of_mem_iff hn
  have hedges := EdgeSet.ext he
  rcases g with ⟨gn, ge, gx, _, _, _⟩
  rcases h with ⟨hn', he', hx', _, _, _⟩
  simp only at hnodes hedges hx
  subst hnodes hedges hx
  rfl

/-! ## Edges -/

@[simp] theorem mem_edges_link {d e : Edge} (hs : e.source ∈ g.ids) (ht : e.target ∈ g.ids) :
    d ∈ (g.link e hs ht).edges ↔ d = e ∨ d ∈ g.edges := EdgeSet.mem_insert

theorem addEdge_of_mem {u v : Nat} (hu : u ∈ g.ids) (hv : v ∈ g.ids) :
    g.addEdge u v = .ok (g.link ⟨u, v⟩ hu hv, !g.hasEdge u v) := by
  simp [addEdge, hu, hv]

theorem mem_callers {u i : Nat} : u ∈ g.callers i ↔ ⟨u, i⟩ ∈ g.edges := by
  simp only [callers, List.mem_map, List.mem_filter, beq_iff_eq]
  refine ⟨?_, ?_⟩
  · intro hx
    obtain ⟨⟨s, t⟩, ⟨he, rfl⟩, rfl⟩ := hx
    exact he
  · intro he
    exact ⟨⟨u, i⟩, ⟨he, rfl⟩, rfl⟩

theorem incoming_of_mem {i : Nat} (hi : i ∈ g.ids) : g.incoming i = .ok (g.callers i) := by
  simp [incoming, hasNode, hi]

theorem mem_incidentTo {es : List Edge} {i : Nat} :
    i ∈ g.incidentTo es ↔ i ∈ g.ids ∧ ∃ e ∈ es, e.touches i = true := by
  simp [incidentTo]

/-! ## Parts of a graph -/

@[simp] theorem mem_edges_filterEdges {p : Edge → Bool} {e : Edge} :
    e ∈ (g.filterEdges p).edges ↔ e ∈ g.edges ∧ p e = true := EdgeSet.mem_filter

@[simp] theorem mem_nodes_restrict {p : Nat → Bool} {n : Node} :
    n ∈ (g.restrict p).nodes ↔ n ∈ g.nodes ∧ p n.id = true := List.mem_filter

@[simp] theorem restrict_next (p : Nat → Bool) : (g.restrict p).next = g.next := rfl

@[simp] theorem mem_edges_restrict {p : Nat → Bool} {e : Edge} :
    e ∈ (g.restrict p).edges ↔ e ∈ g.edges ∧ p e.source = true ∧ p e.target = true := by
  simp [restrict]

@[simp] theorem mem_ids_restrict {p : Nat → Bool} {i : Nat} :
    i ∈ (g.restrict p).ids ↔ i ∈ g.ids ∧ p i = true := by
  simp only [mem_ids, mem_nodes_restrict]
  refine ⟨?_, ?_⟩
  · intro hx
    obtain ⟨n, ⟨hn, hp⟩, rfl⟩ := hx
    exact ⟨⟨n, hn, rfl⟩, hp⟩
  · intro hx
    obtain ⟨⟨n, hn, rfl⟩, hp⟩ := hx
    exact ⟨n, ⟨hn, hp⟩, rfl⟩

theorem removeNode_of_mem {n : Node} (hn : n ∈ g.nodes) :
    g.removeNode n.id = .ok (g.restrict (fun i => i != n.id), n) := by
  simp [removeNode, node?_eq_some_iff.mpr ⟨hn, rfl⟩]

/-! ## The removal loops -/

theorem removeEdges_nodes (es : List Edge) : (g.removeEdges es).nodes = g.nodes := by
  unfold removeEdges
  induction es generalizing g with
  | nil => rfl
  | cons e es ih => rw [List.foldl_cons, ih]; rfl

theorem removeEdges_next (es : List Edge) : (g.removeEdges es).next = g.next := by
  unfold removeEdges
  induction es generalizing g with
  | nil => rfl
  | cons e es ih => rw [List.foldl_cons, ih]; rfl

theorem mem_edges_removeEdges {es : List Edge} {d : Edge} :
    d ∈ (g.removeEdges es).edges ↔ d ∈ g.edges ∧ d ∉ es := by
  unfold removeEdges
  induction es generalizing g with
  | nil => simp
  | cons e es ih =>
    rw [List.foldl_cons, ih]
    simp only [removeEdge, mem_edges_filterEdges, decide_eq_true_eq, List.mem_cons, not_or]
    exact and_assoc

/-- The part of a part is the part on the nodes that pass both tests. -/
theorem restrict_restrict (p q : Nat → Bool) :
    (g.restrict p).restrict q = g.restrict (fun i => p i && q i) := by
  apply ext_views
  · intro n
    simp [and_assoc]
  · intro e
    simp only [mem_edges_restrict, Bool.and_eq_true]
    tauto
  · rfl

theorem restrict_true : g.restrict (fun _ => true) = g := by
  apply ext_views <;> simp

theorem removeNodes_eq {l : List Nat} (hl : l.Nodup) (hp : ∀ i ∈ l, i ∈ g.ids) :
    g.removeNodes l = .ok (g.restrict (fun i => !l.contains i)) := by
  unfold removeNodes
  induction l generalizing g with
  | nil =>
    have hg : g.restrict (fun i => !([] : List Nat).contains i) = g := by
      simpa using restrict_true
    rw [hg]; rfl
  | cons i l ih =>
    rw [List.nodup_cons] at hl
    obtain ⟨n, hn, rfl⟩ := mem_ids.mp (hp i List.mem_cons_self)
    -- the rest of the list is still there once the first node is gone
    have hrest : ∀ j ∈ l, j ∈ (g.restrict (fun k => k != n.id)).ids := by
      intro j hj
      have hne : j ≠ n.id := fun h => hl.1 (h ▸ hj)
      exact mem_ids_restrict.mpr ⟨hp j (List.mem_cons_of_mem _ hj), by simpa using hne⟩
    have htail := ih hl.2 hrest
    rw [restrict_restrict] at htail
    rw [List.foldlM_cons, removeNode_of_mem hn]
    refine htail.trans ?_
    congr 2
    funext j
    rw [List.contains_cons, Bool.not_or]; rfl

end CallGraph.Graph
