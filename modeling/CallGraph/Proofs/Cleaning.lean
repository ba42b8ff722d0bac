import CallGraph.Clean
import CallGraph.Proofs.Views

/-!
What cleaning leaves of a graph.

Cleaning takes the loops out one by one, then the nodes that no edge touches any more, and keeps of
the given highlighted edges those that are still there. The given edges need not come from
collapsing: any set will do, also one with loops, or with edges and nodes that the graph never had.

What is proved:
1. `clean_spec`: cleaning never fails; the edges left are the proper ones, those that are no loops,
   and the nodes left are the ends of proper edges (`CleanOf`).
2. `CleanOf.tidy`, `Tidy.partition`: hence the result is tidy, and its highlighted and its plain
   edges together are its edges, each once.
-/

namespace CallGraph

/-- What holds of every graph that is ready to be drawn: edges join two distinct nodes of the graph,
every node is an end of an edge, and the highlighted edges are edges of the graph. -/
structure CleanGraph.Tidy (c : CleanGraph) : Prop where
  present : ∀ e ∈ c.graph.edges, e.source ∈ c.graph.ids ∧ e.target ∈ c.graph.ids
  distinct : ∀ e ∈ c.graph.edges, e.source ≠ e.target
  joined : ∀ i ∈ c.graph.ids, ∃ e ∈ c.graph.edges, e.source = i ∨ e.target = i
  highlighted : ∀ e ∈ c.highlighted, e ∈ c.graph.edges

/-- A tidy graph lists each edge once, either as highlighted or as plain. -/
theorem CleanGraph.Tidy.partition {c : CleanGraph} (h : c.Tidy) :
    (c.highlighted.toList ++ c.plain).Perm c.graph.edges.toList := by
  have hsame : c.highlighted.toList =
      c.graph.edges.toList.filter (fun e => c.highlighted.contains e) := by
    apply EdgeSet.eq_of_sorted c.highlighted.sorted (c.graph.edges.sorted.sublist List.filter_sublist)
    intro e
    rw [List.mem_filter, EdgeSet.contains, decide_eq_true_eq, EdgeSet.mem_toList, EdgeSet.mem_toList]
    exact ⟨fun he => ⟨h.highlighted e he, he⟩, And.right⟩
  rw [hsame, CleanGraph.plain]
  exact List.filter_append_perm _ _

theorem CleanGraph.not_mem_plain {c : CleanGraph} {e : Edge} (he : e ∈ c.highlighted) :
    e ∉ c.plain := by
  intro hp
  have := (List.mem_filter.mp hp).2
  simp [EdgeSet.contains, he] at this

namespace Graph

variable {g : Graph} {highlighted : EdgeSet}

/-! ## Loops and isolated nodes -/

/-- An edge of the graph that is no loop. -/
def Proper (g : Graph) (e : Edge) : Prop := e ∈ g.edges ∧ e.source ≠ e.target

theorem mem_edges_removeLoops {e : Edge} :
    e ∈ (g.removeEdges (g.edges.toList.filter Edge.isLoop)).edges ↔ g.Proper e := by
  rw [mem_edges_removeEdges, List.mem_filter, EdgeSet.mem_toList, Edge.isLoop, beq_iff_eq, Proper]
  refine ⟨?_, ?_⟩
  · intro hx
    obtain ⟨he, hloop⟩ := hx
    exact ⟨he, fun heq => hloop ⟨he, heq⟩⟩
  · intro hx
    obtain ⟨he, hne⟩ := hx
    exact ⟨he, fun hloop => hne hloop.2⟩

theorem mem_isolated {i : Nat} :
    i ∈ g.isolated ↔ i ∈ g.ids ∧ ∀ e ∈ g.edges, e.source ≠ i ∧ e.target ≠ i := by
  simp only [isolated, List.mem_filter, Bool.not_eq_true', List.contains_eq_mem,
    decide_eq_false_iff_not, mem_incidentTo, EdgeSet.mem_toList, Edge.touches, Bool.or_eq_true,
    beq_iff_eq]
  refine ⟨?_, ?_⟩
  · intro hx
    obtain ⟨hi, hno⟩ := hx
    refine ⟨hi, fun e he => ⟨fun hs => ?_, fun ht => ?_⟩⟩
    · exact hno ⟨hi, e, he, Or.inl hs⟩
    · exact hno ⟨hi, e, he, Or.inr ht⟩
  · intro hx
    obtain ⟨hi, hfree⟩ := hx
    refine ⟨hi, ?_⟩
    intro hx
    obtain ⟨_, e, he, hs | ht⟩ := hx
    · exact (hfree e he).1 hs
    · exact (hfree e he).2 ht

theorem nodup_isolated (g : Graph) : g.isolated.Nodup := g.nodup_ids.sublist List.filter_sublist

/-- Taking out the isolated nodes never fails and takes no edge with it. -/
theorem removeNodes_isolated (g : Graph) : ∃ h, g.removeNodes g.isolated = .ok h ∧
    (∀ e, e ∈ h.edges ↔ e ∈ g.edges) ∧
    (∀ n, n ∈ h.nodes ↔ n ∈ g.nodes ∧ ∃ e ∈ g.edges, e.source = n.id ∨ e.target = n.id) ∧
    h.next = g.next := by
  have hok := removeNodes_eq g.nodup_isolated (fun i hi => (mem_isolated.mp hi).1)
  refine ⟨_, hok, ?_, ?_, rfl⟩
  · intro e
    simp only [mem_edges_restrict, Bool.not_eq_true', List.contains_eq_mem, decide_eq_false_iff_not]
    refine ⟨?_, ?_⟩
    · exact And.left
    · intro he
      refine ⟨he, fun hs => ?_, fun ht => ?_⟩
      · exact ((mem_isolated.mp hs).2 e he).1 rfl
      · exact ((mem_isolated.mp ht).2 e he).2 rfl
  · intro n
    simp only [mem_nodes_restrict, Bool.not_eq_true', List.contains_eq_mem, decide_eq_false_iff_not]
    refine and_congr_right fun hn => ?_
    rw [mem_isolated, not_and]
    refine ⟨?_, ?_⟩
    · intro h
      have hex := h (id_mem_ids hn)
      push Not at hex
      obtain ⟨e, he, hor⟩ := hex
      by_cases hs : e.source = n.id
      · exact ⟨e, he, Or.inl hs⟩
      · exact ⟨e, he, Or.inr (hor hs)⟩
    · intro hx _ hfree
      obtain ⟨e, he, hs | ht⟩ := hx
      · exact (hfree e he).1 hs
      · exact (hfree e he).2 ht

/-! ## The result of cleaning -/

/-- What cleaning a graph with given highlighted edges leaves. -/
structure CleanOf (g : Graph) (highlighted : EdgeSet) (c : CleanGraph) : Prop where
  edges : ∀ e, e ∈ c.graph.edges ↔ g.Proper e
  nodes : ∀ n, n ∈ c.graph.nodes ↔
    n ∈ g.nodes ∧ ∃ e, g.Proper e ∧ (e.source = n.id ∨ e.target = n.id)
  highlighted : ∀ e, e ∈ c.highlighted ↔ e ∈ highlighted ∧ g.Proper e
  next : c.graph.next = g.next

theorem CleanOf.mem_ids {c : CleanGraph} (h : g.CleanOf highlighted c) {i : Nat} :
    i ∈ c.graph.ids ↔ ∃ e, g.Proper e ∧ (e.source = i ∨ e.target = i) := by
  rw [Graph.mem_ids]
  refine ⟨?_, ?_⟩
  · intro hx
    obtain ⟨n, hn, rfl⟩ := hx
    exact ((h.nodes n).mp hn).2
  · intro hx
    obtain ⟨e, he, hend⟩ := hx
    have hi : i ∈ g.ids := by
      rcases hend with rfl | rfl
      · exact source_mem_ids he.1
      · exact target_mem_ids he.1
    obtain ⟨n, hn, rfl⟩ := Graph.mem_ids.mp hi
    exact ⟨n, (h.nodes n).mpr ⟨hn, e, he, hend⟩, rfl⟩

theorem CleanOf.tidy {c : CleanGraph} (h : g.CleanOf highlighted c) : c.Tidy := by
  refine ⟨fun e he => ⟨source_mem_ids he, target_mem_ids he⟩, ?_, ?_, ?_⟩
  · intro e he
    exact ((h.edges e).mp he).2
  · intro i hi
    obtain ⟨e, he, hend⟩ := h.mem_ids.mp hi
    exact ⟨e, (h.edges e).mpr he, hend⟩
  · intro e he
    exact (h.edges e).mpr ((h.highlighted e).mp he).2

theorem clean_spec (g : Graph) (highlighted : EdgeSet) :
    ∃ r, g.clean highlighted = .ok r ∧ g.CleanOf highlighted r.clean := by
  obtain ⟨h, hok, hedges, hnodes, hnext⟩ :=
    (g.removeEdges (g.edges.toList.filter Edge.isLoop)).removeNodes_isolated
  refine ⟨_, by
    simp only [clean, hok, bind, Except.bind]
    rfl, ?_⟩
  refine ⟨?_, ?_, ?_, ?_⟩
  · intro e
    rw [hedges, mem_edges_removeLoops]
  · intro n
    rw [hnodes, removeEdges_nodes]
    simp only [mem_edges_removeLoops]
  · intro e
    rw [EdgeSet.mem_filter, EdgeSet.contains, decide_eq_true_eq, hedges, mem_edges_removeLoops]
  · rw [hnext, removeEdges_next]

/-- Cleaning never fails, whatever edges are given as highlighted. It keeps the edges that are no
loops, the nodes these join, and the given edges among these. So the result is tidy, and its
highlighted and its plain edges divide its edges. -/
theorem clean_exact (g : Graph) (given : EdgeSet) :
    ∃ r, g.clean given = .ok r ∧
      (∀ e, e ∈ r.clean.graph.edges ↔ e ∈ g.edges ∧ e.source ≠ e.target) ∧
      (∀ n, n ∈ r.clean.graph.nodes ↔ n ∈ g.nodes ∧
        ∃ e ∈ g.edges, e.source ≠ e.target ∧ (e.source = n.id ∨ e.target = n.id)) ∧
      (∀ e, e ∈ r.clean.highlighted ↔ e ∈ given ∧ e ∈ g.edges ∧ e.source ≠ e.target) ∧
      r.clean.Tidy ∧
      (r.clean.highlighted.toList ++ r.clean.plain).Perm r.clean.graph.edges.toList ∧
      (∀ e ∈ r.clean.highlighted, e ∉ r.clean.plain) := by
  obtain ⟨r, hr, h⟩ := g.clean_spec given
  refine ⟨r, hr, h.edges, ?_, h.highlighted, h.tidy, h.tidy.partition, ?_⟩
  · intro n
    rw [h.nodes]
    simp only [Proper, and_assoc]
  · intro e he
    exact CleanGraph.not_mem_plain he

end Graph

end CallGraph
