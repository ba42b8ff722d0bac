import CallGraph.Proofs.Folding

/-!
How many nodes and edges folding leaves.

Replacing one call site may add edges and always takes some away: callers get an edge to the
declaration, edges that come to coincide are one, and an edge made at one call site goes again with
the next if that was the caller. Step by step the number of edges can grow. Over a whole pass it
cannot: every edge that is left in the end is what one edge of the graph has become
(`Collapsed.exists_became`), so there is a map from the edges before onto the edges after.

What is proved:
1. `EdgeSet.size_le_of_onto`: a set that another is mapped onto is no larger than it.
2. `card_callSites`, `nodeCount_add_card_matched_le`: call sites are counted once each, and the
   matched ones among them are not in what is left.
3. `CleanGraph.Tidy.nodeCount_le`: a graph without isolated nodes has at most two nodes for each
   edge.
-/

namespace CallGraph

namespace EdgeSet

/-- A set is no larger than another whose members are mapped onto its members. -/
theorem size_le_of_onto {s t : EdgeSet} (f : Edge → Edge) (h : ∀ e ∈ t, ∃ d ∈ s, f d = e) :
    t.size ≤ s.size := by
  have hsub : t.toList.toFinset ⊆ s.toList.toFinset.image f := by
    intro e he
    obtain ⟨d, hd, rfl⟩ := h e (List.mem_toFinset.mp he)
    exact Finset.mem_image_of_mem f (List.mem_toFinset.mpr hd)
  calc t.size = t.toList.toFinset.card := (List.toFinset_card_of_nodup t.nodup_toList).symm
    _ ≤ (s.toList.toFinset.image f).card := Finset.card_le_card hsub
    _ ≤ s.toList.toFinset.card := Finset.card_image_le
    _ = s.size := List.toFinset_card_of_nodup s.nodup_toList

theorem size_le_of_subset {s t : EdgeSet} (h : ∀ e ∈ t, e ∈ s) : t.size ≤ s.size :=
  size_le_of_onto id fun e he => ⟨e, h e he, rfl⟩

end EdgeSet

namespace Graph

variable {g : Graph}

theorem card_toFinset_ids (g : Graph) : g.ids.toFinset.card = g.nodeCount := by
  rw [List.toFinset_card_of_nodup g.nodup_ids, ids, List.length_map, nodeCount]

theorem card_callSites (g : Graph) :
    g.callSites.card = (g.nodes.filter Node.isCallSite).length := by
  rw [callSites_eq_toFinset, List.toFinset_card_of_nodup g.nodup_callSites, List.length_map]

theorem matched_subset_ids (g : Graph) : g.matched ⊆ g.ids.toFinset := by
  intro i hi
  obtain ⟨n, hn, _, hid, _⟩ := mem_matched.mp hi
  exact List.mem_toFinset.mpr (mem_ids.mpr ⟨n, hn, hid⟩)

/-- A graph whose nodes are nodes of another that are not matched there is smaller by the matched
ones. -/
theorem nodeCount_add_card_matched_le {h : Graph}
    (hsub : ∀ n ∈ h.nodes, n ∈ g.nodes ∧ n.id ∉ g.matched) :
    h.nodeCount + g.matched.card ≤ g.nodeCount := by
  have hleft : h.ids.toFinset ⊆ g.ids.toFinset \ g.matched := by
    intro i hi
    obtain ⟨n, hn, rfl⟩ := mem_ids.mp (List.mem_toFinset.mp hi)
    obtain ⟨hmem, hno⟩ := hsub n hn
    exact Finset.mem_sdiff.mpr ⟨List.mem_toFinset.mpr (id_mem_ids hmem), hno⟩
  have hcard := Finset.card_le_card hleft
  rw [Finset.card_sdiff_of_subset g.matched_subset_ids, card_toFinset_ids, card_toFinset_ids] at hcard
  have hle := Finset.card_le_card g.matched_subset_ids
  rw [card_toFinset_ids] at hle
  omega

/-! ## What edges become -/

/-- Where an edge into a node leads after a pass: to what the node resolves to, if it is a matched
call site. -/
def landing (g : Graph) (i : Nat) : Nat :=
  match g.node? i with
  | some n => if n.isCallSite then (g.target? n).getD i else i
  | none => i

/-- What an edge becomes in a pass. -/
def became (g : Graph) (e : Edge) : Edge := ⟨e.source, g.landing e.target⟩

theorem landing_of_resolves {i j : Nat} (hr : g.Resolves i j) : g.landing i = j := by
  obtain ⟨n, hn, hc, rfl, _⟩ := id hr
  have htarget := (resolves_iff_target? hn hc).mp hr
  simp [landing, node?_eq_some_iff.mpr ⟨hn, rfl⟩, hc, htarget]

theorem landing_of_not_mem_matched {i : Nat} (hi : i ∉ g.matched) : g.landing i = i := by
  unfold landing
  split
  · next n hn =>
    obtain ⟨hmem, rfl⟩ := node?_eq_some_iff.mp hn
    split
    · next hc =>
      -- a call site that resolves to something would be matched
      cases ht : g.target? n with
      | none => rfl
      | some j => exact absurd ((resolves_iff_target? hmem hc).mpr ht).mem_matched hi
    · rfl
  · rfl

end Graph

open Collapsing in
theorem Collapsing.Collapsed.exists_became {g : Graph} {s : Collapsing} (h : Collapsed g s) :
    ∀ e ∈ s.graph.edges, ∃ d ∈ g.edges, g.became d = e := by
  intro e he
  obtain ⟨u, v⟩ := e
  obtain ⟨_, ⟨hkept, hv⟩ | ⟨c, hc, hr⟩⟩ := (h.edges u v).mp he
  · exact ⟨⟨u, v⟩, hkept, by rw [Graph.became, Graph.landing_of_not_mem_matched hv]⟩
  · exact ⟨⟨u, c⟩, hc, by rw [Graph.became, Graph.landing_of_resolves hr]⟩

/-- Every node of a tidy graph is one of the two ends of an edge. -/
theorem CleanGraph.Tidy.nodeCount_le {c : CleanGraph} (h : c.Tidy) :
    c.graph.nodeCount ≤ 2 * c.graph.edgeCount := by
  have hends : c.graph.ids.toFinset ⊆ c.graph.edges.toList.toFinset.image Edge.source ∪
      c.graph.edges.toList.toFinset.image Edge.target := by
    intro i hi
    obtain ⟨e, he, rfl | rfl⟩ := h.joined i (List.mem_toFinset.mp hi)
    · exact Finset.mem_union_left _ (Finset.mem_image_of_mem _ (List.mem_toFinset.mpr he))
    · exact Finset.mem_union_right _ (Finset.mem_image_of_mem _ (List.mem_toFinset.mpr he))
  have hedges : c.graph.edges.toList.toFinset.card = c.graph.edgeCount :=
    List.toFinset_card_of_nodup c.graph.edges.nodup_toList
  have hsources : (c.graph.edges.toList.toFinset.image Edge.source).card ≤ c.graph.edgeCount :=
    hedges ▸ Finset.card_image_le
  have htargets : (c.graph.edges.toList.toFinset.image Edge.target).card ≤ c.graph.edgeCount :=
    hedges ▸ Finset.card_image_le
  have hcard := (Finset.card_le_card hends).trans (Finset.card_union_le _ _)
  rw [Graph.card_toFinset_ids] at hcard
  omega

namespace Graph

/-- Folding conserves call sites and never grows the graph. Each call site is counted once, as
collapsed or as unmatched. The nodes that are left and the call sites that were collapsed are
together no more than the nodes of the graph, the highlighted edges no more than the edges that are
left, these no more than the edges of the graph, and the nodes that are left no more than two for
each edge that is left. -/
theorem fold_conserves_call_sites (g : Graph) : ∃ r, g.fold = .ok r ∧
    r.outcome.collapsed + r.outcome.unmatched = (g.nodes.filter Node.isCallSite).length ∧
    r.clean.graph.nodeCount + r.outcome.collapsed ≤ g.nodeCount ∧
    r.clean.highlighted.size ≤ r.clean.graph.edgeCount ∧
    r.clean.graph.edgeCount ≤ g.edgeCount ∧
    r.clean.graph.nodeCount ≤ 2 * r.clean.graph.edgeCount := by
  obtain ⟨s, r, hr, hcol, hclean, hout⟩ := g.fold_spec
  refine ⟨r, hr, ?_, ?_, ?_, ?_, hclean.tidy.nodeCount_le⟩
  · have hsub := Finset.card_le_card g.matched_subset_callSites
    rw [hout, hcol.collapsed, hcol.unmatched, ← card_callSites,
      Finset.card_sdiff_of_subset g.matched_subset_callSites]
    omega
  · rw [hout, hcol.collapsed]
    refine nodeCount_add_card_matched_le fun n hn => ?_
    exact (hcol.nodes n).mp ((hclean.nodes n).mp hn).1
  · exact EdgeSet.size_le_of_subset hclean.tidy.highlighted
  · refine EdgeSet.size_le_of_onto g.became fun e he => ?_
    exact hcol.exists_became e ((hclean.edges e).mp he).1

end Graph

end CallGraph
