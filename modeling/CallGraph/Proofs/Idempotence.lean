import CallGraph.Proofs.Folding

/-!
Collapsing and folding a second time.

A pass takes out every call site that some declaration fits and makes no node, so in what it leaves
no declaration fits any call site: the graph is `Settled`. Nodes that go later cannot change that,
since fitting is about two nodes that are both there (`Settled.mono`). A settled graph is left as
it is by a pass, and a tidy graph by cleaning, so both are normal forms, and running again what
leads to a normal form does nothing.

What is proved:
1. `Collapsed.settled`, `Collapsed.callSites`: what a pass leaves is settled, and the call sites
   left are those that were never matched.
2. `Collapsed.of_settled`: a pass over a settled graph changes nothing and counts its call sites.
3. `CleanOf.of_tidy`: cleaning a tidy graph changes nothing.
4. Together: collapsing twice is collapsing once, and so is folding.
-/

namespace CallGraph

namespace Graph

variable {g h : Graph}

/-- No call site of the graph has a declaration that fits it. -/
def Settled (g : Graph) : Prop := g.matched = ∅

theorem settled_iff :
    g.Settled ↔ ∀ n ∈ g.nodes, n.isCallSite = true → ∀ d, ¬ g.Fits n d := by
  rw [Settled, Finset.eq_empty_iff_forall_notMem]
  refine ⟨?_, ?_⟩
  · intro hno n hn hc d hd
    exact hno n.id (mem_matched.mpr ⟨n, hn, hc, rfl, d, hd⟩)
  · intro hno i hi
    obtain ⟨n, hn, hc, _, d, hd⟩ := mem_matched.mp hi
    exact hno n hn hc d hd

theorem Settled.mono (hg : g.Settled) (hsub : ∀ n ∈ h.nodes, n ∈ g.nodes) : h.Settled := by
  rw [settled_iff] at *
  intro n hn hc d hd
  exact hg n (hsub n hn) hc d ⟨hsub d hd.present, hd.declares, hd.name, hd.labels⟩

theorem Settled.not_resolves (hg : g.Settled) {i j : Nat} : ¬ g.Resolves i j := by
  intro hr
  have hm := hr.mem_matched
  rw [hg] at hm
  exact Finset.notMem_empty i hm

end Graph

/-! ## A pass over what a pass has left -/

namespace Collapsing

variable {g : Graph} {s : Collapsing}

/-- A call site that stays was not matched, and the declarations after the pass are declarations
from before it, so no match can appear. -/
theorem Collapsed.settled (h : Collapsed g s) : s.graph.Settled := by
  rw [Graph.settled_iff]
  intro n hn hc d hd
  obtain ⟨hng, hout⟩ := (h.nodes n).mp hn
  have hdg : d ∈ g.nodes := ((h.nodes d).mp hd.present).1
  exact hout (Graph.mem_matched.mpr ⟨n, hng, hc, rfl, d, hdg, hd.declares, hd.name, hd.labels⟩)

theorem Collapsed.callSites (h : Collapsed g s) : s.graph.callSites = g.callSites \ g.matched := by
  ext i
  rw [Finset.mem_sdiff, Graph.mem_callSites, Graph.mem_callSites]
  refine ⟨?_, ?_⟩
  · intro hx
    obtain ⟨n, hn, hc, rfl⟩ := hx
    obtain ⟨hng, hout⟩ := (h.nodes n).mp hn
    exact ⟨⟨n, hng, hc, rfl⟩, hout⟩
  · intro hx
    obtain ⟨⟨n, hng, hc, rfl⟩, hout⟩ := hx
    exact ⟨n, (h.nodes n).mpr ⟨hng, hout⟩, hc, rfl⟩

/-- A pass over a settled graph changes nothing: every call site is only counted. -/
theorem Collapsed.of_settled (h : Collapsed g s) (hg : g.Settled) :
    s.graph = g ∧ s.outcome.highlighted = {} ∧ s.outcome.collapsed = 0 ∧
      s.outcome.unmatched = g.callSites.card := by
  have hm : g.matched = ∅ := hg
  have hnone : ∀ u v, ¬ ∃ c, ⟨u, c⟩ ∈ g.edges ∧ g.Resolves c v := by
    intro u v hx
    obtain ⟨c, _, hr⟩ := hx
    exact hg.not_resolves hr
  refine ⟨?_, ?_, ?_, ?_⟩
  · apply Graph.ext_views
    · intro n
      simp [h.nodes, hm]
    · intro e
      obtain ⟨u, v⟩ := e
      simp [h.edges, hm, hnone u v]
    · exact h.next
  · apply EdgeSet.ext
    intro e
    obtain ⟨u, v⟩ := e
    simp only [h.highlighted, hnone u v, and_false, false_iff]
    exact List.not_mem_nil
  · rw [h.collapsed, hm, Finset.card_empty]
  · rw [h.unmatched, hm, Finset.sdiff_empty]

end Collapsing

/-! ## Cleaning what is clean -/

namespace Graph

open Collapsing

variable {g h : Graph} {highlighted : EdgeSet} {c c' : CleanGraph}

/-- Cleaning a tidy graph keeps every edge, as none is a loop, and so every node. -/
theorem CleanOf.of_tidy (hc : c.graph.CleanOf highlighted c') (ht : c.Tidy) :
    c'.graph = c.graph := by
  have hproper : ∀ e, c.graph.Proper e ↔ e ∈ c.graph.edges :=
    fun e => ⟨And.left, fun he => ⟨he, ht.distinct e he⟩⟩
  apply Graph.ext_views
  · intro n
    rw [hc.nodes]
    refine ⟨And.left, fun hn => ⟨hn, ?_⟩⟩
    obtain ⟨e, he, hend⟩ := ht.joined n.id (id_mem_ids hn)
    exact ⟨e, (hproper e).mpr he, hend⟩
  · intro e
    rw [hc.edges, hproper]
  · exact hc.next

theorem CleanOf.settled {s : Collapsing} (hs : Collapsed g s)
    (hc : s.graph.CleanOf highlighted c) : c.graph.Settled :=
  hs.settled.mono fun n hn => ((hc.nodes n).mp hn).1

/-- Collapsing twice is collapsing once, and folding twice is folding once. A pass leaves a graph in
which no declaration fits a call site; a second pass over it succeeds, keeps every node and edge,
highlights and collapses nothing, and counts as unmatched the call sites that the first one did.
Folding leaves a graph that is moreover tidy; folding it again succeeds, gives the same graph, and
collapses and highlights nothing. -/
theorem collapse_fold_idempotent (g : Graph) :
    (∃ s t, g.collapse = .ok s ∧ s.graph.collapse = .ok t ∧ s.graph.Settled ∧
      t.graph = s.graph ∧ t.outcome.collapsed = 0 ∧ t.outcome.highlighted = {} ∧
      t.outcome.unmatched = s.outcome.unmatched) ∧
    (∃ r r', g.fold = .ok r ∧ r.clean.graph.fold = .ok r' ∧ r.clean.graph.Settled ∧
      r.clean.Tidy ∧ r'.clean.graph = r.clean.graph ∧ r'.outcome.collapsed = 0 ∧
      r'.clean.highlighted = {}) := by
  refine ⟨?_, ?_⟩
  · obtain ⟨s, hs, hcol⟩ := g.collapse_spec
    obtain ⟨t, ht, hcol'⟩ := s.graph.collapse_spec
    obtain ⟨hgraph, hhigh, hzero, hun⟩ := hcol'.of_settled hcol.settled
    refine ⟨s, t, hs, ht, hcol.settled, hgraph, hzero, hhigh, ?_⟩
    rw [hun, hcol.callSites, hcol.unmatched]
  · obtain ⟨s, r, hr, hcol, hclean, _⟩ := g.fold_spec
    obtain ⟨t, r', hr', hcol', hclean', hout⟩ := r.clean.graph.fold_spec
    have hsettled := CleanOf.settled hcol hclean
    obtain ⟨hgraph, hhigh, hzero, _⟩ := hcol'.of_settled hsettled
    rw [hgraph, hhigh] at hclean'
    refine ⟨r, r', hr, hr', hsettled, hclean.tidy, hclean'.of_tidy hclean.tidy, ?_, ?_⟩
    · rw [hout, hzero]
    · apply EdgeSet.ext
      intro e
      rw [hclean'.highlighted]
      refine ⟨And.left, fun he => absurd he List.not_mem_nil⟩

end Graph

end CallGraph
