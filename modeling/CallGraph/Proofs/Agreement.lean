import CallGraph.Proofs.History

/-!
The observations of a graph agree with each other.

A graph can be asked for its nodes, for its edges, and for what lies around a node, and each question
reads slots and index on a path of its own. `View.Agrees` says how the answers fit together.

What is proved:
1. `Graph.view_agrees`: the answers of a graph fit together.
2. `views_agree`: so do those of every graph that calls make, also in slots that are used again, where
   the index leads to each slot that holds a node once, and from the id of that node.
-/

namespace CallGraph

/-- What is observed is one graph. -/
structure View.Agrees (v : View) : Prop where
  ids_ascend : v.ids.Pairwise (· < ·)
  ids_eq : v.ids = v.nodes.map Node.id
  ids_length : v.ids.length = v.nodeCount
  hasNode : ∀ i, v.hasNode i = true ↔ i ∈ v.ids
  /-- Edges ascend by source and then target, and are as many as are counted. -/
  edges : ∃ es, v.edges = some es ∧ es.Pairwise (· < ·) ∧ es.length = v.edgeCount ∧
    ∀ a b, ⟨a, b⟩ ∈ es ↔ v.hasEdge a b = true
  ends : ∀ a b, v.hasEdge a b = true → v.hasNode a = true ∧ v.hasNode b = true
  sources : ∀ a b, v.hasEdge a b = true ↔
    v.hasNode b = true ∧ ∃ l, v.incoming b = some (.ok l) ∧ a ∈ l
  targets : ∀ a b, v.hasEdge a b = true ↔
    v.hasNode a = true ∧ ∃ l, v.outgoing a = some (.ok l) ∧ b ∈ l
  present : ∀ i, v.hasNode i = true →
    (∃ l, v.incoming i = some (.ok l) ∧ l.Pairwise (· < ·)) ∧
    ∃ l, v.outgoing i = some (.ok l) ∧ l.Pairwise (· < ·)
  missing : ∀ i, v.hasNode i = false →
    v.incoming i = some (.error (.notFound i)) ∧ v.outgoing i = some (.error (.notFound i))
  /-- The edges asked about need not be those of the graph. -/
  incidentTo : ∀ es, (v.incidentTo es).Pairwise (· < ·) ∧ ∀ i, i ∈ v.incidentTo es ↔
    v.hasNode i = true ∧ ∃ e ∈ es, e.source = i ∨ e.target = i

namespace Graph

variable {g : Graph} {i : Nat}

theorem outgoing_of_mem (hi : i ∈ g.ids) : g.outgoing i = .ok (g.callees i) := by
  simp [outgoing, hasNode, hi]

theorem hasEdge_iff_incoming {a b : Nat} :
    g.hasEdge a b = true ↔ g.hasNode b = true ∧ ∃ l, some (g.incoming b) = some (.ok l) ∧ a ∈ l := by
  rw [hasEdge_iff, hasNode_iff]
  refine ⟨?_, ?_⟩
  · intro he
    have hb := target_mem_ids he
    exact ⟨hb, g.callers b, by rw [incoming_of_mem hb], mem_callers.mpr he⟩
  · intro hx
    obtain ⟨hb, l, hl, ha⟩ := hx
    rw [incoming_of_mem hb, Option.some.injEq, Except.ok.injEq] at hl
    exact mem_callers.mp (hl ▸ ha)

theorem hasEdge_iff_outgoing {a b : Nat} :
    g.hasEdge a b = true ↔ g.hasNode a = true ∧ ∃ l, some (g.outgoing a) = some (.ok l) ∧ b ∈ l := by
  rw [hasEdge_iff, hasNode_iff]
  refine ⟨?_, ?_⟩
  · intro he
    have ha := source_mem_ids he
    exact ⟨ha, g.callees a, by rw [outgoing_of_mem ha], mem_callees.mpr he⟩
  · intro hx
    obtain ⟨ha, l, hl, hb⟩ := hx
    rw [outgoing_of_mem ha, Option.some.injEq, Except.ok.injEq] at hl
    exact mem_callees.mp (hl ▸ hb)

theorem view_agrees (g : Graph) : g.view.Agrees where
  ids_ascend := g.ids_ascend
  ids_eq := rfl
  ids_length := List.length_map _
  hasNode _ := hasNode_iff
  edges := ⟨g.edges.toList, rfl, g.edges.sorted, rfl, fun _ _ => hasEdge_iff.symm⟩
  ends a b h := by
    have he := hasEdge_iff.mp h
    exact ⟨hasNode_iff.mpr (source_mem_ids he), hasNode_iff.mpr (target_mem_ids he)⟩
  sources _ _ := hasEdge_iff_incoming
  targets _ _ := hasEdge_iff_outgoing
  present i h := by
    have hi := hasNode_iff.mp h
    exact ⟨⟨g.callers i, congrArg some (incoming_of_mem hi), g.callers_ascend i⟩,
      g.callees i, congrArg some (outgoing_of_mem hi), g.callees_ascend i⟩
  missing i h := by
    have hno : i ∉ g.ids := hasNode_eq_false_iff.mp h
    simp [view, incoming, outgoing, hno]
  incidentTo es := by
    refine ⟨g.ids_ascend.sublist List.filter_sublist, ?_⟩
    intro i
    refine Iff.trans mem_incidentTo ?_
    simp [view, Edge.touches]

end Graph

/-- In every graph that calls make all observations agree. In slots, the index leads from different
ids to different slots, to those slots that hold a node, and from the id of that node. -/
theorem views_agree (calls : List Call) :
    (Graph.empty.replay calls).1.view.Agrees ∧
    ∀ (S : SlotGraph) (x : Indexed S) (t : List (Call × Reply)), S.Documented →
      (Indexed.empty S).replay calls = some (x, t) →
      x.view.Agrees ∧ x.view = (Graph.empty.replay calls).1.view ∧
      (∀ i j slot, x.index.get? i = some slot → x.index.get? j = some slot → i = j) ∧
      (∀ slot, (∃ i, x.index.get? i = some slot) ↔ ∃ n, S.node? x.inner slot = some n) ∧
      ∀ i slot n, x.index.get? i = some slot → S.node? x.inner slot = some n → n.id = i := by
  refine ⟨Graph.view_agrees _, ?_⟩
  intro S x t hS hx
  obtain ⟨hrep, _⟩ := Indexed.represents_replay hS hx
  have hview := hrep.view_eq hS
  refine ⟨hview ▸ Graph.view_agrees _, hview, fun i j slot => hrep.index_inj, ?_, ?_⟩
  · intro slot
    simp only [hrep.index, Indexed.idAt_eq_some_iff]
    exact ⟨fun ⟨_, n, hn, _⟩ => ⟨n, hn⟩, fun ⟨n, hn⟩ => ⟨n.id, n, hn, rfl⟩⟩
  · intro i slot n hi hn
    obtain ⟨m, hm, hid⟩ := Indexed.idAt_eq_some_iff.mp ((hrep.index i slot).mp hi)
    obtain rfl := Option.some.inj (hm.symm.trans hn)
    exact hid

/-- The slot of the node that was taken out is found from the id of the node that took it. -/
theorem views_agree_reuse :
    ∃ x t, (Indexed.empty slotGraph).replay Indexed.reuse = some (x, t) ∧ x.view.Agrees ∧
      x.edges = some [⟨0, 2⟩] ∧ x.index.get? 2 = some 1 ∧
      ∃ n, slotGraph.node? x.inner 1 = some n ∧ n.id = 2 := by
  obtain ⟨x, hx⟩ :=
    Indexed.exists_replay slotGraph_documented Indexed.reuse (by decide) (by decide)
  obtain ⟨hagree, hview, _, honto, hown⟩ :=
    (views_agree Indexed.reuse).2 slotGraph x _ slotGraph_documented hx
  have hedges : x.edges = (Graph.empty.replay Indexed.reuse).1.view.edges :=
    congrArg View.edges hview
  have hindex : ((Indexed.empty slotGraph).replay Indexed.reuse).map (fun p => p.1.index.get? 2) =
      some (some 1) := by decide
  rw [hx] at hindex
  have htwo : x.index.get? 2 = some 1 := Option.some.inj hindex
  obtain ⟨n, hn⟩ := (honto 1).mp ⟨2, htwo⟩
  exact ⟨x, _, hx, hagree, hedges.trans (by decide), htwo, n, hn, hown 2 1 n htwo hn⟩

end CallGraph
