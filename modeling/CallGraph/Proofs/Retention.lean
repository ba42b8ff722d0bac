import CallGraph.Proofs.Forest

/-!
What folding the graph of some sources leaves out.

Collapsing takes out the matched call sites, and cleaning takes out loops and the nodes without an
edge. On a forest of sources the second part is harmless. An edge goes to a later node, so none is a
loop, and a node that is no file keeps the edge from its owner, which is no call site. A file keeps
an edge if it owns anything: what it owns stays, or is a matched call site, and then the file has an
edge to the declaration. So apart from matched call sites only files that own nothing disappear.
-/

namespace CallGraph

namespace Graph

variable {g h : Graph} {u v c : Nat}

theorem mem_callees {i : Nat} : v ∈ g.callees i ↔ ⟨i, v⟩ ∈ g.edges := by
  simp only [callees, List.mem_map, List.mem_filter, beq_iff_eq]
  constructor
  · rintro ⟨⟨s, t⟩, ⟨he, rfl⟩, rfl⟩
    exact he
  · intro he
    exact ⟨⟨i, v⟩, ⟨he, rfl⟩, rfl⟩

/-- Whether the node is that of a file that owns nothing. -/
def isBareFile (g : Graph) (n : Node) : Bool := n.kind == .file && (g.callees n.id).isEmpty

theorem isBareFile_iff {n : Node} :
    g.isBareFile n = true ↔ n.kind = .file ∧ ∀ v, ⟨n.id, v⟩ ∉ g.edges := by
  rw [isBareFile, Bool.and_eq_true, beq_iff_eq, List.isEmpty_iff, List.eq_nil_iff_forall_not_mem]
  simp only [mem_callees]

theorem countP_neither {α : Type} {p q : α → Bool} {l : List α}
    (h : ∀ x ∈ l, ¬ (p x = true ∧ q x = true)) :
    l.countP (fun x => !p x && !q x) + l.countP p + l.countP q = l.length := by
  induction l with
  | nil => rfl
  | cons x l ih =>
    rw [List.forall_mem_cons] at h
    have hrest := ih h.2
    have hx := h.1
    simp only [List.countP_cons, List.length_cons]
    cases hp : p x <;> cases hq : q x <;> simp [hp, hq] at hx ⊢ <;> omega

/-- Nodes that are the nodes of another graph under a test can be counted there. -/
theorem nodeCount_eq_countP {p : Node → Bool}
    (hn : ∀ n, n ∈ h.nodes ↔ n ∈ g.nodes ∧ p n = true) : h.nodeCount = g.nodes.countP p := by
  have hperm : h.nodes.Perm (g.nodes.filter p) := by
    rw [List.perm_ext_iff_of_nodup h.nodup_ids.of_map (g.nodup_ids.of_map.filter _)]
    intro n
    rw [hn, List.mem_filter]
  rw [nodeCount, hperm.length_eq, List.countP_eq_length_filter]

theorem countP_matched (g : Graph) :
    g.nodes.countP (fun n => decide (n.id ∈ g.matched)) = g.matched.card := by
  have hnodup : ((g.nodes.filter (fun n => decide (n.id ∈ g.matched))).map Node.id).Nodup :=
    g.nodup_ids.sublist (List.filter_sublist.map Node.id)
  rw [List.countP_eq_length_filter, ← List.length_map Node.id,
    ← List.toFinset_card_of_nodup hnodup]
  congr 1
  ext i
  simp only [List.mem_toFinset, List.mem_map, List.mem_filter, decide_eq_true_eq]
  constructor
  · rintro ⟨n, ⟨-, hm⟩, rfl⟩
    exact hm
  · intro hi
    obtain ⟨n, hn, -, rfl, -⟩ := mem_matched.mp hi
    exact ⟨n, ⟨hn, hi⟩, rfl⟩

theorem Resolves.isDeclaration {n : Node} (hr : g.Resolves c n.id) (hn : n ∈ g.nodes) :
    n.isDeclaration = true := by
  obtain ⟨_, _, _, _, d, hd, hid⟩ := hr
  rw [← eq_of_id_eq hd.fits.present hn hid]
  exact hd.fits.declares

theorem Resolves.target_ne_file {n : Node} (hr : g.Resolves c v) (hn : n ∈ g.nodes)
    (hk : n.kind = .file) : v ≠ n.id := by
  rintro rfl
  have := hr.isDeclaration hn
  simp [Node.isDeclaration, Node.role, hk, NodeKind.role] at this

end Graph

namespace Source.Forest

open CallGraph.Graph Collapsing

variable {files : List SourceFile} {g : Graph} {start : Nat → Nat} {s : Collapsing} {r : Folded}
  {u v : Nat}

/-! ## Edges of the forest -/

theorem edge_lt (h : Forest files g start) (he : ⟨u, v⟩ ∈ g.edges) : u < v := by
  obtain ⟨n, hn, rfl⟩ := Graph.mem_ids.mp (target_mem_ids he)
  by_cases hk : n.kind = .file
  · obtain ⟨k, hk, hid⟩ := (h.kind n hn).mp hk
    rw [hid] at he
    exact absurd he (h.root k hk u)
  · obtain ⟨m, -, hu, hlt, -⟩ := h.owner n hn hk
    rw [(hu u).mp he]
    exact hlt

theorem source_notMem_matched (h : Forest files g start) (he : ⟨u, v⟩ ∈ g.edges) :
    u ∉ g.matched :=
  fun hm => h.leaves _ he (g.matched_subset_callSites hm)

/-! ## Edges after collapsing -/

/-- A loop in the collapsed graph is a recursive call. -/
theorem proper_iff (h : Forest files g start) (hs : Collapsed g s) :
    s.graph.Proper ⟨u, v⟩ ↔ (⟨u, v⟩ ∈ g.edges ∧ v ∉ g.matched) ∨
      (u ≠ v ∧ ∃ c, ⟨u, c⟩ ∈ g.edges ∧ g.Resolves c v) := by
  rw [Proper, hs.edges]
  constructor
  · rintro ⟨⟨-, hkept | hnew⟩, hne⟩
    · exact Or.inl hkept
    · exact Or.inr ⟨hne, hnew⟩
  · rintro (⟨he, hv⟩ | ⟨hne, c, he, hr⟩)
    · exact ⟨⟨h.source_notMem_matched he, Or.inl ⟨he, hv⟩⟩, Nat.ne_of_lt (h.edge_lt he)⟩
    · exact ⟨⟨h.source_notMem_matched he, Or.inr ⟨c, he, hr⟩⟩, hne⟩

/-- A node that is not matched has an edge after collapsing, unless it is a file that owns
nothing. -/
theorem touched_iff (h : Forest files g start) (hs : Collapsed g s) {n : Node} (hn : n ∈ g.nodes)
    (hm : n.id ∉ g.matched) :
    (∃ e, s.graph.Proper e ∧ (e.source = n.id ∨ e.target = n.id)) ↔ g.isBareFile n = false := by
  rw [← Bool.not_eq_true, isBareFile_iff]
  constructor
  · rintro ⟨⟨u, v⟩, he, hend⟩ ⟨hk, hbare⟩
    obtain ⟨k, hklt, hid⟩ := (h.kind n hn).mp hk
    rcases (h.proper_iff hs).mp he with ⟨he, -⟩ | ⟨-, c, he, hr⟩
    · rcases hend with rfl | rfl
      · exact hbare _ he
      · rw [hid] at he
        exact h.root k hklt _ he
    · rcases hend with rfl | hv
      · exact hbare _ he
      · exact hr.target_ne_file hn hk hv
  · intro hbare
    by_cases hk : n.kind = .file
    · -- something that the file owns keeps an edge for it
      obtain ⟨v, he⟩ : ∃ v, ⟨n.id, v⟩ ∈ g.edges := by
        by_contra hnone
        exact hbare ⟨hk, not_exists.mp hnone⟩
      by_cases hv : v ∈ g.matched
      · obtain ⟨w, hr⟩ := mem_matched_iff_resolves.mp hv
        refine ⟨⟨n.id, w⟩, (h.proper_iff hs).mpr (Or.inr ⟨?_, v, he, hr⟩), Or.inl rfl⟩
        exact (hr.target_ne_file hn hk).symm
      · exact ⟨⟨n.id, v⟩, (h.proper_iff hs).mpr (Or.inl ⟨he, hv⟩), Or.inl rfl⟩
    · obtain ⟨m, -, hu, -⟩ := h.owner n hn hk
      have he : ⟨m.id, n.id⟩ ∈ g.edges := (hu m.id).mpr rfl
      exact ⟨⟨m.id, n.id⟩, (h.proper_iff hs).mpr (Or.inl ⟨he, hm⟩), Or.inr rfl⟩

/-! ## The folded graph -/

theorem mem_nodes_fold (h : Forest files g start) (hs : Collapsed g s)
    (hc : s.graph.CleanOf s.outcome.highlighted r.clean) (n : Node) :
    n ∈ r.clean.graph.nodes ↔ n ∈ g.nodes ∧ n.id ∉ g.matched ∧ g.isBareFile n = false := by
  rw [hc.nodes, hs.nodes, and_assoc]
  constructor
  · rintro ⟨hn, hm, ht⟩
    exact ⟨hn, hm, (h.touched_iff hs hn hm).mp ht⟩
  · rintro ⟨hn, hm, hb⟩
    exact ⟨hn, hm, (h.touched_iff hs hn hm).mpr hb⟩

theorem mem_highlighted_fold (h : Forest files g start) (hs : Collapsed g s)
    (hc : s.graph.CleanOf s.outcome.highlighted r.clean) :
    ⟨u, v⟩ ∈ r.clean.highlighted ↔ u ≠ v ∧ ∃ c, ⟨u, c⟩ ∈ g.edges ∧ g.Resolves c v := by
  rw [hc.highlighted, hs.highlighted, h.proper_iff hs]
  constructor
  · rintro ⟨⟨-, c, he, hr⟩, ⟨he', -⟩ | hnew⟩
    · exact ⟨Nat.ne_of_lt (h.edge_lt he'), c, he, hr⟩
    · exact hnew
  · rintro ⟨hne, c, he, hr⟩
    exact ⟨⟨h.source_notMem_matched he, c, he, hr⟩, Or.inr ⟨hne, c, he, hr⟩⟩

theorem nodeCount_fold (h : Forest files g start) (hs : Collapsed g s)
    (hc : s.graph.CleanOf s.outcome.highlighted r.clean) :
    r.clean.graph.nodeCount + g.matched.card + g.nodes.countP g.isBareFile = g.nodeCount := by
  have hkept : r.clean.graph.nodeCount =
      g.nodes.countP (fun n => !decide (n.id ∈ g.matched) && !g.isBareFile n) :=
    nodeCount_eq_countP (fun n => by rw [h.mem_nodes_fold hs hc]; simp)
  have hdisjoint : ∀ n ∈ g.nodes, ¬ (decide (n.id ∈ g.matched) = true ∧ g.isBareFile n = true) := by
    rintro n hn ⟨hm, hb⟩
    -- a matched node is a call site, and no file
    have hcall := (id_mem_callSites hn).mp (g.matched_subset_callSites (of_decide_eq_true hm))
    simp [Node.isCallSite, Node.role, (isBareFile_iff.mp hb).1, NodeKind.role] at hcall
  rw [hkept, ← countP_matched]
  exact countP_neither hdisjoint

end Source.Forest

namespace Source

/-- Folding the graph of some sources never fails, and keeps all but resolved calls, whatever trees a
parser makes of their texts. Every node stays that is no matched call site and no file that owns
nothing. The edges are those of the raw graph whose targets are no matched call sites, and the
highlighted ones: for each matched call site the edge from its owner to what it resolves to, unless
these are the same. So the number of nodes goes down by the number of collapsed call sites and of
files that own nothing. -/
theorem fold_drops_only_resolved_calls (parse : String → Tree) (strict : Bool)
    (files : List SourceFile) (g : Graph) (h : (extractWith parse strict files).result = .ok g) :
    ∃ r, g.fold = .ok r ∧
      (∀ n, n ∈ r.clean.graph.nodes ↔
        n ∈ g.nodes ∧ n.id ∉ g.matched ∧ ¬ (n.kind = .file ∧ ∀ v, ⟨n.id, v⟩ ∉ g.edges)) ∧
      (∀ u v, ⟨u, v⟩ ∈ r.clean.graph.edges ↔
        ⟨u, v⟩ ∈ g.edges ∧ v ∉ g.matched ∨ ⟨u, v⟩ ∈ r.clean.highlighted) ∧
      (∀ u v, ⟨u, v⟩ ∈ r.clean.highlighted ↔
        ∃ c ∈ g.matched, ⟨u, c⟩ ∈ g.edges ∧ g.Resolves c v ∧ u ≠ v) ∧
      r.clean.graph.nodeCount + r.outcome.collapsed + g.nodes.countP g.isBareFile = g.nodeCount ∧
      r.outcome.collapsed = g.matched.card := by
  obtain ⟨start, hf⟩ := forest_of_extractWith h
  obtain ⟨s, r, hr, hs, hc, ho⟩ := g.fold_spec
  have hcollapsed : r.outcome.collapsed = g.matched.card := by rw [ho, hs.collapsed]
  refine ⟨r, hr, ?_, ?_, ?_, ?_, hcollapsed⟩
  · intro n
    rw [hf.mem_nodes_fold hs hc, ← Bool.not_eq_true, Graph.isBareFile_iff]
  · intro u v
    rw [hc.edges, hf.proper_iff hs, hf.mem_highlighted_fold hs hc]
  · intro u v
    rw [hf.mem_highlighted_fold hs hc]
    constructor
    · rintro ⟨hne, c, he, hres⟩
      exact ⟨c, hres.mem_matched, he, hres, hne⟩
    · rintro ⟨c, -, he, hres, hne⟩
      exact ⟨hne, c, he, hres⟩
  · rw [hcollapsed]
    exact hf.nodeCount_fold hs hc

/-- A function that calls another one and itself, and a file without items. -/
def recursiveCalls : List SourceFile :=
  [⟨⟨"a.rs"⟩, "fn f() \x7b g(); f() \x7d fn g() \x7b\x7d"⟩, ⟨⟨"b.rs"⟩, ""⟩]

theorem fold_drops_only_resolved_calls_recursiveCalls :
    ∃ g r, (extract true recursiveCalls).result = .ok g ∧ g.fold = .ok r ∧ g.nodeCount = 6 ∧
      r.outcome.collapsed = 2 ∧ r.clean.graph.nodeCount = 3 ∧
      (∀ e, e ∈ r.clean.highlighted → e.source ≠ e.target) := by
  have hrun : (extract true recursiveCalls).result.toOption.map (fun g =>
      (g.nodeCount, g.nodes.countP g.isBareFile, g.matched.card)) = some (6, 1, 2) := by
    decide +kernel
  cases hx : (extract true recursiveCalls).result with
  | error e => simp [hx, Except.toOption] at hrun
  | ok g =>
    simp only [hx, Except.toOption, Option.map_some, Option.some.injEq, Prod.mk.injEq] at hrun
    obtain ⟨r, hr, -, -, hhigh, hcount, hcol⟩ :=
      fold_drops_only_resolved_calls parse true recursiveCalls g hx
    refine ⟨g, r, rfl, hr, hrun.1, by omega, by omega, ?_⟩
    rintro ⟨u, v⟩ he
    obtain ⟨c, -, -, -, hne⟩ := (hhigh u v).mp he
    exact hne

end Source

end CallGraph
