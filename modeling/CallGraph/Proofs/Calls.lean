import CallGraph.Interface
import CallGraph.Proofs.Extraction

/-!
What calls do to a graph.

`Answer g c p` lists the cases of a call: what it finds, the graph it leaves and what it replies. Every
other statement about a call goes through these cases.

Main statements:
1. `Answer.eq` and `answer`: the cases are those of `call`.
2. `mem_nodes_call` and `mem_edges_call`: the nodes and the edges after a call, by those before it, the
   call and its reply.
3. `call_unchanged` and `changed_iff`: a reply reports a change exactly if there is one to observe.
4. `nodeCount_replay_le` and `edgeCount_replay_le`: some calls leave at most as many nodes, and edges,
   as they add.
-/

namespace CallGraph

/-- The call adds this node, and the reply gives it this id. -/
def Issues (n : Node) (id : Nat) (e : Call × Reply) : Prop := e = (.addNode n, .issued id)

/-- The call adds this edge, or finds it present, and does not fail. -/
def Links (source target : Nat) (e : Call × Reply) : Prop :=
  e.1 = .addEdge source target ∧ ∃ new, e.2 = .flag new

/-- The call takes this edge out, or one of its ends. -/
def Cuts (source target : Nat) (e : Call × Reply) : Prop :=
  e.1 = .removeEdge source target ∨ e.1 = .removeNode source ∨ e.1 = .removeNode target

namespace Graph

variable {g : Graph} {c : Call} {p : Graph × Reply} {u v i : Nat}

@[simp] theorem hasEdge_iff : g.hasEdge u v = true ↔ ⟨u, v⟩ ∈ g.edges := decide_eq_true_iff

@[simp] theorem hasEdge_eq_false_iff : g.hasEdge u v = false ↔ ⟨u, v⟩ ∉ g.edges :=
  decide_eq_false_iff_not

@[simp] theorem hasNode_iff : g.hasNode i = true ↔ i ∈ g.ids := decide_eq_true_iff

@[simp] theorem hasNode_eq_false_iff : g.hasNode i = false ↔ i ∉ g.ids := decide_eq_false_iff_not

theorem node?_of_notMem (hi : i ∉ g.ids) : g.node? i = none := by
  rw [Option.eq_none_iff_forall_ne_some]
  intro n hn
  obtain ⟨hmem, rfl⟩ := node?_eq_some_iff.mp hn
  exact hi (id_mem_ids hmem)

theorem getNode_of_notMem (hi : i ∉ g.ids) : g.getNode i = .error (.notFound i) := by
  simp [getNode, node?_of_notMem hi]

theorem link_of_mem {e : Edge} (hs : e.source ∈ g.ids) (ht : e.target ∈ g.ids) (he : e ∈ g.edges) :
    g.link e hs ht = g := by
  apply ext_views
  · intro n
    rfl
  · intro d
    rw [mem_edges_link]
    exact ⟨fun hd => hd.elim (fun hd => hd ▸ he) id, Or.inr⟩
  · rfl

theorem removeEdge_of_notMem (he : ⟨u, v⟩ ∉ g.edges) : (g.removeEdge u v).1 = g := by
  apply ext_views
  · intro n
    rfl
  · intro d
    rw [removeEdge, mem_edges_filterEdges, decide_eq_true_iff]
    exact ⟨And.left, fun hd => ⟨hd, fun hne => he (hne ▸ hd)⟩⟩
  · rfl

/-! ## The cases of a call -/

/-- What a call finds, and the graph and the reply that follow. -/
inductive Answer (g : Graph) : Call → Graph × Reply → Prop where
  | node (n : Node) : Answer g (.addNode n) (g.addNode n, .issued g.next)
  | newEdge {u v : Nat} (hu : u ∈ g.ids) (hv : v ∈ g.ids) (he : ⟨u, v⟩ ∉ g.edges) :
    Answer g (.addEdge u v) (g.link ⟨u, v⟩ hu hv, .flag true)
  | oldEdge {u v : Nat} (he : ⟨u, v⟩ ∈ g.edges) : Answer g (.addEdge u v) (g, .flag false)
  | noSource {u : Nat} (v : Nat) (hu : u ∉ g.ids) :
    Answer g (.addEdge u v) (g, .failed (.notFound u))
  | noTarget {u v : Nat} (hu : u ∈ g.ids) (hv : v ∉ g.ids) :
    Answer g (.addEdge u v) (g, .failed (.notFound v))
  | cut {u v : Nat} (he : ⟨u, v⟩ ∈ g.edges) :
    Answer g (.removeEdge u v) ((g.removeEdge u v).1, .flag true)
  | noEdge {u v : Nat} (he : ⟨u, v⟩ ∉ g.edges) : Answer g (.removeEdge u v) (g, .flag false)
  | taken {n : Node} (hn : n ∈ g.nodes) :
    Answer g (.removeNode n.id) (g.restrict (fun i => i != n.id), .removed n)
  | noNode {i : Nat} (hi : i ∉ g.ids) : Answer g (.removeNode i) (g, .failed (.notFound i))

theorem Answer.eq (h : Answer g c p) : g.call c = p := by
  cases h with
  | node n => rfl
  | newEdge hu hv he => simp [call, addEdge_of_mem hu hv, he]
  | oldEdge he =>
    have hs := source_mem_ids he
    have ht := target_mem_ids he
    simp [call, addEdge_of_mem hs ht, he, link_of_mem hs ht he]
  | noSource v hu => simp [call, addEdge, hu]
  | noTarget hu hv => simp [call, addEdge, hu, hv]
  | cut he => simp [call, removeEdge, he]
  | noEdge he => exact Prod.ext (removeEdge_of_notMem he) (by simp [call, removeEdge, he])
  | taken hn => simp [call, removeNode_of_mem hn]
  | noNode hi => simp [call, removeNode, node?_of_notMem hi]

theorem exists_answer (g : Graph) (c : Call) : ∃ p, Answer g c p := by
  cases c with
  | addNode n => exact ⟨_, .node n⟩
  | addEdge u v =>
    by_cases hu : u ∈ g.ids
    · by_cases hv : v ∈ g.ids
      · by_cases he : ⟨u, v⟩ ∈ g.edges
        · exact ⟨_, .oldEdge he⟩
        · exact ⟨_, .newEdge hu hv he⟩
      · exact ⟨_, .noTarget hu hv⟩
    · exact ⟨_, .noSource v hu⟩
  | removeEdge u v =>
    by_cases he : ⟨u, v⟩ ∈ g.edges
    · exact ⟨_, .cut he⟩
    · exact ⟨_, .noEdge he⟩
  | removeNode i =>
    by_cases hi : i ∈ g.ids
    · obtain ⟨n, hn, rfl⟩ := mem_ids.mp hi
      exact ⟨_, .taken hn⟩
    · exact ⟨_, .noNode hi⟩

theorem answer (g : Graph) (c : Call) : Answer g c (g.call c) := by
  obtain ⟨p, h⟩ := g.exists_answer c
  exact h.eq ▸ h

/-! ## Nodes and edges after a call -/

theorem mem_nodes_addNode {m n : Node} :
    m ∈ (g.addNode n).nodes ↔ m = { n with id := g.next } ∨ m ∈ g.nodes := by
  simp only [addNode, List.mem_append, List.mem_singleton]
  exact Or.comm

/-- A node is there after a call if the call adds it, or it was there and the call does not take it
out. -/
theorem mem_nodes_call {m : Node} (c : Call) :
    m ∈ (g.call c).1.nodes ↔
      (∃ n, Issues n m.id (c, (g.call c).2) ∧ m = { n with id := m.id }) ∨
      (m ∈ g.nodes ∧ c ≠ .removeNode m.id) := by
  have h := g.answer c
  generalize g.call c = p at h ⊢
  cases h with
  | node n =>
    simp only [mem_nodes_addNode, Issues, Prod.mk.injEq, Call.addNode.injEq, Reply.issued.injEq,
      ne_eq, reduceCtorEq, not_false_eq_true, and_true]
    refine or_congr_left ⟨?_, ?_⟩
    · intro heq
      subst heq
      exact ⟨n, ⟨rfl, rfl⟩, rfl⟩
    · intro hx
      obtain ⟨n', ⟨rfl, hid⟩, hm⟩ := hx
      rw [hm, hid]
  | newEdge hu hv he => simp [link, Issues]
  | oldEdge he => simp [Issues]
  | noSource v hu => simp [Issues]
  | noTarget hu hv => simp [Issues]
  | cut he => simp [removeEdge, filterEdges, Issues]
  | noEdge he => simp [Issues]
  | @taken n hn => simp [Issues, @eq_comm _ n.id]
  | noNode hi =>
    simp only [Issues, Prod.mk.injEq, reduceCtorEq, and_false, false_and, exists_false, false_or,
      ne_eq, Call.removeNode.injEq]
    exact ⟨fun hm => ⟨hm, fun hne => hi (hne ▸ id_mem_ids hm)⟩, And.left⟩

/-- An edge is there after a call if the call adds it, or it was there and the call takes neither it
nor one of its ends out. -/
theorem mem_edges_call (c : Call) :
    ⟨u, v⟩ ∈ (g.call c).1.edges ↔
      Links u v (c, (g.call c).2) ∨ (⟨u, v⟩ ∈ g.edges ∧ ¬ Cuts u v (c, (g.call c).2)) := by
  have h := g.answer c
  generalize g.call c = p at h ⊢
  cases h with
  | node n => simp [addNode, Links, Cuts]
  | @newEdge s t hu hv he => simp [Links, Cuts, @eq_comm _ s, @eq_comm _ t]
  | oldEdge he =>
    simp only [Links, Cuts, Call.addEdge.injEq, Reply.flag.injEq, exists_eq', and_true,
      reduceCtorEq, or_self, not_false_eq_true]
    refine ⟨Or.inr, ?_⟩
    intro hx
    rcases hx with ⟨rfl, rfl⟩ | hmem
    · exact he
    · exact hmem
  | noSource t hu => simp [Links, Cuts]
  | noTarget hu hv => simp [Links, Cuts]
  | @cut s t he =>
    simp [removeEdge, Links, Cuts, @eq_comm _ s, @eq_comm _ t, imp_iff_not_or]
  | noEdge he =>
    simp only [Links, Cuts, reduceCtorEq, false_and, false_or, or_false, Call.removeEdge.injEq]
    refine ⟨fun hmem => ⟨hmem, ?_⟩, And.left⟩
    intro hx
    obtain ⟨rfl, rfl⟩ := hx
    exact he hmem
  | @taken n hn => simp [Links, Cuts, @eq_comm _ n.id]
  | noNode hi =>
    simp only [Links, Cuts, reduceCtorEq, false_and, false_or, Call.removeNode.injEq]
    refine ⟨fun he => ⟨he, ?_⟩, And.left⟩
    intro hx
    rcases hx with rfl | rfl
    · exact hi (source_mem_ids he)
    · exact hi (target_mem_ids he)

/-! ## Replies and changes -/

theorem call_reply (g : Graph) (c : Call) : (g.call c).2 = c.reply g.view g.next := by
  have h := g.answer c
  generalize g.call c = p at h ⊢
  cases h with
  | node n => rfl
  | newEdge hu hv he => simp [Call.reply, view, hasNode, hu, hv, he]
  | oldEdge he => simp [Call.reply, view, hasNode, source_mem_ids he, target_mem_ids he, he]
  | noSource v hu => simp [Call.reply, view, hasNode, hu]
  | noTarget hu hv => simp [Call.reply, view, hasNode, hu, hv]
  | cut he => simp [Call.reply, view, he]
  | noEdge he => simp [Call.reply, view, he]
  | taken hn => simp [Call.reply, view, getNode_of_mem hn]
  | noNode hi => simp [Call.reply, view, getNode_of_notMem hi]

/-- A call whose reply reports no change leaves the graph as it is. -/
theorem call_unchanged (hsame : (g.call c).2.changed = false) : (g.call c).1 = g := by
  have h := g.answer c
  generalize g.call c = p at h hsame ⊢
  cases h with
  | node n => cases hsame
  | newEdge hu hv he => cases hsame
  | cut he => cases hsame
  | taken hn => cases hsame
  | _ => rfl

/-- A call whose reply reports a change shows it. -/
theorem call_changed (hnew : (g.call c).2.changed = true) : (g.call c).1.view ≠ g.view := by
  intro hview
  have hnode : ∀ i, i ∈ (g.call c).1.ids ↔ i ∈ g.ids := by
    intro i
    have hids : (g.call c).1.ids = g.ids := congrArg View.ids hview
    rw [hids]
  have hedge : ∀ u v, ⟨u, v⟩ ∈ (g.call c).1.edges ↔ ⟨u, v⟩ ∈ g.edges := by
    intro u v
    have hhas : (g.call c).1.hasEdge u v = g.hasEdge u v :=
      congrFun (congrFun (congrArg View.hasEdge hview) u) v
    rw [← hasEdge_iff, ← hasEdge_iff, hhas]
  have h := g.answer c
  generalize g.call c = p at h hnew hnode hedge
  cases h with
  | node n => exact g.next_notMem ((hnode g.next).mp (by simp [ids_addNode]))
  | newEdge hu hv he => exact he ((hedge _ _).mp (by simp))
  | oldEdge he => cases hnew
  | noSource v hu => cases hnew
  | noTarget hu hv => cases hnew
  | cut he => simpa [removeEdge] using (hedge _ _).mpr he
  | noEdge he => cases hnew
  | taken hn => simpa using (hnode _).mpr (id_mem_ids hn)
  | noNode hi => cases hnew

theorem changed_iff (g : Graph) (c : Call) :
    (g.call c).2.changed = true ↔ (g.call c).1.view ≠ g.view := by
  refine ⟨call_changed, ?_⟩
  intro hview
  by_contra hsame
  exact hview (by rw [call_unchanged (Bool.eq_false_iff.mpr hsame)])

/-! ## Runs -/

theorem replay_snoc (g : Graph) (calls : List Call) (c : Call) :
    g.replay (calls ++ [c]) =
      (((g.replay calls).1.call c).1,
        (g.replay calls).2 ++ [(c, ((g.replay calls).1.call c).2)]) := by
  rw [replay, List.foldl_append]
  rfl

theorem nodeCount_call_le (g : Graph) (c : Call) :
    (g.call c).1.nodeCount ≤ g.nodeCount + [c].countP Call.addsNode := by
  have h := g.answer c
  generalize g.call c = p at h ⊢
  cases h with
  | node n => simp [addNode, nodeCount, Call.addsNode]
  | taken hn => exact List.length_filter_le _ _
  | _ => exact Nat.le_add_right _ _

theorem edgeCount_call_le (g : Graph) (c : Call) :
    (g.call c).1.edgeCount ≤ g.edgeCount + [c].countP Call.addsEdge := by
  have h := g.answer c
  generalize g.call c = p at h ⊢
  cases h with
  | newEdge hu hv he => exact Nat.le_of_eq (EdgeSet.size_insert he)
  | cut he => exact List.length_filter_le _ _
  | taken hn => exact List.length_filter_le _ _
  | _ => exact Nat.le_add_right _ _

theorem nodeCount_replay_le (calls : List Call) :
    (empty.replay calls).1.nodeCount ≤ calls.countP Call.addsNode := by
  induction calls using List.reverseRecOn with
  | nil => exact Nat.le_refl _
  | append_singleton calls c ih =>
    rw [replay_snoc, List.countP_append]
    exact (nodeCount_call_le _ c).trans (Nat.add_le_add_right ih _)

theorem edgeCount_replay_le (calls : List Call) :
    (empty.replay calls).1.edgeCount ≤ calls.countP Call.addsEdge := by
  induction calls using List.reverseRecOn with
  | nil => exact Nat.le_refl _
  | append_singleton calls c ih =>
    rw [replay_snoc, List.countP_append]
    exact (edgeCount_call_le _ c).trans (Nat.add_le_add_right ih _)

end Graph

end CallGraph
