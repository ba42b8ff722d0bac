import CallGraph.Proofs.Observations
import CallGraph.Proofs.Slots

/-!
A graph is told by the calls that made it and the replies to them.

`Since p q t` says that an entry of the record `t` satisfies `p` and every later one satisfies `q`.
It has a step for each entry that is added to the record (`since_snoc`), and so have the nodes and the
edges of a graph, which is how the two are compared.

What is proved:
1. `mem_nodes_replay` and `mem_edges_replay`: a node is there if it was added and not taken out since,
   an edge if it was added and neither it nor an end of it was taken out since.
2. `issued_replay`: ids are issued in order, each once.
3. `Indexed.replay_history`: the same for a graph in slots that are used again, with what each call
   replies and whether it changes anything.
-/

namespace CallGraph

/-- An entry satisfies `p`, and every later one satisfies `q`. -/
def Since {α : Type} (p q : α → Prop) (t : List α) : Prop :=
  ∃ before a after, t = before ++ a :: after ∧ p a ∧ ∀ b ∈ after, q b

theorem not_since_nil {α : Type} {p q : α → Prop} : ¬ Since p q [] := by
  intro hx
  obtain ⟨before, a, after, h, _⟩ := hx
  cases before <;> cases h

/-- Where an entry of a record stands that has one more entry: it is the last one, or it stands before
it. -/
theorem append_singleton_eq_split {α : Type} {t before after : List α} {x y : α}
    (h : t ++ [x] = before ++ y :: after) :
    (after = [] ∧ before = t ∧ y = x) ∨ ∃ rest, after = rest ++ [x] ∧ t = before ++ y :: rest := by
  rcases List.eq_nil_or_concat after with rfl | ⟨rest, z, rfl⟩
  · obtain ⟨ht, hxy⟩ := List.append_inj' h rfl
    exact Or.inl ⟨rfl, ht.symm, (List.head_eq_of_cons_eq hxy).symm⟩
  · have hsplit : t ++ [x] = (before ++ y :: rest) ++ [z] := by simpa using h
    obtain ⟨ht, hxz⟩ := List.append_inj' hsplit rfl
    obtain rfl := List.head_eq_of_cons_eq hxz
    exact Or.inr ⟨rest, by simp, ht⟩

theorem since_snoc {α : Type} {p q : α → Prop} {t : List α} {a : α} :
    Since p q (t ++ [a]) ↔ p a ∨ (Since p q t ∧ q a) := by
  refine ⟨?_, ?_⟩
  · intro hx
    obtain ⟨before, b, after, h, hp, hq⟩ := hx
    rcases append_singleton_eq_split h with ⟨_, _, rfl⟩ | ⟨rest, rfl, ht⟩
    · exact Or.inl hp
    · exact Or.inr ⟨⟨before, b, rest, ht, hp, fun d hd => hq d (by simp [hd])⟩, hq a (by simp)⟩
  · intro hx
    rcases hx with hp | ⟨⟨before, b, after, rfl, hp, hq⟩, ha⟩
    · exact ⟨t, a, [], rfl, hp, by simp⟩
    · refine ⟨before, b, after ++ [a], by simp, hp, ?_⟩
      intro d hd
      rcases List.mem_append.mp hd with hd | hd
      · exact hq d hd
      · exact List.mem_singleton.mp hd ▸ ha

namespace Graph

variable {g : Graph} {u v i : Nat}

/-! ## Nodes and edges -/

theorem mem_nodes_replay {m : Node} (calls : List Call) :
    m ∈ (empty.replay calls).1.nodes ↔
      ∃ n, m = { n with id := m.id } ∧
        Since (Issues n m.id) (fun e => e.1 ≠ .removeNode m.id) (empty.replay calls).2 := by
  induction calls using List.reverseRecOn with
  | nil =>
    refine ⟨List.not_mem_nil.elim, ?_⟩
    intro hx
    obtain ⟨n, _, hsince⟩ := hx
    exact absurd hsince not_since_nil
  | append_singleton calls c ih =>
    rw [replay_snoc, mem_nodes_call, ih]
    simp only [since_snoc]
    refine ⟨?_, ?_⟩
    · intro hx
      rcases hx with ⟨n, hissued, hm⟩ | ⟨⟨n, hm, hsince⟩, hc⟩
      · exact ⟨n, hm, Or.inl hissued⟩
      · exact ⟨n, hm, Or.inr ⟨hsince, hc⟩⟩
    · intro hx
      rcases hx with ⟨n, hm, hissued | ⟨hsince, hc⟩⟩
      · exact Or.inl ⟨n, hissued, hm⟩
      · exact Or.inr ⟨⟨n, hm, hsince⟩, hc⟩

theorem getNode_replay {n : Node} {calls : List Call}
    (h : Since (Issues n i) (fun e => e.1 ≠ .removeNode i) (empty.replay calls).2) :
    (empty.replay calls).1.getNode i = .ok { n with id := i } := by
  have hmem : { n with id := i } ∈ (empty.replay calls).1.nodes :=
    (mem_nodes_replay calls).mpr ⟨n, rfl, h⟩
  exact getNode_of_mem hmem

theorem mem_ids_replay (calls : List Call) :
    i ∈ (empty.replay calls).1.ids ↔
      ∃ n, Since (Issues n i) (fun e => e.1 ≠ .removeNode i) (empty.replay calls).2 := by
  rw [mem_ids]
  refine ⟨?_, ?_⟩
  · intro hx
    obtain ⟨m, hm, rfl⟩ := hx
    obtain ⟨n, _, hsince⟩ := (mem_nodes_replay calls).mp hm
    exact ⟨n, hsince⟩
  · intro hx
    obtain ⟨n, hsince⟩ := hx
    exact ⟨{ n with id := i }, (mem_nodes_replay calls).mpr ⟨n, rfl, hsince⟩, rfl⟩

theorem mem_edges_replay (calls : List Call) :
    ⟨u, v⟩ ∈ (empty.replay calls).1.edges ↔
      Since (Links u v) (fun e => ¬ Links u v e ∧ ¬ Cuts u v e) (empty.replay calls).2 := by
  induction calls using List.reverseRecOn with
  | nil => exact ⟨List.not_mem_nil.elim, fun hsince => absurd hsince not_since_nil⟩
  | append_singleton calls c ih =>
    rw [replay_snoc, mem_edges_call, ih, since_snoc]
    tauto

/-! ## Ids -/

theorem next_call (g : Graph) (c : Call) :
    (g.call c).1.next = g.next + [c].countP Call.addsNode := by
  have h := g.answer c
  generalize g.call c = p at h ⊢
  cases h <;> rfl

theorem issued_call (g : Graph) (c : Call) :
    [(c, (g.call c).2)].filterMap (fun e => e.2.issued?) =
      (List.range ([c].countP Call.addsNode)).map (g.next + ·) := by
  have h := g.answer c
  generalize g.call c = p at h ⊢
  cases h <;> rfl

theorem next_replay (calls : List Call) :
    (empty.replay calls).1.next = calls.countP Call.addsNode := by
  induction calls using List.reverseRecOn with
  | nil => rfl
  | append_singleton calls c ih => rw [replay_snoc, next_call, ih, List.countP_append]

/-- Ids are issued as 0, 1, 2, … -/
theorem issued_replay (calls : List Call) :
    (empty.replay calls).2.filterMap (fun e => e.2.issued?) =
      List.range (calls.countP Call.addsNode) := by
  induction calls using List.reverseRecOn with
  | nil => rfl
  | append_singleton calls c ih =>
    rw [replay_snoc, List.filterMap_append, ih, issued_call, next_replay, List.countP_append,
      List.range_add]

theorem calls_replay (calls : List Call) : (empty.replay calls).2.map Prod.fst = calls := by
  induction calls using List.reverseRecOn with
  | nil => rfl
  | append_singleton calls c ih => rw [replay_snoc, List.map_append, ih]; rfl

end Graph

namespace Indexed

variable {S : SlotGraph}

/-- In slots that stand for a graph a call replies what can be told from what is observed, and
reports a change exactly if there is one to observe. -/
theorem Represents.call_tells (hS : S.Documented) {x y : Indexed S} {g : Graph} (h : Represents x g)
    {c : Call} {r : Reply} (hc : x.call c = some (y, r)) :
    r = c.reply x.view x.next ∧ (r.changed = true ↔ y.view ≠ x.view) ∧
      (r.changed = false → y = x) := by
  obtain ⟨g', hanswer, hy, hsame⟩ := h.call hS hc
  have hreply := g.call_reply c
  have hchanged := g.changed_iff c
  rw [hanswer.eq] at hreply hchanged
  rw [h.view_eq hS, hy.view_eq hS, h.next]
  exact ⟨hreply, hchanged, hsame⟩

/-- After any calls to an empty graph in slots, which add fewer than 2 ^ 32 nodes and fewer than
2 ^ 32 edges, the record of calls and replies tells the graph. A node is there if it was added and not
taken out since, and is as it was added but for its id. An edge is there if after the last time it was
added neither it nor one of its ends was taken out. Ids are issued in order. What the index leads to is
never missing. A next call replies what can be told from what is observed, and where it reports no
change there is none. -/
theorem replay_history (hS : S.Documented) (calls : List Call)
    (hn : calls.countP Call.addsNode < Nat.pow 2 32)
    (he : calls.countP Call.addsEdge < Nat.pow 2 32) :
    ∃ (x : Indexed S) (t : List (Call × Reply)),
      (Indexed.empty S).replay calls = some (x, t) ∧ t.map Prod.fst = calls ∧
      -- a graph without slots gives the same replies and is seen to be the same
      (Graph.empty.replay calls).2 = t ∧ (Graph.empty.replay calls).1.view = x.view ∧
      (∀ i, x.hasNode i = true ↔ ∃ n, Since (Issues n i) (fun e => e.1 ≠ .removeNode i) t) ∧
      (∀ i n, Since (Issues n i) (fun e => e.1 ≠ .removeNode i) t →
        x.node i = .ok { n with id := i }) ∧
      (∀ i, x.hasNode i = false → x.node i = .error (.notFound i)) ∧
      (∀ u v, x.hasEdge u v = true ↔
        Since (Links u v) (fun e => ¬ Links u v e ∧ ¬ Cuts u v e) t) ∧
      t.filterMap (fun e => e.2.issued?) = List.range (calls.countP Call.addsNode) ∧
      (∀ i slot, x.index.get? i = some slot →
        ∃ n, S.node? x.inner slot = some n ∧ (S.removeNode x.inner slot).2 = some n) ∧
      ∀ c, (c :: calls).countP Call.addsNode < Nat.pow 2 32 →
        (c :: calls).countP Call.addsEdge < Nat.pow 2 32 →
        ∃ y r, x.call c = some (y, r) ∧ r = c.reply x.view x.next ∧
          (r.changed = true ↔ y.view ≠ x.view) ∧ (r.changed = false → y = x) := by
  obtain ⟨x, hx⟩ := exists_replay hS calls hn he
  obtain ⟨hrep, _⟩ := represents_replay hS hx
  refine ⟨x, _, hx, Graph.calls_replay calls, rfl, (hrep.view_eq hS).symm, ?_, ?_, ?_, ?_,
    Graph.issued_replay calls, ?_, ?_⟩
  · intro i
    rw [hrep.hasNode_eq, Graph.hasNode_iff, Graph.mem_ids_replay]
  · intro i n hsince
    rw [hrep.node_eq, Graph.getNode_replay hsince]
  · intro i hi
    rw [hrep.hasNode_eq] at hi
    rw [hrep.node_eq, Graph.getNode_of_notMem (Graph.hasNode_eq_false_iff.mp hi)]
  · intro u v
    rw [hrep.hasEdge_eq hS, Graph.hasEdge_iff, Graph.mem_edges_replay]
  · intro i slot hi
    obtain ⟨n, hslot, _⟩ := hrep.node_of_index hi
    exact ⟨n, hslot, (hS.removeNode x.inner slot n hslot).1⟩
  · intro c hcn hce
    have hperm : (calls ++ [c]).Perm (c :: calls) := List.perm_append_singleton c calls
    obtain ⟨y, hy⟩ :=
      exists_replay hS (calls ++ [c]) (hperm.countP_eq _ ▸ hcn) (hperm.countP_eq _ ▸ hce)
    obtain ⟨x', _, r, hx', hc, _⟩ := replay_snoc_eq_some hy
    obtain ⟨rfl, _⟩ := Prod.mk.inj (Option.some.inj (hx.symm.trans hx'))
    exact ⟨y, r, hc, hrep.call_tells hS hc⟩

/-- A node is taken out with two edges, and the next that is added takes its slot. -/
def reuse : List Call :=
  [.addNode { kind := .file, name := "lib" }, .addNode { kind := .function, name := "old" },
    .addEdge 0 1, .addEdge 1 1, .removeNode 1, .addNode { kind := .function, name := "new" },
    .addEdge 0 2, .addEdge 9 1, .removeEdge 0 1]

/-- The edges of the node that was taken out do not come back with its slot. -/
theorem replay_history_reuse :
    reuse.countP Call.addsNode < Nat.pow 2 32 ∧ reuse.countP Call.addsEdge < Nat.pow 2 32 ∧
    ∃ x t, (Indexed.empty slotGraph).replay reuse = some (x, t) ∧
      t.map Prod.snd = [.issued 0, .issued 1, .flag true, .flag true,
        .removed { id := 1, kind := .function, name := "old" }, .issued 2, .flag true,
        .failed (.notFound 9), .flag false] ∧
      x.index.toList = [(0, 0), (2, 1)] ∧
      x.hasNode 1 = false ∧ x.node 2 = .ok { id := 2, kind := .function, name := "new" } ∧
      x.hasEdge 0 2 = true ∧ x.hasEdge 0 1 = false ∧ x.hasEdge 2 2 = false := by
  have hn : reuse.countP Call.addsNode < Nat.pow 2 32 := by decide
  have he : reuse.countP Call.addsEdge < Nat.pow 2 32 := by decide
  obtain ⟨x, t, hx, _, ht, hview, _, hnode, _⟩ := replay_history slotGraph_documented reuse hn he
  have hhas (i : Nat) : (Graph.empty.replay reuse).1.hasNode i = x.hasNode i :=
    congrFun (congrArg View.hasNode hview) i
  have hedge (u v : Nat) : (Graph.empty.replay reuse).1.hasEdge u v = x.hasEdge u v :=
    congrFun (congrFun (congrArg View.hasEdge hview) u) v
  have hindex : ((Indexed.empty slotGraph).replay reuse).map (fun p => p.1.index.toList) =
      some [(0, 0), (2, 1)] := by decide
  rw [hx] at hindex
  refine ⟨hn, he, x, t, hx, ?_, Option.some.inj hindex, ?_, ?_, ?_, ?_, ?_⟩
  · rw [← ht]
    decide
  · rw [← hhas]
    decide
  · apply hnode 2 { kind := .function, name := "new" }
    refine ⟨t.take 5, (.addNode { kind := .function, name := "new" }, .issued 2), t.drop 6, ?_, rfl,
      ?_⟩
    · rw [← ht]
      decide
    · rw [← ht]
      decide
  · rw [← hedge]
    decide
  · rw [← hedge]
    decide
  · rw [← hedge]
    decide

end Indexed

end CallGraph
