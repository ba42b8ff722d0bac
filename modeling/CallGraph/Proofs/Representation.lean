import CallGraph.Indexed
import CallGraph.Proofs.Calls

/-!
A graph in slots stands for a graph.

`Represents x g` says that the slots and the index of `x` hold the nodes and the edges of `g`: the
index leads from an id to a slot exactly if the node in that slot has that id, the nodes in slots are
those of `g`, and so are the edges, each in one slot. Nothing is said about which slots are used.

What is proved, for any slots that do as they promise:
1. `represents_empty`: slots without nodes stand for the graph without nodes.
2. `Represents.extend`, `.join`, `.cut` and `.shrink`: what each kind of change to slots and index does
   to the graph they stand for.
3. `Represents.call`: a call takes slots to slots that stand for the graph to which it takes the graph,
   and replies the same (`Mirrors`).
-/

namespace CallGraph

/-! ## The index -/

namespace IdMap

variable {m : IdMap} {i id slot : Nat}

theorem get?_eq_some_iff : m.get? i = some slot ↔ (i, slot) ∈ m.toList := by
  rw [get?, Option.map_eq_some_iff]
  refine ⟨?_, ?_⟩
  · intro hx
    obtain ⟨e, hfind, rfl⟩ := hx
    have hid : e.1 = i := by simpa using List.find?_some hfind
    rw [← hid]
    exact List.mem_of_find?_eq_some hfind
  · intro hmem
    have hnodup : (m.toList.map Prod.fst).Nodup :=
      (List.pairwise_map.mpr m.sorted).imp Nat.ne_of_lt
    cases hfind : m.toList.find? (fun e => e.1 == i) with
    | none =>
      have hno := List.find?_eq_none.mp hfind (i, slot) hmem
      simp at hno
    | some e =>
      have hid : e.1 = i := by simpa using List.find?_some hfind
      have heq : e = (i, slot) :=
        List.inj_on_of_nodup_map hnodup (List.mem_of_find?_eq_some hfind) hmem hid
      exact ⟨e, rfl, by rw [heq]⟩

theorem get?_insert : (m.insert id slot).get? i = if i = id then some slot else m.get? i := by
  apply Option.ext
  intro t
  rw [get?_eq_some_iff, insert, mem_insertInto m.sorted]
  by_cases hi : i = id
  · simp [hi, eq_comm]
  · rw [if_neg hi, get?_eq_some_iff]
    simp [hi]

theorem get?_erase : (m.erase id).get? i = if i = id then none else m.get? i := by
  apply Option.ext
  intro t
  rw [get?_eq_some_iff, erase, List.mem_filter]
  by_cases hi : i = id
  · simp [hi]
  · rw [if_neg hi, get?_eq_some_iff]
    simp [hi]

theorem mem_keys : i ∈ m.keys ↔ (m.get? i).isSome = true := by
  rw [keys, List.mem_map, Option.isSome_iff_exists]
  refine ⟨?_, ?_⟩
  · intro hx
    obtain ⟨⟨k, t⟩, hmem, rfl⟩ := hx
    exact ⟨t, get?_eq_some_iff.mpr hmem⟩
  · intro hx
    obtain ⟨t, ht⟩ := hx
    exact ⟨(i, t), get?_eq_some_iff.mp ht, rfl⟩

theorem keys_ascend (m : IdMap) : m.keys.Pairwise (· < ·) := List.pairwise_map.mpr m.sorted

theorem mem_values : slot ∈ m.values ↔ ∃ i, m.get? i = some slot := by
  simp only [values, List.mem_map, get?_eq_some_iff]
  refine ⟨?_, ?_⟩
  · intro hx
    obtain ⟨⟨i, t⟩, hmem, rfl⟩ := hx
    exact ⟨i, hmem⟩
  · intro hx
    obtain ⟨i, hmem⟩ := hx
    exact ⟨(i, slot), hmem, rfl⟩

end IdMap

namespace Indexed

open CallGraph.Graph

variable {S : SlotGraph} {x y : Indexed S} {g : Graph} {i u v a b slot : Nat} {r : Reply}

/-- The graph in slots holds the nodes and edges of the graph. -/
structure Represents (x : Indexed S) (g : Graph) : Prop where
  next : x.next = g.next
  /-- The index leads to a slot from the id of the node in it, and from no other. -/
  index : ∀ i slot, x.index.get? i = some slot ↔ x.idAt slot = some i
  nodes : ∀ n, n ∈ g.nodes ↔ ∃ slot, S.node? x.inner slot = some n
  edges : ∀ u v, ⟨u, v⟩ ∈ g.edges ↔
    ∃ e p, S.ends? x.inner e = some p ∧ x.edgeAt p = some ⟨u, v⟩
  /-- The ends of an edge are slots that hold nodes. -/
  ends : ∀ e p, S.ends? x.inner e = some p → ∃ d, x.edgeAt p = some d
  /-- No two edges join the same slots. -/
  single : ∀ d e p, S.ends? x.inner d = some p → S.ends? x.inner e = some p → d = e

theorem idAt_eq_some_iff : x.idAt slot = some i ↔ ∃ n, S.node? x.inner slot = some n ∧ n.id = i :=
  Option.map_eq_some_iff

theorem edgeAt_eq_some_iff {p : Nat × Nat} :
    x.edgeAt p = some ⟨u, v⟩ ↔ x.idAt p.1 = some u ∧ x.idAt p.2 = some v := by
  simp only [edgeAt, Option.bind_eq_some_iff, Option.map_eq_some_iff, Edge.mk.injEq]
  refine ⟨?_, ?_⟩
  · intro hx
    obtain ⟨u', hu, v', hv, rfl, rfl⟩ := hx
    exact ⟨hu, hv⟩
  · intro hx
    exact ⟨u, hx.1, v, hx.2, rfl, rfl⟩

/-! ## Looking up -/

theorem Represents.mem_ids (h : Represents x g) :
    i ∈ g.ids ↔ ∃ slot, x.index.get? i = some slot := by
  simp only [Graph.mem_ids, h.nodes, h.index, idAt_eq_some_iff]
  refine ⟨?_, ?_⟩
  · intro hx
    obtain ⟨n, ⟨slot, hn⟩, hid⟩ := hx
    exact ⟨slot, n, hn, hid⟩
  · intro hx
    obtain ⟨slot, n, hn, hid⟩ := hx
    exact ⟨n, ⟨slot, hn⟩, hid⟩

theorem Represents.notMem_ids (h : Represents x g) : i ∉ g.ids ↔ x.index.get? i = none := by
  rw [h.mem_ids, ← Option.isSome_iff_exists, Option.not_isSome_iff_eq_none]

theorem Represents.index_inj (h : Represents x g) (hu : x.index.get? u = some slot)
    (hv : x.index.get? v = some slot) : u = v := by
  rw [h.index] at hu hv
  exact Option.some.inj (hu.symm.trans hv)

theorem Represents.node_of_index (h : Represents x g) (hi : x.index.get? i = some slot) :
    ∃ n, S.node? x.inner slot = some n ∧ n ∈ g.nodes ∧ n.id = i := by
  obtain ⟨n, hn, hid⟩ := idAt_eq_some_iff.mp ((h.index i slot).mp hi)
  exact ⟨n, hn, (h.nodes n).mpr ⟨slot, hn⟩, hid⟩

theorem Represents.edge_iff (h : Represents x g) (hu : x.index.get? u = some a)
    (hv : x.index.get? v = some b) :
    ⟨u, v⟩ ∈ g.edges ↔ ∃ e, S.ends? x.inner e = some (a, b) := by
  rw [h.edges]
  refine ⟨?_, ?_⟩
  · intro hx
    obtain ⟨e, p, hp, hends⟩ := hx
    obtain ⟨h₁, h₂⟩ := edgeAt_eq_some_iff.mp hends
    rw [← h.index] at h₁ h₂
    have ha : p.1 = a := Option.some.inj (h₁.symm.trans hu)
    have hb : p.2 = b := Option.some.inj (h₂.symm.trans hv)
    exact ⟨e, by rw [hp, ← ha, ← hb]⟩
  · intro hx
    obtain ⟨e, he⟩ := hx
    exact ⟨e, (a, b), he, edgeAt_eq_some_iff.mpr ⟨(h.index u a).mp hu, (h.index v b).mp hv⟩⟩

theorem represents_empty (hS : S.Documented) : Represents (Indexed.empty S) Graph.empty := by
  have hnode : ∀ slot n, S.node? (Indexed.empty S).inner slot ≠ some n := by
    intro slot n hn
    cases (hS.node?_empty slot).symm.trans hn
  have hends : ∀ e p, S.ends? (Indexed.empty S).inner e ≠ some p := by
    intro e p hp
    cases (hS.ends?_empty e).symm.trans hp
  refine ⟨rfl, ?_, ?_, ?_, ?_, ?_⟩
  · intro i slot
    rw [idAt_eq_some_iff]
    refine ⟨(fun hx => by cases hx), ?_⟩
    intro hx
    obtain ⟨n, hn, _⟩ := hx
    exact absurd hn (hnode slot n)
  · intro n
    refine ⟨List.not_mem_nil.elim, ?_⟩
    intro hx
    obtain ⟨slot, hn⟩ := hx
    exact absurd hn (hnode slot n)
  · intro u v
    refine ⟨List.not_mem_nil.elim, ?_⟩
    intro hx
    obtain ⟨e, p, hp, _⟩ := hx
    exact absurd hp (hends e p)
  · intro e p hp
    exact absurd hp (hends e p)
  · intro d e p hp
    exact absurd hp (hends d p)

/-! ## Changes

Each statement describes the slots and the index of `y` by those of `x`. -/

theorem edgeAt_mono (hid : ∀ j i, x.idAt j = some i → y.idAt j = some i) {p : Nat × Nat} {d : Edge}
    (hp : x.edgeAt p = some d) : y.edgeAt p = some d := by
  rcases d with ⟨u, v⟩
  rw [edgeAt_eq_some_iff] at hp ⊢
  exact ⟨hid _ _ hp.1, hid _ _ hp.2⟩

/-- A new node takes a free slot, so whatever was found before is found where it was. -/
theorem Represents.extend (h : Represents x g) {n : Node} (hfree : S.node? x.inner slot = none)
    (hnext : y.next = g.next + 1)
    (hindex : ∀ i, y.index.get? i = if i = g.next then some slot else x.index.get? i)
    (hnode : ∀ j, S.node? y.inner j =
      if j = slot then some { n with id := g.next } else S.node? x.inner j)
    (hends : ∀ e, S.ends? y.inner e = S.ends? x.inner e) : Represents y (g.addNode n) := by
  have hnone : x.idAt slot = none := by rw [idAt, hfree, Option.map_none]
  have hidAt : ∀ j, y.idAt j = if j = slot then some g.next else x.idAt j := by
    intro j
    rw [idAt, hnode]
    split <;> rfl
  have hmono : ∀ j i, x.idAt j = some i → y.idAt j = some i := by
    intro j i hj
    have hne : j ≠ slot := by
      intro heq
      subst heq
      cases hnone.symm.trans hj
    rw [hidAt, if_neg hne, hj]
  refine ⟨hnext, ?_, ?_, ?_, ?_, ?_⟩
  · intro i j
    rw [hindex, hidAt]
    by_cases hi : i = g.next
    · have hno : x.index.get? i = none := h.notMem_ids.mp (hi ▸ g.next_notMem)
      by_cases hj : j = slot
      · simp [hi, hj]
      · rw [if_pos hi, if_neg hj, ← h.index, hno]
        simp [Ne.symm hj]
    · by_cases hj : j = slot
      · rw [if_neg hi, if_pos hj, h.index, hj, hnone]
        simp [Ne.symm hi]
      · rw [if_neg hi, if_neg hj, h.index]
  · intro m
    simp only [mem_nodes_addNode, h.nodes, hnode]
    refine ⟨?_, ?_⟩
    · intro hx
      rcases hx with rfl | ⟨j, hj⟩
      · exact ⟨slot, if_pos rfl⟩
      · have hne : j ≠ slot := by
          intro heq
          subst heq
          cases hfree.symm.trans hj
        exact ⟨j, by rw [if_neg hne, hj]⟩
    · intro hx
      obtain ⟨j, hj⟩ := hx
      split at hj
      · exact Or.inl (Option.some.inj hj).symm
      · exact Or.inr ⟨j, hj⟩
  · intro u v
    simp only [hends]
    refine (h.edges u v).trans ⟨?_, ?_⟩
    · intro hx
      obtain ⟨e, p, hp, hd⟩ := hx
      exact ⟨e, p, hp, edgeAt_mono hmono hd⟩
    · intro hx
      obtain ⟨e, p, hp, hd⟩ := hx
      -- the edge was there before, and still has the same ends
      obtain ⟨d, hd'⟩ := h.ends e p hp
      exact ⟨e, p, hp, by rw [hd', ← edgeAt_mono hmono hd', hd]⟩
  · intro e p hp
    obtain ⟨d, hd⟩ := h.ends e p ((hends e).symm.trans hp)
    exact ⟨d, edgeAt_mono hmono hd⟩
  · intro d e p hd he
    exact h.single d e p ((hends d).symm.trans hd) ((hends e).symm.trans he)

/-- Where no node changes, an edge between two slots is the same edge. -/
theorem edgeAt_congr (hnode : ∀ j, S.node? y.inner j = S.node? x.inner j) (p : Nat × Nat) :
    y.edgeAt p = x.edgeAt p := by
  simp only [edgeAt, idAt, hnode]

/-- An edge in a free slot, between two nodes that no edge joined. -/
theorem Represents.join (h : Represents x g) {e : Nat} (hu : x.index.get? u = some a)
    (hv : x.index.get? v = some b) (hus : u ∈ g.ids) (hvs : v ∈ g.ids)
    (hnew : ∀ d, S.ends? x.inner d ≠ some (a, b)) (hnext : y.next = x.next)
    (hindex : y.index = x.index) (hnode : ∀ j, S.node? y.inner j = S.node? x.inner j)
    (hfree : S.ends? x.inner e = none)
    (hends : ∀ d, S.ends? y.inner d = if d = e then some (a, b) else S.ends? x.inner d) :
    Represents y (g.link ⟨u, v⟩ hus hvs) := by
  have hedge : x.edgeAt (a, b) = some ⟨u, v⟩ :=
    edgeAt_eq_some_iff.mpr ⟨(h.index u a).mp hu, (h.index v b).mp hv⟩
  have hcases : ∀ d p, S.ends? y.inner d = some p ↔
      (d = e ∧ p = (a, b)) ∨ S.ends? x.inner d = some p := by
    intro d p
    rw [hends]
    by_cases hd : d = e
    · subst hd
      simp [hfree, eq_comm]
    · simp [hd]
  refine ⟨hnext.trans h.next, ?_, ?_, ?_, ?_, ?_⟩
  · intro i j
    rw [hindex, h.index, idAt, idAt, hnode]
  · intro m
    simp only [hnode]
    exact h.nodes m
  · intro s t
    rw [mem_edges_link, h.edges]
    simp only [hcases, edgeAt_congr hnode]
    refine ⟨?_, ?_⟩
    · intro hx
      rcases hx with heq | ⟨d, p, hp, hd⟩
      · exact ⟨e, (a, b), Or.inl ⟨rfl, rfl⟩, heq ▸ hedge⟩
      · exact ⟨d, p, Or.inr hp, hd⟩
    · intro hx
      rcases hx with ⟨d, p, ⟨rfl, rfl⟩ | hp, hd⟩
      · exact Or.inl (Option.some.inj (hd.symm.trans hedge))
      · exact Or.inr ⟨d, p, hp, hd⟩
  · intro d p hp
    rw [edgeAt_congr hnode]
    rcases (hcases d p).mp hp with ⟨_, rfl⟩ | hp
    · exact ⟨_, hedge⟩
    · exact h.ends d p hp
  · intro d d' p hd hd'
    rcases (hcases d p).mp hd with ⟨rfl, rfl⟩ | hd <;>
      rcases (hcases d' _).mp hd' with ⟨rfl, hp⟩ | hd'
    · rfl
    · exact absurd hd' (hnew d')
    · exact absurd (hp ▸ hd) (hnew d)
    · exact h.single d d' p hd hd'

/-- The edge between two nodes leaves its slot, which is the only one it has. -/
theorem Represents.cut (h : Represents x g) {e : Nat} (hu : x.index.get? u = some a)
    (hv : x.index.get? v = some b) (he : S.ends? x.inner e = some (a, b)) (hnext : y.next = x.next)
    (hindex : y.index = x.index) (hnode : ∀ j, S.node? y.inner j = S.node? x.inner j)
    (hends : ∀ d, S.ends? y.inner d = if d = e then none else S.ends? x.inner d) :
    Represents y (g.removeEdge u v).1 := by
  have hedge : x.edgeAt (a, b) = some ⟨u, v⟩ :=
    edgeAt_eq_some_iff.mpr ⟨(h.index u a).mp hu, (h.index v b).mp hv⟩
  have hcases : ∀ d p, S.ends? y.inner d = some p ↔ d ≠ e ∧ S.ends? x.inner d = some p := by
    intro d p
    rw [hends]
    by_cases hd : d = e <;> simp [hd]
  refine ⟨hnext.trans h.next, ?_, ?_, ?_, ?_, ?_⟩
  · intro i j
    rw [hindex, h.index, idAt, idAt, hnode]
  · intro m
    simp only [hnode]
    exact h.nodes m
  · intro s t
    rw [Graph.removeEdge, mem_edges_filterEdges, decide_eq_true_iff, h.edges]
    simp only [hcases, edgeAt_congr hnode]
    refine ⟨?_, ?_⟩
    · intro hx
      obtain ⟨⟨d, p, hp, hd⟩, hne⟩ := hx
      refine ⟨d, p, ⟨?_, hp⟩, hd⟩
      intro heq
      subst heq
      obtain rfl := Option.some.inj (hp.symm.trans he)
      exact hne (Option.some.inj (hd.symm.trans hedge))
    · intro hx
      obtain ⟨d, p, ⟨hne, hp⟩, hd⟩ := hx
      refine ⟨⟨d, p, hp, hd⟩, ?_⟩
      intro heq
      rw [heq] at hd
      obtain ⟨ha, hb⟩ := edgeAt_eq_some_iff.mp hd
      rw [← h.index] at ha hb
      have hpa : p.1 = a := Option.some.inj (ha.symm.trans hu)
      have hpb : p.2 = b := Option.some.inj (hb.symm.trans hv)
      exact hne (h.single d e p hp (by rw [he, ← hpa, ← hpb]))
  · intro d p hp
    rw [edgeAt_congr hnode]
    exact h.ends d p ((hcases d p).mp hp).2
  · intro d d' p hd hd'
    exact h.single d d' p ((hcases d p).mp hd).2 ((hcases d' p).mp hd').2

/-- A node leaves its slot and the index, and the edges that touch it leave theirs. -/
theorem Represents.shrink (h : Represents x g) (hi : x.index.get? i = some slot)
    (hnext : y.next = x.next)
    (hindex : ∀ j, y.index.get? j = if j = i then none else x.index.get? j)
    (hnode : ∀ j, S.node? y.inner j = if j = slot then none else S.node? x.inner j)
    (hends : ∀ e, S.ends? y.inner e =
      (S.ends? x.inner e).filter fun p => p.1 != slot && p.2 != slot) :
    Represents y (g.restrict (fun j => j != i)) := by
  have hslot : x.idAt slot = some i := (h.index i slot).mp hi
  have hidAt : ∀ j k, y.idAt j = some k ↔ j ≠ slot ∧ x.idAt j = some k := by
    intro j k
    rw [idAt, hnode]
    by_cases hj : j = slot
    · simp [hj]
    · simp [hj, idAt]
  have hout : ∀ j k, x.idAt j = some k → (j ≠ slot ↔ k ≠ i) := by
    intro j k hj
    refine not_congr ⟨?_, ?_⟩
    · intro heq
      subst heq
      exact Option.some.inj (hj.symm.trans hslot)
    · intro heq
      subst heq
      exact Option.some.inj (((h.index k j).mpr hj).symm.trans hi)
  have hcases : ∀ e p, S.ends? y.inner e = some p ↔
      S.ends? x.inner e = some p ∧ p.1 ≠ slot ∧ p.2 ≠ slot := by
    intro e p
    rw [hends, Option.filter_eq_some_iff]
    simp
  have hedgeAt : ∀ p d, p.1 ≠ slot → p.2 ≠ slot → (y.edgeAt p = some d ↔ x.edgeAt p = some d) := by
    intro p d h₁ h₂
    rcases d with ⟨s, t⟩
    simp [edgeAt_eq_some_iff, hidAt, h₁, h₂]
  refine ⟨hnext.trans h.next, ?_, ?_, ?_, ?_, ?_⟩
  · intro k j
    rw [hidAt, hindex, ← h.index]
    by_cases hk : k = i
    · simp only [hk, if_true, reduceCtorEq, hi, Option.some.injEq, false_iff, not_and]
      intro hne heq
      exact hne heq.symm
    · rw [if_neg hk]
      exact ⟨fun hj => ⟨(hout j k ((h.index k j).mp hj)).mpr hk, hj⟩, And.right⟩
  · intro m
    rw [mem_nodes_restrict, bne_iff_ne, h.nodes]
    refine ⟨?_, ?_⟩
    · intro hx
      obtain ⟨⟨j, hj⟩, hne⟩ := hx
      have hne' : j ≠ slot := (hout j m.id (idAt_eq_some_iff.mpr ⟨m, hj, rfl⟩)).mpr hne
      exact ⟨j, by rw [hnode, if_neg hne', hj]⟩
    · intro hx
      obtain ⟨j, hj⟩ := hx
      rw [hnode] at hj
      split at hj
      · cases hj
      · next hne => exact ⟨⟨j, hj⟩, (hout j m.id (idAt_eq_some_iff.mpr ⟨m, hj, rfl⟩)).mp hne⟩
  · intro s t
    rw [mem_edges_restrict, bne_iff_ne, bne_iff_ne, h.edges]
    simp only [hcases]
    refine ⟨?_, ?_⟩
    · intro hx
      obtain ⟨⟨e, p, hp, hd⟩, hs, ht⟩ := hx
      obtain ⟨ha, hb⟩ := edgeAt_eq_some_iff.mp hd
      have h₁ := (hout _ _ ha).mpr hs
      have h₂ := (hout _ _ hb).mpr ht
      exact ⟨e, p, ⟨hp, h₁, h₂⟩, (hedgeAt p _ h₁ h₂).mpr hd⟩
    · intro hx
      obtain ⟨e, p, ⟨hp, h₁, h₂⟩, hd⟩ := hx
      have hd' := (hedgeAt p _ h₁ h₂).mp hd
      obtain ⟨ha, hb⟩ := edgeAt_eq_some_iff.mp hd'
      exact ⟨⟨e, p, hp, hd'⟩, (hout _ _ ha).mp h₁, (hout _ _ hb).mp h₂⟩
  · intro e p hp
    obtain ⟨hp', h₁, h₂⟩ := (hcases e p).mp hp
    obtain ⟨d, hd⟩ := h.ends e p hp'
    exact ⟨d, (hedgeAt p d h₁ h₂).mpr hd⟩
  · intro d e p hd he
    exact h.single d e p ((hcases d p).mp hd).1 ((hcases e p).mp he).1

/-! ## Calls -/

/-- A call that takes `x` to `y` is answered as by the graph that `x` stands for. If the reply reports
no change, slots and index are as they were. -/
def Mirrors (x : Indexed S) (g : Graph) (c : Call) (y : Indexed S) (r : Reply) : Prop :=
  ∃ g', Answer g c (g', r) ∧ Represents y g' ∧ (r.changed = false → y = x)

theorem Represents.mirrors_same (h : Represents x g) {c : Call} (ha : Answer g c (g, r)) :
    Mirrors x g c x r := ⟨g, ha, h, fun _ => rfl⟩

theorem slotOf_of_some (hi : x.index.get? i = some slot) : x.slotOf i = .ok slot := by
  rw [slotOf, hi]

theorem slotOf_of_none (hi : x.index.get? i = none) : x.slotOf i = .error (.notFound i) := by
  rw [slotOf, hi]

theorem Represents.addNode (hS : S.Documented) (h : Represents x g) {n : Node}
    (hc : x.addNode n = some (y, r)) : Mirrors x g (.addNode n) y r := by
  obtain ⟨⟨t, slot⟩, ht, heq⟩ := Option.map_eq_some_iff.mp hc
  obtain ⟨rfl, rfl⟩ := Prod.mk.inj heq
  obtain ⟨hfree, hnode, hends⟩ := hS.addNode _ _ _ _ ht
  rw [h.next] at hnode ⊢
  exact ⟨_, .node n, h.extend hfree rfl (fun _ => IdMap.get?_insert) hnode hends, nofun⟩

theorem Represents.addEdge (hS : S.Documented) (h : Represents x g)
    (hc : x.addEdge u v = some (y, r)) : Mirrors x g (.addEdge u v) y r := by
  by_cases hu : u ∈ g.ids
  · obtain ⟨a, ha⟩ := h.mem_ids.mp hu
    by_cases hv : v ∈ g.ids
    · obtain ⟨b, hb⟩ := h.mem_ids.mp hv
      simp only [Indexed.addEdge, slotOf_of_some ha, slotOf_of_some hb] at hc
      have hiff := (hS.hasEdge x.inner a b).trans (h.edge_iff ha hb).symm
      by_cases he : ⟨u, v⟩ ∈ g.edges
      · rw [if_pos (hiff.mpr he)] at hc
        obtain ⟨rfl, rfl⟩ := Prod.mk.inj (Option.some.inj hc)
        exact h.mirrors_same (.oldEdge he)
      · rw [if_neg (hiff.not.mpr he)] at hc
        obtain ⟨⟨t, e⟩, ht, heq⟩ := Option.map_eq_some_iff.mp hc
        obtain ⟨rfl, rfl⟩ := Prod.mk.inj heq
        obtain ⟨hfree, hends, hnode⟩ := hS.addEdge _ _ _ _ _ ht
        have hnew : ∀ d, S.ends? x.inner d ≠ some (a, b) :=
          fun d hd => he ((h.edge_iff ha hb).mpr ⟨d, hd⟩)
        exact ⟨_, .newEdge hu hv he, h.join ha hb hu hv hnew rfl rfl hnode hfree hends, nofun⟩
    · simp only [Indexed.addEdge, slotOf_of_some ha, slotOf_of_none (h.notMem_ids.mp hv)] at hc
      obtain ⟨rfl, rfl⟩ := Prod.mk.inj (Option.some.inj hc)
      exact h.mirrors_same (.noTarget hu hv)
  · simp only [Indexed.addEdge, slotOf_of_none (h.notMem_ids.mp hu)] at hc
    obtain ⟨rfl, rfl⟩ := Prod.mk.inj (Option.some.inj hc)
    exact h.mirrors_same (.noSource v hu)

theorem Represents.removeEdge (hS : S.Documented) (h : Represents x g)
    (hc : x.removeEdge u v = (y, r)) : Mirrors x g (.removeEdge u v) y r := by
  -- where an id or the edge is missing, nothing happens
  have hmissing (he : ⟨u, v⟩ ∉ g.edges) (hr : x.removeEdge u v = (x, .flag false)) :
      Mirrors x g (.removeEdge u v) y r := by
    obtain ⟨rfl, rfl⟩ := Prod.mk.inj (hr.symm.trans hc)
    exact h.mirrors_same (.noEdge he)
  cases ha : x.index.get? u with
  | none =>
    exact hmissing (fun he => h.notMem_ids.mpr ha (source_mem_ids he))
      (by simp [Indexed.removeEdge, ha])
  | some a =>
    cases hb : x.index.get? v with
    | none =>
      exact hmissing (fun he => h.notMem_ids.mpr hb (target_mem_ids he))
        (by simp [Indexed.removeEdge, ha, hb])
    | some b =>
      have hiff := h.edge_iff ha hb
      cases hfind : S.findEdge x.inner a b with
      | none =>
        refine hmissing (fun he => ?_) (by simp [Indexed.removeEdge, ha, hb, hfind])
        obtain ⟨e, hends⟩ := hiff.mp he
        exact hS.findEdge_none _ _ _ hfind e hends
      | some e =>
        have he := hS.findEdge_some _ _ _ _ hfind
        obtain ⟨hflag, hends, hnode⟩ := hS.removeEdge x.inner e
        rw [he, Option.isSome_some] at hflag
        simp only [Indexed.removeEdge, ha, hb, hfind, hflag] at hc
        obtain ⟨rfl, rfl⟩ := Prod.mk.inj hc
        exact ⟨_, .cut (hiff.mpr ⟨e, he⟩), h.cut ha hb he rfl rfl hnode hends, nofun⟩

theorem Represents.removeNode (hS : S.Documented) (h : Represents x g)
    (hc : x.removeNode i = (y, r)) : Mirrors x g (.removeNode i) y r := by
  cases hi : x.index.get? i with
  | none =>
    simp only [Indexed.removeNode, hi] at hc
    obtain ⟨rfl, rfl⟩ := Prod.mk.inj hc
    exact h.mirrors_same (.noNode (h.notMem_ids.mpr hi))
  | some slot =>
    obtain ⟨n, hn, hmem, rfl⟩ := h.node_of_index hi
    obtain ⟨hgone, hnode, hends⟩ := hS.removeNode _ _ _ hn
    simp only [Indexed.removeNode, hi, hgone] at hc
    obtain ⟨rfl, rfl⟩ := Prod.mk.inj hc
    exact ⟨_, .taken hmem, h.shrink hi rfl (fun _ => IdMap.get?_erase) hnode hends, nofun⟩

/-- Every call is answered as by the graph that the slots stand for. -/
theorem Represents.call (hS : S.Documented) (h : Represents x g) {c : Call}
    (hc : x.call c = some (y, r)) : Mirrors x g c y r := by
  cases c with
  | addNode n => exact h.addNode hS hc
  | addEdge u v => exact h.addEdge hS hc
  | removeEdge u v => exact h.removeEdge hS (Option.some.inj hc)
  | removeNode i => exact h.removeNode hS (Option.some.inj hc)

end Indexed

end CallGraph
