import CallGraph.Proofs.Representation
import CallGraph.Proofs.Retention
import Mathlib.Data.List.Sort

/-!
A graph and the slots that stand for it cannot be told apart.

Observing a graph in slots goes through the index and may meet a free slot on the way. In slots that
stand for a graph no observation does.

What is proved, for any slots that do as they promise:
1. `Represents.view_eq`: whatever can be observed is the same, and no observation ends the program.
2. `Represents.call_isSome`: a call goes through if there is room for what it adds.
3. `represents_replay` and `exists_replay`: calls to an empty graph in slots get the replies that they
   get from the empty graph, and lead to slots that stand for the graph they lead to. They go through
   if they add fewer than 2 ^ 32 nodes and fewer than 2 ^ 32 edges.
-/

namespace CallGraph

/-! ## Ascending lists -/

theorem eq_of_ascending {l m : List Nat} (hl : l.Pairwise (· < ·)) (hm : m.Pairwise (· < ·))
    (h : ∀ i, i ∈ l ↔ i ∈ m) : l = m := by
  have hp : l.Perm m :=
    (List.perm_ext_iff_of_nodup (hl.imp Nat.ne_of_lt) (hm.imp Nat.ne_of_lt)).mpr h
  refine hp.eq_of_pairwise ?_ hl hm
  intro a b _ _ hab hba
  omega

theorem mem_dropRepeats {i : Nat} (l : List Nat) : i ∈ dropRepeats l ↔ i ∈ l := by
  fun_induction dropRepeats l with
  | case1 a l ih => simp [ih]
  | case2 a b l hne ih => simp [ih]
  | case3 l h => rfl

theorem dropRepeats_ascending {l : List Nat} (h : l.Pairwise (· ≤ ·)) :
    (dropRepeats l).Pairwise (· < ·) := by
  fun_induction dropRepeats l with
  | case1 a l ih => exact ih h.of_cons
  | case2 a b l hne ih =>
    rw [List.pairwise_cons] at h
    refine List.pairwise_cons.mpr ⟨?_, ih h.2⟩
    intro c hc
    rw [mem_dropRepeats] at hc
    have hab : a ≤ b := h.1 b List.mem_cons_self
    have hbc : b ≤ c := by
      rcases List.mem_cons.mp hc with rfl | hc
      · exact Nat.le_refl _
      · exact (List.pairwise_cons.mp h.2).1 c hc
    omega
  | case3 l h' =>
    match l, h' with
    | [], _ => exact List.Pairwise.nil
    | [a], _ => exact List.pairwise_singleton _ a
    | a :: b :: l, h' => exact absurd rfl (h' a b l)

theorem mem_ascending {i : Nat} {l : List Nat} : i ∈ ascending l ↔ i ∈ l := by
  rw [ascending, mem_dropRepeats, List.mem_mergeSort]

theorem ascending_pairwise (l : List Nat) : (ascending l).Pairwise (· < ·) := by
  apply dropRepeats_ascending
  have hs : (l.mergeSort fun a b => decide (a ≤ b)).Pairwise (fun a b => decide (a ≤ b) = true) := by
    apply List.pairwise_mergeSort
    · intro a b c hab hbc
      simp only [decide_eq_true_eq] at *
      omega
    · intro a b
      simp only [Bool.or_eq_true, decide_eq_true_eq]
      omega
  exact hs.imp (by simp)

/-! ## Lists of a graph -/

namespace Graph

theorem filterMap_node?_ids (g : Graph) : g.ids.filterMap g.node? = g.nodes := by
  rw [Graph.ids, List.filterMap_map]
  calc g.nodes.filterMap (g.node? ∘ Node.id)
      = g.nodes.filterMap some :=
        List.filterMap_congr fun n hn => node?_eq_some_iff.mpr ⟨hn, rfl⟩
    _ = g.nodes := List.filterMap_some

theorem callers_ascend (g : Graph) (i : Nat) : (g.callers i).Pairwise (· < ·) := by
  rw [callers, List.pairwise_map]
  refine List.Pairwise.imp_of_mem ?_ (g.edges.sorted.sublist List.filter_sublist)
  intro a b ha hb hlt
  have hat : a.target = i := by simpa using (List.mem_filter.mp ha).2
  have hbt : b.target = i := by simpa using (List.mem_filter.mp hb).2
  rw [Edge.lt_def] at hlt
  omega

theorem callees_ascend (g : Graph) (i : Nat) : (g.callees i).Pairwise (· < ·) := by
  rw [callees, List.pairwise_map]
  refine List.Pairwise.imp_of_mem ?_ (g.edges.sorted.sublist List.filter_sublist)
  intro a b ha hb hlt
  have has : a.source = i := by simpa using (List.mem_filter.mp ha).2
  have hbs : b.source = i := by simpa using (List.mem_filter.mp hb).2
  rw [Edge.lt_def] at hlt
  omega

end Graph

namespace Indexed

open CallGraph.Graph

variable {S : SlotGraph} {x y : Indexed S} {g : Graph} {i slot : Nat}

/-! ## Observations -/

theorem mapM_eq_some_filterMap {α β : Type} {f : α → Option β} {l : List α}
    (h : ∀ a ∈ l, ∃ b, f a = some b) : l.mapM f = some (l.filterMap f) := by
  induction l with
  | nil => rfl
  | cons a l ih =>
    obtain ⟨b, hb⟩ := h a List.mem_cons_self
    have hrest := ih fun c hc => h c (List.mem_cons_of_mem a hc)
    rw [List.mapM_cons, hb, hrest, List.filterMap_cons_some hb]
    rfl

theorem Represents.node?_eq (h : Represents x g) (hi : x.index.get? i = some slot) :
    S.node? x.inner slot = g.node? i := by
  obtain ⟨n, hn, hmem, rfl⟩ := h.node_of_index hi
  rw [hn, node?_eq_some_iff.mpr ⟨hmem, rfl⟩]

theorem Represents.node_eq (h : Represents x g) : x.node = g.getNode := by
  funext i
  cases hi : x.index.get? i with
  | none => simp [node, slotOf_of_none hi, getNode_of_notMem (h.notMem_ids.mpr hi)]
  | some slot =>
    obtain ⟨n, hn, hmem, rfl⟩ := h.node_of_index hi
    simp [node, slotOf_of_some hi, hn, getNode_of_mem hmem]

theorem Represents.hasNode_eq (h : Represents x g) : x.hasNode = g.hasNode := by
  funext i
  rw [Bool.eq_iff_iff, hasNode_iff, h.mem_ids, Indexed.hasNode, Option.isSome_iff_exists]

theorem Represents.hasEdge_eq (hS : S.Documented) (h : Represents x g) : x.hasEdge = g.hasEdge := by
  funext u v
  rw [Bool.eq_iff_iff, hasEdge_iff]
  cases ha : x.index.get? u with
  | none =>
    have he : ⟨u, v⟩ ∉ g.edges := fun he => h.notMem_ids.mpr ha (source_mem_ids he)
    simp [Indexed.hasEdge, ha, he]
  | some a =>
    cases hb : x.index.get? v with
    | none =>
      have he : ⟨u, v⟩ ∉ g.edges := fun he => h.notMem_ids.mpr hb (target_mem_ids he)
      simp [Indexed.hasEdge, ha, hb, he]
    | some b =>
      simp only [Indexed.hasEdge, ha, hb]
      exact (hS.hasEdge x.inner a b).trans (h.edge_iff ha hb).symm

theorem Represents.ids_eq (h : Represents x g) : x.index.keys = g.ids := by
  apply eq_of_ascending x.index.keys_ascend g.ids_ascend
  intro i
  rw [IdMap.mem_keys, Option.isSome_iff_exists]
  exact h.mem_ids.symm

theorem Represents.nodes_eq (h : Represents x g) :
    x.index.values.filterMap (S.node? x.inner) = g.nodes := by
  calc x.index.values.filterMap (S.node? x.inner)
      = x.index.toList.filterMap (fun e => S.node? x.inner e.2) := List.filterMap_map
    _ = x.index.toList.filterMap (fun e => g.node? e.1) :=
        List.filterMap_congr fun e he => h.node?_eq (IdMap.get?_eq_some_iff.mpr he)
    _ = x.index.keys.filterMap g.node? := by rw [IdMap.keys, List.filterMap_map]; rfl
    _ = g.nodes := by rw [h.ids_eq, filterMap_node?_ids]

/-- The slots that the index leads to, each once, are those that hold nodes. -/
theorem Represents.nodeCount_eq (hS : S.Documented) (h : Represents x g) :
    S.nodeCount x.inner = g.nodeCount := by
  have hnodup : x.index.values.Nodup := by
    refine List.Nodup.map_on ?_ (x.index.sorted.imp fun hlt heq => ?_)
    · intro d hd e he heq
      have hid := h.index_inj (IdMap.get?_eq_some_iff.mpr hd) (heq ▸ IdMap.get?_eq_some_iff.mpr he)
      exact Prod.ext hid heq
    · exact Nat.ne_of_lt hlt (congrArg Prod.fst heq)
  have hmem : ∀ slot, slot ∈ x.index.values ↔ (S.node? x.inner slot).isSome = true := by
    intro slot
    simp only [IdMap.mem_values, h.index, idAt_eq_some_iff, Option.isSome_iff_exists]
    exact ⟨fun ⟨_, n, hn, _⟩ => ⟨n, hn⟩, fun ⟨n, hn⟩ => ⟨n.id, n, hn, rfl⟩⟩
  calc S.nodeCount x.inner
      = x.index.values.length := hS.nodeCount x.inner _ hnodup hmem
    _ = x.index.keys.length := by rw [IdMap.values, IdMap.keys, List.length_map, List.length_map]
    _ = g.nodeCount := by rw [h.ids_eq, Graph.ids, List.length_map, Graph.nodeCount]

/-- The edges, in the order of their slots. -/
theorem Represents.edges_perm (hS : S.Documented) (h : Represents x g) :
    (((S.edgeSlots x.inner).filterMap (S.ends? x.inner)).filterMap x.edgeAt).Perm
      g.edges.toList := by
  have hends : ∀ p, p ∈ (S.edgeSlots x.inner).filterMap (S.ends? x.inner) ↔
      ∃ e, S.ends? x.inner e = some p := by
    intro p
    simp only [List.mem_filterMap, hS.mem_edgeSlots]
    exact ⟨fun ⟨e, _, hp⟩ => ⟨e, hp⟩, fun ⟨e, hp⟩ => ⟨e, by rw [hp, Option.isSome_some], hp⟩⟩
  apply (List.perm_ext_iff_of_nodup ?_ ?_).mpr
  · intro d
    rcases d with ⟨u, v⟩
    rw [EdgeSet.mem_toList, h.edges, List.mem_filterMap]
    simp only [hends]
    exact ⟨fun ⟨p, ⟨e, hp⟩, hd⟩ => ⟨e, p, hp, hd⟩, fun ⟨e, p, hp, hd⟩ => ⟨p, ⟨e, hp⟩, hd⟩⟩
  · refine List.Nodup.filterMap ?_ (List.Nodup.filterMap ?_ (hS.nodup_edgeSlots x.inner))
    · intro p q d hp hq
      rcases d with ⟨u, v⟩
      obtain ⟨h₁, h₂⟩ := edgeAt_eq_some_iff.mp hp
      obtain ⟨h₃, h₄⟩ := edgeAt_eq_some_iff.mp hq
      rw [← h.index] at h₁ h₂ h₃ h₄
      exact Prod.ext (Option.some.inj (h₁.symm.trans h₃)) (Option.some.inj (h₂.symm.trans h₄))
    · intro d e p hd he
      exact h.single d e p hd he
  · refine g.edges.sorted.imp ?_
    intro a b hlt heq
    subst heq
    exact Edge.lt_irrefl a hlt

/-- Sorting a list of edges that are those of a set gives the list of the set. -/
theorem mergeSort_of_perm {l : List Edge} {s : EdgeSet} (h : l.Perm s.toList) :
    l.mergeSort (fun a b => decide (¬ b < a)) = s.toList := by
  have hsorted : (l.mergeSort fun a b => decide (¬ b < a)).Pairwise
      (fun a b => decide (¬ b < a) = true) := by
    apply List.pairwise_mergeSort
    · intro a b c hab hbc
      simp only [decide_eq_true_eq, Edge.lt_def] at *
      omega
    · intro a b
      simp only [Bool.or_eq_true, decide_eq_true_eq, Edge.lt_def]
      omega
  refine ((List.mergeSort_perm l _).trans h).eq_of_pairwise ?_ hsorted (s.sorted.imp ?_)
  · intro a b _ _ hab hba
    rcases Edge.lt_or_eq_or_gt a b with hlt | heq | hgt
    · exact absurd hlt (of_decide_eq_true hba)
    · exact heq
    · exact absurd hgt (of_decide_eq_true hab)
  · intro a b hlt
    exact decide_eq_true fun hgt => Edge.lt_irrefl a (Edge.lt_trans hlt hgt)

/-- No edge leads to or from a free slot. -/
theorem Represents.edgeAt_ends (h : Represents x g) :
    ∀ p ∈ (S.edgeSlots x.inner).filterMap (S.ends? x.inner), ∃ d, x.edgeAt p = some d := by
  intro p hp
  obtain ⟨e, _, hends⟩ := List.mem_filterMap.mp hp
  exact h.ends e p hends

theorem Represents.edges_eq (hS : S.Documented) (h : Represents x g) :
    x.edges = some g.edges.toList := by
  rw [Indexed.edges, mapM_eq_some_filterMap h.edgeAt_ends, Option.map_some,
    mergeSort_of_perm (h.edges_perm hS)]

theorem Represents.edgeCount_eq (hS : S.Documented) (h : Represents x g) :
    S.edgeCount x.inner = g.edgeCount := by
  have hslots : ((S.edgeSlots x.inner).filterMap (S.ends? x.inner)).length =
      (S.edgeSlots x.inner).length :=
    List.filterMap_length_eq_length.mpr fun e he => (hS.mem_edgeSlots x.inner e).mp he
  have hends := List.filterMap_length_eq_length.mpr fun p hp =>
    Option.isSome_iff_exists.mpr (h.edgeAt_ends p hp)
  calc S.edgeCount x.inner
      = (S.edgeSlots x.inner).length := hS.edgeCount x.inner
    _ = ((S.edgeSlots x.inner).filterMap (S.ends? x.inner)).length := hslots.symm
    _ = (((S.edgeSlots x.inner).filterMap (S.ends? x.inner)).filterMap x.edgeAt).length := hends.symm
    _ = g.edgeCount := (h.edges_perm hS).length_eq

/-- The ids around a node, where the slots around its slot lead to a list of ids. -/
theorem Represents.neighbours_eq (h : Represents x g) {around : S.State → Nat → List Nat}
    {l : List Nat} (hl : l.Pairwise (· < ·))
    (hall : ∀ slot, x.index.get? i = some slot → ∀ a ∈ around x.inner slot, ∃ u, x.idAt a = some u)
    (hmem : ∀ slot, x.index.get? i = some slot → ∀ u, u ∈ l ↔
      ∃ a ∈ around x.inner slot, x.idAt a = some u) :
    x.neighbours around i = some (if g.hasNode i then .ok l else .error (.notFound i)) := by
  cases hi : x.index.get? i with
  | none =>
    have hno : ¬ g.hasNode i = true := hasNode_iff.not.mpr (h.notMem_ids.mpr hi)
    rw [if_neg hno, neighbours, slotOf_of_none hi]
  | some slot =>
    have hyes : g.hasNode i = true := hasNode_iff.mpr (h.mem_ids.mpr ⟨slot, hi⟩)
    have hasc : ascending ((around x.inner slot).filterMap x.idAt) = l := by
      apply eq_of_ascending (ascending_pairwise _) hl
      intro u
      rw [mem_ascending, List.mem_filterMap, hmem slot hi]
    rw [if_pos hyes, neighbours, slotOf_of_some hi]
    simp only [mapM_eq_some_filterMap (hall slot hi), Option.map_some, hasc]

theorem Represents.incoming_eq (hS : S.Documented) (h : Represents x g) (i : Nat) :
    x.neighbours S.sources i = some (g.incoming i) := by
  refine h.neighbours_eq (g.callers_ascend i) ?_ ?_
  · intro slot hi a ha
    obtain ⟨e, he⟩ := (hS.sources x.inner slot a).mp ha
    obtain ⟨⟨u, v⟩, hd⟩ := h.ends e _ he
    exact ⟨u, (edgeAt_eq_some_iff.mp hd).1⟩
  · intro slot hi u
    simp only [mem_callers, hS.sources]
    refine ⟨?_, ?_⟩
    · intro he
      obtain ⟨a, ha⟩ := h.mem_ids.mp (source_mem_ids he)
      exact ⟨a, (h.edge_iff ha hi).mp he, (h.index u a).mp ha⟩
    · intro hx
      obtain ⟨a, he, ha⟩ := hx
      exact (h.edge_iff ((h.index u a).mpr ha) hi).mpr he

theorem Represents.outgoing_eq (hS : S.Documented) (h : Represents x g) (i : Nat) :
    x.neighbours S.targets i = some (g.outgoing i) := by
  refine h.neighbours_eq (g.callees_ascend i) ?_ ?_
  · intro slot hi b hb
    obtain ⟨e, he⟩ := (hS.targets x.inner slot b).mp hb
    obtain ⟨⟨u, v⟩, hd⟩ := h.ends e _ he
    exact ⟨v, (edgeAt_eq_some_iff.mp hd).2⟩
  · intro slot hi v
    simp only [mem_callees, hS.targets]
    refine ⟨?_, ?_⟩
    · intro he
      obtain ⟨b, hb⟩ := h.mem_ids.mp (target_mem_ids he)
      exact ⟨b, (h.edge_iff hi hb).mp he, (h.index v b).mp hb⟩
    · intro hx
      obtain ⟨b, he, hb⟩ := hx
      exact (h.edge_iff hi ((h.index v b).mpr hb)).mpr he

theorem Represents.incidentTo_eq (h : Represents x g) : x.incidentTo = g.incidentTo := by
  funext es
  apply eq_of_ascending (ascending_pairwise _) (g.ids_ascend.sublist List.filter_sublist)
  intro i
  rw [mem_ascending, List.mem_filter, h.hasNode_eq, hasNode_iff, and_comm]
  refine Iff.trans (and_congr_right fun _ => ?_) mem_incidentTo.symm
  simp [Edge.touches, @eq_comm _ i]

/-- A graph and the slots that stand for it cannot be told apart. -/
theorem Represents.view_eq (hS : S.Documented) (h : Represents x g) : x.view = g.view := by
  rw [Indexed.view, Graph.view, h.node_eq, h.hasNode_eq, h.hasEdge_eq hS, h.nodeCount_eq hS,
    h.edgeCount_eq hS, h.ids_eq, h.nodes_eq, h.edges_eq hS, funext (h.incoming_eq hS),
    funext (h.outgoing_eq hS), h.incidentTo_eq]

/-! ## Room -/

/-- A call goes through if there is room for what it adds. -/
theorem Represents.call_isSome (hS : S.Documented) (h : Represents x g) {c : Call}
    (hn : c.addsNode = true → g.nodeCount < slotLimit)
    (he : c.addsEdge = true → g.edgeCount < slotLimit) : (x.call c).isSome = true := by
  cases c with
  | addNode n =>
    have hroom := hS.addNode_room x.inner { n with id := x.next } (h.nodeCount_eq hS ▸ hn rfl)
    rwa [Indexed.call, Indexed.addNode, Option.isSome_map]
  | addEdge u v =>
    cases ha : x.index.get? u with
    | none => simp [Indexed.call, Indexed.addEdge, slotOf_of_none ha]
    | some a =>
      cases hb : x.index.get? v with
      | none => simp [Indexed.call, Indexed.addEdge, slotOf_of_some ha, slotOf_of_none hb]
      | some b =>
        obtain ⟨m, hm, _⟩ := h.node_of_index ha
        obtain ⟨n, hn, _⟩ := h.node_of_index hb
        have hroom : (S.addEdge x.inner a b).isSome = true :=
          hS.addEdge_room x.inner a b (by rw [hm]; rfl) (by rw [hn]; rfl)
            (h.edgeCount_eq hS ▸ he rfl)
        simp only [Indexed.call, Indexed.addEdge, slotOf_of_some ha, slotOf_of_some hb]
        split
        · rfl
        · rwa [Option.isSome_map]
  | removeEdge u v => rfl
  | removeNode i => rfl

/-! ## Runs -/

theorem replay_snoc (x : Indexed S) (calls : List Call) (c : Call) :
    x.replay (calls ++ [c]) =
      (x.replay calls).bind fun p => (p.1.call c).map fun q => (q.1, p.2 ++ [(c, q.2)]) := by
  simp only [replay, List.foldlM_append, List.foldlM_cons, List.foldlM_nil, bind_pure]
  rfl

theorem replay_snoc_eq_some {x y : Indexed S} {calls : List Call} {c : Call}
    {t : List (Call × Reply)} (h : x.replay (calls ++ [c]) = some (y, t)) :
    ∃ x' t' r, x.replay calls = some (x', t') ∧ x'.call c = some (y, r) ∧ t = t' ++ [(c, r)] := by
  rw [replay_snoc] at h
  obtain ⟨⟨x', t'⟩, hx, hmap⟩ := Option.bind_eq_some_iff.mp h
  obtain ⟨⟨z, r⟩, hc, heq⟩ := Option.map_eq_some_iff.mp hmap
  obtain ⟨rfl, rfl⟩ := Prod.mk.inj heq
  exact ⟨x', t', r, hx, hc, rfl⟩

/-- Calls to an empty graph in slots get the replies of the empty graph, and lead to slots that stand
for the graph they lead to. -/
theorem represents_replay (hS : S.Documented) {calls : List Call} {t : List (Call × Reply)}
    (h : (Indexed.empty S).replay calls = some (x, t)) :
    Represents x (Graph.empty.replay calls).1 ∧ t = (Graph.empty.replay calls).2 := by
  induction calls using List.reverseRecOn generalizing x t with
  | nil =>
    obtain ⟨rfl, rfl⟩ := Prod.mk.inj (Option.some.inj h)
    exact ⟨represents_empty hS, rfl⟩
  | append_singleton calls c ih =>
    obtain ⟨x', t', r, hx, hc, rfl⟩ := replay_snoc_eq_some h
    obtain ⟨hrep, rfl⟩ := ih hx
    obtain ⟨g', hanswer, hrep', _⟩ := hrep.call hS hc
    rw [Graph.replay_snoc, hanswer.eq]
    exact ⟨hrep', rfl⟩

/-- The limit on nodes and edges is not reached by fewer than 2 ^ 32 that are added. -/
theorem exists_replay (hS : S.Documented) (calls : List Call)
    (hn : calls.countP Call.addsNode < Nat.pow 2 32)
    (he : calls.countP Call.addsEdge < Nat.pow 2 32) :
    ∃ x, (Indexed.empty S).replay calls = some (x, (Graph.empty.replay calls).2) := by
  induction calls using List.reverseRecOn with
  | nil => exact ⟨Indexed.empty S, rfl⟩
  | append_singleton calls c ih =>
    rw [List.countP_append] at hn he
    obtain ⟨x, hx⟩ := ih (Nat.lt_of_le_of_lt (Nat.le_add_right _ _) hn)
      (Nat.lt_of_le_of_lt (Nat.le_add_right _ _) he)
    obtain ⟨hrep, _⟩ := represents_replay hS hx
    have hnodes := Graph.nodeCount_replay_le calls
    have hedges := Graph.edgeCount_replay_le calls
    have hlimit : slotLimit = Nat.pow 2 32 - 1 := rfl
    have hsome : (x.call c).isSome = true := by
      refine hrep.call_isSome hS ?_ ?_
      · intro hc
        rw [List.countP_singleton, if_pos hc] at hn
        omega
      · intro hc
        rw [List.countP_singleton, if_pos hc] at he
        omega
    obtain ⟨⟨y, r⟩, hy⟩ := Option.isSome_iff_exists.mp hsome
    obtain ⟨g', hanswer, _⟩ := hrep.call hS hy
    refine ⟨y, ?_⟩
    rw [replay_snoc, hx, Graph.replay_snoc, hanswer.eq]
    simp [hy]

end Indexed

end CallGraph
