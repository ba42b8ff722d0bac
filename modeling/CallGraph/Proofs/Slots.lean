import CallGraph.Slots
import Mathlib.Data.List.Nodup
import Mathlib.Data.List.Range

/-!
Slots that are used again keep what graphs in slots promise.

An operation on a row of slots is described by what stands in each slot after it (`get?_insert?`,
`get?_erase`). That a slot was used before leaves no trace in these descriptions, so they give the
promises of `Documented` one by one.
-/

namespace CallGraph

namespace Slab

variable {α : Type} {p q : Slab α} {a : α} {i j : Nat}

theorem lt_length_of_mem_free (h : i ∈ p.free) : i < p.slots.length := by
  rw [p.free_iff] at h
  exact (List.getElem?_eq_some_iff.mp h).1

theorem lt_length_of_isSome (h : (p.get? i).isSome = true) : i < p.slots.length := by
  apply Nat.lt_of_not_le
  intro hle
  rw [get?, List.getElem?_eq_none hle] at h
  exact absurd h (by simp)

theorem get?_reuse {rest : List Nat} (h : p.free = i :: rest) :
    (p.reuse a i rest h).get? j = if j = i then some a else p.get? j := by
  have hlt : i < p.slots.length := lt_length_of_mem_free (by rw [h]; simp)
  rw [get?, get?, reuse, List.getElem?_set]
  by_cases hij : j = i
  · simp [hij, hlt]
  · simp [hij, Ne.symm hij]

theorem get?_extend (h : p.free = []) :
    (p.extend a h).get? j = if j = p.slots.length then some a else p.get? j := by
  rw [get?, get?, extend, List.getElem?_append]
  by_cases hlt : j < p.slots.length
  · rw [if_pos hlt, if_neg (Nat.ne_of_lt hlt)]
  · rw [if_neg hlt]
    by_cases heq : j = p.slots.length
    · simp [heq]
    · have hpos : [some a].length ≤ j - p.slots.length := by
        rw [List.length_singleton]
        omega
      have hnone : [some a][j - p.slots.length]? = none := List.getElem?_eq_none hpos
      rw [hnone, if_neg heq, List.getElem?_eq_none (Nat.le_of_not_lt hlt)]

/-- What is put in goes to a slot that was free, and no other slot changes. -/
theorem get?_insert? (h : p.insert? a = some (q, i)) :
    p.get? i = none ∧ ∀ j, q.get? j = if j = i then some a else p.get? j := by
  unfold insert? at h
  split at h
  · next k rest hfree =>
    simp only [Option.some.injEq, Prod.mk.injEq] at h
    obtain ⟨rfl, rfl⟩ := h
    have hmem : k ∈ p.free := by rw [hfree]; simp
    exact ⟨by rw [get?, (p.free_iff k).mp hmem]; rfl, fun j => get?_reuse hfree⟩
  · next hfree =>
    split at h
    · simp only [Option.some.injEq, Prod.mk.injEq] at h
      obtain ⟨rfl, rfl⟩ := h
      exact ⟨by simp [get?], fun j => get?_extend hfree⟩
    · cases h

theorem mem_used : i ∈ p.used ↔ (p.get? i).isSome = true := by
  rw [used, List.mem_filter, List.mem_range]
  exact ⟨And.right, fun h => ⟨lt_length_of_isSome h, h⟩⟩

theorem nodup_used (p : Slab α) : p.used.Nodup := List.nodup_range.filter _

/-- There is room until as many slots are used as there can be. -/
theorem insert?_room (h : p.count < slotLimit) : (p.insert? a).isSome = true := by
  unfold insert?
  split
  · rfl
  · next hfree =>
    have hused : p.used = List.range p.slots.length := by
      apply List.filter_eq_self.mpr
      intro j hj
      rw [List.mem_range] at hj
      cases hslot : p.slots[j]? with
      | none => exact absurd (List.getElem?_eq_none_iff.mp hslot) (by omega)
      | some o =>
        cases o with
        | none =>
          have hmem := (p.free_iff j).mpr hslot
          rw [hfree] at hmem
          cases hmem
        | some b => simp [get?, hslot]
    rw [count, hused, List.length_range] at h
    rw [if_pos h]
    rfl

theorem get?_erase : (p.erase i).get? j = if j = i then none else p.get? j := by
  unfold erase
  split
  · next h =>
    have hlt := lt_length_of_isSome h
    rw [get?, get?, release, List.getElem?_set]
    by_cases hij : j = i
    · simp [hij, hlt]
    · simp [hij, Ne.symm hij]
  · next h =>
    by_cases hij : j = i
    · rw [if_pos hij, hij, ← Option.not_isSome_iff_eq_none]
      exact h
    · rw [if_neg hij]

theorem get?_eraseAll {is : List Nat} :
    (p.eraseAll is).get? j = if j ∈ is then none else p.get? j := by
  unfold eraseAll
  induction is generalizing p with
  | nil => simp
  | cons i is ih =>
    rw [List.foldl_cons, ih, get?_erase]
    by_cases hj : j ∈ is
    · simp [hj]
    · simp [hj]

end Slab

namespace Slots

variable {s : Slots} {e : Nat} {p : Nat × Nat → Bool}

theorem mem_edgesWhere : e ∈ s.edgesWhere p ↔ ∃ q, s.edges.get? e = some q ∧ p q = true := by
  rw [edgesWhere, List.mem_filter, Slab.mem_used]
  cases s.edges.get? e with
  | none => simp
  | some q => simp

theorem mem_edgesWhere_eq {a b : Nat} :
    e ∈ s.edgesWhere (· == (a, b)) ↔ s.edges.get? e = some (a, b) := by
  rw [mem_edgesWhere]
  simp

/-- What a function gives at the ends of the edges that satisfy a test. -/
theorem mem_filterMap_edgesWhere {f : Nat × Nat → Nat} {c : Nat} :
    c ∈ (s.edgesWhere p).filterMap (fun e => (s.edges.get? e).map f) ↔
      ∃ e q, s.edges.get? e = some q ∧ p q = true ∧ f q = c := by
  simp only [List.mem_filterMap, mem_edgesWhere, Option.map_eq_some_iff]
  refine ⟨?_, ?_⟩
  · intro hx
    obtain ⟨e, ⟨q, hq, hp⟩, q', hq', hc⟩ := hx
    rw [hq] at hq'
    exact ⟨e, q, hq, hp, Option.some.inj hq' ▸ hc⟩
  · intro hx
    obtain ⟨e, q, hq, hp, hc⟩ := hx
    exact ⟨e, ⟨q, hq, hp⟩, q, hq, hc⟩

/-- The ends of the edges that are left when a node goes. -/
theorem get?_edges_removeNode {i : Nat} :
    (s.edges.eraseAll (s.edgesWhere fun p => p.1 == i || p.2 == i)).get? e =
      (s.edges.get? e).filter fun p => p.1 != i && p.2 != i := by
  rw [Slab.get?_eraseAll]
  cases hends : s.edges.get? e with
  | none => simp
  | some q =>
    by_cases hq : (q.1 == i || q.2 == i) = true
    · have hmem : e ∈ s.edgesWhere fun p => p.1 == i || p.2 == i := mem_edgesWhere.mpr ⟨q, hends, hq⟩
      rw [if_pos hmem]
      simp only [Option.filter, bne, ← Bool.not_or, hq]
      rfl
    · have hmem : e ∉ s.edgesWhere fun p => p.1 == i || p.2 == i := by
        intro hmem
        obtain ⟨q', hq', htouch⟩ := mem_edgesWhere.mp hmem
        rw [hends] at hq'
        exact hq (Option.some.inj hq' ▸ htouch)
      rw [if_neg hmem]
      simp only [Option.filter, bne, ← Bool.not_or, hq]
      rfl

end Slots

/-- The graph in slots keeps all that is promised. -/
theorem slotGraph_documented : slotGraph.Documented where
  node?_empty _ := rfl
  ends?_empty _ := rfl
  addNode_room s n hroom := by
    have h : (s.nodes.insert? n).isSome = true := Slab.insert?_room hroom
    simpa [slotGraph] using h
  addNode s n t i h := by
    obtain ⟨⟨q, k⟩, hq, heq⟩ := Option.map_eq_some_iff.mp h
    obtain ⟨rfl, rfl⟩ := Prod.mk.inj heq
    obtain ⟨hfree, hget⟩ := Slab.get?_insert? hq
    exact ⟨hfree, hget, fun _ => rfl⟩
  addEdge_room s a b ha hb hroom := by
    have h : (s.edges.insert? (a, b)).isSome = true := Slab.insert?_room hroom
    have ha' : (s.nodes.get? a).isSome = true := ha
    have hb' : (s.nodes.get? b).isSome = true := hb
    simpa [slotGraph, Slots.addEdge, ha', hb'] using h
  addEdge s a b t e h := by
    replace h : s.addEdge a b = some (t, e) := h
    unfold Slots.addEdge at h
    split at h
    · obtain ⟨⟨q, k⟩, hq, heq⟩ := Option.map_eq_some_iff.mp h
      obtain ⟨rfl, rfl⟩ := Prod.mk.inj heq
      obtain ⟨hfree, hget⟩ := Slab.get?_insert? hq
      exact ⟨hfree, hget, fun _ => rfl⟩
    · cases h
  removeNode_free s i h := by
    replace h : s.nodes.get? i = none := h
    simp [slotGraph, Slots.removeNode, h]
  removeNode s i n h := by
    replace h : s.nodes.get? i = some n := h
    have hremoved : slotGraph.removeNode s i =
        (⟨s.nodes.erase i, s.edges.eraseAll (s.edgesWhere fun p => p.1 == i || p.2 == i)⟩, some n) := by
      simp [slotGraph, Slots.removeNode, h]
    rw [hremoved]
    exact ⟨rfl, fun _ => Slab.get?_erase, fun _ => Slots.get?_edges_removeNode⟩
  removeEdge s e := ⟨rfl, fun _ => Slab.get?_erase, fun _ => rfl⟩
  findEdge_some s a b e h := Slots.mem_edgesWhere_eq.mp (List.mem_of_head? h)
  findEdge_none s a b h e he := by
    have hempty : s.edgesWhere (· == (a, b)) = [] := List.head?_eq_none_iff.mp h
    have hmem : e ∈ s.edgesWhere (· == (a, b)) := Slots.mem_edgesWhere_eq.mpr he
    rw [hempty] at hmem
    cases hmem
  hasEdge s a b := by
    have hiff : (!(s.edgesWhere (· == (a, b))).isEmpty) = true ↔
        ∃ e, e ∈ s.edgesWhere (· == (a, b)) := by
      rw [Bool.not_eq_true', List.isEmpty_eq_false_iff_exists_mem]
    exact hiff.trans (exists_congr fun e => Slots.mem_edgesWhere_eq)
  nodup_edgeSlots s := s.edges.nodup_used
  mem_edgeSlots s e := Slab.mem_used
  sources s i a := by
    refine (Slots.mem_filterMap_edgesWhere (s := s)).trans (exists_congr fun e => ?_)
    refine ⟨?_, ?_⟩
    · intro hx
      obtain ⟨⟨c, d⟩, hq, hp, rfl⟩ := hx
      have hd : d = i := beq_iff_eq.mp hp
      exact hd ▸ hq
    · intro he
      exact ⟨(a, i), he, beq_self_eq_true i, rfl⟩
  targets s i b := by
    refine (Slots.mem_filterMap_edgesWhere (s := s)).trans (exists_congr fun e => ?_)
    refine ⟨?_, ?_⟩
    · intro hx
      obtain ⟨⟨c, d⟩, hq, hp, rfl⟩ := hx
      have hc : c = i := beq_iff_eq.mp hp
      exact hc ▸ hq
    · intro he
      exact ⟨(i, b), he, beq_self_eq_true i, rfl⟩
  nodeCount s l hl hmem := by
    have hperm : s.nodes.used.Perm l := by
      rw [List.perm_ext_iff_of_nodup s.nodes.nodup_used hl]
      intro i
      rw [Slab.mem_used]
      exact (hmem i).symm
    exact hperm.length_eq
  edgeCount _ := rfl

end CallGraph
