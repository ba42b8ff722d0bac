import CallGraph.Proofs.Resolution
import Mathlib.Data.Finset.Card

/-!
The collapsing pass, call site by call site.

A pass changes the graph and the set of highlighted edges at every call site, and call sites may
call each other, so an edge made at one call site can be gone after the next. `Midway g done s`
says what the state `s` is once the call sites `done` have been handled, whichever order they came
in: the matched ones among them are gone, and every edge into one of them now leads to its
declaration, if its source is still there.

What is proved:
1. `redirect_run`, `resolve_spec`: what linking the callers of a call site, and replacing a call
   site, do to nodes, edges, highlighted edges and counters. Neither fails.
2. `step_midway`: handling one more call site of the graph takes `Midway g done` to
   `Midway g (insert call done)`.
3. `collapse_midway`: the pass never fails and ends with every call site handled, so what it leaves
   has a closed form (`Collapsed`): its nodes, edges, highlighted edges and counters.
-/

namespace CallGraph

namespace Collapsing

variable {s s' s'' : Collapsing} {call d u : Nat}

/-! ## Linking the callers of a call site -/

/-- What linking callers to a declaration does. -/
structure Linked (callers : List Nat) (d : Nat) (s s' : Collapsing) : Prop where
  nodes : s'.graph.nodes = s.graph.nodes
  next : s'.graph.next = s.graph.next
  edges : ∀ e, e ∈ s'.graph.edges ↔ e ∈ s.graph.edges ∨ e.source ∈ callers ∧ e.target = d
  highlighted : ∀ e, e ∈ s'.outcome.highlighted ↔
    e ∈ s.outcome.highlighted ∨ e.source ∈ callers ∧ e.target = d
  collapsed : s'.outcome.collapsed = s.outcome.collapsed
  unmatched : s'.outcome.unmatched = s.outcome.unmatched

theorem Linked.ids {callers : List Nat} (h : Linked callers d s s') : s'.graph.ids = s.graph.ids :=
  congrArg (List.map Node.id) h.nodes

theorem Linked.cons {us : List Nat} (h : Linked [u] d s s') (h' : Linked us d s' s'') :
    Linked (u :: us) d s s'' := by
  refine ⟨h'.nodes.trans h.nodes, h'.next.trans h.next, ?_, ?_, h'.collapsed.trans h.collapsed,
    h'.unmatched.trans h.unmatched⟩
  · intro e
    rw [h'.edges, h.edges, List.mem_singleton, List.mem_cons]
    tauto
  · intro e
    rw [h'.highlighted, h.highlighted, List.mem_singleton, List.mem_cons]
    tauto

theorem redirect_spec (hu : u ∈ s.graph.ids) (hd : d ∈ s.graph.ids) :
    ∃ s', redirect d s u = .ok s' ∧ Linked [u] d s s' := by
  have hnew : ∀ e : Edge, e = ⟨u, d⟩ ↔ e.source ∈ [u] ∧ e.target = d := by
    intro e
    obtain ⟨x, y⟩ := e
    simp
  refine ⟨_, by rw [redirect, Graph.addEdge_of_mem hu hd]; rfl, ?_⟩
  refine ⟨rfl, rfl, ?_, ?_, rfl, rfl⟩
  · intro e
    rw [Graph.mem_edges_link, hnew, or_comm]
  · intro e
    rw [EdgeSet.mem_insert, hnew, or_comm]

theorem redirect_run (callers : List Nat) (hc : ∀ u ∈ callers, u ∈ s.graph.ids)
    (hd : d ∈ s.graph.ids) :
    ∃ s', callers.foldlM (redirect d) s = .ok s' ∧ Linked callers d s s' := by
  induction callers generalizing s with
  | nil => exact ⟨s, rfl, rfl, rfl, by simp, by simp, rfl, rfl⟩
  | cons u us ih =>
    obtain ⟨s₁, hs₁, hl₁⟩ := redirect_spec (hc u List.mem_cons_self) hd
    have hrest : ∀ w ∈ us, w ∈ s₁.graph.ids :=
      fun w hw => hl₁.ids ▸ hc w (List.mem_cons_of_mem u hw)
    obtain ⟨s₂, hs₂, hl₂⟩ := ih hrest (hl₁.ids ▸ hd)
    refine ⟨s₂, ?_, hl₁.cons hl₂⟩
    rw [List.foldlM_cons, hs₁]
    exact hs₂

/-! ## Replacing a call site -/

/-- What replacing a call site by a declaration does. -/
structure Replaced (call d : Nat) (s s' : Collapsing) : Prop where
  nodes : ∀ n, n ∈ s'.graph.nodes ↔ n ∈ s.graph.nodes ∧ n.id ≠ call
  next : s'.graph.next = s.graph.next
  edges : ∀ e, e ∈ s'.graph.edges ↔ e.source ≠ call ∧ e.target ≠ call ∧
    (e ∈ s.graph.edges ∨ ⟨e.source, call⟩ ∈ s.graph.edges ∧ e.target = d)
  highlighted : ∀ e, e ∈ s'.outcome.highlighted ↔ e.source ≠ call ∧ e.target ≠ call ∧
    (e ∈ s.outcome.highlighted ∨ ⟨e.source, call⟩ ∈ s.graph.edges ∧ e.target = d)
  collapsed : s'.outcome.collapsed = s.outcome.collapsed + 1
  unmatched : s'.outcome.unmatched = s.outcome.unmatched

theorem resolve_spec (hc : call ∈ s.graph.ids) (hd : d ∈ s.graph.ids) :
    ∃ s', s.resolve call d = .ok s' ∧ Replaced call d s s' := by
  -- the callers, the call site itself apart, are nodes of the graph
  have hmem : ∀ w, w ∈ (s.graph.callers call).filter (· != call) ↔
      ⟨w, call⟩ ∈ s.graph.edges ∧ w ≠ call := by
    intro w
    rw [List.mem_filter, Graph.mem_callers, bne_iff_ne]
  have hids : ∀ w ∈ (s.graph.callers call).filter (· != call), w ∈ s.graph.ids :=
    fun w hw => Graph.source_mem_ids ((hmem w).mp hw).1
  obtain ⟨s₁, hs₁, hl⟩ := redirect_run _ hids hd
  obtain ⟨n, hn, hid⟩ := Graph.mem_ids.mp (hl.ids ▸ hc)
  have hremove := Graph.removeNode_of_mem hn
  rw [hid] at hremove
  refine ⟨_, by
    rw [resolve, Graph.incoming_of_mem hc]
    simp only [bind, Except.bind, hs₁, hremove]
    rfl, ?_⟩
  refine ⟨?_, hl.next, ?_, ?_, congrArg (· + 1) hl.collapsed, hl.unmatched⟩
  · intro m
    rw [Graph.mem_nodes_restrict, hl.nodes, bne_iff_ne]
  · intro e
    rw [Graph.mem_edges_restrict, hl.edges, hmem, bne_iff_ne, bne_iff_ne]
    tauto
  · intro e
    rw [EdgeSet.mem_filter, hl.highlighted, hmem]
    simp only [Edge.touches, Bool.not_eq_true', Bool.or_eq_false_iff, beq_eq_false_iff_ne]
    tauto

/-! ## The state of a pass -/

/-- The edge leads from a caller of one of the call sites `done` to what that call site resolves
to. -/
def Redirected (g : Graph) (done : Finset Nat) (e : Edge) : Prop :=
  ∃ c ∈ done, ⟨e.source, c⟩ ∈ g.edges ∧ g.Resolves c e.target

/-- The state of a pass over `g` once the call sites `done` have been handled. -/
structure Midway (g : Graph) (done : Finset Nat) (s : Collapsing) : Prop where
  nodes : ∀ n, n ∈ s.graph.nodes ↔ n ∈ g.nodes ∧ n.id ∉ done ∩ g.matched
  next : s.graph.next = g.next
  edges : ∀ e, e ∈ s.graph.edges ↔ e.source ∉ done ∩ g.matched ∧
    (e ∈ g.edges ∧ e.target ∉ done ∩ g.matched ∨ Redirected g done e)
  highlighted : ∀ e, e ∈ s.outcome.highlighted ↔
    e.source ∉ done ∩ g.matched ∧ Redirected g done e
  collapsed : s.outcome.collapsed = (done ∩ g.matched).card
  unmatched : s.outcome.unmatched = (done \ g.matched).card

variable {g : Graph} {done : Finset Nat}

theorem midway_start (g : Graph) : Midway g ∅ { graph := g } := by
  have hnone : ∀ e, ¬ Redirected g ∅ e := by
    intro e hx
    obtain ⟨c, hc, _⟩ := hx
    simp at hc
  refine ⟨by simp, rfl, ?_, ?_, by simp, by simp⟩
  · intro e
    simp [hnone e]
  · intro e
    simp only [hnone e, and_false, iff_false]
    exact List.not_mem_nil

/-- The graph and the outcome are fixed by the call sites that have been handled. -/
theorem Midway.unique (h : Midway g done s) (h' : Midway g done s') :
    s.graph = s'.graph ∧ s.outcome = s'.outcome := by
  refine ⟨?_, ?_⟩
  · apply Graph.ext_views
    · intro n
      rw [h.nodes, h'.nodes]
    · intro e
      rw [h.edges, h'.edges]
    · rw [h.next, h'.next]
  · have hh : s.outcome.highlighted = s'.outcome.highlighted := by
      apply EdgeSet.ext
      intro e
      rw [h.highlighted, h'.highlighted]
    have hc : s.outcome.collapsed = s'.outcome.collapsed := by rw [h.collapsed, h'.collapsed]
    have hu : s.outcome.unmatched = s'.outcome.unmatched := by rw [h.unmatched, h'.unmatched]
    rcases hs : s.outcome with ⟨_, _, _⟩
    rcases hs' : s'.outcome with ⟨_, _, _⟩
    simp only [hs, hs'] at hh hc hu
    rw [hh, hc, hu]

theorem Redirected.target_not_mem_callSites {e : Edge} (h : Redirected g done e) :
    e.target ∉ g.callSites := by
  obtain ⟨_, _, _, hr⟩ := h
  exact hr.target_spec.2

/-- Edges into a call site are not made during a pass, they only go when their source goes. -/
theorem Midway.mem_edges_into (h : Midway g done s) (hc : call ∈ g.callSites) (hd : call ∉ done)
    (u : Nat) : ⟨u, call⟩ ∈ s.graph.edges ↔ u ∉ done ∩ g.matched ∧ ⟨u, call⟩ ∈ g.edges := by
  rw [h.edges]
  have hnew : ¬ Redirected g done ⟨u, call⟩ := fun hr => hr.target_not_mem_callSites hc
  have hkeep : call ∉ done ∩ g.matched := fun hm => hd (Finset.mem_inter.mp hm).1
  simp only [hnew, hkeep, not_false_eq_true, and_true, or_false]

theorem redirected_insert (hr : g.Resolves call d) (e : Edge) : Redirected g (insert call done) e ↔
    ⟨e.source, call⟩ ∈ g.edges ∧ e.target = d ∨ Redirected g done e := by
  refine ⟨?_, ?_⟩
  · intro hx
    obtain ⟨c, hc, he, hce⟩ := hx
    rcases Finset.mem_insert.mp hc with rfl | hc
    · exact Or.inl ⟨he, hce.unique hr⟩
    · exact Or.inr ⟨c, hc, he, hce⟩
  · intro hx
    rcases hx with ⟨he, rfl⟩ | ⟨c, hc, he, hce⟩
    · exact ⟨call, Finset.mem_insert_self call done, he, hr⟩
    · exact ⟨c, Finset.mem_insert_of_mem hc, he, hce⟩

theorem redirected_insert_of_not_mem (hm : call ∉ g.matched) (e : Edge) :
    Redirected g (insert call done) e ↔ Redirected g done e := by
  refine ⟨?_, ?_⟩
  · intro hx
    obtain ⟨c, hc, he, hce⟩ := hx
    rcases Finset.mem_insert.mp hc with rfl | hc
    · exact absurd hce.mem_matched hm
    · exact ⟨c, hc, he, hce⟩
  · intro hx
    obtain ⟨c, hc, he, hce⟩ := hx
    exact ⟨c, Finset.mem_insert_of_mem hc, he, hce⟩

/-! ## One more call site -/

theorem Midway.replaced (h : Midway g done s) (hr : g.Resolves call d) (hd : call ∉ done)
    (hs : Replaced call d s s') : Midway g (insert call done) s' := by
  have hm := hr.mem_matched
  have hc := g.matched_subset_callSites hm
  have hgone : insert call done ∩ g.matched = insert call (done ∩ g.matched) :=
    Finset.insert_inter_of_mem hm
  have hinto := h.mem_edges_into hc hd
  -- no redirected edge ends at the call site that goes
  have hold : ∀ e, Redirected g done e → e.target ≠ call :=
    fun e he heq => he.target_not_mem_callSites (heq ▸ hc)
  have hdecl : d ≠ call := fun heq => hr.target_spec.2 (heq ▸ hc)
  refine ⟨?_, hs.next.trans h.next, ?_, ?_, ?_, ?_⟩
  · intro n
    rw [hs.nodes, h.nodes, hgone, Finset.mem_insert, not_or]
    tauto
  · intro e
    rw [hs.edges, h.edges, hinto, hgone, redirected_insert hr, Finset.mem_insert, Finset.mem_insert,
      not_or, not_or]
    refine ⟨?_, ?_⟩
    · intro hx
      obtain ⟨hne, hte, ⟨hsrc, ⟨he, htm⟩ | hred⟩ | ⟨⟨hsrc, he⟩, htd⟩⟩ := hx
      · exact ⟨⟨hne, hsrc⟩, Or.inl ⟨he, hte, htm⟩⟩
      · exact ⟨⟨hne, hsrc⟩, Or.inr (Or.inr hred)⟩
      · exact ⟨⟨hne, hsrc⟩, Or.inr (Or.inl ⟨he, htd⟩)⟩
    · intro hx
      obtain ⟨⟨hne, hsrc⟩, ⟨he, hte, htm⟩ | ⟨he, rfl⟩ | hred⟩ := hx
      · exact ⟨hne, hte, Or.inl ⟨hsrc, Or.inl ⟨he, htm⟩⟩⟩
      · exact ⟨hne, hdecl, Or.inr ⟨⟨hsrc, he⟩, rfl⟩⟩
      · exact ⟨hne, hold e hred, Or.inl ⟨hsrc, Or.inr hred⟩⟩
  · intro e
    rw [hs.highlighted, h.highlighted, hinto, hgone, redirected_insert hr, Finset.mem_insert, not_or]
    refine ⟨?_, ?_⟩
    · intro hx
      obtain ⟨hne, _, ⟨hsrc, hred⟩ | ⟨⟨hsrc, he⟩, htd⟩⟩ := hx
      · exact ⟨⟨hne, hsrc⟩, Or.inr hred⟩
      · exact ⟨⟨hne, hsrc⟩, Or.inl ⟨he, htd⟩⟩
    · intro hx
      obtain ⟨⟨hne, hsrc⟩, ⟨he, rfl⟩ | hred⟩ := hx
      · exact ⟨hne, hdecl, Or.inr ⟨⟨hsrc, he⟩, rfl⟩⟩
      · exact ⟨hne, hold e hred, Or.inl ⟨hsrc, hred⟩⟩
  · have hnew : call ∉ done ∩ g.matched := fun hmem => hd (Finset.mem_inter.mp hmem).1
    rw [hs.collapsed, h.collapsed, hgone, Finset.card_insert_of_notMem hnew]
  · rw [hs.unmatched, h.unmatched, Finset.insert_sdiff_of_mem _ hm]

theorem Midway.counted (h : Midway g done s) (hm : call ∉ g.matched) (hd : call ∉ done) :
    Midway g (insert call done)
      { s with outcome := { s.outcome with unmatched := s.outcome.unmatched + 1 } } := by
  have hgone : insert call done ∩ g.matched = done ∩ g.matched := Finset.insert_inter_of_notMem hm
  refine ⟨?_, h.next, ?_, ?_, ?_, ?_⟩
  · intro n
    rw [hgone]
    exact h.nodes n
  · intro e
    rw [hgone, redirected_insert_of_not_mem hm]
    exact h.edges e
  · intro e
    rw [hgone, redirected_insert_of_not_mem hm]
    exact h.highlighted e
  · rw [hgone]
    exact h.collapsed
  · have hnew : call ∉ done \ g.matched := fun hmem => hd (Finset.mem_sdiff.mp hmem).1
    rw [Finset.insert_sdiff_of_notMem _ hm, Finset.card_insert_of_notMem hnew, ← h.unmatched]

theorem Midway.mem_ids (h : Midway g done s) {i : Nat} (hi : i ∈ g.ids)
    (hk : i ∉ done ∩ g.matched) : i ∈ s.graph.ids := by
  obtain ⟨n, hn, rfl⟩ := Graph.mem_ids.mp hi
  exact Graph.id_mem_ids ((h.nodes n).mpr ⟨hn, hk⟩)

/-- Handling one more call site of the graph succeeds, whatever was handled before. -/
theorem step_midway {n : Node} (h : Midway g done s) (hn : n ∈ g.nodes)
    (hc : n.isCallSite = true) (hd : n.id ∉ done) :
    ∃ s', s.step (n.id, g.target? n) = .ok s' ∧ Midway g (insert n.id done) s' := by
  cases ht : g.target? n with
  | none =>
    have hm : n.id ∉ g.matched := by
      rw [Graph.mem_matched_iff_resolves]
      intro hx
      obtain ⟨j, hj⟩ := hx
      rw [Graph.resolves_iff_target? hn hc, ht] at hj
      cases hj
    exact ⟨_, rfl, h.counted hm hd⟩
  | some d =>
    have hr : g.Resolves n.id d := (Graph.resolves_iff_target? hn hc).mpr ht
    have hcall : n.id ∈ s.graph.ids :=
      h.mem_ids (Graph.id_mem_ids hn) (fun hm => hd (Finset.mem_inter.mp hm).1)
    have hdecl : d ∈ s.graph.ids :=
      h.mem_ids hr.target_spec.1
        (fun hm => hr.target_spec.2 (g.matched_subset_callSites (Finset.mem_inter.mp hm).2))
    obtain ⟨s', hs', hrep⟩ := resolve_spec hcall hdecl
    exact ⟨s', hs', h.replaced hr hd hrep⟩

/-! ## The whole pass -/

theorem run_midway (l : List Node) (h : Midway g done s) (hl : (l.map Node.id).Nodup)
    (hc : ∀ n ∈ l, n ∈ g.nodes ∧ n.isCallSite = true) (hd : ∀ n ∈ l, n.id ∉ done) :
    ∃ s', (l.map fun n => (n.id, g.target? n)).foldlM step s = .ok s' ∧
      Midway g (done ∪ (l.map Node.id).toFinset) s' := by
  induction l generalizing s done with
  | nil => exact ⟨s, rfl, by simpa using h⟩
  | cons n l ih =>
    rw [List.map_cons, List.nodup_cons] at hl
    have hn := hc n List.mem_cons_self
    obtain ⟨s₁, hs₁, h₁⟩ := step_midway h hn.1 hn.2 (hd n List.mem_cons_self)
    have hfresh : ∀ m ∈ l, m.id ∉ insert n.id done := by
      intro m hm hmem
      rcases Finset.mem_insert.mp hmem with heq | hmem
      · exact hl.1 (heq ▸ List.mem_map_of_mem hm)
      · exact hd m (List.mem_cons_of_mem n hm) hmem
    obtain ⟨s₂, hs₂, h₂⟩ := ih h₁ hl.2 (fun m hm => hc m (List.mem_cons_of_mem n hm)) hfresh
    refine ⟨s₂, ?_, ?_⟩
    · rw [List.map_cons, List.foldlM_cons, hs₁]
      exact hs₂
    · rwa [List.map_cons, List.toFinset_cons, Finset.union_insert, ← Finset.insert_union]

/-! ## The state after the pass -/

/-- What a whole pass over `g` leaves: the matched call sites are gone, and an edge into one of
them, from a node that stays, leads to what the call site resolves to. -/
structure Collapsed (g : Graph) (s : Collapsing) : Prop where
  nodes : ∀ n, n ∈ s.graph.nodes ↔ n ∈ g.nodes ∧ n.id ∉ g.matched
  next : s.graph.next = g.next
  edges : ∀ u v, ⟨u, v⟩ ∈ s.graph.edges ↔ u ∉ g.matched ∧
    (⟨u, v⟩ ∈ g.edges ∧ v ∉ g.matched ∨ ∃ c, ⟨u, c⟩ ∈ g.edges ∧ g.Resolves c v)
  highlighted : ∀ u v, ⟨u, v⟩ ∈ s.outcome.highlighted ↔
    u ∉ g.matched ∧ ∃ c, ⟨u, c⟩ ∈ g.edges ∧ g.Resolves c v
  collapsed : s.outcome.collapsed = g.matched.card
  unmatched : s.outcome.unmatched = (g.callSites \ g.matched).card

theorem redirected_callSites {u v : Nat} : Redirected g g.callSites ⟨u, v⟩ ↔
    ∃ c, ⟨u, c⟩ ∈ g.edges ∧ g.Resolves c v := by
  refine ⟨?_, ?_⟩
  · intro h
    obtain ⟨c, _, he, hr⟩ := h
    exact ⟨c, he, hr⟩
  · intro h
    obtain ⟨c, he, hr⟩ := h
    exact ⟨c, g.matched_subset_callSites hr.mem_matched, he, hr⟩

/-- Once every call site has been handled, the pass is over. -/
theorem Midway.collapsed_of_all (h : Midway g g.callSites s) : Collapsed g s := by
  have hgone : g.callSites ∩ g.matched = g.matched :=
    Finset.inter_eq_right.mpr g.matched_subset_callSites
  refine ⟨?_, h.next, ?_, ?_, ?_, h.unmatched⟩
  · intro n
    rw [h.nodes, hgone]
  · intro u v
    rw [h.edges, hgone, redirected_callSites]
  · intro u v
    rw [h.highlighted, hgone, redirected_callSites]
  · rw [h.collapsed, hgone]

end Collapsing

namespace Graph

open Collapsing

theorem collapse_midway (g : Graph) : ∃ r, g.collapse = .ok r ∧ Midway g g.callSites r := by
  have hplan : g.plan = (g.nodes.filter Node.isCallSite).map (fun n => (n.id, g.target? n)) := rfl
  obtain ⟨s, hs, h⟩ := run_midway (g.nodes.filter Node.isCallSite) (midway_start g) g.nodup_callSites
    (fun n hn => List.mem_filter.mp hn) (fun n _ => Finset.notMem_empty n.id)
  rw [Finset.empty_union, ← callSites_eq_toFinset] at h
  refine ⟨_, by rw [collapse, hplan, hs]; rfl, ?_⟩
  -- the last report changes neither the graph nor the outcome
  exact ⟨h.nodes, h.next, h.edges, h.highlighted, h.collapsed, h.unmatched⟩

theorem collapse_spec (g : Graph) : ∃ r, g.collapse = .ok r ∧ Collapsed g r := by
  obtain ⟨r, hr, h⟩ := g.collapse_midway
  exact ⟨r, hr, h.collapsed_of_all⟩

/-- Collapsing never fails. Exactly the matched call sites go. Of the edges, those between nodes
that stay are kept, and an edge from such a node into a matched call site leads to what the call
site resolves to; the edges made this way are the highlighted ones. -/
theorem collapse_closed_form (g : Graph) :
    (∀ c ∈ g.matched, ∃! t, g.Resolves c t) ∧
    ∃ r, g.collapse = .ok r ∧
      (∀ n, n ∈ r.graph.nodes ↔ n ∈ g.nodes ∧ n.id ∉ g.matched) ∧
      (∀ u v, ⟨u, v⟩ ∈ r.graph.edges ↔
        (⟨u, v⟩ ∈ g.edges ∧ u ∉ g.matched ∧ v ∉ g.matched) ∨
        (∃ c ∈ g.matched, ⟨u, c⟩ ∈ g.edges ∧ u ∉ g.matched ∧ g.Resolves c v)) ∧
      (∀ u v, ⟨u, v⟩ ∈ r.outcome.highlighted ↔
        ∃ c ∈ g.matched, ⟨u, c⟩ ∈ g.edges ∧ u ∉ g.matched ∧ g.Resolves c v) ∧
      r.outcome.collapsed = g.matched.card ∧
      r.outcome.unmatched = (g.callSites \ g.matched).card := by
  obtain ⟨r, hr, h⟩ := g.collapse_spec
  have hred : ∀ u v, (∃ c ∈ g.matched, ⟨u, c⟩ ∈ g.edges ∧ u ∉ g.matched ∧ g.Resolves c v) ↔
      u ∉ g.matched ∧ ∃ c, ⟨u, c⟩ ∈ g.edges ∧ g.Resolves c v := by
    intro u v
    refine ⟨?_, ?_⟩
    · intro hex
      obtain ⟨c, _, he, hu, hcv⟩ := hex
      exact ⟨hu, c, he, hcv⟩
    · intro hex
      obtain ⟨hu, c, he, hcv⟩ := hex
      exact ⟨c, hcv.mem_matched, he, hu, hcv⟩
  refine ⟨?_, r, hr, h.nodes, ?_, ?_, h.collapsed, h.unmatched⟩
  · intro c hc
    obtain ⟨t, ht⟩ := mem_matched_iff_resolves.mp hc
    exact ⟨t, ht, fun t' ht' => ht'.unique ht⟩
  · intro u v
    rw [h.edges, hred]
    tauto
  · intro u v
    rw [h.highlighted, hred]

end Graph

end CallGraph
