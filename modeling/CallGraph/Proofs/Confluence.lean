import CallGraph.Proofs.Collapsing
import Mathlib.Logic.Relation

/-!
Collapsing in any order, without a plan.

A pass plans once, before anything changes, and goes through the call sites by ascending id. Here
is a machine that does neither: as long as call sites are pending it picks any of them, looks up
what it resolves to in the graph as it is by then, and handles it as a pass does.

What is proved:
1. `Midway.target?_eq`: in the middle of a pass a call site resolves to what it resolved to at the
   start, since no declaration has gone.
2. `pick_sound`: a pick of a pending call site succeeds and keeps `Sound`, which relates the
   machine to the order-free description `Midway` of a pass.
3. Confluence: whatever was picked, the machine is never stuck while call sites are pending, and
   once none is, the graph and the outcome are those of the planned pass.
-/

namespace CallGraph

theorem Collapsing.Midway.target?_eq {g : Graph} {done : Finset Nat} {s : Collapsing}
    (h : Midway g done s) (call : Node) : s.graph.target? call = g.target? call := by
  apply Graph.target?_congr
  intro d hd
  rw [h.nodes]
  refine ⟨?_, ?_⟩
  · exact And.left
  · intro hmem
    refine ⟨hmem, fun hgone => ?_⟩
    have hsite := g.matched_subset_callSites (Finset.mem_inter.mp hgone).2
    rw [Graph.id_mem_callSites hmem, Node.not_isCallSite_of_isDeclaration hd] at hsite
    cases hsite

/-- A collapsing pass without a plan: what was done so far, and the call sites that are left. -/
structure Picking where
  now : Collapsing
  pending : Finset Nat

namespace Picking

open Collapsing

def start (g : Graph) : Picking := { now := { graph := g }, pending := g.callSites }

/-- Handles a call site by what it resolves to in the present graph. -/
def pick (m : Picking) (call : Nat) : Except Error Picking := do
  let node ← m.now.graph.getNode call
  let now ← m.now.step (call, m.now.graph.target? node)
  return { now, pending := m.pending.erase call }

/-- One pick of any pending call site. -/
def Picks (m m' : Picking) : Prop := ∃ call ∈ m.pending, m.pick call = .ok m'

/-- Only call sites are pending, and the state is that of a pass which has handled the others. -/
structure Sound (g : Graph) (m : Picking) : Prop where
  pending : m.pending ⊆ g.callSites
  midway : Midway g (g.callSites \ m.pending) m.now

variable {g : Graph} {m m' : Picking} {call : Nat}

theorem start_sound (g : Graph) : Sound g (start g) := by
  refine ⟨Finset.Subset.refl _, ?_⟩
  have h := midway_start g
  rwa [← Finset.sdiff_self g.callSites] at h

theorem pick_sound (h : Sound g m) (hc : call ∈ m.pending) :
    ∃ m', m.pick call = .ok m' ∧ m'.pending = m.pending.erase call ∧ Sound g m' := by
  have hsite := h.pending hc
  obtain ⟨n, hn, hcall, rfl⟩ := Graph.mem_callSites.mp hsite
  have hfresh : n.id ∉ g.callSites \ m.pending := fun hmem => (Finset.mem_sdiff.mp hmem).2 hc
  -- the call site is still there, and it resolves to what it resolved to at the start
  have hnow : n ∈ m.now.graph.nodes :=
    (h.midway.nodes n).mpr ⟨hn, fun hgone => hfresh (Finset.mem_inter.mp hgone).1⟩
  obtain ⟨s, hs, hmid⟩ := step_midway h.midway hn hcall hfresh
  refine ⟨{ now := s, pending := m.pending.erase n.id }, ?_, rfl, ?_, ?_⟩
  · rw [pick, Graph.getNode_of_mem hnow]
    simp only [bind, Except.bind, h.midway.target?_eq, hs]
    rfl
  · exact (Finset.erase_subset _ _).trans h.pending
  · rwa [Finset.sdiff_erase hsite]

theorem reaches_sound (h : Relation.ReflTransGen Picks (start g) m) : Sound g m := by
  induction h with
  | refl => exact start_sound g
  | tail _ hp ih =>
    obtain ⟨call, hc, hok⟩ := hp
    obtain ⟨m', hm', _, hsound⟩ := pick_sound ih hc
    rw [hok] at hm'
    injection hm' with heq
    rwa [heq]

/-- Collapsing is confluent, and planning ahead is sound: after any picks in any order, every
pending call site can be picked, and if none is pending the nodes, the edges, the highlighted
edges and the counters are those of the planned pass. -/
theorem picks_confluent (g : Graph) (m : Picking)
    (h : Relation.ReflTransGen Picks (start g) m) :
    (∀ call ∈ m.pending, ∃ m', m.pick call = .ok m' ∧ m'.pending = m.pending.erase call) ∧
    (m.pending = ∅ → ∃ r, g.collapse = .ok r ∧ m.now.graph.nodes = r.graph.nodes ∧
      m.now.graph.edges = r.graph.edges ∧ m.now.outcome = r.outcome) := by
  have hsound := reaches_sound h
  refine ⟨?_, ?_⟩
  · intro call hc
    obtain ⟨m', hok, hpend, _⟩ := pick_sound hsound hc
    exact ⟨m', hok, hpend⟩
  · intro hdone
    obtain ⟨r, hr, hmid⟩ := g.collapse_midway
    have hnow := hsound.midway
    rw [hdone, Finset.sdiff_empty] at hnow
    obtain ⟨hgraph, hout⟩ := hnow.unique hmid
    exact ⟨r, hr, by rw [hgraph], by rw [hgraph], hout⟩

/-- Two call sites that call each other, the one for `f` also called by `g`. -/
def mutualCalls : Graph :=
  ((((((Graph.empty.addNode { kind := .function, name := "f" }).addNode
    { kind := .function, name := "g" }).addNode { kind := .call, name := "f" }).addNode
    { kind := .call, name := "g" }).connect 1 2).connect 3 2).connect 2 3

/-- The machine may pick the later of the two call sites first, and ends as the pass does. -/
theorem picks_confluent_mutualCalls :
    ∃ m, Relation.ReflTransGen Picks (start mutualCalls) m ∧ m.pending = ∅ ∧
      ∃ r, mutualCalls.collapse = .ok r ∧ m.now.graph.nodes = r.graph.nodes ∧
        m.now.graph.edges = r.graph.edges ∧ m.now.outcome = r.outcome := by
  have h3 : 3 ∈ (start mutualCalls).pending := by decide
  obtain ⟨m₁, hok₁, hp₁, hs₁⟩ := pick_sound (start_sound mutualCalls) h3
  have h2 : 2 ∈ m₁.pending := by rw [hp₁]; decide
  obtain ⟨m₂, hok₂, hp₂, _⟩ := pick_sound hs₁ h2
  have hrun : Relation.ReflTransGen Picks (start mutualCalls) m₂ :=
    (Relation.ReflTransGen.single ⟨3, h3, hok₁⟩).tail ⟨2, h2, hok₂⟩
  have hdone : m₂.pending = ∅ := by rw [hp₂, hp₁]; decide
  exact ⟨m₂, hrun, hdone, (picks_confluent mutualCalls m₂ hrun).2 hdone⟩

end Picking

end CallGraph
