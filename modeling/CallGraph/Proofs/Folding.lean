import CallGraph.Proofs.Cleaning
import CallGraph.Proofs.Collapsing
import Mathlib.Logic.Relation

/-!
Folding keeps who calls whom.

Folding is collapsing and then cleaning, so its result is given by what the two leave
(`fold_spec`). The question here is about paths: if `u` reaches `v` by calls, does it still do so
after call sites were replaced, loops dropped and isolated nodes taken out?

In the raw graph a call leads from a caller to a call site, and from a matched call site on to the
declaration it resolves to (`Follows`). Where no call site has edges of its own, as in every graph
that is read from sources, a path through a call site enters by an edge and leaves to the
declaration, which is one edge after collapsing.

What is proved:
1. `Collapsed.sound_path`, `Collapsed.complete_path`: paths before and after collapsing.
2. `CleanOf.path_iff`: dropping loops keeps paths.
3. Together: for distinct nodes that are no matched call sites, a path before folding is a path
   after it, and both ends survive.
-/

namespace CallGraph

open Collapsing

namespace Graph

variable {g : Graph} {u v : Nat}

def Calls (g : Graph) (u v : Nat) : Prop := ⟨u, v⟩ ∈ g.edges

/-- One step of a call: an edge, or from a matched call site to what it resolves to. -/
def Follows (g : Graph) (u v : Nat) : Prop := ⟨u, v⟩ ∈ g.edges ∨ g.Resolves u v

/-- No call site has an edge that leaves it. -/
def SitesAreLeaves (g : Graph) : Prop := ∀ e ∈ g.edges, e.source ∉ g.callSites

/-- Folding never fails, and its result is a collapsed graph, cleaned. -/
theorem fold_spec (g : Graph) : ∃ s r, g.fold = .ok r ∧ Collapsed g s ∧
    s.graph.CleanOf s.outcome.highlighted r.clean ∧ r.outcome = s.outcome := by
  obtain ⟨s, hs, hcol⟩ := g.collapse_spec
  obtain ⟨c, hc, hclean⟩ := s.graph.clean_spec s.outcome.highlighted
  refine ⟨s, _, by
    simp only [fold, hs, hc, bind, Except.bind]
    rfl, hcol, hclean, rfl⟩

end Graph

namespace Collapsing

variable {g : Graph} {s : Collapsing} {u v : Nat}

/-- An edge of the collapsed graph is an edge of the graph, or two steps through a call site. -/
theorem Collapsed.sound_path (h : Collapsed g s)
    (hp : Relation.ReflTransGen s.graph.Calls u v) : Relation.ReflTransGen g.Follows u v := by
  induction hp with
  | refl => exact Relation.ReflTransGen.refl
  | tail _ hstep ih =>
    obtain ⟨_, ⟨he, _⟩ | ⟨c, he, hr⟩⟩ := (h.edges _ _).mp hstep
    · exact ih.tail (Or.inl he)
    · exact (ih.tail (Or.inl he)).tail (Or.inr hr)

/-- What a path in the graph that starts at `u` has come to by `w`, in the collapsed graph: to `w`
itself, or, if `w` is a matched call site, to one of its callers. -/
def Arrived (g : Graph) (s : Collapsing) (u w : Nat) : Prop :=
  (w ∉ g.matched ∧ Relation.ReflTransGen s.graph.Calls u w) ∨
  (∃ a, a ∉ g.matched ∧ ⟨a, w⟩ ∈ g.edges ∧ Relation.ReflTransGen s.graph.Calls u a)

/-- A path in the graph from a node that stays is a path in the collapsed graph, up to the last
call site. The induction is on the path; each step takes `Arrived` on by one. -/
theorem Collapsed.arrived (h : Collapsed g s) (hleaf : g.SitesAreLeaves)
    (hu : u ∉ g.matched) {w : Nat} (hp : Relation.ReflTransGen g.Follows u w) :
    Arrived g s u w := by
  induction hp with
  | refl => exact Or.inl ⟨hu, Relation.ReflTransGen.refl⟩
  | @tail w x _ hstep ih =>
    rcases hstep with he | hr
    · -- an edge leaves `w`, so `w` is no call site and the path has come to it
      have hw : w ∉ g.matched := fun hm => hleaf _ he (g.matched_subset_callSites hm)
      have hpath : Relation.ReflTransGen s.graph.Calls u w := by
        rcases ih with ⟨_, hpath⟩ | ⟨a, ha, haw, hpath⟩
        · exact hpath
        · exact hpath.tail ((h.edges _ _).mpr ⟨ha, Or.inl ⟨haw, hw⟩⟩)
      exact Or.inr ⟨w, hw, he, hpath⟩
    · -- `w` is a matched call site, so the path came to one of its callers
      have hx : x ∉ g.matched :=
        fun hm => hr.target_spec.2 (g.matched_subset_callSites hm)
      rcases ih with ⟨hw, _⟩ | ⟨a, ha, haw, hpath⟩
      · exact absurd hr.mem_matched hw
      · exact Or.inl ⟨hx, hpath.tail ((h.edges _ _).mpr ⟨ha, Or.inr ⟨w, haw, hr⟩⟩)⟩

theorem Collapsed.complete_path (h : Collapsed g s) (hleaf : g.SitesAreLeaves)
    (hu : u ∉ g.matched) (hv : v ∉ g.matched) (hp : Relation.ReflTransGen g.Follows u v) :
    Relation.ReflTransGen s.graph.Calls u v := by
  rcases h.arrived hleaf hu hp with ⟨_, hpath⟩ | ⟨a, ha, hav, hpath⟩
  · exact hpath
  · exact hpath.tail ((h.edges _ _).mpr ⟨ha, Or.inl ⟨hav, hv⟩⟩)

end Collapsing

namespace Graph

variable {g : Graph} {highlighted : EdgeSet} {c : CleanGraph} {u v : Nat}

theorem CleanOf.path_iff (h : g.CleanOf highlighted c) :
    Relation.ReflTransGen c.graph.Calls u v ↔ Relation.ReflTransGen g.Calls u v := by
  refine ⟨?_, ?_⟩
  · intro hp
    exact Relation.ReflTransGen.mono (fun a b hab => ((h.edges ⟨a, b⟩).mp hab).1) _ _ hp
  · intro hp
    induction hp with
    | refl => exact Relation.ReflTransGen.refl
    | @tail w x _ hstep ih =>
      by_cases hloop : w = x
      · exact hloop ▸ ih
      · exact ih.tail ((h.edges ⟨w, x⟩).mpr ⟨hstep, hloop⟩)

/-- The ends of a path between distinct nodes are ends of edges. -/
theorem mem_ids_of_path (hne : u ≠ v) (hp : Relation.ReflTransGen g.Calls u v) :
    u ∈ g.ids ∧ v ∈ g.ids := by
  refine ⟨?_, ?_⟩
  · rcases hp.cases_head with heq | ⟨w, hw, _⟩
    · exact absurd heq hne
    · exact source_mem_ids hw
  · rcases hp.cases_tail with heq | ⟨w, _, hw⟩
    · exact absurd heq.symm hne
    · exact target_mem_ids hw

/-- Folding keeps the transitive call relation. Where no call site has edges of its own, for
distinct nodes that are no matched call sites, one is reached from the other along edges and
resolved calls exactly if both survive folding and the one is reached from the other along the
edges that are left. -/
theorem fold_keeps_paths (g : Graph) (hleaf : g.SitesAreLeaves) :
    ∃ r, g.fold = .ok r ∧ ∀ u ∈ g.ids, ∀ v ∈ g.ids, u ∉ g.matched → v ∉ g.matched → u ≠ v →
      (Relation.ReflTransGen g.Follows u v ↔
        u ∈ r.clean.graph.ids ∧ v ∈ r.clean.graph.ids ∧
          Relation.ReflTransGen r.clean.graph.Calls u v) := by
  obtain ⟨s, r, hr, hcol, hclean, _⟩ := g.fold_spec
  refine ⟨r, hr, ?_⟩
  intro u _ v _ hu hv hne
  refine ⟨?_, ?_⟩
  · intro hp
    have hpath := hclean.path_iff.mpr (hcol.complete_path hleaf hu hv hp)
    obtain ⟨hiu, hiv⟩ := mem_ids_of_path hne hpath
    exact ⟨hiu, hiv, hpath⟩
  · intro hx
    obtain ⟨_, _, hp⟩ := hx
    exact hcol.sound_path (hclean.path_iff.mp hp)

/-- `main` calls `f`, `f` calls `g`, and `g` calls itself. -/
def callChain : Graph :=
  ((((((((empty.addNode { kind := .function, name := "main" }).addNode
    { kind := .function, name := "f" }).addNode { kind := .function, name := "g" }).addNode
    { kind := .call, name := "f" }).addNode { kind := .call, name := "g" }).addNode
    { kind := .call, name := "g" }).connect 0 3).connect 1 4).connect 2 5

/-- A path through two call sites is there after folding, and the loop at its end is no obstacle. -/
theorem fold_keeps_paths_callChain : callChain.SitesAreLeaves ∧
    ∃ r, callChain.fold = .ok r ∧ 0 ∈ r.clean.graph.ids ∧ 2 ∈ r.clean.graph.ids ∧
      Relation.ReflTransGen r.clean.graph.Calls 0 2 := by
  have hleaf : callChain.SitesAreLeaves := by
    show ∀ e ∈ callChain.edges, e.source ∉ callChain.callSites
    decide
  have hf : callChain.Resolves 3 1 := by
    have hfits : callChain.Fits ⟨3, .call, "f", [], "f", none⟩ ⟨1, .function, "f", [], "f", none⟩ := by
      decide
    exact resolves_of_only (by decide) (by decide) hfits (by decide)
  have hg : callChain.Resolves 4 2 := by
    have hfits : callChain.Fits ⟨4, .call, "g", [], "g", none⟩ ⟨2, .function, "g", [], "g", none⟩ := by
      decide
    exact resolves_of_only (by decide) (by decide) hfits (by decide)
  have hp : Relation.ReflTransGen callChain.Follows 0 2 := by
    have h03 : callChain.Follows 0 3 := Or.inl (by decide)
    have h14 : callChain.Follows 1 4 := Or.inl (by decide)
    exact (((Relation.ReflTransGen.single h03).tail (Or.inr hf)).tail h14).tail (Or.inr hg)
  obtain ⟨r, hr, hiff⟩ := fold_keeps_paths callChain hleaf
  have hpath := (hiff 0 (by decide) 2 (by decide) (by decide) (by decide) (by decide)).mp hp
  exact ⟨hleaf, r, hr, hpath⟩

end Graph

end CallGraph
