import CallGraph.Collapse
import CallGraph.Proofs.Views
import Mathlib.Data.Finset.Image
import Mathlib.Data.Prod.Lex
import Mathlib.Order.WithBot

/-!
Which declaration a call site resolves to.

`Fits` says which declarations a call site can stand for, and `rank` in which order they compete:
by source position, where no position is below every position, and then by id. Ranks are ordered
by the standard lexicographic order, so nothing here refers to how declarations are sorted.

What is proved:
1. `preferred_iff`: the comparison that sorts declarations is the order of their ranks.
2. `target?_eq_some_iff` and `target?_eq_none_iff`: the search in the sorted list gives the
   declaration of least rank among those that fit, and gives none only if none fits.
3. `target?_congr`: two graphs with the same declarations resolve a call site alike.
-/

namespace CallGraph

/-! ## The order of declarations -/

/-- A position as a triple in lexicographic order: file, byte, line. -/
def Position.key (p : Position) : ℕ ×ₗ ℕ ×ₗ ℕ :=
  toLex (p.file.toNat, toLex (p.byte.toNat, p.line.toNat))

/-- What declarations compete by: their position, where none is least, then their id. -/
def Node.rank (n : Node) : WithBot (ℕ ×ₗ ℕ ×ₗ ℕ) ×ₗ ℕ :=
  toLex (match n.position with
    | none => ⊥
    | some p => (p.key : WithBot (ℕ ×ₗ ℕ ×ₗ ℕ)), n.id)

theorem Position.lt_iff {p q : Position} : p.lt q = true ↔ p.key < q.key := by
  simp [Position.lt, Position.key, Prod.Lex.toLex_lt_toLex, UInt32.lt_iff_toNat_lt,
    ← UInt32.toNat_inj]

theorem Position.key_inj {p q : Position} : p.key = q.key ↔ p = q := by
  rcases p with ⟨f, b, l⟩
  rcases q with ⟨f', b', l'⟩
  simp [Position.key, UInt32.toNat_inj]

theorem Node.preferred_iff {a b : Node} : a.preferred b = true ↔ a.rank ≤ b.rank := by
  rw [Node.rank, Node.rank, Prod.Lex.toLex_le_toLex, Node.preferred]
  cases a.position with
  | none =>
    cases b.position with
    | none => simp
    | some q => simp
  | some p =>
    cases b.position with
    | none => simp
    | some q => simp [Position.lt_iff, Position.key_inj]

theorem Node.id_eq_of_rank_eq {a b : Node} (h : a.rank = b.rank) : a.id = b.id :=
  congrArg (fun r => (ofLex r).2) h

theorem Node.not_isCallSite_of_isDeclaration {n : Node} (h : n.isDeclaration = true) :
    n.isCallSite = false := by
  simp only [Node.isDeclaration, beq_iff_eq] at h
  simp [Node.isCallSite, h]

namespace Graph

variable {g h : Graph} {call decl : Node} {i j : Nat}

/-! ## The declarations that fit a call site -/

/-- The node is a declaration of the graph with the name and the labels of the call site. -/
structure Fits (g : Graph) (call decl : Node) : Prop where
  present : decl ∈ g.nodes
  declares : decl.isDeclaration = true
  name : decl.name = call.name
  labels : decl.labels = call.labels

/-- The declaration fits the call site, and no other that fits is of lower rank. -/
structure First (g : Graph) (call decl : Node) : Prop where
  fits : g.Fits call decl
  least : ∀ d, g.Fits call d → decl.rank ≤ d.rank

theorem fits_iff : g.Fits call decl ↔
    (decl ∈ g.nodes ∧ decl.isDeclaration = true) ∧ decl.name = call.name ∧
      decl.labels = call.labels :=
  ⟨fun f => ⟨⟨f.present, f.declares⟩, f.name, f.labels⟩, fun f => ⟨f.1.1, f.1.2, f.2.1, f.2.2⟩⟩

instance (g : Graph) (call decl : Node) : Decidable (g.Fits call decl) :=
  decidable_of_iff _ fits_iff.symm

/-- Among the declarations that fit, the first is the only one of its rank. -/
theorem First.unique {d : Node} (h : g.First call decl) (h' : g.First call d) : decl = d := by
  have hr : decl.rank = d.rank := le_antisymm (h.least d h'.fits) (h'.least decl h.fits)
  exact eq_of_id_eq h.fits.present h'.fits.present (Node.id_eq_of_rank_eq hr)

/-- The sorted declarations in which a target is looked up, by membership and order. -/
theorem fits_iff_mem_declarations :
    g.Fits call decl ↔ decl ∈ g.declarations ∧ decl.sameSignature call = true := by
  rw [fits_iff, declarations, List.mem_mergeSort, List.mem_filter, Node.sameSignature, beq_iff_eq,
    Node.signature, Node.signature, Signature.mk.injEq]

theorem declarations_sorted (g : Graph) :
    g.declarations.Pairwise (fun a b => a.rank ≤ b.rank) := by
  have hs : g.declarations.Pairwise (fun a b => a.preferred b = true) := by
    apply List.pairwise_mergeSort
    · intro a b c hab hbc
      rw [Node.preferred_iff] at *
      exact le_trans hab hbc
    · intro a b
      rw [Bool.or_eq_true, Node.preferred_iff, Node.preferred_iff]
      exact le_total _ _
  exact hs.imp Node.preferred_iff.mp

theorem target?_eq_none_iff : g.target? call = none ↔ ∀ d, ¬ g.Fits call d := by
  simp only [target?, Option.map_eq_none_iff, List.find?_eq_none, fits_iff_mem_declarations, not_and]

/-- A search that succeeds finds the first declaration that fits: those before it in the sorted
list do not fit, and those after it are not of lower rank. -/
theorem first_of_find? (h : g.declarations.find? (fun d => d.sameSignature call) = some decl) :
    g.First call decl := by
  obtain ⟨hsig, before, after, hsplit, hbefore⟩ := List.find?_eq_some_iff_append.mp h
  have hsorted := g.declarations_sorted
  rw [hsplit, List.pairwise_append, List.pairwise_cons] at hsorted
  refine ⟨fits_iff_mem_declarations.mpr ⟨by rw [hsplit]; simp, hsig⟩, ?_⟩
  intro d hd
  obtain ⟨hmem, hdsig⟩ := fits_iff_mem_declarations.mp hd
  rw [hsplit, List.mem_append, List.mem_cons] at hmem
  rcases hmem with hmem | rfl | hmem
  · have := hbefore d hmem
    simp [hdsig] at this
  · exact le_rfl
  · exact hsorted.2.1.1 d hmem

theorem target?_eq_some_iff : g.target? call = some j ↔ ∃ d, g.First call d ∧ d.id = j := by
  refine ⟨?_, ?_⟩
  · intro h
    obtain ⟨d, hd, hj⟩ := Option.map_eq_some_iff.mp h
    exact ⟨d, first_of_find? hd, hj⟩
  · intro hx
    obtain ⟨d, hd, rfl⟩ := hx
    cases hf : g.declarations.find? (fun d => d.sameSignature call) with
    | none =>
      have hnone : g.target? call = none := by rw [target?, hf]; rfl
      exact absurd hd.fits (target?_eq_none_iff.mp hnone d)
    | some d' =>
      rw [target?, hf, hd.unique (first_of_find? hf)]
      rfl

/-- Only the declarations of a graph decide what a call site resolves to. -/
theorem target?_congr (hd : ∀ d : Node, d.isDeclaration = true → (d ∈ h.nodes ↔ d ∈ g.nodes)) :
    h.target? call = g.target? call := by
  have hfits : ∀ d, h.Fits call d ↔ g.Fits call d := by
    intro d
    rw [fits_iff, fits_iff]
    have := hd d
    tauto
  have hfirst : ∀ d, h.First call d ↔ g.First call d := by
    intro d
    refine ⟨?_, ?_⟩
    · intro f
      exact ⟨(hfits d).mp f.fits, fun d' h' => f.least d' ((hfits d').mpr h')⟩
    · intro f
      exact ⟨(hfits d).mpr f.fits, fun d' h' => f.least d' ((hfits d').mp h')⟩
  apply Option.ext
  intro j
  simp only [target?_eq_some_iff, hfirst]

/-! ## Call sites and what they resolve to, by id -/

def callSites (g : Graph) : Finset Nat :=
  (g.nodes.toFinset.filter fun n => n.isCallSite = true).image Node.id

/-- The ids of the call sites that some declaration fits. -/
def matched (g : Graph) : Finset Nat :=
  (g.nodes.toFinset.filter fun n => n.isCallSite = true ∧ ∃ d ∈ g.nodes, g.Fits n d).image Node.id

/-- The first id belongs to a call site, and the second to the first declaration that fits it. -/
def Resolves (g : Graph) (i j : Nat) : Prop :=
  ∃ call ∈ g.nodes, call.isCallSite = true ∧ call.id = i ∧ ∃ decl, g.First call decl ∧ decl.id = j

theorem mem_callSites : i ∈ g.callSites ↔ ∃ n ∈ g.nodes, n.isCallSite = true ∧ n.id = i := by
  simp [callSites, and_assoc]

theorem callSites_eq_toFinset (g : Graph) :
    g.callSites = ((g.nodes.filter Node.isCallSite).map Node.id).toFinset := by
  ext i
  simp [mem_callSites, and_assoc]

theorem nodup_callSites (g : Graph) : ((g.nodes.filter Node.isCallSite).map Node.id).Nodup :=
  g.nodup_ids.sublist (List.filter_sublist.map Node.id)

theorem mem_matched :
    i ∈ g.matched ↔ ∃ n ∈ g.nodes, n.isCallSite = true ∧ n.id = i ∧ ∃ d, g.Fits n d := by
  simp only [matched, Finset.mem_image, Finset.mem_filter, List.mem_toFinset]
  refine ⟨?_, ?_⟩
  · intro hx
    obtain ⟨n, ⟨hn, hc, d, _, hd⟩, rfl⟩ := hx
    exact ⟨n, hn, hc, rfl, d, hd⟩
  · intro hx
    obtain ⟨n, hn, hc, rfl, d, hd⟩ := hx
    exact ⟨n, ⟨hn, hc, d, hd.present, hd⟩, rfl⟩

theorem matched_subset_callSites (g : Graph) : g.matched ⊆ g.callSites := by
  intro i hi
  obtain ⟨n, hn, hc, hid, _⟩ := mem_matched.mp hi
  exact mem_callSites.mpr ⟨n, hn, hc, hid⟩

theorem id_mem_callSites {n : Node} (hn : n ∈ g.nodes) :
    n.id ∈ g.callSites ↔ n.isCallSite = true := by
  rw [mem_callSites]
  refine ⟨?_, ?_⟩
  · intro hx
    obtain ⟨m, hm, hc, hid⟩ := hx
    rwa [← eq_of_id_eq hm hn hid]
  · intro hc
    exact ⟨n, hn, hc, rfl⟩

theorem resolves_iff_target? (hn : call ∈ g.nodes) (hc : call.isCallSite = true) :
    g.Resolves call.id j ↔ g.target? call = some j := by
  rw [target?_eq_some_iff]
  refine ⟨?_, ?_⟩
  · intro hx
    obtain ⟨m, hm, _, hid, d, hd⟩ := hx
    exact ⟨d, eq_of_id_eq hm hn hid ▸ hd⟩
  · intro hx
    obtain ⟨d, hd⟩ := hx
    exact ⟨call, hn, hc, rfl, d, hd⟩

/-- A call site that one declaration fits resolves to it. -/
theorem resolves_of_only (hn : call ∈ g.nodes) (hc : call.isCallSite = true)
    (hd : g.Fits call decl) (honly : ∀ d ∈ g.nodes, g.Fits call d → d = decl) :
    g.Resolves call.id decl.id := by
  refine ⟨call, hn, hc, rfl, decl, ⟨hd, ?_⟩, rfl⟩
  intro d hfits
  rw [honly d hfits.present hfits]

theorem mem_matched_iff_resolves : i ∈ g.matched ↔ ∃ j, g.Resolves i j := by
  refine ⟨?_, ?_⟩
  · intro hi
    obtain ⟨n, hn, hc, rfl, d, hd⟩ := mem_matched.mp hi
    cases ht : g.target? n with
    | none => exact absurd hd (target?_eq_none_iff.mp ht d)
    | some j => exact ⟨j, (resolves_iff_target? hn hc).mpr ht⟩
  · intro hx
    obtain ⟨j, n, hn, hc, hid, d, hd, _⟩ := hx
    exact mem_matched.mpr ⟨n, hn, hc, hid, d, hd.fits⟩

theorem Resolves.mem_matched (hr : g.Resolves i j) : i ∈ g.matched :=
  mem_matched_iff_resolves.mpr ⟨j, hr⟩

theorem Resolves.unique {k : Nat} (hj : g.Resolves i j) (hk : g.Resolves i k) : j = k := by
  obtain ⟨m, hm, _, hmi, d, hd, rfl⟩ := hj
  obtain ⟨n, hn, _, hni, d', hd', rfl⟩ := hk
  have hmn : m = n := eq_of_id_eq hm hn (by rw [hmi, hni])
  subst hmn
  rw [hd.unique hd']

theorem Resolves.target_spec (hr : g.Resolves i j) : j ∈ g.ids ∧ j ∉ g.callSites := by
  obtain ⟨_, _, _, _, d, hd, rfl⟩ := hr
  refine ⟨id_mem_ids hd.fits.present, ?_⟩
  rw [id_mem_callSites hd.fits.present, Node.not_isCallSite_of_isDeclaration hd.fits.declares]
  exact Bool.false_ne_true

end Graph

end CallGraph
