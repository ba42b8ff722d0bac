import CallGraph.Proofs.Folding
import Mathlib.Data.Finset.Card
import Mathlib.Data.Set.Function

/-!
Folding under other ids.

Ids are issued in the order of insertion, and every loop of folding follows them: the plan, the sort
of the declarations, the callers of a call site. Here the same nodes and edges stand in two graphs
under different ids, and `f` says which id became which (`Renumbers`). Nothing that folding does can
tell the two graphs apart, except where two declarations of one signature have the same position, or
both have none: there the ids decide. `PositionsApart` rules this out.

What is proved:
1. `First.renumber`, `resolves_renumber`: a call site resolves to the same declaration in both graphs.
2. `Renumbers.collapsed`, `Renumbers.cleaned`: each pass takes renumbered graphs to renumbered graphs.
3. Together: folding one graph gives the image of folding the other.
-/

namespace CallGraph

def Node.renumber (f : Nat → Nat) (n : Node) : Node := { n with id := f n.id }

def Edge.renumber (f : Nat → Nat) (e : Edge) : Edge := ⟨f e.source, f e.target⟩

/-- Where two declarations have different positions, their ids do not decide which comes first. -/
theorem Node.rank_renumber_le {f : Nat → Nat} {a b : Node} (hne : a.position ≠ b.position) :
    (a.renumber f).rank ≤ (b.renumber f).rank ↔ a.rank ≤ b.rank := by
  rw [← Node.preferred_iff, ← Node.preferred_iff]
  simp only [Node.preferred, Node.renumber]
  cases hp : a.position with
  | none =>
    cases hq : b.position with
    | none => exact absurd (hp.trans hq.symm) hne
    | some q => simp
  | some p =>
    cases hq : b.position with
    | none => simp
    | some q =>
      have hpq : p ≠ q := fun h => hne (by rw [hp, hq, h])
      simp [hpq]

namespace Graph

open Collapsing

/-- `f` takes the ids of `g` one to one to the ids of `h`, and keeps all else of the nodes, and the
edges. -/
structure Renumbers (f : Nat → Nat) (g h : Graph) : Prop where
  bijective : Set.BijOn f {i | i ∈ g.ids} {i | i ∈ h.ids}
  nodes : ∀ n ∈ g.nodes, ∀ m ∈ h.nodes, m.id = f n.id →
    m.kind = n.kind ∧ m.name = n.name ∧ m.labels = n.labels ∧ m.description = n.description ∧
      m.position = n.position
  edges : ∀ u ∈ g.ids, ∀ v ∈ g.ids, ⟨u, v⟩ ∈ g.edges ↔ ⟨f u, f v⟩ ∈ h.edges

/-- Declarations with the same name and labels have different positions. -/
def PositionsApart (g : Graph) : Prop :=
  ∀ a ∈ g.nodes, ∀ b ∈ g.nodes, a.isDeclaration = true → b.isDeclaration = true →
    a.name = b.name → a.labels = b.labels → a ≠ b → a.position ≠ b.position

variable {f : Nat → Nat} {g h : Graph} {call decl : Node} {i j : Nat}

/-! ## Renumbered graphs as images -/

theorem Renumbers.inj (hf : Renumbers f g h) (hi : i ∈ g.ids) (hj : j ∈ g.ids) :
    f i = f j ↔ i = j := hf.bijective.injOn.eq_iff hi hj

theorem Renumbers.renumber_eq (hf : Renumbers f g h) {m n : Node} (hn : n ∈ g.nodes)
    (hm : m ∈ h.nodes) (hid : m.id = f n.id) : n.renumber f = m := by
  obtain ⟨hkind, hname, hlabels, hdescription, hposition⟩ := hf.nodes n hn m hm hid
  rcases m with ⟨_, _, _, _, _, _⟩
  simp only at hid hkind hname hlabels hdescription hposition
  subst hid hkind hname hlabels hdescription hposition
  rfl

theorem Renumbers.mem_nodes (hf : Renumbers f g h) {m : Node} :
    m ∈ h.nodes ↔ ∃ n ∈ g.nodes, n.renumber f = m := by
  refine ⟨?_, ?_⟩
  · intro hm
    obtain ⟨i, hi, hfi⟩ := hf.bijective.surjOn (id_mem_ids hm)
    obtain ⟨n, hn, rfl⟩ := mem_ids.mp hi
    exact ⟨n, hn, hf.renumber_eq hn hm hfi.symm⟩
  · intro hx
    obtain ⟨n, hn, rfl⟩ := hx
    obtain ⟨m, hm, hid⟩ := mem_ids.mp (hf.bijective.mapsTo (id_mem_ids hn))
    rwa [hf.renumber_eq hn hm hid]

theorem Renumbers.mem_edges (hf : Renumbers f g h) {e : Edge} :
    e ∈ h.edges ↔ ∃ d ∈ g.edges, d.renumber f = e := by
  refine ⟨?_, ?_⟩
  · intro he
    obtain ⟨u, hu, hfu⟩ := hf.bijective.surjOn (source_mem_ids he)
    obtain ⟨v, hv, hfv⟩ := hf.bijective.surjOn (target_mem_ids he)
    refine ⟨⟨u, v⟩, (hf.edges u hu v hv).mpr ?_, ?_⟩
    · rwa [hfu, hfv]
    · rw [Edge.renumber, hfu, hfv]
  · intro hx
    obtain ⟨d, hd, rfl⟩ := hx
    exact (hf.edges d.source (source_mem_ids hd) d.target (target_mem_ids hd)).mp hd

/-- A graph whose nodes and edges are the images of those of another is a renumbering of it. -/
theorem Renumbers.of_images (hinj : Set.InjOn f {i | i ∈ g.ids})
    (hn : ∀ m, m ∈ h.nodes ↔ ∃ n ∈ g.nodes, n.renumber f = m)
    (he : ∀ e, e ∈ h.edges ↔ ∃ d ∈ g.edges, d.renumber f = e) : Renumbers f g h := by
  refine ⟨⟨?_, hinj, ?_⟩, ?_, ?_⟩
  · intro i hi
    obtain ⟨n, hmem, rfl⟩ := mem_ids.mp hi
    exact id_mem_ids ((hn (n.renumber f)).mpr ⟨n, hmem, rfl⟩)
  · intro k hk
    obtain ⟨m, hm, rfl⟩ := mem_ids.mp hk
    obtain ⟨n, hmem, rfl⟩ := (hn m).mp hm
    exact ⟨n.id, id_mem_ids hmem, rfl⟩
  · intro n hmem m hm hid
    obtain ⟨n', hmem', rfl⟩ := (hn m).mp hm
    have hsame : n' = n := eq_of_id_eq hmem' hmem (hinj (id_mem_ids hmem') (id_mem_ids hmem) hid)
    subst hsame
    exact ⟨rfl, rfl, rfl, rfl, rfl⟩
  · intro u hu v hv
    refine ⟨?_, ?_⟩
    · intro hd
      exact (he ⟨f u, f v⟩).mpr ⟨⟨u, v⟩, hd, rfl⟩
    · intro hd
      obtain ⟨⟨s, t⟩, hst, heq⟩ := (he ⟨f u, f v⟩).mp hd
      rw [Edge.renumber, Edge.mk.injEq] at heq
      have hs : s = u := hinj (source_mem_ids hst) hu heq.1
      have ht : t = v := hinj (target_mem_ids hst) hv heq.2
      subst hs ht
      exact hst

/-! ## What a call site resolves to -/

theorem fits_renumber (hf : Renumbers f g h) {m : Node} :
    h.Fits (call.renumber f) m ↔ ∃ d, g.Fits call d ∧ d.renumber f = m := by
  refine ⟨?_, ?_⟩
  · intro hfit
    obtain ⟨d, hd, rfl⟩ := hf.mem_nodes.mp hfit.present
    exact ⟨d, ⟨hd, hfit.declares, hfit.name, hfit.labels⟩, rfl⟩
  · intro hx
    obtain ⟨d, hfit, rfl⟩ := hx
    exact ⟨hf.mem_nodes.mpr ⟨d, hfit.present, rfl⟩, hfit.declares, hfit.name, hfit.labels⟩

/-- The first declaration that fits is first under the new ids too: another one that fits has another
position, so the positions decide between the two. -/
theorem First.renumber (hf : Renumbers f g h) (hpos : g.PositionsApart) (hd : g.First call decl) :
    h.First (call.renumber f) (decl.renumber f) := by
  refine ⟨(fits_renumber hf).mpr ⟨decl, hd.fits, rfl⟩, ?_⟩
  intro m hm
  obtain ⟨d, hfit, rfl⟩ := (fits_renumber hf).mp hm
  by_cases heq : decl = d
  · rw [heq]
  · have hname : decl.name = d.name := hd.fits.name.trans hfit.name.symm
    have hlabels : decl.labels = d.labels := hd.fits.labels.trans hfit.labels.symm
    have hne := hpos decl hd.fits.present d hfit.present hd.fits.declares hfit.declares hname
      hlabels heq
    exact (Node.rank_renumber_le hne).mpr (hd.least d hfit)

theorem mem_callSites_renumber (hf : Renumbers f g h) :
    j ∈ h.callSites ↔ ∃ i ∈ g.callSites, f i = j := by
  rw [mem_callSites]
  refine ⟨?_, ?_⟩
  · intro hx
    obtain ⟨m, hm, hc, rfl⟩ := hx
    obtain ⟨n, hn, rfl⟩ := hf.mem_nodes.mp hm
    exact ⟨n.id, mem_callSites.mpr ⟨n, hn, hc, rfl⟩, rfl⟩
  · intro hx
    obtain ⟨i, hi, rfl⟩ := hx
    obtain ⟨n, hn, hc, rfl⟩ := mem_callSites.mp hi
    exact ⟨n.renumber f, hf.mem_nodes.mpr ⟨n, hn, rfl⟩, hc, rfl⟩

theorem mem_matched_renumber (hf : Renumbers f g h) :
    j ∈ h.matched ↔ ∃ i ∈ g.matched, f i = j := by
  rw [mem_matched]
  refine ⟨?_, ?_⟩
  · intro hx
    obtain ⟨m, hm, hc, rfl, d, hd⟩ := hx
    obtain ⟨n, hn, rfl⟩ := hf.mem_nodes.mp hm
    obtain ⟨d, hfit, _⟩ := (fits_renumber hf).mp hd
    exact ⟨n.id, mem_matched.mpr ⟨n, hn, hc, rfl, d, hfit⟩, rfl⟩
  · intro hx
    obtain ⟨i, hi, rfl⟩ := hx
    obtain ⟨n, hn, hc, rfl, d, hfit⟩ := mem_matched.mp hi
    exact ⟨n.renumber f, hf.mem_nodes.mpr ⟨n, hn, rfl⟩, hc, rfl, d.renumber f,
      (fits_renumber hf).mpr ⟨d, hfit, rfl⟩⟩

theorem mem_ids_of_mem_matched (hi : i ∈ g.matched) : i ∈ g.ids := by
  obtain ⟨n, hn, _, rfl, _⟩ := mem_matched.mp hi
  exact id_mem_ids hn

theorem Renumbers.mem_matched_iff (hf : Renumbers f g h) (hi : i ∈ g.ids) :
    f i ∈ h.matched ↔ i ∈ g.matched := by
  rw [mem_matched_renumber hf]
  refine ⟨?_, ?_⟩
  · intro hx
    obtain ⟨k, hk, heq⟩ := hx
    rwa [← (hf.inj (mem_ids_of_mem_matched hk) hi).mp heq]
  · intro hm
    exact ⟨i, hm, rfl⟩

theorem resolves_renumber (hf : Renumbers f g h) (hpos : g.PositionsApart) (hi : i ∈ g.ids) :
    h.Resolves (f i) j ↔ ∃ k, g.Resolves i k ∧ f k = j := by
  have hforth : ∀ {k}, g.Resolves i k → h.Resolves (f i) (f k) := by
    intro k hr
    obtain ⟨n, hn, hc, rfl, d, hd, rfl⟩ := hr
    exact ⟨n.renumber f, hf.mem_nodes.mpr ⟨n, hn, rfl⟩, hc, rfl, d.renumber f, hd.renumber hf hpos,
      rfl⟩
  refine ⟨?_, ?_⟩
  · intro hr
    -- the call site is matched in `g` as well, and what it resolves to there is unique in `h`
    have hm : i ∈ g.matched := (hf.mem_matched_iff hi).mp hr.mem_matched
    obtain ⟨k, hk⟩ := mem_matched_iff_resolves.mp hm
    exact ⟨k, hk, (hforth hk).unique hr⟩
  · intro hx
    obtain ⟨k, hk, rfl⟩ := hx
    exact hforth hk

/-! ## Collapsing -/

variable {s t : Collapsing}

/-- An edge of a renumbered graph from a node that stays into a call site that resolves to `v`. -/
theorem redirected_renumber (hf : Renumbers f g h) (hpos : g.PositionsApart) {e : Edge} :
    (e.source ∉ h.matched ∧ ∃ c, ⟨e.source, c⟩ ∈ h.edges ∧ h.Resolves c e.target) ↔
      ∃ d : Edge, (d.source ∉ g.matched ∧ ∃ c, ⟨d.source, c⟩ ∈ g.edges ∧ g.Resolves c d.target) ∧
        d.renumber f = e := by
  refine ⟨?_, ?_⟩
  · intro hx
    obtain ⟨hsrc, c, he, hr⟩ := hx
    obtain ⟨⟨u, c'⟩, hd, heq⟩ := hf.mem_edges.mp he
    rw [Edge.renumber, Edge.mk.injEq] at heq
    obtain ⟨hu, hc⟩ := heq
    obtain ⟨v, hv, hfv⟩ := (resolves_renumber hf hpos (target_mem_ids hd)).mp (hc ▸ hr)
    refine ⟨⟨u, v⟩, ⟨?_, c', hd, hv⟩, ?_⟩
    · intro hm
      exact hsrc (hu ▸ (hf.mem_matched_iff (source_mem_ids hd)).mpr hm)
    · rw [Edge.renumber, hu, hfv]
  · intro hx
    obtain ⟨⟨u, v⟩, ⟨hsrc, c, he, hr⟩, rfl⟩ := hx
    refine ⟨?_, f c, hf.mem_edges.mpr ⟨⟨u, c⟩, he, rfl⟩, ?_⟩
    · intro hm
      exact hsrc ((hf.mem_matched_iff (source_mem_ids he)).mp hm)
    · exact (resolves_renumber hf hpos (target_mem_ids he)).mpr ⟨v, hr, rfl⟩

theorem Renumbers.collapsed_highlighted (hf : Renumbers f g h) (hpos : g.PositionsApart)
    (hs : Collapsed g s) (ht : Collapsed h t) (e : Edge) :
    e ∈ t.outcome.highlighted ↔ ∃ d ∈ s.outcome.highlighted, d.renumber f = e := by
  rw [show e ∈ t.outcome.highlighted ↔ _ from ht.highlighted e.source e.target,
    redirected_renumber hf hpos]
  refine exists_congr fun d => and_congr_left fun _ => ?_
  exact (hs.highlighted d.source d.target).symm

/-- The edges after collapsing are those between nodes that stay and the highlighted ones. -/
theorem mem_edges_of_collapsed (hs : Collapsed g s) {e : Edge} : e ∈ s.graph.edges ↔
    (e ∈ g.edges ∧ e.source ∉ g.matched ∧ e.target ∉ g.matched) ∨ e ∈ s.outcome.highlighted := by
  rcases e with ⟨u, v⟩
  rw [hs.edges, hs.highlighted]
  tauto

theorem Renumbers.collapsed (hf : Renumbers f g h) (hpos : g.PositionsApart) (hs : Collapsed g s)
    (ht : Collapsed h t) : Renumbers f s.graph t.graph := by
  refine Renumbers.of_images ?_ ?_ ?_
  · intro i hi j hj heq
    obtain ⟨m, hm, rfl⟩ := mem_ids.mp hi
    obtain ⟨n, hn, rfl⟩ := mem_ids.mp hj
    exact hf.bijective.injOn (id_mem_ids ((hs.nodes m).mp hm).1) (id_mem_ids ((hs.nodes n).mp hn).1)
      heq
  · intro m
    rw [ht.nodes, hf.mem_nodes]
    refine ⟨?_, ?_⟩
    · intro hx
      obtain ⟨⟨n, hn, rfl⟩, hm⟩ := hx
      exact ⟨n, (hs.nodes n).mpr ⟨hn, fun h => hm ((hf.mem_matched_iff (id_mem_ids hn)).mpr h)⟩, rfl⟩
    · intro hx
      obtain ⟨n, hn, rfl⟩ := hx
      obtain ⟨hn, hm⟩ := (hs.nodes n).mp hn
      exact ⟨⟨n, hn, rfl⟩, fun h => hm ((hf.mem_matched_iff (id_mem_ids hn)).mp h)⟩
  · intro e
    rw [mem_edges_of_collapsed ht, hf.mem_edges, hf.collapsed_highlighted hpos hs ht]
    refine ⟨?_, ?_⟩
    · intro hx
      obtain ⟨⟨d, hd, rfl⟩, hsrc, htgt⟩ | ⟨d, hd, rfl⟩ := hx
      · refine ⟨d, (mem_edges_of_collapsed hs).mpr (Or.inl ⟨hd, ?_, ?_⟩), rfl⟩
        · exact fun hm => hsrc ((hf.mem_matched_iff (source_mem_ids hd)).mpr hm)
        · exact fun hm => htgt ((hf.mem_matched_iff (target_mem_ids hd)).mpr hm)
      · exact ⟨d, (mem_edges_of_collapsed hs).mpr (Or.inr hd), rfl⟩
    · intro hx
      obtain ⟨d, hd, rfl⟩ := hx
      rcases (mem_edges_of_collapsed hs).mp hd with ⟨hd, hsrc, htgt⟩ | hd
      · refine Or.inl ⟨⟨d, hd, rfl⟩, ?_, ?_⟩
        · exact fun hm => hsrc ((hf.mem_matched_iff (source_mem_ids hd)).mp hm)
        · exact fun hm => htgt ((hf.mem_matched_iff (target_mem_ids hd)).mp hm)
      · exact Or.inr ⟨d, hd, rfl⟩

theorem Renumbers.card_eq (hf : Renumbers f g h) {a b : Finset Nat} (ha : ∀ i ∈ a, i ∈ g.ids)
    (hb : ∀ j, j ∈ b ↔ ∃ i ∈ a, f i = j) : b.card = a.card := by
  have himage : b = a.image f := by
    ext j
    rw [hb, Finset.mem_image]
  rw [himage]
  apply Finset.card_image_of_injOn
  intro i hi j hj heq
  exact hf.bijective.injOn (ha i hi) (ha j hj) heq

theorem Renumbers.card_matched (hf : Renumbers f g h) : h.matched.card = g.matched.card :=
  hf.card_eq (fun _ hi => mem_ids_of_mem_matched hi) (fun _ => mem_matched_renumber hf)

theorem Renumbers.card_unmatched (hf : Renumbers f g h) :
    (h.callSites \ h.matched).card = (g.callSites \ g.matched).card := by
  have hids : ∀ i ∈ g.callSites, i ∈ g.ids := by
    intro i hi
    obtain ⟨n, hn, _, rfl⟩ := mem_callSites.mp hi
    exact id_mem_ids hn
  have hsites : h.callSites.card = g.callSites.card :=
    hf.card_eq hids (fun _ => mem_callSites_renumber hf)
  rw [Finset.card_sdiff_of_subset h.matched_subset_callSites,
    Finset.card_sdiff_of_subset g.matched_subset_callSites, hsites, hf.card_matched]

/-! ## Cleaning -/

variable {c d : CleanGraph} {hg hh : EdgeSet}

theorem proper_renumber (hf : Renumbers f g h) {e : Edge} :
    h.Proper e ↔ ∃ d, g.Proper d ∧ d.renumber f = e := by
  rw [Proper, hf.mem_edges]
  refine ⟨?_, ?_⟩
  · intro hx
    obtain ⟨⟨d, hd, rfl⟩, hne⟩ := hx
    exact ⟨d, ⟨hd, fun heq => hne (congrArg f heq)⟩, rfl⟩
  · intro hx
    obtain ⟨d, ⟨hd, hne⟩, rfl⟩ := hx
    exact ⟨⟨d, hd, rfl⟩,
      fun heq => hne ((hf.inj (source_mem_ids hd) (target_mem_ids hd)).mp heq)⟩

theorem Renumbers.cleaned (hf : Renumbers f g h) (hc : g.CleanOf hg c) (hd : h.CleanOf hh d) :
    Renumbers f c.graph d.graph := by
  refine Renumbers.of_images ?_ ?_ ?_
  · intro i hi j hj heq
    obtain ⟨m, hm, rfl⟩ := mem_ids.mp hi
    obtain ⟨n, hn, rfl⟩ := mem_ids.mp hj
    exact hf.bijective.injOn (id_mem_ids ((hc.nodes m).mp hm).1) (id_mem_ids ((hc.nodes n).mp hn).1)
      heq
  · intro m
    rw [hd.nodes, hf.mem_nodes]
    refine ⟨?_, ?_⟩
    · intro hx
      obtain ⟨⟨n, hn, rfl⟩, e, he, hend⟩ := hx
      obtain ⟨x, hx, rfl⟩ := (proper_renumber hf).mp he
      refine ⟨n, (hc.nodes n).mpr ⟨hn, x, hx, ?_⟩, rfl⟩
      have hsrc := hf.inj (source_mem_ids hx.1) (id_mem_ids hn)
      have htgt := hf.inj (target_mem_ids hx.1) (id_mem_ids hn)
      exact hend.imp hsrc.mp htgt.mp
    · intro hx
      obtain ⟨n, hn, rfl⟩ := hx
      obtain ⟨hn, x, hx, hend⟩ := (hc.nodes n).mp hn
      exact ⟨⟨n, hn, rfl⟩, x.renumber f, (proper_renumber hf).mpr ⟨x, hx, rfl⟩,
        hend.imp (congrArg f) (congrArg f)⟩
  · intro e
    rw [hd.edges, proper_renumber hf]
    simp only [hc.edges]

theorem Renumbers.cleaned_highlighted (hf : Renumbers f g h) (hc : g.CleanOf hg c)
    (hd : h.CleanOf hh d) (hsub : ∀ x ∈ hg, x ∈ g.edges)
    (himage : ∀ e, e ∈ hh ↔ ∃ x ∈ hg, x.renumber f = e) (e : Edge) :
    e ∈ d.highlighted ↔ ∃ x ∈ c.highlighted, x.renumber f = e := by
  rw [hd.highlighted, himage]
  refine ⟨?_, ?_⟩
  · intro hx
    obtain ⟨⟨x, hx, rfl⟩, hproper⟩ := hx
    have hne : x.source ≠ x.target := fun heq => hproper.2 (congrArg f heq)
    exact ⟨x, (hc.highlighted x).mpr ⟨hx, hsub x hx, hne⟩, rfl⟩
  · intro hx
    obtain ⟨x, hx, rfl⟩ := hx
    obtain ⟨hx, hproper⟩ := (hc.highlighted x).mp hx
    exact ⟨⟨x, hx, rfl⟩, (proper_renumber hf).mpr ⟨x, hproper, rfl⟩⟩

/-! ## Folding -/

/-- Folding does not depend on the ids. If `f` renumbers `g` as `h`, and declarations of `g` with the
same name and labels have different positions, then folding `h` gives the image of folding `g`: its
nodes, edges and highlighted edges are those of the other under their new ids, and as many call
sites were replaced and left. -/
theorem fold_renumbered (f : Nat → Nat) (g h : Graph) (hf : Renumbers f g h)
    (hpos : g.PositionsApart) :
    ∃ r r', g.fold = .ok r ∧ h.fold = .ok r' ∧
      Set.BijOn f {i | i ∈ r.clean.graph.ids} {i | i ∈ r'.clean.graph.ids} ∧
      (∀ m, m ∈ r'.clean.graph.nodes ↔ ∃ n ∈ r.clean.graph.nodes, n.renumber f = m) ∧
      (∀ e, e ∈ r'.clean.graph.edges ↔ ∃ d ∈ r.clean.graph.edges, d.renumber f = e) ∧
      (∀ e, e ∈ r'.clean.highlighted ↔ ∃ d ∈ r.clean.highlighted, d.renumber f = e) ∧
      (∀ e, e ∈ r'.outcome.highlighted ↔ ∃ d ∈ r.outcome.highlighted, d.renumber f = e) ∧
      r'.outcome.collapsed = r.outcome.collapsed ∧ r'.outcome.unmatched = r.outcome.unmatched := by
  obtain ⟨s, r, hr, hs, hc, hro⟩ := g.fold_spec
  obtain ⟨t, r', hr', ht, hd, hro'⟩ := h.fold_spec
  have hcollapsed := hf.collapsed hpos hs ht
  have hclean := hcollapsed.cleaned hc hd
  have hhigh := hf.collapsed_highlighted hpos hs ht
  have hsub : ∀ x ∈ s.outcome.highlighted, x ∈ s.graph.edges :=
    fun x hx => (mem_edges_of_collapsed hs).mpr (Or.inr hx)
  refine ⟨r, r', hr, hr', hclean.bijective, fun m => hclean.mem_nodes, fun e => hclean.mem_edges,
    hcollapsed.cleaned_highlighted hc hd hsub hhigh, ?_, ?_, ?_⟩
  · rw [hro, hro']
    exact hhigh
  · rw [hro, hro', ht.collapsed, hs.collapsed, hf.card_matched]
  · rw [hro, hro', ht.unmatched, hs.unmatched, hf.card_unmatched]

/-- `main` calls `run`, which is declared twice; the declaration that was inserted first stands later
in the sources. -/
def lateFirst : Graph :=
  ((((empty.addNode { kind := .function, name := "main" }).addNode
    { kind := .method, name := "run", position := some ⟨1, 40, 3⟩ }).addNode
    { kind := .method, name := "run", position := some ⟨0, 10, 1⟩ }).addNode
    { kind := .methodCall, name := "run" }).connect 0 3

/-- The same nodes and edge, inserted in another order. -/
def earlyFirst : Graph :=
  ((((empty.addNode { kind := .methodCall, name := "run" }).addNode
    { kind := .method, name := "run", position := some ⟨0, 10, 1⟩ }).addNode
    { kind := .function, name := "main" }).addNode
    { kind := .method, name := "run", position := some ⟨1, 40, 3⟩ }).connect 2 0

/-- Which node of `lateFirst` is which of `earlyFirst`. -/
def shuffle (i : Nat) : Nat := [2, 3, 1, 0].getD i i

theorem shuffle_renumbers : Renumbers shuffle lateFirst earlyFirst := by
  refine ⟨⟨?_, ?_, ?_⟩, by decide, by decide⟩
  · show ∀ i ∈ lateFirst.ids, shuffle i ∈ earlyFirst.ids
    decide
  · show ∀ i ∈ lateFirst.ids, ∀ j ∈ lateFirst.ids, shuffle i = shuffle j → i = j
    decide
  · show ∀ j ∈ earlyFirst.ids, ∃ i ∈ lateFirst.ids, shuffle i = j
    decide

/-- In both graphs `main` is linked to the declaration that stands first in the sources. -/
theorem fold_renumbered_lateFirst :
    Renumbers shuffle lateFirst earlyFirst ∧ lateFirst.PositionsApart ∧
    ∃ r r', lateFirst.fold = .ok r ∧ earlyFirst.fold = .ok r' ∧
      ⟨0, 2⟩ ∈ r.clean.highlighted ∧ ⟨2, 1⟩ ∈ r'.clean.highlighted ∧
      r'.outcome.collapsed = r.outcome.collapsed := by
  have hpos : lateFirst.PositionsApart := by
    show ∀ a ∈ lateFirst.nodes, ∀ b ∈ lateFirst.nodes, _
    decide
  have hfirst : lateFirst.First ⟨3, .methodCall, "run", [], "run", none⟩
      ⟨2, .method, "run", [], "run", some ⟨0, 10, 1⟩⟩ := by
    refine ⟨by decide, ?_⟩
    intro d hd
    have hall : ∀ d ∈ lateFirst.nodes, d.isDeclaration = true → d.name = "run" →
        Node.preferred ⟨2, .method, "run", [], "run", some ⟨0, 10, 1⟩⟩ d = true := by decide
    exact Node.preferred_iff.mp (hall d hd.present hd.declares hd.name)
  have hresolves : lateFirst.Resolves 3 2 := ⟨_, by decide, by decide, rfl, _, hfirst, rfl⟩
  obtain ⟨s, r, hr, hs, hc, _⟩ := lateFirst.fold_spec
  have hnew : ⟨0, 2⟩ ∈ s.outcome.highlighted :=
    (hs.highlighted 0 2).mpr ⟨by decide, 3, by decide, hresolves⟩
  have hproper : s.graph.Proper ⟨0, 2⟩ :=
    ⟨(mem_edges_of_collapsed hs).mpr (Or.inr hnew), by decide⟩
  have hhigh : ⟨0, 2⟩ ∈ r.clean.highlighted := (hc.highlighted ⟨0, 2⟩).mpr ⟨hnew, hproper⟩
  obtain ⟨r₁, r', hr₁, hr', _, _, _, himage, _, hcollapsed, _⟩ :=
    fold_renumbered shuffle lateFirst earlyFirst shuffle_renumbers hpos
  have hsame : r₁ = r := Except.ok.inj (hr₁.symm.trans hr)
  subst hsame
  exact ⟨shuffle_renumbers, hpos, r₁, r', hr, hr', hhigh,
    (himage ⟨2, 1⟩).mpr ⟨⟨0, 2⟩, hhigh, rfl⟩, hcollapsed⟩

end Graph

end CallGraph
