import CallGraph.Proofs.Concatenation
import CallGraph.Proofs.Retention
import CallGraph.Slots

/-!
Folding with more files at the end.

Files that are appended bring new declarations, and a call of an earlier file may fit some of them.
It resolves to the declaration of least rank, and ranks go by file first: a declaration that was there
before is ahead of all that are new. So a call that had a target keeps it, and only calls that had
none can get one.

`Extends` says what the longer graph has to be for this: the nodes and edges that were there under
their ids, and nothing new of a lower rank. From it follows what every call resolves to
(`Extends.resolves`, `Extends.resolves_new`), and what folding keeps (`Forest.highlighted_of_extends`,
`Forest.mem_nodes_of_extends`). That the graph of more files extends that of fewer needs that the
number of a file fits in a word, which it does: every file has a node, and every node a slot.
-/

namespace CallGraph

theorem Node.rank_le_of_file_lt {a b : Node} {p q : Position} (ha : a.position = some p)
    (hb : b.position = some q) (h : p.file < q.file) : a.rank ≤ b.rank := by
  rw [← Node.preferred_iff]
  simp [Node.preferred, ha, hb, Position.lt, h]

namespace Graph

open Collapsing

/-- The graph `h` has the nodes and edges of `g`, and new nodes of higher id and no lower rank. -/
structure Extends (g h : Graph) : Prop where
  nodes : ∀ n, n ∈ g.nodes ↔ n ∈ h.nodes ∧ n.id < g.next
  edges : ∀ e ∈ g.edges, e ∈ h.edges
  later : ∀ d ∈ g.nodes, ∀ n ∈ h.nodes, g.next ≤ n.id → d.rank ≤ n.rank

namespace Extends

variable {g h : Graph} {call decl : Node} {c t : Nat}

theorem mem_nodes (hx : Extends g h) {n : Node} (hn : n ∈ g.nodes) : n ∈ h.nodes :=
  ((hx.nodes n).mp hn).1

theorem fits (hx : Extends g h) (hf : g.Fits call decl) : h.Fits call decl :=
  ⟨hx.mem_nodes hf.present, hf.declares, hf.name, hf.labels⟩

/-- The first declaration that fits stays the first: a new one that fits is of no lower rank. -/
theorem first (hx : Extends g h) (hd : g.First call decl) : h.First call decl := by
  refine ⟨hx.fits hd.fits, ?_⟩
  intro d hf
  by_cases hid : d.id < g.next
  · have hold : d ∈ g.nodes := (hx.nodes d).mpr ⟨hf.present, hid⟩
    exact hd.least d ⟨hold, hf.declares, hf.name, hf.labels⟩
  · exact hx.later decl hd.fits.present d hf.present (Nat.le_of_not_lt hid)

theorem resolves (hx : Extends g h) (hr : g.Resolves c t) : h.Resolves c t := by
  obtain ⟨call, hn, hc, hid, decl, hd, ht⟩ := hr
  exact ⟨call, hx.mem_nodes hn, hc, hid, decl, hx.first hd, ht⟩

theorem mem_callSites_of_mem_matched (hx : Extends g h) {n : Node} (hn : n ∈ g.nodes)
    (hm : n.id ∈ h.matched) : n.isCallSite = true :=
  (id_mem_callSites (hx.mem_nodes hn)).mp (h.matched_subset_callSites hm)

/-- A call that resolves now did so before, or it had no match and what it resolves to is new. -/
theorem resolves_new (hx : Extends g h) (hc : c ∈ g.callSites) (hr : h.Resolves c t) :
    g.Resolves c t ∨ c ∉ g.matched ∧ g.next ≤ t := by
  by_cases hm : c ∈ g.matched
  · obtain ⟨t', hr'⟩ := mem_matched_iff_resolves.mp hm
    obtain rfl := (hx.resolves hr').unique hr
    exact Or.inl hr'
  · refine Or.inr ⟨hm, ?_⟩
    by_contra hlt
    -- a declaration that was there before would have fitted before
    obtain ⟨call, hn, hsite, rfl, decl, hd, rfl⟩ := hr
    obtain ⟨m, hmem, hmsite, hid⟩ := mem_callSites.mp hc
    obtain rfl := eq_of_id_eq (hx.mem_nodes hmem) hn hid
    have hold : decl ∈ g.nodes := (hx.nodes decl).mpr ⟨hd.fits.present, Nat.lt_of_not_le hlt⟩
    exact hm (mem_matched.mpr
      ⟨m, hmem, hmsite, rfl, decl, hold, hd.fits.declares, hd.fits.name, hd.fits.labels⟩)

end Extends

/-- A graph extends the one that it starts with, if what follows is of no lower rank. -/
theorem Concat.extends {k : Nat} {g g₂ h : Graph} (hc : Concat k g g₂ h)
    (hlater : ∀ d ∈ g.nodes, ∀ n ∈ g₂.nodes, d.rank ≤ (n.shift g.next k).rank) : Extends g h where
  nodes := by
    intro n
    rw [hc.nodes, List.mem_append, List.mem_map]
    constructor
    · intro hn
      exact ⟨Or.inl hn, g.ids_issued _ (id_mem_ids hn)⟩
    · rintro ⟨hn | ⟨m, -, rfl⟩, hid⟩
      · exact hn
      · -- the id of a new node has gone up by more
        simp only [Node.shift] at hid
        omega
  edges := fun e he => (hc.edges e).mpr (Or.inl he)
  later := by
    intro d hd n hn hid
    rw [hc.nodes, List.mem_append, List.mem_map] at hn
    rcases hn with hn | ⟨m, hm, rfl⟩
    · have := g.ids_issued _ (id_mem_ids hn)
      omega
    · exact hlater d hd m hm

end Graph

namespace Source

open CallGraph.Graph Collapsing

variable {parse : String → Tree} {strict : Bool} {A B files : List SourceFile} {g h : Graph}

/-! ## What folding keeps -/

section Folding

variable {fs fs' : List SourceFile} {start start' : Nat → Nat} {s s' : Collapsing} {r r' : Folded}

theorem Forest.highlighted_of_extends (hx : Extends g h) (hf : Forest fs g start)
    (hf' : Forest fs' h start') (hs : Collapsed g s) (hs' : Collapsed h s')
    (hc : s.graph.CleanOf s.outcome.highlighted r.clean)
    (hc' : s'.graph.CleanOf s'.outcome.highlighted r'.clean) {e : Edge}
    (he : e ∈ r.clean.highlighted) : e ∈ r'.clean.highlighted := by
  obtain ⟨hne, c, hcall, hr⟩ := (hf.mem_highlighted_fold hs hc).mp he
  exact (hf'.mem_highlighted_fold hs' hc').mpr ⟨hne, c, hx.edges _ hcall, hx.resolves hr⟩

theorem Forest.mem_nodes_of_extends (hx : Extends g h) (hf : Forest fs g start)
    (hf' : Forest fs' h start') (hs : Collapsed g s) (hs' : Collapsed h s')
    (hc : s.graph.CleanOf s.outcome.highlighted r.clean)
    (hc' : s'.graph.CleanOf s'.outcome.highlighted r'.clean) {n : Node}
    (hn : n ∈ r.clean.graph.nodes) :
    n ∈ r'.clean.graph.nodes ∨
      n.isCallSite = true ∧ n.id ∉ g.matched ∧ n.id ∈ h.matched := by
  obtain ⟨hmem, hm, hbare⟩ := (hf.mem_nodes_fold hs hc n).mp hn
  by_cases hm' : n.id ∈ h.matched
  · exact Or.inr ⟨hx.mem_callSites_of_mem_matched hmem hm', hm, hm'⟩
  · refine Or.inl ((hf'.mem_nodes_fold hs' hc' n).mpr ⟨hx.mem_nodes hmem, hm', ?_⟩)
    -- a file that owned something still does
    rw [← Bool.not_eq_true, isBareFile_iff] at hbare ⊢
    rintro ⟨hk, hnone⟩
    exact hbare ⟨hk, fun v he => hnone v (hx.edges _ he)⟩

end Folding

/-! ## The graph of more files -/

/-- The sources are accepted: extraction gives a graph, and there is a slot for each of its nodes. -/
def Accepted (parse : String → Tree) (strict : Bool) (files : List SourceFile) (g : Graph) : Prop :=
  rawGraph parse strict files = .ok g ∧ g.nodeCount ≤ slotLimit

/-- Every file has a node, so the number of files fits in a word. -/
theorem Accepted.length_lt (ha : Accepted parse strict files g) : files.length < Nat.pow 2 32 := by
  obtain ⟨start, hf⟩ := forest_of_extractFrom ha.1
  have hcount := hf.edgeCount
  have hroom := ha.2
  have hlimit : slotLimit + 1 = Nat.pow 2 32 := rfl
  omega

/-- The graph of more files extends that of the files before. -/
theorem extends_of_append {g₂ : Graph} (hA : rawGraph parse strict A = .ok g)
    (hB : rawGraph parse strict B = .ok g₂) (hc : Concat A.length g g₂ h)
    (hlen : (A ++ B).length < Nat.pow 2 32) : Extends g h := by
  refine hc.extends ?_
  intro d hd n hn
  obtain ⟨i, hi, hfile⟩ := file_of_rawGraph hA hd
  obtain ⟨j, hj, hfile'⟩ := file_of_rawGraph hB hn
  obtain ⟨p, hp, hpi⟩ := Option.map_eq_some_iff.mp hfile
  obtain ⟨q, hq, hqj⟩ := Option.map_eq_some_iff.mp hfile'
  rw [List.length_append] at hlen
  have hshift : (n.shift g.next A.length).position = some (q.shift A.length) := by
    simp [Node.shift, hq]
  refine Node.rank_le_of_file_lt hp hshift (UInt32.lt_iff_toNat_lt.mpr ?_)
  have hnum : p.file.toNat ≤ i := by
    rw [hpi]
    simpa using Nat.mod_le i _
  rw [toNat_shift hqj A.length (by omega)]
  omega

theorem Accepted.of_append (ha : Accepted parse strict (A ++ B) h) :
    ∃ g, Accepted parse strict A g ∧ Extends g h := by
  obtain ⟨haccepts, -⟩ := (extractFrom_eq_ok_iff ..).mp ha.1
  have hsplit := List.forall_mem_append.mp haccepts
  have hA : rawGraph parse strict A = .ok _ := (extractFrom_eq_ok_iff ..).mpr ⟨hsplit.1, rfl⟩
  have hB : rawGraph parse strict B = .ok _ := (extractFrom_eq_ok_iff ..).mpr ⟨hsplit.2, rfl⟩
  obtain ⟨r, hr, hconcat⟩ := concat_of_rawGraph hA hB
  obtain rfl : r = h := Except.ok.inj (hr.symm.trans ha.1)
  refine ⟨_, ⟨hA, ?_⟩, extends_of_append hA hB hconcat ha.length_lt⟩
  have hcount : r.nodeCount = _ := congrArg List.length hconcat.nodes
  rw [List.length_append] at hcount
  have hroom := ha.2
  exact Nat.le_trans (Nat.le.intro hcount.symm) hroom

/-- Appending files is conservative. If the files are accepted with others after them, then without
those every node has the same id, a call that has a match resolves to the same declaration, and every
highlighted edge of the folded graph is highlighted in the longer one. Every node of the folded graph
stays, except for calls that had no match and have one now; such a match is a declaration of the
appended files. -/
theorem fold_append_conservative (parse : String → Tree) (strict : Bool) (A B : List SourceFile)
    (h : Graph) (ha : Accepted parse strict (A ++ B) h) :
    ∃ g r r', Accepted parse strict A g ∧ g.fold = .ok r ∧ h.fold = .ok r' ∧
      (∀ n, n ∈ g.nodes ↔ n ∈ h.nodes ∧ n.id < g.nodeCount) ∧
      (∀ c t, g.Resolves c t → h.Resolves c t) ∧
      (∀ e ∈ r.clean.highlighted, e ∈ r'.clean.highlighted) ∧
      (∀ n ∈ r.clean.graph.nodes, n.isCallSite = false → n ∈ r'.clean.graph.nodes) ∧
      (∀ n ∈ r.clean.graph.nodes, n ∉ r'.clean.graph.nodes →
        n.isCallSite = true ∧ n.id ∉ g.matched ∧ n.id ∈ h.matched) ∧
      (∀ c ∈ g.callSites, ∀ t, h.Resolves c t →
        g.Resolves c t ∨ c ∉ g.matched ∧ g.nodeCount ≤ t) := by
  obtain ⟨g, hg, hx⟩ := ha.of_append
  obtain ⟨start, hf⟩ := forest_of_extractFrom hg.1
  obtain ⟨start', hf'⟩ := forest_of_extractFrom ha.1
  obtain ⟨s, r, hr, hs, hc, -⟩ := g.fold_spec
  obtain ⟨s', r', hr', hs', hc', -⟩ := h.fold_spec
  refine ⟨g, r, r', hg, hr, hr', ?_, fun c t => hx.resolves, ?_, ?_, ?_, ?_⟩
  · rw [← next_of_rawGraph hg.1]
    exact hx.nodes
  · intro e he
    exact hf.highlighted_of_extends hx hf' hs hs' hc hc' he
  · intro n hn hsite
    rcases hf.mem_nodes_of_extends hx hf' hs hs' hc hc' hn with hstays | ⟨hcall, -, -⟩
    · exact hstays
    · rw [hsite] at hcall
      cases hcall
  · intro n hn hgone
    exact (hf.mem_nodes_of_extends hx hf' hs hs' hc hc' hn).resolve_left hgone
  · rw [← next_of_rawGraph hg.1]
    intro c hcall t hres
    exact hx.resolves_new hcall hres

/-- A function that calls one of its file and one that is not there yet. -/
def earlyFile : List SourceFile := [⟨⟨"a.rs"⟩, "fn f() \x7b g(); h() \x7d fn g() \x7b\x7d"⟩]

/-- A file with a second function for the first call, and with one for the other. -/
def lateFile : List SourceFile := [⟨⟨"b.rs"⟩, "fn g() \x7b\x7d fn h() \x7b\x7d"⟩]

theorem fold_append_conservative_lateFile :
    ∃ g h r r', (extract true (earlyFile ++ lateFile)).result = .ok h ∧
      Accepted Source.parse true (earlyFile ++ lateFile) h ∧
      Accepted Source.parse true earlyFile g ∧ g.fold = .ok r ∧ h.fold = .ok r' ∧
      (∃ t, g.Resolves 2 t ∧ h.Resolves 2 t) ∧ 3 ∉ g.matched ∧ 3 ∈ h.matched ∧
      (∀ e, e ∈ r.clean.highlighted → e ∈ r'.clean.highlighted) := by
  have hlong : (rawGraph Source.parse true (earlyFile ++ lateFile)).toOption.map
      (fun h => (decide (h.nodeCount ≤ slotLimit), decide (3 ∈ h.matched))) = some (true, true) := by
    decide +kernel
  have hshort : (rawGraph Source.parse true earlyFile).toOption.map
      (fun g => (decide (2 ∈ g.matched), decide (3 ∈ g.matched))) = some (true, false) := by
    decide +kernel
  cases hrun : rawGraph Source.parse true (earlyFile ++ lateFile) with
  | error e => simp [hrun, Except.toOption] at hlong
  | ok h =>
    simp only [hrun, Except.toOption, Option.map_some, Option.some.injEq, Prod.mk.injEq,
      decide_eq_true_eq] at hlong
    have ha : Accepted Source.parse true (earlyFile ++ lateFile) h := ⟨hrun, hlong.1⟩
    obtain ⟨g, r, r', hg, hr, hr', -, hres, hhigh, -⟩ :=
      fold_append_conservative Source.parse true earlyFile lateFile h ha
    simp only [hg.1, Except.toOption, Option.map_some, Option.some.injEq, Prod.mk.injEq,
      decide_eq_true_eq, decide_eq_false_iff_not] at hshort
    obtain ⟨t, ht⟩ := mem_matched_iff_resolves.mp hshort.1
    refine ⟨g, h, r, r', ?_, ha, hg, hr, hr', ⟨t, ht, hres 2 t ht⟩, hshort.2, hlong.2, hhigh⟩
    rw [extract_eq_rawGraph, hrun]

end Source

end CallGraph
