import CallGraph.Dot.Reader
import CallGraph.Proofs.Cleaning
import Mathlib.Data.List.Forall2

/-!
The text of a clean graph says what the graph says.

A description is any text: it may hold quotes, backslashes and line ends, or look like a statement.
In the text of a graph it stands between quotes, with these three characters escaped, and the reader
comes out of it where it ends and nowhere before (`reads_escape`). So each line is one statement,
whatever the descriptions are (`Writes`), and the reader gives back the statements in order.

What is proved:
1. `writes_highlightedLine`, `writes_plainLine`, `writes_nodeLine`: what each kind of line says.
2. `statements?_render`: the text of any clean graph is read as its statements, one for each
   highlighted edge, each plain edge and each node.
3. `read?_render`: hence the lists of edges and nodes come back as they were.
-/

namespace CallGraph.Dot

/-! ## Reading characters -/

namespace Scan

/-- Reading the characters completes the tokens and leads from one state to another. -/
def Reads (s : Scan) (cs : List Char) (ts : List Token) (s' : Scan) : Prop := s.run cs = some (ts, s')

variable {s s₁ s₂ : Scan} {cs ds : List Char} {ts us : List Token} {read : List Char}

theorem Reads.append (h : Reads s cs ts s₁) (h' : Reads s₁ ds us s₂) :
    Reads s (cs ++ ds) (ts ++ us) s₂ := by
  induction cs generalizing s ts with
  | nil =>
    simp only [Reads, run, Option.some.injEq, Prod.mk.injEq] at h
    obtain ⟨rfl, rfl⟩ := h
    exact h'
  | cons c cs ih =>
    simp only [Reads, run, Option.bind_eq_some_iff, Option.map_eq_some_iff, Prod.mk.injEq] at h
    obtain ⟨p, hp, q, hq, rfl, rfl⟩ := h
    have hrest : Reads p.2 (cs ++ ds) (q.1 ++ us) s₂ := ih hq
    simp only [Reads] at hrest
    simp [Reads, run, hp, hrest]

end Scan

open Scan

/-! ## Quoted texts -/

theorem replace_append (old : Char) (new cs ds : List Char) :
    replace old new (cs ++ ds) = replace old new cs ++ replace old new ds := List.flatMap_append

theorem escape_append (cs ds : List Char) : escape (cs ++ ds) = escape cs ++ escape ds := by
  simp only [escape, replace_append]

theorem escape_singleton {c : Char} (h₁ : c ≠ '\\') (h₂ : c ≠ '"') (h₃ : c ≠ '\n') :
    escape [c] = [c] := by
  simp [escape, replace, h₁, h₂, h₃]

theorem reads_escape_singleton (read : List Char) (c : Char) :
    Reads (.quoted read) (escape [c]) [] (.quoted (c :: read)) := by
  by_cases h₁ : c = '\\'
  · subst h₁; rfl
  by_cases h₂ : c = '"'
  · subst h₂; rfl
  by_cases h₃ : c = '\n'
  · subst h₃; rfl
  rw [escape_singleton h₁ h₂ h₃]
  simp [Reads, run, advance, h₁, h₂]

/-- An escaped text is read as that text, and the reader stays between the quotes. -/
theorem reads_escape (read cs : List Char) :
    Reads (.quoted read) (escape cs) [] (.quoted (cs.reverse ++ read)) := by
  induction cs generalizing read with
  | nil => rfl
  | cons c cs ih =>
    rw [← List.singleton_append, escape_append, List.reverse_append, List.reverse_singleton,
      List.append_assoc]
    exact (reads_escape_singleton read c).append (ih (c :: read))

theorem reads_escapeLabel (s : String) :
    Reads (.quoted []) (escapeLabel s).toList [] (.quoted s.toList.reverse) := by
  rw [escapeLabel, String.toList_ofList, ← List.append_nil s.toList.reverse]
  exact reads_escape [] s.toList

/-! ## Ids -/

theorem toList_idText (i : Nat) : (idText i).toList = 'n' :: Nat.toDigits 10 i := by
  simp [idText]

theorem isDigit_of_mem_toDigits {i : Nat} {c : Char} (h : c ∈ Nat.toDigits 10 i) : c.isDigit = true :=
  Nat.isDigit_of_mem_toDigits (by decide) (by decide) h

theorem escape_eq_self {cs : List Char} (h : ∀ c ∈ cs, c ≠ '\\' ∧ c ≠ '"' ∧ c ≠ '\n') :
    escape cs = cs := by
  induction cs with
  | nil => rfl
  | cons c cs ih =>
    rw [List.forall_mem_cons] at h
    rw [← List.singleton_append, escape_append, escape_singleton h.1.1 h.1.2.1 h.1.2.2, ih h.2]

theorem reads_idText (i : Nat) :
    Reads (.quoted []) (idText i).toList [] (.quoted (idText i).toList.reverse) := by
  have hplain : ∀ c ∈ (idText i).toList, c ≠ '\\' ∧ c ≠ '"' ∧ c ≠ '\n' := by
    intro c hc
    rw [toList_idText, List.mem_cons] at hc
    rcases hc with rfl | hc
    · decide
    · have hdigit := isDigit_of_mem_toDigits hc
      refine ⟨?_, ?_, ?_⟩
      · intro heq
        rw [heq] at hdigit
        exact absurd hdigit (by decide)
      · intro heq
        rw [heq] at hdigit
        exact absurd hdigit (by decide)
      · intro heq
        rw [heq] at hdigit
        exact absurd hdigit (by decide)
  have h := reads_escape [] (idText i).toList
  rwa [escape_eq_self hplain, List.append_nil] at h

theorem id?_idText (i : Nat) : id? (idText i) = some i := by
  have hdigits : (Nat.toDigits 10 i).all Char.isDigit = true :=
    List.all_eq_true.mpr fun c hc => isDigit_of_mem_toDigits hc
  simp [id?, toList_idText, hdigits, Nat.toDigits_ne_nil]

theorem edge?_idText (e : Edge) : edge? (idText e.source) (idText e.target) = some e := by
  simp [edge?, id?_idText]

/-! ## Lines -/

/-- A line is read as one statement and the mark that ends it. -/
def Writes (line : String) (s : Statement) : Prop :=
  ∃ ts, Reads .between line.toList (ts ++ [.mark ';']) .between ∧ statement? ts = some s ∧
    .mark ';' ∉ ts ∧ .mark '\x7d' ∉ ts

def edgeStated (attributes : List Attribute) (e : Edge) : Statement :=
  .edge (idText e.source) (idText e.target) attributes

def nodeStated (n : Node) : Statement :=
  .node (idText n.id) [("label", n.description), ("shape", shape n.role)]

def inQuotes (text : String) : List Char := '"' :: text.toList ++ ['"']

theorem reads_inQuotes {text s : String}
    (h : Reads (.quoted []) text.toList [] (.quoted s.toList.reverse)) :
    Reads .between (inQuotes text) [.quoted s] .between := by
  have hopen : Reads .between ['"'] [] (.quoted []) := rfl
  have hclose : Reads (.quoted s.toList.reverse) ['"']
      [.quoted (String.ofList s.toList.reverse.reverse)] .between := rfl
  rw [List.reverse_reverse, String.ofList_toList] at hclose
  exact (hopen.append h).append hclose

theorem reads_edgeStatement (e : Edge) :
    Reads .between ("    " ++ edgeStatement e).toList
      [.quoted (idText e.source), .arrow, .quoted (idText e.target)] .between := by
  have hsplit : ("    " ++ edgeStatement e).toList =
      "    ".toList ++ inQuotes (idText e.source) ++ " -> ".toList ++ inQuotes (idText e.target) := by
    simp [edgeStatement, inQuotes]
  have hindent : Reads .between "    ".toList [] .between := rfl
  have harrow : Reads .between " -> ".toList [.arrow] .between := rfl
  rw [hsplit]
  exact ((hindent.append (reads_inQuotes (reads_idText e.source))).append harrow).append
    (reads_inQuotes (reads_idText e.target))

theorem writes_plainLine (e : Edge) : Writes (plainLine e) (edgeStated [] e) := by
  have hend : Reads .between ";".toList [.mark ';'] .between := rfl
  refine ⟨[.quoted (idText e.source), .arrow, .quoted (idText e.target)], ?_, rfl, by simp, by simp⟩
  rw [plainLine, String.toList_append]
  exact (reads_edgeStatement e).append hend

theorem writes_highlightedLine (e : Edge) :
    Writes (highlightedLine e) (edgeStated [("color", highlightColor)] e) := by
  have hend : Reads .between " [color=\"red\"];".toList
      [.mark '[', .word "color", .mark '=', .quoted "red", .mark ']', .mark ';'] .between := rfl
  refine ⟨[.quoted (idText e.source), .arrow, .quoted (idText e.target)] ++
    [.mark '[', .word "color", .mark '=', .quoted "red", .mark ']'], ?_, rfl, by simp, by simp⟩
  have hsplit : highlightedLine e = "    " ++ edgeStatement e ++ " [color=\"red\"];" := by
    simp [highlightedLine, highlightColor, String.append_assoc]
  rw [hsplit, String.toList_append]
  exact (reads_edgeStatement e).append hend

theorem reads_shape (r : Role) : Reads .between (" shape=" ++ shape r ++ "];").toList
    [.word "shape", .mark '=', .word (shape r), .mark ']', .mark ';'] .between := by
  cases r <;> rfl

theorem writes_nodeLine (n : Node) : Writes (nodeLine n) (nodeStated n) := by
  have hindent : Reads .between "    ".toList [] .between := rfl
  have hlabel : Reads .between " [label=".toList [.mark '[', .word "label", .mark '='] .between := rfl
  have hcomma : Reads .between ",".toList [.mark ','] .between := rfl
  refine ⟨[.quoted (idText n.id)] ++ [.mark '[', .word "label", .mark '='] ++ [.quoted n.description] ++
    [.mark ','] ++ [.word "shape", .mark '=', .word (shape n.role), .mark ']'], ?_, rfl, by simp, by simp⟩
  have hsplit : (nodeLine n).toList = "    ".toList ++ inQuotes (idText n.id) ++ " [label=".toList ++
      inQuotes (escapeLabel n.description) ++ ",".toList ++
      (" shape=" ++ shape n.role ++ "];").toList := by
    simp [nodeLine, inQuotes]
  rw [hsplit, List.append_assoc _ _ [Token.mark ';']]
  have hid := hindent.append (reads_inQuotes (reads_idText n.id))
  have hdescription := (hid.append hlabel).append (reads_inQuotes (reads_escapeLabel n.description))
  exact (hdescription.append hcomma).append (reads_shape n.role)

/-! ## Whole texts -/

theorem sections_append {ts : List Token} (h₁ : .mark ';' ∉ ts) (h₂ : .mark '\x7d' ∉ ts)
    (read rest : List Token) : sections read (ts ++ .mark ';' :: rest) =
      (sections [] rest).map ((read.reverse ++ ts) :: ·) := by
  induction ts generalizing read with
  | nil => simp [sections]
  | cons t ts ih =>
    rw [List.mem_cons, not_or] at h₁ h₂
    have hrest := ih h₁.2 h₂.2 (t :: read)
    rw [List.cons_append, sections, if_neg (Ne.symm h₁.1), if_neg (Ne.symm h₂.1), hrest]
    simp

/-- Lines that write statements, followed by a closing brace, are read as these statements. The
induction is on the lines: one line is one section of the tokens. -/
theorem reads_body {ls : List String} {ss : List Statement} (h : List.Forall₂ Writes ls ss) :
    ∃ ts, Reads .between (String.intercalate "\n" (ls ++ ["\x7d"])).toList ts .between ∧
      (sections [] ts).bind (List.mapM statement?) = some ss := by
  induction h with
  | nil => exact ⟨[.mark '\x7d'], rfl, rfl⟩
  | @cons l s ls ss hl _ ih =>
    obtain ⟨us, hreads, hline, hsemi, hbrace⟩ := hl
    obtain ⟨ts, hrest, hsections⟩ := ih
    have hnewline : Reads .between "\n".toList [] .between := rfl
    have hjoin : String.intercalate "\n" (l :: ls ++ ["\x7d"]) =
        l ++ "\n" ++ String.intercalate "\n" (ls ++ ["\x7d"]) :=
      String.intercalate_cons_of_ne_nil (by simp)
    refine ⟨us ++ [.mark ';'] ++ [] ++ ts, ?_, ?_⟩
    · rw [hjoin, String.toList_append, String.toList_append]
      exact (hreads.append hnewline).append hrest
    · obtain ⟨secs, hsecs, hmap⟩ := Option.bind_eq_some_iff.mp hsections
      rw [List.append_nil, List.append_assoc, List.singleton_append, sections_append hsemi hbrace, hsecs]
      simp [hline, hmap]

def defaultsStated : Statement := .defaults [("fontname", "Helvetica"), ("fontsize", "12")]

/-- The statements of a clean graph, in the order in which they are written. -/
def stated (c : CleanGraph) : List Statement :=
  defaultsStated :: (c.highlighted.toList.map (edgeStated [("color", highlightColor)]) ++
    c.plain.map (edgeStated []) ++ c.graph.nodes.map nodeStated)

/-- The lines between the first and the last. -/
def body (c : CleanGraph) : List String :=
  "    node [fontname=\"Helvetica\", fontsize=12];" :: (c.highlighted.toList.map highlightedLine ++
    c.plain.map plainLine ++ c.graph.nodes.map nodeLine)

theorem render_eq (c : CleanGraph) : render c =
    "digraph CallGraph \x7b\n" ++ String.intercalate "\n" (body c ++ ["\x7d"]) := by
  simp [render, lines, body]

theorem writes_map {α : Type} {line : α → String} {statement : α → Statement}
    (h : ∀ x, Writes (line x) (statement x)) (l : List α) :
    List.Forall₂ Writes (l.map line) (l.map statement) := by
  rw [List.forall₂_map_left_iff, List.forall₂_map_right_iff, List.forall₂_same]
  intro x _
  exact h x

theorem writes_body (c : CleanGraph) : List.Forall₂ Writes (body c) (stated c) := by
  have hdefaults : Writes "    node [fontname=\"Helvetica\", fontsize=12];" defaultsStated :=
    ⟨[.word "node", .mark '[', .word "fontname", .mark '=', .quoted "Helvetica", .mark ',',
      .word "fontsize", .mark '=', .word "12", .mark ']'], rfl, rfl, by simp, by simp⟩
  have hedges := List.rel_append (writes_map writes_highlightedLine c.highlighted.toList)
    (writes_map writes_plainLine c.plain)
  exact .cons hdefaults (List.rel_append hedges (writes_map writes_nodeLine c.graph.nodes))

theorem statements?_render (c : CleanGraph) : statements? (render c) = some (stated c) := by
  obtain ⟨ts, hreads, hsections⟩ := reads_body (writes_body c)
  have hheader : Reads .between "digraph CallGraph \x7b\n".toList
      [.word "digraph", .word "CallGraph", .mark '\x7b'] .between := rfl
  have hall := hheader.append hreads
  rw [← String.toList_append, ← render_eq] at hall
  have htokens : tokens? (render c) =
      some ([.word "digraph", .word "CallGraph", .mark '\x7b'] ++ ts) := by
    rw [tokens?, show Scan.between.run (render c).toList = _ from hall]
  rw [statements?, htokens]
  exact hsections

/-! ## What the statements say -/

/-- A node as the text shows it. -/
def drawn (n : Node) : DrawnNode := ⟨n.id, n.description, shape n.role⟩

/-- What the text of a clean graph is to say. -/
def drawing (c : CleanGraph) : Drawing := ⟨c.highlighted.toList, c.plain, c.graph.nodes.map drawn⟩

/-! What each line adds. These hold by computation, which spares the equations of a match on texts. -/

theorem cons?_nodeStated (d : Drawing) (n : Node) :
    d.cons? (nodeStated n) = (id? (idText n.id)).map fun i =>
      { d with nodes := ⟨i, n.description, shape n.role⟩ :: d.nodes } :=
  rfl

theorem cons?_edgeStated_nil (d : Drawing) (e : Edge) :
    d.cons? (edgeStated [] e) =
      (edge? (idText e.source) (idText e.target)).map fun e => { d with plain := e :: d.plain } :=
  rfl

theorem cons?_edgeStated_color (d : Drawing) (e : Edge) :
    d.cons? (edgeStated [("color", highlightColor)] e) =
      (edge? (idText e.source) (idText e.target)).map fun e =>
        { d with highlighted := e :: d.highlighted } :=
  rfl

theorem cons?_defaultsStated (d : Drawing) : d.cons? defaultsStated = some d :=
  rfl

theorem ofStatements?_nodes (ns : List Node) :
    Drawing.ofStatements? (ns.map nodeStated) = some { nodes := ns.map drawn } := by
  induction ns with
  | nil => rfl
  | cons n ns ih =>
    simp [Drawing.ofStatements?, ih, cons?_nodeStated, id?_idText, drawn]

theorem ofStatements?_plain (es : List Edge) {rest : List Statement} {d : Drawing}
    (h : Drawing.ofStatements? rest = some d) :
    Drawing.ofStatements? (es.map (edgeStated []) ++ rest) =
      some { d with plain := es ++ d.plain } := by
  induction es with
  | nil => exact h
  | cons e es ih =>
    simp [Drawing.ofStatements?, ih, cons?_edgeStated_nil, edge?_idText]

theorem ofStatements?_highlighted (es : List Edge) {rest : List Statement} {d : Drawing}
    (h : Drawing.ofStatements? rest = some d) :
    Drawing.ofStatements? (es.map (edgeStated [("color", highlightColor)]) ++ rest) =
      some { d with highlighted := es ++ d.highlighted } := by
  induction es with
  | nil => exact h
  | cons e es ih =>
    simp [Drawing.ofStatements?, ih, cons?_edgeStated_color, edge?_idText]

theorem read?_render (c : CleanGraph) : read? (render c) = some (drawing c) := by
  have hplain := ofStatements?_plain c.plain (ofStatements?_nodes c.graph.nodes)
  have hall := ofStatements?_highlighted c.highlighted.toList hplain
  rw [read?, statements?_render, Option.bind_some, stated, List.append_assoc, Drawing.ofStatements?, hall]
  simp [cons?_defaultsStated, drawing]

/-! ## Texts of clean graphs -/

/-- A tidy graph states each of its edges once, and no other edge. -/
theorem count_stated {c : CleanGraph} (h : c.Tidy) (e : Edge) :
    ((drawing c).highlighted ++ (drawing c).plain).count e = if e ∈ c.graph.edges then 1 else 0 := by
  have hcount : ((drawing c).highlighted ++ (drawing c).plain).count e =
      c.graph.edges.toList.count e := h.partition.count_eq e
  rw [hcount]
  split
  · next he => exact List.count_eq_one_of_mem c.graph.edges.nodup_toList he
  · next he => exact List.count_eq_zero_of_not_mem he

/-- A tidy graph declares each end of an edge once. -/
theorem count_declared {c : CleanGraph} {i : Nat} (hi : i ∈ c.graph.ids) :
    ((drawing c).nodes.map DrawnNode.id).count i = 1 := by
  have hids : (drawing c).nodes.map DrawnNode.id = c.graph.ids := by
    simp [drawing, drawn, Graph.ids]
  rw [hids]
  exact List.count_eq_one_of_mem c.graph.nodup_ids hi

/-- Two texts are the same exactly if they say the same. -/
theorem render_eq_iff {c c' : CleanGraph} : render c = render c' ↔ drawing c = drawing c' := by
  refine ⟨?_, ?_⟩
  · intro h
    have hread := read?_render c
    rw [h, read?_render c'] at hread
    exact (Option.some.inj hread).symm
  · intro h
    rw [drawing, drawing, Drawing.mk.injEq] at h
    obtain ⟨hhigh, hplain, hnodes⟩ := h
    -- the line of a node shows no more of it than the drawing does
    have hline : nodeLine = (fun d : DrawnNode => "    \"" ++ idText d.id ++ "\" [label=\"" ++
        escapeLabel d.label ++ "\", shape=" ++ d.shape ++ "];") ∘ drawn := rfl
    rw [render, render, lines, lines, hhigh, hplain, hline, ← List.map_map, hnodes, List.map_map]

/-- The text of a clean graph is faithful. It is read as one statement of defaults, one for each
highlighted edge, one for each plain edge and one for each node, in this order, whatever the
descriptions are, so the three lists come back as they were. Each edge of the graph is stated once,
no other is, and the ends of each edge are declared once. Two clean graphs have the same text exactly
if they agree on the three lists. -/
theorem clean_text_is_faithful (g g' : Graph) (given given' : EdgeSet) :
    ∃ r r', g.clean given = .ok r ∧ g'.clean given' = .ok r' ∧
      statements? (render r.clean) = some
        ([.defaults [("fontname", "Helvetica"), ("fontsize", "12")]] ++
          r.clean.highlighted.toList.map
            (fun e => .edge (idText e.source) (idText e.target) [("color", "red")]) ++
          r.clean.plain.map (fun e => .edge (idText e.source) (idText e.target) []) ++
          r.clean.graph.nodes.map (fun n =>
            .node (idText n.id) [("label", n.description), ("shape", shape n.role)])) ∧
      (∃ d, read? (render r.clean) = some d ∧
        d.highlighted = r.clean.highlighted.toList ∧ d.plain = r.clean.plain ∧
        d.nodes = r.clean.graph.nodes.map (fun n => ⟨n.id, n.description, shape n.role⟩) ∧
        (∀ e, (d.highlighted ++ d.plain).count e = if e ∈ r.clean.graph.edges then 1 else 0) ∧
        (∀ e ∈ d.highlighted ++ d.plain, (d.nodes.map DrawnNode.id).count e.source = 1 ∧
          (d.nodes.map DrawnNode.id).count e.target = 1)) ∧
      (render r.clean = render r'.clean ↔
        r.clean.highlighted.toList = r'.clean.highlighted.toList ∧ r.clean.plain = r'.clean.plain ∧
        r.clean.graph.nodes.map (fun n => DrawnNode.mk n.id n.description (shape n.role)) =
          r'.clean.graph.nodes.map (fun n => DrawnNode.mk n.id n.description (shape n.role))) := by
  obtain ⟨r, hr, hc⟩ := g.clean_spec given
  obtain ⟨r', hr', _⟩ := g'.clean_spec given'
  have htidy := hc.tidy
  refine ⟨r, r', hr, hr', ?_, ⟨drawing r.clean, read?_render r.clean, rfl, rfl, rfl,
    count_stated htidy, ?_⟩, ?_⟩
  · rw [statements?_render, stated, List.append_assoc, List.append_assoc, List.append_assoc]
    rfl
  · intro e he
    have hmem : e ∈ r.clean.graph.edges := htidy.partition.mem_iff.mp he
    exact ⟨count_declared (Graph.source_mem_ids hmem), count_declared (Graph.target_mem_ids hmem)⟩
  · rw [render_eq_iff, drawing, drawing, Drawing.mk.injEq]
    rfl

end CallGraph.Dot
