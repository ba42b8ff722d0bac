import CallGraph.Proofs.Extraction

/-!
Strict and lenient extraction.

A strict extraction builds the same graph as a lenient one, file by file, and gives up at the first
file that it refuses: one that is no source, or one whose tree has a fault. So it never returns a
graph that the lenient one does not, and its error tells which file is to blame and, for a fault,
the line of the first fault of that file.
-/

namespace CallGraph.Source

variable {parse : String → Tree} {f : SourceFile} {e : Error}

theorem Tree.IsFirstFault.unique {t : Tree} {a b : Address} (ha : t.IsFirstFault a)
    (hb : t.IsFirstFault b) : a = b := by
  obtain ⟨d, hd, hfault⟩ := ha.fault
  obtain ⟨d', hd', hfault'⟩ := hb.fault
  rcases ha.first b d' hd' hfault' with heq | hab
  · exact heq.symm
  rcases hb.first a d hd hfault with heq | hba
  · exact heq
  · exact absurd (hab.trans hba) (Address.precedes_irrefl a)

/-- A strict extraction refuses a file with an error. -/
inductive Refuses (parse : String → Tree) (f : SourceFile) : Error → Prop
  | unsupported (hpath : isSupported f.path = false) :
      Refuses parse f (.parse (f.path.text ++ ": unsupported file type"))
  | faulty (hpath : isSupported f.path = true) (a : Address)
      (ha : (parse f.content).IsFirstFault a) :
      Refuses parse f (.parse (f.path.text ++ ":" ++
        Nat.repr (Place.start.after ((parse f.content).before a)).line ++ ": syntax error"))

/-- The first file is refused, or it is added and the rest is extracted. -/
theorem extractFrom_cons (parse : String → Tree) (g : Graph) (index : Nat) (f : SourceFile)
    (fs : List SourceFile) :
    (∃ e, Refuses parse f e ∧ (extractFrom parse true g index (f :: fs)).2 = .error e) ∨
      Accepts parse true [f] ∧ (extractFrom parse true g index (f :: fs)).2 =
        (extractFrom parse true (addFile g index.toUInt32 f.path (parse f.content)) (index + 1)
          fs).2 := by
  rw [extractFrom]
  cases hpath : isSupported f.path with
  | false => exact Or.inl ⟨_, .unsupported hpath, rfl⟩
  | true =>
    have hsome := faultLine?_isSome (parse f.content)
    cases hline : faultLine? (parse f.content) with
    | some line =>
      obtain ⟨a, ha, rfl⟩ := faultLine?_eq_some hline
      exact Or.inl ⟨_, .faulty hpath a ha, by simp [hline]⟩
    | none =>
      rw [hline] at hsome
      refine Or.inr ⟨?_, by simp [hline]⟩
      intro f' hf'
      obtain rfl := List.mem_singleton.mp hf'
      exact ⟨hpath, fun _ => hsome.symm⟩

/-- What is accepted is not refused, and there is only one way to refuse a file. -/
theorem Refuses.not_accepts (h : Refuses parse f e) : ¬ Accepts parse true [f] := by
  intro haccepts
  obtain ⟨hpath, hclean⟩ := haccepts f (List.mem_singleton.mpr rfl)
  cases h with
  | unsupported hno =>
    rw [hno] at hpath
    cases hpath
  | faulty _ a ha =>
    obtain ⟨d, hd, hfault⟩ := ha.fault
    rw [Tree.hasFault_iff.mpr ⟨a, d, hd, hfault⟩] at hclean
    cases hclean rfl

theorem Refuses.unique {e' : Error} (h : Refuses parse f e) (h' : Refuses parse f e') : e = e' := by
  cases h with
  | unsupported hpath =>
    cases h' with
    | unsupported => rfl
    | faulty hpath' => simp [hpath] at hpath'
  | faulty hpath a ha =>
    cases h' with
    | unsupported hpath' => simp [hpath] at hpath'
    | faulty _ b hb => rw [ha.unique hb]

theorem accepts_cons {fs : List SourceFile} :
    Accepts parse true (f :: fs) ↔ Accepts parse true [f] ∧ Accepts parse true fs := by
  simp [Accepts]

/-- A strict extraction fails with the error of the first file that it refuses. -/
theorem extractFrom_eq_error_iff (parse : String → Tree) (g : Graph) (index : Nat)
    (files : List SourceFile) : (extractFrom parse true g index files).2 = .error e ↔
      ∃ before f after, files = before ++ f :: after ∧ Accepts parse true before ∧
        Refuses parse f e := by
  induction files generalizing g index with
  | nil => simp [extractFrom]
  | cons f fs ih =>
    constructor
    · intro h
      rcases extractFrom_cons parse g index f fs with ⟨e', hrefuses, heq⟩ | ⟨haccepts, heq⟩
      · obtain rfl := Except.error.inj (heq.symm.trans h)
        exact ⟨[], f, fs, rfl, by simp [Accepts], hrefuses⟩
      · obtain ⟨before, f', after, rfl, hbefore, hrefuses⟩ := (ih _ _).mp (heq.symm.trans h)
        exact ⟨f :: before, f', after, rfl, accepts_cons.mpr ⟨haccepts, hbefore⟩, hrefuses⟩
    · rintro ⟨before, f', after, hfiles, hbefore, hrefuses⟩
      -- The first file is the one that is refused, or it is accepted and the rest fails.
      cases before with
      | nil =>
        obtain ⟨rfl, rfl⟩ := List.cons.inj hfiles
        rcases extractFrom_cons parse g index f fs with ⟨e', hrefuses', heq⟩ | ⟨haccepts, _⟩
        · rw [heq, hrefuses.unique hrefuses']
        · exact absurd haccepts hrefuses.not_accepts
      | cons b bs =>
        rw [List.cons_append] at hfiles
        obtain ⟨rfl, rfl⟩ := List.cons.inj hfiles
        obtain ⟨hfirst, hrest⟩ := accepts_cons.mp hbefore
        rcases extractFrom_cons parse g index f (bs ++ f' :: after) with
          ⟨e', hrefuses', _⟩ | ⟨_, heq⟩
        · exact absurd hfirst hrefuses'.not_accepts
        · rw [heq]
          exact (ih _ _).mpr ⟨bs, f', after, rfl, hrest, hrefuses⟩

/-- No address leads to a fault in the tree of a file. -/
def FreeOfFaults (parse : String → Tree) (files : List SourceFile) : Prop :=
  ∀ f ∈ files, ∀ a d, (parse f.content).subtree? a = some d → d.isFault = false

theorem freeOfFaults_iff {files : List SourceFile} :
    FreeOfFaults parse files ↔ ∀ f ∈ files, (parse f.content).hasFault = false := by
  refine forall_congr' fun f => imp_congr_right fun _ => ?_
  rw [← Bool.not_eq_true, Tree.hasFault_iff]
  simp only [not_exists, not_and, Bool.not_eq_true]

/-- What both modes accept, and what only the lenient one does. -/
theorem accepts_strict_iff {files : List SourceFile} : Accepts parse true files ↔
    (∀ f ∈ files, isSupported f.path = true) ∧ FreeOfFaults parse files := by
  rw [freeOfFaults_iff]
  simp only [Accepts, forall_const, ← forall_and]

theorem accepts_lenient_iff {files : List SourceFile} :
    Accepts parse false files ↔ ∀ f ∈ files, isSupported f.path = true := by
  simp [Accepts]

/-- Strict extraction is lenient extraction and refusal, whatever trees the parser yields. It returns
a graph if and only if lenient extraction returns this graph and there is no fault in any tree, at
any depth. It fails if and only if there is a first file that it refuses, and with the error of this
file: that it is no source, or the line of its first fault in preorder. The search for this fault
passes over trees by their marks, and if just the trees with a fault in them are marked, it comes to
the same tree as a search through all trees in preorder. -/
theorem strict_is_lenient_with_refusals (parse : String → Tree) (files : List SourceFile) :
    (∀ g, (extractFrom parse true Graph.empty 0 files).2 = .ok g ↔
      (extractFrom parse false Graph.empty 0 files).2 = .ok g ∧ FreeOfFaults parse files) ∧
    (∀ e, (extractFrom parse true Graph.empty 0 files).2 = .error e ↔
      ∃ before f after, files = before ++ f :: after ∧
        (∀ b ∈ before, isSupported b.path = true) ∧ FreeOfFaults parse before ∧
        Refuses parse f e) ∧
    (∀ marked, Tree.MarksFaults marked → ∀ t : Tree, t.findFault marked [] Place.start =
      (t.sites [] Place.start).find? fun s => s.tree.isFault) ∧
    ∀ strict, (extract strict files).result =
      (extractFrom Source.parse strict Graph.empty 0 files).2 := by
  refine ⟨?_, ?_, fun _ hmarked t => Tree.findFault_eq hmarked [] Place.start t,
    fun strict => extractWith_result Source.parse strict files⟩
  · intro g
    rw [extractFrom_eq_ok_iff, extractFrom_eq_ok_iff, accepts_strict_iff, accepts_lenient_iff,
      and_right_comm]
  · intro e
    rw [extractFrom_eq_error_iff]
    simp only [accepts_strict_iff, and_assoc]

/-- Three files, of which the second has a fault on its second line and the third is no source. -/
def mixedFiles : List SourceFile :=
  [⟨⟨"a.rs"⟩, "fn a() \x7b\x7d"⟩, ⟨⟨"b.rs"⟩, "fn b() \x7b\x7d\n@"⟩, ⟨⟨"c.py"⟩, ""⟩]

/-- The second file is refused before the third is looked at. -/
theorem strict_is_lenient_with_refusals_mixedFiles :
    (extract true mixedFiles).result = .error (.parse "b.rs:2: syntax error") := by
  obtain ⟨-, hfails, -, hextract⟩ := strict_is_lenient_with_refusals Source.parse mixedFiles
  have hline : faultLine? (Source.parse "fn b() \x7b\x7d\n@") = some 2 := by decide +kernel
  obtain ⟨a, ha, hline⟩ := faultLine?_eq_some hline
  have hrefuses := Refuses.faulty (f := ⟨⟨"b.rs"⟩, "fn b() \x7b\x7d\n@"⟩) (by decide) a ha
  rw [← hline] at hrefuses
  rw [hextract true]
  refine (hfails _).mpr ⟨[⟨⟨"a.rs"⟩, "fn a() \x7b\x7d"⟩], _, _, rfl, by decide, ?_, hrefuses⟩
  rw [freeOfFaults_iff]
  decide +kernel

end CallGraph.Source
