import CallGraph.Proofs.Concatenation
import Mathlib.Data.List.Find

/-!
In the raw graph of some sources, the order of the text decides every call.

Declarations compete by position and then by id, while ids are issued along the trees. That the two
agree is a fact about texts. A tree that comes later in the order of the text has more text before it
or the same (`before_of_precedes`), so byte offsets never go down along the addresses of a file. They
may stay the same, as for a call and the callee that it starts with; then the lines are the same too,
and the id decides. All of this is said in words of 32 bits, so it needs files and offsets below that
(`InRange`).

What is proved:
1. `StandsFor.position`: every node stands at the place of its address.
2. `rank_le_iff`: nodes rank by id.
3. `StandsFor.labels`: labels are empty texts, so only their number matters.
4. Together: a call resolves to the first declaration, in the order of the files and of their text,
   with its name and as many labels.
-/

namespace CallGraph.Source

/-! ## More text before later trees -/

namespace Tree

variable {t : Tree} {s s' : Address}

theorem texts_append (ts us : List Tree) : texts (ts ++ us) = texts ts ++ texts us := by
  induction ts with
  | nil => simp [texts]
  | cons t ts ih => simp [texts, ih, String.append_assoc]

theorem texts_split {ts : List Tree} {i : Nat} {c : Tree} (hc : ts[i]? = some c) :
    texts ts = texts (ts.take i) ++ (c.text ++ texts (ts.drop (i + 1))) := by
  obtain ⟨hi, rfl⟩ := List.getElem?_eq_some_iff.mp hc
  have hsplit : ts = ts.take i ++ ts[i] :: ts.drop (i + 1) := by simp
  calc texts ts = texts (ts.take i ++ ts[i] :: ts.drop (i + 1)) := by rw [← hsplit]
    _ = _ := by rw [texts_append, texts]

/-- What stands before a tree is where the whole text begins. -/
theorem exists_text_eq_before_append (t : Tree) (s : Address) : ∃ x, t.text = t.before s ++ x := by
  induction s generalizing t with
  | nil => exact ⟨t.text, by simp [before]⟩
  | cons i s ih =>
    cases t with
    | leaf k slot text => exact ⟨text, by simp [before, children, Tree.text, texts]⟩
    | node k slot ts =>
      cases hc : ts[i]? with
      | none =>
        have hlen := List.getElem?_eq_none_iff.mp hc
        refine ⟨"", ?_⟩
        simp [before, children, Tree.text, hc, List.take_of_length_le hlen]
      | some c =>
        obtain ⟨x, hx⟩ := ih c
        refine ⟨x ++ texts (ts.drop (i + 1)), ?_⟩
        simp [before, children, Tree.text, hc, texts_split hc, hx, String.append_assoc]

/-- A tree that comes later has the text before an earlier one before it. The induction is on the
addresses: they part at some child, or one of them ends. -/
theorem before_of_precedes (h : s.Precedes s') : ∃ x, t.before s' = t.before s ++ x := by
  induction h generalizing t with
  | nil => exact ⟨_, by simp [before]; rfl⟩
  | @cons i s s' _ ih =>
    cases hc : t.children[i]? with
    | none => exact ⟨"", by simp [before, hc]⟩
    | some c =>
      obtain ⟨x, hx⟩ := ih (t := c)
      exact ⟨x, by simp [before, hc, hx, String.append_assoc]⟩
  | @rel i s j s' hij =>
    cases hc : t.children[i]? with
    | none =>
      -- both addresses lead past the last child
      have hlen := List.getElem?_eq_none_iff.mp hc
      have hj : t.children[j]? = none := List.getElem?_eq_none_iff.mpr (by omega)
      refine ⟨"", ?_⟩
      simp [before, hc, hj, List.take_of_length_le hlen,
        List.take_of_length_le (show t.children.length ≤ j by omega)]
    | some c =>
      -- the whole of the earlier child stands before the later one
      have hci : (t.children.take j)[i]? = some c := by rw [List.getElem?_take_of_lt hij, hc]
      have htake : (t.children.take j).take i = t.children.take i := by
        rw [List.take_take, Nat.min_eq_left (Nat.le_of_lt hij)]
      obtain ⟨x, hx⟩ := c.exists_text_eq_before_append s
      refine ⟨x ++ texts ((t.children.take j).drop (i + 1)) ++
        ((t.children[j]?).map fun c => c.before s').getD "", ?_⟩
      simp only [before, hc, Option.map_some, Option.getD_some]
      rw [texts_split hci, htake, hx]
      simp only [String.append_assoc]

end Tree

variable {files : List SourceFile} {roots : List Tree} {g : Graph} {A : List Address}
  {a b : Address} {m n : Node}

/-- In one file, a later address is some text further. -/
theorem placeOf_of_precedes (roots : List Tree) (h : a.Precedes b) (hi : a.index = b.index) :
    ∃ x, placeOf roots b = (placeOf roots a).after x := by
  cases h with
  | nil => exact ⟨_, by simp [placeOf]; rfl⟩
  | rel h => exact absurd hi (Nat.ne_of_lt h)
  | @cons k s s' h =>
    cases hr : roots[k]? with
    | none => exact ⟨"", by simp [placeOf, hr]⟩
    | some r =>
      obtain ⟨x, hx⟩ := Tree.before_of_precedes (t := r.asFile) h
      exact ⟨x, by simp [placeOf, hr, hx, Place.after_append]⟩

/-! ## The order of positions -/

/-- The files and the offsets of what is recorded can be counted in words of 32 bits. -/
structure InRange (roots : List Tree) : Prop where
  files : roots.length < Nat.pow 2 32
  bytes : ∀ a, Recorded roots a → (placeOf roots a).byte < Nat.pow 2 32

/-- Texts of that length have no larger offsets. -/
theorem InRange.of_texts (hf : roots.length < Nat.pow 2 32)
    (ht : ∀ r ∈ roots, r.asFile.text.utf8ByteSize < Nat.pow 2 32) : InRange roots := by
  refine ⟨hf, ?_⟩
  rintro a ⟨t, ⟨k, r, s, hr, rfl, -⟩, -⟩
  obtain ⟨x, hx⟩ := r.asFile.exists_text_eq_before_append s
  have hlen := ht r (List.mem_of_getElem? hr)
  rw [hx, String.utf8ByteSize_append] at hlen
  simp only [placeOf, hr, Option.map_some, Option.getD_some, Place.after, Place.start]
  omega

theorem StandsFor.position (h : StandsFor files roots a n) :
    n.position = some ((placeOf roots a).position a.index.toUInt32) := by
  cases h with
  | file hf hn => rw [hn, placeOf_file]; rfl
  | entry ht he ho hd hn =>
    rw [hn]
    unfold Tree.entryNode
    split <;> rfl

theorem InRange.key (h : InRange roots) (ha : Recorded roots a) :
    ((placeOf roots a).position a.index.toUInt32).key =
      toLex (a.index, toLex ((placeOf roots a).byte, (placeOf roots a).line.toUInt32.toNat)) := by
  have hpow : Nat.pow 2 32 = 4294967296 := rfl
  have hfile : a.index.toUInt32.toNat = a.index := by
    have := index_lt_of_recorded ha
    have := h.files
    simp
    omega
  have hbyte : (placeOf roots a).byte.toUInt32.toNat = (placeOf roots a).byte := by
    have := h.bytes a ha
    simp
    omega
  rw [Position.key, Place.position, hfile, hbyte]

/-- Positions ascend along addresses, not always strictly. -/
theorem InRange.key_le (h : InRange roots) (ha : Recorded roots a) (hb : Recorded roots b)
    (hab : a.Precedes b) : ((placeOf roots a).position a.index.toUInt32).key ≤
      ((placeOf roots b).position b.index.toUInt32).key := by
  rcases Nat.lt_or_eq_of_le hab.index_le with hlt | heq
  · rw [h.key ha, h.key hb, Prod.Lex.toLex_le_toLex]
    exact Or.inl hlt
  · obtain ⟨x, hx⟩ := placeOf_of_precedes roots hab heq
    by_cases hempty : x = ""
    · rw [hx, hempty, Place.after_empty, heq]
    · -- with text between them, the byte decides
      have hpos : 0 < x.utf8ByteSize := by
        rw [Nat.pos_iff_ne_zero, Ne, String.utf8ByteSize_eq_zero_iff]
        exact hempty
      rw [h.key ha, h.key hb, Prod.Lex.toLex_le_toLex, Prod.Lex.toLex_le_toLex]
      refine Or.inr ⟨heq, Or.inl ?_⟩
      rw [hx]
      show (placeOf roots a).byte < (placeOf roots a).byte + x.utf8ByteSize
      omega

/-! ## The order of nodes -/

theorem precedes_of_lt {i j : Nat} (hA : A.Pairwise Address.Precedes) (ha : A[i]? = some a)
    (hb : A[j]? = some b) (hlt : i < j) : a.Precedes b := by
  obtain ⟨hi, rfl⟩ := List.getElem?_eq_some_iff.mp ha
  obtain ⟨hj, rfl⟩ := List.getElem?_eq_some_iff.mp hb
  exact List.pairwise_iff_getElem.mp hA _ _ hi hj hlt

section Ranking

variable (h : Charts files roots g A) (hA : ∀ a, a ∈ A ↔ Recorded roots a) (hr : InRange roots)

include h hA hr

theorem rank_le_of_id_lt (hm : m ∈ g.nodes) (hn : n ∈ g.nodes) (hlt : m.id < n.id) :
    m.rank ≤ n.rank := by
  obtain ⟨a, ha, hma, -⟩ := h.address_of_mem hA hm
  obtain ⟨b, hb, hnb, -⟩ := h.address_of_mem hA hn
  have hab := precedes_of_lt h.ascending ha hb hlt
  have hkey := hr.key_le ((hA a).mp (List.mem_of_getElem? ha))
    ((hA b).mp (List.mem_of_getElem? hb)) hab
  rw [Node.rank, Node.rank, hma.position, hnb.position, Prod.Lex.toLex_le_toLex]
  rcases lt_or_eq_of_le hkey with hlt' | heq
  · exact Or.inl (WithBot.coe_lt_coe.mpr hlt')
  · exact Or.inr ⟨congrArg WithBot.some heq, Nat.le_of_lt hlt⟩

theorem rank_le_iff (hm : m ∈ g.nodes) (hn : n ∈ g.nodes) : m.rank ≤ n.rank ↔ m.id ≤ n.id := by
  constructor
  · intro hle
    by_contra hnot
    have hge := rank_le_of_id_lt h hA hr hn hm (Nat.lt_of_not_le hnot)
    have hid := Node.id_eq_of_rank_eq (le_antisymm hle hge)
    omega
  · intro hle
    rcases Nat.lt_or_eq_of_le hle with hlt | heq
    · exact rank_le_of_id_lt h hA hr hm hn hlt
    · rw [Graph.eq_of_id_eq hm hn heq]

theorem mergeSort_preferred {l : List Node} (hl : l.Sublist g.nodes) :
    l.mergeSort Node.preferred = l := by
  have hids : l.Pairwise (fun m n => m.id < n.id) :=
    (List.pairwise_map.mp g.ids_ascend).sublist hl
  refine List.mergeSort_of_pairwise (hids.imp_of_mem ?_)
  intro m n hm hn hlt
  rw [Node.preferred_iff, rank_le_iff h hA hr (hl.subset hm) (hl.subset hn)]
  exact Nat.le_of_lt hlt

end Ranking

/-! ## Labels -/

theorem Tree.mem_positionalLabels {list : Option Tree} {l : String}
    (h : l ∈ positionalLabels list) : l = "" := by
  obtain ⟨_, -, rfl⟩ := List.mem_map.mp h
  rfl

/-- Parameters and arguments have no labels of their own. -/
theorem StandsFor.labels (h : StandsFor files roots a n) : ∀ l ∈ n.labels, l = "" := by
  cases h with
  | file hf hn =>
    rw [hn]
    exact fun l hl => absurd hl List.not_mem_nil
  | entry ht he ho hd hn =>
    rw [hn]
    unfold Tree.entryNode
    split
    · exact fun l hl => absurd hl List.not_mem_nil
    · exact fun l hl => absurd hl List.not_mem_nil
    · exact fun l hl => absurd hl List.not_mem_nil
    · exact fun l hl => Tree.mem_positionalLabels hl
    · exact fun l hl => Tree.mem_positionalLabels hl

/-- Empty labels are told apart by their number alone. -/
theorem eq_iff_length_eq {xs ys : List String} (hx : ∀ l ∈ xs, l = "") (hy : ∀ l ∈ ys, l = "") :
    xs = ys ↔ xs.length = ys.length := by
  rw [List.eq_replicate_of_mem hx, List.eq_replicate_of_mem hy]
  simp

/-! ## The declaration of a call -/

/-- The node is a declaration with the name of the call and as many labels. -/
def callable (call d : Node) : Bool :=
  d.isDeclaration && (d.name == call.name && d.labels.length == call.labels.length)

theorem sameSignature_eq {call d : Node} (hc : ∀ l ∈ call.labels, l = "")
    (hd : ∀ l ∈ d.labels, l = "") :
    d.sameSignature call = (d.name == call.name && d.labels.length == call.labels.length) := by
  rw [Bool.eq_iff_iff, Node.sameSignature, beq_iff_eq, Node.signature, Node.signature,
    Signature.mk.injEq, eq_iff_length_eq hd hc, Bool.and_eq_true, beq_iff_eq, beq_iff_eq]

/-- In the order of ids, the node that is found first has the least id. -/
theorem least_of_find? {p : Node → Bool} (hf : g.nodes.find? p = some n) :
    p n = true ∧ ∀ d ∈ g.nodes, p d = true → d ≠ n → n.id < d.id := by
  obtain ⟨hp, before, after, hsplit, hbefore⟩ := List.find?_eq_some_iff_append.mp hf
  refine ⟨hp, ?_⟩
  intro d hd hpd hne
  have hascend : g.nodes.Pairwise (fun m n => m.id < n.id) := List.pairwise_map.mp g.ids_ascend
  rw [hsplit, List.pairwise_append, List.pairwise_cons] at hascend
  rw [hsplit, List.mem_append, List.mem_cons] at hd
  rcases hd with hd | hd | hd
  · have := hbefore d hd
    simp [hpd] at this
  · exact absurd hd hne
  · exact hascend.2.1.1 d hd

theorem find?_eq_some_iff_least {p : Node → Bool} (hn : n ∈ g.nodes) :
    g.nodes.find? p = some n ↔
      p n = true ∧ ∀ d ∈ g.nodes, p d = true → d ≠ n → n.id < d.id := by
  refine ⟨least_of_find?, ?_⟩
  rintro ⟨hp, hleast⟩
  cases hf : g.nodes.find? p with
  | none => exact absurd hp (List.find?_eq_none.mp hf n hn)
  | some m =>
    -- two nodes of least id are one
    by_contra hne
    have hmn : m ≠ n := fun heq => hne (congrArg some heq)
    have hlt := (least_of_find? hf).2 n hn hp hmn.symm
    have hgt := hleast m (List.mem_of_find?_eq_some hf) (least_of_find? hf).1 hmn
    omega

theorem Charts.plan_eq (h : Charts files roots g A) (hA : ∀ a, a ∈ A ↔ Recorded roots a)
    (hr : InRange roots) :
    g.plan = (g.nodes.filter Node.isCallSite).map fun call =>
      (call.id, (g.nodes.find? (callable call)).map Node.id) := by
  have hdecl : g.declarations = g.nodes.filter Node.isDeclaration :=
    mergeSort_preferred h hA hr List.filter_sublist
  have hlabels : ∀ n ∈ g.nodes, ∀ l ∈ n.labels, l = "" := by
    intro n hn
    obtain ⟨a, -, hs, -⟩ := h.address_of_mem hA hn
    exact hs.labels
  refine List.map_congr_left ?_
  intro call hcall
  have hfind : g.declarations.find? (fun d => d.sameSignature call) =
      g.nodes.find? (callable call) := by
    rw [hdecl, List.find?_filter]
    refine List.find?_congr ?_
    intro d hd
    rw [sameSignature_eq (hlabels call (List.mem_filter.mp hcall).1) (hlabels d hd), callable,
      Bool.decide_and, Bool.decide_eq_true, Bool.decide_eq_true]
  rw [hfind]

theorem mem_plan_iff {f : Node → Option Node} (hf : ∀ call d, f call = some d → d ∈ g.nodes)
    (hp : g.plan = (g.nodes.filter Node.isCallSite).map fun call => (call.id, (f call).map Node.id))
    {call d : Node} (hcall : call ∈ g.nodes) (hsite : call.isCallSite = true) (hd : d ∈ g.nodes) :
    (call.id, some d.id) ∈ g.plan ↔ f call = some d := by
  rw [hp, List.mem_map]
  constructor
  · rintro ⟨c, hc, heq⟩
    obtain ⟨hid, htarget⟩ := Prod.mk.inj heq
    obtain rfl := Graph.eq_of_id_eq (List.mem_filter.mp hc).1 hcall hid
    obtain ⟨d', hd', hid'⟩ := Option.map_eq_some_iff.mp htarget
    rw [hd', Graph.eq_of_id_eq (hf _ _ hd') hd hid']
  · intro hfound
    refine ⟨call, List.mem_filter.mpr ⟨hcall, hsite⟩, ?_⟩
    rw [hfound]
    rfl

/-- In the raw graph of sources, of a size that positions can tell, the order of the text decides
every call. Nodes are sorted by position and then by id as they are by id alone, and labels are empty
texts. So a call is planned to lead to the first node, by id, that is a declaration with its name and
as many labels. This is the first one in the order of the files and of their text, since the nodes,
by id, stand for the addresses of what is recorded, in order. -/
theorem plan_in_source_order (parse : String → Tree) (strict : Bool) (files : List SourceFile)
    (g : Graph) (hg : rawGraph parse strict files = .ok g) (hr : InRange (trees parse files)) :
    (∀ m ∈ g.nodes, ∀ n ∈ g.nodes, m.preferred n = true ↔ m.id ≤ n.id) ∧
    g.nodes.mergeSort Node.preferred = g.nodes ∧
    (∀ n ∈ g.nodes, ∀ l ∈ n.labels, l = "") ∧
    g.plan = (g.nodes.filter Node.isCallSite).map (fun call =>
      (call.id, (g.nodes.find? (callable call)).map Node.id)) ∧
    ∃ A : List Address, (∀ a, a ∈ A ↔ Recorded (trees parse files) a) ∧
      Charts files (trees parse files) g A ∧
      ∀ call ∈ g.nodes, call.isCallSite = true → ∀ d ∈ g.nodes,
        ((call.id, some d.id) ∈ g.plan ↔ callable call d = true ∧
          ∀ d' ∈ g.nodes, callable call d' = true → d' ≠ d → d.id < d'.id ∧
            ∃ a a', A[d.id]? = some a ∧ A[d'.id]? = some a' ∧ a.Precedes a') := by
  have h := charts_of_extractFrom hg
  have hA : ∀ a, a ∈ addresses 0 (trees parse files) ↔ Recorded (trees parse files) a :=
    fun a => mem_addresses_iff_recorded
  have hplan := h.plan_eq hA hr
  refine ⟨?_, mergeSort_preferred h hA hr (List.Sublist.refl _), ?_, hplan, _, hA, h, ?_⟩
  · intro m hm n hn
    rw [Node.preferred_iff, rank_le_iff h hA hr hm hn]
  · intro n hn
    obtain ⟨a, -, hs, -⟩ := h.address_of_mem hA hn
    exact hs.labels
  · intro call hcall hsite d hd
    rw [mem_plan_iff (fun _ _ => List.mem_of_find?_eq_some) hplan hcall hsite hd,
      find?_eq_some_iff_least hd]
    refine and_congr_right fun _ => ?_
    constructor
    · intro hleast d' hd' hc hne
      have hlt := hleast d' hd' hc hne
      obtain ⟨a, ha, -⟩ := h.address_of_mem hA hd
      obtain ⟨a', ha', -⟩ := h.address_of_mem hA hd'
      exact ⟨hlt, a, a', ha, ha', precedes_of_lt h.ascending ha ha' hlt⟩
    · intro hfirst d' hd' hc hne
      exact (hfirst d' hd' hc hne).1

/-- A call of what another call gives, both from the same byte on, and three functions of one name. -/
def overloads : List SourceFile :=
  [⟨⟨"a.rs"⟩, "fn f() \x7b g(1)(2) \x7d fn g() \x7b\x7d fn g(x: u8) \x7b\x7d"⟩,
    ⟨⟨"b.rs"⟩, "fn g(y: u8) \x7b\x7d"⟩]

theorem plan_in_source_order_overloads :
    ∃ g, rawGraph Source.parse true overloads = .ok g ∧ InRange (trees Source.parse overloads) ∧
      (g.node? 2).bind Node.position = (g.node? 3).bind Node.position ∧
      g.plan = [(2, none), (3, some 5)] := by
  have hr : InRange (trees Source.parse overloads) :=
    InRange.of_texts (by decide +kernel) (by decide +kernel)
  have hrun : (rawGraph Source.parse true overloads).toOption.map (fun g =>
      ((g.nodes.filter Node.isCallSite).map (fun call =>
        (call.id, (g.nodes.find? (callable call)).map Node.id)),
        decide ((g.node? 2).bind Node.position = (g.node? 3).bind Node.position))) =
        some ([(2, none), (3, some 5)], true) := by
    decide +kernel
  cases hg : rawGraph Source.parse true overloads with
  | error e => simp [hg, Except.toOption] at hrun
  | ok g =>
    simp only [hg, Except.toOption, Option.map_some, Option.some.injEq, Prod.mk.injEq,
      decide_eq_true_eq] at hrun
    obtain ⟨-, -, -, hplan, -⟩ := plan_in_source_order Source.parse true overloads g hg hr
    exact ⟨g, rfl, hr, hrun.2, hplan.trans hrun.1⟩

end CallGraph.Source
