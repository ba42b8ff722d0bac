import CallGraph.Source.Outline
import Mathlib.Data.List.Lex

/-!
Which trees of a source are visited, in which order, and which of them owns which.

A tree has an address: the number of its file, then the numbers of the children that lead to it.
Addresses are compared as lists, which is the order of the text with every tree before what is below
it. What a tree is entered through depends on its kind alone (`Kind.access`), and a tree is visited
if entering leads to it from the root of a file. Some visited trees have a node in the graph
(`Recorded`), and some of those own what is below them (`Scope`).

What is proved:
1. `mem_entries`: the addresses at and below a tree that have a node, as one list.
2. `Owns.unique`, `Scope.owns` and `Owns.enter`: a tree has at most one owner, and how the owner
   changes along one step.
3. `outline_scope`, `outline_call` and `outline_plain`: the outline of a tree by what it is entered
   through.
-/

namespace CallGraph.Source

/-- Where a tree stands: its file, then which child to go to, tree by tree. -/
abbrev Address := List Nat

/-- One address comes before another in the order of the text, a tree before what is below it. -/
def Address.Precedes (a b : Address) : Prop := List.Lex (· < ·) a b

namespace Address

variable {a b c x y : Address}

theorem Precedes.trans (hab : a.Precedes b) (hbc : b.Precedes c) : a.Precedes c :=
  List.lex_trans Nat.lt_trans hab hbc

theorem precedes_irrefl (a : Address) : ¬ a.Precedes a := List.lex_irrefl Nat.lt_irrefl a

theorem Precedes.append (h : a.Precedes b) (x : Address) : (x ++ a).Precedes (x ++ b) :=
  List.Lex.append_left _ h x

theorem precedes_append (a : Address) (hx : x ≠ []) : a.Precedes (a ++ x) := by
  obtain ⟨i, x, rfl⟩ := List.exists_cons_of_ne_nil hx
  have h : Precedes [] (i :: x) := List.Lex.nil
  simpa using h.append a

theorem precedes_of_prefix (h : a <+: b) (hne : a ≠ b) : a.Precedes b := by
  obtain ⟨x, rfl⟩ := h
  refine precedes_append a ?_
  rintro rfl
  simp at hne

end Address

/-- How visiting goes on below a tree. -/
inductive Access where
  /-- Through the constructs among the children. -/
  | children
  /-- Through the body. -/
  | body
  /-- Through the constructs among the children of the body. -/
  | members
  | nothing
  deriving DecidableEq

/-- A container is entered through the members of its body, a function through its body, and the
tokens of a macro not at all. -/
def Kind.access : Kind → Access
  | .module | .implementation | .trait => .members
  | .function => .body
  | .tokenTree => .nothing
  | _ => .children

namespace Tree

/-- The first body among trees in a row, with its number. -/
def firstBody (ts : List Tree) : Option (Tree × Nat) := ts.zipIdx.find? (fun c => c.1.slot == .body)

/-- The body of a tree, with its number among the children. -/
def body? (t : Tree) : Option (Tree × Nat) := firstBody t.children

/-- The tree is entered through another one, to which the address leads. -/
inductive Enters (t : Tree) : Address → Tree → Prop
  | child {i : Nat} {c : Tree} (ht : t.kind.access = .children) (hc : t.children[i]? = some c)
      (hn : c.isNamed = true) : Enters t [i] c
  | body {i : Nat} {b : Tree} (ht : t.kind.access = .body) (hb : t.body? = some (b, i)) :
      Enters t [i] b
  | member {i j : Nat} {b c : Tree} (ht : t.kind.access = .members) (hb : t.body? = some (b, i))
      (hc : b.children[j]? = some c) (hn : c.isNamed = true) : Enters t [i, j] c

/-- Entering tree after tree leads to a tree below. -/
inductive Reaches : Tree → Address → Tree → Prop
  | here (t : Tree) : Reaches t [] t
  | enter {t c d : Tree} {s x : Address} (hs : Enters t s c) (hx : Reaches c x d) :
      Reaches t (s ++ x) d

/-- Whether the tree owns what is visited below it. -/
def isScope : Tree → Bool
  | leaf .. => false
  | node k .. => k.access == .members || k.access == .body

def isCall : Tree → Bool
  | leaf .. => false
  | node k .. => k == .call

/-- Whether the tree has a node of its own. -/
def isEntry (t : Tree) : Bool := t.isScope || t.isCall

/-- Whether functions in the body of the tree belong to a type. -/
def isType (t : Tree) : Bool := t.kind == .implementation || t.kind == .trait

/-- A root is entered through its children, whatever it is. -/
def asFile (t : Tree) : Tree := node .file .none t.children

end Tree

section Visiting

variable (roots : List Tree)

/-- The tree at this address is visited. -/
def Visited (a : Address) (t : Tree) : Prop :=
  ∃ k r s, roots[k]? = some r ∧ a = k :: s ∧ r.asFile.Reaches s t

/-- The address of a file, or of a visited tree that has a node. -/
def Recorded (a : Address) : Prop := ∃ t, Visited roots a t ∧ (a.length = 1 ∨ t.isEntry = true)

/-- The address of a file, or of a visited container or function. -/
def Scope (a : Address) : Prop := ∃ t, Visited roots a t ∧ (a.length = 1 ∨ t.isScope = true)

/-- The first address is that of the innermost file, container or function around the second. -/
structure Owns (o a : Address) : Prop where
  scope : Scope roots o
  around : o <+: a
  proper : o ≠ a
  innermost : ∀ x, Scope roots x → x <+: a → x ≠ a → x <+: o

end Visiting

namespace Tree

variable {t c d r : Tree} {s x y : Address}

/-! ## What a tree is entered through -/

theorem Enters.ne_nil (h : Enters t s c) : s ≠ [] := by
  cases h <;> exact List.cons_ne_nil _ _

/-- Two ways into a tree part at the first step. -/
theorem Enters.eq_of_append {s' x' : Address} {c' : Tree} (h : Enters t s c) (h' : Enters t s' c')
    (hx : s ++ x = s' ++ x') : s = s' ∧ c = c' ∧ x = x' := by
  cases h with
  | child ht hc hn => cases h' <;> simp_all
  | body ht hb => cases h' <;> simp_all
  | member ht hb hc hn =>
    cases h' with
    | child ht' hc' hn' => simp_all
    | body ht' hb' => simp_all
    | member ht' hb' hc' hn' => grind

/-- No tree on the way from a tree into another is visited. -/
theorem Enters.eq_of_prefix {s' : Address} {c' : Tree} (h : Enters t s c) (h' : Enters t s' c')
    (hs : s' <+: s) : s' = s := by
  obtain ⟨x, hx⟩ := hs
  have hsame : s' ++ x = s ++ [] := by simpa using hx
  exact (h'.eq_of_append h hsame).1

/-- The constructs among trees in a row, with their numbers. -/
def constructs (ts : List Tree) : List (Tree × Nat) := ts.zipIdx.filter (fun c => c.1.isNamed)

theorem mem_constructs {ts : List Tree} {i : Nat} :
    (c, i) ∈ constructs ts ↔ ts[i]? = some c ∧ c.isNamed = true := by
  simp [constructs, List.mem_zipIdx_iff_getElem?]

/-- The trees that a tree is entered through, from left to right. -/
def entered (t : Tree) : List (Address × Tree) :=
  match t.kind.access with
  | .children => (constructs t.children).map (fun c => ([c.2], c.1))
  | .body => t.body?.toList.map (fun b => ([b.2], b.1))
  | .members =>
    t.body?.toList.flatMap (fun b => (constructs b.1.children).map (fun c => ([b.2, c.2], c.1)))
  | .nothing => []

theorem mem_entered : (s, c) ∈ t.entered ↔ Enters t s c := by
  unfold entered
  constructor
  · intro h
    split at h
    next ht =>
      obtain ⟨⟨d, i⟩, hd, he⟩ := List.mem_map.mp h
      cases he
      exact .child ht (mem_constructs.mp hd).1 (mem_constructs.mp hd).2
    next ht =>
      obtain ⟨⟨d, i⟩, hd, he⟩ := List.mem_map.mp h
      cases he
      exact .body ht (Option.mem_toList.mp hd)
    next ht =>
      obtain ⟨⟨b, i⟩, hb, h⟩ := List.mem_flatMap.mp h
      obtain ⟨⟨d, j⟩, hd, he⟩ := List.mem_map.mp h
      cases he
      exact .member ht (Option.mem_toList.mp hb) (mem_constructs.mp hd).1 (mem_constructs.mp hd).2
    next ht => cases h
  · intro h
    cases h with
    | child ht hc hn =>
      rw [ht]
      exact List.mem_map.mpr ⟨_, mem_constructs.mpr ⟨hc, hn⟩, rfl⟩
    | body ht hb =>
      rw [ht]
      exact List.mem_map.mpr ⟨_, Option.mem_toList.mpr hb, rfl⟩
    | member ht hb hc hn =>
      rw [ht]
      refine List.mem_flatMap.mpr ⟨_, Option.mem_toList.mpr hb, ?_⟩
      exact List.mem_map.mpr ⟨_, mem_constructs.mpr ⟨hc, hn⟩, rfl⟩

theorem constructs_pairwise (ts : List Tree) :
    (constructs ts).Pairwise (fun c d => c.2 < d.2) := by
  have h : ts.zipIdx.Pairwise (fun c d => c.2 < d.2) := by
    rw [← List.pairwise_map (f := Prod.snd) (R := (· < ·)), List.zipIdx_map_snd]
    exact List.pairwise_lt_range'
  exact h.filter _

/-- Everything below an earlier tree comes before everything below a later one. -/
theorem entered_pairwise (t : Tree) :
    t.entered.Pairwise (fun c d => ∀ x y, (c.1 ++ x).Precedes (d.1 ++ y)) := by
  unfold entered
  split
  next =>
    rw [List.pairwise_map]
    refine (constructs_pairwise _).imp ?_
    intro c d hcd x y
    exact List.Lex.rel hcd
  next => cases t.body? <;> simp
  next =>
    cases t.body? with
    | none => simp
    | some b =>
      simp only [Option.toList_some, List.flatMap_cons, List.flatMap_nil, List.append_nil]
      rw [List.pairwise_map]
      refine (constructs_pairwise _).imp ?_
      intro c d hcd x y
      exact List.Lex.cons (List.Lex.rel hcd)
  next => exact List.Pairwise.nil

theorem sizeOf_of_mem_children (h : c ∈ t.children) : sizeOf c < sizeOf t := by
  cases t with
  | leaf => cases h
  | node k slot ts =>
    have hc : c ∈ ts := h
    have := List.sizeOf_lt_of_mem hc
    simp only [node.sizeOf_spec]
    omega

theorem mem_children_of_body? {b : Tree} {i : Nat} (h : t.body? = some (b, i)) :
    t.children[i]? = some b :=
  List.mem_zipIdx_iff_getElem?.mp (List.mem_of_find?_eq_some h)

theorem Enters.sizeOf_lt (h : Enters t s c) : sizeOf c < sizeOf t := by
  cases h with
  | child ht hc hn => exact sizeOf_of_mem_children (List.mem_of_getElem? hc)
  | body ht hb => exact sizeOf_of_mem_children (List.mem_of_getElem? (mem_children_of_body? hb))
  | member ht hb hc hn =>
    have hb := sizeOf_of_mem_children (List.mem_of_getElem? (mem_children_of_body? hb))
    have hc := sizeOf_of_mem_children (List.mem_of_getElem? hc)
    omega

/-- What follows for a tree from what holds of the trees it is entered through, holds of all. -/
theorem entered_induction {P : Tree → Prop} (h : ∀ t, (∀ s c, Enters t s c → P c) → P t)
    (t : Tree) : P t :=
  h t (fun _ c _ => entered_induction h c)
termination_by sizeOf t
decreasing_by exact Enters.sizeOf_lt ‹_›

/-! ## Ways down a tree -/

theorem Enters.reaches (h : Enters t s c) : Reaches t s c := by
  simpa using Reaches.enter h (.here c)

theorem Reaches.append (h : Reaches t x c) (h' : Reaches c y d) : Reaches t (x ++ y) d := by
  induction h with
  | here => exact h'
  | enter hs _ ih => rw [List.append_assoc]; exact .enter hs (ih h')

/-- A way down that goes on from a tree on it, is a way down from that tree. -/
theorem Reaches.of_append (h : Reaches r x t) (h' : Reaches r (x ++ y) d) : Reaches t y d := by
  induction h with
  | here => exact h'
  | enter hs _ ih =>
    rw [List.append_assoc] at h'
    generalize hz : _ ++ (_ ++ y) = z at h'
    cases h' with
    | here => simp [hs.ne_nil] at hz
    | enter hs' hx' =>
      obtain ⟨-, rfl, rfl⟩ := hs.eq_of_append hs' hz
      exact ih hx'

theorem Reaches.unique (h : Reaches r x t) (h' : Reaches r x d) : t = d := by
  have hd : Reaches t [] d := h.of_append (by simpa using h')
  generalize hz : ([] : Address) = z at hd
  cases hd with
  | here => rfl
  | enter hs _ =>
    have := List.append_eq_nil_iff.mp hz.symm
    exact absurd this.1 hs.ne_nil

/-! ## The entries below a tree -/

/-- The addresses of the entries at and below a tree that stands at an address, in the order of the
text. -/
def entries (a : Address) (t : Tree) : List Address :=
  (if t.isEntry then [a] else []) ++
    t.entered.attach.flatMap (fun c => entries (a ++ c.1.1) c.1.2)
termination_by sizeOf t
decreasing_by exact (mem_entered.mp c.2).sizeOf_lt

theorem entries_eq (a : Address) (t : Tree) :
    entries a t =
      (if t.isEntry then [a] else []) ++ t.entered.flatMap (fun c => entries (a ++ c.1) c.2) := by
  have h := List.flatMap_map Subtype.val (fun c : Address × Tree => entries (a ++ c.1) c.2)
    t.entered.attach
  rw [List.attach_map_subtype_val] at h
  rw [entries, h]

theorem mem_entries {a b : Address} :
    b ∈ entries a t ↔ ∃ s d, b = a ++ s ∧ Reaches t s d ∧ d.isEntry = true := by
  induction t using entered_induction generalizing a with
  | h t ih =>
    rw [entries_eq, List.mem_append, List.mem_flatMap]
    constructor
    · rintro (h | ⟨⟨s, c⟩, hc, h⟩)
      · by_cases ht : t.isEntry = true
        · rw [if_pos ht, List.mem_singleton] at h
          exact ⟨[], t, by simpa using h, .here t, ht⟩
        · simp [ht] at h
      · have hs := mem_entered.mp hc
        obtain ⟨x, d, rfl, hx, hd⟩ := (ih s c hs).mp h
        exact ⟨s ++ x, d, List.append_assoc _ _ _, .enter hs hx, hd⟩
    · rintro ⟨x, d, rfl, hx, hd⟩
      cases hx with
      | here => left; simp [hd]
      | @enter _ c _ s x hs hx =>
        refine Or.inr ⟨(s, c), mem_entered.mpr hs, ?_⟩
        exact (ih s c hs).mpr ⟨x, d, (List.append_assoc _ _ _).symm, hx, hd⟩

theorem prefix_of_mem_entries {a b : Address} (h : b ∈ entries a t) : a <+: b := by
  obtain ⟨s, d, rfl, -, -⟩ := mem_entries.mp h
  exact List.prefix_append a s

end Tree

/-! ## Visited trees and their owners -/

section Visiting

variable {roots : List Tree} {a o x s : Address} {t c d : Tree}

theorem visited_file {k : Nat} {r : Tree} (h : roots[k]? = some r) : Visited roots [k] r.asFile :=
  ⟨k, r, [], h, rfl, .here _⟩

theorem Visited.enter (h : Visited roots a t) (hs : t.Enters s c) : Visited roots (a ++ s) c := by
  obtain ⟨k, r, y, hr, rfl, hy⟩ := h
  exact ⟨k, r, y ++ s, hr, List.cons_append, hy.append hs.reaches⟩

theorem Visited.of_append (h : Visited roots a t) (h' : Visited roots (a ++ x) d) :
    t.Reaches x d := by
  obtain ⟨k, r, y, hr, rfl, hy⟩ := h
  obtain ⟨k', r', z, hr', hz, hz'⟩ := h'
  rw [List.cons_append, List.cons.injEq] at hz
  obtain ⟨rfl, rfl⟩ := hz
  rw [hr, Option.some.injEq] at hr'
  subst hr'
  exact hy.of_append hz'

theorem Visited.unique (h : Visited roots a t) (h' : Visited roots a d) : t = d := by
  have hd : t.Reaches [] d := h.of_append (by simpa using h')
  exact (Tree.Reaches.here t).unique hd

theorem Visited.ne_nil (h : Visited roots a t) : a ≠ [] := by
  obtain ⟨k, r, y, -, rfl, -⟩ := h
  exact List.cons_ne_nil k y

/-- Nothing is visited between a tree and one that it is entered through. -/
theorem Visited.prefix_of_enter (h : Visited roots a t) (hs : t.Enters s c)
    (hx : Visited roots x d) (hp : x <+: a ++ s) (hne : x ≠ a ++ s) : x <+: a := by
  rcases List.prefix_or_prefix_of_prefix hp (List.prefix_append a s) with hxa | ⟨y, rfl⟩
  · exact hxa
  · have hys : y <+: s := (List.prefix_append_right_inj a).mp hp
    cases h.of_append hx with
    | here => simp
    | @enter _ c' _ s' y hs' hx' =>
      obtain rfl := hs.eq_of_prefix hs' ((List.prefix_append s' y).trans hys)
      have hlen := hys.length_le
      rw [List.length_append] at hlen
      have hnil : y = [] := List.eq_nil_of_length_eq_zero (by omega)
      simp [hnil] at hne

theorem Owns.unique {o' : Address} (h : Owns roots o a) (h' : Owns roots o' a) : o = o' := by
  have hle := h'.innermost o h.scope h.around h.proper
  have hge := h.innermost o' h'.scope h'.around h'.proper
  exact hle.eq_of_length_le hge.length_le

/-- Nothing is around a file. -/
theorem Owns.length_ne_one (h : Owns roots o a) : a.length ≠ 1 := by
  obtain ⟨d, hd, -⟩ := h.scope
  have hpos := List.length_pos_of_ne_nil hd.ne_nil
  intro hone
  exact h.proper (h.around.eq_of_length_le (by omega))

theorem Owns.precedes (h : Owns roots o a) : o.Precedes a :=
  Address.precedes_of_prefix h.around h.proper

/-- A scope owns what it is entered through. -/
theorem Scope.owns (h : Scope roots a) (ht : Visited roots a t) (hs : t.Enters s c) :
    Owns roots a (a ++ s) where
  scope := h
  around := List.prefix_append a s
  proper := by simpa using hs.ne_nil
  innermost := by
    rintro x ⟨d, hd, -⟩ hp hne
    exact ht.prefix_of_enter hs hd hp hne

/-- Through any other tree the owner stays the same. -/
theorem Owns.enter (h : Owns roots o a) (ha : ¬ Scope roots a) (ht : Visited roots a t)
    (hs : t.Enters s c) : Owns roots o (a ++ s) where
  scope := h.scope
  around := h.around.trans (List.prefix_append a s)
  proper := by
    rintro rfl
    have hlen := h.around.length_le
    have := List.length_pos_of_ne_nil hs.ne_nil
    simp only [List.length_append] at hlen
    omega
  innermost := by
    rintro x hx hp hne
    obtain ⟨d, hd, -⟩ := id hx
    have hxa := ht.prefix_of_enter hs hd hp hne
    refine h.innermost x hx hxa ?_
    rintro rfl
    exact ha hx

end Visiting

/-! ## The text before a tree -/

theorem Place.after_append (p : Place) (s s' : String) :
    p.after (s ++ s') = (p.after s).after s' := by
  simp [Place.after, Nat.add_assoc]

@[simp] theorem Place.after_empty (p : Place) : p.after "" = p := by
  simp [Place.after]

namespace Tree

variable {t c d r : Tree} {s x : Address}

/-- The text of a tree before the tree to which an address leads. -/
def before (t : Tree) : Address → String
  | [] => ""
  | i :: s => texts (t.children.take i) ++ ((t.children[i]?).map (fun c => before c s)).getD ""

theorem before_single (t : Tree) (i : Nat) : t.before [i] = texts (t.children.take i) := by
  cases h : t.children[i]? <;> simp [before, h]

theorem before_pair {b : Tree} {i : Nat} (hb : t.children[i]? = some b) (j : Nat) :
    t.before [i, j] = texts (t.children.take i) ++ texts (b.children.take j) := by
  rw [before, hb]
  simp [before_single]

theorem Enters.before_append (h : Enters t s c) (x : Address) :
    t.before (s ++ x) = t.before s ++ c.before x := by
  cases h with
  | child ht hc hn => simp [before, hc]
  | body ht hb => simp [before, mem_children_of_body? hb]
  | member ht hb hc hn => simp [before, mem_children_of_body? hb, hc, String.append_assoc]

theorem Reaches.before_append (h : Reaches t s d) (x : Address) :
    t.before (s ++ x) = t.before s ++ d.before x := by
  induction h with
  | here => simp [before]
  | enter hs _ ih => rw [List.append_assoc, hs.before_append, ih, hs.before_append,
      String.append_assoc]

end Tree

/-- The place of an address in its file. -/
def placeOf (roots : List Tree) : Address → Place
  | [] => Place.start
  | k :: s => Place.start.after (((roots[k]?).map (fun r => r.asFile.before s)).getD "")

theorem placeOf_file (roots : List Tree) (k : Nat) : placeOf roots [k] = Place.start := by
  cases h : roots[k]? <;> simp [placeOf, h, Tree.before]

theorem Visited.placeOf_append {roots : List Tree} {a : Address} {t : Tree}
    (h : Visited roots a t) (x : Address) :
    placeOf roots (a ++ x) = (placeOf roots a).after (t.before x) := by
  obtain ⟨k, r, s, hr, rfl, hs⟩ := h
  simp [placeOf, hr, hs.before_append, Place.after_append]

/-! ## The outline of a tree -/

namespace Tree

variable (file : UInt32) (inType : Bool) (p : Place)

def entryNode (t : Tree) (position : Position) : Node :=
  match t.kind with
  | .module => containerNode .module t position
  | .implementation => containerNode .impl t position
  | .trait => containerNode .trait t position
  | .function => functionNode inType t position
  | _ => callNode t position

/-- The outlines of the trees that a tree is entered through. -/
def within (t : Tree) : List Outline :=
  t.entered.flatMap (fun c => outline file inType (p.after (t.before c.1)) c.2)

theorem constructs_cons (t : Tree) (ts : List Tree) :
    constructs (t :: ts) =
      (if t.isNamed then [(t, 0)] else []) ++ (constructs ts).map (fun c => (c.1, c.2 + 1)) := by
  unfold constructs
  rw [List.zipIdx_cons, List.zipIdx_succ, List.filter_cons, List.filter_map]
  cases t.isNamed <;> rfl

theorem firstBody_cons (t : Tree) (ts : List Tree) :
    firstBody (t :: ts) =
      if t.slot == .body then some (t, 0) else (firstBody ts).map (fun c => (c.1, c.2 + 1)) := by
  unfold firstBody
  rw [List.zipIdx_cons, List.zipIdx_succ, List.find?_cons, List.find?_map]
  cases t.slot == .body <;> rfl

theorem outlines_eq (ts : List Tree) :
    outlines file inType p ts =
      (constructs ts).flatMap (fun c => outline file inType (p.after (texts (ts.take c.2))) c.1) := by
  induction ts generalizing p with
  | nil => rw [outlines]; rfl
  | cons t ts ih =>
    rw [outlines, ih, constructs_cons, List.flatMap_append, List.flatMap_map]
    congr 1
    · cases t.isNamed <;> simp [texts]
    · simp [texts, Place.after_append]

theorem bodyOutline_eq (ts : List Tree) :
    bodyOutline file inType p ts =
      (firstBody ts).toList.flatMap
        (fun b => outlines file inType (p.after (texts (ts.take b.2))) b.1.children) := by
  induction ts generalizing p with
  | nil => rw [bodyOutline]; rfl
  | cons t ts ih =>
    rw [bodyOutline.eq_def, firstBody_cons]
    by_cases hb : t.slot = .body
    · cases t <;> simp [hb, texts, children, outlines]
    · simp only [hb, beq_iff_eq, if_false, ih]
      cases firstBody ts <;> simp [texts, Place.after_append]

theorem functionOutline_eq (ts : List Tree) :
    functionOutline file p ts =
      (firstBody ts).toList.flatMap
        (fun b => outline file false (p.after (texts (ts.take b.2))) b.1) := by
  induction ts generalizing p with
  | nil => rw [functionOutline]; rfl
  | cons t ts ih =>
    rw [functionOutline, firstBody_cons]
    split
    · simp [texts]
    · rw [ih]
      cases firstBody ts <;> simp [texts, Place.after_append]

variable {t : Tree}

theorem outlines_eq_within (h : t.kind.access = .children) :
    outlines file inType p t.children = t.within file inType p := by
  rw [outlines_eq, within, entered, h]
  simp only [List.flatMap_map, before_single]

theorem bodyOutline_eq_within (h : t.kind.access = .members) :
    bodyOutline file inType p t.children = t.within file inType p := by
  rw [bodyOutline_eq, within, entered, h]
  cases hb : t.body? with
  | none => rw [body?] at hb; simp [hb]
  | some b =>
    have hpair := before_pair (mem_children_of_body? (b := b.1) hb)
    rw [body?] at hb
    simp [hb, List.flatMap_map, outlines_eq, hpair, Place.after_append]

theorem functionOutline_eq_within (h : t.kind.access = .body) :
    functionOutline file p t.children = t.within file false p := by
  rw [functionOutline_eq, within, entered, h]
  simp only [List.flatMap_map, before_single, body?]

/-- The outline of a container or function is one entry, which owns what is entered. -/
theorem outline_scope (h : t.isScope = true) :
    outline file inType p t =
      [.entry (t.entryNode inType (p.position file)) (t.within file t.isType p)] := by
  cases t with
  | leaf => cases h
  | node k slot ts =>
    have hk : k = .module ∨ k = .implementation ∨ k = .trait ∨ k = .function := by
      cases k <;> simp_all [isScope, Kind.access]
    rcases hk with rfl | rfl | rfl | rfl
    · rw [outline, ← bodyOutline_eq_within _ _ _ rfl]; rfl
    · rw [outline, ← bodyOutline_eq_within _ _ _ rfl]; rfl
    · rw [outline, ← bodyOutline_eq_within _ _ _ rfl]; rfl
    · have hw := functionOutline_eq_within file p (t := node .function slot ts) rfl
      rw [outline]
      exact congrArg (fun os => [Outline.entry _ os]) hw

/-- A call owns nothing: what is entered stands beside it. -/
theorem outline_call (h : t.isCall = true) :
    outline file inType p t =
      .entry (t.entryNode inType (p.position file)) [] :: t.within file inType p := by
  cases t with
  | leaf => cases h
  | node k slot ts =>
    have hk : k = .call := by simpa [isCall] using h
    subst hk
    rw [outline, ← outlines_eq_within _ _ _ rfl]
    rfl

theorem outline_plain (h : t.isEntry = false) : outline file inType p t = t.within file inType p := by
  cases t with
  | leaf k slot text =>
    rw [outline, within]
    have hnone : (leaf k slot text).entered = [] := by
      unfold entered
      split <;> rfl
    rw [hnone]; rfl
  | node k slot ts =>
    by_cases hk : k = .tokenTree
    · subst hk
      rw [outline]; rfl
    · have hopen : k.access = .children := by cases k <;> simp_all [isEntry, isScope, Kind.access]
      have hw := outlines_eq_within (t := node k slot ts) file inType p hopen
      rw [← hw, outline]
      · rfl
      all_goals rintro rfl; simp_all [isEntry, isCall, Kind.access]

end Tree

end CallGraph.Source
