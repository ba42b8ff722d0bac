import CallGraph.Proofs.Visiting
import CallGraph.Source.Extract

/-!
Faults in syntax trees, and the search for the first one.

All trees within a tree are listed in preorder, each with its address and its place (`sites`). The
search for a fault does not go through this list. It looks below a tree only if the tree is marked,
and the mark is meant to tell whether there is a fault in the tree at all.

What is proved:
1. `mem_sites`, `sites_pairwise`: the list has every tree within a tree, in the order of addresses.
2. `findFault_eq`: if the marks are right, the search finds what a search through the list finds.
3. `isFirstFault_of_firstFault`: so the fault that is found is the first one in preorder.
-/

namespace CallGraph.Source

namespace Tree

variable {t : Tree} {ts : List Tree} {a : Address} {i : Nat} {p : Place} {s : Site}

/-! ## Trees within a tree -/

/-- The tree to which an address leads. -/
def subtree? (t : Tree) : Address → Option Tree
  | [] => some t
  | i :: x => (t.children[i]?).bind (fun c => c.subtree? x)

/-- A site is that of a tree at an address and a place, or of one below it. -/
def Site.Within (a : Address) (p : Place) (t : Tree) (s : Site) : Prop :=
  ∃ x, s.address = a ++ x ∧ t.subtree? x = some s.tree ∧ s.place = p.after (t.before x)

/-- A site is that of one of several trees in a row, whose numbers start at `i`, or of one below
them. -/
def Site.Among (a : Address) (i : Nat) (p : Place) (ts : List Tree) (s : Site) : Prop :=
  ∃ j c x, ts[j]? = some c ∧ s.address = a ++ (i + j) :: x ∧ c.subtree? x = some s.tree ∧
    s.place = p.after (texts (ts.take j) ++ c.before x)

theorem Site.within_iff : s.Within a p t ↔ s = ⟨a, p, t⟩ ∨ s.Among a 0 p t.children := by
  constructor
  · rintro ⟨x, haddress, htree, hplace⟩
    cases x with
    | nil =>
      obtain ⟨b, q, d⟩ := s
      obtain rfl : t = d := by simpa [subtree?] using htree
      simp only [List.append_nil, before, Place.after_empty] at haddress hplace
      exact Or.inl (by rw [haddress, hplace])
    | cons j x =>
      obtain ⟨c, hc, htree⟩ := Option.bind_eq_some_iff.mp htree
      refine Or.inr ⟨j, c, x, hc, by rw [haddress, Nat.zero_add], htree, ?_⟩
      rw [hplace, before, hc]
      rfl
  · rintro (rfl | ⟨j, c, x, hc, haddress, htree, hplace⟩)
    · exact ⟨[], by simp, rfl, by simp [before]⟩
    · refine ⟨j :: x, by rw [haddress, Nat.zero_add], ?_, ?_⟩
      · rw [subtree?, hc]
        exact htree
      · rw [hplace, before, hc]
        rfl

theorem Site.not_among_nil : ¬ s.Among a i p [] := by
  rintro ⟨j, c, x, hc, -⟩
  simp at hc

theorem Site.among_cons : s.Among a i p (t :: ts) ↔
    s.Within (a ++ [i]) p t ∨ s.Among a (i + 1) (p.after t.text) ts := by
  constructor
  · rintro ⟨j, c, x, hc, haddress, htree, hplace⟩
    cases j with
    | zero =>
      obtain rfl : t = c := by simpa using hc
      exact Or.inl ⟨x, by simp [haddress], htree, by simpa [texts] using hplace⟩
    | succ j =>
      refine Or.inr ⟨j, c, x, by simpa using hc, ?_, htree, ?_⟩
      · rw [haddress, Nat.add_assoc, Nat.add_comm 1 j]
      · rw [hplace, List.take_succ_cons, texts, String.append_assoc, Place.after_append]
  · rintro (⟨x, haddress, htree, hplace⟩ | ⟨j, c, x, hc, haddress, htree, hplace⟩)
    · exact ⟨0, t, x, rfl, by simp [haddress], htree, by simpa [texts] using hplace⟩
    · refine ⟨j + 1, c, x, by simpa using hc, ?_, htree, ?_⟩
      · rw [haddress, Nat.add_assoc, Nat.add_comm 1 j]
      · rw [hplace, ← Place.after_append, List.take_succ_cons, texts, String.append_assoc]

mutual

/-- A tree that stands at an address and a place, and all trees below it, in preorder. -/
def sites (a : Address) (p : Place) : Tree → List Site
  | leaf k s x => [⟨a, p, leaf k s x⟩]
  | node k s ts => ⟨a, p, node k s ts⟩ :: sitesOf a 0 p ts

/-- Trees in a row, from the child with a number on, and all trees below them, in preorder. -/
def sitesOf (a : Address) (i : Nat) (p : Place) : List Tree → List Site
  | [] => []
  | t :: ts => sites (a ++ [i]) p t ++ sitesOf a (i + 1) (p.after t.text) ts

end

mutual

theorem mem_sites (a : Address) (p : Place) (t : Tree) : s ∈ t.sites a p ↔ s.Within a p t := by
  cases t with
  | leaf k slot x => simp [sites, Site.within_iff, children, Site.not_among_nil]
  | node k slot ts => rw [sites, List.mem_cons, mem_sitesOf a 0 p ts, Site.within_iff, children]

theorem mem_sitesOf (a : Address) (i : Nat) (p : Place) (ts : List Tree) :
    s ∈ sitesOf a i p ts ↔ s.Among a i p ts := by
  cases ts with
  | nil => simp [sitesOf, Site.not_among_nil]
  | cons t ts =>
    rw [sitesOf, List.mem_append, mem_sites (a ++ [i]) p t,
      mem_sitesOf a (i + 1) (p.after t.text) ts, Site.among_cons]

end

mutual

theorem sites_pairwise (a : Address) (p : Place) (t : Tree) :
    (t.sites a p).Pairwise (fun s s' => Address.Precedes s.address s'.address) := by
  cases t with
  | leaf k slot x => simp [sites]
  | node k slot ts =>
    rw [sites, List.pairwise_cons]
    refine ⟨?_, sitesOf_pairwise a 0 p ts⟩
    intro s hs
    obtain ⟨j, c, x, -, haddress, -⟩ := (mem_sitesOf a 0 p ts).mp hs
    rw [haddress]
    exact Address.precedes_append a (List.cons_ne_nil _ _)

theorem sitesOf_pairwise (a : Address) (i : Nat) (p : Place) (ts : List Tree) :
    (sitesOf a i p ts).Pairwise (fun s s' => Address.Precedes s.address s'.address) := by
  cases ts with
  | nil => simp [sitesOf]
  | cons t ts =>
    rw [sitesOf, List.pairwise_append]
    refine ⟨sites_pairwise (a ++ [i]) p t, sitesOf_pairwise a (i + 1) (p.after t.text) ts, ?_⟩
    intro s hs s' hs'
    -- The addresses part at the number of the child.
    obtain ⟨x, haddress, -⟩ := (mem_sites (a ++ [i]) p t).mp hs
    obtain ⟨j, c, x', -, haddress', -⟩ := (mem_sitesOf a (i + 1) (p.after t.text) ts).mp hs'
    rw [haddress, haddress', List.append_assoc]
    have hparts : Address.Precedes (i :: x) ((i + 1 + j) :: x') := List.Lex.rel (by omega)
    exact hparts.append a

end

/-! ## The search -/

mutual

theorem hasFault_eq_any (a : Address) (p : Place) (t : Tree) :
    t.hasFault = (t.sites a p).any (fun s => s.tree.isFault) := by
  cases t with
  | leaf k slot x => simp [hasFault, sites, isFault, kind]
  | node k slot ts => simp [hasFault, sites, isFault, kind, anyFault_eq_any a 0 p ts]

theorem anyFault_eq_any (a : Address) (i : Nat) (p : Place) (ts : List Tree) :
    anyFault ts = (sitesOf a i p ts).any (fun s => s.tree.isFault) := by
  cases ts with
  | nil => rfl
  | cons t ts =>
    rw [anyFault, sitesOf, List.any_append, ← hasFault_eq_any (a ++ [i]) p t,
      ← anyFault_eq_any a (i + 1) (p.after t.text) ts]

end

theorem hasFault_iff : t.hasFault = true ↔ ∃ x d, t.subtree? x = some d ∧ d.isFault = true := by
  rw [hasFault_eq_any [] Place.start, List.any_eq_true]
  constructor
  · rintro ⟨s, hs, hfault⟩
    obtain ⟨x, -, htree, -⟩ := (mem_sites [] Place.start t).mp hs
    exact ⟨x, s.tree, htree, hfault⟩
  · rintro ⟨x, d, htree, hfault⟩
    exact ⟨⟨x, Place.start.after (t.before x), d⟩,
      (mem_sites [] Place.start t).mpr ⟨x, rfl, htree, rfl⟩, hfault⟩

/-- The marks tell of every tree whether there is a fault in it. -/
def MarksFaults (marked : Tree → Bool) : Prop :=
  ∀ t, marked t = true ↔ ∃ x d, t.subtree? x = some d ∧ d.isFault = true

theorem hasFault_marksFaults : MarksFaults hasFault := fun _ => hasFault_iff

theorem MarksFaults.eq_hasFault {marked : Tree → Bool} (h : MarksFaults marked) (t : Tree) :
    marked t = t.hasFault := by
  rw [Bool.eq_iff_iff, h t, hasFault_iff]

mutual

/-- With the right marks the search finds what a search through all trees in preorder finds. -/
theorem findFault_eq {marked : Tree → Bool} (h : MarksFaults marked) (a : Address) (p : Place)
    (t : Tree) : t.findFault marked a p = (t.sites a p).find? (fun s => s.tree.isFault) := by
  cases t with
  | leaf k slot x =>
    rw [findFault, sites, List.find?_cons]
    cases (leaf k slot x).isFault <;> rfl
  | node k slot ts =>
    rw [findFault, sites, List.find?_cons]
    cases hself : (node k slot ts).isFault with
    | true => rfl
    | false =>
      simp only [Bool.false_eq_true, if_false]
      split
      · exact findFaults_eq h a 0 p ts
      · -- A tree without a mark has no fault, so there is nothing to be found below it.
        next hmark =>
        rw [h.eq_hasFault, hasFault_eq_any a p, sites, List.any_cons, hself, Bool.false_or,
          Bool.not_eq_true, List.any_eq_false] at hmark
        exact (List.find?_eq_none.mpr hmark).symm

theorem findFaults_eq {marked : Tree → Bool} (h : MarksFaults marked) (a : Address) (i : Nat)
    (p : Place) (ts : List Tree) :
    findFaults marked a i p ts = (sitesOf a i p ts).find? (fun s => s.tree.isFault) := by
  cases ts with
  | nil => rfl
  | cons t ts =>
    rw [findFaults, sitesOf, List.find?_append, ← findFault_eq h (a ++ [i]) p t,
      ← findFaults_eq h a (i + 1) (p.after t.text) ts]
    cases t.findFault marked (a ++ [i]) p <;> rfl

end

/-- An address leads to a fault, and to every other fault a later address leads. -/
structure IsFirstFault (t : Tree) (a : Address) : Prop where
  fault : ∃ d, t.subtree? a = some d ∧ d.isFault = true
  first : ∀ b d, t.subtree? b = some d → d.isFault = true → b = a ∨ a.Precedes b

theorem firstFault_eq_find? (t : Tree) :
    t.firstFault = (t.sites [] Place.start).find? (fun s => s.tree.isFault) :=
  findFault_eq hasFault_marksFaults [] Place.start t

/-- What is found is the first fault in preorder, with its place. -/
theorem isFirstFault_of_firstFault (h : t.firstFault = some s) :
    t.IsFirstFault s.address ∧ s.place = Place.start.after (t.before s.address) := by
  rw [firstFault_eq_find?, List.find?_eq_some_iff_append] at h
  obtain ⟨hfault, before, after, hsites, hnone⟩ := h
  have hmem : s ∈ t.sites [] Place.start := by simp [hsites]
  obtain ⟨x, haddress, htree, hplace⟩ := (mem_sites [] Place.start t).mp hmem
  rw [List.nil_append] at haddress
  subst haddress
  refine ⟨⟨⟨s.tree, htree, hfault⟩, ?_⟩, hplace⟩
  intro b d hd hdfault
  have hother : (⟨b, Place.start.after (t.before b), d⟩ : Site) ∈ t.sites [] Place.start :=
    (mem_sites [] Place.start t).mpr ⟨b, rfl, hd, rfl⟩
  have hsorted := sites_pairwise [] Place.start t
  rw [hsites, List.mem_append, List.mem_cons] at hother
  rw [hsites, List.pairwise_append, List.pairwise_cons] at hsorted
  rcases hother with hother | hother | hother
  · -- Before what was found there are no faults.
    have hclean := hnone _ hother
    simp [hdfault] at hclean
  · exact Or.inl (congrArg Site.address hother)
  · exact Or.inr (hsorted.2.1.1 _ hother)

end Tree

theorem faultLine?_isSome (t : Tree) : (faultLine? t).isSome = t.hasFault := by
  rw [faultLine?, Option.isSome_map, Tree.firstFault_eq_find?,
    Tree.hasFault_eq_any [] Place.start, Bool.eq_iff_iff, List.find?_isSome, List.any_eq_true]

/-- The line that is reported is that of the first fault in preorder. -/
theorem faultLine?_eq_some {t : Tree} {line : Nat} (h : faultLine? t = some line) :
    ∃ a, t.IsFirstFault a ∧ line = (Place.start.after (t.before a)).line := by
  obtain ⟨s, hs, rfl⟩ := Option.map_eq_some_iff.mp h
  obtain ⟨hfirst, hplace⟩ := Tree.isFirstFault_of_firstFault hs
  exact ⟨s.address, hfirst, by rw [hplace]⟩

end CallGraph.Source
