import CallGraph.Node

/-!
Finite sets of edges, listed in ascending order.

The list of a set is strictly ascending, so a set has one list and two sets with the same members
are equal (`EdgeSet.ext`). Each operation is described by what it does to membership.
-/

namespace CallGraph

theorem Edge.sorted_nil : ([] : List Edge).Pairwise (· < ·) := List.Pairwise.nil

/-- A finite set of edges, held as its ascending list. -/
structure EdgeSet where
  toList : List Edge := []
  sorted : toList.Pairwise (· < ·) := by exact Edge.sorted_nil
  deriving DecidableEq

namespace EdgeSet

instance : Membership Edge EdgeSet := ⟨fun s e => e ∈ s.toList⟩

instance : Inhabited EdgeSet := ⟨{}⟩

theorem mem_toList {e : Edge} {s : EdgeSet} : e ∈ s.toList ↔ e ∈ s := Iff.rfl

instance (e : Edge) (s : EdgeSet) : Decidable (e ∈ s) :=
  inferInstanceAs (Decidable (e ∈ s.toList))

def contains (s : EdgeSet) (e : Edge) : Bool := decide (e ∈ s)

def size (s : EdgeSet) : Nat := s.toList.length

/-- The place of an edge in an ascending list, which keeps one copy of it. -/
def insertInto (e : Edge) : List Edge → List Edge
  | [] => [e]
  | d :: ds => if e < d then e :: d :: ds else if e = d then d :: ds else d :: insertInto e ds

theorem mem_insertInto {e x : Edge} {l : List Edge} : x ∈ insertInto e l ↔ x = e ∨ x ∈ l := by
  induction l with
  | nil => simp [insertInto]
  | cons d ds ih =>
    unfold insertInto
    split
    · simp
    · split
      · next h => subst h; simp
      · simp only [List.mem_cons, ih]; grind

theorem sorted_insertInto {e : Edge} {l : List Edge} (h : l.Pairwise (· < ·)) :
    (insertInto e l).Pairwise (· < ·) := by
  induction l with
  | nil => simp [insertInto]
  | cons d ds ih =>
    rw [List.pairwise_cons] at h
    unfold insertInto
    split
    · next hlt =>
      refine List.pairwise_cons.2 ⟨?_, List.pairwise_cons.2 h⟩
      intro x hx
      rcases List.mem_cons.1 hx with rfl | hx
      · exact hlt
      · exact Edge.lt_trans hlt (h.1 x hx)
    · split
      · exact List.pairwise_cons.2 h
      · next hlt hne =>
        refine List.pairwise_cons.2 ⟨?_, ih h.2⟩
        intro x hx
        rcases mem_insertInto.1 hx with rfl | hx
        · rcases Edge.lt_or_eq_or_gt x d with h1 | h1 | h1
          · exact absurd h1 hlt
          · exact absurd h1 hne
          · exact h1
        · exact h.1 x hx

def insert (s : EdgeSet) (e : Edge) : EdgeSet where
  toList := insertInto e s.toList
  sorted := sorted_insertInto s.sorted

@[simp] theorem mem_insert {e x : Edge} {s : EdgeSet} : x ∈ s.insert e ↔ x = e ∨ x ∈ s :=
  mem_insertInto

def filter (s : EdgeSet) (p : Edge → Bool) : EdgeSet where
  toList := s.toList.filter p
  sorted := s.sorted.sublist List.filter_sublist

@[simp] theorem mem_filter {x : Edge} {s : EdgeSet} {p : Edge → Bool} :
    x ∈ s.filter p ↔ x ∈ s ∧ p x = true := List.mem_filter

def erase (s : EdgeSet) (e : Edge) : EdgeSet := s.filter (fun x => decide (x ≠ e))

@[simp] theorem mem_erase {e x : Edge} {s : EdgeSet} : x ∈ s.erase e ↔ x ∈ s ∧ x ≠ e := by
  simp [erase]

def ofList (l : List Edge) : EdgeSet := l.foldl insert {}

theorem mem_foldl_insert {x : Edge} {l : List Edge} {s : EdgeSet} :
    x ∈ l.foldl insert s ↔ x ∈ l ∨ x ∈ s := by
  induction l generalizing s with
  | nil => simp
  | cons d ds ih => rw [List.foldl_cons, ih, mem_insert, List.mem_cons]; grind

@[simp] theorem mem_ofList {x : Edge} {l : List Edge} : x ∈ ofList l ↔ x ∈ l := by
  rw [ofList, mem_foldl_insert]
  exact ⟨fun h => h.elim id (fun h => by cases h), Or.inl⟩

/-- Two ascending lists with the same members are equal. -/
theorem eq_of_sorted {l m : List Edge} (hl : l.Pairwise (· < ·)) (hm : m.Pairwise (· < ·))
    (h : ∀ e, e ∈ l ↔ e ∈ m) : l = m := by
  induction l generalizing m with
  | nil => cases m with
    | nil => rfl
    | cons b m => exact absurd ((h b).2 (by simp)) (by simp)
  | cons a l ih => cases m with
    | nil => exact absurd ((h a).1 (by simp)) (by simp)
    | cons b m =>
      rw [List.pairwise_cons] at hl hm
      have hab : a = b := by
        rcases List.mem_cons.1 ((h a).1 (by simp)) with h1 | h1
        · exact h1
        · rcases List.mem_cons.1 ((h b).2 (by simp)) with h2 | h2
          · exact h2.symm
          · exact absurd (Edge.lt_trans (hl.1 b h2) (hm.1 a h1)) (Edge.lt_irrefl a)
      subst hab
      have : ∀ e, e ∈ l ↔ e ∈ m := by
        intro e
        have he := h e
        simp only [List.mem_cons] at he
        constructor
        · intro hel
          rcases he.1 (Or.inr hel) with rfl | h2
          · exact absurd (hl.1 e hel) (Edge.lt_irrefl e)
          · exact h2
        · intro hem
          rcases he.2 (Or.inr hem) with rfl | h2
          · exact absurd (hm.1 e hem) (Edge.lt_irrefl e)
          · exact h2
      rw [ih hl.2 hm.2 this]

theorem nodup_toList (s : EdgeSet) : s.toList.Nodup := by
  apply s.sorted.imp
  intro a b hlt heq
  rw [heq] at hlt
  exact Edge.lt_irrefl b hlt

theorem ext {s t : EdgeSet} (h : ∀ e, e ∈ s ↔ e ∈ t) : s = t := by
  rcases s with ⟨l, hl⟩
  rcases t with ⟨m, hm⟩
  have : l = m := eq_of_sorted hl hm h
  subst this
  rfl

end EdgeSet

end CallGraph
