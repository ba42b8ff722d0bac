/-!
Finite maps from texts to texts, listed in ascending order of their keys.

Keys ascend strictly in the list of a map, so a map has one list. `get?_insert` says what a map
holds after an insertion.
-/

namespace CallGraph

theorem TextMap.sorted_nil : ([] : List (String × String)).Pairwise (fun a b => a.1 < b.1) :=
  List.Pairwise.nil

/-- A finite map, held as the ascending list of its entries. -/
structure TextMap where
  toList : List (String × String) := []
  sorted : toList.Pairwise (fun a b => a.1 < b.1) := by exact TextMap.sorted_nil
  deriving DecidableEq

namespace TextMap

instance : Inhabited TextMap := ⟨{}⟩

def size (m : TextMap) : Nat := m.toList.length

/-- The value of a key in a list of entries. -/
def find? (key : String) : List (String × String) → Option String
  | [] => none
  | e :: es => if e.1 = key then some e.2 else find? key es

def get? (m : TextMap) (key : String) : Option String := find? key m.toList

/-- The place of a key in an ascending list; the value it had is replaced. -/
def insertInto (key value : String) : List (String × String) → List (String × String)
  | [] => [(key, value)]
  | e :: es =>
    if key < e.1 then (key, value) :: e :: es
    else if e.1 < key then e :: insertInto key value es
    else (key, value) :: es

theorem eq_of_not_lt {a b : String} (h : ¬ a < b) (h' : ¬ b < a) : a = b :=
  String.le_antisymm (String.not_lt.1 h') (String.not_lt.1 h)

theorem key_mem_insertInto {key value : String} {l : List (String × String)}
    {x : String × String} (h : x ∈ insertInto key value l) : x.1 = key ∨ x ∈ l := by
  induction l with
  | nil => simp_all [insertInto]
  | cons e es ih =>
    unfold insertInto at h
    split at h
    · rcases List.mem_cons.1 h with rfl | h
      · exact .inl rfl
      · exact .inr h
    · split at h
      · rcases List.mem_cons.1 h with rfl | h
        · exact .inr (by simp)
        · rcases ih h with h | h
          · exact .inl h
          · exact .inr (by simp [h])
      · rcases List.mem_cons.1 h with rfl | h
        · exact .inl rfl
        · exact .inr (by simp [h])

theorem sorted_insertInto {key value : String} {l : List (String × String)}
    (h : l.Pairwise (fun a b => a.1 < b.1)) :
    (insertInto key value l).Pairwise (fun a b => a.1 < b.1) := by
  induction l with
  | nil => simp [insertInto]
  | cons e es ih =>
    have h' := List.pairwise_cons.1 h
    unfold insertInto
    split
    · next hlt =>
      refine List.pairwise_cons.2 ⟨?_, h⟩
      intro x hx
      rcases List.mem_cons.1 hx with rfl | hx
      · exact hlt
      · exact String.lt_trans hlt (h'.1 x hx)
    · next hge =>
      split
      · next hlt =>
        refine List.pairwise_cons.2 ⟨?_, ih h'.2⟩
        intro x hx
        rcases key_mem_insertInto hx with hx | hx
        · exact hx ▸ hlt
        · exact h'.1 x hx
      · next hle =>
        have hk : key = e.1 := eq_of_not_lt hge hle
        exact List.pairwise_cons.2 ⟨fun x hx => hk ▸ h'.1 x hx, h'.2⟩

def insert (m : TextMap) (key value : String) : TextMap :=
  ⟨insertInto key value m.toList, sorted_insertInto m.sorted⟩

/-- The map of some entries, of which a later one replaces an earlier one with the same key. -/
def ofList (entries : List (String × String)) : TextMap :=
  entries.foldl (fun m e => m.insert e.1 e.2) {}

theorem find?_insertInto (key value k : String) (l : List (String × String)) :
    find? k (insertInto key value l) = if k = key then some value else find? k l := by
  induction l with
  | nil => simp only [insertInto, find?]; grind
  | cons e es ih =>
    unfold insertInto
    split
    · simp only [find?]; grind
    · next hge =>
      split
      · next hlt =>
        have hne : e.1 ≠ key := fun h => String.lt_irrefl key (h ▸ hlt)
        simp only [find?, ih]; grind
      · next hle =>
        have hk : key = e.1 := eq_of_not_lt hge hle
        simp only [find?]; grind

/-- After an insertion the key has the new value, and every other key has the value it had. -/
theorem get?_insert (m : TextMap) (key value k : String) :
    (m.insert key value).get? k = if k = key then some value else m.get? k :=
  find?_insertInto key value k m.toList

/-- How many bytes the keys and values have. -/
def byteSize (m : TextMap) : Nat :=
  m.toList.foldr (fun e n => e.1.utf8ByteSize + e.2.utf8ByteSize + n) 0

end TextMap

end CallGraph
