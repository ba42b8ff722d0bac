import CallGraph.Cache
import CallGraph.Proofs.Spelling

/-!
What is written to a cache file reads back.

The writer and the reader share no code: the writer puts escapes into strings and commas between
members, and the reader undoes this character by character. They meet in `Json.Spells`: what is
written is a text of the file's fields, and each such text reads as these fields.

What is proved:
1. `TextMap.ofList_toList`: inserting the entries of a map one by one gives the map.
2. `Cache.read_write`: the text of a cache file reads as the entries it was written from, whatever
   these are and whenever it was saved.
-/

namespace CallGraph

/-! ## Entries -/

namespace TextMap

theorem insertInto_of_lt {key value : String} {l : List (String × String)}
    (h : ∀ e ∈ l, e.1 < key) : insertInto key value l = l ++ [(key, value)] := by
  induction l with
  | nil => rfl
  | cons e es ih =>
    have he : e.1 < key := h e List.mem_cons_self
    have hge : ¬ key < e.1 := fun hlt => String.lt_irrefl _ (String.lt_trans he hlt)
    rw [insertInto, if_neg hge, if_pos he, ih fun x hx => h x (List.mem_cons_of_mem e hx)]
    rfl

theorem toList_foldl_insert (l : List (String × String)) (m : TextMap)
    (h : (m.toList ++ l).Pairwise (fun a b => a.1 < b.1)) :
    (l.foldl (fun m e => m.insert e.1 e.2) m).toList = m.toList ++ l := by
  induction l generalizing m with
  | nil => simp
  | cons e es ih =>
    have hinsert : (m.insert e.1 e.2).toList = m.toList ++ [e] :=
      insertInto_of_lt fun x hx => (List.pairwise_append.mp h).2.2 x hx e List.mem_cons_self
    have hall : m.toList ++ e :: es = (m.insert e.1 e.2).toList ++ es := by simp [hinsert]
    rw [hall] at h ⊢
    exact ih _ h

theorem ext_toList {m m' : TextMap} (h : m.toList = m'.toList) : m = m' := by
  cases m; cases m'; congr

theorem ofList_toList (m : TextMap) : ofList m.toList = m :=
  ext_toList (toList_foldl_insert m.toList {} m.sorted)

end TextMap

namespace Cache

open Json

theorem mapM_readPair? (l : List (String × String)) :
    (l.map fun e => (some e.1, Value.text e.2)).mapM readPair? = some l := by
  induction l with
  | nil => rfl
  | cons e es ih =>
    rw [List.map_cons, List.mapM_cons, ih]
    rfl

theorem readEntries?_texts (m : TextMap) :
    readEntries? (.object (m.toList.map fun e => (some e.1, .text e.2))) = some m := by
  rw [readEntries?, mapM_readPair?, Option.map_some, TextMap.ofList_toList]

/-- The text of a cache file reads as the fields it was written from. -/
theorem json_read_write (savedAt : String) (m : TextMap) : Json.read (write savedAt m) =
    some (.object [(some "version", .natural 1), (some "saved_at", .text savedAt),
      (some "entries", .object (m.toList.map fun e => (some e.1, .text e.2)))]) := by
  have hentries := spells_writeObject (m.toList.map Prod.fst) (spells_texts (m.toList.map Prod.snd))
  simp only [List.map_map, List.zip_map', Function.comp_apply] at hentries
  exact read_of_spells (spells_writeObject fileFields
    (.cons (.natural 1) (.cons (spells_writeText savedAt) (.cons hentries .nil)))).item

/-- Reading undoes writing: no entry is lost, changed or made up. -/
theorem read_write (savedAt : String) (m : TextMap) : read (write savedAt m) = .ok m := by
  have hfile : readFile? (write savedAt m) = some (1, m) := by
    rw [readFile?, json_read_write]
    show (do
      let version ← natBelow? (Nat.pow 2 32) (.natural 1)
      let _ ← text? (.text savedAt)
      return (version.toUInt32, ← readEntries? _)) = _
    rw [readEntries?_texts]
    rfl
  rw [read, hfile]
  rfl

end Cache

end CallGraph
