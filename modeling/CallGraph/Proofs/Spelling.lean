import CallGraph.Json.Reader
import CallGraph.Json.Writer
import Mathlib.Data.List.Forall2

/-!
The texts that stand for a JSON value.

`Spells v cs` says that the characters `cs` are a text of the value `v`. A value has many texts: any
blanks stand between tokens, a character of a string stands as it is or behind one of its escapes,
and a number may have a sign, a fraction and an exponent. Strings that are no text, since half of a
surrogate pair stands alone in them, are left out.

What is proved:
1. `SpellsChars.readString`: each spelling of a string reads as its characters, surrogate pairs
   included.
2. `read_of_spells`: each text of a value reads as this value.
3. `spells_writeText`, `spells_writeArray`, `spells_writeObject`: what is written for a value is one
   of its texts.
-/

namespace CallGraph.Json

/-! ## The texts of a value -/

/-- Characters that may stand between tokens. -/
def Blank (cs : List Char) : Prop := ∀ c ∈ cs, isSpace c = true

/-- The escape of a code, by four digits in base sixteen. -/
def IsEscape (code : Nat) (cs : List Char) : Prop :=
  ∃ a b c d, cs = ['\\', 'u', a, b, c, d] ∧ Text.hexNumber? [a, b, c, d] = some code

/-- How a character may stand in a string. -/
inductive SpellsChar (c : Char) : List Char → Prop where
  | plain (hcontrol : 0x20 ≤ c.toNat) (hquote : c ≠ '"') (hslash : c ≠ '\\') : SpellsChar c [c]
  | short {e : Char} (h : shortEscape? e = some c) : SpellsChar c ['\\', e]
  | code {cs : List Char} (h : IsEscape c.toNat cs) : SpellsChar c cs
  | pair {high low : Nat} {cs ds : List Char} (hhigh : isHighHalf high = true)
      (hlow : isLowHalf low = true)
      (hc : c.toNat = 0x10000 + (high - 0xd800) * 0x400 + (low - 0xdc00))
      (hcs : IsEscape high cs) (hds : IsEscape low ds) : SpellsChar c (cs ++ ds)

/-- How characters may stand in a string, one after the other. -/
inductive SpellsChars : List Char → List Char → Prop where
  | nil : SpellsChars [] []
  | cons {c : Char} {s cs ds : List Char} (hc : SpellsChar c cs) (hs : SpellsChars s ds) :
      SpellsChars (c :: s) (cs ++ ds)

/-- Digits, of which there is at least one. -/
def IsDigits (cs : List Char) : Prop := cs ≠ [] ∧ ∀ c ∈ cs, c.isDigit = true

def IsFraction (cs : List Char) : Prop := ∃ ds, IsDigits ds ∧ cs = '.' :: ds

def IsExponent (cs : List Char) : Prop :=
  ∃ e sign ds, (e = 'e' ∨ e = 'E') ∧ (sign = [] ∨ sign = ['+'] ∨ sign = ['-']) ∧ IsDigits ds ∧
    cs = e :: (sign ++ ds)

/-- A number that has a sign, a fraction or an exponent. -/
def IsOtherNumber (cs : List Char) : Prop :=
  ∃ n sign fraction exponent, (sign = [] ∨ sign = ['-']) ∧ (fraction = [] ∨ IsFraction fraction) ∧
    (exponent = [] ∨ IsExponent exponent) ∧ sign ++ (fraction ++ exponent) ≠ [] ∧
    cs = sign ++ (writeNat n ++ (fraction ++ exponent))

/-- Things with commas between them, of which there is at least one. -/
inductive SpellsList {α : Type} (R : α → List Char → Prop) : List α → List Char → Prop where
  | last {a : α} {cs : List Char} (h : R a cs) : SpellsList R [a] cs
  | next {a : α} {as : List α} {cs ds : List Char} (h : R a cs) (hs : SpellsList R as ds) :
      SpellsList R (a :: as) (cs ++ ',' :: ds)

mutual

/-- Some characters are a text of a value. -/
inductive Spells : Value → List Char → Prop where
  | null : Spells .null ['n', 'u', 'l', 'l']
  | yes : Spells (.bool true) ['t', 'r', 'u', 'e']
  | no : Spells (.bool false) ['f', 'a', 'l', 's', 'e']
  | natural (n : Nat) : Spells (.natural n) (writeNat n)
  | number {cs : List Char} (h : IsOtherNumber cs) : Spells .number cs
  | text {s : String} {cs : List Char} (h : SpellsChars s.toList cs) :
      Spells (.text s) ('"' :: (cs ++ ['"']))
  | noItems {cs : List Char} (h : Blank cs) : Spells (.array []) ('[' :: (cs ++ [']']))
  | items {vs : List Value} {cs : List Char} (h : SpellsList SpellsItem vs cs) :
      Spells (.array vs) ('[' :: (cs ++ [']']))
  | noMembers {cs : List Char} (h : Blank cs) : Spells (.object []) ('\x7b' :: (cs ++ ['\x7d']))
  | members {ms : List (Option String × Value)} {cs : List Char} (h : SpellsList SpellsMember ms cs) :
      Spells (.object ms) ('\x7b' :: (cs ++ ['\x7d']))

/-- Some characters are a text of a value with blanks around it. -/
inductive SpellsItem : Value → List Char → Prop where
  | mk {v : Value} {before cs after : List Char} (hbefore : Blank before) (h : Spells v cs)
      (hafter : Blank after) : SpellsItem v (before ++ (cs ++ after))

/-- Some characters are a text of a member of an object: a name, a colon and a value. -/
inductive SpellsMember : Option String × Value → List Char → Prop where
  | mk {name : String} {v : Value} {before ns between cs : List Char} (hbefore : Blank before)
      (hname : SpellsChars name.toList ns) (hbetween : Blank between) (h : SpellsItem v cs) :
      SpellsMember (some name, v) (before ++ '"' :: (ns ++ '"' :: (between ++ ':' :: cs)))

end

/-! ## Reading strings -/

/-- No character is half of a surrogate pair. -/
theorem halves_toNat (c : Char) : isHighHalf c.toNat = false ∧ isLowHalf c.toNat = false := by
  have hvalid : c.toNat < 0xd800 ∨ 0xdfff < c.toNat ∧ c.toNat < 0x110000 := c.valid
  simp only [isHighHalf, isLowHalf, Bool.and_eq_false_iff, decide_eq_false_iff_not]
  omega

theorem readStringFrom_code {c : Char} {cs : List Char} (h : IsEscape c.toNat cs)
    (rest : List Char) : readStringFrom none (cs ++ rest) = (readStringFrom none rest).cons c := by
  obtain ⟨a, b, d, e, rfl, hcode⟩ := h
  obtain ⟨hhigh, hlow⟩ := halves_toNat c
  simp only [List.cons_append, List.nil_append]
  rw [readStringFrom]
  simp only [hcode, hhigh, hlow, Bool.false_eq_true, if_false, Char.ofNat_toNat]
  rfl

theorem readStringFrom_pair {high low : Nat} {cs ds : List Char} (hhigh : isHighHalf high = true)
    (hlow : isLowHalf low = true) (hcs : IsEscape high cs) (hds : IsEscape low ds)
    (rest : List Char) :
    readStringFrom none (cs ++ (ds ++ rest)) =
      (readStringFrom none rest).cons (pairChar high low) := by
  obtain ⟨a, b, d, e, rfl, hcode⟩ := hcs
  obtain ⟨a', b', d', e', rfl, hcode'⟩ := hds
  have hnot : isHighHalf low = false := by
    simp only [isHighHalf, isLowHalf, Bool.and_eq_true, Bool.and_eq_false_iff, decide_eq_true_eq,
      decide_eq_false_iff_not] at hlow ⊢
    omega
  simp only [List.cons_append, List.nil_append]
  rw [readStringFrom]
  simp only [hcode, hhigh, if_true]
  rw [readStringFrom]
  simp only [hcode', hnot, hlow, Bool.false_eq_true, if_false, if_true]
  rfl

/-- A character reads back from each of its spellings. -/
theorem SpellsChar.readStringFrom {c : Char} {cs : List Char} (h : SpellsChar c cs)
    (rest : List Char) :
    Json.readStringFrom none (cs ++ rest) = (Json.readStringFrom none rest).cons c := by
  cases h with
  | plain hcontrol hquote hslash =>
    rw [List.singleton_append, Json.readStringFrom]
    · rw [if_neg (by omega)]
      rfl
    · exact hquote
    · intro _ _ _ _ _ h _; exact hslash h
    · intro _ _ h _; exact hslash h
  | short h =>
    unfold shortEscape? at h
    split at h <;> cases h <;> rfl
  | code h => exact readStringFrom_code h rest
  | pair hhigh hlow hc hcs hds =>
    rw [List.append_assoc, readStringFrom_pair hhigh hlow hcs hds, pairChar, ← hc,
      Char.ofNat_toNat]

theorem SpellsChars.readString {s cs : List Char} (h : SpellsChars s cs) (rest : List Char) :
    Json.readString (cs ++ '"' :: rest) = some (some s, rest) := by
  rw [Json.readString]
  induction h with
  | nil => rfl
  | cons hc _ ih =>
    rw [List.append_assoc, hc.readStringFrom, ih]
    rfl

/-! ## Reading numbers -/

/-- What may stand after a value: nothing that could belong to a number. -/
def Ended (rest : List Char) : Prop :=
  ∀ c ∈ rest.head?, c.isDigit = false ∧ c ≠ '.' ∧ c ≠ 'e' ∧ c ≠ 'E'

theorem spanDigits_append {ds rest : List Char} (hds : ∀ d ∈ ds, d.isDigit = true)
    (hrest : ∀ c ∈ rest.head?, c.isDigit = false) : spanDigits (ds ++ rest) = (ds, rest) := by
  rw [spanDigits, List.takeWhile_append_of_pos hds, List.dropWhile_append_of_pos hds]
  cases rest with
  | nil => simp
  | cons c cs => simp [hrest c rfl]

theorem writeNat_eq (n : Nat) : writeNat n = Nat.toDigits 10 n := Nat.toList_repr

theorem isDigit_of_mem_writeNat {n : Nat} {c : Char} (h : c ∈ writeNat n) : c.isDigit = true :=
  Nat.isDigit_of_mem_toDigits (by decide) (by decide) (writeNat_eq n ▸ h)

/-- A number other than zero starts with another digit. -/
theorem exists_writeNat_eq_cons {n : Nat} (h : n ≠ 0) :
    ∃ d ds, writeNat n = d :: ds ∧ d ≠ '0' := by
  simp only [writeNat_eq]
  induction n using Nat.strongRecOn with
  | _ n ih =>
    by_cases hlt : n < 10
    · exact ⟨_, [], Nat.toDigits_of_lt_base hlt, fun h0 => h (Nat.digitChar_eq_zero.mp h0)⟩
    · obtain ⟨d, ds, hds, hd⟩ := ih (n / 10) (by omega) (by omega)
      exact ⟨d, _, by rw [Nat.toDigits_of_base_le (by decide) (by omega), hds, List.cons_append], hd⟩

theorem digitsValue_writeNat (n : Nat) : digitsValue (writeNat n) = n := by
  have h : digitsValue (writeNat n) = Nat.ofDigitChars 10 (writeNat n) 0 := by
    simp only [digitsValue, Nat.ofDigitChars, Nat.mul_comm]
  rw [h, writeNat_eq, Nat.ofDigitChars_toDigits (by decide) (by decide)]

theorem readWhole_writeNat (n : Nat) {rest : List Char}
    (hrest : ∀ c ∈ rest.head?, c.isDigit = false) :
    readWhole (writeNat n ++ rest) = some (writeNat n, rest) := by
  have hspan := spanDigits_append (fun d hd => isDigit_of_mem_writeNat (n := n) hd) hrest
  by_cases h : n = 0
  · subst h
    rfl
  · obtain ⟨d, ds, hds, hd⟩ := exists_writeNat_eq_cons h
    rw [hds, List.cons_append] at hspan ⊢
    rw [readWhole, hspan]
    intro _ h0
    exact hd (List.cons.inj h0).1

theorem readFraction_append {cs rest : List Char} (h : cs = [] ∨ IsFraction cs)
    (hrest : ∀ c ∈ rest.head?, c.isDigit = false ∧ c ≠ '.') :
    readFraction (cs ++ rest) = some (!cs.isEmpty, rest) := by
  rcases h with rfl | ⟨ds, ⟨hne, hds⟩, rfl⟩
  · cases rest with
    | nil => rfl
    | cons c rest =>
      rw [List.nil_append, readFraction]
      · rfl
      · intro _ hc
        exact (hrest c rfl).2 (List.cons.inj hc).1
  · rw [List.cons_append, readFraction, spanDigits_append hds fun c hc => (hrest c hc).1]
    cases ds with
    | nil => exact absurd rfl hne
    | cons d ds => rfl

theorem readExponent_append {cs rest : List Char} (h : cs = [] ∨ IsExponent cs)
    (hrest : Ended rest) : readExponent (cs ++ rest) = some (!cs.isEmpty, rest) := by
  rcases h with rfl | ⟨e, sign, ds, he, hsign, ⟨hne, hds⟩, rfl⟩
  · cases rest with
    | nil => rfl
    | cons c rest =>
      obtain ⟨_, _, he, hE⟩ := hrest c rfl
      simp [readExponent, he, hE]
  · obtain ⟨d, ds, rfl⟩ := List.exists_cons_of_ne_nil hne
    have hspan : spanDigits (d :: (ds ++ rest)) = (d :: ds, rest) :=
      spanDigits_append hds fun c hc => (hrest c hc).1
    have hd : d.isDigit = true := hds d List.mem_cons_self
    have hplus : d ≠ '+' := by rintro rfl; exact absurd hd (by decide)
    have hminus : d ≠ '-' := by rintro rfl; exact absurd hd (by decide)
    have hmark : (e == 'e' || e == 'E') = true := by simpa using he
    rcases hsign with rfl | rfl | rfl
    · simp [readExponent, hmark, hspan, hplus, hminus]
    · simp [readExponent, hmark, hspan]
    · simp [readExponent, hmark, hspan]

theorem readUnsigned_append (n : Nat) {fraction exponent rest : List Char}
    (hfraction : fraction = [] ∨ IsFraction fraction)
    (hexponent : exponent = [] ∨ IsExponent exponent) (hrest : Ended rest) :
    readUnsigned (writeNat n ++ (fraction ++ (exponent ++ rest))) =
      some (if fraction ++ exponent = [] then .natural n else .number, rest) := by
  have hafter : ∀ c ∈ (exponent ++ rest).head?, c.isDigit = false ∧ c ≠ '.' := by
    intro c hc
    rcases hexponent with rfl | ⟨e, sign, ds, he, _, _, rfl⟩
    · exact ⟨(hrest c hc).1, (hrest c hc).2.1⟩
    · obtain rfl : e = c := by simpa using hc
      rcases he with rfl | rfl <;> decide
  have hwhole : ∀ c ∈ (fraction ++ (exponent ++ rest)).head?, c.isDigit = false := by
    intro c hc
    rcases hfraction with rfl | ⟨ds, _, rfl⟩
    · exact (hafter c hc).1
    · obtain rfl : '.' = c := by simpa using hc
      decide
  simp only [readUnsigned, readWhole_writeNat n hwhole, readFraction_append hfraction hafter,
    readExponent_append hexponent hrest, digitsValue_writeNat, Option.bind_eq_bind, Option.bind_some]
  cases fraction <;> cases exponent <;> rfl

theorem exists_writeNat_eq_digit (n : Nat) : ∃ d ds, writeNat n = d :: ds ∧ d.isDigit = true := by
  have hne : writeNat n ≠ [] := writeNat_eq n ▸ Nat.toDigits_ne_nil
  obtain ⟨d, ds, hds⟩ := List.exists_cons_of_ne_nil hne
  exact ⟨d, ds, hds, isDigit_of_mem_writeNat (hds ▸ List.mem_cons_self)⟩

/-! ## Reading values -/

theorem blank_nil : Blank [] := fun _ h => absurd h List.not_mem_nil

theorem Blank.skipSpaces {ws : List Char} (h : Blank ws) (cs : List Char) :
    Json.skipSpaces (ws ++ cs) = Json.skipSpaces cs :=
  List.dropWhile_append_of_pos h

theorem skipSpaces_of_not_space {c : Char} (h : isSpace c = false) (cs : List Char) :
    skipSpaces (c :: cs) = c :: cs := by
  simp [skipSpaces, h]

theorem isSpace_eq_false_of_isDigit {c : Char} (h : c.isDigit = true) : isSpace c = false := by
  cases hspace : isSpace c with
  | false => rfl
  | true =>
    simp only [isSpace, Bool.or_eq_true, beq_iff_eq] at hspace
    rcases hspace with ((rfl | rfl) | rfl) | rfl <;> exact absurd h (by decide)

theorem readValue_number {c : Char} (h : c.isDigit = true ∨ c = '-') (n : Nat) (cs : List Char) :
    readValue (n + 1) (c :: cs) = readNumber (c :: cs) := by
  have hspace : isSpace c = false := by
    rcases h with h | rfl
    · exact isSpace_eq_false_of_isDigit h
    · decide
  have hne (x : Char) (hx : x.isDigit = false ∧ x ≠ '-') : c ≠ x := by
    rintro rfl
    rcases h with h | h
    · exact absurd h (by simp [hx.1])
    · exact hx.2 h
  rw [readValue, skipSpaces_of_not_space hspace]
  -- no other value starts with a digit or a sign
  split <;> first
    | rfl
    | next heq => exact absurd (List.cons.inj heq).1 (hne _ (by decide))

theorem readValue_writeNat (n k : Nat) (rest : List Char) :
    readValue (n + 1) (writeNat k ++ rest) = readUnsigned (writeNat k ++ rest) := by
  obtain ⟨d, ds, hds, hd⟩ := exists_writeNat_eq_digit k
  rw [hds, List.cons_append, readValue_number (.inl hd), readNumber]
  rintro _ heq
  rw [(List.cons.inj heq).1] at hd
  exact absurd hd (by decide)

theorem readValue_quote (n : Nat) (cs : List Char) :
    readValue (n + 1) ('"' :: cs) = readText cs := by
  rw [readValue]; rfl

theorem readValue_blank {ws : List Char} (h : Blank ws) (n : Nat) (cs : List Char) :
    readValue n (ws ++ cs) = readValue n cs := by
  cases n with
  | zero => rfl
  | succ n => rw [readValue, readValue, h.skipSpaces]

theorem readItems_blank {ws : List Char} (h : Blank ws) (n : Nat) (cs : List Char) :
    readItems n (ws ++ cs) = readItems n cs := by
  cases n with
  | zero => rfl
  | succ n => rw [readItems, readItems, readValue_blank h]

theorem readName_blank {ws : List Char} (h : Blank ws) (cs : List Char) :
    readName (ws ++ cs) = readName cs := by
  rw [readName, readName, h.skipSpaces]

/-- A name with a colon after it reads back from each of its spellings. -/
theorem readName_append {name : String} {before ns between : List Char} (hbefore : Blank before)
    (hname : SpellsChars name.toList ns) (hbetween : Blank between) (rest : List Char) :
    readName (before ++ '"' :: (ns ++ '"' :: (between ++ ':' :: rest))) =
      some (some name, rest) := by
  rw [readName_blank hbefore, readName, skipSpaces_of_not_space (by decide)]
  simp only [hname.readString, hbetween.skipSpaces, skipSpaces_of_not_space (c := ':') (by decide),
    Option.map_some, String.ofList_toList]

theorem readMembers_blank {ws : List Char} (h : Blank ws) (n : Nat) (cs : List Char) :
    readMembers n (ws ++ cs) = readMembers n cs := by
  cases n with
  | zero => rfl
  | succ n => rw [readMembers, readMembers, readName_blank h]

/-- Each text of a value starts with a character of a token, which does not close an array. -/
theorem Spells.exists_eq_cons {v : Value} {cs : List Char} (h : Spells v cs) :
    ∃ c ds, cs = c :: ds ∧ isSpace c = false ∧ c ≠ ']' := by
  have hdigit {c : Char} (hc : c.isDigit = true) : isSpace c = false ∧ c ≠ ']' :=
    ⟨isSpace_eq_false_of_isDigit hc, by rintro rfl; exact absurd hc (by decide)⟩
  cases h with
  | natural n =>
    obtain ⟨d, ds, hds, hd⟩ := exists_writeNat_eq_digit n
    exact ⟨d, ds, hds, hdigit hd⟩
  | number h =>
    obtain ⟨n, sign, fraction, exponent, hsign, _, _, _, rfl⟩ := h
    rcases hsign with rfl | rfl
    · obtain ⟨d, ds, hds, hd⟩ := exists_writeNat_eq_digit n
      exact ⟨d, _, by rw [hds]; rfl, hdigit hd⟩
    · exact ⟨_, _, rfl, by decide⟩
  | _ => exact ⟨_, _, rfl, by decide⟩

theorem SpellsList.exists_first {α : Type} {R : α → List Char → Prop} {as : List α}
    {cs : List Char} (h : SpellsList R as cs) : ∃ a ds tail, R a ds ∧ cs = ds ++ tail := by
  cases h with
  | last h => exact ⟨_, cs, [], h, (List.append_nil cs).symm⟩
  | next h _ => exact ⟨_, _, _, h, rfl⟩

theorem readValue_items {vs : List Value} {cs : List Char} (h : SpellsList SpellsItem vs cs)
    (n : Nat) (rest : List Char) :
    readValue (n + 1) ('[' :: (cs ++ rest)) =
      (readItems n (cs ++ rest)).map fun p => (.array p.1, p.2) := by
  obtain ⟨v, _, tail, ⟨hbefore, hv, _⟩, rfl⟩ := h.exists_first
  obtain ⟨c, ds, rfl, hspace, hne⟩ := hv.exists_eq_cons
  simp only [List.append_assoc, List.cons_append, readItems_blank hbefore]
  rw [readValue, skipSpaces_of_not_space (by decide)]
  simp only [hbefore.skipSpaces, skipSpaces_of_not_space hspace]
  split
  · next heq => exact absurd (List.cons.inj heq).1 hne
  · rfl

theorem readValue_members {ms : List (Option String × Value)} {cs : List Char}
    (h : SpellsList SpellsMember ms cs) (n : Nat) (rest : List Char) :
    readValue (n + 1) ('\x7b' :: (cs ++ rest)) =
      (readMembers n (cs ++ rest)).map fun p => (.object p.1, p.2) := by
  obtain ⟨m, _, tail, ⟨hbefore, _, _, _⟩, rfl⟩ := h.exists_first
  simp only [List.append_assoc, List.cons_append, readMembers_blank hbefore]
  rw [readValue, skipSpaces_of_not_space (by decide)]
  simp only [hbefore.skipSpaces, skipSpaces_of_not_space (c := '"') (by decide)]
  rfl

theorem ended_nil : Ended [] := fun _ h => absurd h (by simp)

theorem ended_cons {c : Char} (hc : c = ',' ∨ c = ']' ∨ c = '\x7d') (rest : List Char) :
    Ended (c :: rest) := by
  intro x hx
  obtain rfl : c = x := by simpa using hx
  rcases hc with rfl | rfl | rfl <;> decide

theorem Blank.ended {ws rest : List Char} (h : Blank ws) (hrest : Ended rest) :
    Ended (ws ++ rest) := by
  cases ws with
  | nil => exact hrest
  | cons w ws =>
    intro x hx
    obtain rfl : w = x := by simpa using hx
    have hspace := h w List.mem_cons_self
    simp only [isSpace, Bool.or_eq_true, beq_iff_eq] at hspace
    rcases hspace with ((rfl | rfl) | rfl) | rfl <;> decide

/-- The readers with some depth read each text that is no longer. -/
structure ReadsTo (n : Nat) : Prop where
  value : ∀ {v cs}, Spells v cs → cs.length ≤ n → ∀ {rest}, Ended rest →
    readValue n (cs ++ rest) = some (v, rest)
  items : ∀ {vs cs}, SpellsList SpellsItem vs cs → cs.length < n → ∀ rest,
    readItems n (cs ++ ']' :: rest) = some (vs, rest)
  members : ∀ {ms cs}, SpellsList SpellsMember ms cs → cs.length < n → ∀ rest,
    readMembers n (cs ++ '\x7d' :: rest) = some (ms, rest)

namespace ReadsTo

variable {n : Nat}

theorem item (h : ReadsTo n) {v : Value} {cs : List Char} (hv : SpellsItem v cs)
    (hn : cs.length ≤ n) {c : Char} (hc : c = ',' ∨ c = ']' ∨ c = '\x7d') (rest : List Char) :
    ∃ after, Blank after ∧ readValue n (cs ++ c :: rest) = some (v, after ++ c :: rest) := by
  obtain ⟨hbefore, hv, hafter⟩ := hv
  refine ⟨_, hafter, ?_⟩
  rw [List.append_assoc, readValue_blank hbefore, List.append_assoc]
  exact h.value hv (by simp only [List.length_append] at hn; omega) (hafter.ended (ended_cons hc rest))

theorem items_succ (h : ReadsTo n) {vs : List Value} {cs : List Char}
    (hvs : SpellsList SpellsItem vs cs) (hn : cs.length ≤ n) (rest : List Char) :
    readItems (n + 1) (cs ++ ']' :: rest) = some (vs, rest) := by
  cases hvs with
  | last hv =>
    obtain ⟨after, hafter, hread⟩ := h.item hv hn (.inr (.inl rfl)) rest
    rw [readItems, hread]
    simp only [hafter.skipSpaces, skipSpaces_of_not_space (c := ']') (by decide)]
  | @next v vs cs ds hv hs =>
    simp only [List.length_append, List.length_cons] at hn
    obtain ⟨after, hafter, hread⟩ := h.item hv (by omega) (.inl rfl) (ds ++ ']' :: rest)
    rw [List.append_assoc, List.cons_append, readItems, hread]
    simp only [hafter.skipSpaces, skipSpaces_of_not_space (c := ',') (by decide)]
    rw [h.items hs (by omega)]
    rfl

theorem members_succ (h : ReadsTo n) {ms : List (Option String × Value)} {cs : List Char}
    (hms : SpellsList SpellsMember ms cs) (hn : cs.length ≤ n) (rest : List Char) :
    readMembers (n + 1) (cs ++ '\x7d' :: rest) = some (ms, rest) := by
  cases hms with
  | last hm =>
    obtain ⟨hbefore, hname, hbetween, hv⟩ := hm
    simp only [List.length_append, List.length_cons] at hn
    obtain ⟨after, hafter, hread⟩ := h.item hv (by omega) (.inr (.inr rfl)) rest
    simp only [List.append_assoc, List.cons_append]
    rw [readMembers, readName_append hbefore hname hbetween]
    simp only [hread, hafter.skipSpaces, skipSpaces_of_not_space (c := '\x7d') (by decide)]
  | @next m ms cs ds hm hs =>
    obtain ⟨hbefore, hname, hbetween, hv⟩ := hm
    simp only [List.length_append, List.length_cons] at hn
    obtain ⟨after, hafter, hread⟩ := h.item hv (by omega) (.inl rfl) (ds ++ '\x7d' :: rest)
    simp only [List.append_assoc, List.cons_append]
    rw [readMembers, readName_append hbefore hname hbetween]
    simp only [hread, hafter.skipSpaces, skipSpaces_of_not_space (c := ',') (by decide)]
    rw [h.members hs (by omega)]
    rfl

theorem value_succ (h : ReadsTo n) {v : Value} {cs : List Char} (hv : Spells v cs)
    (hn : cs.length ≤ n + 1) {rest : List Char} (hrest : Ended rest) :
    readValue (n + 1) (cs ++ rest) = some (v, rest) := by
  cases hv with
  | null => rfl
  | yes => rfl
  | no => rfl
  | natural k =>
    have hread := readUnsigned_append k (.inl rfl) (.inl rfl) hrest
    rw [List.append_nil, if_pos rfl] at hread
    rw [readValue_writeNat]
    exact hread
  | number h =>
    obtain ⟨k, sign, fraction, exponent, hsign, hfraction, hexponent, hne, rfl⟩ := h
    have hread := readUnsigned_append k hfraction hexponent hrest
    simp only [List.append_assoc]
    rcases hsign with rfl | rfl
    · rw [List.nil_append] at hne ⊢
      rw [readValue_writeNat, hread, if_neg hne]
    · rw [List.singleton_append, readValue_number (.inr rfl), readNumber, hread]
      rfl
  | text hs =>
    simp only [List.cons_append, List.append_assoc, List.nil_append, readValue_quote, readText,
      hs.readString, Option.map_some, String.ofList_toList]
  | noItems hws =>
    simp only [List.cons_append, List.append_assoc, List.nil_append, readValue,
      skipSpaces_of_not_space (c := '[') (by decide), hws.skipSpaces,
      skipSpaces_of_not_space (c := ']') (by decide)]
  | items hvs =>
    simp only [List.length_cons, List.length_append, List.length_nil] at hn
    rw [List.cons_append, List.append_assoc, readValue_items hvs, List.singleton_append,
      h.items hvs (by omega)]
    rfl
  | noMembers hws =>
    simp only [List.cons_append, List.append_assoc, List.nil_append, readValue,
      skipSpaces_of_not_space (c := '\x7b') (by decide), hws.skipSpaces,
      skipSpaces_of_not_space (c := '\x7d') (by decide)]
  | members hms =>
    simp only [List.length_cons, List.length_append, List.length_nil] at hn
    rw [List.cons_append, List.append_assoc, readValue_members hms, List.singleton_append,
      h.members hms (by omega)]
    rfl

end ReadsTo

/-- Each step into a value takes at least one character, so the length of a text is depth enough. -/
theorem readsTo (n : Nat) : ReadsTo n := by
  induction n with
  | zero =>
    constructor
    · intro v cs hv hn
      obtain ⟨c, ds, rfl, _⟩ := hv.exists_eq_cons
      exact absurd hn (by simp)
    · intro _ _ _ hn
      exact absurd hn (Nat.not_lt_zero _)
    · intro _ _ _ hn
      exact absurd hn (Nat.not_lt_zero _)
  | succ n ih =>
    constructor
    · intro v cs hv hn rest hrest
      exact ih.value_succ hv hn hrest
    · intro vs cs hvs hn rest
      exact ih.items_succ hvs (Nat.le_of_lt_succ hn) rest
    · intro ms cs hms hn rest
      exact ih.members_succ hms (Nat.le_of_lt_succ hn) rest

/-- Each text of a value reads as this value, blanks around it included. -/
theorem read_of_spells {v : Value} {cs : List Char} (h : SpellsItem v cs) :
    read (String.ofList cs) = some v := by
  cases h with
  | @mk v before cs after hbefore hv hafter =>
    have hn : cs.length ≤ 2 * (before ++ (cs ++ after)).length + 2 := by
      simp only [List.length_append]
      omega
    have hread := (readsTo _).value hv hn (hafter.ended ended_nil)
    have hend := hafter.skipSpaces []
    rw [List.append_nil] at hread hend
    rw [read, String.toList_ofList, readValue_blank hbefore]
    simp only [hread, hend]
    rfl

/-! ## Writing -/

theorem hexDigit?_hexDigit : ∀ n, n < 16 → Text.hexDigit? (hexDigit n) = some n := by decide

theorem isEscape_control {n : Nat} (h : n < 0x20) :
    IsEscape n ['\\', 'u', '0', '0', hexDigit (n / 16), hexDigit (n % 16)] := by
  have h0 : Text.hexDigit? '0' = some 0 := by decide
  have h1 := hexDigit?_hexDigit (n / 16) (by omega)
  have h2 := hexDigit?_hexDigit (n % 16) (by omega)
  refine ⟨_, _, _, _, rfl, ?_⟩
  simp only [Text.hexNumber?, Text.hexNumberFrom?, h0, h1, h2, Option.some.injEq]
  omega

/-- The cases are those of `escapeChar`. -/
theorem spellsChar_escapeChar (c : Char) : SpellsChar c (escapeChar c) := by
  unfold escapeChar
  split
  · next h => rw [eq_of_beq h]; exact .short rfl
  next hquote =>
  split
  · next h => rw [eq_of_beq h]; exact .short rfl
  next hslash =>
  split
  · next h => exact .plain h (by simpa using hquote) (by simpa using hslash)
  next hcontrol =>
  split
  · next h => rw [eq_of_beq h]; exact .short rfl
  split
  · next h => rw [eq_of_beq h]; exact .short rfl
  split
  · next h => rw [eq_of_beq h]; exact .short rfl
  split
  · next h => rw [eq_of_beq h]; exact .short rfl
  split
  · next h => rw [eq_of_beq h]; exact .short rfl
  -- every other control character is written by its code
  exact .code (isEscape_control (by omega))

theorem spellsChars_written (s : List Char) : SpellsChars s (s.flatMap escapeChar) := by
  induction s with
  | nil => exact .nil
  | cons c s ih => exact .cons (spellsChar_escapeChar c) ih

theorem spells_writeText (s : String) : Spells (.text s) (writeText s) :=
  .text (spellsChars_written s.toList)

theorem Spells.item {v : Value} {cs : List Char} (h : Spells v cs) : SpellsItem v cs := by
  simpa using SpellsItem.mk blank_nil h blank_nil

theorem separated_singleton (a : List Char) : separated [a] = a := by
  simp [separated, List.intercalate, List.intersperse]

theorem separated_cons (a b : List Char) (l : List (List Char)) :
    separated (a :: b :: l) = a ++ ',' :: separated (b :: l) := by
  simp [separated, List.intercalate, List.intersperse]

theorem spellsList_separated {α : Type} {R : α → List Char → Prop} {as : List α}
    {parts : List (List Char)} (h : List.Forall₂ R as parts) (hne : as ≠ []) :
    SpellsList R as (separated parts) := by
  induction h with
  | nil => exact absurd rfl hne
  | cons h hs ih =>
    cases hs with
    | nil =>
      rw [separated_singleton]
      exact .last h
    | cons h' hs =>
      rw [separated_cons]
      exact .next h (ih (List.cons_ne_nil _ _))

theorem spells_texts (texts : List String) :
    List.Forall₂ Spells (texts.map .text) (texts.map writeText) := by
  rw [List.forall₂_map_left_iff, List.forall₂_map_right_iff, List.forall₂_same]
  exact fun s _ => spells_writeText s

theorem spells_writeArray {values : List Value} {parts : List (List Char)}
    (h : List.Forall₂ Spells values parts) : Spells (.array values) (writeArray parts) := by
  cases h with
  | nil => exact .noItems blank_nil
  | cons h hs =>
    have hitems := (List.Forall₂.cons h hs).imp fun _ _ h => h.item
    exact .items (spellsList_separated hitems (List.cons_ne_nil _ _))

theorem spellsMember_writeMember (name : String) {v : Value} {cs : List Char} (h : Spells v cs) :
    SpellsMember (some name, v) (writeMember (name, cs)) := by
  have hmember := SpellsMember.mk blank_nil (spellsChars_written name.toList) blank_nil h.item
  simpa [writeMember, writeText] using hmember

theorem spells_members (names : List String) {values : List Value} {parts : List (List Char)}
    (h : List.Forall₂ Spells values parts) :
    List.Forall₂ SpellsMember ((names.map some).zip values)
      ((names.zip parts).map writeMember) := by
  induction h generalizing names with
  | nil => simp
  | cons h _ ih =>
    cases names with
    | nil => exact .nil
    | cons name names => exact .cons (spellsMember_writeMember name h) (ih names)

theorem spells_writeObject (names : List String) {values : List Value} {parts : List (List Char)}
    (h : List.Forall₂ Spells values parts) :
    Spells (.object ((names.map some).zip values)) (writeObject (names.zip parts)) := by
  have hmembers := spells_members names h
  rw [writeObject]
  cases hms : (names.map some).zip values with
  | nil =>
    rw [hms, List.forall₂_nil_left_iff] at hmembers
    rw [hmembers]
    exact .noMembers blank_nil
  | cons m ms =>
    rw [hms] at hmembers
    exact .members (spellsList_separated hmembers (List.cons_ne_nil _ _))

end CallGraph.Json
