import CallGraph.Json.Model
import CallGraph.Proofs.Spelling

/-!
Nodes, edges, positions, kinds and ids in JSON read back.

A text is read in two steps: as a JSON value, and then as a record in this value. The relations
`NodeIn`, `EdgeIn`, `PositionIn` and `KindIn` say in which values a record stands. Most records stand
in many: the fields of an object come in any order and among others, or they are the items of an
array; a kind is a text or the name of a member; a position may be missing.

What is proved:
1. `fields?_eq_some_iff`: a record's fields are found in a value if and only if they stand there.
2. `readNode?_eq_some_iff` and its like: the readers find exactly the records that stand in a value.
3. `exists_spells_writeNode` and its like: a record is written as a text of a value it stands in.
4. `model_roundTrips`: from these, all five kinds of records read back from what is written for them
   and from every other text of a value they stand in, and to write what was read and to read it again
   changes nothing.
-/

namespace CallGraph.Json

/-! ## Fields -/

/-- The values of fields stand in a value: as the items of an array, or as members of an object, where
each field has one member or none. -/
inductive FieldsIn (names : List String) : List (Option Value) → Value → Prop where
  | items {items : List Value} (h : items.length = names.length) :
      FieldsIn names (items.map some) (.array items)
  | members {members : List (Option String × Value)} {values : List (Option Value)}
      (hnames : ∀ m ∈ members, m.1.isSome = true)
      (h : List.Forall₂ (fun name value =>
        (members.filter fun m => m.1 == some name).map Prod.snd = value.toList) names values) :
      FieldsIn names values (.object members)

/-- The value of a field is that of the last member with its name, which must be the only one. -/
theorem field_iff {name : String} {value : Option Value} {members : List (Option String × Value)} :
    (members.filter fun m => m.1 == some name).map Prod.snd = value.toList ↔
      (members.filter fun m => m.1 == some name).length ≤ 1 ∧ lastMember? name members = value := by
  rw [lastMember?, ← List.head?_filter, List.filter_reverse]
  generalize members.filter (fun m => m.1 == some name) = found
  -- no member with this name, one, or more
  rcases found with _ | ⟨m, _ | ⟨m', ms⟩⟩ <;> cases value <;> simp

theorem fieldsIn_object_iff {names : List String} {values : List (Option Value)}
    {members : List (Option String × Value)} :
    FieldsIn names values (.object members) ↔ (∀ m ∈ members, m.1.isSome = true) ∧
      (∀ name ∈ names, (members.filter fun m => m.1 == some name).length ≤ 1) ∧
      (names.map fun name => lastMember? name members) = values := by
  have hfields : List.Forall₂ (fun name value =>
      (members.filter fun m => m.1 == some name).map Prod.snd = value.toList) names values ↔
      (∀ name ∈ names, (members.filter fun m => m.1 == some name).length ≤ 1) ∧
        (names.map fun name => lastMember? name members) = values := by
    simp only [field_iff, List.forall₂_and_left]
    rw [← List.forall₂_eq_eq_eq, List.forall₂_map_left_iff]
  rw [← hfields]
  constructor
  · intro h
    cases h with
    | members hnames h => exact ⟨hnames, h⟩
  · rintro ⟨hnames, h⟩
    exact .members hnames h

theorem fields?_eq_some_iff {names : List String} {values : List (Option Value)} {v : Value} :
    fields? names v = some values ↔ FieldsIn names values v := by
  cases v with
  | array items =>
    simp only [fields?, beq_iff_eq, Option.ite_none_right_eq_some, Option.some.injEq]
    constructor
    · rintro ⟨hlength, rfl⟩
      exact .items hlength
    · intro h
      cases h with
      | items hlength => exact ⟨hlength, rfl⟩
  | object members =>
    simp only [fields?, fieldsIn_object_iff, Bool.and_eq_true, List.all_eq_true, decide_eq_true_eq,
      Option.ite_none_right_eq_some, Option.some.injEq, and_assoc]
  | _ =>
    constructor
    · intro h
      cases h
    · intro h
      cases h

/-! ## Parts of records -/

theorem natBelow?_eq_some_iff {bound n : Nat} {v : Value} :
    natBelow? bound v = some n ↔ v = .natural n ∧ n < bound := by
  cases v with
  | natural m =>
    simp only [natBelow?, Option.ite_none_right_eq_some, Option.some.injEq, Value.natural.injEq]
    constructor
    · rintro ⟨hlt, rfl⟩
      exact ⟨rfl, hlt⟩
    · rintro ⟨rfl, hlt⟩
      exact ⟨hlt, rfl⟩
  | _ => simp [natBelow?]

theorem text?_eq_some_iff {s : String} {v : Value} : text? v = some s ↔ v = .text s := by
  cases v <;> simp [text?]

theorem mapM_text?_eq_some_iff {items : List Value} {texts : List String} :
    items.mapM text? = some texts ↔ items = texts.map .text := by
  induction items generalizing texts with
  | nil => cases texts <;> simp
  | cons v items ih =>
    cases texts with
    | nil => simp [List.mapM_cons, Option.bind_eq_some_iff]
    | cons s texts => simp [List.mapM_cons, Option.bind_eq_some_iff, text?_eq_some_iff, ih]

theorem list?_text?_eq_some_iff {texts : List String} {v : Value} :
    list? text? v = some texts ↔ v = .array (texts.map .text) := by
  cases v <;> simp [list?, mapM_text?_eq_some_iff]

theorem readWord?_eq_some_iff {w : UInt32} {v : Value} :
    readWord? v = some w ↔ v = .natural w.toNat := by
  simp only [readWord?, Option.map_eq_some_iff, natBelow?_eq_some_iff]
  constructor
  · rintro ⟨n, ⟨rfl, hlt⟩, rfl⟩
    rw [Nat.toUInt32_eq, UInt32.toNat_ofNat_of_lt' hlt]
  · rintro rfl
    exact ⟨w.toNat, ⟨rfl, w.toNat_lt⟩, UInt32.ofNat_toNat⟩

/-! ## Records -/

/-- A kind stands in a value: as a text, or as the name of a member that is null. -/
inductive KindIn (k : NodeKind) : Value → Prop where
  | text : KindIn k (.text k.text)
  | member : KindIn k (.object [(some k.text, .null)])

def PositionIn (p : Position) (v : Value) : Prop :=
  FieldsIn positionFields [some (.natural p.file.toNat), some (.natural p.byte.toNat),
    some (.natural p.line.toNat)] v

/-- A position that may be missing stands in a field. -/
inductive OptionalPositionIn : Option Position → Option Value → Prop where
  | missing : OptionalPositionIn none none
  | null : OptionalPositionIn none (some .null)
  | value {p : Position} {v : Value} (h : PositionIn p v) : OptionalPositionIn (some p) (some v)

def EdgeIn (e : Edge) (v : Value) : Prop :=
  FieldsIn edgeFields [some (.natural e.source), some (.natural e.target)] v

inductive NodeIn (n : Node) (v : Value) : Prop where
  | mk {kind : Value} {position : Option Value} (hkind : KindIn n.kind kind)
      (hposition : OptionalPositionIn n.position position)
      (h : FieldsIn nodeFields [some (.natural n.id), some kind, some (.text n.name),
        some (.array (n.labels.map .text)), some (.text n.description), position] v)

theorem ofText?_eq_some_iff {s : String} {k : NodeKind} :
    NodeKind.ofText? s = some k ↔ s = k.text := by
  constructor
  · intro h
    rw [NodeKind.ofText?] at h
    have hfound := List.find?_some h
    exact (eq_of_beq hfound).symm
  · rintro rfl
    exact k.ofText?_text

theorem readKind?_eq_some_iff {k : NodeKind} {v : Value} : readKind? v = some k ↔ KindIn k v := by
  constructor
  · intro h
    unfold readKind? at h
    split at h
    · obtain rfl := ofText?_eq_some_iff.mp h
      exact .text
    · obtain rfl := ofText?_eq_some_iff.mp h
      exact .member
    · cases h
  · intro h
    cases h with
    | text => exact k.ofText?_text
    | member => exact k.ofText?_text

theorem readPosition?_eq_some_iff {p : Position} {v : Value} :
    readPosition? v = some p ↔ PositionIn p v := by
  constructor
  · intro h
    rw [readPosition?] at h
    split at h
    · next hfields =>
      simp only [Option.bind_eq_bind, Option.bind_eq_some_iff, Option.pure_def, Option.some.injEq,
        readWord?_eq_some_iff] at h
      obtain ⟨_, rfl, _, rfl, _, rfl, rfl⟩ := h
      exact fields?_eq_some_iff.mp hfields
    · cases h
  · intro h
    rw [readPosition?, fields?_eq_some_iff.mpr h]
    simp only [readWord?_eq_some_iff.mpr rfl, Option.bind_eq_bind, Option.bind_some,
      Option.pure_def]

theorem readEdge?_eq_some_iff {e : Edge} {v : Value} :
    readEdge? v = some e ↔ EdgeIn e v ∧ e.source < wordBound64 ∧ e.target < wordBound64 := by
  constructor
  · intro h
    rw [readEdge?] at h
    split at h
    · next hfields =>
      simp only [Option.bind_eq_bind, Option.bind_eq_some_iff, Option.pure_def, Option.some.injEq,
        readId?, natBelow?_eq_some_iff] at h
      obtain ⟨_, ⟨rfl, hsource⟩, _, ⟨rfl, htarget⟩, rfl⟩ := h
      exact ⟨fields?_eq_some_iff.mp hfields, hsource, htarget⟩
    · cases h
  · rintro ⟨h, hsource, htarget⟩
    rw [readEdge?, fields?_eq_some_iff.mpr h]
    simp only [readId?, natBelow?_eq_some_iff.mpr ⟨rfl, hsource⟩,
      natBelow?_eq_some_iff.mpr ⟨rfl, htarget⟩, Option.bind_eq_bind, Option.bind_some,
      Option.pure_def]

theorem optional?_readPosition?_eq_some_iff {o : Option Position} {field : Option Value} :
    optional? readPosition? field = some o ↔ OptionalPositionIn o field := by
  constructor
  · intro h
    unfold optional? at h
    split at h
    · cases h
      exact .missing
    · cases h
      exact .null
    · obtain ⟨p, hp, rfl⟩ := Option.map_eq_some_iff.mp h
      exact .value (readPosition?_eq_some_iff.mp hp)
  · intro h
    cases h with
    | missing => rfl
    | null => rfl
    | value h =>
      have hread := readPosition?_eq_some_iff.mpr h
      rw [optional?, hread]
      · rfl
      · rintro rfl
        exact absurd hread (by simp [readPosition?, fields?])

theorem readNode?_eq_some_iff {n : Node} {v : Value} :
    readNode? v = some n ↔ NodeIn n v ∧ n.id < wordBound64 := by
  constructor
  · intro h
    rw [readNode?] at h
    split at h
    · next hfields =>
      simp only [Option.bind_eq_bind, Option.bind_eq_some_iff, Option.pure_def, Option.some.injEq,
        readId?, natBelow?_eq_some_iff, readKind?_eq_some_iff, text?_eq_some_iff,
        list?_text?_eq_some_iff, optional?_readPosition?_eq_some_iff] at h
      obtain ⟨_, ⟨rfl, hid⟩, _, hkind, _, rfl, _, rfl, _, rfl, _, hposition, rfl⟩ := h
      exact ⟨⟨hkind, hposition, fields?_eq_some_iff.mp hfields⟩, hid⟩
    · cases h
  · rintro ⟨⟨hkind, hposition, h⟩, hid⟩
    rw [readNode?, fields?_eq_some_iff.mpr h]
    simp only [readId?, natBelow?_eq_some_iff.mpr ⟨rfl, hid⟩, readKind?_eq_some_iff.mpr hkind,
      text?_eq_some_iff.mpr rfl, list?_text?_eq_some_iff.mpr rfl,
      optional?_readPosition?_eq_some_iff.mpr hposition, Option.bind_eq_bind, Option.bind_some,
      Option.pure_def]

/-! ## Writing -/

theorem exists_spells_writeKind (k : NodeKind) : ∃ v, KindIn k v ∧ Spells v (writeKind k) :=
  ⟨.text k.text, .text, spells_writeText k.text⟩

theorem exists_spells_writePosition (p : Position) :
    ∃ v, PositionIn p v ∧ Spells v (writePosition p) :=
  ⟨_, fields?_eq_some_iff.mp rfl, spells_writeObject positionFields
    (.cons (.natural p.file.toNat) (.cons (.natural p.byte.toNat)
      (.cons (.natural p.line.toNat) .nil)))⟩

theorem exists_spells_writeEdge (e : Edge) : ∃ v, EdgeIn e v ∧ Spells v (writeEdge e) :=
  ⟨_, fields?_eq_some_iff.mp rfl, spells_writeObject edgeFields
    (.cons (.natural e.source) (.cons (.natural e.target) .nil))⟩

theorem exists_spells_optionalPosition (o : Option Position) :
    ∃ v, OptionalPositionIn o (some v) ∧ Spells v ((o.map writePosition).getD writeNull) := by
  cases o with
  | none => exact ⟨.null, .null, .null⟩
  | some p =>
    obtain ⟨v, hin, hv⟩ := exists_spells_writePosition p
    exact ⟨v, .value hin, hv⟩

theorem exists_spells_writeNode (n : Node) : ∃ v, NodeIn n v ∧ Spells v (writeNode n) := by
  obtain ⟨position, hposition, hspells⟩ := exists_spells_optionalPosition n.position
  exact ⟨_, ⟨.text, hposition, fields?_eq_some_iff.mp rfl⟩, spells_writeObject nodeFields
    (.cons (.natural n.id) (.cons (spells_writeText n.kind.text) (.cons (spells_writeText n.name)
      (.cons (spells_writeArray (spells_texts n.labels)) (.cons (spells_writeText n.description)
        (.cons hspells .nil))))))⟩

/-! ## Round trips -/

/-- What is asked of a reader and a writer of records, of which those that fit stand in some values:
records read back, from what is written for them and from every other text of such a value, and
nothing else is read. -/
structure RoundTrips {α : Type} (reader : Value → Option α) (writer : α → List Char)
    (In : α → Value → Prop) (Fits : α → Prop) : Prop where
  /-- A record reads back from what is written for it. -/
  read_written : ∀ a, Fits a → (read (String.ofList (writer a))).bind reader = some a
  /-- A record is read from each text of each value it stands in. -/
  accepts : ∀ a v cs, Fits a → In a v → SpellsItem v cs →
    (read (String.ofList cs)).bind reader = some a
  /-- What is read fits and stands in the value of the text. -/
  accepted : ∀ text a, (read text).bind reader = some a →
    Fits a ∧ ∃ v, read text = some v ∧ In a v
  /-- What was read from any text is read again from what is written for it, and then written as it
  was. -/
  rewritten : ∀ text a, (read text).bind reader = some a →
    ∃ b, (read (String.ofList (writer a))).bind reader = some b ∧ b = a ∧ writer b = writer a

theorem roundTrips {α : Type} {reader : Value → Option α} {writer : α → List Char}
    {In : α → Value → Prop} {Fits : α → Prop}
    (hreader : ∀ v a, reader v = some a ↔ In a v ∧ Fits a)
    (hwriter : ∀ a, ∃ v, In a v ∧ Spells v (writer a)) : RoundTrips reader writer In Fits := by
  have haccepts (a : α) (v : Value) (cs : List Char) (hfits : Fits a) (hin : In a v)
      (hcs : SpellsItem v cs) : (read (String.ofList cs)).bind reader = some a := by
    rw [read_of_spells hcs, Option.bind_some, hreader]
    exact ⟨hin, hfits⟩
  have hwritten (a : α) (hfits : Fits a) :
      (read (String.ofList (writer a))).bind reader = some a := by
    obtain ⟨v, hin, hv⟩ := hwriter a
    exact haccepts a v _ hfits hin hv.item
  have haccepted (text : String) (a : α) (h : (read text).bind reader = some a) :
      Fits a ∧ ∃ v, read text = some v ∧ In a v := by
    obtain ⟨v, hread, hv⟩ := Option.bind_eq_some_iff.mp h
    obtain ⟨hin, hfits⟩ := (hreader v a).mp hv
    exact ⟨hfits, v, hread, hin⟩
  exact ⟨hwritten, haccepts, haccepted, fun text a h =>
    ⟨a, hwritten a (haccepted text a h).1, rfl, rfl⟩⟩

/-- Nodes, edges, positions, kinds and ids are read from what is written for them, whatever their
names, labels and descriptions are, as long as ids are 64-bit words. They are also read from every
other text of a value they stand in, and from no other value: fields come in any order and among
others, or as the items of an array, a kind may be the name of a member, a position may be missing, and
there may be blanks and escapes. What was read from any text is the same when it is written and read
again, and so is its text. -/
theorem model_roundTrips :
    RoundTrips readNode? writeNode NodeIn (fun n => n.id < wordBound64) ∧
    RoundTrips readEdge? writeEdge EdgeIn
      (fun e => e.source < wordBound64 ∧ e.target < wordBound64) ∧
    RoundTrips readPosition? writePosition PositionIn (fun _ => True) ∧
    RoundTrips readKind? writeKind KindIn (fun _ => True) ∧
    RoundTrips readId? writeNat (fun id v => v = .natural id) (fun id => id < wordBound64) := by
  refine ⟨roundTrips ?_ exists_spells_writeNode, roundTrips ?_ exists_spells_writeEdge,
    roundTrips ?_ exists_spells_writePosition, roundTrips ?_ exists_spells_writeKind,
    roundTrips ?_ fun id => ⟨.natural id, rfl, .natural id⟩⟩
  · intro v n
    exact readNode?_eq_some_iff
  · intro v e
    exact readEdge?_eq_some_iff
  · intro v p
    rw [readPosition?_eq_some_iff, and_true]
  · intro v k
    rw [readKind?_eq_some_iff, and_true]
  · intro v id
    exact natBelow?_eq_some_iff

example : (read "\x7b \"position\":[1,2,3], \"x\":[\x7b\"y\":-1.5e3\x7d,true],
    \"description\":\"\\u00e9\\ud83d\\ude00\\n\", \"labels\":[\"a\",\"\\/\"], \"name\":\"f\",
    \"kind\":\x7b\"Call\":null\x7d, \"id\":7\x7d ").bind readNode? = some {
      id := 7, kind := .call, name := "f", labels := ["a", "/"], description := "é😀\n",
      position := some ⟨1, 2, 3⟩ } := by
  decide +kernel

end CallGraph.Json
