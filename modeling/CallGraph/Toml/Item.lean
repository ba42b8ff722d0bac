/-!
The values of a TOML document, and how a document is put together.

A table remembers how it came to be, because this decides who may add to it. A header opens a table
once; it may also open one that only stands in the path of an earlier header. A dotted key adds to
tables that dotted keys made, and to no other. An inline table is complete as it stands. A path that
meets an array of tables goes on in its last table.
-/

namespace CallGraph.Toml

/-- How a table came to be. -/
inductive Origin where
  /-- By its own header. -/
  | header
  /-- On the path of the header of another table. -/
  | path
  /-- On the path of a dotted key. -/
  | dotted
  /-- In braces. -/
  | inline
  deriving DecidableEq, Repr

/-- A TOML value. Numbers with a fraction and dates are valid but carry nothing. -/
inductive Item where
  | text (value : String)
  | integer (value : Int)
  | float
  | boolean (value : Bool)
  | date
  | array (items : List Item)
  | table (origin : Origin) (members : List (String × Item))
  /-- The tables that headers in double brackets opened. -/
  | tables (list : List (List (String × Item)))

abbrev Members := List (String × Item)

namespace Members

def get? (ms : Members) (key : String) : Option Item := (ms.find? fun m => m.1 == key).map Prod.snd

/-- Gives a key another value; a new key comes last. -/
def set : Members → String → Item → Members
  | [], key, item => [(key, item)]
  | m :: ms, key, item => if m.1 == key then (key, item) :: ms else m :: set ms key item

/-- Changes the last of some tables. -/
def changeLast (f : Members → Option Members) : List Members → Option (List Members)
  | [] => none
  | [t] => (f t).map fun u => [u]
  | t :: ts => (changeLast f ts).map fun us => t :: us

/-- Changes the table at the path of a header, making tables on the way. -/
def enter (change : Members → Option Members) : List String → Members → Option Members
  | [], ms => change ms
  | k :: ks, ms =>
    match ms.get? k with
    | none => (enter change ks []).map fun sub => ms.set k (.table .path sub)
    | some (.table .inline _) => none
    | some (.table origin sub) => (enter change ks sub).map fun sub => ms.set k (.table origin sub)
    | some (.tables ts) => (changeLast (enter change ks) ts).map fun ts => ms.set k (.tables ts)
    | some _ => none

def add (key : String) (item : Item) (ms : Members) : Option Members :=
  match ms.get? key with
  | none => some (ms.set key item)
  | some _ => none

/-- Gives the key at the end of a dotted path a value. -/
def assign (key : String) (item : Item) : List String → Members → Option Members
  | [], ms => ms.add key item
  | k :: ks, ms =>
    match ms.get? k with
    | none => (assign key item ks []).map fun sub => ms.set k (.table .dotted sub)
    | some (.table .dotted sub) =>
      (assign key item ks sub).map fun sub => ms.set k (.table .dotted sub)
    | some (.table .path sub) =>
      if ks.isEmpty then none
      else (assign key item ks sub).map fun sub => ms.set k (.table .path sub)
    | some (.tables ts) =>
      if ks.isEmpty then none
      else (changeLast (assign key item ks) ts).map fun ts => ms.set k (.tables ts)
    | some _ => none

def openTable (key : String) (ms : Members) : Option Members :=
  match ms.get? key with
  | none => some (ms.set key (.table .header []))
  | some (.table .path sub) => some (ms.set key (.table .header sub))
  | some _ => none

/-- Adds a table to an array of tables. -/
def openTables (key : String) (ms : Members) : Option Members :=
  match ms.get? key with
  | none => some (ms.set key (.tables [[]]))
  | some (.tables ts) => some (ms.set key (.tables (ts ++ [[]])))
  | some _ => none

end Members

end CallGraph.Toml
