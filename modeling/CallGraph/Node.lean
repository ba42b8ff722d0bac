/-!
Nodes and edges of a call graph.

A node stands for one construct of the sources: a file, a container, a declaration or a call
site. Its id is issued by the graph that holds it, so ids order the nodes of one graph by the time
of their insertion. An edge is an ordered pair of ids.
-/

namespace CallGraph

/-- How the id of a node is written in every output. -/
def idText (id : Nat) : String := "n" ++ Nat.repr id

/-- The construct a node stands for. -/
inductive NodeKind where
  | function
  | method
  | associatedFunction
  | call
  | methodCall
  | file
  | module
  | impl
  | trait
  | unknown
  deriving DecidableEq, Repr, Inhabited

/-- Every kind, in the order of declaration. -/
def NodeKind.all : List NodeKind :=
  [.function, .method, .associatedFunction, .call, .methodCall, .file, .module, .impl, .trait,
    .unknown]

def NodeKind.text : NodeKind → String
  | .function => "Function"
  | .method => "Method"
  | .associatedFunction => "AssociatedFunction"
  | .call => "Call"
  | .methodCall => "MethodCall"
  | .file => "File"
  | .module => "Module"
  | .impl => "Impl"
  | .trait => "Trait"
  | .unknown => "Unknown"

def NodeKind.ofText? (s : String) : Option NodeKind :=
  NodeKind.all.find? (fun k => k.text == s)

theorem NodeKind.ofText?_text (k : NodeKind) : NodeKind.ofText? k.text = some k := by
  cases k <;> decide

/-- Where a node comes from: the index of its file in the build input, the offset of its first
byte in that file, and its line, counted from one. All three are 32-bit words. -/
structure Position where
  file : UInt32
  byte : UInt32
  line : UInt32
  deriving DecidableEq, Repr, Inhabited

/-- Positions are ordered by file, then byte, then line. -/
def Position.lt (p q : Position) : Bool :=
  p.file < q.file || p.file == q.file &&
    (p.byte < q.byte || p.byte == q.byte && p.line < q.line)

/-- A node of a call graph. The labels are the argument labels of a declaration or call site, in
order; the description is what is drawn. -/
structure Node where
  id : Nat := 0
  kind : NodeKind
  name : String
  labels : List String := []
  description : String := name
  position : Option Position := none
  deriving DecidableEq, Repr, Inhabited

structure Edge where
  source : Nat
  target : Nat
  deriving DecidableEq, Repr, Inhabited

namespace Edge

/-- Edges are ordered by source, then target. -/
def Lt (a b : Edge) : Prop :=
  a.source < b.source ∨ a.source = b.source ∧ a.target < b.target

instance : LT Edge := ⟨Lt⟩

theorem lt_def {a b : Edge} :
    a < b ↔ a.source < b.source ∨ a.source = b.source ∧ a.target < b.target := Iff.rfl

instance (a b : Edge) : Decidable (a < b) := decidable_of_iff _ lt_def.symm

theorem lt_irrefl (a : Edge) : ¬ a < a := by
  rw [lt_def]; omega

theorem lt_trans {a b c : Edge} (hab : a < b) (hbc : b < c) : a < c := by
  rw [lt_def] at *; omega

theorem lt_or_eq_or_gt (a b : Edge) : a < b ∨ a = b ∨ b < a := by
  rcases a with ⟨s, t⟩
  rcases b with ⟨s', t'⟩
  simp only [lt_def, Edge.mk.injEq]
  omega

def compare (a b : Edge) : Ordering :=
  if a < b then .lt else if a = b then .eq else .gt

/-- Whether the edge leads back to where it starts. -/
def isLoop (e : Edge) : Bool := e.source == e.target

/-- Whether the node is one of the ends of the edge. -/
def touches (e : Edge) (id : Nat) : Bool := e.source == id || e.target == id

def text (e : Edge) : String := idText e.source ++ " -> " ++ idText e.target

end Edge

end CallGraph
