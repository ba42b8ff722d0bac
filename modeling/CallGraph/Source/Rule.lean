import CallGraph.Source.Tree

/-!
Grammar rules as data, and one parser for all grammars.

A rule describes what may stand at a place of the token list. Choices are ordered: the first
alternative that fits is taken. Left recursion is written with `wrap`, which puts the trees of the
current group below a new node; so `f(x)(y)` is one group whose tree grows twice.

The parser runs in one of two ways. Strictly, a rule either fits or fails. When it repairs, a
closing token may be supplied, and a list skips a token at which no member can start.

Trivia is put into the tree just before the next token, outside of every node and group that starts
with this token. Hence a node starts and ends with a token that is not trivia.
-/

namespace CallGraph.Source

/-- A set of tokens. -/
inductive Pattern where
  /-- A keyword. -/
  | word (text : String)
  | symbol (text : String)
  /-- A word that no keyword of the grammar is. -/
  | name
  | anyWord
  | integer
  | literal
  | lifetime
  /-- Any token but a bracket. -/
  | plain
  /-- Any of these words and symbols. -/
  | oneOf (texts : List String)

/-- A grammar rule; `N` is the type of the names that rules have. -/
inductive Rule (N : Type) where
  /-- Nothing at all. -/
  | empty
  /-- One token, as a leaf of a kind. -/
  | token (kind : Kind) (pattern : Pattern)
  /-- The first character of a symbol, whose rest stays. -/
  | cut (text : Char)
  | both (first second : Rule N)
  | either (first second : Rule N)
  | many (rule : Rule N)
  /-- A node whose children the rule yields. -/
  | node (kind : Kind) (rule : Rule N)
  /-- The trees of the group so far, the first of them in a part, and what the rule yields, as one
  node. -/
  | wrap (slot : Slot) (kind : Kind) (rule : Rule N)
  /-- The first tree that the rule yields plays a part. -/
  | part (slot : Slot) (rule : Rule N)
  /-- A group for `wrap`. -/
  | group (rule : Rule N)
  /-- Whether the rule fits; nothing is consumed. -/
  | ahead (rule : Rule N)
  | notAhead (rule : Rule N)
  | ref (name : N)
  /-- The rule, with or without expressions that a brace may end. -/
  | braces (allowed : Bool) (rule : Rule N)
  /-- Whether an expression may end in a brace. -/
  | bracesAllowed
  /-- A closing symbol, which a repair may supply. -/
  | close (text : String)
  /-- Members up to a symbol, or up to the end of the text. -/
  | list (stop : Option String) (member : Rule N)

/-- Words that are keywords everywhere. -/
def reserved : List String :=
  ["as", "async", "break", "const", "continue", "crate", "else", "enum", "extern", "false", "fn",
    "for", "if", "impl", "in", "let", "loop", "match", "mod", "move", "mut", "pub", "ref", "return",
    "self", "static", "struct", "super", "trait", "true", "type", "unsafe", "use", "where", "while",
    "yield", "_"]

/-- The symbols that open or close a group of tokens. -/
def brackets : List String := ["(", ")", "[", "]", "\x7b", "\x7d"]

/-- Whether a token is in the set. -/
def Pattern.accepts (p : Pattern) (t : Token) : Bool :=
  match p, t.kind with
  | .word s, .word => t.text == s
  | .symbol s, .punctuation => t.text == s
  | .name, .word => !reserved.contains t.text
  | .anyWord, .word => true
  | .integer, .integer => true
  | .literal, .integer => true
  | .literal, .literal => true
  | .lifetime, .lifetime => true
  | .plain, .invalid => false
  | .plain, _ => !brackets.contains t.text
  | .oneOf texts, .word => texts.contains t.text
  | .oneOf texts, .punctuation => texts.contains t.text
  | _, _ => false

/-- How the parser runs. -/
structure Mode where
  /-- An expression may end in a brace. -/
  braces : Bool := true
  /-- Faults are repaired. -/
  repairs : Bool := false

/-- A parse in progress: the trees of the current group, the last first, and the tokens that are
left. -/
structure Progress where
  done : List Tree
  rest : List Token

/-- The leaf of a token that separates others. -/
def triviaLeaf (t : Token) : Tree :=
  .leaf (if t.kind == .blank then .blank else .comment) .none t.text

/-- Puts trivia into the tree until the next token is none. -/
def skipTrivia (done : List Tree) : List Token → Progress
  | [] => ⟨done, []⟩
  | t :: ts => if t.isTrivia then skipTrivia (triviaLeaf t :: done) ts else ⟨done, t :: ts⟩

/-- The parse with its trivia put into the tree. -/
def Progress.skip (s : Progress) : Progress := skipTrivia s.done s.rest

/-- The next token that is not trivia. -/
def Progress.next? (s : Progress) : Option Token := s.rest.find? (fun t => !t.isTrivia)

/-- Takes a token of a set. -/
def Progress.take (kind : Kind) (p : Pattern) (s : Progress) : Option Progress :=
  match s.skip with
  | ⟨done, t :: ts⟩ => if p.accepts t then some ⟨.leaf kind .none t.text :: done, ts⟩ else none
  | ⟨_, []⟩ => none

def Progress.cut (c : Char) (s : Progress) : Option Progress :=
  match s.skip with
  | ⟨done, t :: ts⟩ =>
    match t.kind, t.text.toList with
    | .punctuation, d :: [] =>
      if c == d then some ⟨.leaf .token .none t.text :: done, ts⟩ else none
    | .punctuation, d :: ds =>
      if c == d then
        some ⟨.leaf .token .none (String.singleton c) :: done,
          ⟨.punctuation, String.ofList ds⟩ :: ts⟩
      else none
    | _, _ => none
  | ⟨_, []⟩ => none

/-- Whether a closing symbol may be supplied before a token: a semicolon anywhere, a brace at the
end of the text, another bracket where the construct around it goes on. -/
def suppliable (text : String) (next : Option Token) : Bool :=
  match text with
  | ";" => true
  | "\x7d" => next.isNone
  | _ =>
    match next with
    | some t => t.kind == .punctuation && [";", "\x7d", ","].contains t.text
    | none => true

/-- Takes a closing symbol or supplies it. -/
def Progress.close (m : Mode) (text : String) (s : Progress) : Option Progress :=
  match s.take .token (.symbol text) with
  | some t => some t
  | none =>
    if m.repairs && suppliable text s.next? then some ⟨.leaf .missing .none "" :: s.done, s.rest⟩
    else none

/-- Puts the first tree of a reversed list into a part. -/
def markFirst (slot : Slot) (done : List Tree) : List Tree :=
  match done.reverse with
  | t :: ts => t.withSlot slot :: ts
  | [] => []

/-- Runs a rule. The first argument bounds the depth of the run. -/
def Rule.run {N : Type} (grammar : N → Rule N) : Nat → Mode → Rule N → Progress → Option Progress
  | 0, _, _, _ => none
  | n + 1, m, r, s =>
    match r with
    | .empty => some s
    | .token kind p => s.take kind p
    | .cut c => s.cut c
    | .both a b =>
      match run grammar n m a s with
      | some t => run grammar n m b t
      | none => none
    | .either a b =>
      match run grammar n m a s with
      | some t => some t
      | none => run grammar n m b s
    | .many a =>
      match run grammar n m a s with
      | some t => run grammar n m (.many a) t
      | none => some s
    | .node kind a =>
      let s := s.skip
      match run grammar n m a ⟨[], s.rest⟩ with
      | some t => some ⟨.node kind .none t.done.reverse :: s.done, t.rest⟩
      | none => none
    | .wrap slot kind a =>
      match run grammar n m a s with
      | some t => some ⟨[.node kind .none (markFirst slot t.done)], t.rest⟩
      | none => none
    | .part slot a =>
      let s := s.skip
      match run grammar n m a ⟨[], s.rest⟩ with
      | some t => some ⟨(markFirst slot t.done).reverse ++ s.done, t.rest⟩
      | none => none
    | .group a =>
      let s := s.skip
      match run grammar n m a ⟨[], s.rest⟩ with
      | some t => some ⟨t.done ++ s.done, t.rest⟩
      | none => none
    | .ahead a =>
      match run grammar n m a s with
      | some _ => some s
      | none => none
    | .notAhead a =>
      match run grammar n m a s with
      | some _ => none
      | none => some s
    | .ref name => run grammar n m (grammar name) s
    | .braces allowed a => run grammar n { m with braces := allowed } a s
    | .bracesAllowed => if m.braces then some s else none
    | .close text => s.close m text
    | .list stop a =>
      match s.next? with
      | none => some s
      | some t =>
        if t.kind == .punctuation && stop == some t.text then some s
        else
          match run grammar n { m with repairs := false } a s with
          | some u => run grammar n m (.list stop a) u
          | none =>
            if m.repairs then
              match run grammar n m a s with
              | some u => run grammar n m (.list stop a) u
              | none =>
                let s := s.skip
                run grammar n m (.list stop a)
                  ⟨s.rest.head?.toList.map (fun u => .leaf .error .none u.text) ++ s.done,
                    s.rest.tail⟩
            else none

/-- How deep the run of a rule may go: no rule of a grammar goes deeper than this between two
tokens. -/
def Rule.depthPerToken : Nat := 512

/-- The tree of a text: the members of a file, in repairing mode, and the trivia after them. A run
that ends early leaves its tokens as faults. -/
def Rule.parse {N : Type} (grammar : N → Rule N) (member : Rule N) (text : String) : Tree :=
  let ts := tokens text
  let fuel := Rule.depthPerToken * (ts.length + 4)
  match run grammar fuel { repairs := true } (.list none member) ⟨[], ts⟩ with
  | some s => .node .file .none s.skip.done.reverse
  | none => .node .file .none (ts.map (fun t =>
      if t.isTrivia then triviaLeaf t else .leaf .error .none t.text))

namespace Rule

variable {N : Type}

def all : List (Rule N) → Rule N
  | [] => empty
  | [r] => r
  | r :: rs => both r (all rs)

def first : List (Rule N) → Rule N
  | [] => notAhead empty
  | [r] => r
  | r :: rs => either r (first rs)

def word (s : String) : Rule N := token .token (.word s)

def symbol (s : String) : Rule N := token .token (.symbol s)

/-- Any of some words and symbols. -/
def oneOf (ss : List String) : Rule N := token .token (.oneOf ss)

def optional (r : Rule N) : Rule N := either r empty

/-- Members between commas, with an optional comma at the end, or no member at all. -/
def commas (r : Rule N) : Rule N :=
  optional (all [r, many (both (symbol ",") r), optional (symbol ",")])

/-- Between round brackets, where braces are allowed. -/
def parens (r : Rule N) : Rule N := all [symbol "(", braces true r, close ")"]

/-- Between square brackets, where braces are allowed. -/
def squares (r : Rule N) : Rule N := all [symbol "[", braces true r, close "]"]

/-- Between braces, where braces are allowed. -/
def braced (r : Rule N) : Rule N := all [symbol "\x7b", braces true r, close "\x7d"]

end Rule

end CallGraph.Source
