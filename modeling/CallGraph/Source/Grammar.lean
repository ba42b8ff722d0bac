import CallGraph.Source.Rule

/-!
The grammar of Rust.

The grammar accepts every valid source and keeps apart only what the outline of a file needs: items
with their names and bodies, parameters, calls with their callees and arguments, and the tokens of
macros, which have no structure. Operators are not ranked, because no outline depends on the rank:
an expression is a row of operands.

Two rules decide how far an expression goes. Where a block must follow (after `if`, `while`,
`match`, `for`), a path does not go on with a brace. And an expression with a block at the start of
a statement ends with the block, unless the next token can only continue it.
-/

namespace CallGraph.Source

/-- The rules that others refer to by name. -/
inductive Phrase where
  | statement
  | declaration
  | block
  | blockLike
  | conditional
  | expression
  | operand
  | type
  | simpleType
  | pattern
  | simplePattern
  | attr
  | tokenTree
  | importTree
  deriving DecidableEq, Repr

namespace Grammar

open Rule

/-! Names and paths. -/

def name : Rule Phrase := token .identifier .name

def lifetime : Rule Phrase := token .identifier .lifetime

def literal : Rule Phrase :=
  first [token .literal .literal, token .literal (.oneOf ["true", "false"])]

/-- A number with its sign, or another literal. -/
def signedLiteral : Rule Phrase := both (optional (symbol "-")) literal

def pathKeyword : Rule Phrase := token .expression (.oneOf ["self", "super", "crate"])

/-- A segment of a path, without type arguments. -/
def segment : Rule Phrase := either name pathKeyword

/-- A path of words, as in attributes and visibilities. -/
def wordPath : Rule Phrase :=
  all [optional (symbol "::"), token .identifier .anyWord,
    many (both (symbol "::") (token .identifier .anyWord))]

def attributes : Rule Phrase := many (ref .attr)

def attributeBody : Rule Phrase :=
  both wordPath (optional (either (ref .tokenTree) (both (symbol "=") (ref .expression))))

/-- An attribute of the next construct or of the one around it. -/
def attr : Rule Phrase :=
  node .attr (all [symbol "#", optional (symbol "!"),
    squares (either (both (word "unsafe") (parens attributeBody)) attributeBody)])

/-- A group of tokens in brackets. -/
def tokenTree : Rule Phrase :=
  let inner := many (either (ref .tokenTree) (token .token .plain))
  node .tokenTree (first [parens inner, squares inner, braced inner])

/-! Types. -/

def primitiveTypes : List String :=
  ["u8", "i8", "u16", "i16", "u32", "i32", "u64", "i64", "u128", "i128", "isize", "usize", "f32",
    "f64", "bool", "str", "char"]

def forLifetimes : Rule Phrase :=
  all [word "for", cut '<', commas lifetime, cut '>']

def bound : Rule Phrase :=
  first [lifetime,
    all [word "use", cut '<', commas (either lifetime name), cut '>'],
    all [optional (oneOf ["?", "~"]), optional (oneOf ["const", "async"]), optional forLifetimes,
      ref .simpleType]]

def bounds : Rule Phrase := all [bound, many (both (symbol "+") bound), optional (symbol "+")]

def optionalBounds : Rule Phrase := optional (both (symbol ":") (optional bounds))

/-- An argument for a type parameter: a lifetime, a constant, a type, or the value or bounds of an
associated type. -/
def typeArgument : Rule Phrase :=
  let constant := either (ref .block) signedLiteral
  first [lifetime, constant,
    both (ref .type)
      (optional (either (both (symbol "=") (either constant (ref .type)))
        (both (symbol ":") (optional bounds))))]

def typeArguments : Rule Phrase := node .type (all [cut '<', commas typeArgument, cut '>'])

def typeSegment : Rule Phrase :=
  either (token .identifier (.oneOf primitiveTypes))
    (both segment (optional (first [typeArguments, both (symbol "::") typeArguments,
      both (parens (commas (ref .type))) (optional (both (symbol "->") (ref .simpleType)))])))

def typePath : Rule Phrase :=
  all [optional (symbol "::"), typeSegment, many (both (symbol "::") typeSegment)]

/-- A type in angle brackets, as one that implements a trait. -/
def qualifiedType : Rule Phrase :=
  all [cut '<', ref .type, optional (both (word "as") (ref .type)), cut '>']

def functionTypeParameter : Rule Phrase :=
  all [attributes, either (symbol "...")
    (both (optional (all [token .identifier .anyWord, symbol ":"])) (ref .type))]

/-- A type in which no sum of bounds stands free. -/
def simpleType : Rule Phrase :=
  node .type (first [
    symbol "!",
    word "_",
    all [cut '&', optional lifetime, optional (word "mut"), ref .simpleType],
    all [symbol "*", oneOf ["const", "mut"], ref .simpleType],
    parens (commas (ref .type)),
    squares (both (ref .type) (optional (both (symbol ";") (ref .expression)))),
    all [optional forLifetimes, optional (word "unsafe"),
      optional (both (word "extern") (optional literal)), word "fn",
      parens (commas functionTypeParameter), optional (both (symbol "->") (ref .simpleType))],
    all [oneOf ["impl", "dyn"], bounds],
    both forLifetimes (ref .simpleType),
    all [qualifiedType, symbol "::", typeSegment, many (both (symbol "::") typeSegment)],
    all [wordPath, symbol "!", ref .tokenTree],
    typePath])

def type : Rule Phrase :=
  group (both (ref .simpleType)
    (optional (wrap .none .type (both (both (symbol "+") bound) (many (both (symbol "+") bound))))))

def typeParameters : Rule Phrase :=
  let parameter := both attributes (first [
    all [word "const", name, symbol ":", ref .type,
      optional (both (symbol "=") (first [ref .block, signedLiteral, name]))],
    both lifetime optionalBounds,
    all [name, optionalBounds, optional (both (symbol "=") (ref .type))]])
  node .type (all [cut '<', commas parameter, cut '>'])

def whereClause : Rule Phrase :=
  let predicate := both (either lifetime (both (optional forLifetimes) (ref .type)))
    (both (symbol ":") (optional bounds))
  node .type (both (word "where") (commas predicate))

/-! Paths in expressions and patterns. -/

/-- A path, whose tree grows in the group around it. -/
def path : Rule Phrase :=
  both
    (first [name, pathKeyword,
      node .scoped (both (symbol "::") (part .name segment)),
      both (node .expression qualifiedType) (ahead (symbol "::"))])
    (many (either
      (wrap .none .scoped (both (symbol "::") (part .name segment)))
      (wrap .function .generic (both (symbol "::") typeArguments))))

/-- The rest of a macro call after its path. -/
def macroTail : Rule Phrase := wrap .none .expression (both (symbol "!") (ref .tokenTree))

/-! Patterns. -/

/-- The end of a range of values. -/
def rangeBound : Rule Phrase := either signedLiteral (group path)

def fieldPattern : Rule Phrase :=
  both attributes (first [
    all [either name (token .literal .integer), symbol ":", ref .pattern],
    all [optional (word "ref"), optional (word "mut"), name],
    symbol ".."])

def simplePattern : Rule Phrase :=
  let range := both (oneOf ["..", "..=", "..."]) (optional rangeBound)
  node .pattern (first [
    word "_",
    both (oneOf ["..", "..="]) (optional rangeBound),
    both signedLiteral (optional range),
    all [cut '&', optional (word "mut"), ref .simplePattern],
    all [word "ref", optional (word "mut"), name,
      optional (both (symbol "@") (ref .simplePattern))],
    both (word "mut") (ref .simplePattern),
    parens (commas (ref .pattern)),
    squares (commas (ref .pattern)),
    both (word "const") (ref .block),
    both (group path) (optional (first [
      both (symbol "!") (ref .tokenTree),
      parens (commas (ref .pattern)),
      braced (commas fieldPattern),
      both (symbol "@") (ref .simplePattern),
      range]))])

/-- A pattern, perhaps with alternatives. -/
def pattern : Rule Phrase :=
  node .pattern (all [optional (symbol "|"), ref .simplePattern,
    many (both (symbol "|") (ref .simplePattern))])

/-! Expressions. -/

def binarySymbols : List String :=
  ["+", "-", "*", "/", "%", "^", "&", "|", "&&", "||", "<<", ">>", "==", "!=", "<", ">", "<=",
    ">=", "=", "+=", "-=", "*=", "/=", "%=", "^=", "&=", "|=", "<<=", ">>="]

/-- Tokens that continue an expression with a block at the start of a statement. -/
def continuations : List String :=
  [".", "?", "&&", "||", "==", "!=", "<=", ">=", ">", "<<", ">>", "=", "+", "/", "%", "^", "+=",
    "-=", "*=", "/=", "%=", "^=", "&=", "|=", "<<=", ">>=", "as"]

/-- A rule that does not start with a brace where none is allowed. -/
def unlessBraced (r : Rule Phrase) : Rule Phrase :=
  both (either bracesAllowed (notAhead (symbol "\x7b"))) r

def rangeTail : Rule Phrase :=
  both (oneOf ["..", "..="]) (optional (unlessBraced (ref .operand)))

def operandTail (operand : Rule Phrase) : Rule Phrase :=
  let next := first [
    both (oneOf binarySymbols) operand,
    both (word "as") (ref .simpleType),
    rangeTail]
  wrap .none .expression (both next (many next))

/-- What may follow an operand and belongs to it: arguments, an index, a field. -/
def operandSuffix : Rule Phrase :=
  let arguments := node .arguments (parens (commas (both attributes (ref .expression))))
  first [
    wrap .function .call (part .arguments arguments),
    wrap .none .expression (squares (ref .expression)),
    wrap .none .expression (symbol "?"),
    wrap .none .expression (both (symbol ".") (word "await")),
    both
      (wrap .none .field (both (symbol ".")
        (part .field (either (token .identifier .anyWord) (token .literal .integer)))))
      (optional (wrap .function .generic (both (symbol "::") typeArguments)))]

/-- The rest of an expression after the start of its first operand. -/
def expressionTail : Rule Phrase :=
  both (many operandSuffix) (optional (operandTail (ref .operand)))

def head : Rule Phrase := braces false (ref .expression)

def condition : Rule Phrase :=
  let operand := either
    (node .expression (all [word "let", ref .pattern, symbol "=", ref .operand])) (ref .operand)
  group (both operand (optional (operandTail operand)))

def blockStart : Rule Phrase :=
  first [
    oneOf ["\x7b", "if", "match", "while", "loop"],
    both (word "for") (notAhead (cut '<')),
    both (oneOf ["unsafe", "const", "try"]) (symbol "\x7b"),
    all [word "async", optional (word "move"), symbol "\x7b"],
    both lifetime (symbol ":")]

def armEnd : Rule Phrase := either (symbol ",") (ahead (symbol "\x7d"))

def conditional : Rule Phrase :=
  node .expression (all [word "if", braces false condition, ref .block,
    optional (both (word "else") (either (ref .conditional) (ref .block)))])

def loop : Rule Phrase :=
  node .expression (first [
    all [word "while", braces false condition, ref .block],
    both (word "loop") (ref .block),
    all [word "for", ref .pattern, word "in", head, ref .block]])

/-- How an expression at the start of a statement or arm ends. One with a block ends with it, and
then with `stop`, unless the next token is one of `more` or can only continue it; any other
expression ends with `finish`. -/
def closedExpression (more : List String) (stop finish : Rule Phrase) : Rule Phrase :=
  either
    (group (both (ref .blockLike)
      (either (both (notAhead (oneOf (more ++ continuations))) stop) (both expressionTail finish))))
    (all [notAhead blockStart, ref .expression, finish])

/-- A choice among patterns. -/
def choice : Rule Phrase :=
  let value := closedExpression ["*"] (optional (symbol ",")) armEnd
  let arm := node .expression (all [attributes, ref .pattern,
    optional (both (word "if") condition), symbol "=>", value])
  node .expression (all [word "match", head, node .block (braced (both attributes (many arm)))])

def blockLike : Rule Phrase :=
  first [
    ref .block,
    ref .conditional,
    choice,
    loop,
    node .expression (both (oneOf ["unsafe", "const", "try"]) (ref .block)),
    node .expression (all [word "async", optional (word "move"), ref .block]),
    node .expression (all [lifetime, symbol ":", either loop (ref .block)])]

/-- A function without a name. -/
def closure : Rule Phrase :=
  let parameter := all [attributes, ref .simplePattern,
    optional (both (symbol ":") (ref .type))]
  node .expression (all [optional forLifetimes, optional (word "static"), optional (word "async"),
    optional (word "move"), cut '|', commas parameter, cut '|',
    either (all [symbol "->", ref .simpleType, ref .block]) (ref .expression)])

def jump : Rule Phrase :=
  let value := optional (unlessBraced (ref .expression))
  node .expression (first [
    both (oneOf ["return", "yield"]) value,
    all [word "break", optional lifetime, value],
    both (word "continue") (optional lifetime)])

def fieldsTail : Rule Phrase :=
  let field := both attributes (first [
    all [either name (token .literal .integer), symbol ":", ref .expression],
    name,
    both (symbol "..") (optional (ref .expression))])
  both bracesAllowed (wrap .none .expression (node .block (braced (commas field))))

def primary : Rule Phrase :=
  first [
    literal,
    node .expression (parens (both attributes (commas (both attributes (ref .expression))))),
    node .expression (squares (both attributes (optional (all [ref .expression,
      either (both (symbol ";") (ref .expression))
        (both (many (all [symbol ",", attributes, ref .expression])) (optional (symbol ",")))])))),
    ref .blockLike,
    group (both path (optional (either macroTail fieldsTail))),
    token .expression (.word "_")]

def operand : Rule Phrase :=
  first [
    node .expression (both (oneOf ["-", "*", "!"]) (ref .operand)),
    node .expression (all [cut '&',
      optional (either (both (word "raw") (oneOf ["const", "mut"])) (word "mut")), ref .operand]),
    node .expression rangeTail,
    jump,
    closure,
    group (both primary (many operandSuffix))]

def expression : Rule Phrase :=
  group (both (ref .operand) (optional (operandTail (ref .operand))))

def block : Rule Phrase := node .block (braced (list (some "\x7d") (ref .statement)))

/-! Items. -/

/-- Who may see an item. -/
def visibility : Rule Phrase :=
  both (word "pub") (optional (all [symbol "(",
    either (oneOf ["crate", "self", "super"]) (both (word "in") wordPath), symbol ")"]))

/-- An item of a kind, with its visibility in front. -/
def item (kind : Kind) (rules : List (Rule Phrase)) : Rule Phrase :=
  node kind (both (optional visibility) (all rules))

def declarations : Rule Phrase :=
  node .declarations (braced (list (some "\x7d") (ref .declaration)))

/-- The declarations of an item, or none and a semicolon. -/
def declarationsOrNone : Rule Phrase := either (part .body declarations) (close ";")

def parameter : Rule Phrase :=
  both attributes (first [
    node .receiver (all [optional (both (cut '&') (optional lifetime)), optional (word "mut"),
      token .expression (.word "self"), notAhead (symbol ":")]),
    node .parameter (symbol "..."),
    node .parameter (all [ref .pattern, symbol ":", either (symbol "...") (ref .type)]),
    word "_",
    ref .type])

def function : Rule Phrase :=
  item .function [
    many (either (oneOf ["async", "default", "const", "unsafe", "safe", "gen"])
      (both (word "extern") (optional literal))),
    word "fn", part .name (token .identifier .anyWord), optional typeParameters,
    part .parameters (node .parameters (parens (commas parameter))),
    optional (both (symbol "->") (ref .type)), optional whereClause,
    either (part .body (ref .block)) (close ";")]

def module : Rule Phrase := item .module [word "mod", part .name name, declarationsOrNone]

def implementation : Rule Phrase :=
  item .implementation [
    optional (word "default"), optional (word "unsafe"), word "impl", optional typeParameters,
    optional (word "const"),
    either
      (all [optional (symbol "!"), part .trait (ref .type), word "for", part .type (ref .type)])
      (part .type (ref .type)),
    optional whereClause, declarationsOrNone]

def trait : Rule Phrase :=
  item .trait [
    optional (word "unsafe"), optional (word "auto"), word "trait", part .name name,
    optional typeParameters, optionalBounds, optional whereClause, part .body declarations]

def namedFields : Rule Phrase :=
  braced (commas (all [attributes, optional visibility, name, symbol ":", ref .type]))

/-- Fields without names. -/
def numberedFields : Rule Phrase :=
  parens (commas (all [attributes, optional visibility, ref .type]))

/-- A type with fields. -/
def record : Rule Phrase :=
  item .item [oneOf ["struct", "union"], name, optional typeParameters, first [
    all [numberedFields, optional whereClause, close ";"],
    all [optional whereClause, either namedFields (close ";")]]]

/-- A type with variants. -/
def enumeration : Rule Phrase :=
  let variant := all [attributes, optional visibility, name,
    optional (either namedFields numberedFields), optional (both (symbol "=") (ref .expression))]
  item .item [word "enum", name, optional typeParameters, optional whereClause,
    braced (commas variant)]

def constant : Rule Phrase :=
  item .item [optional (word "default"), word "const", either name (word "_"),
    optional typeParameters, symbol ":", ref .type, optional (both (symbol "=") (ref .expression)),
    close ";"]

/-- A variable of the whole program. -/
def global : Rule Phrase :=
  item .item [optional (oneOf ["unsafe", "safe"]), word "static", optional (word "ref"),
    optional (word "mut"), name, symbol ":", ref .type,
    optional (both (symbol "=") (ref .expression)), close ";"]

/-- A name for a type, or the associated type of a trait. -/
def typeAlias : Rule Phrase :=
  item .item [optional (word "default"), word "type", name, optional typeParameters,
    optionalBounds, optional whereClause, optional (both (symbol "=") (ref .type)),
    optional whereClause, close ";"]

/-- The names that an import brings. -/
def importTree : Rule Phrase :=
  let group := braced (commas (ref .importTree))
  let last := first [symbol "*", group]
  both (optional (symbol "::")) (first [
    last,
    all [segment, many (both (symbol "::") segment), optional (first [
      both (symbol "::") last,
      both (word "as") (either name (word "_"))])]])

def imports : Rule Phrase := item .item [word "use", ref .importTree, close ";"]

/-- An import of a whole library. -/
def library : Rule Phrase :=
  item .item [word "extern", word "crate", segment,
    optional (both (word "as") (either name (word "_"))), close ";"]

/-- Declarations that live outside of the program. -/
def foreign : Rule Phrase :=
  item .item [optional (word "unsafe"), word "extern", optional literal, declarationsOrNone]

def macroDefinition : Rule Phrase :=
  node .item (all [word "macro_rules", symbol "!", token .identifier .anyWord, ref .tokenTree,
    optional (symbol ";")])

def itemWords : List String :=
  ["pub", "fn", "async", "const", "unsafe", "extern", "default", "mod", "impl", "trait", "auto",
    "struct", "union", "enum", "type", "use", "static", "macro_rules", "safe", "gen"]

def anyItem : Rule Phrase :=
  both (ahead (oneOf itemWords)) (first [
    function, module, implementation, trait, record, enumeration, constant, global, typeAlias,
    imports, library, foreign, macroDefinition])

/-- The declaration of a variable. -/
def binding : Rule Phrase :=
  node .statement (all [word "let", ref .pattern, optional (both (symbol ":") (ref .type)),
    optional (both (symbol "=") (ref .expression)), optional (both (word "else") (ref .block)),
    close ";"])

def macroCall : Rule Phrase := group (both path macroTail)

def declaration : Rule Phrase :=
  first [symbol ";", ref .attr, anyItem, binding, macroCall]

def statement : Rule Phrase :=
  let finish := either (ahead (symbol "\x7d")) (close ";")
  first [symbol ";", ref .attr, anyItem, binding, closedExpression [] empty finish, macroCall]

/-- The rule of each phrase. -/
def rule : Phrase → Rule Phrase
  | .statement => statement
  | .declaration => declaration
  | .block => block
  | .blockLike => blockLike
  | .conditional => conditional
  | .expression => expression
  | .operand => operand
  | .type => type
  | .simpleType => simpleType
  | .pattern => pattern
  | .simplePattern => simplePattern
  | .attr => attr
  | .tokenTree => tokenTree
  | .importTree => importTree

end Grammar

/-- The syntax tree of a source. -/
def parse (text : String) : Tree := Rule.parse Grammar.rule (.ref .statement) text

end CallGraph.Source
