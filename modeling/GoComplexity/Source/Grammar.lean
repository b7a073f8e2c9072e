import GoComplexity.Source.Rule

/-!
# The grammar of Go

A line break ends a statement wherever the statement may end and is a blank everywhere else, so the
rules for expressions and types take a place, which tells whether a line break ends them.

The place also tells whether a brace after a type name opens a composite literal. After a plain name
it does, but in the header of an `if`, `for` or `switch` it opens what the statement governs. A
qualified or generic name wants a brace so much that it can stand on the next line, or open a literal
in a header, if things can go on after the literal. Where both readings are possible, a generic name
takes the brace always, and a qualified one unless the statement is the first one of a list and not
the last one after all.

Statements and declarations may be mixed at top level.
-/

namespace GoComplexity.Source

/-- What an expression belongs to. -/
inductive Site where
  /-- Something between brackets or before a colon. -/
  | inner
  /-- A statement that a line break ends; it may be the first one of its list. -/
  | statement (first : Bool)
  /-- The header of a statement that governs a block. -/
  | block (first : Bool)
  /-- The header of a statement that governs clauses. -/
  | clauses (first : Bool)
deriving DecidableEq

/-- Where an expression stands. -/
structure ExprPlace where
  site : Site
  /-- Whether a simple statement can start with the expression, so that an arrow, `++` or `--` behind
  it belongs to the statement. -/
  leads : Bool
deriving DecidableEq

namespace ExprPlace

def inner : ExprPlace := ⟨.inner, false⟩

/-- At the start of a simple statement. -/
def leading (site : Site) : ExprPlace := ⟨site, true⟩

/-- Not at the start of a simple statement. -/
def later (site : Site) : ExprPlace := ⟨site, false⟩

/-- Whether a line break ends the expression. -/
def line (p : ExprPlace) : Bool :=
  match p.site with
  | .statement _ => true
  | _ => false

end ExprPlace

/-- Where a type stands. -/
structure TypePlace where
  /-- Whether a line break ends the type. -/
  line : Bool
  /-- Whether only a type can stand there, so that words such as `nil` are type names. -/
  pure : Bool
deriving DecidableEq

namespace TypePlace

def statement : TypePlace := ⟨true, true⟩

def inner : TypePlace := ⟨false, true⟩

/-- Where an expression could stand as well. -/
def mixed : TypePlace := ⟨false, false⟩

end TypePlace

/-- The symbols of the grammar. -/
inductive Symbol where
  | topLevel
  /-- A statement, which may be the first one of its list. -/
  | statement (first : Bool)
  | statements
  | block
  | ifStmt (first : Bool)
  /-- A simple statement: what its left side and its right side belong to. -/
  | simple (left right : Site)
  | expression (p : ExprPlace)
  /-- A chain of binary operators of one level; level five has none. -/
  | binary (level : Nat) (p : ExprPlace)
  | unary (p : ExprPlace)
  | primary (p : ExprPlace)
  | operand (p : ExprPlace)
  | literalValue
  | arguments
  | type (p : TypePlace)
  /-- A type that is not in parentheses. -/
  | simpleType (p : TypePlace)
  | typeArguments (pure : Bool)
  | parameters
deriving DecidableEq

namespace Grammar

open Rule

def openBrace : String := "\x7b"

def closeBrace : String := "\x7d"

/-- Goes on only on the same line, if a line break could end things here. -/
def onLine (line : Bool) (a : Rule Symbol) : Rule Symbol := if line then seq sameLine a else a

def expression (p : ExprPlace) : Rule Symbol := call (.expression p)

def type (p : TypePlace) : Rule Symbol := call (.type p)

/-- Goes on only if none of the words comes next. -/
def barring (words : List String) (a : Rule Symbol) : Rule Symbol :=
  seq (notAhead (keywords words)) a

/-! ### Types -/

/-- The rest of a qualified type name. -/
def qualified : Rule Symbol := all [mark ".", name .nothing, wrap .qualifiedType]

/-- Type arguments after a type name. -/
def generic (pure : Bool) : Rule Symbol :=
  all [assign .type, call (.typeArguments pure), wrap .genericType]

/-- A type name, perhaps qualified and with type arguments. -/
def typeName (rival : Rival) (p : TypePlace) : Rule Symbol :=
  scope (all [name rival, opt (onLine p.line qualified), opt (onLine p.line (generic p.pure))])

def namedType (p : TypePlace) : Rule Symbol := typeName (if p.pure then .type else .expression) p

/-- Types joined by bars. -/
def typeUnion (p : TypePlace) : Rule Symbol :=
  node .typeElem (seq (type p) (star (onLine p.line (seq (mark "|") (type p)))))

/-- What a function returns. -/
def result (line : Bool) : Rule Symbol :=
  child .result (alt (call .parameters) (call (.simpleType ⟨line, true⟩)))

def tag : Rule Symbol := opt (seq sameLine (take .string))

/-- Names with a type, or an embedded type. -/
def fieldDecl : Rule Symbol :=
  alt
    (node .fieldDecl (all
      [name .nothing, sameLine, opt (seq (mark ",") (commaList (name .nothing))), type .statement,
        tag]))
    (node .fieldDecl (all [opt (mark "*"), typeName .nothing .statement, tag]))

/-- One or more `a` that end like statements, the last one without need. -/
def lines (a : Rule Symbol) : Rule Symbol := all [a, star (seq ends a), opt ends]

def structType : Rule Symbol :=
  node .structType (seq (keyword "struct")
    (node .fieldDeclList (all [mark openBrace, opt (lines fieldDecl), mark closeBrace])))

def interfaceElem : Rule Symbol :=
  alt
    (node .methodElem (all
      [name .type, sameLine, call .parameters, opt (seq sameLine (result true))]))
    (typeUnion .statement)

def interfaceType : Rule Symbol :=
  node .interfaceType
    (all [keyword "interface", mark openBrace, opt (lines interfaceElem), mark closeBrace])

def arrayOrSlice (p : TypePlace) : Rule Symbol :=
  alt
    (node .sliceType (all [mark "[", mark "]", type ⟨p.line, true⟩]))
    (node .arrayType (all [mark "[", expression .inner, mark "]", type ⟨p.line, true⟩]))

def mapType (p : TypePlace) : Rule Symbol :=
  node .mapType (all [keyword "map", mark "[", type .inner, mark "]", type ⟨p.line, true⟩])

def channelType (p : TypePlace) : Rule Symbol :=
  node .channelType (alt
    (all [keyword "chan", opt (mark "<-"), type ⟨p.line, true⟩])
    (all [mark "<-", keyword "chan", type ⟨p.line, true⟩]))

/-- Brackets behind the parameters belong to the result. -/
def functionType (p : TypePlace) : Rule Symbol :=
  node .functionType (all [keyword "func", child .parameters (call .parameters),
    if p.line then opt (seq sameLine (barring clauseWords (result true)))
    else alt (result false) (notAhead (take (.oneOf ["(", "["])))])

/-- A type that no name starts. -/
def unnamedType (p : TypePlace) : Rule Symbol :=
  any
    [node .pointerType (seq (mark "*") (type p)),
      arrayOrSlice p,
      mapType p,
      channelType p,
      structType,
      interfaceType,
      functionType p,
      scope (seq (node .negatedType (seq (mark "~") (type ⟨p.line, true⟩)))
        (opt (onLine p.line (generic p.pure))))]

def simpleType (p : TypePlace) : Rule Symbol := alt (namedType p) (unnamedType p)

def parenthesizedType (pure : Bool) : Rule Symbol :=
  node .parenthesizedType (all [mark "(", type ⟨false, pure⟩, mark ")"])

/-- Type arguments; where an expression could stand the first one is a plain type. -/
def typeArguments (pure : Bool) : Rule Symbol :=
  let first := if pure then typeUnion .inner else node .typeElem (type .mixed)
  node .typeArguments (all
    [mark "[", first, star (seq (mark ",") (typeUnion .inner)), opt (mark ","), mark "]"])

def typeParameters : Rule Symbol :=
  node .typeParameterList (all [mark "[",
    commaList (node .typeParameterDecl
      (all [commaList (child .name (name .nothing)), child .type (typeUnion .inner)])),
    opt (mark ","), mark "]"])

/-- Names with a type, a variadic parameter, or a type alone. -/
def parameter : Rule Symbol :=
  any
    [seq
        (node .parameterDecl (all [child .name (name .type),
          star (seq (mark ",") (child .name (name .nothing))), child .type (type .inner)]))
        (ahead (take (.oneOf [",", ")"]))),
      node .variadicParameter
        (all [opt (child .name (name .type)), mark "...", child .type (type .inner)]),
      node .parameterDecl (child .type (type .inner))]

/-! ### Expressions -/

/-- The operators of each level, from the loosest to the tightest. -/
def operators : Nat → List String
  | 0 => ["||"]
  | 1 => ["&&"]
  | 2 => ["==", "!=", "<", "<=", ">", ">="]
  | 3 => ["+", "-", "|", "^"]
  | _ => ["*", "/", "%", "<<", ">>", "&", "&^"]

/-- The operators of all levels. -/
def binaryOperators : List String := [0, 1, 2, 3, 4].flatMap operators

/-- Marks that are an operator of a level and the start of its operand, unless they belong to a
statement. In the clause of a select only an arrow does. -/
def tightOperators (p : ExprPlace) : Nat → List (Rule Symbol)
  | 2 => if p.leads then [] else [split "<" "-"]
  | 3 => if p.leads && p.site != .inner then [] else [split "+" "+", split "-" "-"]
  | _ => []

def binary (level : Nat) (p : ExprPlace) : Rule Symbol :=
  if level < 5 then
    seq (call (.binary (level + 1) p))
      (star (onLine p.line (all
        [opt (any (tightOperators p level)), assign .left,
          child .operator (take (.oneOf (operators level))),
          child .right (call (.binary (level + 1) p)), wrap .binary])))
  else call (.unary p)

/-- A type that a name cannot start. -/
def typeStart : Rule Symbol :=
  any [mark "[", keyword "map", keyword "chan", keyword "struct", keyword "interface"]

/-- A star or arrow that belongs to a type: before a type that is no name, or before `chan`. -/
def typeOperator : Rule Symbol :=
  alt (seq (mark "<-") (keyword "chan")) (all [mark "*", star (mark "*"), typeStart])

def unary (p : ExprPlace) : Rule Symbol :=
  any
    [seq (ahead typeOperator) (call (.primary p)),
      all [child .operator (take (.oneOf ["+", "-", "!", "^", "*", "&", "<-"])),
        child .operand (call (.unary p)), wrap .unary],
      seq (any [split "+" "+", split "-" "-", split "&" "&", split "&" "^"]) (call (.unary p)),
      call (.primary p)]

/-- The rest of a slice after its first colon. -/
def sliceRest : Rule Symbol :=
  alt (mark "]")
    (all [expression .inner, opt (seq (mark ":") (expression .inner)), mark "]"])

/-- What an operand can be followed by; each form takes over the operand as its first part. -/
def suffix : Rule Symbol :=
  any
    [all [assign .operand, mark ".", child .member (name .nothing), wrap .selector],
      all [mark ".", mark "(", type .inner, mark ")", wrap .typeAssertion],
      all [assign .callee, child .arguments (call .arguments), wrap .call],
      all [assign .callee, child .typeArguments (call (.typeArguments false)),
        child .arguments (call .arguments), wrap .call],
      all [mark "[", mark ":", sliceRest, wrap .slice],
      all [mark "[", expression .inner,
        alt (seq (mark "]") (wrap .index)) (all [mark ":", sliceRest, wrap .slice])]]

/-- The operand of a conversion in parentheses. -/
def conversionOperand : Rule Symbol :=
  all [mark "(", child .operand (expression .inner), opt (mark ","), mark ")", wrap .conversion]

/-- The rest of an instantiated type. -/
def instances : Rule Symbol :=
  all [mark "[", commaList (type .inner), opt (mark ","), mark "]", wrap .typeInstantiation]

/-- A type and its arguments, if they are neither an index nor those of a call. -/
def instantiation (p : ExprPlace) : Rule Symbol :=
  let named := scope (seq (name .expression) (opt (onLine p.line qualified)))
  let usual := alt (all [mark "[", expression .inner, mark "]"])
    (seq (call (.typeArguments false)) (mark "("))
  all [alt named (parenthesizedType true), onLine p.line (notAhead usual), instances]

def literalBody : Rule Symbol := seq (child .body (call .literalValue)) (wrap .composite)

/-- How the part that a statement governs starts. -/
def governed : Site → Rule Symbol
  | .block _ => mark openBrace
  | .clauses _ => seq (mark openBrace) (alt (mark closeBrace) (keywords clauseWords))
  | _ => fail

/-- What can only come after the last statement of a list, or inside one. -/
def listEnd : Rule Symbol :=
  any [mark closeBrace, keywords clauseWords, keyword "else"]

/-- What shows, after a pair of braces in a header, that they belong to a literal: the header goes on
behind them on the same line. -/
def goesOn : Rule Symbol :=
  seq sameLine (take (.oneOf ([openBrace, ".", "(", "["] ++ binaryOperators)))

/-- Where braces below a statement do not make a statement of their own: after a statement that is not
the first one of its list, and after the first one if nothing else follows. -/
def unlessFirst (first : Bool) : Rule Symbol := if first then beyondBraces listEnd else empty

/-- Where a brace opens a literal of a plain type. -/
def plainLiteral : Site → Rule Symbol
  | .inner => empty
  | .statement _ => sameLine
  | _ => fail

/-- Where a brace opens a literal of a generic type. -/
def genericLiteral : Site → Rule Symbol
  | .inner => empty
  | .statement _ => empty
  | header => beyondBraces (alt goesOn (governed header))

/-- Where a brace opens a literal of a qualified type. -/
def qualifiedLiteral : Site → Rule Symbol
  | .inner => empty
  | .statement first => any [sameLine, unlessFirst first, notAhead (call .block)]
  | .block first => beyondBraces (alt goesOn (seq (ahead (governed (.block first))) (unlessFirst first)))
  | .clauses first =>
    beyondBraces (alt goesOn (seq (ahead (governed (.clauses first))) (unlessFirst first)))

/-- A composite literal of a named type. -/
def namedLiteral (p : ExprPlace) : Rule Symbol :=
  let brace (place : Site → Rule Symbol) := seq (ahead (mark openBrace)) (place p.site)
  all [child .type (scope (seq (name .expression) (any
      [all [onLine p.line qualified, alt
        (seq (generic true) (brace genericLiteral)) (brace qualifiedLiteral)],
      seq (onLine p.line (generic true)) (brace genericLiteral),
      brace plainLiteral]))),
    literalBody]

/-- A conversion to a generic type: type arguments after a name, and one operand. -/
def genericConversion (p : ExprPlace) : Rule Symbol :=
  seq
    (child .type (scope (seq (name .expression) (alt
      (seq (onLine p.line qualified) (generic true)) (onLine p.line (generic true))))))
    conversionOperand

/-- A parenthesized pointer to a generic type is a type, if it is applied to one operand. -/
def pointerConversion : Rule Symbol :=
  let named := scope (all [name .expression, opt qualified, generic false])
  let pointer := alt named (node .pointerType (seq (mark "*") named))
  all [child .type (node .parenthesizedType (all [mark "(", pointer, mark ")"])), conversionOperand]

def funcLiteral : Rule Symbol :=
  all [keyword "func", child .parameters (call .parameters), opt (result false),
    child .body (call .block), wrap .funcLiteral]

/-- A call of `new` or `make`, which takes a type first. -/
def makerCall (p : ExprPlace) : Rule Symbol :=
  all [child .callee (take .maker), onLine p.line (ahead (mark "(")),
    child .arguments (node .argumentList (all
      [mark "(", opt (all [type .inner, star (seq (mark ",") (expression .inner)), opt (mark ",")]),
        mark ")"])),
    wrap .call]

def operand (p : ExprPlace) : Rule Symbol :=
  any
    [take .literal,
      take .constant,
      makerCall p,
      seq (take .maker) (notAhead (onLine p.line (mark "("))),
      namedLiteral p,
      genericConversion p,
      instantiation p,
      name .expression,
      pointerConversion,
      all [mark "(", expression .inner, mark ")", wrap .parenthesized],
      seq (child .type (parenthesizedType true)) conversionOperand,
      funcLiteral,
      seq (child .type (alt (arrayOrSlice .inner) (alt (mapType .inner) structType)))
        (alt literalBody conversionOperand),
      seq (child .type (node .implicitArrayType (all [mark "[", mark "...", mark "]", type .inner])))
        literalBody,
      seq (child .type (unnamedType .inner)) conversionOperand,
      seq (unnamedType .inner) instances]

def expressionList (p : ExprPlace) : Rule Symbol :=
  node .expressionList
    (seq (expression p) (star (onLine p.line (seq (mark ",") (expression p)))))

def argument : Rule Symbol :=
  scope (seq (expression .inner) (opt (seq (mark "...") (wrap .variadicArgument))))

def arguments : Rule Symbol :=
  node .argumentList
    (all [mark "(", opt (seq (commaList argument) (opt (mark ","))), mark ")"])

def literalElement : Rule Symbol := alt (call .literalValue) (expression .inner)

def literalValue : Rule Symbol :=
  node .literalValue (all [mark openBrace,
    looseList (scope (seq literalElement
      (opt (all [mark ":", literalElement, wrap .keyedElement])))),
    mark closeBrace])

/-! ### Simple statements -/

def assignOperators : List String :=
  ["=", "*=", "/=", "%=", "<<=", ">>=", "&=", "&^=", "+=", "-=", "|=", "^="]

/-- Turns the expression collected into the left side of an assignment. After a comma nothing else is
possible, so that line breaks are blanks and braces belong to literals. -/
def leftSide (line : Bool) : Rule Symbol :=
  all [alt (seq (onLine line (mark ",")) (commaList (expression .inner))) (onLine line empty),
    wrap .expressionList, assign .left]

/-- Completes the expression collected to a simple statement. -/
def simpleRest (left right : Site) : Rule Symbol :=
  let line := (ExprPlace.later left).line
  let value := ExprPlace.later right
  any
    [onLine line (seq (mark "++") (wrap .incStmt)),
      onLine line (seq (mark "--") (wrap .decStmt)),
      onLine line (all [mark "<-", expression value, wrap .sendStmt]),
      seq (leftSide line) (alt
        (all [mark ":=", child .right (expressionList value), wrap .shortVarDecl])
        (all [take (.oneOf assignOperators), child .right (expressionList value),
          wrap .assignment])),
      wrap .expressionStmt]

/-! ### Compound statements -/

def block : Rule Symbol :=
  node .block (all [mark openBrace, opt (call .statements), mark closeBrace])

/-- The condition of an `if`, perhaps after a simple statement. -/
def ifHeader (site : Site) : Rule Symbol :=
  scope (seq (expression (.leading site))
    (alt
      (all [simpleRest site .inner, assign .initializer, mark ";",
        child .condition (expression (.later site))])
      (assign .condition)))

def ifStmt (first : Bool) : Rule Symbol :=
  node .ifStmt (all [keyword "if", ifHeader (.block first), child .consequence (call .block),
    opt (all [sameLine, keyword "else",
      child .alternative (alt (call .block) (call (.ifStmt first)))])])

/-- The condition and the last statement of a three-part header. -/
def forRest (site : Site) : Rule Symbol :=
  all [opt (expression .inner), mark ";", opt (call (.simple site site)), wrap .forClause]

def rangeRest (site : Site) : Rule Symbol :=
  all [keyword "range", child .right (expression (.later site)), wrap .rangeClause]

def forHeader (site : Site) : Rule Symbol :=
  let left := all [leftSide false, take (.oneOf [":=", "="])]
  scope (any
    [rangeRest site,
      seq (mark ";") (forRest site),
      barring ["range"] (seq (expression (.leading site)) (any
        [seq left (rangeRest site),
          all [notAhead (seq left (keyword "range")), simpleRest site .inner, scope (mark ";"),
            forRest site],
          empty]))])

def forStmt (first : Bool) : Rule Symbol :=
  node .forStmt (seq (keyword "for")
    (alt (child .body (call .block))
      (seq (forHeader (.block first)) (child .body (call .block)))))

def clauseBody : Rule Symbol := seq (mark ":") (opt (barring clauseWords (call .statements)))

def defaultCase : Rule Symbol := node .defaultCase (seq (keyword "default") clauseBody)

def expressionCase : Rule Symbol :=
  node .expressionCase
    (all [keyword "case", child .value (expressionList .inner), clauseBody])

def typeCase : Rule Symbol :=
  node .typeCase (all [keyword "case", commaList (child .type (type .inner)), clauseBody])

/-- Clauses between braces. -/
def clauses (a : Rule Symbol) : Rule Symbol :=
  all [mark openBrace, star (alt a defaultCase), mark closeBrace]

/-- What tells a type switch from a type assertion. -/
def typeQuestion : Rule Symbol := all [mark ".", mark "(", keyword "type"]

/-- The operand of a type switch, perhaps after the name it is bound to. No operator applies to it. -/
def guardedOperand (site : Site) : Rule Symbol :=
  let guarded (p : ExprPlace) := scope (all
    [call (.operand p), star (seq (notAhead typeQuestion) suffix), ahead typeQuestion,
      assign .value])
  alt (guarded (.later site))
    (all [scope (seq (expression (.leading site)) (leftSide false)), mark ":=", guarded .inner])

/-- The statement before the operand of a switch. -/
def switchInitializer (site : Site) : Rule Symbol :=
  scope (all [call (.simple site .inner), assign .initializer, mark ";"])

def typeSwitch (site : Site) : Rule Symbol :=
  let operand := guardedOperand site
  all [alt operand (seq (switchInitializer site) operand), typeQuestion, mark ")",
    clauses typeCase, wrap .typeSwitch]

/-- Goes on only if no operand of a type switch comes next. -/
def unguarded (site : Site) (a : Rule Symbol) : Rule Symbol := seq (notAhead (guardedOperand site)) a

def expressionSwitch (site : Site) : Rule Symbol :=
  let value (p : ExprPlace) := child .value (expression p)
  all
    [opt (unguarded site (alt
        (seq (value (.leading site)) (ahead (mark openBrace)))
        (seq (switchInitializer site) (opt (unguarded site (value (.later site))))))),
      clauses expressionCase, wrap .expressionSwitch]

def switchStmt (first : Bool) : Rule Symbol :=
  scope (seq (keyword "switch") (alt (typeSwitch (.clauses first)) (expressionSwitch (.clauses first))))

/-- The operation of a select clause. -/
def communication : Rule Symbol :=
  scope (seq (expression (.leading .inner)) (any
    [all [mark "<-", expression .inner, wrap .sendStmt],
      all [leftSide false, take (.oneOf ["=", ":="]), child .right (expression .inner),
        wrap .receiveStmt],
      seq (assign .right) (wrap .receiveStmt)]))

def communicationCase : Rule Symbol :=
  node .communicationCase
    (all [keyword "case", child .communication communication, clauseBody])

def selectStmt : Rule Symbol :=
  node .selectStmt (seq (keyword "select") (clauses communicationCase))

/-! ### Declarations -/

/-- The values of a declaration, which may be the first statement of its list. -/
def values (first : Bool) : Rule Symbol :=
  child .value (expressionList (.later (.statement first)))

def varSpec (first : Bool) : Rule Symbol :=
  node .varSpec (seq (commaList (child .name (name .nothing)))
    (alt (seq (mark "=") (values first))
      (seq (child .type (type .statement)) (opt (all [sameLine, mark "=", values first])))))

def constSpec (first : Bool) : Rule Symbol :=
  node .constSpec (all [name .nothing, star (all [sameLine, mark ",", name .nothing]),
    opt (all [sameLine, barring clauseWords (opt (child .type (type .inner))), mark "=",
      values first])])

def typeSpec : Rule Symbol :=
  any
    [node .typeAlias (all [child .name (name .nothing), mark "=", type .statement]),
      node .typeSpec (seq (child .name (name .nothing)) (type .statement)),
      -- An expression could stand behind the bracket as well, the length of an array.
      node .typeSpec (all [child .name (name .nothing),
        notAhead (seq (mark "[") (keywords Rival.expression.words)), typeParameters,
        type .statement])]

/-- Specifications in parentheses, each one ended like a statement. -/
def group (a : Rule Symbol) : Rule Symbol := all [mark "(", star (seq a ends), mark ")"]

def varDecl (first : Bool) : Rule Symbol :=
  node .varDecl (seq (keyword "var")
    (alt (node .varSpecList (group (varSpec false))) (varSpec first)))

def constDecl (first : Bool) : Rule Symbol :=
  node .constDecl (seq (keyword "const") (alt (group (constSpec false)) (constSpec first)))

def typeDecl : Rule Symbol :=
  node .typeDecl (seq (keyword "type") (alt (group typeSpec) typeSpec))

def importSpec : Rule Symbol :=
  node .importSpec
    (seq (opt (child .name (alt (mark ".") (name .nothing)))) (child .path (take .string)))

def importDecl : Rule Symbol :=
  node .importDecl (seq (keyword "import")
    (alt (node .importSpecList (all [mark "(", opt (lines importSpec), mark ")"])) importSpec))

def packageClause : Rule Symbol := node .packageClause (seq (keyword "package") (name .nothing))

/-- The part of a declaration after its parameters. -/
def resultAndBody : Rule Symbol :=
  seq (opt (seq sameLine (result true))) (opt (seq sameLine (child .body (call .block))))

def functionDecl : Rule Symbol :=
  node .functionDecl (all [keyword "func", child .name (name .nothing), opt typeParameters,
    child .parameters (call .parameters), resultAndBody])

def methodDecl : Rule Symbol :=
  node .methodDecl (all [keyword "func", child .receiver (call .parameters),
    child .name (name .type), child .parameters (call .parameters), resultAndBody])

/-! ### Statements -/

def jump (word : String) (k : Kind) : Rule Symbol :=
  node k (seq (keyword word) (opt (seq sameLine (name .clause))))

def statement (first : Bool) : Rule Symbol :=
  let value := ExprPlace.later (.statement first)
  any
    [varDecl first, constDecl first, typeDecl,
      node .returnStmt (seq (keyword "return")
        (opt (seq sameLine (barring clauseWords (expressionList value))))),
      node .goStmt (seq (keyword "go") (expression value)),
      node .deferStmt (seq (keyword "defer") (expression value)),
      call (.ifStmt first), forStmt first, switchStmt first, selectStmt,
      node .fallthroughStmt (keyword "fallthrough"),
      jump "break" .breakStmt, jump "continue" .continueStmt,
      node .gotoStmt (seq (keyword "goto") (name .nothing)),
      call .block,
      node .emptyStmt (mark ";"),
      barring statementWords (alt
        (node .labeledStmt (all
          [child .label (name .expression), sameLine, mark ":", call (.statement first)]))
        (call (.simple (.statement first) (.statement first))))]

/-- A label at the end of a statement list. -/
def trailingLabel : Rule Symbol :=
  barring statementWords (node .labeledStmt (all [child .label (name .expression), sameLine, mark ":",
    ahead (any [mark closeBrace, keywords clauseWords])]))

def listStatement (first : Bool) : Rule Symbol := alt trailingLabel (call (.statement first))

/-- One or more statements, each but the last one ended. Only behind another statement the words for
clauses cannot start one. -/
def statements : Rule Symbol :=
  all [listStatement true, star (seq ends (barring clauseWords (listStatement false))), opt ends]

def topLevel : Rule Symbol :=
  any [packageClause, importDecl, functionDecl, methodDecl,
    barring fileWords (call (.statement false))]

/-- The rule of each symbol. -/
def rule : Symbol → Rule Symbol
  | .topLevel => topLevel
  | .statement first => statement first
  | .statements => statements
  | .block => block
  | .ifStmt first => ifStmt first
  | .simple left right => seq (expression (.leading left)) (simpleRest left right)
  | .expression p => call (.binary 0 p)
  | .binary level p => binary level p
  | .unary p => unary p
  | .primary p => seq (call (.operand p)) (star (onLine p.line suffix))
  | .operand p => operand p
  | .literalValue => literalValue
  | .arguments => arguments
  | .type p => alt (simpleType p) (parenthesizedType p.pure)
  | .simpleType p => simpleType p
  | .typeArguments pure => typeArguments pure
  | .parameters => node .parameterList (all [mark "(", looseList parameter, mark ")"])

/-- A source file: declarations and statements, each one ended. -/
def file : Rule Symbol := star (seq (call .topLevel) ends)

end Grammar

/-- The trees of a source file, if all its tokens can be read. -/
def parseFile? (toks : List Token) : Option (List Tree) :=
  let fuel := 32 * (toks.length + 1)
  match Grammar.file.run fuel (parse Grammar.rule fuel) [] toks with
  | some (trees, []) => some trees
  | _ => none

end GoComplexity.Source
