import GoComplexity.Source.Token

/-!
# Concrete syntax trees

The leaves of a tree are the tokens of a source in order. A child may carry a role, which tells what
it is to its parent. Comments are no nodes of their own: they come with the token that follows them.
-/

namespace GoComplexity.Source

open Syntax

/-- The kinds of inner nodes. -/
inductive Kind where
  | packageClause | importDecl | importSpec | importSpecList
  | functionDecl | methodDecl | parameterList | parameterDecl | variadicParameter
  | typeParameterList | typeParameterDecl
  | constDecl | constSpec | varDecl | varSpec | varSpecList | typeDecl | typeSpec | typeAlias
  | qualifiedType | genericType | typeArguments | typeElem | pointerType | sliceType | arrayType
  | implicitArrayType | mapType | channelType | functionType | structType | fieldDeclList | fieldDecl
  | interfaceType | methodElem | parenthesizedType | negatedType
  | block | emptyStmt | expressionStmt | sendStmt | receiveStmt | incStmt | decStmt | assignment
  | shortVarDecl | labeledStmt | fallthroughStmt | breakStmt | continueStmt | gotoStmt | returnStmt
  | goStmt | deferStmt | ifStmt | forStmt | forClause | rangeClause | expressionSwitch | typeSwitch
  | expressionCase | typeCase | defaultCase | selectStmt | communicationCase
  | expressionList | unary | binary | selector | index | slice | call | argumentList
  | variadicArgument | typeAssertion | conversion | typeInstantiation | composite | literalValue
  | keyedElement | funcLiteral | parenthesized
deriving DecidableEq

/-- What a child is to its parent. -/
inductive Role where
  | name | parameters | result | receiver | body | type | value | left | right | operator | operand
  | member | callee | typeArguments | arguments | label | initializer | condition | consequence
  | alternative | communication | path
  /-- A word that stands for no piece of syntax of its own. -/
  | keyword
deriving DecidableEq

inductive Tree where
  | leaf (role : Option Role) (token : Token)
  | node (role : Option Role) (kind : Kind) (children : List Tree)

namespace Tree

def role : Tree → Option Role
  | .leaf role _ => role
  | .node role _ _ => role

/-- Gives a role to a tree that has none. -/
def withRole (r : Role) : Tree → Tree
  | .leaf none token => .leaf (some r) token
  | .node none kind children => .node (some r) kind children
  | t => t

def kind? : Tree → Option Kind
  | .leaf .. => none
  | .node _ kind _ => some kind

/-- The token of a leaf. -/
def token? : Tree → Option Token
  | .leaf _ token => some token
  | .node .. => none

def children : Tree → List Tree
  | .leaf .. => []
  | .node _ _ children => children

def hasKind (t : Tree) (kind : Kind) : Bool := t.kind? == some kind

/-- A child together with the fact that it is smaller than its parent. -/
abbrev Part (t : Tree) := { c : Tree // sizeOf c < sizeOf t }

theorem sizeOf_lt_of_mem_children {t c : Tree} (h : c ∈ t.children) : sizeOf c < sizeOf t := by
  cases t with
  | leaf => simp [children] at h
  | node role kind cs =>
    have := List.sizeOf_lt_of_mem (show c ∈ cs from h)
    simp only [node.sizeOf_spec]
    omega

/-- The children as parts. -/
def parts (t : Tree) : List (Part t) :=
  t.children.attach.map fun c ↦ ⟨c.1, sizeOf_lt_of_mem_children c.2⟩

/-- The first child with a role. -/
def part? (t : Tree) (r : Role) : Option (Part t) := t.parts.find? fun c ↦ c.1.role == some r

def child? (t : Tree) (r : Role) : Option Tree := t.children.find? fun c ↦ c.role == some r

mutual

def first? : Tree → Option Token
  | .leaf _ token => some token
  | .node _ _ children => firstOf? children

/-- The first token of some trees. -/
def firstOf? : List Tree → Option Token
  | [] => none
  | t :: ts => match t.first? with
    | some token => some token
    | none => firstOf? ts

end

mutual

def last? : Tree → Option Token
  | .leaf _ token => some token
  | .node _ _ children => lastOf? children

/-- The last token of some trees. -/
def lastOf? : List Tree → Option Token
  | [] => none
  | t :: ts => match lastOf? ts with
    | some token => some token
    | none => t.last?

end

/-- Where the tree starts: at its first token. -/
def start (t : Tree) : Position := (t.first?.map (·.start)).getD Position.start

/-- Where the tree ends: after its last token. -/
def stop (t : Tree) : Position := (t.last?.map (·.stop)).getD Position.start

/-- The comments before the first token. -/
def comments (t : Tree) : List Comment := (t.first?.map (·.comments)).getD []

/-- Whether a tree stands for a piece of syntax and not only for a keyword or punctuation. -/
def isNamed : Tree → Bool
  | .leaf role token => match token.kind with
    | .mark _ => false
    | _ => role != some .keyword
  | .node .. => true

/-- Whether the tree is the given punctuation. -/
def isMark (t : Tree) (text : String) : Bool :=
  match t with
  | .leaf _ token => token.kind == .mark text
  | .node .. => false

end Tree

end GoComplexity.Source
