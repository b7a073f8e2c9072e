import GoComplexity.Source.Bindings
import GoComplexity.Source.Grammar
import GoComplexity.Source.Statements

/-!
# Reading source files

A source file is split into tokens, read as trees and reduced to its declarations. The only things
that can go wrong are that it cannot be read at all, or that it names no package.
-/

namespace GoComplexity.Source

open Syntax

inductive SourceError where
  /-- The source does not follow the grammar. -/
  | malformed
  /-- The source has no package clause. -/
  | noPackage
deriving DecidableEq

def SourceError.message : SourceError → String
  | .malformed => "syntax error"
  | .noPackage => "expected 'package' clause"

namespace Lower

variable (source : ByteArray)

/-! ### Comments above a declaration -/

/-- Whether a comment shares its first line with code before it. -/
def trails (c : Comment) : List Piece → Bool
  | .tree t :: _ => t.stop.line == c.start.line
  | _ => false

/-- The run of comments that ends right above line `next`, read backwards. `before` lists the pieces
before the declaration, the nearest first. -/
def docRun (next : Nat) : (before : List Piece) → List Comment
  | .comment c :: before =>
    if c.stop.line + 1 < next || trails c before then [] else c :: docRun c.start.line before
  | _ => []

/-- The comments directly above a declaration, in source order. -/
def docComments (before : List Piece) (t : Tree) : List String :=
  ((docRun t.start.line before).reverse).map (Comment.text source)

/-! ### Declarations -/

def function (before : List Piece) (t : Tree) : FunctionDecl :=
  { name := ((t.child? .name).map (Tree.text source)).getD ""
    receiver := (t.child? .receiver).bind (receiver? source)
    pos := t.start
    params := ((t.child? .parameters).map (paramGroups source)).getD []
    body := (t.child? .body).map (block source)
    doc := docComments source before t
    bindings := bindings source t }

/-- The functions and methods among the top-level trees; `before` is what stands before them, the
nearest first. -/
def functions (before : List Piece) : List Tree → List FunctionDecl
  | [] => []
  | t :: trees =>
    let above := t.comments.reverse.map Piece.comment ++ before
    let rest := functions (.tree t :: above) trees
    if t.hasKind .functionDecl || t.hasKind .methodDecl then function source above t :: rest else rest

/-- The names of the children with that role. -/
def names (t : Tree) : List String :=
  (t.children.filter fun c ↦ c.role == some .name).map (Tree.text source)

def typeNames (t : Tree) : List String :=
  (t.children.filter fun c ↦ c.hasKind .typeSpec || c.hasKind .typeAlias).flatMap (names source)

/-- The variable specifications of a declaration, in a list or alone. -/
def varSpecs (t : Tree) : List Tree :=
  t.children.flatMap fun c ↦ if c.hasKind .varSpecList then c.children else [c]

def varNames (t : Tree) : List String :=
  ((varSpecs t).filter (Tree.hasKind · .varSpec)).flatMap (names source)

/-- The text without quotes at its ends. -/
def unquote (text : String) : String :=
  let isQuote (c : Char) : Bool := c == '"' || c == '\x60'
  String.ofList (((text.toList.dropWhile isQuote).reverse.dropWhile isQuote).reverse)

/-- An import; one with an empty path does not count. -/
def import? (t : Tree) : Option Import :=
  let path := unquote (((t.child? .path).map (Tree.text source)).getD "")
  if path = "" then none
  else some ⟨path, (t.child? .name).map (Tree.text source), t.start⟩

def importSpecs (t : Tree) : List Tree :=
  t.children.flatMap fun c ↦ if c.hasKind .importSpecList then c.children else [c]

def imports (t : Tree) : List Import :=
  ((importSpecs t).filter (Tree.hasKind · .importSpec)).filterMap (import? source)

/-- The top-level trees of a kind. -/
def ofKind (kind : Kind) (trees : List Tree) : List Tree := trees.filter (Tree.hasKind · kind)

/-- The name in the first package clause. -/
def package? (trees : List Tree) : Option String := do
  let clause ← (ofKind .packageClause trees).head?
  let name ← clause.children.find? Tree.isNamed
  return name.text source

def file (path : String) (trees : List Tree) : Except SourceError SourceFile :=
  match package? source trees with
  | none => .error .noPackage
  | some package => .ok
    { path := path
      package := package
      imports := (ofKind .importDecl trees).flatMap (imports source)
      types := (ofKind .typeDecl trees).flatMap (typeNames source)
      vars := (ofKind .varDecl trees).flatMap (varNames source)
      functions := functions source [] trees }

end Lower

/-- Reads a source file. -/
def readSource (path : String) (source : ByteArray) : Except SourceError SourceFile :=
  match (tokens? source).bind parseFile? with
  | none => .error .malformed
  | some trees => Lower.file source path trees

end GoComplexity.Source
