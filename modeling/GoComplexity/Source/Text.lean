import GoComplexity.Source.Lexer
import GoComplexity.Source.Tree

/-!
# The text behind a tree

The text of a tree is the source from its first token to its last one, comments inside included. Text
that is not UTF-8 counts as empty.
-/

namespace GoComplexity.Source

open Syntax

/-- The source text between two offsets. -/
def slice (source : ByteArray) (start stop : Nat) : String := textOf (source.extract start stop)

def Comment.text (source : ByteArray) (c : Comment) : String :=
  slice source c.start.offset c.stop.offset

/-- A child of a node or a comment between two children. -/
inductive Piece where
  | comment (c : Comment)
  | tree (t : Tree)

namespace Piece

def isNamed : Piece → Bool
  | .comment _ => true
  | .tree t => t.isNamed

end Piece

namespace Tree

def text (source : ByteArray) (t : Tree) : String := slice source t.start.offset t.stop.offset

/-- The trees with the comments before each of them. -/
def piecesOf (trees : List Tree) : List Piece :=
  trees.flatMap fun t ↦ t.comments.map Piece.comment ++ [Piece.tree t]

/-- The children with the comments between them. -/
def pieces (t : Tree) : List Piece :=
  match t.children with
  | [] => []
  | first :: rest => .tree first :: piecesOf rest

/-- The first child that stands for a piece of syntax, or a comment before it. -/
def firstNamed? (t : Tree) : Option Piece := t.pieces.find? Piece.isNamed

end Tree

def Piece.text (source : ByteArray) : Piece → String
  | .comment c => c.text source
  | .tree t => t.text source

end GoComplexity.Source
