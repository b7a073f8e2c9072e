import GoComplexity.Proofs.Syntax.Nodes

/-!
# Kinds of parts

The parts of a node come in groups, one for each kind of part: the test of a conditional, its first
block, the list of a clause and so on. The groups of a node put together are its parts. Parts of some
kinds lie one level of nesting deeper than their node.
-/

namespace GoComplexity.Syntax

/-- What a part is to the node that it belongs to. -/
inductive PartKind where
  /-- The statement in front of the test of a conditional. -/
  | init
  | test
  | thenBlock
  | elseIf
  | elseBlock
  /-- The expressions in front of the body of a loop. -/
  | header
  /-- The body of a loop, switch or select. -/
  | body
  | switchInit
  | tag
  | caseList
  | operation
  | clauseBody
  | bareBlock
  | label
  /-- An expression of a return, of a simple statement or of another expression. -/
  | operand
  | literalBody
deriving DecidableEq

/-- Whether parts of the kind lie one level deeper. -/
def PartKind.opens : PartKind → Bool
  | .thenBlock | .elseBlock | .body | .clauseBody | .literalBody => true
  | _ => false

namespace Node

def groupsOfAlternative : Alternative → List (PartKind × List Node)
  | .absent => []
  | .elseIf next => [(.elseIf, [.cond next])]
  | .elseBlock body => [(.elseBlock, ofBlock body)]

/-- The parts of a node by kind, in source order. -/
def groups : Node → List (PartKind × List Node)
  | .cond (.mk _ init test body alternative) =>
    (.init, init.toList.map ofStmt) :: (.test, [.expr test]) :: (.thenBlock, ofBlock body) ::
      groupsOfAlternative alternative
  | .stmt s => match s with
    -- No body has this node. It is given the parts that `children` gives it.
    | .cond c => [(.label, [.cond c])]
    | .loop _ _ header body => [(.header, header.map expr), (.body, ofBlock body)]
    | .switch _ _ init tag body =>
      [(.switchInit, init.toList.map ofStmt), (.tag, tag.toList.map expr), (.body, ofBlock body)]
    | .select _ body => [(.body, ofBlock body)]
    | .case _ list body => [(.caseList, list.map expr), (.clauseBody, body.map ofStmt)]
    | .comm _ operation body =>
      [(.operation, operation.toList.map ofStmt), (.clauseBody, body.map ofStmt)]
    | .block b => [(.bareBlock, ofBlock b)]
    | .labeled _ _ inner => [(.label, inner.toList.map ofStmt)]
    | .ret _ results => [(.operand, results.map expr)]
    | .simple _ _ exprs => [(.operand, exprs.map expr)]
  | .expr e => match e with
    | .ident _ => []
    | .lit _ _ => []
    | .composite type elements => [(.operand, type.toList.map expr), (.operand, elements.map expr)]
    | .call callee args => [(.operand, [.expr callee]), (.operand, args.map expr)]
    | .selector operand _ => [(.operand, [.expr operand])]
    | .funcLit body => [(.literalBody, ofBlock body)]
    | .binary _ left right => [(.operand, [.expr left]), (.operand, [.expr right])]
    | .other parts => [(.operand, parts.map expr)]

/-- No part of a node is left out of its groups, and none is in two. -/
theorem flatMap_groups (n : Node) : n.groups.flatMap Prod.snd = n.children := by
  match n with
  | .cond (.mk _ _ _ _ alternative) =>
    cases alternative <;> simp [groups, groupsOfAlternative, children, ofAlternative]
  | .stmt s => cases s <;> simp [groups, children]
  | .expr e => cases e <;> simp [groups, children]

/-- The parts of a node, each with its kind, in source order. -/
def members (n : Node) : List (PartKind × Node) :=
  n.groups.flatMap fun group ↦ group.2.map (Prod.mk group.1)

theorem mem_members_iff {n : Node} {member : PartKind × Node} :
    member ∈ n.members ↔ ∃ group, (member.1, group) ∈ n.groups ∧ member.2 ∈ group := by
  obtain ⟨kind, m⟩ := member
  simp [members]

theorem map_snd_members (n : Node) : n.members.map Prod.snd = n.children := by
  rw [← flatMap_groups, members, List.map_flatMap]
  apply List.flatMap_congr
  intro group _
  rw [List.map_map]
  exact List.map_id group.2

theorem mem_children_of_mem_members {n : Node} {member : PartKind × Node} (h : member ∈ n.members) :
    member.2 ∈ n.children := by
  rw [← map_snd_members]
  exact List.mem_map_of_mem h

end Node

end GoComplexity.Syntax
