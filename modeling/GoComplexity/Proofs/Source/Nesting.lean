import GoComplexity.Proofs.Source.Conformance
import GoComplexity.Source.Bindings
import Mathlib.Data.List.Flatten

/-!
# What lies inside types and expressions

Types and expressions hold types and expressions. What else can stand in them lies in a function literal
or in a type literal. As with the schema of the grammar, that its rules keep to this is computed once.
-/

namespace GoComplexity.Source

open scoped List

namespace Grammar

/-- The kinds of types, expressions and their parts, literals apart. -/
def quietKinds : List Kind :=
  [.typeParameterList, .typeParameterDecl, .parameterDecl, .variadicParameter, .qualifiedType,
    .genericType, .typeArguments, .typeElem, .pointerType, .sliceType, .arrayType, .implicitArrayType,
    .mapType, .channelType, .parenthesizedType, .negatedType, .unary, .binary, .selector, .index,
    .slice, .call, .argumentList, .variadicArgument, .typeAssertion, .conversion, .typeInstantiation,
    .composite, .literalValue, .keyedElement, .parenthesized]

/-- The kinds of function literals and type literals. -/
def literalKinds : List Kind := [.funcLiteral, .functionType, .interfaceType, .structType]

def isQuietMold : Mold → Bool
  | .node k => quietKinds.contains k || literalKinds.contains k
  | _ => true

/-- Types, expressions and parameter lists hold types and expressions only, and a function has no
receiver. -/
def nests (k : Kind) (o : Outline) : Bool :=
  (!(Kind.parameterList :: quietKinds).contains k || o.all.all fun l ↦ isQuietMold l.mold) &&
    (k != .functionDecl || o.limits .receiver [])

def nesting : Schema Symbol := ⟨symbolOutline, nests⟩

/-- Each node that a rule of the grammar builds keeps the nesting that the schema asks for. -/
theorem accepts_nesting (s : Symbol) : nesting.accepts (rule s) (nesting.symbol s) = true :=
  forall_rule (P := nesting.accepts) (by decide +kernel) (by decide +kernel) (by decide +kernel)
    (by decide +kernel) (by decide +kernel) (by decide +kernel) s

/-- The trees of a file nest as the grammar has it. -/
theorem nests_of_parseFile? {toks : List Token} {trees : List Tree}
    (h : parseFile? toks = some trees) : ∀ t ∈ trees, t.Conforms nests :=
  have hpasses : file.passes nesting .empty = true := by decide +kernel
  nesting.conforms_of_parseFile? accepts_nesting hpasses h

end Grammar

/-! ## Trees inside trees -/

namespace Tree

/-- Whether a tree is another one or lies below it, under nodes of the given kinds only. -/
inductive Inside (through : Kind → Prop) (n : Tree) : Tree → Prop where
  | self : Inside through n n
  | child {t c : Tree} {k : Kind} (hkind : t.kind? = some k) (hthrough : through k)
      (hc : c ∈ t.children) (h : Inside through n c) : Inside through n t

/-- Whether a tree lies in another one and in none of its type literals, unless it is one. -/
def ExposedIn (n t : Tree) : Prop := n.Inside (fun k ↦ Lower.isTypeLiteral k = false) t

def LiesIn (n t : Tree) : Prop := n.Inside (fun _ ↦ True) t

variable {through : Kind → Prop} {n t : Tree}

/-- What lies inside a tree has tokens of the tree only, in their order. -/
theorem Inside.tokens_sublist (h : n.Inside through t) : n.tokens <+ t.tokens := by
  induction h with
  | self => exact List.Sublist.refl _
  | @child t c k hkind _ hc _ ih =>
    calc n.tokens
        <+ c.tokens := ih
      _ = [c].flatMap tokens := (List.flatMap_singleton tokens c).symm
      _ <+ t.children.flatMap tokens := (List.singleton_sublist.mpr hc).flatMap tokens
      _ = t.tokens := (tokens_eq_flatMap_children hkind).symm

end Tree

/-! ## Quiet trees -/

/-- Whether a tree is a type or an expression, or a part of one. -/
def Tree.IsQuiet (t : Tree) : Prop :=
  ∀ k ∈ t.kind?, k ∈ Grammar.quietKinds ∨ k ∈ Grammar.literalKinds

namespace Tree.Conforms

/-- Parameter lists, types and expressions hold types and expressions. -/
theorem isQuiet_of_mem_children {t c : Tree} {k : Kind} (h : t.Conforms Grammar.nests)
    (hkind : t.kind? = some k) (hk : k ∈ Kind.parameterList :: Grammar.quietKinds)
    (hc : c ∈ t.children) : c.IsQuiet := by
  cases h with
  | leaf => cases hkind
  | node role o hdescribes hadmits hchildren =>
    obtain rfl := Option.some.inj hkind
    have hquiet := (Bool.and_eq_true_iff.mp hadmits).1
    rw [List.contains_iff_mem.mpr hk, Bool.not_true, Bool.false_or, List.all_eq_true] at hquiet
    obtain ⟨l, hl, hfits⟩ := hdescribes.all c hc
    intro k' hk'
    have hmold := hquiet l hl
    rw [hfits.2.eq_node hk', Grammar.isQuietMold, Bool.or_eq_true_iff] at hmold
    exact hmold.imp List.contains_iff_mem.mp List.contains_iff_mem.mp

/-- A function has no receiver list. -/
theorem child?_receiver_eq_none {t : Tree} (h : t.Conforms Grammar.nests)
    (hkind : t.kind? = some .functionDecl) : t.child? .receiver = none := by
  rw [child?, List.find?_eq_none]
  intro c hc hrole
  cases h with
  | leaf => cases hkind
  | node role o hdescribes hadmits hchildren =>
    obtain rfl := Option.some.inj hkind
    obtain ⟨m, hm, -⟩ := hdescribes.fits_of_limits (Bool.and_eq_true_iff.mp hadmits).2 hc
      (beq_iff_eq.mp hrole)
    exact absurd hm List.not_mem_nil

end Tree.Conforms

end GoComplexity.Source
