import GoComplexity.Source.Rule
import Mathlib.Data.List.Basic
import Mathlib.Logic.Relation

/-!
# What reading keeps

A rule moves tokens from the input into trees. No token is lost, added or moved past another one: the
leaves of the trees followed by the tokens left are the tokens from before, except that some marks may
have been cut in two. The statements about a whole run of a grammar come from two facts, what repeating
a step keeps and what entering a symbol keeps.
-/

namespace GoComplexity.Source

open Syntax

/-! ## The tokens of a tree -/

namespace Tree

mutual

/-- The tokens at the leaves, in order. -/
def tokens : Tree → List Token
  | .leaf _ token => [token]
  | .node _ _ children => tokensOf children

def tokensOf : List Tree → List Token
  | [] => []
  | t :: ts => t.tokens ++ tokensOf ts

end

theorem tokensOf_eq_flatMap (ts : List Tree) : tokensOf ts = ts.flatMap tokens := by
  induction ts with
  | nil => rfl
  | cons t ts ih => rw [tokensOf, ih, List.flatMap_cons]

theorem tokens_eq_flatMap_children {t : Tree} {k : Kind} (h : t.kind? = some k) :
    t.tokens = t.children.flatMap tokens := by
  cases t with
  | leaf => simp [kind?] at h
  | node role kind children => exact tokensOf_eq_flatMap children

/-- A node has the tokens of its children, in order. -/
@[simp]
theorem tokens_node (role : Option Role) (kind : Kind) (children : List Tree) :
    (node role kind children).tokens = children.flatMap tokens :=
  tokensOf_eq_flatMap children

@[simp]
theorem tokens_withRole (r : Role) (t : Tree) : (t.withRole r).tokens = t.tokens := by
  cases t with
  | leaf role => cases role <;> rfl
  | node role => cases role <;> rfl

mutual

/-- The first token of a tree is the first of its tokens. -/
theorem first?_eq_head? : ∀ t : Tree, t.first? = t.tokens.head?
  | .leaf .. => rfl
  | .node _ _ children => firstOf?_eq_head? children

theorem firstOf?_eq_head? : ∀ ts : List Tree, firstOf? ts = (tokensOf ts).head?
  | [] => rfl
  | t :: ts => by
    rw [firstOf?, tokensOf, first?_eq_head? t, firstOf?_eq_head? ts, List.head?_append]
    cases t.tokens.head? <;> rfl

end

mutual

/-- The last token of a tree is the last of its tokens. -/
theorem last?_eq_getLast? : ∀ t : Tree, t.last? = t.tokens.getLast?
  | .leaf .. => rfl
  | .node _ _ children => lastOf?_eq_getLast? children

theorem lastOf?_eq_getLast? : ∀ ts : List Tree, lastOf? ts = (tokensOf ts).getLast?
  | [] => rfl
  | t :: ts => by
    rw [lastOf?, tokensOf, last?_eq_getLast? t, lastOf?_eq_getLast? ts, List.getLast?_append]
    cases (tokensOf ts).getLast? <;> rfl

end

/-- A tree with tokens starts where the first one does. -/
theorem start_of_tokens_eq_cons {t : Tree} {token : Token} {rest : List Token}
    (h : t.tokens = token :: rest) : t.start = token.start := by
  rw [start, first?_eq_head?, h]
  rfl

end Tree

/-! ## Cutting marks -/

/-- One mark of a token list is cut in two. -/
inductive Cut : List Token → List Token → Prop where
  | intro (before after : List Token) {t : Token} {a b : String} (hkind : t.kind = .mark (a ++ b))
      (ha : a ≠ "") (hb : b ≠ "") : Cut (before ++ t :: after) (before ++ (t.halves a b ++ after))

/-- Some marks of a token list are cut. -/
abbrev Refines : List Token → List Token → Prop := Relation.ReflTransGen Cut

theorem Cut.append_left {xs ys : List Token} (h : Cut xs ys) (front : List Token) :
    Cut (front ++ xs) (front ++ ys) := by
  cases h with
  | intro before after hkind ha hb =>
    rw [← List.append_assoc, ← List.append_assoc]
    exact .intro (front ++ before) after hkind ha hb

theorem Refines.append_left {xs ys : List Token} (h : Refines xs ys) (front : List Token) :
    Refines (front ++ xs) (front ++ ys) :=
  Relation.ReflTransGen.lift (front ++ ·) (fun _ _ hcut ↦ Cut.append_left hcut front) _ _ h

/-! ## Runs -/

namespace Reading

/-- All tokens of a reading: those in trees and those left. -/
def tokens (r : Reading) : List Token := r.1.flatMap Tree.tokens ++ r.2

/-- Collecting a token moves it from what is left to the trees. -/
theorem tokens_append_leaf (acc : List Tree) (t : Token) (rest : List Token) :
    tokens (acc ++ [.leaf none t], rest) = tokens (acc, t :: rest) := by
  simp only [tokens, List.flatMap_append, List.flatMap_cons, List.flatMap_nil, Tree.tokens,
    List.append_assoc, List.append_nil, List.singleton_append]

theorem tokens_wrap (k : Kind) (acc : List Tree) (toks : List Token) :
    tokens ([.node none k acc], toks) = tokens (acc, toks) := by
  simp only [tokens, List.flatMap_cons, List.flatMap_nil, Tree.tokens_node, List.append_nil]

theorem tokens_assign (role : Role) (acc : List Tree) (toks : List Token) :
    tokens (acc.map (Tree.withRole role), toks) = tokens (acc, toks) := by
  simp only [tokens, List.flatMap_map, Tree.tokens_withRole]

/-- Trees that were collected apart are appended to those from before. -/
theorem refines_append {toks : List Token} {r : Reading} (h : Refines toks (tokens r))
    (acc : List Tree) : Refines (tokens (acc, toks)) (tokens (acc ++ r.1, r.2)) := by
  have happended := h.append_left (acc.flatMap Tree.tokens)
  simpa only [tokens, List.flatMap_append, List.append_assoc] using happended

end Reading

/-- What one step keeps is kept by repeating it. -/
theorem iterate_keeps {P : Reading → Prop} {step : List Tree → List Token → Option Reading}
    (hstep : ∀ r r', P r → step r.1 r.2 = some r' → P r') (fuel : ℕ) (r : Reading) (h : P r) :
    P (iterate step fuel r.1 r.2) := by
  induction fuel generalizing r with
  | zero => exact h
  | succ fuel ih =>
    rw [iterate]
    cases hr : step r.1 r.2 with
    | none => exact h
    | some r' => exact ih r' (hstep r r' h hr)

/-- What holds of every rule of a grammar whenever it holds of the symbols entered holds of every
symbol. -/
theorem parse_induction {σ : Type} {grammar : σ → Rule σ} {P : σ → List Token → Reading → Prop}
    (step : ∀ fuel enter, (∀ s toks r, enter s toks = some r → P s toks r) →
      ∀ s toks r, (grammar s).run fuel enter [] toks = some r → P s toks r)
    {fuel : ℕ} {s : σ} {toks : List Token} {r : Reading} (h : parse grammar fuel s toks = some r) :
    P s toks r := by
  induction fuel generalizing s toks r with
  | zero => simp [parse] at h
  | succ fuel ih => exact step fuel (parse grammar fuel) (fun s toks r ↦ ih) s toks r h

namespace Rule

variable {σ : Type}

/-- Whether every mark that the rule takes apart has two parts. -/
def isProper : Rule σ → Bool
  | .seq a b => a.isProper && b.isProper
  | .alt a b => a.isProper && b.isProper
  | .star a => a.isProper
  | .scope a => a.isProper
  | .split a b => a != "" && b != ""
  | _ => true

variable {fuel : ℕ} {enter : σ → List Token → Option Reading} {a b : Rule σ}
  {acc acc' : List Tree} {toks toks' : List Token} {r : Reading}

/-! ### What a successful run did, form by form -/

/-- To take a token is to collect it as a leaf. -/
theorem tokens_of_run_take {c : TokenClass} (h : (take c).run fuel enter acc toks = some r) :
    ∃ t rest, toks = t :: rest ∧ c.admits t.kind = true ∧ r = (acc ++ [.leaf none t], rest) := by
  cases toks with
  | nil => simp [run] at h
  | cons t rest =>
    rw [run] at h
    split_ifs at h with hadmits
    exact ⟨t, rest, rfl, hadmits, (Option.some.inj h).symm⟩

/-- A call puts the trees of the symbol behind those collected. -/
theorem exists_of_run_call {s : σ} (h : (call s).run fuel enter acc toks = some (acc', toks')) :
    ∃ trees, enter s toks = some (trees, toks') ∧ acc' = acc ++ trees := by
  obtain ⟨⟨trees, rest⟩, henter, heq⟩ := Option.map_eq_some_iff.mp h
  obtain ⟨rfl, rfl⟩ := Prod.mk.inj heq
  exact ⟨trees, henter, rfl⟩

/-- A sequence runs its rules one after the other. -/
theorem exists_of_run_seq (h : (seq a b).run fuel enter acc toks = some r) :
    ∃ acc' toks', a.run fuel enter acc toks = some (acc', toks') ∧
      b.run fuel enter acc' toks' = some r := by
  rw [run] at h
  split at h
  · cases h
  · exact ⟨_, _, ‹_›, h⟩

/-- A choice runs one of its rules. -/
theorem run_or_run_of_run_alt (h : (alt a b).run fuel enter acc toks = some r) :
    a.run fuel enter acc toks = some r ∨ b.run fuel enter acc toks = some r := by
  rw [run] at h
  split at h
  · exact Or.inr h
  · rename_i ha
    exact Or.inl (ha.trans h)

/-- A scope runs its rule apart and puts the trees behind those collected. -/
theorem exists_of_run_scope (h : (scope a).run fuel enter acc toks = some (acc', toks')) :
    ∃ trees, a.run fuel enter [] toks = some (trees, toks') ∧ acc' = acc ++ trees := by
  obtain ⟨⟨trees, rest⟩, hrun, heq⟩ := Option.map_eq_some_iff.mp h
  obtain ⟨rfl, rfl⟩ := Prod.mk.inj heq
  exact ⟨trees, hrun, rfl⟩

/-- What one round keeps is kept by repeating it. -/
theorem star_keeps {P : Reading → Prop}
    (hround : ∀ r r', P r → a.run fuel enter r.1 r.2 = some r' → P r') (hstart : P (acc, toks))
    (h : (star a).run fuel enter acc toks = some r) : P r := by
  rw [← Option.some.inj h]
  exact iterate_keeps hround fuel (acc, toks) hstart

/-- Looking ahead reads nothing. -/
theorem eq_of_run_ahead (h : (ahead a).run fuel enter acc toks = some r) : r = (acc, toks) := by
  obtain ⟨_, _, rfl⟩ := Option.map_eq_some_iff.mp h
  rfl

theorem eq_of_run_notAhead (h : (notAhead a).run fuel enter acc toks = some r) :
    r = (acc, toks) := by
  rw [run] at h
  split_ifs at h
  exact (Option.some.inj h).symm

theorem eq_of_run_sameLine (h : (sameLine : Rule σ).run fuel enter acc toks = some r) :
    r = (acc, toks) := by
  cases toks with
  | nil => simp [run] at h
  | cons t rest =>
    simp only [run] at h
    split_ifs at h
    exact (Option.some.inj h).symm

theorem eq_of_run_beyondBraces (h : (beyondBraces a).run fuel enter acc toks = some r) :
    r = (acc, toks) := by
  rw [run] at h
  split_ifs at h
  obtain ⟨_, _, rfl⟩ := Option.map_eq_some_iff.mp h
  rfl

/-- At the end of a statement either nothing is read, or a semicolon or null byte. -/
theorem tokens_of_run_ends (h : (ends : Rule σ).run fuel enter acc toks = some r) :
    r = (acc, toks) ∨ ∃ t rest, toks = t :: rest ∧ (t.kind = .mark ";" ∨ t.kind = .mark "\x00") ∧
      r = (acc ++ [.leaf none t], rest) := by
  cases toks with
  | nil => exact Or.inl (Option.some.inj h).symm
  | cons t rest =>
    simp only [run] at h
    split_ifs at h with hnewline hmark
    · exact Or.inl (Option.some.inj h).symm
    · rw [Bool.or_eq_true, beq_iff_eq, beq_iff_eq] at hmark
      exact Or.inr ⟨t, rest, rfl, hmark, (Option.some.inj h).symm⟩

/-- Taking a mark apart reads nothing and leaves two tokens for one. -/
theorem tokens_of_run_split {x y : String} (h : (split x y).run fuel enter acc toks = some r) :
    ∃ t rest, toks = t :: rest ∧ t.kind = .mark (x ++ y) ∧ r = (acc, t.halves x y ++ rest) := by
  cases toks with
  | nil => simp [run] at h
  | cons t rest =>
    simp only [run] at h
    split_ifs at h with hkind
    exact ⟨t, rest, rfl, beq_iff_eq.mp hkind, (Option.some.inj h).symm⟩

/-! ### Reading keeps the tokens -/

/-- A rule only cuts marks: the tokens stay, read or not. -/
theorem run_refines (henter : ∀ s toks r, enter s toks = some r → Refines toks (Reading.tokens r))
    (a : Rule σ) (hproper : a.isProper = true) (h : a.run fuel enter acc toks = some r) :
    Refines (Reading.tokens (acc, toks)) (Reading.tokens r) := by
  induction a generalizing acc toks r with
  | empty => rw [← Option.some.inj h]
  | fail => simp [run] at h
  | take c =>
    obtain ⟨t, rest, rfl, -, rfl⟩ := tokens_of_run_take h
    rw [Reading.tokens_append_leaf]
  | call s =>
    obtain ⟨trees, rest⟩ := r
    obtain ⟨trees, henter', rfl⟩ := exists_of_run_call h
    exact Reading.refines_append (henter s toks (trees, rest) henter') acc
  | seq a b iha ihb =>
    rw [isProper, Bool.and_eq_true] at hproper
    obtain ⟨_, _, ha, hb⟩ := exists_of_run_seq h
    exact (iha hproper.1 ha).trans (ihb hproper.2 hb)
  | alt a b iha ihb =>
    rw [isProper, Bool.and_eq_true] at hproper
    exact (run_or_run_of_run_alt h).elim (iha hproper.1) (ihb hproper.2)
  | star a ih =>
    apply star_keeps (P := fun r ↦ Refines (Reading.tokens (acc, toks)) (Reading.tokens r)) _ .refl h
    intro r r' hr hround
    exact hr.trans (ih hproper hround)
  | scope a ih =>
    obtain ⟨trees, rest⟩ := r
    obtain ⟨trees, hscope, rfl⟩ := exists_of_run_scope h
    exact Reading.refines_append (ih hproper hscope) acc
  | wrap k =>
    rw [← Option.some.inj h, Reading.tokens_wrap]
  | assign role =>
    rw [← Option.some.inj h, Reading.tokens_assign]
  | ahead a => rw [eq_of_run_ahead h]
  | notAhead a => rw [eq_of_run_notAhead h]
  | sameLine => rw [eq_of_run_sameLine h]
  | beyondBraces a => rw [eq_of_run_beyondBraces h]
  | ends =>
    rcases tokens_of_run_ends h with rfl | ⟨t, rest, rfl, -, rfl⟩
    · exact .refl
    · rw [Reading.tokens_append_leaf]
  | split x y =>
    rw [isProper, Bool.and_eq_true, bne_iff_ne, bne_iff_ne] at hproper
    obtain ⟨t, rest, rfl, hkind, rfl⟩ := tokens_of_run_split h
    exact .single (.intro _ rest hkind hproper.1 hproper.2)

end Rule

/-- A grammar collects the tokens that it reads, in order, each once, some of them in halves. -/
theorem parse_refines {σ : Type} {grammar : σ → Rule σ} (hproper : ∀ s, (grammar s).isProper = true)
    {fuel : ℕ} {s : σ} {toks : List Token} {r : Reading} (h : parse grammar fuel s toks = some r) :
    Refines toks (Reading.tokens r) := by
  refine parse_induction (P := fun _ toks r ↦ Refines toks (Reading.tokens r)) ?_ h
  intro fuel enter henter s toks r hrun
  exact Rule.run_refines henter (grammar s) (hproper s) hrun

end GoComplexity.Source
