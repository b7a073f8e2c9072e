import GoComplexity.Proofs.Source.Reading
import GoComplexity.Source.Grammar
import Mathlib.Data.List.Forall2

/-!
# Reading alike tokens

The grammar looks at the kinds of tokens and at the line breaks before them, but not at where they
stand. So two lists of tokens that agree on these are read alike: the same rules succeed, and they build
trees of one shape that have corresponding tokens at their leaves.
-/

namespace GoComplexity.Source

open Syntax List

/-! ## Alike tokens and trees -/

/-- A relation between tokens that a grammar cannot tell apart, in one piece or cut in two. -/
structure Similarity (R : Token → Token → Prop) : Prop where
  kind : ∀ t t', R t t' → t'.kind = t.kind
  newline : ∀ t t', R t t' → t'.newline = t.newline
  halves : ∀ t t' a b, R t t' → t.kind = .mark (a ++ b) → Forall₂ R (t.halves a b) (t'.halves a b)

/-- Trees of one shape with related tokens at their leaves. -/
inductive Tree.Alike (R : Token → Token → Prop) : Tree → Tree → Prop where
  | leaf (role : Option Role) {t t' : Token} (htoken : R t t') : Alike R (.leaf role t) (.leaf role t')
  | node (role : Option Role) (kind : Kind) {children children' : List Tree}
      (hchildren : Forall₂ (Alike R) children children') :
      Alike R (.node role kind children) (.node role kind children')

/-- Readings with alike trees and related tokens left. -/
structure Reading.Alike (R : Token → Token → Prop) (r r' : Reading) : Prop where
  trees : Forall₂ (Tree.Alike R) r.1 r'.1
  left : Forall₂ R r.2 r'.2

variable {R : Token → Token → Prop}

/-- A role that is given to alike trees keeps them alike. -/
theorem Tree.Alike.withRole {t t' : Tree} (h : t.Alike R t') (r : Role) :
    (t.withRole r).Alike R (t'.withRole r) := by
  cases h with
  | leaf role htoken => cases role <;> exact .leaf _ htoken
  | node role kind hchildren => cases role <;> exact .node _ kind hchildren

namespace Reading.Alike

/-- Trees that were collected apart stay alike behind others. -/
theorem append {r r' : Reading} (h : r.Alike R r') {acc acc' : List Tree}
    (hacc : Forall₂ (Tree.Alike R) acc acc') :
    Reading.Alike R (acc ++ r.1, r.2) (acc' ++ r'.1, r'.2) :=
  ⟨rel_append hacc h.trees, h.left⟩

theorem appendLeaf {acc acc' : List Tree} (hacc : Forall₂ (Tree.Alike R) acc acc') {t t' : Token}
    (htoken : R t t') {toks toks' : List Token} (htoks : Forall₂ R toks toks') :
    Reading.Alike R (acc ++ [.leaf none t], toks) (acc' ++ [.leaf none t'], toks') := by
  have hleaf : Reading.Alike R ([.leaf none t], toks) ([.leaf none t'], toks') :=
    ⟨.cons (.leaf none htoken) .nil, htoks⟩
  exact hleaf.append hacc

end Reading.Alike

/-! ## Runs -/

theorem rel_map_option {α β : Type} {P : α → α → Prop} {Q : β → β → Prop} {x y : Option α}
    (h : Option.Rel P x y) {f g : α → β} (hfg : ∀ a b, P a b → Q (f a) (g b)) :
    Option.Rel Q (x.map f) (y.map g) := by
  cases h with
  | none => exact .none
  | some h => exact .some (hfg _ _ h)

/-- Repeating steps that go alike goes alike. -/
theorem iterate_alike {step step' : List Tree → List Token → Option Reading}
    (hstep : ∀ r r' : Reading, r.Alike R r' →
      Option.Rel (Reading.Alike R) (step r.1 r.2) (step' r'.1 r'.2))
    (fuel : ℕ) {r r' : Reading} (h : r.Alike R r') :
    Reading.Alike R (iterate step fuel r.1 r.2) (iterate step' fuel r'.1 r'.2) := by
  induction fuel generalizing r r' with
  | zero => exact h
  | succ fuel ih =>
    rw [iterate, iterate]
    have hnext := hstep r r' h
    generalize step r.1 r.2 = next at hnext
    generalize step' r'.1 r'.2 = next' at hnext
    cases hnext with
    | none => exact h
    | some hnext => exact ih hnext

/-- Whether a block starts is decided by the kind of the first token. -/
theorem startsBlock_eq_of_alike (hR : Similarity R) {toks toks' : List Token}
    (h : Forall₂ R toks toks') : startsBlock toks' = startsBlock toks := by
  cases h with
  | nil => rfl
  | cons htoken => rw [startsBlock, startsBlock, hR.kind _ _ htoken]

/-- Braces are matched by kinds, so alike tokens are left behind the closing one. -/
theorem afterBraces_alike (hR : Similarity R) {toks toks' : List Token} (h : Forall₂ R toks toks')
    (depth : ℕ) : Forall₂ R (afterBraces depth toks) (afterBraces depth toks') := by
  induction h generalizing depth with
  | nil => exact .nil
  | @cons t t' toks toks' htoken htoks ih =>
    rw [afterBraces.eq_def, afterBraces.eq_def _ (t' :: toks')]
    simp only [hR.kind _ _ htoken]
    split
    · exact ih _
    split
    · split
      · exact htoks
      · exact htoks
      · exact ih _
    · split
      · exact .cons htoken htoks
      · exact ih _

namespace Rule

variable {σ : Type} {fuel : ℕ} {enter : σ → List Token → Option Reading} {a b : Rule σ}

/-- Whether a rule does the same with alike trees and tokens. -/
def RunsAlike (R : Token → Token → Prop) (fuel : ℕ) (enter : σ → List Token → Option Reading)
    (a : Rule σ) : Prop :=
  ∀ ⦃acc acc' : List Tree⦄, Forall₂ (Tree.Alike R) acc acc' →
    ∀ ⦃toks toks' : List Token⦄, Forall₂ R toks toks' →
      Option.Rel (Reading.Alike R) (a.run fuel enter acc toks) (a.run fuel enter acc' toks')

namespace RunsAlike

/-- A token class asks for the kind of a token only. -/
theorem take (hR : Similarity R) (c : TokenClass) : (take c).RunsAlike R fuel enter := by
  intro acc acc' hacc toks toks' htoks
  cases htoks with
  | nil => exact .none
  | cons htoken htoks =>
    rw [run, run, hR.kind _ _ htoken]
    split
    · exact .some (.appendLeaf hacc htoken htoks)
    · exact .none

/-- What a symbol collects is put behind what was collected before. -/
theorem call (henter : ∀ s toks toks', Forall₂ R toks toks' →
      Option.Rel (Reading.Alike R) (enter s toks) (enter s toks')) (s : σ) :
    (call s).RunsAlike R fuel enter := by
  intro acc acc' hacc toks toks' htoks
  apply rel_map_option (henter s toks toks' htoks)
  intro r r' h
  exact h.append hacc

/-- The second rule goes on from alike readings, or there is nothing to go on from. -/
theorem seq (ha : a.RunsAlike R fuel enter) (hb : b.RunsAlike R fuel enter) :
    (seq a b).RunsAlike R fuel enter := by
  intro acc acc' hacc toks toks' htoks
  have hfirst := ha hacc htoks
  rw [run, run]
  generalize a.run fuel enter acc toks = x at hfirst
  generalize a.run fuel enter acc' toks' = y at hfirst
  cases hfirst with
  | none => exact .none
  | some h => exact hb h.trees h.left

/-- Both sides commit to the same alternative. -/
theorem alt (ha : a.RunsAlike R fuel enter) (hb : b.RunsAlike R fuel enter) :
    (alt a b).RunsAlike R fuel enter := by
  intro acc acc' hacc toks toks' htoks
  have hfirst := ha hacc htoks
  rw [run, run]
  generalize a.run fuel enter acc toks = x at hfirst
  generalize a.run fuel enter acc' toks' = y at hfirst
  cases hfirst with
  | none => exact hb hacc htoks
  | some h => exact .some h

/-- Both sides go round equally often. -/
theorem star (ha : a.RunsAlike R fuel enter) : (star a).RunsAlike R fuel enter := by
  intro acc acc' hacc toks toks' htoks
  have hstart : Reading.Alike R (acc, toks) (acc', toks') := ⟨hacc, htoks⟩
  exact .some (iterate_alike (fun r r' h ↦ ha h.trees h.left) fuel hstart)

/-- Trees collected apart are alike, and are put behind alike ones. -/
theorem scope (ha : a.RunsAlike R fuel enter) : (scope a).RunsAlike R fuel enter := by
  intro acc acc' hacc toks toks' htoks
  apply rel_map_option (ha .nil htoks)
  intro r r' h
  exact h.append hacc

theorem ahead (ha : a.RunsAlike R fuel enter) : (ahead a).RunsAlike R fuel enter := by
  intro acc acc' hacc toks toks' htoks
  apply rel_map_option (ha .nil htoks)
  intro r r' _
  exact ⟨hacc, htoks⟩

/-- Looking ahead fails on both sides or on none. -/
theorem notAhead (ha : a.RunsAlike R fuel enter) : (notAhead a).RunsAlike R fuel enter := by
  intro acc acc' hacc toks toks' htoks
  have hahead := ha .nil htoks
  rw [run, run]
  generalize a.run fuel enter [] toks = x at hahead
  generalize a.run fuel enter [] toks' = y at hahead
  cases hahead with
  | none => exact .some ⟨hacc, htoks⟩
  | some h => exact .none

theorem sameLine (hR : Similarity R) : (sameLine : Rule σ).RunsAlike R fuel enter := by
  intro acc acc' hacc toks toks' htoks
  cases htoks with
  | nil => exact .none
  | cons htoken htoks =>
    simp only [run, hR.newline _ _ htoken]
    split
    · exact .none
    · exact .some ⟨hacc, .cons htoken htoks⟩

theorem ends (hR : Similarity R) : (ends : Rule σ).RunsAlike R fuel enter := by
  intro acc acc' hacc toks toks' htoks
  cases htoks with
  | nil => exact .some ⟨hacc, .nil⟩
  | cons htoken htoks =>
    simp only [run, hR.newline _ _ htoken, hR.kind _ _ htoken]
    split
    · exact .some ⟨hacc, .cons htoken htoks⟩
    split
    · exact .some (.appendLeaf hacc htoken htoks)
    · exact .none

/-- The two halves of a mark are alike, and so is what they are put in front of. -/
theorem split (hR : Similarity R) (x y : String) : (split x y : Rule σ).RunsAlike R fuel enter := by
  intro acc acc' hacc toks toks' htoks
  cases htoks with
  | nil => exact .none
  | cons htoken htoks =>
    simp only [run, hR.kind _ _ htoken]
    split
    · rename_i hkind
      exact .some ⟨hacc, rel_append (hR.halves _ _ x y htoken (beq_iff_eq.mp hkind)) htoks⟩
    · exact .none

theorem beyondBraces (hR : Similarity R) (ha : a.RunsAlike R fuel enter) :
    (beyondBraces a).RunsAlike R fuel enter := by
  intro acc acc' hacc toks toks' htoks
  rw [run, run, startsBlock_eq_of_alike hR htoks]
  split
  · apply rel_map_option (ha .nil (afterBraces_alike hR htoks 0))
    intro r r' _
    exact ⟨hacc, htoks⟩
  · exact .none

end RunsAlike

/-- A rule does the same with alike trees and tokens, if entering a symbol does. -/
theorem runsAlike_of_enter (hR : Similarity R)
    (henter : ∀ s toks toks', Forall₂ R toks toks' →
      Option.Rel (Reading.Alike R) (enter s toks) (enter s toks'))
    (a : Rule σ) : a.RunsAlike R fuel enter := by
  induction a with
  | empty => exact fun _ _ hacc _ _ htoks ↦ .some ⟨hacc, htoks⟩
  | fail => exact fun _ _ _ _ _ _ ↦ .none
  | take c => exact .take hR c
  | call s => exact .call henter s
  | seq a b iha ihb => exact .seq iha ihb
  | alt a b iha ihb => exact .alt iha ihb
  | star a ih => exact .star ih
  | scope a ih => exact .scope ih
  | wrap k =>
    intro acc acc' hacc toks toks' htoks
    exact .some ⟨.cons (.node none k hacc) .nil, htoks⟩
  | assign role =>
    intro acc acc' hacc toks toks' htoks
    exact .some ⟨rel_map (fun _ _ h ↦ h.withRole role) hacc, htoks⟩
  | ahead a ih => exact .ahead ih
  | notAhead a ih => exact .notAhead ih
  | sameLine => exact .sameLine hR
  | ends => exact .ends hR
  | split x y => exact .split hR x y
  | beyondBraces a ih => exact .beyondBraces hR ih

end Rule

/-- A grammar reads alike tokens alike. -/
theorem parse_alike (hR : Similarity R) {σ : Type} (grammar : σ → Rule σ) (fuel : ℕ) (s : σ)
    (toks toks' : List Token) (h : Forall₂ R toks toks') :
    Option.Rel (Reading.Alike R) (parse grammar fuel s toks) (parse grammar fuel s toks') := by
  induction fuel generalizing s toks toks' with
  | zero => exact .none
  | succ fuel ih => exact Rule.runsAlike_of_enter hR ih (grammar s) .nil h

/-- The trees of alike files are alike. -/
theorem parseFile?_alike (hR : Similarity R) {toks toks' : List Token} (h : Forall₂ R toks toks')
    {trees : List Tree} (htrees : parseFile? toks = some trees) :
    ∃ trees', parseFile? toks' = some trees' ∧ Forall₂ (Tree.Alike R) trees trees' := by
  rw [parseFile?] at htrees ⊢
  rw [← h.length_eq]
  generalize 32 * (toks.length + 1) = fuel at htrees
  have hrun : Option.Rel (Reading.Alike R) (Grammar.file.run fuel (parse Grammar.rule fuel) [] toks)
      (Grammar.file.run fuel (parse Grammar.rule fuel) [] toks') :=
    Rule.runsAlike_of_enter hR (parse_alike hR Grammar.rule fuel) Grammar.file .nil h
  generalize Grammar.file.run fuel (parse Grammar.rule fuel) [] toks = x at hrun htrees
  generalize Grammar.file.run fuel (parse Grammar.rule fuel) [] toks' = y at hrun
  cases hrun with
  | none => simp at htrees
  | @some r r' hrun =>
    obtain ⟨trees₁, left⟩ := r
    obtain ⟨trees', left'⟩ := r'
    obtain ⟨halike, hleft⟩ := hrun
    cases hleft with
    | nil =>
      obtain rfl := Option.some.inj htrees
      exact ⟨trees', rfl, halike⟩
    | cons => simp at htrees

end GoComplexity.Source
