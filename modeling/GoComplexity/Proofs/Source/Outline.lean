import GoComplexity.Proofs.Source.Reading
import Mathlib.Data.List.Lattice

/-!
# Outlines of what a grammar builds

An outline says of a list of trees which roles and kinds its members have, which of them can come first
and whether the roles stand in their usual order. A schema gives an outline for each symbol of a grammar
and tells which outlines the children of a node may have. Whether a rule keeps to a schema can be
computed from the rule alone, and a grammar whose rules all do builds only trees that conform to the
schema.
-/

namespace GoComplexity.Source

/-! ## Looks -/

/-- What is known of a tree apart from its role. -/
inductive Mold where
  /-- Some keyword or punctuation. -/
  | mark
  /-- A token of a class. -/
  | leaf (c : TokenClass)
  | node (k : Kind)
deriving DecidableEq

namespace Mold

def Fits : Mold → Tree → Prop
  | .mark, t => t.isNamed = false
  | .leaf c, .leaf _ token => c.admits token.kind = true
  | .node k, .node _ kind _ => kind = k
  | _, _ => False

/-- Whether a tree of this mold can stand for a piece of syntax. -/
def mayBeNamed : Mold → Bool
  | .mark => false
  | .leaf (.mark _) => false
  | .leaf (.oneOf _) => false
  | _ => true

theorem Fits.mayBeNamed {m : Mold} {t : Tree} (h : m.Fits t) (hnamed : t.isNamed = true) :
    m.mayBeNamed = true := by
  cases m with
  | mark => exact absurd hnamed (Bool.eq_false_iff.mp h)
  | node => rfl
  | leaf c =>
    cases t with
    | node => exact h.elim
    | leaf role token =>
      simp only [Fits] at h
      simp only [Tree.isNamed] at hnamed
      cases c with
      | mark text => cases hkind : token.kind <;> simp_all [TokenClass.admits]
      | oneOf marks => cases hkind : token.kind <;> simp_all [TokenClass.admits]
      | keyword | name | constant | maker | literal | string => rfl

/-- The mold without the text of punctuation. -/
def coarse (m : Mold) : Mold := if m.mayBeNamed then m else .mark

/-- A mold that forgets which mark it is still fits. -/
theorem Fits.coarse {m : Mold} {t : Tree} (h : m.Fits t) : m.coarse.Fits t := by
  rw [Mold.coarse]
  split
  · exact h
  · rename_i hnot
    exact Bool.eq_false_iff.mpr fun hnamed ↦ hnot (h.mayBeNamed hnamed)

/-- Only the mold of its kind fits a node. -/
theorem Fits.eq_node {m : Mold} {t : Tree} {k : Kind} (h : m.Fits t) (hkind : t.kind? = some k) :
    m = .node k := by
  cases t with
  | leaf => simp [Tree.kind?] at hkind
  | node role kind children =>
    rw [Tree.kind?, Option.some.injEq] at hkind
    subst hkind
    cases m with
    | mark => simp [Fits, Tree.isNamed] at h
    | leaf => exact h.elim
    | node k => exact congrArg node h.symm

theorem kind?_of_fits_node {t : Tree} {k : Kind} (h : (node k).Fits t) : t.kind? = some k := by
  cases t with
  | leaf => exact h.elim
  | node role kind children => exact congrArg some h

/-- A role can turn a word into a keyword, but it never does the reverse. -/
theorem Fits.withRole {m : Mold} {t : Tree} (h : m.Fits t) (r : Role) : m.Fits (t.withRole r) := by
  cases t with
  | node role => cases m <;> cases role <;> exact h
  | leaf role token =>
    cases role with
    | some => exact h
    | none =>
      cases m with
      | leaf => exact h
      | node => exact h.elim
      | mark => cases hkind : token.kind <;> simp_all [Fits, Tree.isNamed, Tree.withRole]

end Mold

/-- The place of a role among the roles of a node. -/
def Role.rank : Role → ℕ
  | .initializer => 0
  | .condition | .value | .type | .communication | .callee | .left => 1
  | .alternative => 3
  | .body => 4
  | _ => 2

/-- The place of a child. Keywords and punctuation may stand anywhere, and other children without a role
stand between those with one. -/
def rankOf (named : Bool) : Option Role → Option ℕ
  | none | some .keyword => if named then some 2 else none
  | some role => some role.rank

def Tree.rank? (t : Tree) : Option ℕ := rankOf t.isNamed t.role

/-- What is known of a tree. -/
structure Look where
  role : Option Role
  mold : Mold
deriving DecidableEq

namespace Look

def Fits (l : Look) (t : Tree) : Prop := t.role = l.role ∧ l.mold.Fits t

def coarse (l : Look) : Look := { l with mold := l.mold.coarse }

/-- Whether a tree of this look can stand for a piece of syntax. -/
def mayBeNamed : Look → Bool
  | ⟨some .keyword, .leaf _⟩ => false
  | ⟨_, mold⟩ => mold.mayBeNamed

def rank? (l : Look) : Option ℕ := rankOf l.mayBeNamed l.role

/-- Whether trees of the one look may come before trees of the other. -/
def precedes (l l' : Look) : Bool := l.rank?.all fun i ↦ l'.rank?.all fun j ↦ i ≤ j

def withRole (r : Role) (l : Look) : Look := { l with role := l.role.or (some r) }

theorem Fits.mayBeNamed {l : Look} {t : Tree} (h : l.Fits t) (hnamed : t.isNamed = true) :
    l.mayBeNamed = true := by
  rw [Look.mayBeNamed.eq_def]
  split
  · rename_i c
    obtain ⟨hrole, hfits⟩ := h
    cases t with
    | node => exact hfits.elim
    | leaf role token =>
      obtain rfl : role = some .keyword := hrole
      cases hkind : token.kind <;> simp [Tree.isNamed, hkind] at hnamed
  · exact h.2.mayBeNamed hnamed

theorem Fits.rank? {l : Look} {t : Tree} (h : l.Fits t) {i : ℕ} (hi : i ∈ t.rank?) :
    i ∈ l.rank? := by
  rw [Tree.rank?, h.1] at hi
  rw [Look.rank?]
  cases hnamed : t.isNamed with
  | true => rwa [h.mayBeNamed hnamed, ← hnamed]
  | false =>
    rw [hnamed] at hi
    -- Only a role other than that of keywords gives a place, and it does so in any case.
    unfold rankOf at hi ⊢
    split at hi
    · simp at hi
    · simp at hi
    · exact hi

theorem Fits.withRole {l : Look} {t : Tree} (h : l.Fits t) (r : Role) :
    (l.withRole r).Fits (t.withRole r) := by
  refine ⟨?_, h.2.withRole r⟩
  rw [Look.withRole, ← h.1]
  cases t with
  | leaf role => cases role <;> rfl
  | node role => cases role <;> rfl

end Look

/-- Whether the roles of some trees stand in their usual order. -/
def InOrder (ts : List Tree) : Prop :=
  ts.Pairwise fun a b ↦ ∀ i ∈ a.rank?, ∀ j ∈ b.rank?, i ≤ j

/-- A tree may stand anywhere if its look may. -/
theorem Look.Fits.rank?_eq_none {l : Look} {t : Tree} (h : l.Fits t) (hnone : l.rank? = none) :
    t.rank? = none := by
  rw [Option.eq_none_iff_forall_not_mem]
  intro i hi
  have := h.rank? hi
  simp [hnone] at this

/-- Looks in order have children with ranks in order. -/
theorem Look.Fits.precedes {l l' : Look} {t t' : Tree} (h : l.Fits t) (h' : l'.Fits t')
    (hprecedes : l.precedes l' = true) : ∀ i ∈ t.rank?, ∀ j ∈ t'.rank?, i ≤ j := by
  intro i hi j hj
  have hi' := h.rank? hi
  have hj' := h'.rank? hj
  rw [Option.mem_def] at hi' hj'
  rw [Look.precedes, hi', hj'] at hprecedes
  simpa using hprecedes

/-! ## Outlines -/

/-- What is known of a list of trees. -/
structure Outline where
  /-- The looks that occur, not telling apart keywords and punctuation. -/
  all : List Look
  /-- The looks that can come first. -/
  first : List Look
  /-- Whether the list can be empty. -/
  nullable : Bool
  /-- Roles that surely occur. -/
  must : List (Option Role)
  /-- Whether the roles surely stand in their usual order. -/
  sorted : Bool
deriving DecidableEq

namespace Outline

structure Describes (o : Outline) (ts : List Tree) : Prop where
  all : ∀ t ∈ ts, ∃ l ∈ o.all, l.Fits t
  first : ∀ t ∈ ts.head?, ∃ l ∈ o.first, l.Fits t
  nonempty : o.nullable = false → ts ≠ []
  must : ∀ role ∈ o.must, ∃ t ∈ ts, t.role = role
  sorted : o.sorted = true → InOrder ts

def empty : Outline := ⟨[], [], true, [], true⟩

def single (l : Look) : Outline := ⟨[l.coarse], [l], false, [l.role], true⟩

/-- One list after the other. -/
def append : Outline → Outline → Outline
  | ⟨all, first, nullable, must, sorted⟩, ⟨all', first', nullable', must', sorted'⟩ =>
    { all := all ∪ all'
      first := if nullable then first ∪ first' else first
      nullable := nullable && nullable'
      must := must ∪ must'
      sorted := sorted && sorted' && all.all fun l ↦ all'.all l.precedes }

/-- One list or the other. -/
def join : Outline → Outline → Outline
  | ⟨all, first, nullable, must, sorted⟩, ⟨all', first', nullable', must', sorted'⟩ =>
    { all := all ∪ all'
      first := first ∪ first'
      nullable := nullable || nullable'
      must := must ∩ must'
      sorted := sorted && sorted' }

/-- One list or, if there is an outline, the other. -/
def joined (o : Outline) (o' : Option Outline) : Outline := o'.elim o o.join

def assign (r : Role) (o : Outline) : Outline :=
  let all := o.all.map (Look.withRole r)
  { all := all
    first := o.first.map (Look.withRole r)
    nullable := o.nullable
    must := o.must.map (·.or (some r))
    sorted := all.all fun l ↦ all.all l.precedes }

/-- Whether the first outline tells at least as much as the second one. -/
structure Le (o o' : Outline) : Prop where
  all : o.all ⊆ o'.all
  first : o.first ⊆ o'.first
  nullable : o.nullable = true → o'.nullable = true
  must : o'.must ⊆ o.must
  sorted : o'.sorted = true → o.sorted = true

instance (o o' : Outline) : Decidable (o.Le o') :=
  decidable_of_iff (o.all ⊆ o'.all ∧ o.first ⊆ o'.first ∧
      (o.nullable = true → o'.nullable = true) ∧ o'.must ⊆ o.must ∧
      (o'.sorted = true → o.sorted = true))
    ⟨fun ⟨hall, hfirst, hnullable, hmust, hsorted⟩ ↦ ⟨hall, hfirst, hnullable, hmust, hsorted⟩,
      fun h ↦ ⟨h.all, h.first, h.nullable, h.must, h.sorted⟩⟩

theorem describes_empty : empty.Describes [] where
  all := by simp
  first := by simp
  nonempty := by simp [empty]
  must := by simp [empty]
  sorted _ := .nil

theorem describes_single {l : Look} {t : Tree} (h : l.Fits t) : (single l).Describes [t] where
  all := by simpa [single] using ⟨h.1, h.2.coarse⟩
  first := by simpa [single] using h
  nonempty _ := by simp
  must := by simpa [single] using h.1
  sorted _ := List.pairwise_singleton _ t

/-- Trees put together are described by the outlines put together. -/
theorem Describes.append {o o' : Outline} {ts ts' : List Tree} (h : o.Describes ts)
    (h' : o'.Describes ts') : (o.append o').Describes (ts ++ ts') where
  all t ht := by
    rcases List.mem_append.mp ht with ht | ht
    · obtain ⟨l, hl, hfits⟩ := h.all t ht
      exact ⟨l, List.mem_union_iff.mpr (Or.inl hl), hfits⟩
    · obtain ⟨l, hl, hfits⟩ := h'.all t ht
      exact ⟨l, List.mem_union_iff.mpr (Or.inr hl), hfits⟩
  first t ht := by
    cases ts with
    | cons u us =>
      obtain ⟨l, hl, hfits⟩ := h.first t ht
      refine ⟨l, ?_, hfits⟩
      rw [Outline.append]
      split
      · exact List.mem_union_iff.mpr (Or.inl hl)
      · exact hl
    | nil =>
      obtain ⟨l, hl, hfits⟩ := h'.first t ht
      have hnullable : o.nullable = true := by
        by_contra hnot
        exact h.nonempty (Bool.eq_false_iff.mpr hnot) rfl
      refine ⟨l, ?_, hfits⟩
      rw [Outline.append, if_pos hnullable]
      exact List.mem_union_iff.mpr (Or.inr hl)
  nonempty hnullable := by
    rcases Bool.and_eq_false_iff.mp hnullable with hfalse | hfalse
    · exact List.append_ne_nil_of_left_ne_nil (h.nonempty hfalse) ts'
    · exact List.append_ne_nil_of_right_ne_nil ts (h'.nonempty hfalse)
  must role hrole := by
    rcases List.mem_union_iff.mp hrole with hrole | hrole
    · obtain ⟨t, ht, heq⟩ := h.must role hrole
      exact ⟨t, List.mem_append_left ts' ht, heq⟩
    · obtain ⟨t, ht, heq⟩ := h'.must role hrole
      exact ⟨t, List.mem_append_right ts ht, heq⟩
  sorted hsorted := by
    simp only [Outline.append, Bool.and_eq_true, List.all_eq_true] at hsorted
    obtain ⟨⟨hleft, hright⟩, hcross⟩ := hsorted
    refine List.pairwise_append.mpr ⟨h.sorted hleft, h'.sorted hright, ?_⟩
    intro t ht t' ht'
    obtain ⟨l, hl, hfits⟩ := h.all t ht
    obtain ⟨l', hl', hfits'⟩ := h'.all t' ht'
    exact hfits.precedes hfits' (hcross l hl l' hl')

/-- A coarser outline describes whatever a finer one does. -/
theorem Describes.of_le {o o' : Outline} {ts : List Tree} (h : o.Describes ts) (hle : o.Le o') :
    o'.Describes ts where
  all t ht := by
    obtain ⟨l, hl, hfits⟩ := h.all t ht
    exact ⟨l, hle.all hl, hfits⟩
  first t ht := by
    obtain ⟨l, hl, hfits⟩ := h.first t ht
    exact ⟨l, hle.first hl, hfits⟩
  nonempty hfalse := h.nonempty (Bool.eq_false_iff.mpr fun htrue ↦ by
    simp [hle.nullable htrue] at hfalse)
  must role hrole := h.must role (hle.must hrole)
  sorted htrue := h.sorted (hle.sorted htrue)

theorem le_join_left (o o' : Outline) : o.Le (o.join o') where
  all _ hl := List.mem_union_left hl o'.all
  first _ hl := List.mem_union_left hl o'.first
  nullable htrue := Bool.or_eq_true_iff.mpr (Or.inl htrue)
  must _ hrole := (List.mem_inter_iff.mp hrole).1
  sorted htrue := (Bool.and_eq_true_iff.mp htrue).1

theorem le_join_right (o o' : Outline) : o'.Le (o.join o') where
  all _ hl := List.mem_union_right o.all hl
  first _ hl := List.mem_union_right o.first hl
  nullable htrue := Bool.or_eq_true_iff.mpr (Or.inr htrue)
  must _ hrole := (List.mem_inter_iff.mp hrole).2
  sorted htrue := (Bool.and_eq_true_iff.mp htrue).2

theorem le_joined (o : Outline) (o' : Option Outline) : o.Le (o.joined o') := by
  cases o' with
  | none => exact ⟨fun _ h ↦ h, fun _ h ↦ h, id, fun _ h ↦ h, id⟩
  | some o' => exact o.le_join_left o'

/-- A role given to all trees without one, in the outline as in the trees. -/
theorem Describes.assign {o : Outline} {ts : List Tree} (h : o.Describes ts) (r : Role) :
    (o.assign r).Describes (ts.map (Tree.withRole r)) := by
  have hall (t : Tree) (ht : t ∈ ts.map (Tree.withRole r)) : ∃ l ∈ (o.assign r).all, l.Fits t := by
    obtain ⟨u, hu, rfl⟩ := List.mem_map.mp ht
    obtain ⟨l, hl, hfits⟩ := h.all u hu
    exact ⟨l.withRole r, List.mem_map_of_mem hl, hfits.withRole r⟩
  refine ⟨hall, ?_, ?_, ?_, ?_⟩
  · intro t ht
    rw [List.head?_map] at ht
    obtain ⟨u, hu, rfl⟩ := Option.map_eq_some_iff.mp ht
    obtain ⟨l, hl, hfits⟩ := h.first u hu
    exact ⟨l.withRole r, List.mem_map_of_mem hl, hfits.withRole r⟩
  · intro hnullable hnil
    exact h.nonempty hnullable (List.map_eq_nil_iff.mp hnil)
  · intro role hrole
    obtain ⟨role', hrole', rfl⟩ := List.mem_map.mp hrole
    obtain ⟨t, ht, rfl⟩ := h.must role' hrole'
    refine ⟨t.withRole r, List.mem_map_of_mem ht, ?_⟩
    cases t with
    | leaf role => cases role <;> rfl
    | node role => cases role <;> rfl
  · intro hsorted
    -- Looks that may come in any order are in order however the trees are arranged.
    refine List.pairwise_of_forall_mem_list fun t ht t' ht' ↦ ?_
    obtain ⟨l, hl, hfits⟩ := hall t ht
    obtain ⟨l', hl', hfits'⟩ := hall t' ht'
    simp only [Outline.assign, List.all_eq_true] at hsorted
    exact hfits.precedes hfits' (hsorted l hl l' hl')

/-! ## What an outline tells -/

/-- Whether there is a first tree, and it has one of the looks. -/
def opensWith (o : Outline) (looks : List Look) : Bool := !o.nullable && o.first ⊆ looks

/-- Whether all trees with the role have one of the molds. -/
def limits (o : Outline) (r : Role) (molds : List Mold) : Bool :=
  o.all.all fun l ↦ l.role != some r || molds.contains l.mold

/-- An outline that opens with certain looks has a first tree with one of them. -/
theorem Describes.exists_cons {o : Outline} {ts : List Tree} (h : o.Describes ts)
    {looks : List Look} (hopens : o.opensWith looks = true) :
    ∃ t rest, ts = t :: rest ∧ ∃ l ∈ looks, l.Fits t := by
  simp only [opensWith, Bool.and_eq_true, Bool.not_eq_true', decide_eq_true_eq] at hopens
  obtain ⟨hnullable, hfirst⟩ := hopens
  obtain ⟨t, rest, rfl⟩ := List.exists_cons_of_ne_nil (h.nonempty hnullable)
  obtain ⟨l, hl, hfits⟩ := h.first t rfl
  exact ⟨t, rest, rfl, l, hfirst hl, hfits⟩

/-- An outline that limits a role says what the trees in it look like. -/
theorem Describes.fits_of_limits {o : Outline} {ts : List Tree} (h : o.Describes ts) {r : Role}
    {molds : List Mold} (hlimits : o.limits r molds = true) {t : Tree} (ht : t ∈ ts)
    (hrole : t.role = some r) : ∃ m ∈ molds, m.Fits t := by
  obtain ⟨l, hl, hfits⟩ := h.all t ht
  have hlook := List.all_eq_true.mp hlimits l hl
  rw [← hfits.1, hrole, bne_self_eq_false, Bool.false_or, List.contains_iff_mem] at hlook
  exact ⟨l.mold, hlook, hfits.2⟩

end Outline

/-! ## Schemas -/

structure Schema (σ : Type) where
  /-- What a symbol of the grammar yields. -/
  symbol : σ → Outline
  /-- Whether children of that outline make a node of that kind. -/
  admits : Kind → Outline → Bool

/-- A tree all of whose nodes have children as a schema admits them. -/
inductive Tree.Conforms (admits : Kind → Outline → Bool) : Tree → Prop where
  | leaf (role : Option Role) (token : Token) : Conforms admits (.leaf role token)
  | node (role : Option Role) {kind : Kind} {children : List Tree} (o : Outline)
      (hdescribes : o.Describes children) (hadmits : admits kind o = true)
      (hchildren : ∀ c ∈ children, c.Conforms admits) : Conforms admits (.node role kind children)

theorem Tree.Conforms.withRole {admits : Kind → Outline → Bool} {t : Tree} (h : t.Conforms admits)
    (r : Role) : (t.withRole r).Conforms admits := by
  cases h with
  | leaf role token => cases role <;> exact .leaf _ token
  | node role o hdescribes hadmits hchildren =>
    cases role <;> exact .node _ o hdescribes hadmits hchildren

/-- Conformance is handed down to the children. -/
theorem Tree.Conforms.of_mem_children {admits : Kind → Outline → Bool} {t c : Tree}
    (h : t.Conforms admits) (hc : c ∈ t.children) : c.Conforms admits := by
  cases h with
  | leaf => exact absurd hc List.not_mem_nil
  | node role o hdescribes hadmits hchildren => exact hchildren c hc

/-- What ends a statement. -/
def Look.terminator : Look := ⟨none, .leaf (.oneOf [";", "\x00"])⟩

namespace Rule

variable {σ : Type} (S : Schema σ)

/-- The outline after a rule, given the one before it; a rule that always fails has none. -/
def outline : Rule σ → Outline → Option Outline
  | .empty, o => some o
  | .fail, _ => none
  | .take c, o => some (o.append (.single ⟨none, .leaf c⟩))
  | .call s, o => some (o.append (S.symbol s))
  | .seq a b, o => (a.outline o).bind b.outline
  | .alt a b, o => match a.outline o with
    | none => b.outline o
    | some o' => some (o'.joined (b.outline o))
  -- One round is enough wherever `passes` holds: the outline of a second round adds nothing.
  | .star a, o => some (o.joined (a.outline o))
  | .scope a, o => (a.outline .empty).map o.append
  | .wrap k, _ => some (.single ⟨none, .node k⟩)
  | .assign r, o => some (o.assign r)
  | .ends, o => some (o.join (o.append (.single .terminator)))
  | .ahead _, o => some o
  | .notAhead _, o => some o
  | .sameLine, o => some o
  | .split _ _, o => some o
  | .beyondBraces _, o => some o

/-- Whether a rule that starts at an outline makes only nodes that the schema admits. -/
def passes : Rule σ → Outline → Bool
  | .seq a b, o => a.passes o && (a.outline S o).all b.passes
  | .alt a b, o => a.passes o && b.passes o
  | .star a, o =>
    let o' := o.joined (a.outline S o)
    a.passes o' && (a.outline S o').all (·.Le o')
  | .scope a, _ => a.passes .empty
  | .wrap k, o => S.admits k o
  | _, _ => true

end Rule

namespace Schema

variable {σ : Type} {S : Schema σ}

/-- Trees of an outline that conform to the schema. -/
structure Yields (S : Schema σ) (o : Outline) (ts : List Tree) : Prop where
  describes : o.Describes ts
  conforms : ∀ t ∈ ts, t.Conforms S.admits

theorem yields_empty : S.Yields .empty [] := ⟨Outline.describes_empty, by simp⟩

/-- Trees that were collected one after the other. -/
theorem Yields.append {o o' : Outline} {ts ts' : List Tree} (h : S.Yields o ts)
    (h' : S.Yields o' ts') : S.Yields (o.append o') (ts ++ ts') where
  describes := h.describes.append h'.describes
  conforms t ht := (List.mem_append.mp ht).elim (h.conforms t) (h'.conforms t)

theorem Yields.of_le {o o' : Outline} {ts : List Tree} (h : S.Yields o ts) (hle : o.Le o') :
    S.Yields o' ts :=
  ⟨h.describes.of_le hle, h.conforms⟩

theorem yields_leaf {c : TokenClass} {token : Token} (h : c.admits token.kind = true) :
    S.Yields (.single ⟨none, .leaf c⟩) [.leaf none token] where
  describes := Outline.describes_single ⟨rfl, h⟩
  conforms := by simpa using Tree.Conforms.leaf none token

/-- A node conforms, if the schema admits it with the outline of its children. -/
theorem Yields.wrap {o : Outline} {ts : List Tree} (h : S.Yields o ts) {k : Kind}
    (hadmits : S.admits k o = true) : S.Yields (.single ⟨none, .node k⟩) [.node none k ts] where
  describes := Outline.describes_single ⟨rfl, rfl⟩
  conforms := by simpa using Tree.Conforms.node none o h.describes hadmits h.conforms

/-- Roles do not change whether trees conform. -/
theorem Yields.assign {o : Outline} {ts : List Tree} (h : S.Yields o ts) (r : Role) :
    S.Yields (o.assign r) (ts.map (Tree.withRole r)) where
  describes := h.describes.assign r
  conforms t ht := by
    obtain ⟨u, hu, rfl⟩ := List.mem_map.mp ht
    exact (h.conforms u hu).withRole r

variable {fuel : ℕ} {enter : σ → List Token → Option Reading} {a b : Rule σ}

/-- Whether a rule turns trees of an outline for which it passes into trees of the outline after it. -/
def KeepsTo (S : Schema σ) (fuel : ℕ) (enter : σ → List Token → Option Reading) (a : Rule σ) : Prop :=
  ∀ ⦃o : Outline⦄, a.passes S o = true → ∀ ⦃acc : List Tree⦄, S.Yields o acc →
    ∀ ⦃toks : List Token⦄ ⦃r : Reading⦄, a.run fuel enter acc toks = some r →
      ∃ o', a.outline S o = some o' ∧ S.Yields o' r.1

/-- A token collected is a leaf of its class. -/
theorem KeepsTo.take (c : TokenClass) : S.KeepsTo fuel enter (.take c) := by
  intro o _ acc hacc toks r h
  obtain ⟨t, rest, rfl, hadmits, rfl⟩ := Rule.tokens_of_run_take h
  exact ⟨_, rfl, hacc.append (yields_leaf hadmits)⟩

/-- What a symbol collects keeps to the outline of the symbol. -/
theorem KeepsTo.call (henter : ∀ s toks r, enter s toks = some r → S.Yields (S.symbol s) r.1)
    (s : σ) : S.KeepsTo fuel enter (.call s) := by
  intro o _ acc hacc toks ⟨_, rest⟩ h
  obtain ⟨trees, henter', rfl⟩ := Rule.exists_of_run_call h
  exact ⟨_, rfl, hacc.append (henter s toks (trees, rest) henter')⟩

/-- The second rule collects behind the outline that the first one leaves. -/
theorem KeepsTo.seq (ha : S.KeepsTo fuel enter a) (hb : S.KeepsTo fuel enter b) :
    S.KeepsTo fuel enter (.seq a b) := by
  intro o hpasses acc hacc toks r h
  rw [Rule.passes, Bool.and_eq_true] at hpasses
  obtain ⟨_, _, hrunA, hrunB⟩ := Rule.exists_of_run_seq h
  obtain ⟨o', ho', hacc'⟩ := ha hpasses.1 hacc hrunA
  rw [ho'] at hpasses
  rw [Rule.outline, ho']
  exact hb hpasses.2 hacc' hrunB

/-- Either alternative keeps to the join of both outlines. -/
theorem KeepsTo.alt (ha : S.KeepsTo fuel enter a) (hb : S.KeepsTo fuel enter b) :
    S.KeepsTo fuel enter (.alt a b) := by
  intro o hpasses acc hacc toks r h
  rw [Rule.passes, Bool.and_eq_true] at hpasses
  rw [Rule.outline]
  rcases Rule.run_or_run_of_run_alt h with hrun | hrun
  · obtain ⟨o', ho', hr⟩ := ha hpasses.1 hacc hrun
    rw [ho']
    exact ⟨_, rfl, hr.of_le (o'.le_joined _)⟩
  · obtain ⟨o', ho', hr⟩ := hb hpasses.2 hacc hrun
    rw [ho']
    cases a.outline S o with
    | none => exact ⟨o', rfl, hr⟩
    | some o₁ => exact ⟨_, rfl, hr.of_le (o₁.le_join_right o')⟩

/-- The outline after one round describes what any number of rounds yields. -/
theorem KeepsTo.star (ha : S.KeepsTo fuel enter a) : S.KeepsTo fuel enter (.star a) := by
  intro o hpasses acc hacc toks r h
  rw [Rule.passes, Bool.and_eq_true] at hpasses
  obtain ⟨hbody, hle⟩ := hpasses
  refine ⟨_, rfl, Rule.star_keeps (P := fun r ↦ S.Yields (o.joined (a.outline S o)) r.1) ?_
    (hacc.of_le (o.le_joined _)) h⟩
  intro r r' hr hround
  obtain ⟨o', ho', hr'⟩ := ha hbody hr hround
  rw [ho'] at hle
  exact hr'.of_le (of_decide_eq_true hle)

/-- What is collected apart is put behind the rest. -/
theorem KeepsTo.scope (ha : S.KeepsTo fuel enter a) : S.KeepsTo fuel enter (.scope a) := by
  intro o hpasses acc hacc toks ⟨_, rest⟩ h
  obtain ⟨trees, hrun, rfl⟩ := Rule.exists_of_run_scope h
  obtain ⟨o', ho', hr⟩ := ha hpasses yields_empty hrun
  rw [Rule.outline, ho']
  exact ⟨_, rfl, hacc.append hr⟩

theorem KeepsTo.ends : S.KeepsTo fuel enter (.ends : Rule σ) := by
  intro o _ acc hacc toks r h
  rcases Rule.tokens_of_run_ends h with rfl | ⟨t, rest, rfl, hkind, rfl⟩
  · exact ⟨_, rfl, hacc.of_le (o.le_join_left _)⟩
  · have hadmits : (TokenClass.oneOf [";", "\x00"]).admits t.kind = true := by
      rcases hkind with hkind | hkind <;> rw [hkind] <;> decide
    exact ⟨_, rfl, (hacc.append (yields_leaf hadmits)).of_le (o.le_join_right _)⟩

/-- A rule that leaves the trees alone keeps to every schema. -/
theorem KeepsTo.of_same (houtline : ∀ o, a.outline S o = some o)
    (hsame : ∀ {acc : List Tree} {toks : List Token} {r : Reading},
      a.run fuel enter acc toks = some r → r.1 = acc) : S.KeepsTo fuel enter a := by
  intro o _ acc hacc toks r h
  rw [hsame h]
  exact ⟨o, houtline o, hacc⟩

/-- A rule that passes yields trees of its outline, if that holds of the symbols it enters. -/
theorem keepsTo_of_enter
    (henter : ∀ s toks r, enter s toks = some r → S.Yields (S.symbol s) r.1) (a : Rule σ) :
    S.KeepsTo fuel enter a := by
  induction a with
  | empty => exact .of_same (fun _ ↦ rfl) fun h ↦ by rw [← Option.some.inj h]
  | fail =>
    intro o _ acc _ toks r h
    simp [Rule.run] at h
  | take c => exact .take c
  | call s => exact .call henter s
  | seq a b iha ihb => exact .seq iha ihb
  | alt a b iha ihb => exact .alt iha ihb
  | star a ih => exact .star ih
  | scope a ih => exact .scope ih
  | wrap k =>
    intro o hpasses acc hacc toks r h
    rw [← Option.some.inj h]
    exact ⟨_, rfl, hacc.wrap hpasses⟩
  | assign role =>
    intro o _ acc hacc toks r h
    rw [← Option.some.inj h]
    exact ⟨_, rfl, hacc.assign role⟩
  | ahead a => exact .of_same (fun _ ↦ rfl) fun h ↦ by rw [Rule.eq_of_run_ahead h]
  | notAhead a => exact .of_same (fun _ ↦ rfl) fun h ↦ by rw [Rule.eq_of_run_notAhead h]
  | sameLine => exact .of_same (fun _ ↦ rfl) fun h ↦ by rw [Rule.eq_of_run_sameLine h]
  | beyondBraces a => exact .of_same (fun _ ↦ rfl) fun h ↦ by rw [Rule.eq_of_run_beyondBraces h]
  | ends => exact .ends
  | split x y =>
    apply KeepsTo.of_same (fun _ ↦ rfl)
    intro acc toks r h
    obtain ⟨t, rest, rfl, -, rfl⟩ := Rule.tokens_of_run_split h
    rfl

/-- Whether a rule by itself passes and its outline tells at least what is asked. -/
def accepts (S : Schema σ) (a : Rule σ) (o : Outline) : Bool :=
  a.passes S .empty && (a.outline S .empty).all (·.Le o)

/-- A grammar whose rules are accepted yields what the schema says of each symbol. -/
theorem yields_of_parse {grammar : σ → Rule σ}
    (haccepts : ∀ s, S.accepts (grammar s) (S.symbol s) = true) {fuel : ℕ} {s : σ}
    {toks : List Token} {r : Reading} (h : parse grammar fuel s toks = some r) :
    S.Yields (S.symbol s) r.1 := by
  refine parse_induction (P := fun s _ r ↦ S.Yields (S.symbol s) r.1) ?_ h
  intro fuel enter henter s toks r hrun
  have haccept := haccepts s
  rw [accepts, Bool.and_eq_true] at haccept
  obtain ⟨o, ho, hr⟩ := keepsTo_of_enter henter (grammar s) haccept.1 yields_empty hrun
  rw [ho] at haccept
  exact hr.of_le (of_decide_eq_true haccept.2)

end Schema

end GoComplexity.Source
