import GoComplexity.Metric.Parameters
import GoComplexity.Source.Params
import Mathlib.Data.List.DropRight
import Mathlib.Data.List.Forall2
import Mathlib.Tactic.SplitIfs

/-!
# Parameter groups

Bare identifiers wait for the next group that is not bare and become its first names; those behind the
last such group stay unnamed. What comes out are therefore groups that are not bare and, behind them, bare
identifiers, and a list of that form stays as it is. In a list written with names every unnamed group is
bare, so no parameter is lost, none changes its place, and every parameter before the ones left over has a
name.
-/

namespace GoComplexity.Source.Lower

open Syntax

/-! ## Bare groups -/

/-- An identifier read as an unnamed parameter. -/
def bareGroup (type : String) : ParamGroup := ⟨[], type, false⟩

/-- A bare group is an identifier alone, which could be a name or a type. -/
theorem isBare_iff {g : ParamGroup} :
    isBare g = true ↔ g = bareGroup g.type ∧ isIdentifier g.type.toList = true := by
  obtain ⟨names, type, variadic⟩ := g
  simp only [isBare, bareGroup, Bool.and_eq_true, List.isEmpty_iff, Bool.not_eq_true',
    ParamGroup.mk.injEq, true_and]

theorem isBare_bareGroup {type : String} (h : isIdentifier type.toList = true) :
    isBare (bareGroup type) = true :=
  isBare_iff.mpr ⟨rfl, h⟩

theorem isBare_of_names_ne_nil {g : ParamGroup} (h : g.names ≠ []) : isBare g = false := by
  rw [Bool.eq_false_iff]
  intro hbare
  apply h
  rw [(isBare_iff.mp hbare).1]
  rfl

/-- A group that is not bare stays so when it gets more names. -/
theorem isBare_append_names {g : ParamGroup} (h : isBare g = false) (pending : List String) :
    isBare { g with names := pending ++ g.names } = false := by
  cases pending with
  | nil => exact h
  | cons name pending => exact isBare_of_names_ne_nil (List.cons_ne_nil _ _)

/-! ## Folding -/

/-- Whether a group is another one with names put before its own. -/
def Grown (g k : ParamGroup) : Prop := ∃ front, k = { g with names := front ++ g.names }

theorem names_ne_nil_of_grown {groups kept : List ParamGroup} (h : List.Forall₂ Grown groups kept)
    (hnamed : ∀ g ∈ groups, g.names ≠ []) : ∀ k ∈ kept, k.names ≠ [] := by
  induction h with
  | nil => simp
  | cons hgrown _ ih =>
    obtain ⟨front, rfl⟩ := hgrown
    obtain ⟨hne, hrest⟩ := List.forall_mem_cons.mp hnamed
    exact List.forall_mem_cons.mpr ⟨List.append_ne_nil_of_right_ne_nil front hne, ih hrest⟩

/-- Names alone are kept until a type comes; without one they stay types. -/
theorem foldBare_bareGroups (pending : List String) {types : List String}
    (h : ∀ type ∈ types, isIdentifier type.toList = true) :
    foldBare pending (types.map bareGroup) = (pending ++ types).map bareGroup := by
  induction types generalizing pending with
  | nil =>
    rw [List.append_nil]
    rfl
  | cons type types ih =>
    have hbare : isBare (bareGroup type) = true := isBare_bareGroup (h type List.mem_cons_self)
    rw [List.map_cons, foldBare, if_pos hbare, ih _ fun t ht ↦ h t (List.mem_cons_of_mem _ ht),
      List.append_assoc]
    rfl

/-- Groups that are settled are passed by. -/
theorem foldBare_append {kept : List ParamGroup} (h : ∀ g ∈ kept, isBare g = false)
    (rest : List ParamGroup) : foldBare [] (kept ++ rest) = kept ++ foldBare [] rest := by
  induction kept with
  | nil => rfl
  | cons g kept ih =>
    have hg : isBare g = false := h g List.mem_cons_self
    rw [List.cons_append, foldBare, hg, if_neg Bool.false_ne_true,
      ih fun g' hg' ↦ h g' (List.mem_cons_of_mem _ hg')]
    rfl

/-- With the type of a bare group the pending identifiers are still identifiers. -/
theorem isIdentifier_of_mem_concat {g : ParamGroup} {pending : List String} (hbare : isBare g = true)
    (h : ∀ name ∈ pending, isIdentifier name.toList = true) :
    ∀ name ∈ pending ++ [g.type], isIdentifier name.toList = true := by
  rw [List.forall_mem_append, List.forall_mem_singleton]
  exact ⟨h, (isBare_iff.mp hbare).2⟩

/-- What folding gives: groups that are not bare, then bare ones. Of the groups that are not bare none
appears and none goes, each with its type and its kind. -/
theorem exists_foldBare_eq (pending : List String) (groups : List ParamGroup)
    (h : ∀ name ∈ pending, isIdentifier name.toList = true) :
    ∃ (kept : List ParamGroup) (types : List String),
      foldBare pending groups = kept ++ types.map bareGroup ∧
      (∀ g ∈ kept, isBare g = false) ∧ (∀ type ∈ types, isIdentifier type.toList = true) ∧
      List.Forall₂ Grown (groups.filter fun g ↦ !isBare g) kept := by
  induction groups generalizing pending with
  | nil => exact ⟨[], pending, rfl, by simp, h, .nil⟩
  | cons g groups ih =>
    rw [foldBare]
    split_ifs with hbare
    · obtain ⟨kept, types, heq, hkept, htypes, hsame⟩ := ih _ (isIdentifier_of_mem_concat hbare h)
      refine ⟨kept, types, heq, hkept, htypes, ?_⟩
      rwa [List.filter_cons_of_neg (by simpa using hbare)]
    · rw [Bool.not_eq_true] at hbare
      obtain ⟨kept, types, heq, hkept, htypes, hsame⟩ := ih [] (by simp)
      refine ⟨{ g with names := pending ++ g.names } :: kept, types, by rw [heq]; rfl, ?_, htypes, ?_⟩
      · exact List.forall_mem_cons.mpr ⟨isBare_append_names hbare pending, hkept⟩
      · rw [List.filter_cons_of_pos (by simpa using hbare)]
        exact .cons ⟨pending, rfl⟩ hsame

/-! ## The whole list -/

theorem all_names_isEmpty_iff {groups : List ParamGroup} :
    (groups.all fun g ↦ g.names.isEmpty) = true ↔ ∀ g ∈ groups, g.names = [] := by
  simp only [List.all_eq_true, List.isEmpty_iff]

/-- Without any name the groups are types and stay as they are. -/
theorem normalizeGroups_of_unnamed {groups : List ParamGroup} (h : ∀ g ∈ groups, g.names = []) :
    normalizeGroups groups = groups :=
  if_pos (all_names_isEmpty_iff.mpr h)

/-- With some name, bare groups are names of the group behind them. -/
theorem normalizeGroups_of_named {groups : List ParamGroup} (h : ∃ g ∈ groups, g.names ≠ []) :
    normalizeGroups groups = foldBare [] groups := by
  apply if_neg
  rw [all_names_isEmpty_iff]
  push Not
  exact h

/-- Groups that are not bare, with bare ones behind them, stay as they are. -/
theorem foldBare_eq_self {kept : List ParamGroup} {types : List String}
    (hkept : ∀ g ∈ kept, isBare g = false) (htypes : ∀ type ∈ types, isIdentifier type.toList = true) :
    foldBare [] (kept ++ types.map bareGroup) = kept ++ types.map bareGroup := by
  rw [foldBare_append hkept, foldBare_bareGroups [] htypes, List.nil_append]

/-- Without the bare groups at its end such a list is the groups that are not bare. -/
theorem rdropWhile_isBare {kept : List ParamGroup} {types : List String}
    (hkept : ∀ g ∈ kept, isBare g = false) (htypes : ∀ type ∈ types, isIdentifier type.toList = true) :
    (kept ++ types.map bareGroup).rdropWhile isBare = kept := by
  induction types using List.reverseRecOn with
  | nil =>
    rw [List.map_nil, List.append_nil, List.rdropWhile_eq_self_iff]
    intro hne
    rw [hkept _ (List.getLast_mem hne)]
    exact Bool.false_ne_true
  | append_singleton types type ih =>
    have hlast : isBare (bareGroup type) = true := isBare_bareGroup (htypes type (by simp))
    rw [List.map_append, ← List.append_assoc, List.map_singleton,
      List.rdropWhile_concat_pos _ _ _ hlast]
    exact ih fun t ht ↦ htypes t (List.mem_append_left _ ht)

/-- Normalizing twice changes nothing more. -/
theorem normalizeGroups_normalizeGroups (groups : List ParamGroup) :
    normalizeGroups (normalizeGroups groups) = normalizeGroups groups := by
  by_cases h : ∀ g ∈ groups, g.names = []
  · rw [normalizeGroups_of_unnamed h, normalizeGroups_of_unnamed h]
  · push Not at h
    obtain ⟨kept, types, heq, hkept, htypes, -⟩ := exists_foldBare_eq [] groups (by simp)
    rw [normalizeGroups_of_named h, heq]
    by_cases hunnamed : ∀ g ∈ kept ++ types.map bareGroup, g.names = []
    · exact normalizeGroups_of_unnamed hunnamed
    · push Not at hunnamed
      rw [normalizeGroups_of_named hunnamed, foldBare_eq_self hkept htypes]

/-! ## Lists with names -/

/-- The names of a group, a bare identifier being its own name. -/
def labels (g : ParamGroup) : List String := if isBare g then [g.type] else g.names

theorem countParams_bareGroups (types : List String) :
    countParams (types.map bareGroup) = types.length := by
  induction types with
  | nil => rfl
  | cons type types ih =>
    rw [List.map_cons, countParams, ih, List.length_cons, Nat.add_comm]
    rfl

section

variable {groups : List ParamGroup} (hnamed : ∀ g ∈ groups, isBare g = false → g.names ≠ [])

include hnamed

/-- Joining bare groups to the group behind them keeps the number of parameters. -/
theorem countParams_foldBare (pending : List String) :
    countParams (foldBare pending groups) = pending.length + countParams groups := by
  induction groups generalizing pending with
  | nil => exact countParams_bareGroups pending
  | cons g groups ih =>
    have ih := ih fun g' hg' ↦ hnamed g' (List.mem_cons_of_mem g hg')
    rw [foldBare, countParams]
    split_ifs with hbare
    · have hcount : g.count = 1 := by
        rw [(isBare_iff.mp hbare).1]
        rfl
      rw [ih, hcount, List.length_append, List.length_singleton, Nat.add_assoc]
    · have hne : g.names ≠ [] := hnamed g List.mem_cons_self (Bool.eq_false_iff.mpr hbare)
      have hcount : ParamGroup.count { g with names := pending ++ g.names } =
          pending.length + g.count := by
        simp only [ParamGroup.count, hne, List.append_eq_nil_iff, and_false, if_false,
          List.length_append]
      rw [countParams, ih, hcount, List.length_nil, Nat.zero_add, Nat.add_assoc]

/-- Joining bare groups keeps the names and their order. -/
theorem flatMap_labels_foldBare (pending : List String)
    (h : ∀ name ∈ pending, isIdentifier name.toList = true) :
    (foldBare pending groups).flatMap labels = pending ++ groups.flatMap labels := by
  induction groups generalizing pending with
  | nil =>
    rw [foldBare, List.flatMap_nil, List.append_nil, List.flatMap_map]
    calc
      pending.flatMap (fun name ↦ labels (bareGroup name)) = pending.flatMap List.singleton := by
        apply List.flatMap_congr
        intro name hname
        exact if_pos (isBare_bareGroup (h name hname))
      _ = pending := List.flatMap_singleton' pending
  | cons g groups ih =>
    have ih := ih fun g' hg' ↦ hnamed g' (List.mem_cons_of_mem g hg')
    rw [foldBare, List.flatMap_cons]
    split_ifs with hbare
    · rw [ih _ (isIdentifier_of_mem_concat hbare h), labels, if_pos hbare, List.append_assoc]
    · rw [Bool.not_eq_true] at hbare
      rw [List.flatMap_cons, ih [] (by simp), labels, labels, isBare_append_names hbare pending, hbare]
      simp only [Bool.false_eq_true, if_false, List.nil_append, List.append_assoc]

end

/-- Rebuilding a parameter list twice is rebuilding it once. In a list whose unnamed groups are bare as
soon as a group is named, the number of parameters stays, and so do their names and bare identifiers in
order. The named groups stay with their types and kinds, each behind the names handed to it, and nothing
but bare identifiers at the end of such a list is without a name; a list without names is not touched. -/
theorem normalizeGroups_keeps_parameters :
    (∀ groups, normalizeGroups (normalizeGroups groups) = normalizeGroups groups) ∧
    ∀ groups : List ParamGroup, ((∃ g ∈ groups, g.names ≠ []) → ∀ g ∈ groups, g.names = [] →
        g.variadic = false ∧ isIdentifier g.type.toList = true) →
      countParams (normalizeGroups groups) = countParams groups ∧
      (normalizeGroups groups).flatMap labels = groups.flatMap labels ∧
      List.Forall₂ (fun g k ↦ k.type = g.type ∧ k.variadic = g.variadic ∧ g.names <:+ k.names)
        (groups.filter fun g ↦ g.names ≠ []) ((normalizeGroups groups).filter fun g ↦ g.names ≠ []) ∧
      ((∃ g ∈ groups, g.names ≠ []) →
        ∀ g ∈ (normalizeGroups groups).rdropWhile isBare, g.names ≠ []) ∧
      ((∀ g ∈ groups, g.names = []) → normalizeGroups groups = groups) := by
  refine ⟨normalizeGroups_normalizeGroups, fun groups hbare ↦ ?_⟩
  by_cases hunnamed : ∀ g ∈ groups, g.names = []
  · have hnone : groups.filter (fun g ↦ g.names ≠ []) = [] := by
      simpa [List.filter_eq_nil_iff] using hunnamed
    rw [normalizeGroups_of_unnamed hunnamed, hnone]
    refine ⟨rfl, rfl, .nil, ?_, fun _ ↦ rfl⟩
    rintro ⟨g, hg, hne⟩
    exact absurd (hunnamed g hg) hne
  · push Not at hunnamed
    have hnamed (g : ParamGroup) (hg : g ∈ groups) : isBare g = false ↔ g.names ≠ [] := by
      refine ⟨fun hnot hnil ↦ ?_, isBare_of_names_ne_nil⟩
      obtain ⟨hvariadic, hident⟩ := hbare hunnamed g hg hnil
      simp [isBare, hnil, hvariadic, hident] at hnot
    obtain ⟨kept, types, heq, hkept, htypes, hsame⟩ := exists_foldBare_eq [] groups (by simp)
    have hfilter : groups.filter (fun g ↦ !isBare g) = groups.filter (fun g ↦ g.names ≠ []) := by
      apply List.filter_congr
      intro g hg
      rw [Bool.eq_iff_iff, Bool.not_eq_true', hnamed g hg, decide_eq_true_iff]
    rw [hfilter] at hsame
    have hnames : ∀ k ∈ kept, k.names ≠ [] :=
      names_ne_nil_of_grown hsame (by simp)
    rw [normalizeGroups_of_named hunnamed]
    refine ⟨?_, ?_, ?_, ?_, ?_⟩
    · rw [countParams_foldBare (fun g hg ↦ (hnamed g hg).mp), List.length_nil, Nat.zero_add]
    · exact flatMap_labels_foldBare (fun g hg ↦ (hnamed g hg).mp) [] (by simp)
    · have hkeeps : (kept ++ types.map bareGroup).filter (fun g ↦ g.names ≠ []) = kept := by
        rw [List.filter_append, List.filter_eq_self.mpr (by simpa using hnames), List.filter_map]
        simp [bareGroup, Function.comp_def]
      rw [heq, hkeeps]
      apply hsame.imp
      rintro g k ⟨front, rfl⟩
      exact ⟨rfl, rfl, List.suffix_append front g.names⟩
    · rw [heq, rdropWhile_isBare hkept htypes]
      exact fun _ ↦ hnames
    · intro hall
      obtain ⟨g, hg, hne⟩ := hunnamed
      exact absurd (hall g hg) hne

/-- Bare groups in front of a named group and behind the last one. -/
theorem normalizeGroups_keeps_parameters_between_names :
    let groups : List ParamGroup :=
      [⟨[], "a", false⟩, ⟨["b"], "int", false⟩, ⟨["rest"], "string", true⟩, ⟨[], "c", false⟩]
    ((∃ g ∈ groups, g.names ≠ []) → ∀ g ∈ groups, g.names = [] →
      g.variadic = false ∧ isIdentifier g.type.toList = true) ∧
    countParams (normalizeGroups groups) = 4 ∧
    (normalizeGroups groups).flatMap labels = ["a", "b", "rest", "c"] ∧
    ∀ g ∈ (normalizeGroups groups).rdropWhile isBare, g.names ≠ [] := by
  intro groups
  have hbare : ∀ g ∈ groups, g.names = [] → g.variadic = false ∧ isIdentifier g.type.toList = true := by
    decide +kernel
  obtain ⟨hcount, hlabels, -, hnamed, -⟩ := normalizeGroups_keeps_parameters.2 groups fun _ ↦ hbare
  refine ⟨fun _ ↦ hbare, hcount, hlabels.trans ?_, hnamed (by decide)⟩
  decide +kernel

/-- In a list without names a type that is no identifier stays without a name, and it is no bare
identifier either. -/
theorem normalizeGroups_slice_unnamed :
    let groups : List ParamGroup := [⟨[], "[]int", false⟩]
    ((∃ g ∈ groups, g.names ≠ []) → ∀ g ∈ groups, g.names = [] →
      g.variadic = false ∧ isIdentifier g.type.toList = true) ∧
    ¬ ∀ g ∈ (normalizeGroups groups).rdropWhile isBare, g.names ≠ [] := by
  refine ⟨by simp, ?_⟩
  decide +kernel

end GoComplexity.Source.Lower
