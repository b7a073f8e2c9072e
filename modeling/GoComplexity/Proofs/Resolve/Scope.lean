import GoComplexity.Resolve.Callee
import Mathlib.Data.List.Basic

/-!
# Scopes as sets of declarations

A scope is looked into by membership only. What a callee refers to therefore depends on the set of
files that the scope was built from, and neither on their order nor on how often one is named.
-/

namespace GoComplexity

open Syntax

namespace Scope

/-- Whether every declaration of one scope is one of another scope of the same package. -/
structure Within (s t : Scope) : Prop where
  path : s.path = t.path
  functions : s.functions ⊆ t.functions
  vars : s.vars ⊆ t.vars
  types : s.types ⊆ t.types
  methods : s.methods ⊆ t.methods

/-- The declarations of the files, one file after the other. -/
theorem foldl_add_eq (s : Scope) (files : List SourceFile) :
    files.foldl add s =
      { path := s.path
        functions := s.functions ++ files.flatMap fun file ↦ file.functions.filterMap function?
        vars := s.vars ++ files.flatMap SourceFile.vars
        types := s.types ++ files.flatMap SourceFile.types
        methods := s.methods ++ files.flatMap fun file ↦ file.functions.filterMap method? } := by
  induction files generalizing s with
  | nil => simp
  | cons file rest ih =>
    rw [List.foldl_cons, ih]
    simp [add]

/-- More files make a scope that knows more names. -/
theorem ofFiles_within (path : String) {files files' : List SourceFile} (h : files ⊆ files') :
    (ofFiles path files).Within (ofFiles path files') := by
  unfold ofFiles
  rw [foldl_add_eq, foldl_add_eq]
  constructor
  · rfl
  all_goals
    intro declaration hmem
    obtain ⟨file, hfile, hdeclared⟩ := List.mem_flatMap.mp hmem
    exact List.mem_flatMap.mpr ⟨file, h hfile, hdeclared⟩

end Scope

theorem contains_congr {α : Type} [BEq α] [LawfulBEq α] {l l' : List α} (h : l ⊆ l') (h' : l' ⊆ l)
    (a : α) : l.contains a = l'.contains a := by
  rw [Bool.eq_iff_iff, List.contains_iff_mem, List.contains_iff_mem]
  exact ⟨fun hmem ↦ h hmem, fun hmem ↦ h' hmem⟩

namespace FileView

section Congruence

variable {s t : Scope} (h : s.Within t) (h' : t.Within s) (imports : List (String × String))
include h h'

theorem resolveName_congr (name : String) :
    (FileView.mk s imports).resolveName name = (FileView.mk t imports).resolveName name := by
  simp only [resolveName, h.path, contains_congr h.functions h'.functions,
    contains_congr h.vars h'.vars, contains_congr h.types h'.types]

theorem hasMethod_congr (receiver name : String) :
    s.hasMethod receiver name = t.hasMethod receiver name :=
  contains_congr h.methods h'.methods (receiver, name)

theorem resolveQualified_congr (qualifier name : String) :
    (FileView.mk s imports).resolveQualified qualifier name =
      (FileView.mk t imports).resolveQualified qualifier name := by
  simp only [resolveQualified, importPath?, h.path, hasMethod_congr h h']

/-- Scopes that know the same names find the same methods. -/
theorem resolveMethod_congr (binding : Binding) (name : String) :
    (FileView.mk s imports).resolveMethod binding name =
      (FileView.mk t imports).resolveMethod binding name := by
  simp only [resolveMethod, resolveMethodOf, importPath?, h.path, hasMethod_congr h h']

/-- Scopes with the same declarations resolve every callee alike. -/
theorem resolve_congr : (FileView.mk s imports).resolve = (FileView.mk t imports).resolve := by
  funext bindings callee
  unfold resolve
  simp only [h.path, resolveName_congr h h', resolveQualified_congr h h', resolveMethod_congr h h']

end Congruence

end FileView

end GoComplexity
