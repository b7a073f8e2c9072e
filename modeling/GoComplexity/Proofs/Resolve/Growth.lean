import GoComplexity.Lint.Run
import GoComplexity.Proofs.Resolve.Scope
import Mathlib

/-!
# Packages that grow

A scope is the union of what its files declare. Another order of the files, or a file named twice,
changes no look-up. More files may make a callee known, but one that referred to an object refers to
the same object afterwards: a name already found is found first. So only the fan-out of a function
depends on the other files of its package, and it can only grow with them.
-/

namespace GoComplexity

open Syntax

/-! ## Look-ups in a larger scope -/

theorem contains_mono {α : Type} [BEq α] [LawfulBEq α] {l l' : List α} (h : l ⊆ l') {a : α}
    (ha : l.contains a = true) : l'.contains a = true :=
  List.contains_iff_mem.mpr (h (List.contains_iff_mem.mp ha))

/-- Whether a callee that is an object stays this object. -/
def Callee.Keeps {S : Type} (c c' : Callee S) : Prop :=
  ∀ symbol package, c = .object symbol package → c' = .object symbol package

namespace Callee.Keeps

variable {S : Type}

theorem refl (c : Callee S) : c.Keeps c := fun _ _ h ↦ h

theorem of_unresolved (c : Callee S) : (Callee.unresolved : Callee S).Keeps c := by
  intro symbol package h
  cases h

/-- What counts for fan-out goes on to count under a larger scope. -/
theorem counted? {c c' : Callee S} (h : c.Keeps c') {symbol : S}
    (hsymbol : c.counted? = some symbol) : c'.counted? = some symbol := by
  cases c with
  | object s package => rw [h s package rfl]; exact hsymbol
  | _ => cases hsymbol

end Callee.Keeps

namespace FileView

section Growth

variable {s t : Scope} (h : s.Within t) (imports : List (String × String))
include h

/-- A larger scope keeps what a plain name refers to. -/
theorem resolveName_keeps (name : String) :
    ((FileView.mk s imports).resolveName name).Keeps ((FileView.mk t imports).resolveName name) := by
  intro symbol package hobject
  unfold resolveName at hobject ⊢
  split_ifs at hobject with hdeclared
  have hdeclared' : (t.functions.contains name || t.vars.contains name) = true := by
    rw [Bool.or_eq_true] at hdeclared ⊢
    exact hdeclared.imp (contains_mono h.functions) (contains_mono h.vars)
  rw [if_pos hdeclared', ← hobject, h.path]

/-- A method of a type resolves alike, if it is declared already. -/
theorem ite_hasMethod_keeps (receiver name : String) :
    (if s.hasMethod receiver name then Resolve.object s.path (receiver ++ "." ++ name)
      else .unresolved).Keeps
    (if t.hasMethod receiver name then Resolve.object t.path (receiver ++ "." ++ name)
      else .unresolved) := by
  by_cases hmethod : s.hasMethod receiver name = true
  · have hmethod' : t.hasMethod receiver name = true := contains_mono h.methods hmethod
    rw [if_pos hmethod, if_pos hmethod', h.path]
    exact Callee.Keeps.refl _
  · rw [if_neg hmethod]
    exact Callee.Keeps.of_unresolved _

/-- A larger scope keeps what a qualified name refers to. -/
theorem resolveQualified_keeps (qualifier name : String) :
    ((FileView.mk s imports).resolveQualified qualifier name).Keeps
      ((FileView.mk t imports).resolveQualified qualifier name) := by
  have himport : (FileView.mk t imports).importPath? qualifier =
      (FileView.mk s imports).importPath? qualifier := rfl
  unfold resolveQualified
  rw [himport]
  cases (FileView.mk s imports).importPath? qualifier with
  | some path => exact Callee.Keeps.refl _
  | none => exact ite_hasMethod_keeps h qualifier name

theorem resolveMethodOf_keeps (type name : String) :
    ((FileView.mk s imports).resolveMethodOf type name).Keeps
      ((FileView.mk t imports).resolveMethodOf type name) := by
  unfold resolveMethodOf
  cases Text.cut '.' type.toList with
  | some parts => exact Callee.Keeps.refl _
  | none =>
    by_cases herror : type = "error" ∧ name = "Error"
    · simp only [if_pos herror]
      exact Callee.Keeps.refl _
    · simp only [if_neg herror]
      exact ite_hasMethod_keeps h type name

/-- A larger scope keeps the methods found on a bound name. -/
theorem resolveMethod_keeps (binding : Binding) (name : String) :
    ((FileView.mk s imports).resolveMethod binding name).Keeps
      ((FileView.mk t imports).resolveMethod binding name) := by
  unfold resolveMethod
  cases binding.namedType with
  | some type => exact resolveMethodOf_keeps h imports type name
  | none => exact Callee.Keeps.refl _

/-- What is an object in a scope is the same object in a larger one. -/
theorem resolve_keeps (bindings : List Binding) (callee : Expr) :
    ((FileView.mk s imports).resolve bindings callee).Keeps
      ((FileView.mk t imports).resolve bindings callee) := by
  unfold resolve
  split
  · split
    · rw [h.path]
      exact Callee.Keeps.refl _
    · exact resolveName_keeps h imports _
  · split
    · exact resolveMethod_keeps h imports _ _
    · exact resolveQualified_keeps h imports _ _
  · exact Callee.Keeps.refl _

end Growth

end FileView

/-! ## Fan-out -/

theorem nodup_eraseDups {α : Type} [BEq α] [LawfulBEq α] (l : List α) : l.eraseDups.Nodup := by
  match l with
  | [] => exact List.nodup_nil
  | a :: rest =>
    rw [List.eraseDups_cons, List.nodup_cons]
    refine ⟨?_, nodup_eraseDups _⟩
    simp
termination_by l.length
decreasing_by exact Nat.lt_succ_of_le (List.length_filter_le _ _)

/-- The fan-out is the number of counted symbols. -/
theorem fanOut_eq_card {S : Type} [DecidableEq S] (b : Block) (resolve : Expr → Callee S) :
    b.fanOut resolve = (b.callees.filterMap fun callee ↦ (resolve callee).counted?).toFinset.card := by
  unfold Block.fanOut
  rw [← List.toFinset_card_of_nodup (nodup_eraseDups _)]
  congr 1
  ext symbol
  rw [List.mem_toFinset, List.mem_toFinset, List.mem_eraseDups]

/-- A resolver that knows more objects counts at least as many. -/
theorem fanOut_mono {S : Type} [DecidableEq S] {resolve resolve' : Expr → Callee S}
    (h : ∀ callee, (resolve callee).Keeps (resolve' callee)) (b : Block) :
    b.fanOut resolve ≤ b.fanOut resolve' := by
  rw [fanOut_eq_card, fanOut_eq_card]
  apply Finset.card_le_card
  intro symbol hsymbol
  rw [List.mem_toFinset, List.mem_filterMap] at hsymbol ⊢
  obtain ⟨callee, hcallee, hcounted⟩ := hsymbol
  exact ⟨callee, hcallee, (h callee).counted? hcounted⟩

/-! ## Growing packages -/

/-- The view of a file in a package. -/
def Package.view (p : Package) (file : SourceFile) : FileView :=
  FileView.ofFile (Scope.ofFiles p.path p.files) file

/-- The metrics other than fan-out do not ask what a callee refers to. -/
theorem measure_eq_of_ne_fanOut {S : Type} [BEq S] {m : Metric} (hm : m ≠ .fanOut)
    (f : FunctionDecl) (resolve resolve' : Expr → Callee S) :
    m.measure f resolve = m.measure f resolve' := by
  cases m with
  | fanOut => exact absurd rfl hm
  | _ => rfl

/-- Scopes are unions: files given in any order and any number of times resolve every callee alike,
and in a package with more files every object stays what it was. There each function keeps its
values, but for a fan-out that can only grow. -/
theorem Package.view_union :
    (∀ path files files', (∀ file, file ∈ files ↔ file ∈ files') → ∀ file,
      (FileView.ofFile (Scope.ofFiles path files) file).resolve =
        (FileView.ofFile (Scope.ofFiles path files') file).resolve) ∧
    ∀ p q : Package, p.path = q.path → p.files ⊆ q.files → ∀ file ∈ p.files,
      (∀ bindings callee symbol package,
        (p.view file).resolve bindings callee = .object symbol package →
          (q.view file).resolve bindings callee = .object symbol package) ∧
      ∀ f ∈ file.functions,
        (∀ m ≠ Metric.fanOut, m.measure f ((p.view file).resolve f.bindings) =
          m.measure f ((q.view file).resolve f.bindings)) ∧
        ∀ fanOut ∈ Metric.fanOut.measure f ((p.view file).resolve f.bindings),
          ∃ fanOut' ∈ Metric.fanOut.measure f ((q.view file).resolve f.bindings),
            fanOut.1 ≤ fanOut'.1 ∧ fanOut.2 = fanOut'.2 := by
  constructor
  · intro path files files' hfiles file
    exact FileView.resolve_congr (Scope.ofFiles_within path fun g hg ↦ (hfiles g).mp hg)
      (Scope.ofFiles_within path fun g hg ↦ (hfiles g).mpr hg) _
  · intro p q hpath hfiles file _
    have hscope : (Scope.ofFiles p.path p.files).Within (Scope.ofFiles q.path q.files) := by
      rw [hpath]
      exact Scope.ofFiles_within q.path hfiles
    have hkeeps (bindings : List Binding) (callee : Expr) :
        ((p.view file).resolve bindings callee).Keeps ((q.view file).resolve bindings callee) :=
      FileView.resolve_keeps hscope _ bindings callee
    refine ⟨hkeeps, fun f _ ↦ ⟨fun m hm ↦ measure_eq_of_ne_fanOut hm f _ _, ?_⟩⟩
    intro fanOut hfanOut
    obtain ⟨body, hbody, rfl⟩ := Option.map_eq_some_iff.mp hfanOut
    refine ⟨_, Option.map_eq_some_iff.mpr ⟨body, hbody, rfl⟩, ?_, rfl⟩
    exact fanOut_mono (hkeeps f.bindings) body

/-- A function that calls the functions of the given names. -/
def callerDecl (name : String) (callees : List String) : FunctionDecl :=
  { name := name
    receiver := none
    pos := ⟨3, 1, 11⟩
    params := []
    body := some (.mk ⟨3, 10, 20⟩ (callees.map fun callee ↦
      .simple ⟨4, 2, 23⟩ .expression [.call (.ident callee) []]))
    doc := []
    bindings := [] }

def callerFile (path name : String) (callees : List String) : SourceFile :=
  ⟨path, "p", [], [], [], [callerDecl name callees]⟩

/-- A second file makes the call of `g` known: the fan-out of `f`, which calls itself too, grows from
one to two. -/
theorem Package.view_union_second_file :
    let file := callerFile "a.go" "f" ["f", "g"]
    let other := callerFile "b.go" "g" []
    let p : Package := ⟨⟨[]⟩, "p", "example.com/p", [file]⟩
    let q : Package := ⟨⟨[]⟩, "p", "example.com/p", [other, file]⟩
    let f := callerDecl "f" ["f", "g"]
    (FileView.ofFile (Scope.ofFiles q.path [other, file]) file).resolve =
      (FileView.ofFile (Scope.ofFiles q.path [file, other, file]) file).resolve ∧
    (p.view file).resolve [] (.ident "f") =
      .object ⟨"example.com/p", "f"⟩ (some "example.com/p") ∧
    (q.view file).resolve [] (.ident "f") =
      .object ⟨"example.com/p", "f"⟩ (some "example.com/p") ∧
    Metric.fanOut.measure f ((p.view file).resolve f.bindings) = some (1, f.pos) ∧
    Metric.fanOut.measure f ((q.view file).resolve f.bindings) = some (2, f.pos) ∧
    ∃ fanOut ∈ Metric.fanOut.measure f ((q.view file).resolve f.bindings), 1 ≤ fanOut.1 := by
  intro file other p q f
  obtain ⟨hunion, hgrowth⟩ := Package.view_union
  have hfiles : p.files ⊆ q.files := List.subset_cons_self other [file]
  obtain ⟨hkeeps, hmeasures⟩ := hgrowth p q rfl hfiles file List.mem_cons_self
  have hobject : (p.view file).resolve [] (.ident "f") =
      .object ⟨"example.com/p", "f"⟩ (some "example.com/p") := by decide +kernel
  have hfanOut : Metric.fanOut.measure f ((p.view file).resolve f.bindings) = some (1, f.pos) := by
    decide +kernel
  obtain ⟨fanOut, hmem, hle, -⟩ := (hmeasures f List.mem_cons_self).2 _ hfanOut
  have hsame (g : SourceFile) : g ∈ [other, file] ↔ g ∈ [file, other, file] := by
    simp only [List.mem_cons, List.not_mem_nil, or_false]
    tauto
  exact ⟨hunion _ _ _ hsame file, hobject, hkeeps _ _ _ _ hobject, hfanOut,
    by decide +kernel, fanOut, hmem, hle⟩

end GoComplexity
