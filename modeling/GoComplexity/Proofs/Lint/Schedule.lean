import GoComplexity.Lint.Run
import GoComplexity.Proofs.Lint.Order
import GoComplexity.Proofs.Resolve.Scope
import Mathlib.Algebra.BigOperators.Group.List.Basic

/-!
# Independence of schedule and load order

Files may be analysed in any order and their outcomes combined in any bracketing, with empty outcomes
in between. Merging is associative, a scope does not depend on the order of its files, and distinct
keys have one sorted list, so the report is the same each time.
-/

namespace GoComplexity

/-- One way to combine outcomes: a bracketing of merges, with empty outcomes anywhere. -/
inductive MergeTree where
  | empty
  | leaf (o : Outcome)
  | merge (left right : MergeTree)

namespace MergeTree

def eval : MergeTree → Outcome
  | .empty => .empty
  | .leaf o => o
  | .merge left right => left.eval.merge right.eval

/-- The outcomes that are combined, in order. -/
def leaves : MergeTree → List Outcome
  | .empty => []
  | .leaf o => [o]
  | .merge left right => left.leaves ++ right.leaves

/-- Every bracketing gives what merging from left to right gives. -/
theorem eval_eq_foldl (tree : MergeTree) : tree.eval = tree.leaves.foldl Outcome.merge .empty := by
  induction tree with
  | empty => rfl
  | leaf o => exact (Outcome.empty_merge o).symm
  | merge left right hleft hright =>
    calc
      left.eval.merge right.eval =
          left.eval.merge (right.leaves.foldl Outcome.merge .empty) := by rw [hright]
      _ = right.leaves.foldl Outcome.merge left.eval := (Outcome.foldl_merge _ _).symm
      _ = (left.leaves ++ right.leaves).foldl Outcome.merge .empty := by
        rw [List.foldl_append, hleft]

end MergeTree

/-- The same package with its files in another order. -/
structure Package.Reordered (p q : Package) : Prop where
  dir : p.dir = q.dir
  name : p.name = q.name
  path : p.path = q.path
  files : p.files.Perm q.files

/-- The same packages in another order, each with its files in another order. -/
def Package.Rearranged (packages packages' : List Package) : Prop :=
  ∃ shuffled, packages.Perm shuffled ∧ List.Forall₂ Package.Reordered shuffled packages'

/-- Scopes that know the same names give a file the same violations. -/
theorem Outcome.ofFile_congr {s t : Scope} (settings : Settings) (h : s.Within t)
    (h' : t.Within s) : Outcome.ofFile settings s = Outcome.ofFile settings t := by
  funext file
  have hresolve : (FileView.ofFile s file).resolve = (FileView.ofFile t file).resolve :=
    FileView.resolve_congr h h' _
  simp only [Outcome.ofFile, hresolve]

namespace Package

/-- The files of a package in another order have the same outcomes in another order. -/
theorem Reordered.outcomes_perm {p q : Package} (settings : Settings) (h : p.Reordered q) :
    (p.outcomes settings).Perm (q.outcomes settings) := by
  have hscope : Outcome.ofFile settings (Scope.ofFiles p.path p.files) =
      Outcome.ofFile settings (Scope.ofFiles q.path q.files) := by
    rw [h.path]
    exact Outcome.ofFile_congr settings (Scope.ofFiles_within q.path h.files.subset)
      (Scope.ofFiles_within q.path h.files.symm.subset)
  unfold outcomes
  rw [hscope]
  exact h.files.map _

theorem Rearranged.outcomes_perm {packages packages' : List Package} (settings : Settings)
    (h : Rearranged packages packages') :
    (packages.flatMap (outcomes settings)).Perm (packages'.flatMap (outcomes settings)) := by
  obtain ⟨shuffled, hperm, hfiles⟩ := h
  refine (hperm.flatMap_right _).trans ?_
  clear hperm
  induction hfiles with
  | nil => exact List.Perm.refl _
  | cons hpackage _ ih =>
    rw [List.flatMap_cons, List.flatMap_cons]
    exact (hpackage.outcomes_perm settings).append ih

end Package

/-- Sorting after merging does not see the order of the outcomes. -/
theorem Outcome.sort_foldl_merge_eq_of_perm {outcomes outcomes' : List Outcome}
    (hperm : outcomes.Perm outcomes')
    (hkeys : ((outcomes.foldl merge .empty).violations.map Violation.key).Nodup) :
    (outcomes.foldl merge .empty).sort = (outcomes'.foldl merge .empty).sort := by
  apply sort_eq_of_perm _ _ _ hkeys
  · rw [foldl_merge_eq, foldl_merge_eq]
    exact (hperm.flatMap_right _).append_left _
  · rw [foldl_merge_eq, foldl_merge_eq]
    exact congrArg (empty.scanned + ·) (hperm.map scanned).sum_eq
  · rw [foldl_merge_eq, foldl_merge_eq]
    exact congrArg (empty.functions + ·) (hperm.map functions).sum_eq

/-- With distinct keys, a run on rearranged packages gives the same outcome, and so does every
bracketing of the merges of its files. -/
theorem runPackages_schedule_independent {settings : Settings} {packages packages' : List Package}
    {tree : MergeTree}
    (hkeys : ((runPackages settings packages).violations.map Violation.key).Nodup)
    (hpackages : Package.Rearranged packages packages')
    (hleaves : tree.leaves = packages'.flatMap (Package.outcomes settings)) :
    runPackages settings packages' = runPackages settings packages ∧
      tree.eval.sort = runPackages settings packages := by
  have hkeys' : (((packages.flatMap (Package.outcomes settings)).foldl Outcome.merge
      .empty).violations.map Violation.key).Nodup :=
    ((Outcome.sort_perm _).map _).nodup_iff.mp hkeys
  have hrun := Outcome.sort_foldl_merge_eq_of_perm (hpackages.outcomes_perm settings) hkeys'
  refine ⟨hrun.symm, ?_⟩
  rw [tree.eval_eq_foldl, hleaves]
  exact hrun.symm

/-- A package of files with one function of seven parameters each. -/
def widePackage (name : String) (paths : List String) : Package :=
  { dir := ⟨[]⟩
    name := name
    path := "example.com/" ++ name
    files := paths.map fun path ↦
      { path := path
        package := name
        imports := []
        types := []
        vars := []
        functions :=
          [{ name := "f"
             receiver := none
             pos := ⟨3, 1, 11⟩
             params := [⟨["a", "b", "c", "d", "e", "f", "g"], "int", false⟩]
             body := some (.mk ⟨3, 30, 40⟩ [])
             doc := []
             bindings := [] }] } }

/-- Three files of two packages, both lists turned round, merged with empty outcomes in between. -/
theorem runPackages_schedule_independent_three_files :
    let packages := [widePackage "p" ["a.go", "b.go"], widePackage "q" ["c.go"]]
    let packages' := [widePackage "q" ["c.go"], widePackage "p" ["b.go", "a.go"]]
    let outcomes := packages'.flatMap (Package.outcomes Settings.defaults)
    let tree := outcomes.foldr (fun o rest ↦ MergeTree.merge (.merge .empty (.leaf o)) rest) .empty
    ((runPackages Settings.defaults packages).violations.map Violation.key).Nodup ∧
      (runPackages Settings.defaults packages).violations.length = 3 ∧
      runPackages Settings.defaults packages' = runPackages Settings.defaults packages ∧
      tree.eval.sort = runPackages Settings.defaults packages := by
  intro packages packages' outcomes tree
  have hkeys : ((runPackages Settings.defaults packages).violations.map Violation.key).Nodup :=
    ((Outcome.sort_perm _).map _).nodup_iff.mpr (by decide +kernel)
  have hlength : (runPackages Settings.defaults packages).violations.length = 3 :=
    (Outcome.sort_perm _).length_eq.trans (by decide +kernel)
  have hpackages : Package.Rearranged packages packages' :=
    ⟨[widePackage "q" ["c.go"], widePackage "p" ["a.go", "b.go"]], List.Perm.swap _ _ _,
      .cons ⟨rfl, rfl, rfl, List.Perm.refl _⟩ (.cons ⟨rfl, rfl, rfl, List.Perm.swap _ _ _⟩ .nil)⟩
  exact ⟨hkeys, hlength, runPackages_schedule_independent hkeys hpackages rfl⟩

end GoComplexity
