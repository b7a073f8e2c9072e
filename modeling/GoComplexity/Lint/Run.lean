import GoComplexity.Lint.Outcome
import GoComplexity.Resolve.Callee
import GoComplexity.Workspace.Path

/-!
# Running the metrics over packages

Every function with a body is analysed in the view of its file, and every file in the scope of its
package.
-/

namespace GoComplexity

open Syntax

/-- The files of one directory with one package name. -/
structure Package where
  dir : Path
  name : String
  /-- The import path. -/
  path : String
  files : List SourceFile

/-- The outcome of one file in the scope of its package. -/
def Outcome.ofFile (settings : Settings) (scope : Scope) (file : SourceFile) : Outcome :=
  let view := FileView.ofFile scope file
  let bodies := file.functions.filter (·.body.isSome)
  { violations := bodies.flatMap fun f ↦
      (analyze settings f (view.resolve f.bindings)).map (Violation.ofFinding file.path)
    scanned := 1
    functions := bodies.length }

/-- The outcomes of the files of a package. -/
def Package.outcomes (settings : Settings) (p : Package) : List Outcome :=
  p.files.map (Outcome.ofFile settings (Scope.ofFiles p.path p.files))

/-- The outcome of all packages, in report order. -/
def runPackages (settings : Settings) (packages : List Package) : Outcome :=
  ((packages.flatMap (Package.outcomes settings)).foldl Outcome.merge .empty).sort

end GoComplexity
