import GoComplexity.Metric.Guard
import GoComplexity.Syntax.Walk

/-!
# Cyclomatic complexity

The complexity of a body is one more than its number of decisions. Conditionals, loops and clauses
other than the default ones decide; an error guard and everything below it does not count.
-/

namespace GoComplexity

open Syntax

namespace Syntax.Node

/-- Whether the node is an error guard. -/
def isGuard : Node → Bool
  | .cond c => c.isGuard
  | _ => false

/-- Whether the node adds a path. -/
def isDecision : Node → Bool
  | .cond c => !c.isGuard
  | .stmt (.loop ..) => true
  | .stmt (.case _ list _) => !list.isEmpty
  | .stmt (.comm _ operation _) => operation.isSome
  | _ => false

end Syntax.Node

/-- One plus the number of decisions outside error guards. -/
def Syntax.Block.complexity (b : Block) : Nat :=
  1 + (b.trace fun n ↦ !n.isGuard).countP Node.isDecision

end GoComplexity
