import GoComplexity.Syntax.File

/-!
# Number of parameters

A group of names counts once for each name, an unnamed group once. The receiver is no parameter.
-/

namespace GoComplexity

open Syntax

/-- The number of parameters that a group declares. -/
def Syntax.ParamGroup.count (g : ParamGroup) : Nat := if g.names = [] then 1 else g.names.length

/-- The number of formal parameters in the groups. -/
def countParams : List ParamGroup → Nat
  | [] => 0
  | g :: gs => g.count + countParams gs

end GoComplexity
