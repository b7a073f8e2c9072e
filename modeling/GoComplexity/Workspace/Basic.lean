import GoComplexity.Workspace.FileTree

/-!
# Workspaces

A workspace is a file tree with the directory that relative paths start from.
-/

namespace GoComplexity

structure Workspace where
  tree : FileTree
  /-- The working directory. -/
  base : Path

namespace Workspace

def resolve (ws : Workspace) (text : String) : Path := ws.base.resolve text

/-- How diagnostics and excluded paths name a file. -/
def relative (ws : Workspace) (p : Path) : String := Path.relativeTo ws.base p

end Workspace

end GoComplexity
