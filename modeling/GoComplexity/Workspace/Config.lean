import GoComplexity.Config.Reading
import GoComplexity.Workspace.Basic

/-!
# Finding and loading the configuration

A file given by name is read whether or not there is one under a default name. Without either the
configuration is empty.
-/

namespace GoComplexity

inductive ConfigError where
  | unreadable (file : String) (cause : ReadError)
  | malformed (file : String)
deriving DecidableEq

namespace ConfigError

def message : ConfigError → String
  | .unreadable file cause => file ++ ": " ++ cause.message
  | .malformed file => file ++ ": malformed configuration"

/-- The error behind a failed read. -/
def cause? : ConfigError → Option String
  | .unreadable _ cause => some cause.message
  | .malformed _ => none

end ConfigError

namespace Workspace

/-- The first file of the working directory with a default name. -/
def findConfig? (ws : Workspace) : Option Path :=
  (Config.fileNames.map fun name ↦ ws.base.append [.name name]).find? fun p ↦
    (ws.tree.filePlace? p).isSome

/-- Whether a path text can only name a directory. -/
def namesDirectory (text : String) : Bool :=
  match (Text.split '/' text.toList).getLast? with
  | some part => part = [] || part = ['.']
  | none => false

/-- Reads the text of a file by the text of its path. -/
def readNamed (ws : Workspace) (text : String) : Except ReadError String :=
  let path := ws.resolve text
  if namesDirectory text && (ws.tree.filePlace? path).isSome then .error .notDirectory
  else ws.tree.readText path

/-- Reads the configuration in a file. Errors name the file by `shown`. -/
def readConfig (shown : String) (content : Except ReadError String) : Except ConfigError Config :=
  match content with
  | .error cause => .error (.unreadable shown cause)
  | .ok text =>
    match Config.ofText? text with
    | some config => .ok config
    | none => .error (.malformed shown)

/-- Loads the named configuration, or else the one with a default name. -/
def loadConfig (ws : Workspace) (named : Option String) : Except ConfigError Config :=
  match named with
  | some text => readConfig text (ws.readNamed text)
  | none =>
    match ws.findConfig? with
    | some path => readConfig path.display (ws.tree.readText path)
    | none => .ok .empty

end Workspace

end GoComplexity
