import LayeredConfig.FileTree
import LayeredConfig.Keyed

/-!
# The surroundings of a run

Environment variables and files: all that a run can see besides its arguments.
-/

namespace LayeredConfig

/-- Environment variables and files. -/
structure World where
  environment : Keyed String := []
  files : FileTree := {}

namespace World

/-- The value of an environment variable. -/
def lookupVariable? (w : World) (name : String) : Option String := w.environment.get? name

/-- Append a path to a directory; an absolute path stands for itself. -/
def joinPath (directory rest : String) : String :=
  if rest.startsWith "/" then rest
  else if directory.isEmpty || directory.endsWith "/" then directory ++ rest
  else directory ++ "/" ++ rest

/-- Replace a leading `~` by the home directory, if there is one. -/
def expandHome (w : World) (path : String) : String :=
  match Text.after? "~/" path, w.lookupVariable? "HOME" with
  | some rest, some home => joinPath home rest
  | _, _ => path

end World

end LayeredConfig
