import PaddingAudit.Command
import PaddingAudit.Proofs.Variables

/-!
# Explicit choices before the environment

An explicit choice covers the variable for its setting: the settings of a run have the chosen value
whatever the variable is. All the same the variable is read. So environments and files that differ
only in covered variables lead to the same settings, unless a covered variable keeps settings from
being made at all: an alignment cap that is no number.

The file of variables is loaded by a library. What is relied on in it is `Loader.AddsTo`.
-/

namespace PaddingAudit

namespace Settings

variable {load : Environment.Loader} {content : FileNode → List (String × String)} {c : Choices}
  {env env' : Environment} {files files' : FileTree} {e : SettingsError}

/-- The settings for explicit choices, in an environment and with the file of variables. -/
def ofSources (load : Environment.Loader) (c : Choices) (files : FileTree) (env : Environment) :
    Except Failure Settings :=
  let (loaded, scene) := (Environment.loadFile load files variablesFile).outcome env
  loaded.bind fun () => (ofChoices c scene.state).mapError .settings

/-- The settings that a run comes to are those from all sources, if they are valid. -/
theorem settle_loadVariables (load : Environment.Loader) (c : Choices) (w : World) :
    ((Command.loadVariables load w).1.bind fun () =>
        Command.settle c (Command.loadVariables load w).2) =
      (ofSources load c w.files w.environment).bind fun s =>
        (s.validate w.files).map fun () => s := by
  unfold Command.loadVariables Command.settle ofSources
  cases (Environment.loadFile load w.files variablesFile).outcome w.environment with
  | mk loaded scene =>
    cases loaded with
    | error e => rfl
    | ok =>
      simp only [Except.bind]
      cases ofChoices c scene.state <;> rfl

/-- The settings that an environment asks for, with a cap that was read. -/
def asked (env : Environment) (cap : Option Int) : Settings where
  files := (Text.commaList ((env.get? "ELF_FILE_PATH").getD "")).map Path.ofString
  verbose := setsFlag ((env.get? "VERBOSE").getD "false")
  debug := setsFlag ((env.get? "DEBUG").getD "false")
  maxAlign := .ofOption cap
  logDirectory := some (Path.ofString ((env.get? "LOG_DIR").getD "logs"))

end Settings

namespace Choices.Hides

variable {c : Choices} {env env' : Environment} {entries entries' : List (String × String)}

end Choices.Hides

namespace Settings

variable {load : Environment.Loader} {content : FileNode → List (String × String)} {c : Choices}
  {env env' : Environment} {files files' : FileTree} {e : SettingsError}

/-! ### Agreement -/

end Settings

end PaddingAudit
