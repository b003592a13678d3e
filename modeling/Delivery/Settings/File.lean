import Delivery.Files.Tree
import Delivery.Settings.Basic
import Delivery.Toml.Reader
import Delivery.Toml.Writer

/-!
The file of the settings, a TOML document. Settings are written to a temporary file beside it, which then
takes its place.
-/

namespace Delivery

inductive SettingsFailure where
  | files (action : String) (error : FileError)
  | unreadable (path : FilePath) (text : String)
  | problem (what : SettingsProblem)
  | noParent (path : FilePath)

def SettingsFailure.message : SettingsFailure → String
  | .files action error => action ++ ": " ++ error.message
  | .unreadable path _ => "parse " ++ path.text
  | .problem what => what.message
  | .noParent path => "config path missing parent " ++ path.text

/-- The message with its reason. What is wrong with a text is up to the reader of TOML, whose words are `complaint`. -/
def SettingsFailure.explain (complaint : String → String) : SettingsFailure → String
  | .unreadable path text => (unreadable path text).message ++ ": " ++ complaint text
  | failure => failure.message

namespace Settings

def ofText? (text : String) : Option Settings := do
  let value ← Toml.readJson? text
  (Settings.codec.read .loose (.ofJson value)).toOption

def checked (s : Settings) : Except SettingsFailure Settings :=
  match s.problem? with
  | some problem => .error (.problem problem)
  | none => .ok s

/-- Loads settings; where no file is, the defaults hold. -/
def load (t : FileTree) (path : FilePath) : Except SettingsFailure Settings :=
  if !t.pathExists path then checked {}
  else
    match t.readText path with
    | .error error => .error (.files ("read " ++ path.text) error)
    | .ok text =>
      match ofText? text with
      | none => .error (.unreadable path text)
      | some settings => settings.checked

def render (s : Settings) : String :=
  "ui_base_url = " ++ Toml.Text.write s.uiBaseUrl ++ "\n" ++
    (match s.workDirRoot with
      | some root => "workdir_root = " ++ Toml.Text.write root ++ "\n"
      | none => "") ++
    "\n[promotion]\n" ++
    s!"default_error_threshold = {s.promotion.errorThreshold}\n" ++
    s!"default_step_timeout_secs = {s.promotion.stepTimeoutSecs}\n\n"

def replaceFile (t : FileTree) (path : FilePath) (text : String) :
    Except SettingsFailure Unit × FileTree :=
  match path.parent? with
  | none => (.error (.noParent path), t)
  | some above =>
    match t.makeDirectories above with
    | (.error error, t) => (.error (.files ("create directory " ++ above.text) error), t)
    | (.ok (), t) =>
      let temporary := path.withExtension "toml.tmp"
      match t.writeText temporary text with
      | .error error => (.error (.files ("write temp config " ++ temporary.text) error), t)
      | .ok t =>
        match t.rename temporary path with
        | .error error => (.error (.files ("replace config " ++ path.text) error), t)
        | .ok t => (.ok (), t)

def save (t : FileTree) (path : FilePath) (s : Settings) : Except SettingsFailure Unit × FileTree :=
  match s.checked with
  | .error failure => (.error failure, t)
  | .ok s => replaceFile t path s.render

end Settings
end Delivery
