import ReverseProxy.Data.Toml
import ReverseProxy.Settings.Validation
import ReverseProxy.Text.Utf8

/-!
# Settings documents

Settings are kept in a TOML document, which may be in a file.
-/

namespace ReverseProxy.Settings

/-- Why settings cannot be used. -/
inductive SettingsFailure where
  /-- The file cannot be read. -/
  | file (text : String)
  /-- The document is no TOML, or does not have the shape of a `Config`. -/
  | document
  /-- The settings make no sense. -/
  | problems (ps : List Problem)
deriving DecidableEq, Repr

/-- The wording of a failure. -/
def SettingsFailure.message : SettingsFailure → String
  | .file text => "IO error: " ++ text
  | .document => "TOML parse error"
  | .problems ps => "Validation failed: " ++ ", ".intercalate (ps.map Problem.message)

/-- Accepts settings in which `problems` finds nothing wrong. -/
def validate (c : Config) : Except SettingsFailure Config :=
  match problems c with
  | [] => .ok c
  | ps => .error (.problems ps)

/-- Reads settings from the text of a TOML document, and validates them. -/
def parse (text : String) : Except SettingsFailure Config :=
  match Toml.read text with
  | none => .error .document
  | some d =>
      match section? Config.shape d with
      | .error _ => .error .document
      | .ok c => validate c

/-- Reads settings from what a file holds, which has to be UTF-8. -/
def ofFile (contents : Bytes) : Except SettingsFailure Config :=
  match Utf8.decode? contents with
  | none => .error (.file "stream did not contain valid UTF-8")
  | some text => parse text

end ReverseProxy.Settings
