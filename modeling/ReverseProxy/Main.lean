import ReverseProxy.Admin.Report
import ReverseProxy.Data.Json
import ReverseProxy.Settings.Document

/-!
# The command line

`--config FILE` reads the settings in a file, and builds the proxy that they describe: what is wrong
with them is reported, and otherwise the state that the proxy starts in is shown.  Without a file
the proxy is built from the default settings.
-/

namespace ReverseProxy

open Operation Settings

/-- What the command line asks for: the path of a file, if one is named. -/
def configPath? : List String → Except String (Option String)
  | [] => .ok none
  | ["--config", path] | ["-c", path] => .ok (some path)
  | _ => .error "usage: [--config FILE]"

/-- What `path` leads to, or the text of the failure to read it. -/
def readFile (path : String) : IO (Except String Bytes) := do
  match (← (IO.FS.readBinFile path).toBaseIO) with
  | .ok contents => return .ok contents.toList
  | .error e => return .error (toString e)

/-- The settings in a file, or the default ones. -/
def loadConfig : Option String → IO (Except SettingsFailure Config)
  | none => return .ok {}
  | some path => do
      match (← readFile path) with
      | .ok contents => return ofFile contents
      | .error text => return .error (.file text)

/-- The state in which the proxy of the settings `c` starts. -/
def startReport (files : Files) (c : Config) : Except String String :=
  match Proxy.ofConfig files c with
  | .error e => .error ("backend TLS: " ++ e.message)
  | .ok proxy => .ok (Json.write (Admin.State.report { proxy }))

/-- Reports to the standard output or the standard error. -/
def report : Except String String → IO UInt32
  | .ok text => do IO.println text; return 0
  | .error text => do IO.eprintln ("Error: " ++ text); return 1

end ReverseProxy

open ReverseProxy in
/-- The command line. -/
def main (args : List String) : IO UInt32 := do
  match configPath? args with
  | .error usage => report (.error usage)
  | .ok path =>
      match (← loadConfig path) with
      | .error e => report (.error e.message)
      | .ok c =>
          let roots ← match c.backendTls.caPath with
            | none => pure (.error "")
            | some path => readFile path
          report (startReport (fun _ => roots) c)
