import CanvasScript.Json.Read
import CanvasScript.Terminal
import CanvasScript.Text.Controls

namespace CanvasScript.CommandLine

variable {σ : Type}

structure Options where
  script : Option String
  config : Option String
  fs : Bool
  shell : Bool
  canvas : Bool
  verbose : Bool

def Options.none : Options := ⟨Option.none, Option.none, false, false, false, false⟩

inductive Request where
  | run (script : String) (o : Options)
  | help
  | version

inductive UsageError where
  | unexpected (arg : String)
  | repeated (flag : String)
  | noValue
  | noScript

def UsageError.message : UsageError → String
  | unexpected arg => "unexpected argument '" ++ arg ++ "' found"
  | repeated flag => "the argument '" ++ flag ++ "' cannot be used multiple times"
  | noValue => "a value is required for '--config <CONFIG>' but none was supplied"
  | noScript => "the following required arguments were not provided:\n  <SCRIPT>"

def once (flag : String) (isSet : Bool) (o : Options) : Except UsageError Options :=
  if isSet then .error (.repeated flag) else .ok o

def setScript (arg : String) (o : Options) : Except UsageError Options :=
  match o.script with
  | Option.none => .ok { o with script := some arg }
  | some _ => .error (.unexpected arg)

def setConfig (path : String) (o : Options) : Except UsageError Options :=
  once "--config <CONFIG>" o.config.isSome { o with config := some path }

def looksLikeOption (arg : String) : Bool := arg.startsWith "-" && arg ≠ "-"

def readShort (o : Options) : List Char → Except UsageError (Options ⊕ Request)
  | [] => .ok (.inl o)
  | 'v' :: rest => do
    let o ← once "--verbose" o.verbose { o with verbose := true }
    readShort o rest
  | 'h' :: _ => .ok (.inr .help)
  | 'V' :: _ => .ok (.inr .version)
  | c :: _ => .error (.unexpected ("-" ++ c.toString))

def readArgs (o : Options) : List String → Except UsageError Request
  | [] =>
    match o.script with
    | some script => .ok (.run script o)
    | Option.none => .error .noScript
  | "--" :: rest => do
    let o ← rest.foldlM (fun o arg => setScript arg o) o
    match o.script with
    | some script => .ok (.run script o)
    | Option.none => .error .noScript
  | "--config" :: rest =>
    match rest with
    | path :: rest =>
      if looksLikeOption path then .error .noValue
      else do
        let o ← setConfig path o
        readArgs o rest
    | [] => .error .noValue
  | "--fs" :: rest => do
    let o ← once "--fs" o.fs { o with fs := true }
    readArgs o rest
  | "--shell" :: rest => do
    let o ← once "--shell" o.shell { o with shell := true }
    readArgs o rest
  | "--canvas" :: rest => do
    let o ← once "--canvas" o.canvas { o with canvas := true }
    readArgs o rest
  | "--verbose" :: rest => do
    let o ← once "--verbose" o.verbose { o with verbose := true }
    readArgs o rest
  | "--help" :: _ => .ok .help
  | "--version" :: _ => .ok .version
  | arg :: rest =>
    if arg.startsWith "--config=" then do
      let o ← setConfig (arg.drop "--config=".length).toString o
      readArgs o rest
    else if arg.startsWith "--" then .error (.unexpected arg)
    else if looksLikeOption arg then do
      match ← readShort o (arg.toList.drop 1) with
      | .inl o => readArgs o rest
      | .inr request => .ok request
    else do
      let o ← setScript arg o
      readArgs o rest

structure Report (σ : Type) where
  code : Nat
  stdout : String
  stderr : String
  disk : σ

structure Workplace (σ : Type) where
  disk : σ
  environment : List (String × String)
  seed : Nat

/-- The settings file that is read if none is named. It lies in the directory for settings that the
environment names, if that is a path from the top, or else in the usual one at home. -/
def Workplace.settingsFile? (w : Workplace σ) : Option String :=
  let below (directory : String) : String := directory ++ "/quill/settings.json"
  match (w.environment.lookup "XDG_CONFIG_HOME").filter (·.startsWith "/") with
  | some directory => some (below directory)
  | Option.none => (w.environment.lookup "HOME").map fun home => below (home ++ "/.config")

structure Trouble where
  problem : String
  causes : List String

def causeText (number : Option Nat) (cause : String) : String :=
  let lines := cause.splitOn "\n"
  match number with
  | some n => "    " ++ toString n ++ ": " ++ "\n       ".intercalate lines
  | Option.none => "    " ++ "\n    ".intercalate lines

def causesText (causes : List String) : List String :=
  match causes with
  | [cause] => [causeText Option.none cause]
  | causes => causes.mapIdx fun i cause => causeText (some i) cause

def Trouble.text (t : Trouble) : String :=
  if t.causes.isEmpty then "Error: " ++ t.problem ++ "\n"
  else
    "Error: " ++ t.problem ++ "\n\nCaused by:\n" ++ "\n".intercalate (causesText t.causes) ++ "\n"

def logText (line : String) : String :=
  Text.withoutControls ("\n    ".intercalate (line.splitOn "\n") ++ "\n")

def debug (o : Options) (line : String) : String := if o.verbose then logText line else ""

def parseSettings (shown text : String) : Except Trouble Settings :=
  match (Json.read? text).bind Settings.ofJson? with
  | some s => .ok s
  | Option.none =>
    .error ⟨"in " ++ shown, ["invalid settings JSON", "the document does not fit the settings"]⟩

def readSettings (shown : String) (contents : Except String String) : Except Trouble Settings :=
  match contents with
  | .ok text => parseSettings shown text
  | .error reason => .error ⟨"reading " ++ shown, [reason]⟩

section

variable [OperatingSystem σ]

def loadSettings (o : Options) (w : Workplace σ) : String × Except Trouble Settings :=
  let load (path : String) : String × Except Trouble Settings :=
    ("[DEBUG quill::config] loading settings from " ++ path,
      readSettings path (OperatingSystem.readText w.disk path))
  match o.config, w.settingsFile? with
  | some path, _ => load path
  | Option.none, some path =>
    if OperatingSystem.isThere w.disk path then load path
    else ("[DEBUG quill::config] no settings file, using defaults", .ok .standard)
  | Option.none, Option.none =>
    ("[DEBUG quill::config] no settings file, using defaults", .ok .standard)

def endingLog : Ending → List String
  | .exited => ["[DEBUG quill_lang] script called exit()"]
  | .failed ⟨_, .callDepth name depth⟩ =>
    ["[DEBUG quill_lang::runtime::interpreter] call `" ++ name ++ "` refused at depth " ++
      toString depth]
  | _ => []

def endingTrouble? (script : String) : Ending → Option Trouble
  | .finished => Option.none
  | .exited => Option.none
  | .failed e => some ⟨"running " ++ script, [e.display]⟩
  | .stray s => some ⟨"internal error: `" ++ s.name ++ "` escaped its handler", []⟩
  | .outOfFuel => some ⟨"running " ++ script, ["out of fuel"]⟩

def runProgram (script : String) (o : Options) (settings : Settings) (body : List Stmt)
    (w : Workplace σ) (before : String) : Report σ :=
  let env := Embedding.plain Host.terminal
  let state := State.initial env settings (.begin_ w.disk w.environment o.canvas w.seed)
  let (ending, state) := Program.run ⟨0, body⟩ env ampleFuel state
  let t := state.world
  let log :=
    [s!"[DEBUG quill_lang] evaluating {body.length} top-level statements"] ++ t.log.reverse ++
      endingLog ending ++
      [s!"[DEBUG quill] {t.canvasCommands} canvas commands, {state.bindings.size} variables"]
  let stderr := before ++ String.join (log.map (debug o))
  match endingTrouble? script ending with
  | Option.none => ⟨0, t.stdout, stderr, t.disk⟩
  | some trouble => ⟨1, t.stdout, stderr ++ trouble.text, t.disk⟩

def runSource (script : String) (o : Options) (settings : Settings) (source : String)
    (w : Workplace σ) (before : String) : Report σ :=
  match parseProgram source .start with
  | .ok body => runProgram script o settings body w before
  | .error ds =>
    let line (d : Diagnostic) : String :=
      script ++ ": " ++ d.problem.phase.name ++ " error " ++ d.display ++ "\n"
    let trouble : Trouble := ⟨script ++ s!" failed to compile ({ds.length} errors)", []⟩
    ⟨1, "", before ++ String.join (ds.map line) ++ trouble.text, w.disk⟩

def runScript (script : String) (o : Options) (w : Workplace σ) : Report σ :=
  let (line, settings) := loadSettings o w
  let before := debug o line
  match settings with
  | .error trouble => ⟨1, "", before ++ trouble.text, w.disk⟩
  | .ok settings =>
    let settings := { settings with
      enableFilesystem := settings.enableFilesystem || o.fs
      enableShell := settings.enableShell || o.shell }
    match OperatingSystem.readText w.disk script with
    | .error reason => ⟨1, "", before ++ Trouble.text ⟨"reading " ++ script, [reason]⟩, w.disk⟩
    | .ok source => runSource script o settings source w before

def usage : String :=
  "Usage: quill [OPTIONS] <SCRIPT>\n\nArguments:\n  <SCRIPT>  Script to run\n\nOptions:\n" ++
  "      --config <CONFIG>  Settings file (JSON)\n" ++
  "      --fs               Expose the `fs` namespace\n" ++
  "      --shell            Expose the `shell` namespace\n" ++
  "      --canvas           Print canvas commands as JSON lines\n" ++
  "  -v, --verbose          Debug logging\n" ++
  "  -h, --help             Print help\n" ++
  "  -V, --version          Print version\n"

def run (args : List String) (w : Workplace σ) : Report σ :=
  match readArgs .none args with
  | .error e => ⟨2, "", "error: " ++ e.message ++ "\n\n" ++ usage, w.disk⟩
  | .ok .help => ⟨0, "Run a quill script in the terminal\n\n" ++ usage, "", w.disk⟩
  | .ok .version => ⟨0, "quill 0.1.0\n", "", w.disk⟩
  | .ok (.run script o) => runScript script o w

end

end CanvasScript.CommandLine
