-- SUMMARY: The command line: options, what is read and in which order, and what is printed.
import DocQuery.Compile
import DocQuery.Decode.Query
import DocQuery.Decode.Settings

/-!
# The command line

`Invocation.parse` reads the arguments from left to right; the first thing that settles the matter
wins, be it a request for help or a mistake. `Options.run` then reads the settings and the query
and compiles it. How a file is read is left to the caller, so that the same function serves real
files and imagined ones.
-/

namespace DocQuery

/-- What a run of the command asks for. -/
structure Options where
  config : Option String := none
  trace : Bool := false
  compact : Bool := false
  input : Option String := none
deriving DecidableEq, Repr

/-- What the arguments of the command amount to. -/
inductive Invocation where
  | help
  | version
  /-- The arguments make no sense. -/
  | misuse
  | run (options : Options)
deriving DecidableEq, Repr

/-! ## Arguments -/

namespace Invocation

/-- Takes a value for an option that may be given once and must not be empty. -/
def takePath (old : Option String) (path : String) : Option String :=
  if old.isSome || path.isEmpty then none else some path

/-- What cannot be the value of the option before it. -/
def looksLikeOption (arg : String) : Bool :=
  match arg.toList with
  | '-' :: _ :: _ => true
  | _ => false

/-- The meaning of letters after a single dash; the first one decides. -/
def ofLetters : List Char → Invocation
  | 'h' :: _ => .help
  | 'V' :: _ => .version
  | _ => .misuse

/-- The arguments after `--`, none of which is an option. -/
def parsePlain (options : Options) : List String → Invocation
  | [] => .run options
  | arg :: args =>
    match takePath options.input arg with
    | some path => parsePlain { options with input := some path } args
    | none => .misuse

/-- The value of an option in the same argument as its name, after an equals sign. -/
def attached? (name arg : String) : Option String :=
  let start := (name ++ "=").toList
  if start.isPrefixOf arg.toList then some (String.ofList (arg.toList.drop start.length))
  else none

/-- The arguments from left to right. -/
def parseArgs (options : Options) : List String → Invocation
  | [] => .run options
  | ["--config"] => .misuse
  | "--config" :: value :: args =>
    if looksLikeOption value then .misuse
    else match takePath options.config value with
      | some path => parseArgs { options with config := some path } args
      | none => .misuse
  | "--" :: args => parsePlain options args
  | "--help" :: _ => .help
  | "--version" :: _ => .version
  | "--trace" :: args =>
    if options.trace then .misuse else parseArgs { options with trace := true } args
  | "--compact" :: args =>
    if options.compact then .misuse else parseArgs { options with compact := true } args
  | arg :: args =>
    match attached? "--config" arg with
    | some value =>
      match takePath options.config value with
      | some path => parseArgs { options with config := some path } args
      | none => .misuse
    | none =>
      match arg.toList with
      | '-' :: '-' :: _ => .misuse
      | '-' :: c :: letters => ofLetters (c :: letters)
      | _ =>
        match takePath options.input arg with
        | some path => parseArgs { options with input := some path } args
        | none => .misuse

/-- The arguments together with the settings file that the environment names, which counts only
    if no argument names one. -/
def parse (args : List String) (environment : Option String) : Invocation :=
  match parseArgs {} args, environment with
  | .run options, some path =>
    if options.config.isSome then .run options
    else if path.isEmpty then .misuse
    else .run { options with config := some path }
  | invocation, _ => invocation

end Invocation

/-! ## Running -/

/-- Where a text comes from. -/
inductive Source where
  | standardInput
  | file (path : String)
deriving DecidableEq, Repr

/-- The name of a source in messages. -/
def Source.name : Source → String
  | standardInput => "stdin"
  | file path => path

/-- Why the command fails. -/
inductive CommandError where
  | unreadable (source : Source) (reason : String)
  | settings (error : SettingsError)
  | query (error : ReadError)
  | compile (error : CompileError)

/-- The text of a source, from what came of reading its bytes. -/
def Source.text (source : Source) (bytes : Except String ByteArray) :
    Except CommandError String :=
  match bytes with
  | .error reason => .error (.unreadable source reason)
  | .ok bytes =>
    match String.fromUTF8? bytes with
    | some text => .ok text
    | none => .error (.unreadable source "stream did not contain valid UTF-8")

def CommandError.message : CommandError → String
  | unreadable source reason => "failed to read " ++ source.name ++ ": " ++ reason
  | settings error => "invalid encoder config: " ++ error.message
  | query error => "invalid serialized query: " ++ error.message
  | compile error => error.fullMessage

/-- What the command leaves behind. -/
structure Outcome where
  code : Nat
  stdout : String := ""
  stderr : String := ""
deriving DecidableEq, Repr

/-- The name under which the command speaks. -/
def commandName : String :=
  "lokiql"

/-- The environment variable that may name a settings file. -/
def configVariable : String :=
  "LOKIQL_CONFIG"

def traceText (events : List Event) : String :=
  String.join (events.map fun e => "[" ++ commandName ++ "] " ++ e.display ++ "\n")

/-- The outcome of a failure after some events. -/
def CommandError.outcome (trace : String) (e : CommandError) : Outcome :=
  { code := 1, stderr := trace ++ commandName ++ ": " ++ e.message ++ "\n" }

namespace Options

/-- Decodes, compiles and prints a query. -/
def compile (options : Options) (settings : Settings) (text : String) : Outcome :=
  match decode Query.read text with
  | .error e => (CommandError.query e).outcome ""
  | .ok q =>
    let run := q.compile settings
    let trace := if options.trace then traceText run.events else ""
    match run.outcome with
    | .error e => (CommandError.compile e).outcome trace
    | .ok compiled =>
      let layout := if options.compact then Json.Layout.compact else .indented
      { code := 0, stdout := compiled.toJson.write layout ++ "\n", stderr := trace }

variable {m : Type → Type} [Monad m]

/-- Reads the settings, if a file is named for them. -/
def readSettings (options : Options) (read : Source → m (Except String ByteArray)) :
    m (Except CommandError Settings) := do
  match options.config with
  | none => return .ok {}
  | some path =>
    match (Source.file path).text (← read (.file path)) with
    | .error e => return .error e
    | .ok text =>
      match Settings.ofToml text with
      | .error e => return .error (.settings e)
      | .ok settings => return .ok settings

/-- Runs the command: first the settings are read, then the query. -/
def run (options : Options) (read : Source → m (Except String ByteArray)) : m Outcome := do
  match ← options.readSettings read with
  | .error e => return e.outcome ""
  | .ok settings =>
    let source := match options.input with
      | some path => Source.file path
      | none => .standardInput
    match source.text (← read source) with
    | .error e => return e.outcome ""
    | .ok text => return options.compile settings text

end Options

/-! ## Help -/

def usageText : String :=
  "Usage: " ++ commandName ++ " [OPTIONS] [INPUT]\n"

/-- The help text, with the settings file that the environment names. -/
def helpText (environment : Option String) : String :=
  String.join [
    "Compile serialized query descriptions into LokiJS queries\n",
    "\n",
    usageText,
    "\n",
    "Arguments:\n",
    "  [INPUT]  Serialized query (JSON). Reads stdin when omitted\n",
    "\n",
    "Options:\n",
    "      --config <FILE>  Encoder config (TOML) [env: ", configVariable, "=",
      environment.getD "", "]\n",
    "      --trace          Print encode trace events to stderr\n",
    "      --compact        Print single-line JSON\n",
    "  -h, --help           Print help\n",
    "  -V, --version        Print version\n"]

def versionText : String :=
  commandName ++ " 0.4.0\n"

/-- Runs the command with the given arguments and the settings file of the environment. -/
def runCommand {m : Type → Type} [Monad m] (args : List String) (environment : Option String)
    (read : Source → m (Except String ByteArray)) : m Outcome :=
  match Invocation.parse args environment with
  | .help => return { code := 0, stdout := helpText environment }
  | .version => return { code := 0, stdout := versionText }
  | .misuse => return { code := 2, stderr := usageText }
  | .run options => options.run read

end DocQuery
