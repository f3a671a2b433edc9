import TypedImp.Pipeline
import TypedImp.Program.Outline

/-!
# The command line

The arguments name a file and the artifacts to print.  Everything but reading the file
and writing the answer is a function here.
-/

namespace TypedImp.CommandLine

/-- What can be printed. -/
inductive Artifact where
  | tokens
  | ast
  | types
  | transformed
  | state
  deriving DecidableEq

namespace Artifact

/-- The artifact of a name. -/
def ofName? : String → Option Artifact
  | "tokens" => some tokens
  | "ast" => some ast
  | "types" => some types
  | "transformed" => some transformed
  | "state" => some state
  | _ => none

/-- The artifacts of a list of names with commas between them. -/
def ofList? (names : String) : Option (List Artifact) :=
  (names.splitOn ",").mapM ofName?

/-- The line of a token. -/
def tokenLine (token : Token) : String :=
  s!"{token.kind.name} {token.span.text} {Text.quoteText token.text}\n"

/-- Write an artifact. -/
def text (artifacts : Artifacts) : Artifact → String
  | tokens => String.join (artifacts.compiled.tokens.map tokenLine)
  | ast => artifacts.compiled.program.text
  | types => artifacts.compiled.types.text
  | transformed => artifacts.compiled.specialized.text
  | state => artifacts.state.text

end Artifact

/-- What the arguments ask for. -/
structure Options where
  path : String
  artifacts : List Artifact
  strict : Bool
  verbosity : Nat
  deriving DecidableEq

/-- What to do. -/
inductive Request where
  | run (options : Options)
  | version
  | help
  deriving DecidableEq

/-- The options that have been read so far. -/
structure Draft where
  path? : Option String
  artifacts : List Artifact
  strict : Bool
  verbosity : Nat

namespace Draft

/-- No options. -/
def empty : Draft :=
  ⟨none, [], false, 0⟩

/-- Take a path; there may be one, and it may not be empty. -/
def withPath? (draft : Draft) (path : String) : Option Draft :=
  if path = "" ∨ draft.path?.isSome then none else some { draft with path? := some path }

/-- Take names of artifacts. -/
def withArtifacts? (draft : Draft) (names : String) : Option Draft := do
  let artifacts ← Artifact.ofList? names
  return { draft with artifacts := draft.artifacts ++ artifacts }

/-- Take the wish to refuse narrowing; it may be stated once. -/
def withStrict? (draft : Draft) : Option Draft :=
  if draft.strict then none else some { draft with strict := true }

/-- Take the wish for more detail. -/
def withVerbosity (draft : Draft) : Draft :=
  { draft with verbosity := draft.verbosity + 1 }

/-- The request of complete arguments. -/
def finish? (draft : Draft) : Option Request := do
  let path ← draft.path?
  let artifacts := if draft.artifacts.isEmpty then [.state] else draft.artifacts
  return .run ⟨path, artifacts, draft.strict, draft.verbosity⟩

/-- Take paths only. -/
def readPaths? (draft : Draft) : List String → Option Request
  | [] => draft.finish?
  | path :: rest => do
    let draft ← draft.withPath? path
    draft.readPaths? rest

/-- Take the letters behind a single dash: options without values.  The first request that
ends the reading wins. -/
def readLetters? (draft : Draft) : List Char → Option (Draft ⊕ Request)
  | [] => some (.inl draft)
  | 'v' :: letters => draft.withVerbosity.readLetters? letters
  | 'V' :: _ => some (.inr .version)
  | 'h' :: _ => some (.inr .help)
  | _ => none

/-- Take arguments in their order. -/
def read? (draft : Draft) : List String → Option Request
  | [] => draft.finish?
  | "--" :: rest => draft.readPaths? rest
  | "--version" :: _ => some .version
  | "--help" :: _ => some .help
  | "--strict" :: rest => do
    let draft ← draft.withStrict?
    draft.read? rest
  | "--verbose" :: rest => draft.withVerbosity.read? rest
  | "--emit" :: names :: rest => do
    if names.startsWith "-" then none
    let draft ← draft.withArtifacts? names
    draft.read? rest
  | argument :: rest =>
    match argument.toList with
    | '-' :: '-' :: option =>
      match option.span (· != '=') with
      | (name, '=' :: names) => do
        if name != "emit".toList then none
        let draft ← draft.withArtifacts? (String.ofList names)
        draft.read? rest
      | _ => none
    | '-' :: letter :: letters => do
      match ← draft.readLetters? (letter :: letters) with
      | .inl draft => draft.read? rest
      | .inr request => some request
    | _ => do
      let draft ← draft.withPath? argument
      draft.read? rest

end Draft

/-- What the arguments ask for, if they are well formed. -/
def Request.ofArguments? (arguments : List String) : Option Request :=
  Draft.empty.read? arguments

/-- Why a file cannot be read. -/
inductive FileError where
  | notFound
  | isDirectory
  | notUtf8
  | other (reason : String)
  deriving DecidableEq

/-- Say what is wrong. -/
def FileError.message : FileError → String
  | notFound => "No such file or directory (os error 2)"
  | isDirectory => "Is a directory (os error 21)"
  | notUtf8 => "stream did not contain valid UTF-8"
  | other reason => reason

/-- What a run of the command line leaves behind. -/
structure Response where
  exitCode : UInt32
  stdout : String
  stderr : String
  deriving DecidableEq

namespace Response

/-- The exit code of arguments that are not well formed. -/
def usageCode : UInt32 :=
  2

/-- How the command line is used. -/
def usageText : String :=
  "Usage: clite [OPTIONS] <PATH>\n\nOptions:\n" ++
    "      --emit <EMIT>  Artifacts to print, in order (default: state)\n" ++
    "      --strict       Reject implicit float to int narrowing in assignments\n" ++
    "  -v, --verbose...   Log pipeline events (repeat for more detail)\n" ++
    "  -h, --help         Print help\n" ++
    "  -V, --version      Print version\n"

/-- The answer to arguments that are not well formed. -/
def usage : Response :=
  ⟨usageCode, "", usageText⟩

/-- The answer to a request for help. -/
def help : Response :=
  ⟨0, usageText, ""⟩

/-- The answer to a request for the version. -/
def version : Response :=
  ⟨0, "clite 0.0.1\n", ""⟩

/-- The events that a log of a verbosity holds. -/
def logged (verbosity : Nat) (events : List Event) : List Event :=
  match verbosity with
  | 0 => []
  | 1 => events.filter fun event => LogLevel.debug.includes event.level
  | _ => events

/-- Write events, one in each line. -/
def logText (events : List Event) : String :=
  String.join (events.map fun event => event.line ++ "\n")

/-- The answer for a file that cannot be read. -/
def unreadable (path : String) (error : FileError) : Response :=
  ⟨1, "", s!"failed to read {path}: {error.message}\n"⟩

/-- Run a source and print what was asked for, or show why it failed.  There is no answer
if the fuel does not last. -/
def ofSource? (options : Options) (fuel : Nat) (source : String) : Option Response :=
  let config := if options.strict then Config.strict else Config.standard
  let result := run config fuel source
  let log := logText (logged options.verbosity result.events)
  match result.outcome with
  | .ok artifacts =>
    let texts := options.artifacts.map (Artifact.text artifacts)
    some ⟨0, String.intercalate "\n" texts, log⟩
  | .error (.failure failure) => some ⟨1, "", log ++ failure.render source options.path⟩
  | .error .outOfFuel => none

/-- The answer to options and the file that they name. -/
def ofFile? (options : Options) (fuel : Nat) (content : Except FileError String) :
    Option Response :=
  match content with
  | .ok source => ofSource? options fuel source
  | .error error => some (unreadable options.path error)

end Response

end TypedImp.CommandLine
