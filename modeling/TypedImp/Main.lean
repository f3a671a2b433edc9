import TypedImp.CommandLine

/-!
# The program

Reads the file that the arguments name and writes the answer.
-/

namespace TypedImp.CommandLine

/-- More steps inside each other than a run can take. -/
def ampleFuel : Nat :=
  4611686018427387904

/-- Read a text file. -/
def readFile (path : String) : IO (Except FileError String) := do
  try
    let bytes ← IO.FS.readBinFile path
    match String.fromUTF8? bytes with
    | some text => return .ok text
    | none => return .error .notUtf8
  catch error =>
    match error with
    | .noFileOrDirectory .. => return .error .notFound
    | .inappropriateType .. => return .error .isDirectory
    | other => return .error (.other (toString other))

/-- Answer a request. -/
def answer : Request → IO Response
  | .version => return .version
  | .help => return .help
  | .run options => do
    let content ← readFile options.path
    match Response.ofFile? options ampleFuel content with
    | some response => return response
    | none => throw (IO.userError "the run did not end")

/-- Write an answer, and give its exit code. -/
def write (response : Response) : IO UInt32 := do
  (← IO.getStdout).putStr response.stdout
  (← IO.getStderr).putStr response.stderr
  return response.exitCode

/-- Run the command line. -/
def respond (arguments : List String) : IO UInt32 := do
  match Request.ofArguments? arguments with
  | none => write .usage
  | some request => write (← answer request)

end TypedImp.CommandLine

/-- The entry of the program. -/
def main (arguments : List String) : IO UInt32 :=
  TypedImp.CommandLine.respond arguments
