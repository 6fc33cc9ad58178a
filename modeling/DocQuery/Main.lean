-- SUMMARY: The command as a program: files, standard streams and the exit code.
import DocQuery.CommandLine

/-!
# The program
-/

namespace DocQuery

/-- A reason with the number of the error, which some calls give with its sign turned. -/
def withCode (reason : String) (code : UInt32) : String :=
  let n := if 2147483648 ≤ code.toNat then 4294967296 - code.toNat else code.toNat
  reason ++ " (os error " ++ toString n ++ ")"

/-- Why a file could not be read, as the operating system puts it. -/
def describeError : IO.Error → String
  | .noFileOrDirectory _ code _ => withCode "No such file or directory" code
  | .inappropriateType _ code details => withCode details code
  | .permissionDenied _ code details => withCode details code
  | e => e.toString

/-- All that a stream still holds. -/
partial def readAll (stream : IO.FS.Stream) (bytes : ByteArray) : IO ByteArray := do
  let more ← stream.read 65536
  if more.isEmpty then return bytes else readAll stream (bytes ++ more)

def readSource (source : Source) : IO (Except String ByteArray) := do
  try
    match source with
    | .standardInput => return .ok (← readAll (← IO.getStdin) .empty)
    | .file path => return .ok (← IO.FS.readBinFile path)
  catch e => return .error (describeError e)

end DocQuery

open DocQuery in
def main (args : List String) : IO UInt32 := do
  let outcome ← runCommand args (← IO.getEnv configVariable) readSource
  IO.print outcome.stdout
  IO.eprint outcome.stderr
  return outcome.code.toUInt32
