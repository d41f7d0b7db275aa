/-
# The program

The command line on the real system.
-/
import ShaderReport.CommandLine.Run

namespace ShaderReport.CommandLine

/-- What the system says of an error, and its number. -/
def FileError.worded (code : UInt32) (details : String) : FileError :=
  .other (details ++ " (os error " ++ code.toNat.repr ++ ")")

/-- A system error as the program words it. -/
def FileError.ofSystem : IO.Error → FileError
  | .noFileOrDirectory .. => .notFound
  | .inappropriateType _ code _ => if code = 21 then .isDirectory else .notDirectory
  | .permissionDenied _ code details => .worded code details
  | .invalidArgument _ code details =>
    if code = 36 then .nameTooLong else .worded code details
  | e => .other (toString e)

def systemConsole : Console IO where
  read path := do
    try
      return .ok (← IO.FS.readBinFile path).data.toList
    catch e => return .error (.ofSystem e)
  write path text := do
    try
      IO.FS.writeFile path text
      return .ok ()
    catch e => return .error (.ofSystem e)
  out text := do
    let stdout ← IO.getStdout
    stdout.putStr text
    stdout.flush
  err text := do
    let stderr ← IO.getStderr
    stderr.putStr text

end ShaderReport.CommandLine

def main (words : List String) : IO UInt32 :=
  ShaderReport.CommandLine.run ShaderReport.CommandLine.systemConsole words
