/-
# Running a command line

The program reads one file, prints the disassembly, and writes it to a second
file if one is named.  Nothing is printed or written before the disassembly is
there.

What the program does to its surroundings goes through a `Console`, so the same
program runs on the real system and on a `Session`, where its effects are values.
-/
import ShaderReport.CommandLine.Arguments
import ShaderReport.CommandLine.FileSystem

namespace ShaderReport.CommandLine

/-- The surroundings of the program. -/
structure Console (m : Type → Type) where
  read : String → m (Except FileError Bytes)
  write : String → String → m (Except FileError Unit)
  out : String → m Unit
  err : String → m Unit

def versionText : String := "dxil-disasm 0.1.0\n"

def usageText : String := "Usage: dxil-disasm [OPTIONS] <INPUT> [OUTPUT]\n"

def helpText : String :=
  "Disassemble a DXIL shader container into a text report.\n\n" ++ usageText ++ "\n" ++
    Text.lines
      ["Arguments:",
       "  <INPUT>   Container, bare program or raw bitcode to disassemble",
       "  [OUTPUT]  Also write the report to this file",
       "",
       "Options:",
       "      --comment <CHAR>    Character that starts each report line [default: ;]",
       "      --no-debug-bitcode  Load the DXIL part even when the container has an ILDB debug part",
       "  -h, --help              Print help",
       "  -V, --version           Print version"]

/-- The error and the errors behind it. -/
def causeText : DisassemblyError → String
  | .load cause => (DisassemblyError.load cause).message ++ ": " ++ cause.message
  | e => e.message

/-- What is said when the program gives up. -/
def failureText (doing path cause : String) : String :=
  "error: failed to " ++ doing ++ " " ++ path ++ ": " ++ cause ++ "\n"

/-- Makes a disassembly.  The answer is the exit code. -/
def execute {m : Type → Type} [Monad m] (console : Console m) (a : Arguments) : m UInt32 := do
  match ← console.read a.input with
  | .error e =>
    console.err (failureText "read" a.input e.message)
    return 1
  | .ok input =>
    match disassemble a.options Loader.undecoded input with
    | .error e =>
      console.err (failureText "disassemble" a.input (causeText e))
      return 1
    | .ok text =>
      console.out text
      match a.output with
      | none => return 0
      | some output =>
        match ← console.write output text with
        | .error e =>
          console.err (failureText "write" output e.message)
          return 1
        | .ok () => return 0

/-- Does what a command line asks for.  The answer is the exit code. -/
def run {m : Type → Type} [Monad m] (console : Console m) (words : List String) : m UInt32 := do
  match Request.ofWords words with
  | .error e =>
    console.err ("error: " ++ e.message ++ "\n\n" ++ usageText)
    return 1
  | .ok .help =>
    console.out helpText
    return 0
  | .ok .version =>
    console.out versionText
    return 0
  | .ok (.run a) => execute console a

/-! ## Surroundings as a value -/

/-- A file system and what has been printed. -/
structure Session where
  files : FileSystem
  out : String := ""
  err : String := ""
deriving DecidableEq, Inhabited

/-- The surroundings that keep every effect in a session. -/
def Session.console : Console (StateM Session) where
  read path := return (← get).files.read path
  write path text := do
    let s ← get
    match s.files.write path text.toUTF8.data.toList with
    | .error e => return .error e
    | .ok files =>
      set { s with files }
      return .ok ()
  out text := modify fun s => { s with out := s.out ++ text }
  err text := modify fun s => { s with err := s.err ++ text }

/-- The exit code of a command line, and the session behind it. -/
def Session.run (s : Session) (words : List String) : UInt32 × Session :=
  Id.run (StateT.run (CommandLine.run console words) s)

end ShaderReport.CommandLine
