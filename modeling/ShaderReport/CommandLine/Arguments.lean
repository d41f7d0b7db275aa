/-
# `Arguments` — what a command line asks for

An input path, perhaps an output path, and options, in any order:

    INPUT [OUTPUT] [--comment CHAR] [--no-debug-bitcode]

The words are taken from left to right.  The first word that is wrong ends the
reading, and so does a request for help or for the version; what stands behind
it is not looked at.  Behind `--` every word is a path.
-/
import ShaderReport.Disassembly

namespace ShaderReport.CommandLine

structure Arguments where
  input : String
  output : Option String := none
  options : Options := {}
deriving DecidableEq, Inhabited

inductive Request where
  | run (arguments : Arguments)
  | help
  | version
deriving DecidableEq, Inhabited

inductive UsageError where
  | unknownOption (word : String)
  | unexpectedPath (word : String)
  | emptyPath
  | missingInput
  | missingMarker
  | badMarker (value : String)
  | repeated (option : String)
  | unexpectedValue (word : String)
deriving DecidableEq, Inhabited

def UsageError.message : UsageError → String
  | .unknownOption word => s!"unexpected argument '{word}' found"
  | .unexpectedPath word => s!"unexpected argument '{word}' found"
  | .emptyPath => "a path must not be empty"
  | .missingInput => "the required argument <INPUT> was not provided"
  | .missingMarker => "a value is required for '--comment <CHAR>' but none was supplied"
  | .badMarker value =>
    s!"invalid value '{value}' for '--comment <CHAR>': it must be one character"
  | .repeated option => s!"the argument '{option}' cannot be used multiple times"
  | .unexpectedValue word => s!"unexpected value in '{word}'"

/-- What has been read so far. -/
structure Reading where
  input : Option String := none
  output : Option String := none
  marker : Option Char := none
  preferDebug : Bool := true
deriving DecidableEq, Inhabited

namespace Reading

/-- Takes a path: the first is the input, the second the output. -/
def addPath (r : Reading) (word : String) : Except UsageError Reading :=
  if r.output.isSome then .error (.unexpectedPath word)
  else if word.isEmpty then .error .emptyPath
  else if r.input.isSome then .ok { r with output := some word }
  else .ok { r with input := some word }

/-- Takes the marker, which is given at most once and is one character. -/
def setMarker (r : Reading) (value : String) : Except UsageError Reading :=
  if r.marker.isSome then .error (.repeated "--comment <CHAR>")
  else
    match value.toList with
    | [c] => .ok { r with marker := some c }
    | _ => .error (.badMarker value)

/-- Takes the switch against debug information, which is given at most once. -/
def refuseDebug (r : Reading) : Except UsageError Reading :=
  if r.preferDebug then .ok { r with preferDebug := false }
  else .error (.repeated "--no-debug-bitcode")

/-- The request at the end of the words. -/
def finish (r : Reading) : Except UsageError Request :=
  match r.input with
  | none => .error .missingInput
  | some input =>
    .ok (.run { input, output := r.output,
                options := { marker := r.marker.getD ';', preferDebug := r.preferDebug } })

/-- Takes paths only. -/
def paths (r : Reading) : List String → Except UsageError Request
  | [] => r.finish
  | word :: rest => r.addPath word >>= fun r => r.paths rest

end Reading

/-- A word as it stands on the command line. -/
inductive Word where
  | path (word : String)
  | endOfOptions
  | comment
  | commentValue (value : String)
  | noDebugBitcode
  | help
  | version
  /-- A switch with a value behind it. -/
  | switchValue (word : String)
  | unknown (word : String)
deriving DecidableEq, Inhabited

/-- A long option, by its name and by whether a value is attached. -/
def Word.ofLong (word : String) (name : List Char) (value : Option (List Char)) : Word :=
  match String.ofList name, value with
  | "comment", none => .comment
  | "comment", some value => .commentValue (String.ofList value)
  | "no-debug-bitcode", none => .noDebugBitcode
  | "help", none => .help
  | "version", none => .version
  | "no-debug-bitcode", some _ | "help", some _ | "version", some _ => .switchValue word
  | _, _ => .unknown word

/-- Tells options and paths apart.  A lone `-` is a path, and of short options behind
one `-` the first decides. -/
def Word.ofString (word : String) : Word :=
  match word.toList with
  | ['-', '-'] => .endOfOptions
  | '-' :: '-' :: rest =>
    let name := rest.takeWhile (· ≠ '=')
    .ofLong word name (if rest.contains '=' then some (rest.drop (name.length + 1)) else none)
  | '-' :: 'h' :: _ => .help
  | '-' :: 'V' :: _ => .version
  | '-' :: _ :: _ => .unknown word
  | _ => .path word

def Reading.words (r : Reading) : List String → Except UsageError Request
  | [] => r.finish
  | word :: rest =>
    match Word.ofString word with
    | .path word => r.addPath word >>= fun r => r.words rest
    | .endOfOptions => r.paths rest
    | .comment =>
      match rest with
      | [] => .error .missingMarker
      | value :: rest =>
        match Word.ofString value with
        | .path value => r.setMarker value >>= fun r => r.words rest
        | _ => .error .missingMarker
    | .commentValue value => r.setMarker value >>= fun r => r.words rest
    | .noDebugBitcode => r.refuseDebug >>= fun r => r.words rest
    | .help => .ok .help
    | .version => .ok .version
    | .switchValue word => .error (.unexpectedValue word)
    | .unknown word => .error (.unknownOption word)

def Request.ofWords (words : List String) : Except UsageError Request := Reading.words {} words

end ShaderReport.CommandLine
