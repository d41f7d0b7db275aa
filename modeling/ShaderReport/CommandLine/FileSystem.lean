/-
# `FileSystem` — files as a value

A file system is a list of files, with directories wherever a path leads through
them.  Reading and writing are whole-file operations that fail for four reasons:
nothing is there, a directory is there, a path leads through a file, or a path or
a name on it is too long.

A name is looked up only when the directory it should stand in has been reached,
so what is wrong further to the left on a path is reported first.
-/
import ShaderReport.Bytes.Basic
import ShaderReport.Text.Column

namespace ShaderReport.CommandLine

inductive FileError where
  | notFound
  | notDirectory
  | isDirectory
  | nameTooLong
  /-- Any other cause, as the system words it. -/
  | other (text : String)
deriving DecidableEq, Inhabited

def FileError.message : FileError → String
  | .notFound => "No such file or directory (os error 2)"
  | .notDirectory => "Not a directory (os error 20)"
  | .isDirectory => "Is a directory (os error 21)"
  | .nameTooLong => "File name too long (os error 36)"
  | .other text => text

/-- Names from the root on. -/
abbrev Path := List String

/-- What can stand at a path. -/
inductive Entry where
  | file (content : Bytes)
  | directory
deriving DecidableEq, Inhabited

/-- Files, and the directory that relative paths start from. -/
structure FileSystem where
  workingDirectory : Path := []
  /-- Directories that need not hold anything. -/
  directories : List Path := []
  files : List (Path × Bytes) := []
deriving DecidableEq, Inhabited

namespace FileSystem

/-- What stands at a path.  Whatever leads to a file or a directory is a directory. -/
def entry? (fs : FileSystem) (p : Path) : Option Entry :=
  match fs.files.lookup p with
  | some content => some (.file content)
  | none =>
    if (fs.workingDirectory :: fs.directories ++ fs.files.map (·.1)).any p.isPrefixOf then
      some .directory
    else none

def maxNameLength : Nat := 255

def maxPathLength : Nat := 4095

/-- Follows names from a directory on; every name must stand in a directory. -/
def follow (fs : FileSystem) (place : Path) : List String → Except FileError Path
  | [] => .ok place
  | name :: rest =>
    match fs.entry? place with
    | none => .error .notFound
    | some (.file _) => .error .notDirectory
    | some .directory =>
      if name = "" ∨ name = "." then fs.follow place rest
      else if name = ".." then fs.follow place.dropLast rest
      else if maxNameLength < name.utf8ByteSize then .error .nameTooLong
      else fs.follow (place ++ [name]) rest

/-- Where the names of a path are followed from. -/
def startOf (fs : FileSystem) (text : String) : Path :=
  if Text.beginsWith "/" text then [] else fs.workingDirectory

/-- The names on a path, if its text can be one at all. -/
def namesOf (text : String) : Except FileError (List String) :=
  if text.isEmpty then .error .notFound
  else if maxPathLength < text.utf8ByteSize then .error .nameTooLong
  else .ok (text.splitOn "/")

def resolve (fs : FileSystem) (text : String) : Except FileError Path :=
  match namesOf text with
  | .error e => .error e
  | .ok names => fs.follow (fs.startOf text) names

def read (fs : FileSystem) (text : String) : Except FileError Bytes :=
  match fs.resolve text with
  | .error e => .error e
  | .ok p =>
    match fs.entry? p with
    | none => .error .notFound
    | some .directory => .error .isDirectory
    | some (.file content) => .ok content

/-- The list with the content of one file replaced, or the file added. -/
def put (p : Path) (content : Bytes) : List (Path × Bytes) → List (Path × Bytes)
  | [] => [(p, content)]
  | f :: rest => if f.1 = p then (p, content) :: rest else f :: put p content rest

/-- The names up to the directory in which the last name of a path should stand, if the
path ends in a slash. -/
def beforeSlash? (names : List String) : Option (List String) :=
  if names.getLast? = some "" then some ((names.reverse.dropWhile (· = "")).drop 1).reverse
  else none

/-- The path of a file that can be created or replaced.  A path that ends in a slash can
only be a directory, and its last name is not looked up. -/
def resolveFile (fs : FileSystem) (text : String) : Except FileError Path :=
  match namesOf text with
  | .error e => .error e
  | .ok names =>
    match beforeSlash? names with
    | some names =>
      -- The dot stands for the last name: all that counts is the directory around it.
      match fs.follow (fs.startOf text) (names ++ ["."]) with
      | .error e => .error e
      | .ok _ => .error .isDirectory
    | none =>
      match fs.follow (fs.startOf text) names with
      | .error e => .error e
      | .ok p => if fs.entry? p = some .directory then .error .isDirectory else .ok p

/-- Creates or replaces a file. -/
def write (fs : FileSystem) (text : String) (content : Bytes) : Except FileError FileSystem :=
  (fs.resolveFile text).map fun p => { fs with files := put p content fs.files }

end FileSystem

end ShaderReport.CommandLine
