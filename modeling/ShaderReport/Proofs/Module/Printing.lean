/-
# Listings written piece by piece

`Module.listing` puts the text of a module together from the texts of its parts.  Here
the text is written: it is handed from one piece to the next, through loops that write a
separator in front of every element but the first, and through one that counts the
metadata nodes on the way.

What is there already is kept, whatever it is, and what is written behind it is the
listing (`Module.print_eq`).
-/
import ShaderReport.Operation

namespace ShaderReport

/-! ## Loops -/

namespace Text

/-- Writes elements one after another, with a separator in front of all but the first. -/
def writeSeparated {α : Type} (separator : String) (write : α → String → String) :
    List α → String → String
  | [], out => out
  | x :: xs, out => xs.foldl (fun out x => write x (out ++ separator)) (write x out)

/-- Writes elements behind an empty line, if there are any. -/
def writeParagraph {α : Type} (write : α → String → String) (xs : List α) (out : String) :
    String :=
  if xs.isEmpty then out else xs.foldl (fun out x => write x out) (out ++ "\n")

section Loops

variable {α : Type} {write : α → String → String} {text : α → String}
  (h : ∀ x out, write x out = out ++ text x)
include h

/-- A loop whose every round appends, appends what all rounds do. -/
theorem foldl_append (xs : List α) (out : String) :
    xs.foldl (fun out x => write x out) out = out ++ String.join (xs.map text) := by
  induction xs generalizing out with
  | nil => simp
  | cons x xs ih =>
      rw [List.foldl_cons, h x out, ih, List.map_cons, String.join_cons, String.append_assoc]

theorem writeSeparated_cons (separator : String) (x : α) (xs : List α) (out : String) :
    writeSeparated separator write (x :: xs) out =
      out ++ (text x ++ String.join (xs.map fun x => separator ++ text x)) := by
  have round : ∀ x out, write x (out ++ separator) = out ++ (separator ++ text x) := by
    intro x out
    rw [h, String.append_assoc]
  rw [writeSeparated, foldl_append round, h, String.append_assoc]

theorem writeSeparated_comma (xs : List α) (out : String) :
    writeSeparated ", " write xs out = out ++ commaSeparated (xs.map text) := by
  cases xs with
  | nil => exact String.append_empty.symm
  | cons x xs =>
      rw [writeSeparated_cons h, List.map_cons, commaSeparated, List.map_map]
      rfl

theorem writeParagraph_eq (xs : List α) (out : String) :
    writeParagraph write xs out = out ++ Module.paragraph (xs.map text) := by
  cases xs with
  | nil => exact String.append_empty.symm
  | cons x xs => exact (foldl_append h (x :: xs) _).trans String.append_assoc

end Loops

end Text

/-! ## Functions -/

namespace Module

section Functions

variable (m : Module) (remarks : Remarks)

/-- Writes what an instruction does. -/
def writeAction : Action → String → String
  | .call callee arguments, out =>
    let out := out ++ "call " ++ m.calleeText callee ++ "("
    let out := Text.writeSeparated ", " (fun v out => out ++ m.typedValueText v) arguments out
    out ++ ")"
  | .ret none, out => out ++ "ret void"
  | .ret (some v), out => out ++ "ret " ++ m.typedValueText v
  | .verbatim text, out => out ++ text

theorem writeAction_eq (a : Action) (out : String) :
    m.writeAction a out = out ++ m.actionText a := by
  cases a with
  | call callee arguments =>
      have each := @Text.writeSeparated_comma Value _ m.typedValueText (fun _ _ => rfl) arguments
      simp only [writeAction, each, actionText, String.append_assoc]
  | ret v =>
      cases v with
      | none => rfl
      | some v => exact String.append_assoc
  | verbatim text => rfl

/-- Writes the line of an instruction, its remark before the line break. -/
def writeInstruction (i : Instruction) (out : String) : String :=
  let out := out ++ "  "
  let out := match i.result with
    | some name => out ++ "%" ++ name ++ " = "
    | none => out
  m.writeAction i.action out ++ remarks.afterInstruction m i ++ "\n"

theorem writeInstruction_eq (i : Instruction) (out : String) :
    m.writeInstruction remarks i out = out ++ m.instructionLine remarks i := by
  unfold writeInstruction instructionLine instructionText
  cases i.result with
  | none => simp only [writeAction_eq, String.append_assoc, String.empty_append]
  | some name => simp only [writeAction_eq, String.append_assoc]

/-- Writes a label and the lines behind it. -/
def writeBlock (b : Block) (out : String) : String :=
  b.instructions.foldl (fun out i => m.writeInstruction remarks i out) (out ++ b.label ++ ":\n")

theorem writeBlock_eq (b : Block) (out : String) :
    m.writeBlock remarks b out = out ++ m.blockText remarks b := by
  rw [writeBlock, Text.foldl_append (m.writeInstruction_eq remarks), blockText]
  simp only [String.append_assoc]

theorem blocksText_cons (b : Block) (rest : List Block) :
    m.blocksText remarks (b :: rest) = m.blockText remarks b ++
      String.join (rest.map fun b => "\n" ++ m.blockText remarks b) := by
  induction rest generalizing b with
  | nil => simp [blocksText]
  | cons next rest ih =>
      rw [blocksText, ih, List.map_cons, String.join_cons]
      · simp only [String.append_assoc]
      · exact List.cons_ne_nil _ _

theorem writeBlocks_eq (blocks : List Block) (out : String) :
    Text.writeSeparated "\n" (m.writeBlock remarks) blocks out =
      out ++ m.blocksText remarks blocks := by
  cases blocks with
  | nil => exact String.append_empty.symm
  | cons b rest =>
      rw [Text.writeSeparated_cons (m.writeBlock_eq remarks), blocksText_cons]

/-- Writes the parameters of a function; only a definition names them. -/
def writeParameters (declared : Bool) (parameters : List TypeId) (out : String) : String :=
  Text.writeSeparated ", " (fun (type, place) out =>
    let out := out ++ m.types.text type
    if declared then out else out ++ " %" ++ Nat.repr place) parameters.zipIdx out

theorem writeParameters_declared (parameters : List TypeId) (out : String) :
    m.writeParameters true parameters out =
      out ++ Text.commaSeparated (parameters.map m.types.text) := by
  have each := @Text.writeSeparated_comma (TypeId × Nat)
    (fun x out => out ++ m.types.text x.1) (m.types.text ∘ Prod.fst) (fun _ _ => rfl)
    parameters.zipIdx out
  rwa [← List.map_map, List.zipIdx_map_fst] at each

theorem writeParameters_defined (parameters : List TypeId) (out : String) :
    m.writeParameters false parameters out = out ++ Text.commaSeparated
      ((parameters.map m.types.text).zipIdx.map fun (type, place) => type ++ " %" ++ place.repr) := by
  have each := @Text.writeSeparated_comma (TypeId × Nat)
    (fun x out => out ++ m.types.text x.1 ++ " %" ++ x.2.repr)
    (fun x => m.types.text x.1 ++ " %" ++ x.2.repr)
    (fun _ _ => by simp only [String.append_assoc]) parameters.zipIdx out
  rw [List.zipIdx_map, List.map_map]
  exact each

/-- Writes a function, defined or declared. -/
def writeFunction (f : Function) (out : String) : String :=
  let out := out ++ remarks.beforeFunction m f
  match m.types.shape? f.type with
  | some (.function result parameters) =>
    let out := out ++ (if f.isDeclaration then "declare " else "define ") ++
      m.types.text result ++ " @" ++ f.name ++ "("
    let out := m.writeParameters f.isDeclaration parameters out
    if f.isDeclaration then out ++ ")\n"
    else Text.writeSeparated "\n" (m.writeBlock remarks) f.blocks (out ++ ") \x7b\n") ++ "\x7d\n"
  | _ => out ++ "; @" ++ f.name ++ " has non-function type\n"

theorem writeFunction_eq (f : Function) (out : String) :
    m.writeFunction remarks f out = out ++ m.functionText remarks f := by
  unfold writeFunction functionText
  cases m.types.shape? f.type with
  | none => simp only [String.append_assoc]
  | some s =>
      cases s with
      | function result parameters =>
          cases f.isDeclaration with
          | true => simp only [writeParameters_declared, if_true, String.append_assoc]
          | false =>
              simp only [writeParameters_defined, Bool.false_eq_true, if_false, writeBlocks_eq,
                String.append_assoc]
      | _ => simp only [String.append_assoc]

end Functions

/-! ## Metadata -/

/-- Writes the head of a metadata name, and counts its nodes. -/
def writeMetadataHead (state : String × Nat) (md : NamedMetadata) : String × Nat :=
  let (out, next) := state
  let out := out ++ "!" ++ md.name ++ " = !\x7b"
  let out := Text.writeSeparated ", " (fun i out => out ++ ("!" ++ Nat.repr (next + i)))
    (List.range md.operands.length) out
  (out ++ "\x7d" ++ "\n", next + md.operands.length)

/-- The heads are numbered from the node on that the loop has come to. -/
theorem foldl_writeMetadataHead (metadata : List NamedMetadata) (out : String) (next : Nat) :
    (metadata.foldl writeMetadataHead (out, next)).1 =
      out ++ Text.lines (metadataHeads next metadata) := by
  induction metadata generalizing out next with
  | nil => exact String.append_empty.symm
  | cons md rest ih =>
      have references := @Text.writeSeparated_comma Nat _ (fun i => "!" ++ (next + i).repr)
        (fun _ _ => rfl) (List.range md.operands.length)
      rw [List.foldl_cons, writeMetadataHead, ih, references, metadataHeads]
      simp only [Text.lines, List.map_cons, String.join_cons, String.append_assoc]

/-- Writes the metadata: the heads and then the nodes. -/
def writeMetadata (m : Module) (out : String) : String :=
  if m.metadata.isEmpty then out
  else
    let out := (m.metadata.foldl writeMetadataHead (out ++ "\n", 0)).1 ++ "\n"
    (m.metadata.flatMap (·.operands)).zipIdx.foldl
      (fun out (text, i) => out ++ ("!" ++ Nat.repr i ++ " = " ++ text ++ "\n")) out

theorem writeMetadata_eq (m : Module) (out : String) :
    m.writeMetadata out = out ++ m.metadataText := by
  unfold writeMetadata metadataText
  split
  next => exact String.append_empty.symm
  next =>
      have nodes := @Text.foldl_append (String × Nat) _
        (fun x => "!" ++ x.2.repr ++ " = " ++ x.1 ++ "\n") (fun _ _ => rfl)
        (m.metadata.flatMap (·.operands)).zipIdx
      have lines : Text.lines (metadataNodes m.metadata) = String.join
          ((m.metadata.flatMap (·.operands)).zipIdx.map fun x =>
            "!" ++ x.2.repr ++ " = " ++ x.1 ++ "\n") := by
        rw [Text.lines, metadataNodes, List.map_map]
        rfl
      rw [nodes, foldl_writeMetadataHead, lines]
      simp only [String.append_assoc]

/-! ## Modules -/

/-- Writes name, undecoded bitcode and target. -/
def writeHead (m : Module) (out : String) : String :=
  let out := out ++ "; ModuleID = '" ++ m.name ++ "'" ++ "\n"
  let out := match m.undecoded with
    | some u => out ++ "; " ++ u.length.repr ++ " bytes of undecoded bitcode" ++
        (if u.wrapped then " (wrapped)" else "") ++ "\n"
    | none => out
  let out := out ++ "target datalayout = \"" ++ dataLayoutText ++ "\"" ++ "\n"
  out ++ "target triple = \"" ++ targetTriple ++ "\"" ++ "\n"

theorem writeHead_eq (m : Module) (out : String) : m.writeHead out = out ++ m.headText := by
  unfold writeHead headText
  cases m.undecoded with
  | none => simp only [Text.lines, List.append_nil, List.cons_append, List.nil_append,
      List.map_cons, List.map_nil, String.join_cons, String.join_nil, String.append_empty,
      String.append_assoc]
  | some u => simp only [Text.lines, List.cons_append, List.nil_append,
      List.map_cons, List.map_nil, String.join_cons, String.join_nil, String.append_empty,
      String.append_assoc]

/-- Writes the whole module, with remarks, behind what is there. -/
def print (m : Module) (remarks : Remarks) (out : String) : String :=
  let out := m.writeHead out
  let out := Text.writeParagraph (fun id out => out ++ (m.structText id ++ "\n"))
    m.types.namedStructs out
  let out := Text.writeParagraph (fun g out => out ++ (m.globalText g ++ "\n")) m.globals out
  let out := (m.functions.filter (!·.isDeclaration)).foldl
    (fun out f => m.writeFunction remarks f (out ++ "\n")) out
  let out := Text.writeParagraph (m.writeFunction remarks)
    (m.functions.filter (·.isDeclaration)) out
  m.writeMetadata out

theorem print_eq (m : Module) (remarks : Remarks) (out : String) :
    m.print remarks out = out ++ m.listing remarks := by
  have structs := @Text.writeParagraph_eq TypeId _ (fun id => m.structText id ++ "\n")
    (fun _ _ => rfl) m.types.namedStructs
  have globals := @Text.writeParagraph_eq Global _ (fun g => m.globalText g ++ "\n")
    (fun _ _ => rfl) m.globals
  have defined := @Text.foldl_append Function (fun f out => m.writeFunction remarks f (out ++ "\n"))
    (fun f => "\n" ++ m.functionText remarks f)
    (fun f out => (m.writeFunction_eq remarks f _).trans String.append_assoc)
    (m.functions.filter (!·.isDeclaration))
  have declared := Text.writeParagraph_eq (m.writeFunction_eq remarks)
    (m.functions.filter (·.isDeclaration))
  simp only [print, writeHead_eq, structs, globals, defined, declared, writeMetadata_eq, listing,
    String.append_assoc]

end Module

end ShaderReport
