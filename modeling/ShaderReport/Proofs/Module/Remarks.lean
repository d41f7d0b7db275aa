/-
# Remarks stand at the ends of lines

A listing with remarks and the listing without them consist of the same pieces.  A
`Piece` is text that stands in both, or the line of an instruction; only a line has room
for a remark, behind the instruction and in front of the line break.

`Laid m write listed` says that a text which is written with remarks consists of such
pieces, with one line for each of the listed instructions and in their order.  It is
closed under what listings are put together with, so there is one lemma for every
definition on the way from an instruction to a module (`laid_listing`).

What the remarks on operations say is given by rules (`RemarkOn`), and taking a remark
out again is an operation on characters (`Text.cut`), which knows of places and lengths
only.
-/
import ShaderReport.Operation

namespace ShaderReport

/-! ## Taking text out -/

/-- Takes characters out of a text.  Each entry says how many to keep and how many to leave
out behind them; what stands behind the last entry is kept. -/
def Text.cut : List (Nat × Nat) → List Char → List Char
  | [], rest => rest
  | (kept, left) :: spans, s => s.take kept ++ cut spans (s.drop (kept + left))

theorem Text.cut_cons (kept left : String) (spans : List (Nat × Nat)) (rest : List Char) :
    cut ((kept.length, left.length) :: spans) (kept.toList ++ (left.toList ++ rest)) =
      kept.toList ++ cut spans rest := by
  have behind : (kept.toList ++ (left.toList ++ rest)).drop (kept.length + left.length) = rest := by
    rw [← String.length_toList, ← String.length_toList, ← List.drop_drop, List.drop_left,
      List.drop_left]
  rw [cut, behind, ← String.length_toList, List.take_left]

/-! ## Pieces -/

/-- A piece of a listing: text that is always the same, or the line of an instruction. -/
inductive Piece where
  | fixed (text : String)
  | line (i : Instruction)

namespace Piece

/-- The instruction whose line the piece is. -/
def instruction? : Piece → Option Instruction
  | .fixed _ => none
  | .line i => some i

section Text

variable (m : Module) (remark : Instruction → String)

/-- A piece as it is written.  The remark stands right in front of the line break. -/
def text : Piece → String
  | .fixed text => text
  | .line i => "  " ++ m.instructionText i ++ remark i ++ "\n"

/-- Pieces one behind the other. -/
def joined (pieces : List Piece) : String := String.join (pieces.map (text m remark))

/-- Where the remark stands in a piece, and how long it is. -/
def spans : Piece → List (Nat × Nat)
  | .fixed text => [(text.length, 0)]
  | .line i => [(("  " ++ m.instructionText i).length, (remark i).length), (1, 0)]

/-- Of one piece, everything but the remark is kept. -/
theorem cut_text (p : Piece) (spans : List (Nat × Nat)) (rest : List Char) :
    Text.cut (p.spans m remark ++ spans) ((p.text m remark).toList ++ rest) =
      (p.text m fun _ => "").toList ++ Text.cut spans rest := by
  cases p with
  | fixed s => exact Text.cut_cons s "" spans rest
  | line i =>
      have front := Text.cut_cons ("  " ++ m.instructionText i) (remark i) ((1, 0) :: spans)
        ("\n".toList ++ rest)
      have lineBreak : Text.cut ((1, 0) :: spans) ("\n".toList ++ rest) =
          "\n".toList ++ Text.cut spans rest := Text.cut_cons "\n" "" spans rest
      rw [lineBreak] at front
      simpa [Piece.text, Piece.spans] using front

/-- Taking out the remarks leaves what is written without them. -/
theorem cut_joined (pieces : List Piece) :
    Text.cut (pieces.flatMap (spans m remark)) (joined m remark pieces).toList =
      (joined m (fun _ => "") pieces).toList := by
  induction pieces with
  | nil => rfl
  | cons p pieces ih =>
      have step := cut_text m remark p (pieces.flatMap (spans m remark))
        (joined m remark pieces).toList
      rw [ih] at step
      simpa [joined] using step

end Text

end Piece

/-! ## Texts made of pieces -/

/-- Text that is written with remarks consists of pieces, with one line for each of the
listed instructions and in their order. -/
def Laid (m : Module) (write : Remarks → String) (listed : List Instruction) : Prop :=
  ∃ pieces : List Piece, pieces.filterMap Piece.instruction? = listed ∧
    ∀ remark : Module → Instruction → String,
      write { afterInstruction := remark } = Piece.joined m (remark m) pieces

section Laid

variable {m : Module}

theorem laid_fixed (text : String) : Laid m (fun _ => text) [] := by
  refine ⟨[.fixed text], rfl, ?_⟩
  intro remark
  simp [Piece.joined, Piece.text]

theorem Laid.append {write write' : Remarks → String} {listed listed' : List Instruction}
    (h : Laid m write listed) (h' : Laid m write' listed') :
    Laid m (fun remarks => write remarks ++ write' remarks) (listed ++ listed') := by
  obtain ⟨pieces, rfl, written⟩ := h
  obtain ⟨pieces', rfl, written'⟩ := h'
  refine ⟨pieces ++ pieces', List.filterMap_append, ?_⟩
  intro remark
  simp only [written remark, written' remark, Piece.joined, List.map_append, String.join_append]

theorem Laid.between {write : Remarks → String} {listed : List Instruction} (before after : String)
    (h : Laid m write listed) :
    Laid m (fun remarks => before ++ write remarks ++ after) listed := by
  have whole := ((laid_fixed before).append h).append (laid_fixed after)
  rwa [List.nil_append, List.append_nil] at whole

theorem laid_join {α : Type} {write : Remarks → α → String} {listed : α → List Instruction}
    (xs : List α) (h : ∀ x ∈ xs, Laid m (write · x) (listed x)) :
    Laid m (fun remarks => String.join (xs.map (write remarks))) (xs.flatMap listed) := by
  induction xs with
  | nil => exact laid_fixed ""
  | cons x xs ih =>
      obtain ⟨head, tail⟩ := List.forall_mem_cons.mp h
      simpa using head.append (ih tail)

theorem laid_paragraph {α : Type} {write : Remarks → α → String} {listed : α → List Instruction}
    (xs : List α) (h : ∀ x ∈ xs, Laid m (write · x) (listed x)) :
    Laid m (fun remarks => Module.paragraph (xs.map (write remarks))) (xs.flatMap listed) := by
  cases xs with
  | nil => exact laid_fixed ""
  | cons x xs => exact (laid_fixed "\n").append (laid_join (x :: xs) h)

/-- Remarks that only stand behind instructions put nothing in front of a function. -/
theorem Laid.unannounced {write : Remarks → String} {listed : List Instruction} (f : Function)
    (h : Laid m write listed) :
    Laid m (fun remarks => remarks.beforeFunction m f ++ write remarks) listed := by
  obtain ⟨pieces, counted, written⟩ := h
  refine ⟨pieces, counted, ?_⟩
  intro remark
  exact String.empty_append.trans (written remark)

end Laid

/-! ## From an instruction to a module -/

namespace Module

variable (m : Module)

/-- Whether the instructions of a function are listed: it has a body, and the type it
states is that of a function. -/
def showsBody (f : Function) : Bool :=
  !f.isDeclaration &&
    match m.types.shape? f.type with
    | some (.function ..) => true
    | _ => false

/-- The instructions of a listing, in order. -/
def listedInstructions : List Instruction :=
  (m.functions.filter m.showsBody).flatMap (·.instructions)

theorem laid_instructionLine (i : Instruction) : Laid m (m.instructionLine · i) [i] := by
  refine ⟨[.line i], rfl, ?_⟩
  intro remark
  simp [Piece.joined, Piece.text, instructionLine]

theorem laid_blockText (b : Block) : Laid m (m.blockText · b) b.instructions := by
  have lines := laid_join b.instructions fun i _ => m.laid_instructionLine i
  rw [List.flatMap_singleton'] at lines
  exact (laid_fixed (b.label ++ ":\n")).append lines

theorem laid_blocksText (blocks : List Block) :
    Laid m (m.blocksText · blocks) (blocks.flatMap (·.instructions)) := by
  induction blocks with
  | nil => exact laid_fixed ""
  | cons b rest ih =>
      cases rest with
      | nil =>
          rw [List.flatMap_cons, List.flatMap_nil, List.append_nil]
          exact m.laid_blockText b
      | cons next rest =>
          have first := (m.laid_blockText b).append (laid_fixed "\n")
          rw [List.append_nil] at first
          exact first.append ih

theorem laid_functionText (f : Function) :
    Laid m (m.functionText · f) (if m.showsBody f then f.instructions else []) := by
  refine Laid.unannounced f ?_
  unfold showsBody
  cases m.types.shape? f.type with
  | none =>
      rw [Bool.and_false, if_neg Bool.false_ne_true]
      exact laid_fixed _
  | some s =>
      cases s with
      | function result parameters =>
          cases bodiless : f.isDeclaration with
          | true => exact laid_fixed _
          | false => exact (m.laid_blocksText f.blocks).between _ _
      | _ =>
          rw [Bool.and_false, if_neg Bool.false_ne_true]
          exact laid_fixed _

/-- Functions that show nothing can be left out. -/
theorem flatMap_bodies (fs : List Function) :
    fs.flatMap (fun f => if m.showsBody f then f.instructions else []) =
      (fs.filter m.showsBody).flatMap (·.instructions) := by
  induction fs with
  | nil => rfl
  | cons f fs ih =>
      rw [List.flatMap_cons, ih]
      cases shown : m.showsBody f with
      | true => rw [List.filter_cons_of_pos shown, List.flatMap_cons, if_pos rfl]
      | false =>
          rw [List.filter_cons_of_neg (by simp [shown]), if_neg Bool.false_ne_true, List.nil_append]

theorem laid_listing : Laid m m.listing m.listedInstructions := by
  have defined : Laid m (fun remarks => String.join ((m.functions.filter (!·.isDeclaration)).map
      fun f => "\n" ++ m.functionText remarks f)) m.listedInstructions := by
    have each := laid_join (m.functions.filter (!·.isDeclaration)) fun f _ =>
      (laid_fixed "\n").append (m.laid_functionText f)
    simp only [List.nil_append, m.flatMap_bodies, List.filter_filter] at each
    -- a function that shows its body is not only declared
    have shown : (fun f => m.showsBody f && !f.isDeclaration) = m.showsBody := by
      funext f
      cases bodiless : f.isDeclaration <;> simp [showsBody, bodiless]
    rwa [shown] at each
  have declared : Laid m (fun remarks => paragraph ((m.functions.filter (·.isDeclaration)).map
      (m.functionText remarks))) [] := by
    have each := laid_paragraph (m.functions.filter (·.isDeclaration)) fun f _ =>
      m.laid_functionText f
    rw [m.flatMap_bodies, List.filter_filter] at each
    have none : (m.functions.filter fun f => m.showsBody f && f.isDeclaration) = [] := by
      rw [List.filter_eq_nil_iff]
      intro f _
      cases bodiless : f.isDeclaration <;> simp [showsBody, bodiless]
    rwa [none] at each
  have whole := (((laid_fixed (m.headText ++
    paragraph (m.types.namedStructs.map fun id => m.structText id ++ "\n") ++
    paragraph (m.globals.map fun g => m.globalText g ++ "\n"))).append defined).append
      declared).append (laid_fixed m.metadataText)
  rw [List.nil_append, List.append_nil, List.append_nil] at whole
  exact whole

end Module

/-! ## Remarks on operations -/

/-- The instruction calls a function of the module whose name begins like that of an
intrinsic, and its first argument is a constant. -/
def CallsOperation (m : Module) (i : Instruction) (code : UInt64) : Prop :=
  ∃ callee type others f, i.action = .call callee (.integer type code :: others) ∧
    m.functions[callee]? = some f ∧ "dx.op.".toList <+: f.name.toList

/-- What is remarked on an instruction. -/
inductive RemarkOn (m : Module) (i : Instruction) : String → Prop
  | named {code : UInt64} {op : Operation} : CallsOperation m i code → code.toNat < 149 →
      Operation.all[code.toNat]? = some op → RemarkOn m i ("  ; " ++ op.name ++ op.signature)
  | invalid {code : UInt64} : CallsOperation m i code → 149 ≤ code.toNat →
      RemarkOn m i ("  ; invalid DXIL opcode #" ++ code.toNat.repr)
  | nothing : (∀ code, ¬ CallsOperation m i code) → RemarkOn m i ""

namespace Operation

variable {m : Module} {i : Instruction}

theorem length_all : all.length = 149 := by decide +kernel

theorem isIntrinsic_iff {callee : FunctionId} :
    (m.function? callee).any (fun f => Text.beginsWith intrinsicStart f.name) = true ↔
      ∃ f, m.functions[callee]? = some f ∧ "dx.op.".toList <+: f.name.toList := by
  rw [Module.function?]
  cases m.functions[callee]? with
  | none => simp
  | some f => simp [Text.beginsWith, intrinsicStart, List.isPrefixOf_iff_prefix]

theorem codeOf?_eq_some_iff {code : UInt64} :
    codeOf? m i = some code ↔ CallsOperation m i code := by
  constructor
  · intro h
    unfold codeOf? at h
    split at h
    next callee arguments action =>
      split at h
      next intrinsic =>
        obtain ⟨f, found, begins⟩ := isIntrinsic_iff.mp intrinsic
        obtain ⟨first, there, constant⟩ := Option.bind_eq_some_iff.mp h
        obtain ⟨others, rfl⟩ := List.head?_eq_some_iff.mp there
        cases first with
        | integer type word =>
            cases constant
            exact ⟨callee, type, others, f, action, found, begins⟩
        | _ => cases constant
      next => cases h
    next => cases h
  · rintro ⟨callee, type, others, f, action, found, begins⟩
    rw [codeOf?, action]
    simp only [isIntrinsic_iff.mpr ⟨f, found, begins⟩, if_true]
    rfl

theorem codeOf?_eq_none_iff : codeOf? m i = none ↔ ∀ code, ¬ CallsOperation m i code := by
  rw [Option.eq_none_iff_forall_ne_some]
  simp only [ne_eq, codeOf?_eq_some_iff]

/-- The rules give one remark to every instruction, and it is the one that is written. -/
theorem remarkOn_iff {text : String} : RemarkOn m i text ↔ remark m i = text := by
  constructor
  · intro h
    cases h with
    | named calls _ known => simp only [remark, codeOf?_eq_some_iff.mpr calls, ofCode?, known]
    | @invalid code calls large =>
        have unknown : all[code.toNat]? = none := List.getElem?_eq_none (length_all ▸ large)
        simp only [remark, codeOf?_eq_some_iff.mpr calls, ofCode?, unknown]
    | nothing other => simp only [remark, codeOf?_eq_none_iff.mpr other]
  · rintro rfl
    unfold remark
    cases called : codeOf? m i with
    | none => exact .nothing (codeOf?_eq_none_iff.mp called)
    | some code =>
        have calls := codeOf?_eq_some_iff.mp called
        cases known : all[code.toNat]? with
        | none =>
            have large := List.getElem?_eq_none_iff.mp known
            simp only [ofCode?, known]
            exact .invalid calls (length_all ▸ large)
        | some op =>
            obtain ⟨small, -⟩ := List.getElem?_eq_some_iff.mp known
            simp only [ofCode?, known]
            exact .named calls (length_all ▸ small) known

end Operation

/-- The listing with remarks on operations is the plain listing with one insertion for each
listed instruction, in front of the line break behind it.  Cutting the insertions out
gives the plain listing back. -/
theorem remarks_end_lines (m : Module) :
    ∃ pieces : List Piece,
      pieces.filterMap Piece.instruction? = m.listedInstructions ∧
      m.text = Piece.joined m (fun _ => "") pieces ∧
      m.listing Operation.remarks = Piece.joined m (Operation.remark m) pieces ∧
      Text.cut (pieces.flatMap (Piece.spans m (Operation.remark m)))
        (m.listing Operation.remarks).toList = m.text.toList ∧
      ∀ i text, RemarkOn m i text ↔ Operation.remark m i = text := by
  obtain ⟨pieces, counted, written⟩ := m.laid_listing
  have plain : m.text = Piece.joined m (fun _ => "") pieces := written fun _ _ => ""
  have remarked := written Operation.remark
  refine ⟨pieces, counted, plain, remarked, ?_, fun _ _ => Operation.remarkOn_iff⟩
  rw [plain]
  exact (congrArg _ (congrArg _ remarked)).trans (Piece.cut_joined m _ pieces)

/-- A body with an operation, a number that no operation has, an intrinsic without a number
and a plain instruction; and a second body under a type that is no function's. -/
def remarkedModule : Module where
  types := { shapes := [.void, .function 0 [], .integer 32] }
  functions :=
    [{ name := "main", type := 1,
       blocks := [{ label := "entry",
                    instructions := [⟨none, .call 1 [.integer 2 5]⟩, ⟨none, .call 1 [.integer 2 149]⟩,
                      ⟨none, .call 1 [.temporary 2 "op"]⟩, ⟨none, .ret none⟩] }] },
     { name := "dx.op.storeOutput.f32", type := 1 },
     { name := "odd", type := 2,
       blocks := [{ label := "entry", instructions := [⟨none, .call 1 [.integer 2 5]⟩] }] }]

example : remarkedModule.listedInstructions.map (Operation.remark remarkedModule) =
    ["  ; StoreOutput(outputtSigId,rowIndex,colIndex,value)", "  ; invalid DXIL opcode #149",
     "", ""] := by decide +kernel

end ShaderReport
