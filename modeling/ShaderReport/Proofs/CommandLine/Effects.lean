/-
# What a run leaves behind

A disassembly is asked for by arguments and made in a session.  `Outcome` says in which
ways it can end: the input cannot be read, or is not disassembled; the text is printed
and no file is asked for; or one is, and cannot be written, or holds the text.  Every run
ends in one of these ways (`execute_outcome`), and nothing is printed or written before
the text is there.

Besides what cannot be read or written there is what may not.  `Refusals` stand for
permissions and the like; the runs of a `Session` are those in which nothing is refused.
-/
import ShaderReport.CommandLine.Run
import ShaderReport.Proofs.CommandLine.Files
import ShaderReport.Proofs.Disassembly.Forms

namespace ShaderReport.CommandLine

/-! ## Files that may not be read or written -/

/-- The bytes of a text. -/
def encoded (text : String) : Bytes := text.toUTF8.data.toList

/-- The names under which files are refused, and what the system says of it. -/
structure Refusals where
  reading : FileSystem → String → Option FileError := fun _ _ => none
  writing : FileSystem → String → Option FileError := fun _ _ => none

namespace Refusals

/-- The content of a file, if it may be read. -/
def read (r : Refusals) (fs : FileSystem) (name : String) : Except FileError Bytes :=
  match r.reading fs name with
  | some e => .error e
  | none => fs.read name

/-- The path of a file that can be created or replaced, if it may be. -/
def place (r : Refusals) (fs : FileSystem) (name : String) : Except FileError Path :=
  match r.writing fs name with
  | some e => .error e
  | none => fs.resolveFile name

theorem resolveFile_of_place {r : Refusals} {fs : FileSystem} {name : String} {p : Path}
    (h : r.place fs name = .ok p) : fs.resolveFile name = .ok p := by
  unfold place at h
  split at h
  · cases h
  · exact h

/-- The surroundings of a session in which files are refused. -/
def console (r : Refusals) : Console (StateM Session) where
  read name := return r.read (← get).files name
  write name text := do
    match r.writing (← get).files name with
    | some e => return .error e
    | none => Session.console.write name text
  out := Session.console.out
  err := Session.console.err

theorem console_none : console {} = Session.console := rfl

section Run

variable (r : Refusals) (s : Session) (name text : String)

theorem run_read : (r.console.read name).run s = pure (r.read s.files name, s) := rfl

theorem run_out : (r.console.out text).run s = pure ((), { s with out := s.out ++ text }) := rfl

theorem run_write_error {e : FileError} (h : r.place s.files name = .error e) :
    (r.console.write name text).run s = pure (.error e, s) := by
  unfold place at h
  unfold console Session.console FileSystem.write
  cases refused : r.writing s.files name with
  | some e' =>
      simp only [refused] at h
      cases h
      simp [refused]
  | none =>
      simp only [refused] at h
      simp [refused, h, Except.map]

theorem run_write_ok {p : Path} (h : r.place s.files name = .ok p) :
    (r.console.write name text).run s =
      pure (.ok (), { s with files := s.files.replace p (encoded text) }) := by
  unfold place at h
  unfold console Session.console FileSystem.write
  cases refused : r.writing s.files name with
  | some e' =>
      simp only [refused] at h
      cases h
  | none =>
      simp only [refused] at h
      simp [refused, h, Except.map, FileSystem.replace, encoded]

end Run

end Refusals

/-- The exit code of a disassembly, and the session behind it. -/
def Session.execute (s : Session) (refused : Refusals) (a : Arguments) : UInt32 × Session :=
  Id.run (StateT.run (CommandLine.execute refused.console a) s)

/-- A command line that asks for a disassembly makes it. -/
theorem run_of_ofWords {words : List String} {a : Arguments}
    (h : Request.ofWords words = .ok (.run a)) (s : Session) : s.run words = s.execute {} a := by
  rw [Session.run, CommandLine.run, h, Session.execute, Refusals.console_none]

/-! ## Outcomes -/

section Outcome

variable (refused : Refusals) (s : Session) (a : Arguments)

/-- The input cannot be read, or what was read is not disassembled. -/
def Fails : Prop :=
  (∃ e, refused.read s.files a.input = .error e) ∨
    ∃ input e, refused.read s.files a.input = .ok input ∧
      disassemble a.options Loader.undecoded input = .error e

/-- The input is read and disassembled into a text. -/
def Makes (text : String) : Prop :=
  ∃ input, refused.read s.files a.input = .ok input ∧
    disassemble a.options Loader.undecoded input = .ok text

/-- How a disassembly can end: an exit code and the session that is left behind. -/
inductive Outcome : UInt32 → Session → Prop
  | failed {err : String} : Fails refused s a → Outcome 1 { s with err }
  | printed {text : String} : Makes refused s a text → a.output = none →
      Outcome 0 { s with out := s.out ++ text }
  | unwritten {text output err : String} {e : FileError} : Makes refused s a text →
      a.output = some output → refused.place s.files output = .error e →
      Outcome 1 { s with out := s.out ++ text, err }
  | written {text output : String} {p : Path} : Makes refused s a text →
      a.output = some output → refused.place s.files output = .ok p →
      Outcome 0 { s with out := s.out ++ text, files := s.files.replace p (encoded text) }

variable {refused s a}

theorem Makes.unique {text text' : String} (h : Makes refused s a text)
    (h' : Makes refused s a text') : text = text' := by
  obtain ⟨input, read, made⟩ := h
  obtain ⟨input', read', made'⟩ := h'
  rw [read] at read'
  cases read'
  rw [made] at made'
  cases made'
  rfl

theorem Makes.not_fails {text : String} (h : Makes refused s a text) : ¬ Fails refused s a := by
  obtain ⟨input, read, made⟩ := h
  rintro (⟨e, unread⟩ | ⟨input', e, read', broken⟩)
  · rw [read] at unread
    cases unread
  · rw [read] at read'
    cases read'
    rw [made] at broken
    cases broken

variable (refused s a)

theorem execute_outcome :
    Outcome refused s a (s.execute refused a).1 (s.execute refused a).2 := by
  unfold Session.execute CommandLine.execute
  rw [StateT.run_bind, Refusals.run_read, pure_bind]
  cases read : refused.read s.files a.input with
  | error e => exact .failed (Or.inl ⟨e, read⟩)
  | ok input =>
      cases made : disassemble a.options Loader.undecoded input with
      | error e =>
          simp only [made]
          exact .failed (Or.inr ⟨input, e, read, made⟩)
      | ok text =>
          have makes : Makes refused s a text := ⟨input, read, made⟩
          simp only [made]
          rw [StateT.run_bind, Refusals.run_out, pure_bind]
          cases output : a.output with
          | none => exact .printed makes output
          | some name =>
              -- printing leaves the files alone, so the place is found in them as they were
              let printed : Session := { s with out := s.out ++ text }
              dsimp only
              rw [StateT.run_bind]
              cases place : refused.place s.files name with
              | error e =>
                  rw [refused.run_write_error printed name text place, pure_bind]
                  exact .unwritten makes output place
              | ok p =>
                  rw [refused.run_write_ok printed name text place, pure_bind]
                  exact .written makes output place

theorem fails_or_makes : Fails refused s a ∨ ∃ text, Makes refused s a text := by
  cases read : refused.read s.files a.input with
  | error e => exact Or.inl (Or.inl ⟨e, read⟩)
  | ok input =>
      cases made : disassemble a.options Loader.undecoded input with
      | error e => exact Or.inl (Or.inr ⟨input, e, read, made⟩)
      | ok text => exact Or.inr ⟨text, input, read, made⟩

end Outcome

/-! ## What an outcome says -/

namespace Outcome

variable {refused : Refusals} {s s' : Session} {a : Arguments} {code : UInt32}
  (h : Outcome refused s a code s')
include h

theorem of_fails (fails : Fails refused s a) :
    code = 1 ∧ s'.out = s.out ∧ s'.files = s.files := by
  cases h with
  | failed _ => exact ⟨rfl, rfl, rfl⟩
  | printed makes _ => exact absurd fails makes.not_fails
  | unwritten makes _ _ => exact absurd fails makes.not_fails
  | written makes _ _ => exact absurd fails makes.not_fails

theorem out_of_makes {text : String} (makes : Makes refused s a text) :
    s'.out = s.out ++ text := by
  cases h with
  | failed fails => exact absurd fails makes.not_fails
  | printed made _ => rw [makes.unique made]
  | unwritten made _ _ => rw [makes.unique made]
  | written made _ _ => rw [makes.unique made]

theorem of_no_output {text : String} (makes : Makes refused s a text) (none : a.output = none) :
    code = 0 ∧ s'.files = s.files := by
  cases h with
  | failed fails => exact absurd fails makes.not_fails
  | printed _ _ => exact ⟨rfl, rfl⟩
  | unwritten _ output _ =>
      rw [none] at output
      cases output
  | written _ output _ =>
      rw [none] at output
      cases output

section Output

variable {text name : String} (makes : Makes refused s a text) (output : a.output = some name)
include makes output

/-- Whether the file can be written decides how it ends. -/
theorem of_output :
    (∃ e, refused.place s.files name = .error e ∧ code = 1 ∧ s'.files = s.files) ∨
      ∃ p, refused.place s.files name = .ok p ∧ code = 0 ∧
        s'.files = s.files.replace p (encoded text) := by
  cases h with
  | failed fails => exact absurd fails makes.not_fails
  | printed _ none =>
      rw [output] at none
      cases none
  | @unwritten _ _ _ e _ output' place =>
      rw [output] at output'
      cases output'
      exact Or.inl ⟨e, place, rfl, rfl⟩
  | @written _ _ p made output' place =>
      rw [output] at output'
      cases output'
      rw [makes.unique made]
      exact Or.inr ⟨p, place, rfl, rfl⟩

theorem of_unwritable {e : FileError} (place : refused.place s.files name = .error e) :
    code = 1 ∧ s'.files = s.files := by
  rcases h.of_output makes output with ⟨_, _, ends⟩ | ⟨p, place', _⟩
  · exact ends
  · rw [place] at place'
    cases place'

theorem of_writable {p : Path} (place : refused.place s.files name = .ok p) :
    code = 0 ∧ s'.files = s.files.replace p (encoded text) := by
  rcases h.of_output makes output with ⟨e, place', _⟩ | ⟨p', place', ends⟩
  · rw [place] at place'
    cases place'
  · rw [place] at place'
    cases place'
    exact ends

end Output

end Outcome

/-- Effects are all or nothing.  A disassembly that fails prints nothing and leaves all
files as they are.  One that makes a text prints it, whatever happens then.  If it goes to
a file as well, that file holds it afterwards under every name, also if the input is the
same file, and no other has changed; if the file cannot be written, none has. -/
theorem effects_all_or_nothing (refused : Refusals) (s : Session) (a : Arguments) :
    (∀ words, Request.ofWords words = .ok (.run a) → s.run words = s.execute {} a) ∧
    ∃ code s', s.execute refused a = (code, s') ∧
      (Fails refused s a ∨ ∃ text, Makes refused s a text) ∧
      (Fails refused s a → code = 1 ∧ s'.out = s.out ∧ s'.files = s.files) ∧
      ∀ text, Makes refused s a text →
        s'.out = s.out ++ text ∧
        (a.output = none → code = 0 ∧ s'.files = s.files) ∧
        ∀ output, a.output = some output →
          (∀ e, refused.place s.files output = .error e → code = 1 ∧ s'.files = s.files) ∧
          ∀ p, refused.place s.files output = .ok p →
            code = 0 ∧ s'.files.read output = .ok (encoded text) ∧
            (s.files.resolve a.input = .ok p → s'.files.read a.input = .ok (encoded text)) ∧
            FileSystem.Replaced s.files s'.files p (encoded text) ∧
            ∀ name q, s.files.resolve name = .ok q → q ≠ p →
              s'.files.read name = s.files.read name := by
  have outcome := execute_outcome refused s a
  refine ⟨fun words asked => run_of_ofWords asked s, ?_⟩
  refine ⟨_, _, rfl, fails_or_makes refused s a, outcome.of_fails, ?_⟩
  intro text makes
  refine ⟨outcome.out_of_makes makes, outcome.of_no_output makes, ?_⟩
  intro output asked
  refine ⟨fun e place => outcome.of_unwritable makes asked place, ?_⟩
  intro p place
  obtain ⟨code, files⟩ := outcome.of_writable makes asked place
  have writable := Refusals.resolveFile_of_place place
  have replaced := FileSystem.replaced_of_resolveFile writable (encoded text)
  rw [← files] at replaced
  refine ⟨code, replaced.read (FileSystem.resolve_of_resolveFile writable).1, ?_, replaced, ?_⟩
  · intro same
    exact replaced.read same
  · intro name q leads other
    exact replaced.read_other leads other

/-- A session with a single file, which begins as bitcode does. -/
def bitcodeSession : Session where
  files := { files := [(["a"], Bitcode.magic)] }

theorem namesOf_plain : FileSystem.namesOf "a" = .ok ["a"] := by
  have split : "a".splitOn "/" = ["a"] := by
    rw [String.splitOn, if_neg (by decide), String.splitOnAux, if_neg (by decide +kernel),
      if_neg (by decide +kernel), String.splitOnAux, if_pos (by decide +kernel)]
    decide +kernel
  rw [FileSystem.namesOf, if_neg (by decide +kernel), if_neg (by decide +kernel), split]

theorem namesOf_dotted : FileSystem.namesOf "./a" = .ok [".", "a"] := by
  have split : "./a".splitOn "/" = [".", "a"] := by
    rw [String.splitOn, if_neg (by decide), String.splitOnAux, if_neg (by decide +kernel),
      if_neg (by decide +kernel), String.splitOnAux, if_neg (by decide +kernel),
      if_pos (by decide +kernel)]
    dsimp only
    rw [if_pos (by decide +kernel), String.splitOnAux, if_neg (by decide +kernel),
      if_neg (by decide +kernel), String.splitOnAux, if_pos (by decide +kernel)]
    decide +kernel
  rw [FileSystem.namesOf, if_neg (by decide +kernel), if_neg (by decide +kernel), split]

/-- The text takes the place of the bitcode it was made from. -/
theorem effects_all_or_nothing_overwriting :
    ∃ text, disassemble {} Loader.undecoded Bitcode.magic = .ok text ∧
      (bitcodeSession.run ["a", "./a"]).1 = 0 ∧
      (bitcodeSession.run ["a", "./a"]).2.out = text ∧
      (bitcodeSession.run ["a", "./a"]).2.files.read "a" = .ok (encoded text) := by
  obtain ⟨text, made⟩ := @exists_disassemble_bitcode {} Bitcode.magic ⟨Bitcode.magic, false⟩ rfl
  have leads : bitcodeSession.files.resolve "a" = .ok ["a"] := by
    rw [FileSystem.resolve, namesOf_plain]
    rfl
  have place : bitcodeSession.files.resolveFile "./a" = .ok ["a"] := by
    rw [FileSystem.resolveFile, namesOf_dotted]
    rfl
  have read : bitcodeSession.files.read "a" = .ok Bitcode.magic := by
    rw [FileSystem.read, leads]
    rfl
  obtain ⟨run, code, s', executed, -, -, outcome⟩ :=
    effects_all_or_nothing {} bitcodeSession { input := "a", output := some "./a" }
  obtain ⟨out, -, written⟩ := outcome text ⟨Bitcode.magic, read, made⟩
  obtain ⟨success, -, held, -⟩ := (written "./a" rfl).2 ["a"] place
  rw [run ["a", "./a"] rfl, executed]
  exact ⟨text, made, success, out.trans String.empty_append, held leads⟩

end ShaderReport.CommandLine
