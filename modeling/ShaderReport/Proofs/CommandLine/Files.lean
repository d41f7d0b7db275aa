/-
# Replacing a file

What stands where after a file has been written, in a file system that is a list of files
and takes for a directory whatever leads to one of them.

 * At the path that was written there is a file with the new content.
 * At every other path there is what was there before.  No directory comes into being on
   the way: a file is written only into a directory that is there, and what leads to that
   directory is there as well (`leadsOn_of_resolve`).
 * A text that stood for a path still stands for it.  So all names of the file lead to the
   new content, whichever of them was used.
-/
import Mathlib.Tactic.SplitIfs
import ShaderReport.CommandLine.FileSystem

namespace ShaderReport.CommandLine.FileSystem

/-! ## Lists of files -/

section Put

variable (p : Path) (content : Bytes) (files : List (Path × Bytes))

theorem lookup_put_self : (put p content files).lookup p = some content := by
  induction files with
  | nil => simp [put]
  | cons f rest ih =>
      rw [put]
      by_cases same : f.1 = p
      · rw [if_pos same]
        simp
      · have other : (p == f.1) = false := beq_eq_false_iff_ne.mpr (Ne.symm same)
        rw [if_neg same, List.lookup_cons, other]
        exact ih

theorem lookup_put_of_ne {q : Path} (h : q ≠ p) :
    (put p content files).lookup q = files.lookup q := by
  have other : (q == p) = false := beq_eq_false_iff_ne.mpr h
  induction files with
  | nil => rw [put, List.lookup_cons, other]
  | cons f rest ih =>
      rw [put]
      by_cases same : f.1 = p
      · rw [if_pos same, List.lookup_cons, List.lookup_cons, same, other]
      · rw [if_neg same, List.lookup_cons, List.lookup_cons, ih]

theorem mem_paths_put {q : Path} :
    q ∈ (put p content files).map (·.1) ↔ q = p ∨ q ∈ files.map (·.1) := by
  induction files with
  | nil => simp [put]
  | cons f rest ih =>
      rw [put]
      by_cases same : f.1 = p
      · rw [if_pos same]
        simp [same]
      · rw [if_neg same, List.map_cons, List.mem_cons, ih, List.map_cons, List.mem_cons]
        exact or_left_comm

end Put

/-! ## Directories -/

section Directories

variable {fs : FileSystem} {p q : Path}

/-- A file or a directory that is listed stands at the path or behind it. -/
def LeadsOn (fs : FileSystem) (q : Path) : Prop :=
  ∃ l ∈ fs.workingDirectory :: fs.directories ++ fs.files.map (·.1), q <+: l

theorem leadsOn_iff : fs.LeadsOn q ↔
    (fs.workingDirectory :: fs.directories ++ fs.files.map (·.1)).any q.isPrefixOf = true := by
  simp only [LeadsOn, List.any_eq_true, List.isPrefixOf_iff_prefix]

theorem LeadsOn.shorter (h : fs.LeadsOn p) (front : q <+: p) : fs.LeadsOn q := by
  obtain ⟨l, listed, behind⟩ := h
  exact ⟨l, listed, front.trans behind⟩

theorem LeadsOn.dropLast (h : fs.LeadsOn p) : fs.LeadsOn p.dropLast :=
  h.shorter <| List.dropLast_prefix p

theorem leadsOn_startOf (fs : FileSystem) (name : String) : fs.LeadsOn (fs.startOf name) := by
  have working : fs.LeadsOn fs.workingDirectory := ⟨_, List.mem_cons_self, List.prefix_refl _⟩
  unfold startOf
  split
  next => exact working.shorter List.nil_prefix
  next => exact working

theorem leadsOn_of_directory (h : fs.entry? q = some .directory) : fs.LeadsOn q := by
  unfold entry? at h
  split at h
  next => cases h
  next =>
      split at h
      next found => exact leadsOn_iff.mpr found
      next => cases h

/-- Where a single name leads from a directory. -/
def enter (place : Path) (name : String) : Except FileError Path :=
  if name = "" ∨ name = "." then .ok place
  else if name = ".." then .ok place.dropLast
  else if maxNameLength < name.utf8ByteSize then .error .nameTooLong
  else .ok (place ++ [name])

theorem follow_cons_eq_ok_iff {place : Path} {name : String} {rest : List String} :
    fs.follow place (name :: rest) = .ok p ↔
      fs.entry? place = some .directory ∧
        ∃ next, enter place name = .ok next ∧ fs.follow next rest = .ok p := by
  rw [follow, enter]
  cases fs.entry? place with
  | none => simp
  | some e =>
      cases e with
      | file content => simp
      | directory => split_ifs <;> simp

theorem dropLast_prefix_of_enter {place next : Path} {name : String}
    (h : enter place name = .ok next) : next.dropLast <+: place := by
  unfold enter at h
  split_ifs at h with here up long
  · cases h
    exact List.dropLast_prefix place
  · cases h
    exact List.IsPrefix.trans ( List.dropLast_prefix _) ( List.dropLast_prefix place)
  · cases h
    simp

/-- Every name but the last has been found in a directory. -/
theorem leadsOn_of_follow {place : Path} {names : List String}
    (start : fs.LeadsOn place.dropLast) (h : fs.follow place names = .ok p) :
    fs.LeadsOn p.dropLast := by
  induction names generalizing place with
  | nil =>
      cases h
      exact start
  | cons name rest ih =>
      obtain ⟨directory, next, entered, behind⟩ := follow_cons_eq_ok_iff.mp h
      have here := leadsOn_of_directory directory
      exact ih (here.shorter (dropLast_prefix_of_enter entered)) behind

theorem leadsOn_of_resolve {name : String} (h : fs.resolve name = .ok p) :
    fs.LeadsOn p.dropLast := by
  unfold resolve at h
  split at h
  next => cases h
  next names _ => exact leadsOn_of_follow (fs.leadsOn_startOf name).dropLast h

/-- The names of a path lead to the same place if no directory has gone. -/
theorem follow_of_directories {fs' : FileSystem}
    (stay : ∀ q, fs.entry? q = some .directory → fs'.entry? q = some .directory)
    {place : Path} {names : List String} (h : fs.follow place names = .ok p) :
    fs'.follow place names = .ok p := by
  induction names generalizing place with
  | nil => exact h
  | cons name rest ih =>
      obtain ⟨directory, next, entered, behind⟩ := follow_cons_eq_ok_iff.mp h
      exact follow_cons_eq_ok_iff.mpr ⟨stay place directory, next, entered, ih behind⟩

end Directories

/-! ## Writing -/

/-- The file system with one file replaced or added. -/
def replace (fs : FileSystem) (p : Path) (content : Bytes) : FileSystem :=
  { fs with files := put p content fs.files }

/-- One file is another or new, and nothing else has changed. -/
structure Replaced (fs fs' : FileSystem) (p : Path) (content : Bytes) : Prop where
  held : fs'.entry? p = some (.file content)
  others : ∀ q, q ≠ p → fs'.entry? q = fs.entry? q
  names : ∀ name q, fs.resolve name = .ok q → fs'.resolve name = .ok q

section Replace

variable {fs : FileSystem} {p q : Path} {content : Bytes}

theorem entry?_replace_self :
    FileSystem.entry? (fs.replace p content) p = some (.file content) := by
  unfold entry? replace
  rw [lookup_put_self]

theorem leadsOn_replace_iff : (fs.replace p content).LeadsOn q ↔ q <+: p ∨ fs.LeadsOn q := by
  simp only [LeadsOn, replace, List.mem_append, mem_paths_put]
  constructor
  · rintro ⟨l, listed | rfl | listed, front⟩
    · exact Or.inr ⟨l, Or.inl listed, front⟩
    · exact Or.inl front
    · exact Or.inr ⟨l, Or.inr listed, front⟩
  · rintro (front | ⟨l, listed | listed, front⟩)
    · exact ⟨p, Or.inr (Or.inl rfl), front⟩
    · exact ⟨l, Or.inl listed, front⟩
    · exact ⟨l, Or.inr (Or.inr listed), front⟩

/-- What leads to the new file and is not the file itself led to its directory. -/
theorem leadsOn_replace_of_ne (ground : fs.LeadsOn p.dropLast) (h : q ≠ p) :
    (fs.replace p content).LeadsOn q ↔ fs.LeadsOn q := by
  rw [leadsOn_replace_iff]
  constructor
  · rintro (⟨behind, rfl⟩ | known)
    · have proper : behind ≠ [] := by
        rintro rfl
        exact h (List.append_nil q).symm
      rw [List.dropLast_append_of_ne_nil proper] at ground
      exact ground.shorter (List.prefix_append _ _)
    · exact known
  · exact Or.inr

theorem entry?_replace_of_ne (ground : fs.LeadsOn p.dropLast) (h : q ≠ p) :
    FileSystem.entry? (fs.replace p content) q = fs.entry? q := by
  have held : (fs.replace p content).files.lookup q = fs.files.lookup q :=
    lookup_put_of_ne p content fs.files h
  have leads := @leadsOn_replace_of_ne fs p q content ground h
  rw [leadsOn_iff, leadsOn_iff, ← Bool.eq_iff_iff] at leads
  unfold entry?
  rw [held, leads]

theorem resolve_of_resolveFile {name : String} (h : fs.resolveFile name = .ok p) :
    fs.resolve name = .ok p ∧ fs.entry? p ≠ some .directory := by
  unfold resolveFile at h
  unfold resolve
  cases spelled : namesOf name with
  | error e =>
      rw [spelled] at h
      cases h
  | ok names =>
      simp only [spelled] at h ⊢
      cases slash : beforeSlash? names with
      | some front =>
          -- a path that ends in a slash is no file's
          simp only [slash] at h
          split at h
          · cases h
          · cases h
      | none =>
          simp only [slash] at h
          cases led : fs.follow (fs.startOf name) names with
          | error e =>
              rw [led] at h
              cases h
          | ok place =>
              simp only [led] at h
              split_ifs at h with directory
              cases h
              exact ⟨rfl, directory⟩

/-- No directory is replaced, so none goes. -/
theorem replaced_of_resolveFile {name : String} (h : fs.resolveFile name = .ok p)
    (content : Bytes) : Replaced fs (fs.replace p content) p content := by
  obtain ⟨leads, plain⟩ := resolve_of_resolveFile h
  have ground := leadsOn_of_resolve leads
  have others : ∀ q, q ≠ p → FileSystem.entry? (fs.replace p content) q = fs.entry? q :=
    fun q other => entry?_replace_of_ne ground other
  refine ⟨entry?_replace_self, others, ?_⟩
  intro text q led
  have stay : ∀ q, fs.entry? q = some .directory →
      FileSystem.entry? (fs.replace p content) q = some .directory := by
    intro q directory
    rwa [others q]
    rintro rfl
    exact plain directory
  unfold resolve at led ⊢
  cases spelled : namesOf text with
  | error e =>
      rw [spelled] at led
      cases led
  | ok names =>
      rw [spelled] at led
      exact follow_of_directories stay led

variable {fs' : FileSystem} {name : String}

/-- Whatever name the file has is a name of the new content. -/
theorem Replaced.read (h : Replaced fs fs' p content) (leads : fs.resolve name = .ok p) :
    fs'.read name = .ok content := by
  rw [FileSystem.read, h.names name p leads]
  simp only [h.held]

theorem Replaced.read_other (h : Replaced fs fs' p content) (leads : fs.resolve name = .ok q)
    (other : q ≠ p) : fs'.read name = fs.read name := by
  rw [FileSystem.read, FileSystem.read, h.names name q leads, leads]
  simp only [h.others q other]

end Replace

end ShaderReport.CommandLine.FileSystem
