/-
# The forms of bitcode

Bitcode is raw, or it stands in a wrapper.  `Raw b` and `Wrapper b` say so of the bytes:
what they begin with, and for a wrapper where its header says the raw bitcode is.  That
range may begin inside the header and end with the last byte.

The first four bytes keep the two apart, and `unwrap_cases` decides everything else:
raw bitcode is answered as it is, a wrapper with the range in it, and nothing else is
accepted.  Since what stands in a wrapper has to be raw, a wrapper in a wrapper is
refused, and taking off a wrapper a second time changes nothing.

`unwrap` looks at a header with the total readers.  `unwrapStrictly` asks for every byte
it looks at, and a byte that is not there would be an error on the left; there is none
(`unwrapStrictly_eq`).
-/
import ShaderReport.Bitcode
import ShaderReport.Proofs.Bytes.Windows

namespace ShaderReport

/-- A string begins with the bytes of a word exactly if that word stands in front of it. -/
theorem Bytes.ofUInt32_prefix_iff {b : Bytes} {w : UInt32} :
    ofUInt32 w <+: b ↔ 4 ≤ b.length ∧ b.u32At 0 = w := by
  have front : b.u32At 0 = .ofNat (toNatLE (b.take 4)) := rfl
  rw [List.prefix_iff_eq_take, length_ofUInt32]
  constructor
  · intro same
    refine ⟨?_, ?_⟩
    · have width := congrArg List.length same
      rw [length_ofUInt32, List.length_take] at width
      omega
    · have small : w.toNat % capacity 4 = w.toNat := Nat.mod_eq_of_lt w.toNat_lt
      rw [front, ← same, ofUInt32, toNatLE_ofNatLE, small, UInt32.ofNat_toNat]
  · rintro ⟨long, rfl⟩
    have width : (b.take 4).length = 4 := List.length_take_of_le long
    have small : toNatLE (b.take 4) < 2 ^ 32 := by
      have := toNatLE_lt (b.take 4)
      rwa [width] at this
    have back := ofNatLE_toNatLE (b.take 4)
    rw [width] at back
    rw [front, ofUInt32, UInt32.toNat_ofNat_of_lt' small, back]

namespace Bitcode

/-! ## The format -/

/-- Bytes that begin as raw bitcode does. -/
def Raw (b : Bytes) : Prop := magic <+: b

/-- Bytes that begin as a wrapper does. -/
def OpensWrapper (b : Bytes) : Prop := Bytes.ofUInt32 wrapperMagic <+: b

/-- What the header of a wrapper says is wrapped. -/
def content (b : Bytes) : Bytes := b.window (b.u32At 8).toNat (b.u32At 12).toNat

/-- A wrapper with raw bitcode in it. -/
structure Wrapper (b : Bytes) : Prop where
  opens : OpensWrapper b
  length : 20 ≤ b.length
  range : (b.u32At 8).toNat + (b.u32At 12).toNat ≤ b.length
  raw : Raw (content b)

instance (b : Bytes) : Decidable (Raw b) := inferInstanceAs (Decidable (magic <+: b))

instance (b : Bytes) : Decidable (OpensWrapper b) := inferInstanceAs (Decidable (_ <+: b))

theorem Raw.not_opensWrapper {b : Bytes} (h : Raw b) : ¬ OpensWrapper b := by
  intro opens
  have same := List.prefix_of_prefix_length_le h opens (by decide)
  exact absurd same (by decide)

theorem Wrapper.not_raw {b : Bytes} (h : Wrapper b) : ¬ Raw b := fun raw =>
  raw.not_opensWrapper h.opens

theorem Raw.length {b : Bytes} (h : Raw b) : magic.length ≤ b.length := h.length_le

/-! ## Taking off a wrapper -/

theorem checkRaw_of_raw {b : Bytes} (h : Raw b) : checkRaw b = .ok b := by
  have front : b.take magic.length = magic := (List.prefix_iff_eq_take.mp h).symm
  rw [checkRaw, if_neg (Nat.not_lt.mpr h.length), if_pos front]

theorem checkRaw_of_not_raw {b : Bytes} (h : ¬ Raw b) : ∃ cause, checkRaw b = .error cause := by
  have front : b.take magic.length ≠ magic := by
    intro same
    exact h (List.prefix_iff_eq_take.mpr same.symm)
  rw [checkRaw, if_neg front]
  split
  · exact ⟨_, rfl⟩
  · exact ⟨_, rfl⟩

/-- What does not open a wrapper is checked as it is. -/
theorem unwrap_of_not_opensWrapper {b : Bytes} (some : ¬ b.isEmpty) (h : ¬ OpensWrapper b) :
    unwrap b = (checkRaw b).map (⟨·, false⟩) := by
  rw [unwrap, if_neg some]
  by_cases short : b.length < magic.length
  · rw [if_pos short, checkRaw, if_pos short]
    rfl
  · have other : b.u32At 0 ≠ wrapperMagic := fun opens =>
      h (Bytes.ofUInt32_prefix_iff.mpr ⟨Nat.not_lt.mp short, opens⟩)
    rw [if_neg short, if_neg other]

/-- Behind the first word of a wrapper, its header and its content decide. -/
theorem unwrap_of_opensWrapper {b : Bytes} (h : OpensWrapper b) :
    unwrap b =
      if b.length < wrapperLength then .error (.tooShort b.length)
      else if (b.u32At 8).toNat + (b.u32At 12).toNat ≤ b.length then
        (checkRaw (content b)).map (⟨·, true⟩)
      else .error (.wrapperRange (b.u32At 8) (b.u32At 12) b.length) := by
  obtain ⟨length, opens⟩ := Bytes.ofUInt32_prefix_iff.mp h
  have long : ¬ b.length < magic.length := Nat.not_lt.mpr length
  have some : ¬ b.isEmpty := by
    rw [List.isEmpty_iff]
    rintro rfl
    exact long (by decide)
  have small : (b.u32At 8).toNat + (b.u32At 12).toNat < addressLimit := by
    have := (b.u32At 8).toNat_lt
    have := (b.u32At 12).toNat_lt
    simp only [addressLimit]
    omega
  rw [unwrap, if_neg some, if_neg long, if_pos opens]
  by_cases short : b.length < wrapperLength
  · rw [if_pos short, if_pos short]
  rw [if_neg short, if_neg short]
  dsimp only
  by_cases inside : (b.u32At 8).toNat + (b.u32At 12).toNat ≤ b.length
  · rw [if_pos inside, Bytes.slice_eq_ok inside small]
    rfl
  · obtain ⟨cause, failed⟩ := Bytes.slice_eq_error (Nat.not_le.mp inside)
    rw [if_neg inside, failed]

theorem unwrap_of_raw {b : Bytes} (h : Raw b) : unwrap b = .ok ⟨b, false⟩ := by
  have some : ¬ b.isEmpty := by
    rw [List.isEmpty_iff]
    rintro rfl
    exact absurd h (by decide)
  rw [unwrap_of_not_opensWrapper some h.not_opensWrapper, checkRaw_of_raw h]
  rfl

theorem unwrap_of_wrapper {b : Bytes} (h : Wrapper b) : unwrap b = .ok ⟨content b, true⟩ := by
  have long : ¬ b.length < wrapperLength := Nat.not_lt.mpr h.length
  rw [unwrap_of_opensWrapper h.opens, if_neg long, if_pos h.range, checkRaw_of_raw h.raw]
  rfl

theorem unwrap_of_neither {b : Bytes} (raw : ¬ Raw b) (wrapper : ¬ Wrapper b) :
    ∃ cause, unwrap b = .error cause := by
  by_cases opens : OpensWrapper b
  · rw [unwrap_of_opensWrapper opens]
    by_cases short : b.length < wrapperLength
    · rw [if_pos short]
      exact ⟨_, rfl⟩
    rw [if_neg short]
    by_cases inside : (b.u32At 8).toNat + (b.u32At 12).toNat ≤ b.length
    · have other : ¬ Raw (content b) := fun found =>
        wrapper ⟨opens, Nat.not_lt.mp short, inside, found⟩
      obtain ⟨cause, refused⟩ := checkRaw_of_not_raw other
      rw [if_pos inside, refused]
      exact ⟨cause, rfl⟩
    · rw [if_neg inside]
      exact ⟨_, rfl⟩
  · by_cases none : b.isEmpty
    · rw [unwrap, if_pos none]
      exact ⟨_, rfl⟩
    · obtain ⟨cause, refused⟩ := checkRaw_of_not_raw raw
      rw [unwrap_of_not_opensWrapper none opens, refused]
      exact ⟨cause, rfl⟩

/-- All that can come of a byte string. -/
theorem unwrap_cases (b : Bytes) :
    Raw b ∧ unwrap b = .ok ⟨b, false⟩ ∨
    Wrapper b ∧ unwrap b = .ok ⟨content b, true⟩ ∨
    ¬ Raw b ∧ ¬ Wrapper b ∧ ∃ cause, unwrap b = .error cause := by
  by_cases raw : Raw b
  · exact Or.inl ⟨raw, unwrap_of_raw raw⟩
  by_cases wrapper : Wrapper b
  · exact Or.inr (Or.inl ⟨wrapper, unwrap_of_wrapper wrapper⟩)
  · exact Or.inr (Or.inr ⟨raw, wrapper, unwrap_of_neither raw wrapper⟩)

section Iff

variable {b body : Bytes}

theorem unwrap_eq_raw_iff : unwrap b = .ok ⟨body, false⟩ ↔ Raw b ∧ body = b := by
  rcases unwrap_cases b with ⟨raw, e⟩ | ⟨wrapper, e⟩ | ⟨raw, -, cause, e⟩
  · simp [e, raw, eq_comm]
  · simp [e, wrapper.not_raw]
  · simp [e, raw]

theorem unwrap_eq_wrapped_iff :
    unwrap b = .ok ⟨body, true⟩ ↔ Wrapper b ∧ body = content b := by
  rcases unwrap_cases b with ⟨raw, e⟩ | ⟨wrapper, e⟩ | ⟨-, wrapper, cause, e⟩
  · have other : ¬ Wrapper b := fun wrapper => wrapper.not_raw raw
    simp [e, other]
  · simp [e, wrapper, eq_comm]
  · simp [e, wrapper]

theorem unwrap_eq_error_iff : (∃ cause, unwrap b = .error cause) ↔ ¬ Raw b ∧ ¬ Wrapper b := by
  rcases unwrap_cases b with ⟨raw, e⟩ | ⟨wrapper, e⟩ | ⟨raw, wrapper, cause, e⟩
  · simp [e, raw]
  · simp [e, wrapper]
  · simp [e, raw, wrapper]

/-- What was answered is raw. -/
theorem raw_of_unwrap {u : Unwrapped} (h : unwrap b = .ok u) : Raw u.body := by
  obtain ⟨body, wrapped⟩ := u
  cases wrapped with
  | false =>
      obtain ⟨raw, rfl⟩ := unwrap_eq_raw_iff.mp h
      exact raw
  | true =>
      obtain ⟨wrapper, rfl⟩ := unwrap_eq_wrapped_iff.mp h
      exact wrapper.raw

end Iff

/-! ## Every access checked -/

def checkRawStrictly (b : Bytes) : Except LoadError Bytes :=
  match b.slice 0 magic.length with
  | .error _ => .error (.tooShort b.length)
  | .ok front => if front = magic then .ok b else .error (.badMagic front)

/-- The offset and the size in a header. -/
def readRange (header : Bytes) : Except ReadError (UInt32 × UInt32) := do
  let offset ← header.readU32 8
  let size ← header.readU32 12
  return (offset, size)

/-- Takes off a wrapper, if there is one. -/
def unwrapStrictly (b : Bytes) : Except (ReadError ⊕ LoadError) Unwrapped :=
  if b.isEmpty then .error (.inr .empty)
  else
    match b.slice 0 magic.length with
    | .error _ => .error (.inr (.tooShort b.length))
    | .ok front =>
      if front.u32At 0 = wrapperMagic then
        match b.slice 0 wrapperLength with
        | .error _ => .error (.inr (.tooShort b.length))
        | .ok header =>
          match readRange header with
          | .error cause => .error (.inl cause)
          | .ok (offset, size) =>
            match b.slice offset.toNat size.toNat with
            | .error _ => .error (.inr (.wrapperRange offset size b.length))
            | .ok body => ((checkRawStrictly body).map (⟨·, true⟩)).mapError .inr
      else ((checkRawStrictly b).map (⟨·, false⟩)).mapError .inr

/-- The front of a string, if the string is that long. -/
theorem slice_front (b : Bytes) {n : Nat} (small : n < addressLimit) :
    b.length < n ∧ (∃ cause, b.slice 0 n = .error cause) ∨
      n ≤ b.length ∧ b.slice 0 n = .ok (b.take n) := by
  rcases Nat.lt_or_ge b.length n with short | long
  · exact Or.inl ⟨short, Bytes.slice_eq_error (by omega)⟩
  · exact Or.inr ⟨long, Bytes.slice_eq_ok (by omega) (by omega)⟩

theorem checkRawStrictly_eq (b : Bytes) : checkRawStrictly b = checkRaw b := by
  rw [checkRawStrictly, checkRaw]
  rcases slice_front b (n := magic.length) (by decide) with ⟨short, cause, e⟩ | ⟨long, e⟩
  · rw [e, if_pos short]
  · rw [e, if_neg (Nat.not_lt.mpr long)]

theorem readRange_take {b : Bytes} (h : wrapperLength ≤ b.length) :
    readRange (b.take wrapperLength) = .ok (b.u32At 8, b.u32At 12) := by
  have width : (b.take wrapperLength).length = 20 := List.length_take_of_le h
  have offset : Bytes.readU32 (b.take wrapperLength) 8 = .ok (b.u32At 8) := by
    rw [Bytes.reads_u32.eq_ok (by omega) (by decide), Bytes.reads_u32.take (by decide)]
  have size : Bytes.readU32 (b.take wrapperLength) 12 = .ok (b.u32At 12) := by
    rw [Bytes.reads_u32.eq_ok (by omega) (by decide), Bytes.reads_u32.take (by decide)]
  rw [readRange, offset, size]
  rfl

theorem unwrapStrictly_eq (b : Bytes) : unwrapStrictly b = (unwrap b).mapError .inr := by
  rw [unwrapStrictly, unwrap]
  by_cases none : b.isEmpty
  · rw [if_pos none, if_pos none]
    rfl
  rw [if_neg none, if_neg none]
  rcases slice_front b (n := magic.length) (by decide) with ⟨short, cause, e⟩ | ⟨long, e⟩
  · rw [e, if_pos short]
    rfl
  rw [e, if_neg (Nat.not_lt.mpr long)]
  dsimp only
  rw [Bytes.reads_u32.take (by decide), checkRawStrictly_eq]
  by_cases opens : b.u32At 0 = wrapperMagic
  · rw [if_pos opens, if_pos opens]
    rcases slice_front b (n := wrapperLength) (by decide) with ⟨short, cause, e⟩ | ⟨long, e⟩
    · rw [e, if_pos short]
      rfl
    rw [e, if_neg (Nat.not_lt.mpr long)]
    dsimp only
    rw [readRange_take long]
    dsimp only
    cases b.slice (b.u32At 8).toNat (b.u32At 12).toNat with
    | error cause => rfl
    | ok body =>
        dsimp only
        rw [checkRawStrictly_eq]
  · rw [if_neg opens, if_neg opens]

/-! ## Loading -/

theorem exists_undecoded_iff {b : Bytes} {name : String} :
    (∃ m, Loader.undecoded b name = .ok m) ↔ ∃ u, unwrap b = .ok u := by
  rw [Loader.undecoded]
  cases unwrap b with
  | error cause => simp [Except.map]
  | ok u => simp [Except.map]

theorem unwrap_of_undecoded {b : Bytes} {name : String} {m : Module}
    (h : Loader.undecoded b name = .ok m) :
    ∃ u, unwrap b = .ok u ∧ m = { name, undecoded := some ⟨u.body.length, u.wrapped⟩ } := by
  rw [Loader.undecoded] at h
  cases unwrapped : unwrap b with
  | error cause =>
      rw [unwrapped] at h
      cases h
  | ok u =>
      rw [unwrapped] at h
      cases h
      exact ⟨u, rfl, rfl⟩

/-- Taking off a wrapper accepts raw bitcode, which it answers with, and wrappers, of which
it answers with the content; all else is an error, a wrapper in a wrapper too, and no byte
is looked at that is not there.  What was answered is answered again.  A module is made
from the same byte strings, and records what was answered. -/
theorem unwrap_accepts_bitcode (b : Bytes) :
    (∀ body, unwrap b = .ok ⟨body, false⟩ ↔ Raw b ∧ body = b) ∧
    (∀ body, unwrap b = .ok ⟨body, true⟩ ↔ Wrapper b ∧ body = content b) ∧
    ((∃ cause, unwrap b = .error cause) ↔ ¬ Raw b ∧ ¬ Wrapper b) ∧
    (OpensWrapper b → OpensWrapper (content b) → ∃ cause, unwrap b = .error cause) ∧
    unwrapStrictly b = (unwrap b).mapError .inr ∧
    (∀ u, unwrap b = .ok u → unwrap u.body = .ok ⟨u.body, false⟩) ∧
    ∀ name, ((∃ m, Loader.undecoded b name = .ok m) ↔ Raw b ∨ Wrapper b) ∧
      ∀ m, Loader.undecoded b name = .ok m → ∃ u, unwrap b = .ok u ∧ m.name = name ∧
        m.undecoded = some ⟨u.body.length, u.wrapped⟩ := by
  refine ⟨fun _ => unwrap_eq_raw_iff, fun _ => unwrap_eq_wrapped_iff, unwrap_eq_error_iff, ?_,
    unwrapStrictly_eq b, ?_, ?_⟩
  · intro opens nested
    refine unwrap_eq_error_iff.mpr ⟨fun raw => raw.not_opensWrapper opens, ?_⟩
    intro wrapper
    exact wrapper.raw.not_opensWrapper nested
  · intro u unwrapped
    exact unwrap_eq_raw_iff.mpr ⟨raw_of_unwrap unwrapped, rfl⟩
  · intro name
    refine ⟨?_, ?_⟩
    · rw [exists_undecoded_iff]
      rcases unwrap_cases b with ⟨raw, e⟩ | ⟨wrapper, e⟩ | ⟨raw, wrapper, cause, e⟩
      · simp [e, raw]
      · simp [e, wrapper]
      · simp [e, raw, wrapper]
    · intro m loaded
      obtain ⟨u, unwrapped, rfl⟩ := unwrap_of_undecoded loaded
      exact ⟨u, unwrapped, rfl, rfl⟩

/-- A wrapper that is only a header, the last word of which is the bitcode. -/
def bareHeader : Bytes :=
  [wrapperMagic.toNat, 0, 16, 4].flatMap (Bytes.ofNatLE 4) ++ magic

/-- That wrapper in a wrapper. -/
def wrappedTwice : Bytes :=
  [wrapperMagic.toNat, 0, 20, 20, 0].flatMap (Bytes.ofNatLE 4) ++ bareHeader

theorem unwrap_accepts_bitcode_bareHeader :
    unwrap bareHeader = .ok ⟨magic, true⟩ ∧ unwrap magic = .ok ⟨magic, false⟩ ∧
    (∃ m, Loader.undecoded bareHeader "m" = .ok m ∧ m.undecoded = some ⟨4, true⟩) ∧
    ∃ cause, unwrap wrappedTwice = .error cause := by
  have wrapper : Wrapper bareHeader := by
    constructor <;> decide +kernel
  have inside : content bareHeader = magic := by decide +kernel
  obtain ⟨-, wrapped, -, -, -, again, loading⟩ := unwrap_accepts_bitcode bareHeader
  obtain ⟨-, -, -, nested, -, -, -⟩ := unwrap_accepts_bitcode wrappedTwice
  have unwrapped : unwrap bareHeader = .ok ⟨magic, true⟩ :=
    (wrapped magic).mpr ⟨wrapper, inside.symm⟩
  refine ⟨unwrapped, again _ unwrapped, ?_, nested (by decide +kernel) (by decide +kernel)⟩
  obtain ⟨accepted, recorded⟩ := loading "m"
  obtain ⟨m, loaded⟩ := accepted.mpr (Or.inr wrapper)
  obtain ⟨u, found, -, undecoded⟩ := recorded m loaded
  rw [unwrapped] at found
  cases found
  exact ⟨m, loaded, undecoded⟩

end Bitcode

end ShaderReport
