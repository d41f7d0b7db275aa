/-
# Names that end at a zero byte

A name is stored as its UTF-8 bytes with a zero byte behind them, and is read up to the
first zero byte.  The two fit together because zero is the encoding of one character, the
NUL, and occurs in no other (`ne_zero_of_mem_utf8EncodeChar`).  So what is read is the
name up to its first NUL (`upToNul`), which is the whole name if it has none, and what is
cut off there is never half a character.

Nothing is asked of the bytes around a stored name: `readString_ofString` holds of a name
in the middle of any byte string.

The other way round, `readString_eq_ok_iff` says of any byte string which name is read at an
offset, and `HoldsName` where there is one: the offset is not past the end, a zero byte
follows, and what stands before the first zero is UTF-8.

The last section states the reader without a search for the zero.  A name without NUL is read
where the bytes from the offset on begin with its stored form, and nowhere else
(`nameAt_iff_begins`); the three ways to fail share out all other places.
-/
import ShaderReport.Bytes.Cursor
import ShaderReport.Bytes.Indexed

namespace ShaderReport.Bytes

/-! ## Characters in UTF-8 -/

/-- Every byte of an encoded character is marked as one of several, unless there is only
one. -/
theorem ne_zero_of_mem_utf8EncodeChar {c : Char} (h : c ≠ '\x00') :
    ∀ x ∈ String.utf8EncodeChar c, x ≠ 0 := by
  have marked : ∀ (x mark : UInt8), mark ≠ 0 → x ||| mark ≠ 0 := by
    intro x mark some zero
    exact some (UInt8.or_eq_zero_iff.mp zero).2
  have tail : ∀ x : UInt8, x ||| 0x80 ≠ 0 := fun x => marked x _ (by decide)
  rcases c.utf8Size_eq with one | two | three | four
  · have small : c.val.toNat ≤ 127 :=
      UInt32.le_iff_toNat_le.mp (Char.utf8Size_eq_one_iff.mp one)
    rw [String.utf8EncodeChar_eq_singleton one]
    intro x hx zero
    rw [List.mem_singleton.mp hx] at zero
    have low : c.val.toNat % 256 = 0 := congrArg UInt8.toNat zero
    refine h (Char.val_inj.mp (UInt32.toNat_inj.mp ?_))
    rw [Nat.mod_eq_of_lt (by omega)] at low
    exact low
  · rw [String.utf8EncodeChar_eq_cons_cons two]
    simp only [List.forall_mem_cons]
    exact ⟨marked _ _ (by decide), tail _, List.forall_mem_nil _⟩
  · rw [String.utf8EncodeChar_eq_cons_cons_cons three]
    simp only [List.forall_mem_cons]
    exact ⟨marked _ _ (by decide), tail _, tail _, List.forall_mem_nil _⟩
  · rw [String.utf8EncodeChar_eq_cons_cons_cons_cons four]
    simp only [List.forall_mem_cons]
    exact ⟨marked _ _ (by decide), tail _, tail _, tail _, List.forall_mem_nil _⟩

/-- The bytes of a text. -/
def encode (cs : List Char) : Bytes := cs.flatMap String.utf8EncodeChar

theorem encode_cons (c : Char) (cs : List Char) :
    encode (c :: cs) = String.utf8EncodeChar c ++ encode cs := List.flatMap_cons

theorem toUTF8_eq (s : String) : s.toUTF8.data.toList = encode s.toList := by
  rw [String.toUTF8_eq_toByteArray, ← String.utf8Encode_toList]
  exact List.toList_data_toByteArray

theorem fromUTF8?_encode (cs : List Char) :
    String.fromUTF8? (encode cs).toByteArray = some (String.ofList cs) := by
  have bytes : (encode cs).toByteArray = (String.ofList cs).toByteArray :=
    String.toByteArray_ofList.symm
  rw [bytes, String.fromUTF8?, dif_pos (String.ofList cs).isValidUTF8]
  rfl

theorem fromUTF8?_eq_some_iff {x : Bytes} {s : String} :
    String.fromUTF8? x.toByteArray = some s ↔ s.toUTF8.data.toList = x := by
  constructor
  · intro read
    rw [String.fromUTF8?] at read
    split at read
    · cases read
      exact List.toList_data_toByteArray
    · cases read
  · intro stored
    rw [← stored, toUTF8_eq, fromUTF8?_encode, String.ofList_toList]

theorem isValidUTF8_iff {x : Bytes} :
    x.toByteArray.IsValidUTF8 ↔ ∃ s : String, s.toUTF8.data.toList = x := by
  constructor
  · intro valid
    refine ⟨String.fromUTF8 x.toByteArray valid, fromUTF8?_eq_some_iff.mp ?_⟩
    rw [String.fromUTF8?, dif_pos valid]
  · rintro ⟨s, stored⟩
    have read := fromUTF8?_eq_some_iff.mpr stored
    rw [String.fromUTF8?] at read
    split at read
    · assumption
    · cases read

/-! ## Up to the first zero -/

/-- A text up to its first NUL character. -/
def upToNul (s : String) : String := String.ofList (s.toList.takeWhile (· ≠ '\x00'))

theorem upToNul_eq_self {s : String} (h : '\x00' ∉ s.toList) : upToNul s = s := by
  have through : ∀ c ∈ s.toList, decide (c ≠ '\x00') = true :=
    fun c hc => decide_eq_true (fun nul => h (nul ▸ hc))
  have whole := @List.takeWhile_append_of_pos Char _ s.toList [] through
  rw [List.append_nil, List.takeWhile_nil, List.append_nil] at whole
  rw [upToNul, whole, String.ofList_toList]

/-- The first zero byte is that of the first NUL, or the one behind the text. -/
theorem takeWhile_encode (cs : List Char) (rest : Bytes) :
    (encode cs ++ 0 :: rest).takeWhile (· ≠ 0) = encode (cs.takeWhile (· ≠ '\x00')) := by
  induction cs with
  | nil => rfl
  | cons c cs ih =>
      by_cases nul : c = '\x00'
      · subst nul
        rfl
      · have through : ∀ x ∈ String.utf8EncodeChar c, decide (x ≠ 0) = true :=
          fun x hx => decide_eq_true (ne_zero_of_mem_utf8EncodeChar nul x hx)
        have kept : (c :: cs).takeWhile (· ≠ '\x00') = c :: cs.takeWhile (· ≠ '\x00') :=
          List.takeWhile_cons_of_pos (decide_eq_true nul)
        rw [encode_cons, List.append_assoc, List.takeWhile_append_of_pos through, ih, kept,
          encode_cons]

theorem stringAtFront_ofString (offset : Nat) (s : String) (rest : Bytes) :
    stringAtFront offset (ofString s ++ rest) = .ok (upToNul s) := by
  have stored : ofString s ++ rest = encode s.toList ++ 0 :: rest := by
    rw [ofString, toUTF8_eq, List.append_assoc, List.singleton_append]
  have ends : (ofString s ++ rest).contains 0 = true := by
    rw [stored, List.contains_iff_mem]
    exact List.mem_append_right _ List.mem_cons_self
  rw [stringAtFront, if_pos ends, stored, takeWhile_encode, fromUTF8?_encode]
  rfl

/-- A name is found where it was stored. -/
theorem readString_ofString (front : Bytes) (s : String) (rest : Bytes) :
    readString (front ++ (ofString s ++ rest)) front.length = .ok (upToNul s) := by
  have inside : front.length ≤ (front ++ (ofString s ++ rest)).length := by
    rw [List.length_append]
    exact Nat.le_add_right _ _
  rw [readString, dropExactly?_eq, if_pos inside, List.drop_left]
  exact stringAtFront_ofString _ _ _

/-! ## Which names can be read -/

/-- The bytes from an offset up to the first zero. -/
def upToZero (b : Bytes) (offset : Nat) : Bytes := (b.drop offset).takeWhile (· ≠ 0)

/-- What has to stand at an offset for a name to be there. -/
structure HoldsName (b : Bytes) (offset : Nat) : Prop where
  inside : offset ≤ b.length
  ends : 0 ∈ b.drop offset
  text : (b.upToZero offset).toByteArray.IsValidUTF8

/-- The name that stands at an offset. -/
structure NameAt (b : Bytes) (offset : Nat) (s : String) : Prop where
  inside : offset ≤ b.length
  ends : 0 ∈ b.drop offset
  text : s.toUTF8.data.toList = b.upToZero offset

theorem exists_nameAt_iff {b : Bytes} {offset : Nat} :
    (∃ s, NameAt b offset s) ↔ HoldsName b offset := by
  constructor
  · rintro ⟨s, h⟩
    exact ⟨h.inside, h.ends, isValidUTF8_iff.mpr ⟨s, h.text⟩⟩
  · intro h
    obtain ⟨s, text⟩ := isValidUTF8_iff.mp h.text
    exact ⟨s, h.inside, h.ends, text⟩

theorem stringAtFront_eq_ok_iff {offset : Nat} {rest : Bytes} {s : String} :
    stringAtFront offset rest = .ok s ↔
      0 ∈ rest ∧ s.toUTF8.data.toList = rest.takeWhile (· ≠ 0) := by
  rw [stringAtFront, ← fromUTF8?_eq_some_iff]
  by_cases ends : 0 ∈ rest
  · rw [if_pos (List.contains_iff_mem.mpr ends), and_iff_right ends]
    cases String.fromUTF8? (rest.takeWhile (· ≠ 0)).toByteArray with
    | none => simp
    | some t => simp
  · rw [if_neg (fun found => ends (List.contains_iff_mem.mp found))]
    simp [ends]

/-- Reading a name succeeds exactly where one stands, and finds that one. -/
theorem readString_eq_ok_iff {b : Bytes} {offset : Nat} {s : String} :
    b.readString offset = .ok s ↔ NameAt b offset s := by
  rw [readString, dropExactly?_eq]
  by_cases inside : offset ≤ b.length
  · rw [if_pos inside]
    dsimp only
    rw [stringAtFront_eq_ok_iff]
    exact ⟨fun h => ⟨inside, h.1, h.2⟩, fun h => ⟨h.ends, h.text⟩⟩
  · rw [if_neg inside]
    constructor
    · intro read
      cases read
    · intro h
      exact absurd h.inside inside

/-! ## Stored forms -/

theorem zero_mem_encode_iff {cs : List Char} : 0 ∈ encode cs ↔ '\x00' ∈ cs := by
  constructor
  · intro zero
    obtain ⟨c, member, found⟩ := List.mem_flatMap.mp zero
    by_cases nul : c = '\x00'
    · exact nul ▸ member
    · exact absurd rfl (ne_zero_of_mem_utf8EncodeChar nul 0 found)
  · intro nul
    exact List.mem_flatMap.mpr ⟨'\x00', nul, by decide⟩

theorem takeWhile_of_first {front : Bytes} (free : 0 ∉ front) (behind : Bytes) :
    (front ++ 0 :: behind).takeWhile (· ≠ 0) = front := by
  have through : ∀ y ∈ front, decide (y ≠ 0) = true :=
    fun y member => decide_eq_true (fun zero => free (zero ▸ member))
  rw [List.takeWhile_append_of_pos through, List.takeWhile_cons_of_neg (by decide),
    List.append_nil]

/-- What stands before the first zero is the run without zeros that has one behind it. -/
theorem eq_takeWhile_iff {rest x : Bytes} :
    0 ∈ rest ∧ x = rest.takeWhile (· ≠ 0) ↔ 0 ∉ x ∧ x ++ [0] <+: rest := by
  constructor
  · rintro ⟨ends, rfl⟩
    obtain ⟨front, behind, rfl, free⟩ := List.eq_append_cons_of_mem ends
    rw [takeWhile_of_first free]
    exact ⟨free, behind, by rw [List.append_assoc, List.singleton_append]⟩
  · rintro ⟨free, behind, rfl⟩
    rw [List.append_assoc, List.singleton_append, takeWhile_of_first free]
    exact ⟨List.mem_append_right _ List.mem_cons_self, rfl⟩

theorem inside_of_mem_drop {b : Bytes} {offset : Nat} {x : UInt8} (h : x ∈ b.drop offset) :
    offset ≤ b.length := by
  have left := List.length_pos_of_mem h
  rw [List.length_drop] at left
  omega

/-- A name stands where its stored form does, if it has no NUL. -/
theorem nameAt_iff_begins {b : Bytes} {offset : Nat} {s : String} :
    NameAt b offset s ↔ '\x00' ∉ s.toList ∧ ofString s <+: b.drop offset := by
  have first := @eq_takeWhile_iff (b.drop offset) s.toUTF8.data.toList
  have free : 0 ∉ s.toUTF8.data.toList ↔ '\x00' ∉ s.toList := by
    rw [toUTF8_eq, zero_mem_encode_iff]
  rw [free] at first
  constructor
  · intro h
    exact first.mp ⟨h.ends, h.text⟩
  · intro h
    obtain ⟨ends, text⟩ := first.mpr h
    exact ⟨inside_of_mem_drop ends, ends, text⟩

/-! ## Every answer -/

theorem stringAtFront_eq_error_iff {offset : Nat} {rest : Bytes} {e : ReadError} :
    stringAtFront offset rest = .error e ↔
      (0 ∉ rest ∧ e = .unterminated offset) ∨
      (0 ∈ rest ∧ ¬ (rest.takeWhile (· ≠ 0)).toByteArray.IsValidUTF8 ∧
        e = .invalidUtf8 offset) := by
  rw [stringAtFront]
  by_cases ends : 0 ∈ rest
  · rw [if_pos (List.contains_iff_mem.mpr ends)]
    generalize (rest.takeWhile (· ≠ 0)).toByteArray = before
    rw [String.fromUTF8?]
    by_cases text : before.IsValidUTF8
    · rw [dif_pos text]
      simp [ends, text]
    · rw [dif_neg text]
      simp [ends, text, eq_comm]
  · rw [if_neg (fun found => ends (List.contains_iff_mem.mp found))]
    simp [ends, eq_comm]

/-- The three ways to fail.  A zero byte that follows an offset already puts it inside. -/
theorem readString_eq_error_iff {b : Bytes} {offset : Nat} {e : ReadError} :
    b.readString offset = .error e ↔
      (b.length < offset ∧ e = .outOfBounds offset 1 b.length) ∨
      (offset ≤ b.length ∧ 0 ∉ b.drop offset ∧ e = .unterminated offset) ∨
      (0 ∈ b.drop offset ∧ ¬ (b.upToZero offset).toByteArray.IsValidUTF8 ∧
        e = .invalidUtf8 offset) := by
  rw [readString, dropExactly?_eq]
  by_cases inside : offset ≤ b.length
  · rw [if_pos inside]
    dsimp only
    rw [stringAtFront_eq_error_iff, and_iff_right inside, upToZero]
    have notOutside := Nat.not_lt.mpr inside
    simp only [notOutside, false_and, false_or]
  · rw [if_neg inside]
    have outside := Nat.not_le.mp inside
    have endless : 0 ∉ b.drop offset := fun found => inside (inside_of_mem_drop found)
    simp [inside, outside, endless, eq_comm]

/-- What reading a name may answer, by what stands at the offset. -/
structure ReadsExactly (b : Bytes) (offset : Nat) (answer : Except ReadError String) : Prop where
  ok_iff : ∀ s, answer = .ok s ↔
    '\x00' ∉ s.toList ∧ s.toUTF8.data.toList ++ [0] <+: b.drop offset
  outOfBounds_iff : answer = .error (.outOfBounds offset 1 b.length) ↔ b.length < offset
  /-- At the very end nothing follows, so no zero byte does. -/
  unterminated_iff : answer = .error (.unterminated offset) ↔
    offset ≤ b.length ∧ 0 ∉ b.drop offset
  invalidUtf8_iff : answer = .error (.invalidUtf8 offset) ↔
    0 ∈ b.drop offset ∧ ¬ (b.upToZero offset).toByteArray.IsValidUTF8
  /-- There is no other way to fail. -/
  error : ∀ e, answer = .error e →
    e = .outOfBounds offset 1 b.length ∨ e = .unterminated offset ∨ e = .invalidUtf8 offset

end ShaderReport.Bytes

namespace ShaderReport.Cursor

/-- Reading a name is exact at every offset of every byte string, wherever the cursor stands:
the name that is stored there is read, and where none is stored the answer says why. -/
theorem names_read_exactly (c : Cursor) (offset : Nat) :
    c.bytes.ReadsExactly offset (c.stringAt offset) where
  ok_iff s := Bytes.readString_eq_ok_iff.trans Bytes.nameAt_iff_begins
  outOfBounds_iff := by
    rw [stringAt, Bytes.readString_eq_error_iff]
    simp
  unterminated_iff := by
    rw [stringAt, Bytes.readString_eq_error_iff]
    simp
  invalidUtf8_iff := by
    rw [stringAt, Bytes.readString_eq_error_iff]
    simp
  error e failed := by
    rcases Bytes.readString_eq_error_iff.mp failed with ⟨-, rfl⟩ | ⟨-, -, rfl⟩ | ⟨-, -, rfl⟩
    · exact .inl rfl
    · exact .inr (.inl rfl)
    · exact .inr (.inr rfl)

end ShaderReport.Cursor
