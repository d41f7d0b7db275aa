/-
# Tags by their texts

Messages and summaries name a part by the text of its tag and by nothing else.  A tag whose
bytes are all printable reads as these four characters, and any other tag as `0x` and eight
digits.

Each form gives the bytes back: the characters are the bytes, as UTF-8 has it
(`Verbatim`), and two digits stand for one byte (`ofHex?_hexBytes`).  One form does not pass
for the other, though four characters may begin with `0x`, since the texts have four and ten
characters.  So no two tags read alike.
-/
import ShaderReport.Proofs.Bytes.Names
import ShaderReport.Proofs.Container.Format

namespace ShaderReport

/-! ## Reading digits -/

namespace Text

/-- The value of a base-sixteen digit. -/
def hexValue? (c : Char) : Option Nat := "0123456789abcdef".toList.idxOf? c

/-- The bytes that digits stand for, two digits each. -/
def ofHex? : List Char → Option Bytes
  | [] => some []
  | [_] => none
  | high :: low :: rest => do
    let high ← hexValue? high
    let low ← hexValue? low
    let behind ← ofHex? rest
    return .ofNat (16 * high + low) :: behind

theorem hexValue?_hexDigit {n : Nat} (small : n < 16) : hexValue? (hexDigit n) = some n := by
  have all : ∀ n < 16, hexValue? (hexDigit n) = some n := by decide
  exact all n small

theorem hexDigits_byte (x : UInt8) :
    hexDigits 2 x.toNat = [hexDigit (x.toNat / 16 % 16), hexDigit (x.toNat % 16)] := rfl

theorem ofHex?_hexBytes (b : Bytes) : ofHex? (hexBytes b).toList = some b := by
  rw [hexBytes, String.toList_ofList]
  induction b with
  | nil => rfl
  | cons x b ih =>
      have bound := x.toNat_lt
      have byte : UInt8.ofNat (16 * (x.toNat / 16 % 16) + x.toNat % 16) = x := by
        rw [show 16 * (x.toNat / 16 % 16) + x.toNat % 16 = x.toNat by omega, UInt8.ofNat_toNat]
      rw [List.flatMap_cons, hexDigits_byte, List.cons_append, List.cons_append,
        List.nil_append, ofHex?, hexValue?_hexDigit (by omega), hexValue?_hexDigit (by omega), ih]
      exact congrArg (fun y => some (y :: b)) byte

theorem length_hexBytes (b : Bytes) : (hexBytes b).toList.length = 2 * b.length := by
  rw [hexBytes, String.toList_ofList]
  induction b with
  | nil => rfl
  | cons x b ih =>
      rw [List.flatMap_cons, List.length_append, ih, hexDigits_byte]
      simp only [List.length_cons, List.length_nil]
      omega

end Text

namespace Tag

/-! ## The two forms of a text -/

/-- The text is the bytes, as characters. -/
structure Verbatim (t : Tag) (s : String) : Prop where
  characters : s.toList = t.toBytes.map fun x => Char.ofNat x.toNat
  bytes : s.toUTF8.data.toList = t.toBytes

/-- The text is `0x` and eight digits, two for each byte. -/
def InDigits (t : Tag) (s : String) : Prop :=
  ∃ digits, s.toList = '0' :: 'x' :: digits ∧ digits.length = 8 ∧
    Text.ofHex? digits = some t.toBytes

/-- Four characters are not ten. -/
theorem Verbatim.not_inDigits {t u : Tag} {s : String} (h : Verbatim t s) : ¬ InDigits u s := by
  rintro ⟨digits, spelt, eight, -⟩
  have four : s.toList.length = t.toBytes.length := by rw [h.characters, List.length_map]
  rw [spelt, List.length_cons, List.length_cons, eight] at four
  cases four

theorem toBytes_inj {t u : Tag} : t.toBytes = u.toBytes ↔ t = u := by
  refine ⟨?_, congrArg toBytes⟩
  intro same
  rw [← ofBytes_append t [], same, ofBytes_append]

theorem Verbatim.tag_eq {t u : Tag} {s : String} (h : Verbatim t s) (h' : Verbatim u s) :
    t = u := toBytes_inj.mp (h.bytes.symm.trans h'.bytes)

theorem InDigits.tag_eq {t u : Tag} {s : String} (h : InDigits t s) (h' : InDigits u s) :
    t = u := by
  obtain ⟨digits, spelt, -, read⟩ := h
  obtain ⟨digits', spelt', -, read'⟩ := h'
  have same : digits = digits' :=
    (List.cons.inj (List.cons.inj (spelt.symm.trans spelt')).2).2
  rw [← same, read] at read'
  exact toBytes_inj.mp (Option.some.inj read')

/-! ## Which form a text has -/

theorem isPrintable_iff (x : UInt8) : isPrintable x = true ↔ 0x20 ≤ x ∧ x ≤ 0x7E := by
  rw [isPrintable, Bool.and_eq_true, decide_eq_true_eq, decide_eq_true_eq]
  exact Iff.rfl

theorem utf8EncodeChar_of_isPrintable {x : UInt8} (h : isPrintable x = true) :
    String.utf8EncodeChar (Char.ofNat x.toNat) = [x] := by
  have ascii : ∀ n ≤ 0x7E, String.utf8EncodeChar (Char.ofNat n) = [UInt8.ofNat n] := by decide
  have below := ((isPrintable_iff x).mp h).2
  rw [ascii _ (UInt8.le_iff_toNat_le.mp below), UInt8.ofNat_toNat]

theorem verbatim_of_isPrintable {t : Tag} (h : ∀ x ∈ t.toBytes, isPrintable x = true) :
    Verbatim t t.text := by
  have characters : t.text.toList = t.toBytes.map fun x => Char.ofNat x.toNat := by
    rw [text, if_pos (List.all_eq_true.mpr h), String.toList_ofList]
  refine ⟨characters, ?_⟩
  have each : (t.toBytes.map fun x => String.utf8EncodeChar (Char.ofNat x.toNat)) =
      t.toBytes.map fun x => [x] :=
    List.map_congr_left fun x hx => utf8EncodeChar_of_isPrintable (h x hx)
  rw [Bytes.toUTF8_eq, characters, Bytes.encode, List.flatMap_map, List.flatMap_def, each,
    ← List.flatMap_def, List.flatMap_singleton']

theorem inDigits_of_not_isPrintable {t : Tag} (h : ¬ ∀ x ∈ t.toBytes, isPrintable x = true) :
    InDigits t t.text := by
  have spelt : t.text = "0x" ++ Text.hexBytes t.toBytes := if_neg (mt List.all_eq_true.mp h)
  refine ⟨(Text.hexBytes t.toBytes).toList, ?_, Text.length_hexBytes _, Text.ofHex?_hexBytes _⟩
  rw [spelt, String.toList_append]
  rfl

theorem verbatim_text_iff (t : Tag) :
    Verbatim t t.text ↔ ∀ x ∈ t.toBytes, isPrintable x = true := by
  refine ⟨?_, verbatim_of_isPrintable⟩
  intro verbatim
  refine Decidable.byContradiction fun h => ?_
  exact verbatim.not_inDigits (inDigits_of_not_isPrintable h)

theorem inDigits_text_iff (t : Tag) :
    InDigits t t.text ↔ ¬ ∀ x ∈ t.toBytes, isPrintable x = true := by
  refine ⟨?_, inDigits_of_not_isPrintable⟩
  intro digits h
  exact (verbatim_of_isPrintable h).not_inDigits digits

theorem verbatim_or_inDigits (t : Tag) : Verbatim t t.text ∨ InDigits t t.text := by
  rw [verbatim_text_iff, inDigits_text_iff]
  exact Decidable.em _

/-- The text by way of UTF-8: the bytes are decoded, and what they decode to is shown if they
are all printable. -/
def decodedText (t : Tag) : String :=
  match String.fromUTF8? t.toBytes.toByteArray with
  | some s => if t.toBytes.all isPrintable then s else "0x" ++ Text.hexBytes t.toBytes
  | none => "0x" ++ Text.hexBytes t.toBytes

theorem decodedText_eq (t : Tag) : t.decodedText = t.text := by
  by_cases h : ∀ x ∈ t.toBytes, isPrintable x = true
  · have decoded := Bytes.fromUTF8?_eq_some_iff.mpr (verbatim_of_isPrintable h).bytes
    simp only [decodedText, decoded, if_pos (List.all_eq_true.mpr h)]
  · have digits := mt List.all_eq_true.mp h
    rw [decodedText, text, if_neg digits]
    split
    · exact if_neg digits
    · rfl

theorem text_inj {t u : Tag} : t.text = u.text ↔ t = u := by
  refine ⟨?_, congrArg text⟩
  intro same
  have other := same ▸ verbatim_or_inDigits u
  rcases verbatim_or_inDigits t with verbatim | digits
  · rcases other with verbatim' | digits'
    · exact verbatim.tag_eq verbatim'
    · exact absurd digits' verbatim.not_inDigits
  · rcases other with verbatim' | digits'
    · exact absurd digits verbatim'.not_inDigits
    · exact digits.tag_eq digits'

/-! ## Tags as words -/

theorem ofWord_toWord (t : Tag) : ofWord t.toWord = t := by
  have fits : Bytes.toNatLE t.toBytes < 2 ^ 32 := Bytes.toNatLE_lt t.toBytes
  have word : t.toWord.toNat = Bytes.toNatLE t.toBytes := Nat.mod_eq_of_lt fits
  have bytes : Bytes.ofUInt32 t.toWord = t.toBytes := by
    rw [Bytes.ofUInt32, word]
    exact Bytes.ofNatLE_toNatLE t.toBytes
  rw [ofWord, bytes]
  rfl

theorem toWord_ofWord (w : UInt32) : (ofWord w).toWord = w := by
  have four : (Bytes.ofUInt32 w).length = 4 := Bytes.length_ofUInt32 w
  have bytes : (ofWord w).toBytes = Bytes.ofUInt32 w := by
    rw [← (ofBytes_eq_iff (Nat.le_of_eq four.symm) (ofWord w)).mp rfl,
      List.take_of_length_le (Nat.le_of_eq four)]
  have number : Bytes.toNatLE (Bytes.ofUInt32 w) = w.toNat := by
    rw [Bytes.ofUInt32, Bytes.toNatLE_ofNatLE]
    exact Nat.mod_eq_of_lt w.toNat_lt
  rw [toWord, Bytes.u32At, List.drop_zero, bytes, List.take_of_length_le (Nat.le_of_eq four),
    number, UInt32.ofNat_toNat]

/-- No two tags read alike: a tag reads as its bytes exactly if they are all printable, and as
digits exactly if one is not.  Turned into a word, and a word into a tag, it is given back. -/
theorem text_tells_tags_apart :
    (∀ t : Tag, t.decodedText = t.text) ∧
    (∀ t u : Tag, t.text = u.text ↔ t = u) ∧
    (∀ t : Tag, Verbatim t t.text ↔ ∀ x ∈ t.toBytes, 0x20 ≤ x ∧ x ≤ 0x7E) ∧
    (∀ t : Tag, InDigits t t.text ↔ ¬ ∀ x ∈ t.toBytes, 0x20 ≤ x ∧ x ≤ 0x7E) ∧
    (∀ t, ofWord t.toWord = t) ∧ ∀ w, (ofWord w).toWord = w := by
  have printable : ∀ t : Tag, (∀ x ∈ t.toBytes, isPrintable x = true) ↔
      ∀ x ∈ t.toBytes, 0x20 ≤ x ∧ x ≤ 0x7E :=
    fun t => forall₂_congr fun x _ => isPrintable_iff x
  refine ⟨decodedText_eq, fun _ _ => text_inj, ?_, ?_, ofWord_toWord, toWord_ofWord⟩
  · intro t
    rw [verbatim_text_iff, printable]
  · intro t
    rw [inDigits_text_iff, printable]

/-- Four characters that begin like digits do, and the digits of four bytes. -/
example : (⟨0x30, 0x78, 0x30, 0x30⟩ : Tag).text = "0x00" ∧
    (⟨0x00, 0x01, 0xFF, 0x41⟩ : Tag).text = "0x0001ff41" := by decide +kernel

end Tag

end ShaderReport
