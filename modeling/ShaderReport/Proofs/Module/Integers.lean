/-
# Integer constants in the width of their type

A constant holds a word of 64 bits, and its type says how many of them count.  What is
printed is the one number of that width, with its sign, that differs from the word by a
multiple of two to the width (`StandsFor`, `signed_eq_iff`).

The usual way to compute it moves the bits that count to the top of the word and moves them
back with copies of the topmost one.  Both moves are arithmetic: the first multiplies, and
the remainder it leaves is divided exactly by the second (`bmod_mul_right`), so the two
shifts give the same number (`signedByShifts_eq`).

A decimal number is read back from its text, and `true` and `false` tell the two words of
one bit apart.  So constants of one type print alike exactly if their words agree in the
bits that count (`integerText_eq_iff`).  In front of an operand its type is written, for
integers a numeral with a blank behind it, so there the widths are read back as well
(`typedText_eq_iff`).
-/
import Mathlib.Data.Int.ModEq
import Mathlib.Tactic.MkIffOfInductiveProp
import ShaderReport.Module.Listing
import ShaderReport.Proofs.Text.Backwards

namespace ShaderReport

/-! ## The number a word stands for -/

namespace Number

/-- The bits of a word that count; a width of none, or of more than there are, means all. -/
def usedBits (bits : Nat) : Nat := if bits = 0 ∨ 64 ≤ bits then 64 else bits

theorem usedBits_eq_self {bits : Nat} (some : 1 ≤ bits) (fits : bits ≤ 64) :
    usedBits bits = bits := by
  unfold usedBits
  split <;> omega

theorem one_le_usedBits (bits : Nat) : 1 ≤ usedBits bits := by
  unfold usedBits
  split <;> omega

theorem signed_eq (word : UInt64) (bits : Nat) :
    signed word bits = Int.bmod word.toNat (2 ^ usedBits bits) := rfl

/-- A number in the range of a width that differs from the word by a multiple of two to the
width. -/
@[mk_iff]
structure StandsFor (word : UInt64) (width : Nat) (z : Int) : Prop where
  lower : -2 ^ (width - 1) ≤ z
  upper : z < 2 ^ (width - 1)
  congruent : z ≡ word.toNat [ZMOD 2 ^ width]

/-- There is one such number, and it is the one that is read. -/
theorem signed_eq_iff (word : UInt64) (bits : Nat) (z : Int) :
    signed word bits = z ↔ StandsFor word (usedBits bits) z := by
  obtain ⟨n, width⟩ := Nat.exists_eq_add_of_le' (one_le_usedBits bits)
  have double : ((2 ^ (n + 1) : Nat) : Int) = 2 * 2 ^ n := by
    push_cast
    exact pow_succ' 2 n
  have below : ((2 ^ (n + 1) : Nat) : Int) / 2 = 2 ^ n := by omega
  have above : (((2 ^ (n + 1) : Nat) : Int) + 1) / 2 = 2 ^ n := by omega
  have multiple : ((2 ^ (n + 1) : Nat) : Int) ∣ z - word.toNat ↔
      z ≡ word.toNat [ZMOD 2 ^ (n + 1)] := by
    rw [Int.modEq_comm, Int.modEq_iff_dvd]
    push_cast
    exact Iff.rfl
  rw [signed_eq, width, Int.bmod_eq_iff (Nat.two_pow_pos _), below, above, multiple,
    standsFor_iff, Nat.add_sub_cancel]

theorem standsFor_signed (word : UInt64) (bits : Nat) :
    StandsFor word (usedBits bits) (signed word bits) :=
  (signed_eq_iff word bits _).mp rfl

/-- Two words are read as one number exactly if they agree in the bits that count. -/
theorem signed_inj (v w : UInt64) (bits : Nat) :
    signed v bits = signed w bits ↔ v.toNat ≡ w.toNat [MOD 2 ^ usedBits bits] := by
  have word := standsFor_signed w bits
  have cast : (v.toNat : Int) ≡ w.toNat [ZMOD 2 ^ usedBits bits] ↔
      v.toNat ≡ w.toNat [MOD 2 ^ usedBits bits] := by
    rw [← Int.natCast_modEq_iff]
    push_cast
    exact Iff.rfl
  rw [← cast, signed_eq_iff]
  constructor
  · intro same
    exact same.congruent.symm.trans word.congruent
  · intro agree
    exact ⟨word.lower, word.upper, word.congruent.trans agree.symm⟩

/-! ## The same number by shifts -/

/-- The bits that count are moved to the top of the word and moved back with the sign. -/
def signedByShifts (word : UInt64) (bits : Nat) : Int :=
  if bits = 0 ∨ 64 ≤ bits then word.toInt64.toInt
  else
    let shift := 64 - bits
    ((word <<< UInt64.ofNat shift).toInt64 >>> Int64.ofNat shift).toInt

/-- A factor can be taken out of a number and out of the limit it is reduced by. -/
theorem bmod_mul_right (x : Int) (a : Nat) {c : Nat} (positive : 0 < c) :
    Int.bmod (x * c) (a * c) = Int.bmod x a * c := by
  have factor : (0 : Int) < c := Int.natCast_pos.mpr positive
  have rest : x * c % ((a * c : Nat) : Int) = x % a * c := by
    rw [Int.natCast_mul, mul_comm x, mul_comm (a : Int), Int.mul_emod_mul_of_pos _ _ factor,
      mul_comm]
  -- both bounds say that twice the remainder is less than the limit
  have half : ∀ r b : Int, r < (b + 1) / 2 ↔ 2 * r < b := by
    intro r b
    omega
  have small : x % a * c < (((a * c : Nat) : Int) + 1) / 2 ↔ x % a < ((a : Int) + 1) / 2 := by
    rw [half, half, Int.natCast_mul, ← mul_assoc]
    exact Int.mul_lt_mul_right factor
  rw [Int.bmod_def, Int.bmod_def, rest]
  by_cases low : x % a < ((a : Int) + 1) / 2
  · rw [if_pos (small.mpr low), if_pos low]
  · rw [if_neg (mt small.mp low), if_neg low, Int.natCast_mul, sub_mul]

theorem toInt_toInt64 (word : UInt64) : word.toInt64.toInt = Int.bmod word.toNat (2 ^ 64) :=
  BitVec.toInt_eq_toNat_bmod word.toBitVec

/-- The two shifts of 64-bit words, as shifts of numbers. -/
theorem toInt_shifted (word : UInt64) {shift : Nat} (small : shift < 64) :
    ((word <<< UInt64.ofNat shift).toInt64 >>> Int64.ofNat shift).toInt =
      Int.bmod (word.toNat * 2 ^ shift : Nat) (2 ^ 64) / (2 ^ shift : Nat) := by
  have left : ∀ s < 64, (UInt64.ofNat s).toBitVec % 64 = BitVec.ofNat 64 s := by decide
  have right : ∀ s < 64, (Int64.ofNat s).toBitVec.smod 64 = BitVec.ofNat 64 s := by decide
  have amount : (BitVec.ofNat 64 shift).toNat = shift := by
    rw [BitVec.toNat_ofNat]
    omega
  rw [← Int64.toInt_toBitVec, Int64.toBitVec_shiftRight, right shift small,
    BitVec.toInt_sshiftRight', amount, UInt64.toBitVec_toInt64, UInt64.toBitVec_shiftLeft,
    left shift small, BitVec.shiftLeft_eq', amount, BitVec.toInt_shiftLeft,
    Int.shiftRight_eq_div_pow, Nat.shiftLeft_eq]
  rfl

theorem signedByShifts_eq (word : UInt64) (bits : Nat) :
    signedByShifts word bits = signed word bits := by
  rw [signed_eq, signedByShifts, usedBits]
  by_cases whole : bits = 0 ∨ 64 ≤ bits
  · rw [if_pos whole, if_pos whole, toInt_toInt64]
  · rw [if_neg whole, if_neg whole, toInt_shifted word (by omega)]
    have split : 2 ^ 64 = 2 ^ bits * 2 ^ (64 - bits) := by
      rw [← Nat.pow_add, Nat.add_sub_of_le (by omega)]
    have back : ((2 ^ (64 - bits) : Nat) : Int) ≠ 0 :=
      Int.natCast_ne_zero.mpr (Nat.two_pow_pos _).ne'
    rw [split, Int.natCast_mul, bmod_mul_right _ _ (Nat.two_pow_pos _),
      Int.mul_ediv_cancel _ back]

end Number

/-! ## Texts -/

namespace Module

open Number

variable {m : Module} {type type' : TypeId} {bits bits' : UInt32}

theorem integerText_eq (shape : m.types.shape? type = some (.integer bits)) (word : UInt64) :
    m.integerText type word =
      if bits.toNat = 1 then (if word.toNat % 2 = 1 then "true" else "false")
      else toString (signed word bits.toNat) := by
  rw [integerText, shape]

/-- Constants of one width print alike exactly if their words agree in the bits that count. -/
theorem integerText_eq_iff (shape : m.types.shape? type = some (.integer bits))
    (shape' : m.types.shape? type' = some (.integer bits)) (v w : UInt64) :
    m.integerText type v = m.integerText type' w ↔
      v.toNat ≡ w.toNat [MOD 2 ^ usedBits bits.toNat] := by
  rw [integerText_eq shape, integerText_eq shape']
  by_cases one : bits.toNat = 1
  · have parity : v.toNat ≡ w.toNat [MOD 2 ^ usedBits 1] ↔ v.toNat % 2 = w.toNat % 2 := Iff.rfl
    rw [if_pos one, if_pos one, one, parity]
    rcases Nat.mod_two_eq_zero_or_one v.toNat with hv | hv <;>
      rcases Nat.mod_two_eq_zero_or_one w.toNat with hw | hw <;> simp [hv, hw]
  · rw [if_neg one, if_neg one, Int.toString_eq_repr, Int.toString_eq_repr,
      Text.int_repr_inj, signed_inj]

theorem typedText_integer (shape : m.types.shape? type = some (.integer bits)) (word : UInt64) :
    (m.typedValueText (.integer type word)).toList =
      'i' :: (bits.toNat.repr.toList ++ ' ' :: (m.integerText type word).toList) := by
  have name : m.types.text type = "i" ++ bits.toNat.repr := by
    rw [TypeTable.text, TypeTable.fold_eq _ m.types shape, Shape.text]
  have typed : m.typedValueText (.integer type word) =
      "i" ++ bits.toNat.repr ++ " " ++ m.integerText type word := by
    rw [← name]
    rfl
  simp only [typed, String.toList_append, List.append_assoc]
  rfl

/-- Behind their types, constants print alike exactly if the widths are equal and the words
agree in the bits that count. -/
theorem typedText_eq_iff (shape : m.types.shape? type = some (.integer bits))
    (shape' : m.types.shape? type' = some (.integer bits')) (v w : UInt64) :
    m.typedValueText (.integer type v) = m.typedValueText (.integer type' w) ↔
      bits = bits' ∧ v.toNat ≡ w.toNat [MOD 2 ^ usedBits bits.toNat] := by
  rw [← String.toList_inj, typedText_integer shape, typedText_integer shape']
  constructor
  · intro same
    obtain ⟨widths, texts⟩ := Text.run_append_inj (fun _ => Text.isDigit_of_mem_repr)
      (fun _ => Text.isDigit_of_mem_repr) (by simp) (by simp) (List.cons.inj same).2
    obtain rfl := UInt32.toNat_inj.mp (Text.toList_repr_inj.mp widths)
    refine ⟨rfl, (integerText_eq_iff shape shape' v w).mp ?_⟩
    exact String.toList_inj.mp (List.cons.inj texts).2
  · rintro ⟨rfl, agree⟩
    rw [(integerText_eq_iff shape shape' v w).mpr agree]

/-- A word in a width of 1 to 63 bits is read as the one number of that width that is congruent
to it, with shifts or without, and in any other width it is read as a whole.  Integer constants
of one width print alike exactly if their words are congruent, and behind their types exactly
if the widths are equal as well. -/
theorem integers_print_in_their_width :
    (∀ word bits, signedByShifts word bits = signed word bits) ∧
    (∀ word n, 1 ≤ n → n ≤ 63 → ∀ z, signed word n = z ↔ StandsFor word n z) ∧
    (∀ word n, n = 0 ∨ 64 ≤ n → signed word n = word.toInt64.toInt) ∧
    (∀ (m : Module) (type type' : TypeId) (bits : UInt32),
      m.types.shape? type = some (.integer bits) → m.types.shape? type' = some (.integer bits) →
      1 ≤ bits.toNat → bits.toNat ≤ 64 → ∀ v w : UInt64,
      (m.valueText (.integer type v) = m.valueText (.integer type' w) ↔
        v.toNat ≡ w.toNat [MOD 2 ^ bits.toNat])) ∧
    ∀ (m : Module) (type type' : TypeId) (bits bits' : UInt32),
      m.types.shape? type = some (.integer bits) → m.types.shape? type' = some (.integer bits') →
      ∀ v w : UInt64,
      (m.typedValueText (.integer type v) = m.typedValueText (.integer type' w) ↔
        bits = bits' ∧ v.toNat ≡ w.toNat [MOD 2 ^ usedBits bits.toNat]) := by
  refine ⟨signedByShifts_eq, ?_, ?_, ?_, ?_⟩
  · intro word n some fits z
    rw [signed_eq_iff, usedBits_eq_self some (by omega)]
  · intro word n whole
    rw [← signedByShifts_eq, signedByShifts, if_pos whole]
  · intro m type type' bits shape shape' some fits v w
    have alike := integerText_eq_iff shape shape' v w
    rwa [usedBits_eq_self some fits] at alike
  · intro m type type' bits bits' shape shape'
    exact typedText_eq_iff shape shape'

/-- Two integer types of 8 and of 16 bits. -/
def twoWidths : Module where
  types := ⟨[.integer 8, .integer 16]⟩

/-- A word with nine bits set is -1 in eight bits and 511 in sixteen. -/
theorem integers_print_in_their_width_nineBits :
    signed 0x1FF 8 = -1 ∧ signed 0x1FF 16 = 511 ∧
    twoWidths.valueText (.integer 0 0x1FF) = twoWidths.valueText (.integer 0 0xFF) ∧
    twoWidths.valueText (.integer 1 0x1FF) ≠ twoWidths.valueText (.integer 1 0xFF) ∧
    twoWidths.typedValueText (.integer 0 0) ≠ twoWidths.typedValueText (.integer 1 0) := by
  obtain ⟨-, one, -, alike, typed⟩ := integers_print_in_their_width
  have eight := alike twoWidths 0 0 8 rfl rfl (by decide) (by decide) 0x1FF 0xFF
  have sixteen := alike twoWidths 1 1 16 rfl rfl (by decide) (by decide) 0x1FF 0xFF
  refine ⟨(one _ 8 (by decide) (by decide) _).mpr ⟨by decide, by decide, by decide⟩,
    (one _ 16 (by decide) (by decide) _).mpr ⟨by decide, by decide, by decide⟩, ?_, ?_, ?_⟩
  · exact eight.mpr (by decide)
  · exact mt sixteen.mp (by decide)
  · exact mt (typed twoWidths 0 1 8 16 rfl rfl 0 0).mp (by decide)

example : twoWidths.typedValueText (.integer 0 0x1FF) = "i8 -1" := by decide +kernel

end Module

end ShaderReport
