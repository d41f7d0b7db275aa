/-
# `LittleEndian` — words as bytes, lowest byte first

One pair of maps between naturals and byte strings of a given width, and the
word-sized readers and writers built on it.  Every word has two readers: the
total one (`u32At`, …), for offsets already known to lie inside, and the
checked one (`readU32`, …), which says why it fails.
-/
import ShaderReport.Bytes.Basic

namespace ShaderReport.Bytes

/-- The number a byte string stands for. -/
def toNatLE : Bytes → Nat
  | [] => 0
  | x :: b => x.toNat + 256 * toNatLE b

/-- The lowest `width` bytes of a number. -/
def ofNatLE : (width : Nat) → Nat → Bytes
  | 0, _ => []
  | width + 1, n => n.toUInt8 :: ofNatLE width (n / 256)

@[simp] theorem length_ofNatLE (width n : Nat) : (ofNatLE width n).length = width := by
  induction width generalizing n with
  | zero => rfl
  | succ width ih => simp [ofNatLE, ih]

/-- How many numbers a given number of bytes can hold. -/
def capacity : (width : Nat) → Nat
  | 0 => 1
  | width + 1 => 256 * capacity width

theorem toNatLE_lt (b : Bytes) : toNatLE b < capacity b.length := by
  induction b with
  | nil => decide
  | cons x b ih =>
    have hx := x.toNat_lt
    simp only [toNatLE, List.length_cons, capacity]
    omega

/-- Reading back what was written gives the number cut to the width. -/
theorem toNatLE_ofNatLE (width n : Nat) : toNatLE (ofNatLE width n) = n % capacity width := by
  induction width generalizing n with
  | zero => simp [ofNatLE, toNatLE, capacity, Nat.mod_one]
  | succ width ih =>
    have hn : n.toUInt8.toNat = n % 256 := rfl
    rw [ofNatLE, toNatLE, ih, hn, capacity, Nat.mod_mul]

/-- Writing back what was read gives the same bytes. -/
theorem ofNatLE_toNatLE (b : Bytes) : ofNatLE b.length (toNatLE b) = b := by
  induction b with
  | nil => rfl
  | cons x b ih =>
    have hx := x.toNat_lt
    have low : (x.toNat + 256 * toNatLE b).toUInt8 = x := by
      apply UInt8.toNat_inj.mp
      change (x.toNat + 256 * toNatLE b) % 256 = x.toNat
      omega
    have high : (x.toNat + 256 * toNatLE b) / 256 = toNatLE b := by omega
    simp only [toNatLE, List.length_cons, ofNatLE, low, high, ih]

/-! ## Writers -/

def ofUInt16 (w : UInt16) : Bytes := ofNatLE 2 w.toNat

def ofUInt32 (w : UInt32) : Bytes := ofNatLE 4 w.toNat

def ofUInt64 (w : UInt64) : Bytes := ofNatLE 8 w.toNat

@[simp] theorem length_ofUInt16 (w : UInt16) : (ofUInt16 w).length = 2 := length_ofNatLE ..

@[simp] theorem length_ofUInt32 (w : UInt32) : (ofUInt32 w).length = 4 := length_ofNatLE ..

@[simp] theorem length_ofUInt64 (w : UInt64) : (ofUInt64 w).length = 8 := length_ofNatLE ..

/-! ## Total readers: a byte past the end counts as zero -/

def u8At (b : Bytes) (offset : Nat) : UInt8 := b.getD offset 0

def u16At (b : Bytes) (offset : Nat) : UInt16 := .ofNat (toNatLE ((b.drop offset).take 2))

def u32At (b : Bytes) (offset : Nat) : UInt32 := .ofNat (toNatLE ((b.drop offset).take 4))

def u64At (b : Bytes) (offset : Nat) : UInt64 := .ofNat (toNatLE ((b.drop offset).take 8))

/-- The string as consecutive 32-bit words; a last incomplete word is dropped. -/
def words32 : Bytes → List UInt32
  | b0 :: b1 :: b2 :: b3 :: b => .ofNat (toNatLE [b0, b1, b2, b3]) :: words32 b
  | _ => []

/-! ## Checked readers -/

def readU8 (b : Bytes) (offset : Nat) : Except ReadError UInt8 :=
  (b.slice offset 1).map (u8At · 0)

def readU16 (b : Bytes) (offset : Nat) : Except ReadError UInt16 :=
  (b.slice offset 2).map (u16At · 0)

def readU32 (b : Bytes) (offset : Nat) : Except ReadError UInt32 :=
  (b.slice offset 4).map (u32At · 0)

end ShaderReport.Bytes
