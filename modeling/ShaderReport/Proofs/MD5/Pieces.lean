/-
# A message in pieces

A digest is often asked of a message that nobody has in one piece.  A `Hasher` is fed one piece
after another and then asked; what it has to live up to is that only the message counts, not how
it was cut (`Hasher.Faithful`).

`pieceByPiece` is such a hasher.  It stirs every block into the state as soon as the block is
complete and holds back what is left, fewer than sixty-four bytes, with the length of all it has
seen.  The invariant (`Holds`) ties the three to the message so far.  A piece keeps it because
blocks can be absorbed in two goes (`absorb_add`) and do not see what stands behind them
(`absorb_append`).
-/
import ShaderReport.MD5

namespace ShaderReport.MD5

/-! ## Blocks -/

/-- Absorbing in two goes. -/
theorem absorb_add (s : State) (first second : Nat) (message : Bytes) :
    absorb s (first + second) message =
      absorb (absorb s first message) second (message.drop (64 * first)) := by
  induction first generalizing s message with
  | zero => rw [Nat.zero_add, Nat.mul_zero, List.drop_zero, absorb]
  | succ first ih =>
      rw [Nat.succ_add, absorb, ih, absorb, List.drop_drop]
      congr 2
      omega

/-- What stands behind the blocks does not matter. -/
theorem absorb_append (s : State) {count : Nat} {message : Bytes}
    (whole : 64 * count ≤ message.length) (behind : Bytes) :
    absorb s count (message ++ behind) = absorb s count message := by
  induction count generalizing s message with
  | zero => rfl
  | succ count ih =>
      have block : 64 ≤ message.length := by omega
      rw [absorb, absorb, List.take_append_of_le_length block, List.drop_append_of_le_length block]
      refine ih _ ?_
      rw [List.length_drop]
      omega

/-- What is put behind a message of a given length. -/
def padding (length : Nat) : Bytes :=
  0x80 :: List.replicate ((119 - length % 64) % 64) 0 ++ Bytes.ofNatLE 8 (8 * length)

theorem padded_eq (message : Bytes) : padded message = message ++ padding message.length := by
  rw [padded, padding, List.append_assoc]

theorem length_digest (message : Bytes) : (digest message).length = 16 := by
  simp [digest]

/-! ## Hashers -/

/-- Something that is fed piece by piece and then asked for a digest. -/
structure Hasher where
  State : Type
  start : State
  consume : State → Bytes → State
  finish : State → Bytes

/-- The digest of a message that comes in pieces. -/
def Hasher.digest (h : Hasher) (pieces : List Bytes) : Bytes :=
  h.finish (pieces.foldl h.consume h.start)

/-- The digest is that of the pieces put together. -/
def Hasher.Faithful (h : Hasher) : Prop :=
  ∀ pieces : List Bytes, h.digest pieces = MD5.digest pieces.flatten

/-! ## Block by block -/

/-- What is known of a message before its end. -/
structure Progress where
  /-- The state after the complete blocks. -/
  state : State
  /-- The bytes behind them. -/
  rest : Bytes
  length : Nat
deriving DecidableEq

namespace Progress

def start : Progress := ⟨.start, [], 0⟩

/-- Absorbs the blocks that a piece completes. -/
def consume (p : Progress) (piece : Bytes) : Progress :=
  let bytes := p.rest ++ piece
  let blocks := bytes.length / 64
  ⟨absorb p.state blocks bytes, bytes.drop (64 * blocks), p.length + piece.length⟩

/-- Absorbs the rest with the padding that the length asks for. -/
def finish (p : Progress) : Bytes :=
  let bytes := p.rest ++ padding p.length
  let s := absorb p.state (bytes.length / 64) bytes
  Bytes.ofUInt32 s.a ++ Bytes.ofUInt32 s.b ++ Bytes.ofUInt32 s.c ++ Bytes.ofUInt32 s.d

/-- What is known is known of this message. -/
structure Holds (p : Progress) (message : Bytes) : Prop where
  state : p.state = absorb .start (message.length / 64) message
  rest : p.rest = message.drop (64 * (message.length / 64))
  length : p.length = message.length

theorem holds_start : start.Holds [] := ⟨rfl, rfl, rfl⟩

section Holds

variable {p : Progress} {message : Bytes} (h : p.Holds message) (behind : Bytes)
include h

theorem Holds.rest_append :
    p.rest ++ behind = (message ++ behind).drop (64 * (message.length / 64)) := by
  rw [h.rest, List.drop_append_of_le_length (Nat.mul_div_le ..)]

theorem Holds.length_rest_append :
    64 * (message.length / 64) + (p.rest ++ behind).length = (message ++ behind).length := by
  have blocks := Nat.mul_div_le message.length 64
  rw [h.rest_append, List.length_drop, List.length_append]
  omega

/-- Absorbing what is complete from here is absorbing it from the start. -/
theorem Holds.absorb_eq :
    absorb p.state ((p.rest ++ behind).length / 64) (p.rest ++ behind) =
      absorb .start ((message ++ behind).length / 64) (message ++ behind) := by
  have goes : (message ++ behind).length / 64 =
      message.length / 64 + (p.rest ++ behind).length / 64 := by
    have length := h.length_rest_append behind
    omega
  rw [goes, absorb_add, absorb_append _ (Nat.mul_div_le ..), ← h.state, ← h.rest_append]

theorem Holds.consume (piece : Bytes) : (p.consume piece).Holds (message ++ piece) where
  state := h.absorb_eq piece
  rest := by
    have length := h.length_rest_append piece
    show (p.rest ++ piece).drop (64 * ((p.rest ++ piece).length / 64)) = _
    generalize (p.rest ++ piece).length = left at length
    rw [h.rest_append, List.drop_drop]
    congr 1
    omega
  length := by
    rw [List.length_append, ← h.length]
    rfl

theorem Holds.finish : p.finish = MD5.digest message := by
  rw [Progress.finish, h.length, MD5.digest, padded_eq, h.absorb_eq]

end Holds

theorem Holds.foldl {p : Progress} {message : Bytes} (h : p.Holds message)
    (pieces : List Bytes) : (pieces.foldl Progress.consume p).Holds (message ++ pieces.flatten) := by
  induction pieces generalizing p message with
  | nil =>
      rw [List.flatten_nil, List.append_nil]
      exact h
  | cons piece rest ih =>
      rw [List.flatten_cons, ← List.append_assoc]
      exact ih (h.consume piece)

end Progress

/-- Absorbs each block as soon as it is complete. -/
def pieceByPiece : Hasher := ⟨Progress, .start, Progress.consume, Progress.finish⟩

theorem faithful_pieceByPiece : pieceByPiece.Faithful := by
  intro pieces
  exact (Progress.holds_start.foldl pieces).finish

/-- The three letters of the standard's example, in two pieces. -/
example : pieceByPiece.digest [[0x61], [0x62, 0x63]] =
    [0x90, 0x01, 0x50, 0x98, 0x3C, 0xD2, 0x4F, 0xB0,
     0xD6, 0x96, 0x3F, 0x7D, 0x28, 0xE1, 0x7F, 0x72] := by
  decide +kernel

end ShaderReport.MD5
