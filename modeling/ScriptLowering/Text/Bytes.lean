/-! # Byte offsets into text

Spans count bytes of the UTF-8 encoding, while text is held as a list of characters. This
module converts between the two: the byte size of a text, the text between two byte offsets,
and whether an offset falls between two characters (a character boundary).
-/

namespace ScriptLowering.Text

/-- The number of bytes of the UTF-8 encoding of a text. -/
def byteSize : List Char → Nat
  | [] => 0
  | c :: rest => c.utf8Size + byteSize rest

/-- The text after its first `offset` bytes; an offset inside a character drops that character. -/
def dropBytes : Nat → List Char → List Char
  | 0, text => text
  | _ + 1, [] => []
  | offset + 1, c :: rest => dropBytes (offset + 1 - c.utf8Size) rest

/-- The longest start of a text whose encoding fits in `count` bytes. -/
def takeBytes : Nat → List Char → List Char
  | _, [] => []
  | count, c :: rest => if c.utf8Size ≤ count then c :: takeBytes (count - c.utf8Size) rest else []

/-- The characters between two byte offsets. -/
def slice (text : List Char) (start stop : Nat) : List Char :=
  takeBytes (stop - start) (dropBytes start text)

/-- Whether a byte offset falls between two characters of a text, or at either end. -/
def isBoundary : List Char → Nat → Bool
  | _, 0 => true
  | [], _ + 1 => false
  | c :: rest, offset + 1 =>
    decide (c.utf8Size ≤ offset + 1) && isBoundary rest (offset + 1 - c.utf8Size)

@[simp] theorem byteSize_nil : byteSize [] = 0 := rfl

@[simp] theorem byteSize_cons (c : Char) (rest : List Char) :
    byteSize (c :: rest) = c.utf8Size + byteSize rest := rfl

@[simp] theorem byteSize_append (front back : List Char) :
    byteSize (front ++ back) = byteSize front + byteSize back := by
  induction front with
  | nil => simp
  | cons c rest ih => simp [ih, Nat.add_assoc]

theorem dropBytes_byteSize_append (front back : List Char) :
    dropBytes (byteSize front) (front ++ back) = back := by
  induction front with
  | nil => cases back <;> rfl
  | cons c rest ih =>
    have size := c.utf8Size_pos
    obtain ⟨k, hk⟩ : ∃ k, c.utf8Size + byteSize rest = k + 1 := ⟨_, (Nat.succ_pred_eq_of_pos (by omega)).symm⟩
    simp only [byteSize_cons, List.cons_append, hk, dropBytes]
    rw [show k + 1 - c.utf8Size = byteSize rest by omega, ih]

theorem takeBytes_byteSize_append (front back : List Char) (c : Char) :
    takeBytes (byteSize front) (front ++ c :: back) = front := by
  induction front with
  | nil =>
    have size := c.utf8Size_pos
    simp only [byteSize_nil, List.nil_append, takeBytes]
    rw [if_neg (by omega)]
  | cons d rest ih =>
    simp only [byteSize_cons, List.cons_append, takeBytes, Nat.le_add_right, ↓reduceIte,
      Nat.add_sub_cancel_left, ih]

theorem takeBytes_byteSize (text : List Char) : takeBytes (byteSize text) text = text := by
  induction text with
  | nil => rfl
  | cons d rest ih =>
    simp only [byteSize_cons, takeBytes, Nat.le_add_right, ↓reduceIte, Nat.add_sub_cancel_left, ih]

/-- Slicing between the offsets that surround a middle part gives that part. -/
theorem slice_append (front middle back : List Char) :
    slice (front ++ middle ++ back) (byteSize front) (byteSize front + byteSize middle) = middle := by
  unfold slice
  rw [Nat.add_sub_cancel_left, List.append_assoc, dropBytes_byteSize_append]
  cases back with
  | nil => simp [takeBytes_byteSize]
  | cons c rest => exact takeBytes_byteSize_append middle rest c

end ScriptLowering.Text
