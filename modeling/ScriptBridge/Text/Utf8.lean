/-!
UTF-8 read leniently: each longest start of a character that cannot be completed becomes one
replacement character. Valid UTF-8 is read as it is.
-/

namespace ScriptBridge.Text

def replacement : Char := '\ufffd'

private def isTail (b : UInt8) : Bool := 0x80 ≤ b && b ≤ 0xbf

/-- How many bytes follow the first one, and the range of the second byte. -/
private def shape (b : UInt8) : Option (Nat × UInt8 × UInt8) :=
  if 0xc2 ≤ b && b ≤ 0xdf then some (1, 0x80, 0xbf)
  else if b == 0xe0 then some (2, 0xa0, 0xbf)
  else if b == 0xed then some (2, 0x80, 0x9f)
  else if 0xe1 ≤ b && b ≤ 0xef then some (2, 0x80, 0xbf)
  else if b == 0xf0 then some (3, 0x90, 0xbf)
  else if b == 0xf4 then some (3, 0x80, 0x8f)
  else if 0xf1 ≤ b && b ≤ 0xf3 then some (3, 0x80, 0xbf)
  else none

/-- Where the reader stands: between characters, or with `owed` more bytes to come. -/
inductive Utf8State where
  | start
  | inside (owed : Nat) (low high : UInt8) (value : Nat)

private def begin (b : UInt8) : Utf8State × List Char :=
  if b < 0x80 then (.start, [Char.ofNat b.toNat])
  else match shape b with
    | some (owed, low, high) =>
      let bits := if owed = 1 then b.toNat % 32 else if owed = 2 then b.toNat % 16 else b.toNat % 8
      (.inside owed low high bits, [])
    | none => (.start, [replacement])

/-- Reads one byte; the characters that it completes come out. -/
def Utf8State.step (state : Utf8State) (b : UInt8) : Utf8State × List Char :=
  match state with
  | .start => begin b
  | .inside owed low high value =>
    if low ≤ b && b ≤ high then
      let value := 64 * value + b.toNat % 64
      if owed ≤ 1 then (.start, [Char.ofNat value]) else (.inside (owed - 1) 0x80 0xbf value, [])
    else
      let (next, out) := begin b
      (next, replacement :: out)

def decodeFrom : Utf8State → List UInt8 → List Char
  | .start, [] => []
  | .inside .., [] => [replacement]
  | state, b :: rest =>
    let (next, out) := state.step b
    out ++ decodeFrom next rest

def decodeLossy (bytes : List UInt8) : String := String.ofList (decodeFrom .start bytes)

/-- The bytes that may follow the first one of a character. -/
private theorem shape_two {b : UInt8} (low : 0xc2 ≤ b.toNat) (high : b.toNat ≤ 0xdf) :
    shape b = some (1, 0x80, 0xbf) := by
  unfold shape
  rw [if_pos (by simp [UInt8.le_iff_toNat_le, low, high])]

private theorem shape_three {b : UInt8} (low : 0xe0 ≤ b.toNat) (high : b.toNat ≤ 0xef) :
    shape b = some (2, if b.toNat = 0xe0 then 0xa0 else 0x80,
      if b.toNat = 0xed then 0x9f else 0xbf) := by
  have same (n : UInt8) : b = n ↔ b.toNat = n.toNat := UInt8.toNat_inj.symm
  simp only [shape, UInt8.le_iff_toNat_le, beq_iff_eq, same, Bool.and_eq_true, decide_eq_true_eq]
  simp
  grind

private theorem shape_four {b : UInt8} (low : 0xf0 ≤ b.toNat) (high : b.toNat ≤ 0xf4) :
    shape b = some (3, if b.toNat = 0xf0 then 0x90 else 0x80,
      if b.toNat = 0xf4 then 0x8f else 0xbf) := by
  have same (n : UInt8) : b = n ↔ b.toNat = n.toNat := UInt8.toNat_inj.symm
  simp only [shape, UInt8.le_iff_toNat_le, beq_iff_eq, same, Bool.and_eq_true, decide_eq_true_eq]
  simp
  grind

/-- A byte of a number below 256. -/
private theorem toNat_byte {n : Nat} (small : n < 256) : (UInt8.ofNat n).toNat = n := by
  simp [Nat.mod_eq_of_lt small]

private theorem decodeFrom_lead {b low high : UInt8} {owed : Nat} (large : 0x80 ≤ b.toNat)
    (shaped : shape b = some (owed, low, high)) (rest : List UInt8) :
    decodeFrom .start (b :: rest) = decodeFrom (.inside owed low high
      (if owed = 1 then b.toNat % 32 else if owed = 2 then b.toNat % 16 else b.toNat % 8)) rest := by
  have start : ¬ b < 0x80 := by
    simpa [UInt8.lt_iff_toNat_lt] using large
  simp [decodeFrom, Utf8State.step, begin, start, shaped]

private theorem decodeFrom_tail {owed value : Nat} {b low high : UInt8}
    (within : low.toNat ≤ b.toNat ∧ b.toNat ≤ high.toNat) (rest : List UInt8) :
    decodeFrom (.inside owed low high value) (b :: rest) =
      if owed ≤ 1 then Char.ofNat (64 * value + b.toNat % 64) :: decodeFrom .start rest
      else decodeFrom (.inside (owed - 1) 0x80 0xbf (64 * value + b.toNat % 64)) rest := by
  have inside : (low ≤ b && b ≤ high) = true := by
    simpa [UInt8.le_iff_toNat_le] using within
  simp only [decodeFrom, Utf8State.step, inside, if_true]
  split <;> rfl

/-- The bytes of a character are read as that character. -/
theorem decodeFrom_utf8EncodeChar (c : Char) (rest : List UInt8) :
    decodeFrom .start (String.utf8EncodeChar c ++ rest) = c :: decodeFrom .start rest := by
  have valid : c.val.toNat < 0xd800 ∨ 0xdfff < c.val.toNat ∧ c.val.toNat < 0x110000 := c.valid
  have same : c = Char.ofNat c.val.toNat := (Char.ofNat_toNat c).symm
  unfold String.utf8EncodeChar
  generalize c.val.toNat = v at valid same
  subst same
  have last := toNat_byte (n := v % 64 + 128) (by omega)
  have middle := toNat_byte (n := v / 64 % 64 + 128) (by omega)
  dsimp only
  split
  · have byte := toNat_byte (n := v) (by omega)
    have start : UInt8.ofNat v < 0x80 := by
      rw [UInt8.lt_iff_toNat_lt, byte]
      exact Nat.lt_succ_of_le ‹_›
    simp [decodeFrom, Utf8State.step, begin, start, byte]
  split
  · have lead := toNat_byte (n := v / 64 % 32 + 192) (by omega)
    have shaped := shape_two (b := UInt8.ofNat (v / 64 % 32 + 192)) (by omega) (by omega)
    simp only [List.cons_append, List.nil_append]
    rw [decodeFrom_lead (by omega) shaped, decodeFrom_tail (by rw [last]; simp; omega)]
    simp only [lead, last, if_true, Nat.le_refl]
    congr 2
    omega
  split
  · have lead := toNat_byte (n := v / 4096 % 16 + 224) (by omega)
    have shaped := shape_three (b := UInt8.ofNat (v / 4096 % 16 + 224)) (by omega) (by omega)
    rw [lead] at shaped
    simp only [List.cons_append, List.nil_append]
    rw [decodeFrom_lead (by omega) shaped,
      decodeFrom_tail (by rw [middle]; constructor <;> split <;> simp <;> omega), if_neg (by omega),
      decodeFrom_tail (by rw [last]; simp; omega), if_pos (by omega)]
    simp only [lead, middle, last]
    congr 2
    simp
    omega
  · have lead := toNat_byte (n := v / 262144 % 8 + 240) (by omega)
    have second := toNat_byte (n := v / 4096 % 64 + 128) (by omega)
    have shaped := shape_four (b := UInt8.ofNat (v / 262144 % 8 + 240)) (by omega) (by omega)
    rw [lead] at shaped
    simp only [List.cons_append, List.nil_append]
    rw [decodeFrom_lead (by omega) shaped,
      decodeFrom_tail (by rw [second]; constructor <;> split <;> simp <;> omega), if_neg (by omega),
      decodeFrom_tail (by rw [middle]; simp; omega), if_neg (by omega),
      decodeFrom_tail (by rw [last]; simp; omega), if_pos (by omega)]
    simp only [lead, second, middle, last]
    congr 2
    simp
    omega

private theorem toList_loop (bytes : ByteArray) (i : Nat) (before : List UInt8) :
    ByteArray.toList.loop bytes i before = before.reverse ++ bytes.data.toList.drop i := by
  induction i, before using ByteArray.toList.loop.induct bytes with
  | case1 i before inside ih =>
    have byte : bytes.get! i = bytes.data.toList[i] := getElem!_pos bytes.data i inside
    have first := List.drop_eq_getElem_cons (l := bytes.data.toList) (i := i) inside
    rw [ByteArray.toList.loop, if_pos inside, ih, List.reverse_cons, List.append_assoc, first, byte]
    rfl
  | case2 i before outside =>
    rw [ByteArray.toList.loop, if_neg outside, List.drop_eq_nil_of_le (Nat.le_of_not_lt outside),
      List.append_nil]

/-- The bytes of a text are read as that text. -/
theorem decodeLossy_toUTF8 (s : String) : decodeLossy s.toUTF8.toList = s := by
  have bytes : s.toUTF8.toList = s.toList.flatMap String.utf8EncodeChar := by
    rw [ByteArray.toList, toList_loop, String.toUTF8_eq_toByteArray, ← String.utf8Encode_toList,
      List.utf8Encode, List.toList_data_toByteArray]
    rfl
  have read (chars : List Char) :
      decodeFrom .start (chars.flatMap String.utf8EncodeChar) = chars := by
    induction chars with
    | nil => rfl
    | cons c rest ih => rw [List.flatMap_cons, decodeFrom_utf8EncodeChar, ih]
  rw [decodeLossy, bytes, read, String.ofList_toList]

end ScriptBridge.Text
