import MqttClient.Foundation.CheckedMemory
import MqttClient.Foundation.Rfc4648

/-! # Base 64

`Base64.c` of the client. A size is an unsigned `int`; both loops run a pointer through the
caller's buffer and count what they have written, and every use of memory is checked.
-/

namespace MqttClient.Base64

open Foundation Foundation.CheckedMemory

/-- `NV`, the table's entry for a character outside of the alphabet. -/
def NV : UInt8 := 64

def BASE64_DECODE_TABLE : List UInt8 :=
  [NV, NV, NV, NV, NV, NV, NV, NV, NV, NV, NV, NV, NV, NV, NV, NV,
   NV, NV, NV, NV, NV, NV, NV, NV, NV, NV, NV, NV, NV, NV, NV, NV,
   NV, NV, NV, NV, NV, NV, NV, NV, NV, NV, NV, 62, NV, NV, NV, 63,
   52, 53, 54, 55, 56, 57, 58, 59, 60, 61, NV, NV, NV, NV, NV, NV,
   NV,  0,  1,  2,  3,  4,  5,  6,  7,  8,  9, 10, 11, 12, 13, 14,
   15, 16, 17, 18, 19, 20, 21, 22, 23, 24, 25, NV, NV, NV, NV, NV,
   NV, 26, 27, 28, 29, 30, 31, 32, 33, 34, 35, 36, 37, 38, 39, 40,
   41, 42, 43, 44, 45, 46, 47, 48, 49, 50, 51, NV, NV, NV, NV, NV] ++
  List.replicate 128 NV

def BASE64_ENCODE_TABLE : List UInt8 :=
  ("ABCDEFGHIJKLMNOPQRSTUVWXYZ" ++ "abcdefghijklmnopqrstuvwxyz" ++ "0123456789+/=").toList.map
    Char.toUInt8

/-- The buffer behind `out`, with the place of the pointer and `out_count`. -/
structure Output where
  memory : List UInt8
  out : Nat
  out_count : UInt32
  deriving DecidableEq, Repr

namespace Output

/-- `*out = value` -/
def store (output : Output) (value : UInt8) : Except Fault Output := do
  let memory ← writeAt output.memory output.out value
  return { output with memory }

/-- `*out |= value` -/
def storeOr (output : Output) (value : UInt8) : Except Fault Output := do
  let old ← readAt output.memory output.out
  output.store (old ||| value)

/-- `++out; ++out_count` -/
def advance (output : Output) : Output :=
  { output with out := output.out + 1, out_count := output.out_count + 1 }

end Output

def finish (out_len : UInt32) (output : Output) : Except Fault (UInt32 × List UInt8) :=
  if output.out_count ≤ out_len then do
    let output ← if output.out_count < out_len then output.store 0 else pure output
    return (output.out_count, output.memory)
  else
    .ok (0, output.memory)

/-! ## Decoding -/

/-- `BASE64_DECODE_TABLE[(int)(*in)]`. A `char` is signed, so from 128 on the index is
negative. -/
def decodeCharacter (character : UInt8) : Except Fault UInt8 :=
  if character < 128 then readAt BASE64_DECODE_TABLE character.toNat
  else .error (.outside character.toNat)

/-- The bytes of one group, and whether `in_len` is set to zero. -/
def decodeGroup (out_len : UInt32) (c0 c1 c2 c3 : UInt8) (output : Output) :
    Except Fault (Bool × Output) := do
  let output ← output.store (c0 <<< 2)
  let output ← output.storeOr ((c1 &&& ~~~0xF) >>> 4)
  let output := output.advance
  if output.out_count < out_len then
    let output ← output.store ((c1 &&& 0xF) <<< 4)
    if c2 < NV then
      let output ← output.storeOr ((c2 &&& ~~~0x3) >>> 2)
      let output := output.advance
      if output.out_count < out_len then
        let output ← output.store ((c2 &&& 0x3) <<< 6)
        if c3 < NV then
          let output ← output.storeOr c3
          return (false, output.advance)
        else
          return (true, output)
      else
        return (false, output)
    else
      return (true, output)
  else
    return (false, output)

/-- The loop of `Base64_decode` over the characters that are left. -/
def decodeLoop (out_len : UInt32) : List UInt8 → Output → Except Fault Output
  | first :: second :: third :: fourth :: input, output =>
      if output.out_count < out_len then do
        let c0 ← decodeCharacter first
        let c1 ← decodeCharacter second
        let c2 ← decodeCharacter third
        let c3 ← decodeCharacter fourth
        let (stopped, output) ← decodeGroup out_len c0 c1 c2 c3 output
        if stopped then return output
        decodeLoop out_len input output
      else
        .ok output
  | _, output => .ok output

/-- `Base64_decode`, with the buffer it leaves behind. -/
def decode (out : List UInt8) (out_len : UInt32) (input : List UInt8) :
    Except Fault (UInt32 × List UInt8) := do
  let output ← decodeLoop out_len input ⟨out, 0, 0⟩
  finish out_len output

/-! ## Encoding -/

/-- `for ( i = 0; i < 4 && out_count <= out_len; ++i, ++out )` -/
def encodeCharacters (out_len : UInt32) : (c : List UInt8) → Output → Except Fault Output
  | [], output => .ok output
  | index :: c, output =>
      if output.out_count ≤ out_len then do
        let character ← readAt BASE64_ENCODE_TABLE index.toNat
        let output ← output.store character
        encodeCharacters out_len c { output with out := output.out + 1 }
      else
        .ok output

def encodeGroup (out_len : UInt32) (c : List UInt8) (output : Output) : Except Fault Output :=
  encodeCharacters out_len c { output with out_count := output.out_count + 4 }

/-- The loop of `Base64_encode` over the bytes that are left, of which a round takes up to
three. The index 64 is the character `=`. -/
def encodeLoop (out_len : UInt32) : List UInt8 → Output → Except Fault Output
  | [], output => .ok output
  | [first], output =>
      if output.out_count < out_len then
        encodeGroup out_len [(first &&& ~~~0x3) >>> 2, (first &&& 0x3) <<< 4, 64, 64] output
      else
        .ok output
  | [first, second], output =>
      if output.out_count < out_len then
        encodeGroup out_len
          [(first &&& ~~~0x3) >>> 2, (first &&& 0x3) <<< 4 ||| (second &&& ~~~0xF) >>> 4,
            (second &&& 0xF) <<< 2, 64] output
      else
        .ok output
  | first :: second :: third :: input, output =>
      if output.out_count < out_len then do
        let output ← encodeGroup out_len
          [(first &&& ~~~0x3) >>> 2, (first &&& 0x3) <<< 4 ||| (second &&& ~~~0xF) >>> 4,
            (second &&& 0xF) <<< 2 ||| (third &&& ~~~0x3F) >>> 6, third &&& 0x3F] output
        encodeLoop out_len input output
      else
        .ok output

/-- `Base64_encode`, with the buffer it leaves behind. -/
def encode (out : List UInt8) (out_len : UInt32) (input : List UInt8) :
    Except Fault (UInt32 × List UInt8) := do
  let output ← encodeLoop out_len input ⟨out, 0, 0⟩
  finish out_len output

/-! ## Lengths -/

/-- `in[index] == '=' ? 1u : 0u` -/
def countPadding (input : List UInt8) (index : UInt32) : Except Fault UInt32 := do
  let character ← readAt input index.toNat
  return if character = Rfc4648.padding then 1 else 0

def decodeLength (input : Option (List UInt8)) (in_len : UInt32) : Except Fault UInt32 :=
  match input with
  | some input => do
      let pad ← if in_len > 1 then countPadding input (in_len - 2) else pure 0
      let more ← if in_len > 0 then countPadding input (in_len - 1) else pure 0
      return in_len / 4 * 3 - (pad + more)
  | none => .ok (in_len / 4 * 3)

def encodeLength (in_len : UInt32) : UInt32 := (4 * in_len / 3 + 3) &&& ~~~0x3

/-! ## Six bits at a time -/

section Bits

variable (byte : UInt8) {mask shift : UInt8}

theorem toNat_high (low : Nat) (shifted : shift.toNat % 8 = low)
    (masked : mask.toNat / 2 ^ low = 2 ^ (8 - low) - 1) :
    ((byte &&& mask) >>> shift).toNat = byte.toNat / 2 ^ low := by
  have small : low < 8 := shifted ▸ Nat.mod_lt _ (by decide)
  have bound : byte.toNat / 2 ^ low < 2 ^ (8 - low) := by
    apply Nat.div_lt_of_lt_mul
    rw [← Nat.pow_add, Nat.add_sub_cancel' (Nat.le_of_lt small)]
    exact byte.toNat_lt
  rw [UInt8.toNat_shiftRight, shifted, UInt8.toNat_and, Nat.shiftRight_eq_div_pow,
    Nat.and_div_two_pow, masked, Nat.and_two_pow_sub_one_eq_mod, Nat.mod_eq_of_lt bound]

theorem toNat_low (width low : Nat) (shifted : shift.toNat % 8 = low)
    (masked : mask.toNat = 2 ^ width - 1) (room : width + low ≤ 8) :
    ((byte &&& mask) <<< shift).toNat = byte.toNat % 2 ^ width * 2 ^ low := by
  have bound : byte.toNat % 2 ^ width * 2 ^ low < 2 ^ 8 := by
    calc byte.toNat % 2 ^ width * 2 ^ low
        < 2 ^ width * 2 ^ low :=
          Nat.mul_lt_mul_of_pos_right (Nat.mod_lt _ (Nat.two_pow_pos _)) (Nat.two_pow_pos _)
      _ = 2 ^ (width + low) := (Nat.pow_add ..).symm
      _ ≤ 2 ^ 8 := Nat.pow_le_pow_right (by decide) room
  rw [UInt8.toNat_shiftLeft, shifted, UInt8.toNat_and, masked, Nat.and_two_pow_sub_one_eq_mod,
    Nat.shiftLeft_eq, Nat.mod_eq_of_lt bound]

theorem toNat_high_six : ((byte &&& ~~~0x3) >>> 2).toNat = byte.toNat / 4 :=
  toNat_high byte 2 (by decide) (by decide)

theorem toNat_high_four : ((byte &&& ~~~0xF) >>> 4).toNat = byte.toNat / 16 :=
  toNat_high byte 4 (by decide) (by decide)

theorem toNat_high_two : ((byte &&& ~~~0x3F) >>> 6).toNat = byte.toNat / 64 :=
  toNat_high byte 6 (by decide) (by decide)

theorem toNat_low_two : ((byte &&& 0x3) <<< 4).toNat = byte.toNat % 4 * 16 :=
  toNat_low byte 2 4 (by decide) (by decide) (by decide)

theorem toNat_low_four : ((byte &&& 0xF) <<< 2).toNat = byte.toNat % 16 * 4 :=
  toNat_low byte 4 2 (by decide) (by decide) (by decide)

theorem toNat_low_six : (byte &&& 0x3F).toNat = byte.toNat % 64 := by
  rw [UInt8.toNat_and]
  exact Nat.and_two_pow_sub_one_eq_mod _ 6

theorem toNat_shift_two : (byte <<< 2).toNat = byte.toNat % 64 * 4 := by
  rw [UInt8.toNat_shiftLeft, Nat.shiftLeft_eq]
  change byte.toNat * 4 % 256 = byte.toNat % 64 * 4
  omega

theorem toNat_shift_four : ((byte &&& 0xF) <<< 4).toNat = byte.toNat % 16 * 16 :=
  toNat_low byte 4 4 (by decide) (by decide) (by decide)

theorem toNat_shift_six : ((byte &&& 0x3) <<< 6).toNat = byte.toNat % 4 * 64 :=
  toNat_low byte 2 6 (by decide) (by decide) (by decide)

theorem toNat_or {high low : UInt8} (shift : Nat) (multiple : 2 ^ shift ∣ high.toNat)
    (small : low.toNat < 2 ^ shift) : (high ||| low).toNat = high.toNat + low.toNat := by
  obtain ⟨factor, value⟩ := multiple
  rw [UInt8.toNat_or, value, Nat.two_pow_add_eq_or_of_lt small]

end Bits

/-! ## The tables -/

theorem encodeTable_eq : BASE64_ENCODE_TABLE =
    (List.range 64).map Rfc4648.symbol ++ [Rfc4648.padding] := by
  decide +kernel

theorem encodeTable_symbol {bits : Nat} (small : bits < 64) :
    BASE64_ENCODE_TABLE[bits]? = some (Rfc4648.symbol bits) := by
  simp [encodeTable_eq, List.getElem?_append_left, small]

theorem encodeTable_padding :
    BASE64_ENCODE_TABLE[(64 : UInt8).toNat]? = some Rfc4648.padding := by
  simp [encodeTable_eq]

theorem decodeTable_eq : BASE64_DECODE_TABLE = (List.range 256).map fun code =>
    (Rfc4648.sextet (UInt8.ofNat code)).elim NV UInt8.ofNat := by
  decide +kernel

theorem decodeCharacter_eq {character : UInt8} (ascii : character < 128) :
    decodeCharacter character =
      .ok ((Rfc4648.sextet character).elim NV UInt8.ofNat) := by
  have inside : character.toNat < 256 := character.toNat_lt
  have table : BASE64_DECODE_TABLE[character.toNat]? =
      some ((Rfc4648.sextet character).elim NV UInt8.ofNat) := by
    simp [decodeTable_eq, inside]
  simp [decodeCharacter, ascii, readAt, table]

theorem symbol_ascii {bits : Nat} (small : bits < 64) : Rfc4648.symbol bits < 128 := by
  revert bits
  decide

theorem decodeCharacter_symbol {bits : Nat} (small : bits < 64) :
    decodeCharacter (Rfc4648.symbol bits) = .ok (UInt8.ofNat bits) := by
  rw [decodeCharacter_eq (symbol_ascii small), Rfc4648.sextet_symbol small, Option.elim]

theorem decodeCharacter_padding : decodeCharacter Rfc4648.padding = .ok NV := by
  rw [decodeCharacter_eq (by decide), Rfc4648.sextet_padding, Option.elim]

/-! ## Between what is written and what is left -/

def Output.between (written left : List UInt8) : Output :=
  ⟨written ++ left, written.length, UInt32.ofNat written.length⟩

section Between

variable {out_len : UInt32} {written left : List UInt8} {old value : UInt8}

@[simp] theorem store_between :
    (Output.between written (old :: left)).store value =
      .ok (.between written (value :: left)) := by
  simp only [Output.between, Output.store, writeAt_append]
  rfl

@[simp] theorem storeOr_between :
    (Output.between written (old :: left)).storeOr value =
      .ok (.between written ((old ||| value) :: left)) := by
  have read : readAt (Output.between written (old :: left)).memory
      (Output.between written (old :: left)).out = .ok old := readAt_append written left old
  simp only [Output.storeOr, read]
  exact store_between

@[simp] theorem advance_between :
    (Output.between written (old :: left)).advance = .between (written ++ [old]) left := by
  simp [Output.between, Output.advance, UInt32.ofNat_add]

theorem count_lt_iff (small : written.length < 2 ^ 32) :
    (Output.between written left).out_count < out_len ↔ written.length < out_len.toNat := by
  simp only [Output.between, UInt32.lt_iff_toNat_lt, UInt32.toNat_ofNat',
    Nat.mod_eq_of_lt small]

theorem count_le_iff (small : written.length < 2 ^ 32) :
    (Output.between written left).out_count ≤ out_len ↔ written.length ≤ out_len.toNat := by
  simp only [Output.between, UInt32.le_iff_toNat_le, UInt32.toNat_ofNat',
    Nat.mod_eq_of_lt small]

theorem finish_between (fits : written.length ≤ out_len.toNat)
    (room : out_len.toNat ≤ written.length + left.length) :
    finish out_len (.between written left) =
      .ok (UInt32.ofNat written.length,
        written ++ if written.length < out_len.toNat then 0 :: left.drop 1 else left) := by
  have small : written.length < 2 ^ 32 := Nat.lt_of_le_of_lt fits out_len.toNat_lt
  by_cases more : written.length < out_len.toNat
  · cases left with
    | nil =>
        rw [List.length_nil] at room
        omega
    | cons old left =>
        simp only [finish, (count_le_iff small).mpr fits, (count_lt_iff small).mpr more,
          store_between, if_pos more, if_true]
        rfl
  · have none : ¬ (Output.between written left).out_count < out_len :=
      fun less => more ((count_lt_iff small).mp less)
    simp only [finish, (count_le_iff small).mpr fits, none, if_neg more, if_true, if_false]
    rfl

theorem finish_store (small : written.length < out_len.toNat)
    (room : out_len.toNat ≤ written.length + (old :: left).length) :
    finish out_len (.between written (value :: left)) =
      finish out_len (.between written (old :: left)) := by
  have same : ∀ byte : UInt8, finish out_len (.between written (byte :: left)) =
      .ok (UInt32.ofNat written.length, written ++ 0 :: left) := by
    intro byte
    rw [finish_between (Nat.le_of_lt small) (by simpa using room), if_pos small,
      List.drop_one, List.tail_cons]
  rw [same, same]

end Between

/-! ## Decoding a group -/

section Join

variable {c0 c1 c2 c3 : Nat}

theorem joinFirst (_ : c0 < 64) (small1 : c1 < 64) :
    UInt8.ofNat c0 <<< 2 ||| (UInt8.ofNat c1 &&& ~~~0xF) >>> 4 =
      UInt8.ofNat (c0 * 4 + c1 / 16) := by
  apply UInt8.toNat_inj.mp
  rw [toNat_or 2] <;>
    simp only [toNat_shift_two, toNat_high_four, UInt8.toNat_ofNat'] <;> omega

theorem joinSecond (_ : c1 < 64) (small2 : c2 < 64) :
    (UInt8.ofNat c1 &&& 0xF) <<< 4 ||| (UInt8.ofNat c2 &&& ~~~0x3) >>> 2 =
      UInt8.ofNat (c1 % 16 * 16 + c2 / 4) := by
  apply UInt8.toNat_inj.mp
  rw [toNat_or 4] <;>
    simp only [toNat_shift_four, toNat_high_six, UInt8.toNat_ofNat'] <;> omega

theorem joinThird (_ : c2 < 64) (small3 : c3 < 64) :
    (UInt8.ofNat c2 &&& 0x3) <<< 6 ||| UInt8.ofNat c3 =
      UInt8.ofNat (c2 % 4 * 64 + c3) := by
  apply UInt8.toNat_inj.mp
  rw [toNat_or 6] <;>
    simp only [toNat_shift_six, UInt8.toNat_ofNat'] <;> omega

theorem ofNat_lt_NV (small2 : c2 < 64) : UInt8.ofNat c2 < NV := by
  rw [UInt8.lt_iff_toNat_lt, UInt8.toNat_ofNat', Nat.mod_eq_of_lt (by omega)]
  exact small2

end Join

section Group

variable {out_len : UInt32} {written left : List UInt8} {c0 c1 c2 c3 : Nat}
  {old second third : UInt8}

theorem decodeGroup_three (small0 : c0 < 64) (small1 : c1 < 64) (small2 : c2 < 64)
    (small3 : c3 < 64) (fits : written.length + 3 ≤ out_len.toNat) :
    decodeGroup out_len (.ofNat c0) (.ofNat c1) (.ofNat c2) (.ofNat c3)
        (.between written (old :: second :: third :: left)) =
      .ok (false, .between
        (written ++ [UInt8.ofNat (c0 * 4 + c1 / 16), UInt8.ofNat (c1 % 16 * 16 + c2 / 4),
          UInt8.ofNat (c2 % 4 * 64 + c3)]) left) := by
  have bound := out_len.toNat_lt
  have moreSecond : written.length + 1 < out_len.toNat := by omega
  have moreThird : written.length + 2 < out_len.toNat := by omega
  have smallSecond := Nat.lt_trans moreSecond bound
  have smallThird := Nat.lt_trans moreThird bound
  simp [decodeGroup, joinFirst, joinSecond, joinThird, ofNat_lt_NV, count_lt_iff, pure,
    Except.pure, -UInt8.ofNat_add, -UInt8.ofNat_mul, *]

theorem decodeGroup_two (small0 : c0 < 64) (small1 : c1 < 64) (small2 : c2 < 64)
    (fits : written.length + 2 ≤ out_len.toNat)
    (room : out_len.toNat ≤ written.length + (old :: second :: left).length) :
    ∃ stopped output,
      decodeGroup out_len (.ofNat c0) (.ofNat c1) (.ofNat c2) NV
          (.between written (old :: second :: left)) = .ok (stopped, output) ∧
        finish out_len output = finish out_len (.between
          (written ++ [UInt8.ofNat (c0 * 4 + c1 / 16), UInt8.ofNat (c1 % 16 * 16 + c2 / 4)])
          left) := by
  have bound := out_len.toNat_lt
  have moreSecond : written.length + 1 < out_len.toNat := by omega
  have smallSecond := Nat.lt_trans moreSecond bound
  have smallThird := Nat.lt_of_le_of_lt fits bound
  by_cases moreThird : written.length + 2 < out_len.toNat
  · cases left with
    | nil =>
        rw [List.length_cons, List.length_cons, List.length_nil] at room
        omega
    | cons third left =>
        refine ⟨true, .between _ ((UInt8.ofNat c2 &&& 0x3) <<< 6 :: left), ?_,
          finish_store ?_ ?_⟩
        · simp [decodeGroup, joinFirst, joinSecond, ofNat_lt_NV, count_lt_iff, pure,
            Except.pure, -UInt8.ofNat_add, -UInt8.ofNat_mul, *]
        · simpa using moreThird
        · simp only [List.length_append, List.length_cons, List.length_nil] at room ⊢
          omega
  · refine ⟨false, _, ?_, rfl⟩
    simp [decodeGroup, joinFirst, joinSecond, ofNat_lt_NV, count_lt_iff, pure, Except.pure,
      -UInt8.ofNat_add, -UInt8.ofNat_mul, *]

theorem decodeGroup_one (small0 : c0 < 64) (small1 : c1 < 64)
    (fits : written.length + 1 ≤ out_len.toNat)
    (room : out_len.toNat ≤ written.length + (old :: left).length) :
    ∃ stopped output,
      decodeGroup out_len (.ofNat c0) (.ofNat c1) NV NV (.between written (old :: left)) =
          .ok (stopped, output) ∧
        finish out_len output = finish out_len
          (.between (written ++ [UInt8.ofNat (c0 * 4 + c1 / 16)]) left) := by
  have bound := out_len.toNat_lt
  have smallSecond := Nat.lt_of_le_of_lt fits bound
  by_cases moreSecond : written.length + 1 < out_len.toNat
  · cases left with
    | nil =>
        rw [List.length_cons, List.length_nil] at room
        omega
    | cons second left =>
        refine ⟨true, .between _ ((UInt8.ofNat c1 &&& 0xF) <<< 4 :: left), ?_,
          finish_store ?_ ?_⟩
        · simp [decodeGroup, joinFirst, count_lt_iff, pure, Except.pure, -UInt8.ofNat_add,
            -UInt8.ofNat_mul, *]
        · simpa using moreSecond
        · simp only [List.length_append, List.length_cons, List.length_nil] at room ⊢
          omega
  · refine ⟨false, _, ?_, rfl⟩
    simp [decodeGroup, joinFirst, count_lt_iff, pure, Except.pure, -UInt8.ofNat_add,
      -UInt8.ofNat_mul, *]

end Group

section Round

variable {out_len : UInt32} {output next : Output} {first second third fourth : UInt8}
  {c0 c1 c2 c3 : UInt8} {input : List UInt8}

theorem decodeLoop_next (more : output.out_count < out_len)
    (read0 : decodeCharacter first = .ok c0) (read1 : decodeCharacter second = .ok c1)
    (read2 : decodeCharacter third = .ok c2) (read3 : decodeCharacter fourth = .ok c3)
    (decoded : decodeGroup out_len c0 c1 c2 c3 output = .ok (false, next)) :
    decodeLoop out_len (first :: second :: third :: fourth :: input) output =
      decodeLoop out_len input next := by
  rw [decodeLoop, if_pos more, read0, read1, read2, read3]
  simp [decoded]

theorem decodeLoop_last {stopped : Bool} (more : output.out_count < out_len)
    (read0 : decodeCharacter first = .ok c0) (read1 : decodeCharacter second = .ok c1)
    (read2 : decodeCharacter third = .ok c2) (read3 : decodeCharacter fourth = .ok c3)
    (decoded : decodeGroup out_len c0 c1 c2 c3 output = .ok (stopped, next)) :
    decodeLoop out_len [first, second, third, fourth] output = .ok next := by
  rw [decodeLoop, if_pos more, read0, read1, read2, read3]
  cases stopped <;> simp [decoded, decodeLoop, pure, Except.pure]

end Round

theorem exists_cons_of_le {left : List UInt8} {count : Nat} (room : count + 1 ≤ left.length) :
    ∃ old rest, left = old :: rest ∧ count ≤ rest.length := by
  cases left with
  | nil => exact absurd room (Nat.not_succ_le_zero count)
  | cons old rest => exact ⟨old, rest, rfl, Nat.le_of_succ_le_succ room⟩

theorem decodeLoop_finish (out_len : UInt32) (input : List UInt8) {written left : List UInt8}
    (fits : written.length + input.length ≤ out_len.toNat)
    (room : out_len.toNat ≤ written.length + left.length) :
    (decodeLoop out_len (Rfc4648.encode input) (.between written left) >>= finish out_len) =
      finish out_len (.between (written ++ input) (left.drop input.length)) := by
  have bound := out_len.toNat_lt
  induction input using Rfc4648.encode.induct generalizing written left with
  | case1 => simp [Rfc4648.encode, decodeLoop]
  | case2 first =>
      have byte := first.toNat_lt
      simp only [List.length_cons, List.length_nil] at fits
      obtain ⟨old, left, rfl, -⟩ : ∃ old rest, left = old :: rest ∧ 0 ≤ rest.length :=
        exists_cons_of_le (by omega)
      have c0 : first.toNat / 4 < 64 := by omega
      have c1 : first.toNat % 4 * 16 < 64 := by omega
      have more : (Output.between written (old :: left)).out_count < out_len :=
        (count_lt_iff (by omega)).mpr (by omega)
      obtain ⟨stopped, output, decoded, finished⟩ := decodeGroup_one c0 c1 fits room
      have value : first.toNat / 4 * 4 + first.toNat % 4 * 16 / 16 = first.toNat := by omega
      rw [value, UInt8.ofNat_toNat] at finished
      rw [Rfc4648.encode_one, decodeLoop_last more (decodeCharacter_symbol c0)
        (decodeCharacter_symbol c1) decodeCharacter_padding decodeCharacter_padding decoded]
      exact finished
  | case3 first second =>
      have byteSecond := second.toNat_lt
      simp only [List.length_cons, List.length_nil] at fits
      obtain ⟨old, left, rfl, inside⟩ : ∃ old rest, left = old :: rest ∧ 1 ≤ rest.length :=
        exists_cons_of_le (by omega)
      obtain ⟨old', left, rfl, -⟩ := exists_cons_of_le inside
      have byteFirst := first.toNat_lt
      have c0 : first.toNat / 4 < 64 := by omega
      have c1 : first.toNat % 4 * 16 + second.toNat / 16 < 64 := by omega
      have c2 : second.toNat % 16 * 4 < 64 := by omega
      have more : (Output.between written (old :: old' :: left)).out_count < out_len :=
        (count_lt_iff (by omega)).mpr (by omega)
      obtain ⟨stopped, output, decoded, finished⟩ := decodeGroup_two c0 c1 c2 fits room
      have valueFirst : first.toNat / 4 * 4 + (first.toNat % 4 * 16 + second.toNat / 16) / 16 =
          first.toNat := by omega
      have valueSecond : (first.toNat % 4 * 16 + second.toNat / 16) % 16 * 16 +
          second.toNat % 16 * 4 / 4 = second.toNat := by omega
      rw [valueFirst, valueSecond, UInt8.ofNat_toNat, UInt8.ofNat_toNat] at finished
      rw [Rfc4648.encode_two, decodeLoop_last more (decodeCharacter_symbol c0)
        (decodeCharacter_symbol c1) (decodeCharacter_symbol c2) decodeCharacter_padding decoded]
      exact finished
  | case4 first second third rest induction =>
      have byteSecond := second.toNat_lt
      have byteThird := third.toNat_lt
      simp only [List.length_cons] at fits
      obtain ⟨old, left, rfl, two⟩ : ∃ old rest, left = old :: rest ∧ 2 ≤ rest.length :=
        exists_cons_of_le (by omega)
      obtain ⟨old', left, rfl, one⟩ := exists_cons_of_le two
      obtain ⟨old'', left, rfl, -⟩ := exists_cons_of_le one
      simp only [List.length_cons] at room
      have byteFirst := first.toNat_lt
      have c0 : first.toNat / 4 < 64 := by omega
      have c1 : first.toNat % 4 * 16 + second.toNat / 16 < 64 := by omega
      have c2 : second.toNat % 16 * 4 + third.toNat / 64 < 64 := by omega
      have c3 : third.toNat % 64 < 64 := by omega
      have more : (Output.between written (old :: old' :: old'' :: left)).out_count < out_len :=
        (count_lt_iff (by omega)).mpr (by omega)
      have decoded :=
        @decodeGroup_three out_len written left _ _ _ _ old old' old'' c0 c1 c2 c3 (by omega)
      have valueFirst : first.toNat / 4 * 4 + (first.toNat % 4 * 16 + second.toNat / 16) / 16 =
          first.toNat := by omega
      have valueSecond : (first.toNat % 4 * 16 + second.toNat / 16) % 16 * 16 +
          (second.toNat % 16 * 4 + third.toNat / 64) / 4 = second.toNat := by omega
      have valueThird : (second.toNat % 16 * 4 + third.toNat / 64) % 4 * 64 + third.toNat % 64 =
          third.toNat := by omega
      rw [valueFirst, valueSecond, valueThird, UInt8.ofNat_toNat, UInt8.ofNat_toNat,
        UInt8.ofNat_toNat] at decoded
      rw [Rfc4648.encode_three, decodeLoop_next more (decodeCharacter_symbol c0)
        (decodeCharacter_symbol c1) (decodeCharacter_symbol c2) (decodeCharacter_symbol c3)
        decoded]
      have later := @induction (written ++ [first, second, third]) left
        (by simp only [List.length_append, List.length_cons, List.length_nil]; omega)
        (by simp only [List.length_append, List.length_cons, List.length_nil]; omega)
      simpa using later

/-! ## Encoding a group -/

section Encode

variable {out_len : UInt32} {written left characters : List UInt8} {c : List UInt8}

theorem encodeCharacters_eq {count : UInt32} (fits : count ≤ out_len)
    (table : c.map (fun index => BASE64_ENCODE_TABLE[index.toNat]?) = characters.map some)
    (room : characters.length ≤ left.length) :
    encodeCharacters out_len c ⟨written ++ left, written.length, count⟩ =
      .ok ⟨written ++ characters ++ left.drop characters.length,
        written.length + characters.length, count⟩ := by
  induction c generalizing written left characters with
  | nil =>
      have none : characters = [] := by simpa using table.symm
      simp [none, encodeCharacters]
  | cons index c induction =>
      cases characters with
      | nil => simp at table
      | cons character characters =>
          rw [List.map_cons, List.map_cons, List.cons.injEq] at table
          obtain ⟨old, left, rfl, rest⟩ := exists_cons_of_le room
          have read : readAt BASE64_ENCODE_TABLE index.toNat = .ok character := by
            simp [readAt, table.1]
          have stored : (⟨written ++ old :: left, written.length, count⟩ : Output).store character =
              .ok ⟨written ++ character :: left, written.length, count⟩ := by
            simp [Output.store, writeAt_append, pure, Except.pure]
          have later := @induction (written ++ [character]) left characters table.2 rest
          rw [encodeCharacters, if_pos fits, read, ok_bind, stored, ok_bind]
          simpa [Nat.add_assoc, Nat.add_comm 1] using later

theorem encodeGroup_eq {i0 i1 i2 i3 e0 e1 e2 e3 : UInt8}
    (table0 : BASE64_ENCODE_TABLE[i0.toNat]? = some e0)
    (table1 : BASE64_ENCODE_TABLE[i1.toNat]? = some e1)
    (table2 : BASE64_ENCODE_TABLE[i2.toNat]? = some e2)
    (table3 : BASE64_ENCODE_TABLE[i3.toNat]? = some e3)
    (fits : written.length + 4 ≤ out_len.toNat) (room : 4 ≤ left.length) :
    encodeGroup out_len [i0, i1, i2, i3] (.between written left) =
      .ok (.between (written ++ [e0, e1, e2, e3]) (left.drop 4)) := by
  have bound := out_len.toNat_lt
  have count : UInt32.ofNat written.length + 4 ≤ out_len := by
    rw [UInt32.le_iff_toNat_le, UInt32.toNat_add, UInt32.toNat_ofNat']
    simp only [UInt32.reduceToNat]
    omega
  have encoded : encodeCharacters out_len [i0, i1, i2, i3]
      ⟨written ++ left, written.length, UInt32.ofNat written.length + 4⟩ =
        .ok ⟨written ++ [e0, e1, e2, e3] ++ left.drop 4, written.length + 4, _⟩ :=
    encodeCharacters_eq count (by simp [table0, table1, table2, table3]) room
  rw [encodeGroup, Output.between, encoded, Output.between, List.length_append]
  simp [UInt32.ofNat_add]

end Encode

theorem toNat_secondIndex (first second : UInt8) :
    ((first &&& 0x3) <<< 4 ||| (second &&& ~~~0xF) >>> 4).toNat =
      first.toNat % 4 * 16 + second.toNat / 16 := by
  have byte := second.toNat_lt
  rw [toNat_or 4] <;> simp only [toNat_low_two, toNat_high_four] <;> omega

theorem toNat_thirdIndex (second third : UInt8) :
    ((second &&& 0xF) <<< 2 ||| (third &&& ~~~0x3F) >>> 6).toNat =
      second.toNat % 16 * 4 + third.toNat / 64 := by
  have byte := third.toNat_lt
  rw [toNat_or 2] <;> simp only [toNat_low_four, toNat_high_two] <;> omega

theorem table_symbol {index : UInt8} {bits : Nat} (value : index.toNat = bits)
    (small : bits < 64) : BASE64_ENCODE_TABLE[index.toNat]? = some (Rfc4648.symbol bits) := by
  rw [value]
  exact encodeTable_symbol small

theorem encodeLoop_eq (out_len : UInt32) (input : List UInt8) {written left : List UInt8}
    (fits : written.length + (Rfc4648.encode input).length ≤ out_len.toNat)
    (room : (Rfc4648.encode input).length ≤ left.length) :
    encodeLoop out_len input (.between written left) =
      .ok (.between (written ++ Rfc4648.encode input)
        (left.drop (Rfc4648.encode input).length)) := by
  have bound := out_len.toNat_lt
  induction input using Rfc4648.encode.induct generalizing written left with
  | case1 => simp [Rfc4648.encode, encodeLoop]
  | case2 first =>
      have byte := first.toNat_lt
      rw [Rfc4648.encode_one] at fits room ⊢
      simp only [List.length_cons, List.length_nil] at fits room
      have more : (Output.between written left).out_count < out_len :=
        (count_lt_iff (by omega)).mpr (by omega)
      rw [encodeLoop, if_pos more]
      exact encodeGroup_eq (table_symbol (toNat_high_six first) (by omega))
        (table_symbol (toNat_low_two first) (by omega)) encodeTable_padding encodeTable_padding
        fits room
  | case3 first second =>
      have byteFirst := first.toNat_lt
      have byteSecond := second.toNat_lt
      rw [Rfc4648.encode_two] at fits room ⊢
      simp only [List.length_cons, List.length_nil] at fits room
      have more : (Output.between written left).out_count < out_len :=
        (count_lt_iff (by omega)).mpr (by omega)
      rw [encodeLoop, if_pos more]
      exact encodeGroup_eq (table_symbol (toNat_high_six first) (by omega))
        (table_symbol (toNat_secondIndex first second) (by omega))
        (table_symbol (toNat_low_four second) (by omega)) encodeTable_padding fits room
  | case4 first second third rest induction =>
      have byteFirst := first.toNat_lt
      have byteSecond := second.toNat_lt
      have byteThird := third.toNat_lt
      rw [Rfc4648.encode_three] at fits room ⊢
      simp only [List.length_cons] at fits room
      have more : (Output.between written left).out_count < out_len :=
        (count_lt_iff (by omega)).mpr (by omega)
      have group := encodeGroup_eq (table_symbol (toNat_high_six first) (by omega))
        (table_symbol (toNat_secondIndex first second) (by omega))
        (table_symbol (toNat_thirdIndex second third) (by omega))
        (table_symbol (toNat_low_six third) (by omega))
        (by omega : written.length + 4 ≤ out_len.toNat) (by omega : 4 ≤ left.length)
      rw [encodeLoop, if_pos more, group, ok_bind, induction ?_ ?_]
      · simp [Nat.add_comm 4]
      · simp only [List.length_append, List.length_cons, List.length_nil]
        omega
      · rw [List.length_drop]
        omega

/-! ## Lengths -/

theorem toNat_clear_low (size : UInt32) : (size &&& ~~~0x3).toNat = size.toNat / 4 * 4 := by
  have bound := size.toNat_lt
  have masked : (size &&& ~~~0x3).toNat = size.toNat &&& 4294967292 := by
    rw [UInt32.toNat_and]
    rfl
  have quotient : (size.toNat &&& 4294967292) / 2 ^ 2 = size.toNat / 2 ^ 2 := by
    rw [Nat.and_div_two_pow]
    exact (Nat.and_two_pow_sub_one_eq_mod _ 30).trans (Nat.mod_eq_of_lt (by omega))
  have remainder : (size.toNat &&& 4294967292) % 2 ^ 2 = 0 := by
    rw [Nat.and_mod_two_pow]
    exact Nat.and_zero _
  omega

theorem encodeLength_eq {input : List UInt8} (short : input.length < 2 ^ 30) :
    encodeLength (UInt32.ofNat input.length) = UInt32.ofNat (Rfc4648.encode input).length := by
  apply UInt32.toNat_inj.mp
  rw [Rfc4648.length_encode, encodeLength, toNat_clear_low]
  simp only [UInt32.toNat_add, UInt32.toNat_div, UInt32.toNat_mul, UInt32.toNat_ofNat',
    UInt32.reduceToNat]
  simp (disch := omega) only [Nat.mod_eq_of_lt]
  omega

theorem decodeLength_append {front : List UInt8} {third fourth : UInt8}
    (bound : front.length + 2 < 2 ^ 32) :
    decodeLength (some (front ++ [third, fourth])) (UInt32.ofNat (front.length + 2)) =
      .ok (UInt32.ofNat (front.length + 2) / 4 * 3 -
        ((if third = Rfc4648.padding then 1 else 0) +
          if fourth = Rfc4648.padding then 1 else 0)) := by
  have value : (UInt32.ofNat (front.length + 2)).toNat = front.length + 2 := by
    rw [UInt32.toNat_ofNat', Nat.mod_eq_of_lt bound]
  have two : UInt32.ofNat (front.length + 2) > 1 := by
    rw [gt_iff_lt, UInt32.lt_iff_toNat_lt, value]
    exact Nat.lt_add_left _ Nat.one_lt_two
  have one : UInt32.ofNat (front.length + 2) > 0 := by
    rw [gt_iff_lt, UInt32.lt_iff_toNat_lt, value]
    exact Nat.succ_pos _
  have third' : (UInt32.ofNat (front.length + 2) - 2).toNat = front.length := by
    rw [UInt32.toNat_sub, value]
    simp only [UInt32.reduceToNat]
    omega
  have fourth' : (UInt32.ofNat (front.length + 2) - 1).toNat = front.length + 1 := by
    rw [UInt32.toNat_sub, value]
    simp only [UInt32.reduceToNat]
    omega
  simp only [decodeLength, countPadding, if_pos two, if_pos one, third', fourth', readAt]
  simp [pure, Except.pure]

theorem decodeLength_encode {input : List UInt8} (short : input.length < 2 ^ 30) :
    decodeLength (some (Rfc4648.encode input)) (UInt32.ofNat (Rfc4648.encode input).length) =
      .ok (UInt32.ofNat input.length) := by
  by_cases empty : input = []
  · subst empty
    rfl
  · obtain ⟨front, third, fourth, split, one, two⟩ := Rfc4648.encode_last empty
    have positive := List.length_pos_iff.mpr empty
    have characters : front.length + 2 = (input.length + 2) / 3 * 4 := by
      rw [← Rfc4648.length_encode, split, List.length_append, List.length_cons,
        List.length_singleton]
    have length : (front ++ [third, fourth]).length = front.length + 2 := by simp
    rw [split, length, decodeLength_append (by omega)]
    congr 1
    apply UInt32.toNat_inj.mp
    have padded : ((if third = Rfc4648.padding then 1 else 0) +
        if fourth = Rfc4648.padding then 1 else 0 : UInt32).toNat =
          (input.length + 2) / 3 * 3 - input.length := by
      by_cases single : input.length % 3 = 1
      · have both : (input.length + 2) / 3 * 3 - input.length = 2 := by omega
        simp [one, two, single, both]
      · by_cases full : input.length % 3 = 0
        · have none : (input.length + 2) / 3 * 3 - input.length = 0 := by omega
          simp [one, two, full, none]
        · have last : (input.length + 2) / 3 * 3 - input.length = 1 := by omega
          simp [one, two, single, full, last]
    have groups : (UInt32.ofNat (front.length + 2) / 4 * 3).toNat = (input.length + 2) / 3 * 3 := by
      simp only [UInt32.toNat_mul, UInt32.toNat_div, UInt32.toNat_ofNat', UInt32.reduceToNat]
      have quotient : (front.length + 2) % 2 ^ 32 / 4 = (input.length + 2) / 3 := by omega
      rw [quotient, Nat.mod_eq_of_lt (by omega)]
    rw [UInt32.toNat_sub, padded, groups, UInt32.toNat_ofNat']
    omega

/-! ## Staying inside of the output -/

structure WrittenUpTo (out : List UInt8) (out_len : UInt32) (memory : List UInt8) : Prop where
  length : memory.length = out.length
  beyond : memory.drop out_len.toNat = out.drop out_len.toNat

structure Inside (out : List UInt8) (out_len : UInt32) (output : Output) : Prop where
  written : WrittenUpTo out out_len output.memory
  pointer : output.out_count < out_len → output.out = output.out_count.toNat

section Inside

variable {out : List UInt8} {out_len : UInt32} {output : Output} {value : UInt8}

theorem store_writtenUpTo (fits : out_len.toNat ≤ out.length)
    (written : WrittenUpTo out out_len output.memory) (here : output.out < out_len.toNat) :
    ∃ memory, output.store value = .ok { output with memory } ∧
      WrittenUpTo out out_len memory := by
  have inside : output.out < output.memory.length := by
    rw [written.length]
    exact Nat.lt_of_lt_of_le here fits
  refine ⟨output.memory.set output.out value, ?_, ?_, ?_⟩
  · rw [Output.store, writeAt, if_pos inside]
    rfl
  · rw [List.length_set]
    exact written.length
  · rw [List.drop_set_of_lt here]
    exact written.beyond

theorem store_inside (fits : out_len.toNat ≤ out.length) (inside : Inside out out_len output)
    (more : output.out_count < out_len) (value : UInt8) :
    ∃ next, output.store value = .ok next ∧ Inside out out_len next ∧
      next.out_count < out_len := by
  have here : output.out < out_len.toNat := by
    rw [inside.pointer more]
    exact UInt32.lt_iff_toNat_lt.mp more
  obtain ⟨memory, stored, written⟩ := store_writtenUpTo fits inside.written here
  exact ⟨{ output with memory }, stored, ⟨written, inside.pointer⟩, more⟩

theorem storeOr_inside (fits : out_len.toNat ≤ out.length) (inside : Inside out out_len output)
    (more : output.out_count < out_len) (value : UInt8) :
    ∃ next, output.storeOr value = .ok next ∧ Inside out out_len next ∧
      next.out_count < out_len := by
  have here : output.out < output.memory.length := by
    rw [inside.pointer more, inside.written.length]
    exact Nat.lt_of_lt_of_le (UInt32.lt_iff_toNat_lt.mp more) fits
  rw [Output.storeOr, readAt_of_lt here, ok_bind]
  exact store_inside fits inside more _

theorem advance_inside (inside : Inside out out_len output) (more : output.out_count < out_len) :
    Inside out out_len output.advance := by
  have bound := out_len.toNat_lt
  have here := UInt32.lt_iff_toNat_lt.mp more
  refine ⟨inside.written, fun _ => ?_⟩
  rw [Output.advance, inside.pointer more, UInt32.toNat_add]
  simp only [UInt32.reduceToNat]
  omega

theorem finish_inside (fits : out_len.toNat ≤ out.length) (inside : Inside out out_len output) :
    ∃ count memory, finish out_len output = .ok (count, memory) ∧
      WrittenUpTo out out_len memory := by
  by_cases last : output.out_count ≤ out_len
  · by_cases more : output.out_count < out_len
    · obtain ⟨next, stored, inside, -⟩ := store_inside fits inside more 0
      refine ⟨next.out_count, next.memory, ?_, inside.written⟩
      rw [finish, if_pos last, if_pos more, stored]
      rfl
    · refine ⟨output.out_count, output.memory, ?_, inside.written⟩
      rw [finish, if_pos last, if_neg more]
      rfl
  · refine ⟨0, output.memory, ?_, inside.written⟩
    rw [finish, if_neg last]

theorem decodeGroup_inside (fits : out_len.toNat ≤ out.length)
    (inside : Inside out out_len output) (more : output.out_count < out_len)
    (c0 c1 c2 c3 : UInt8) :
    ∃ stopped next, decodeGroup out_len c0 c1 c2 c3 output = .ok (stopped, next) ∧
      Inside out out_len next := by
  obtain ⟨o1, stored1, inside, more⟩ := store_inside fits inside more (c0 <<< 2)
  obtain ⟨o2, stored2, inside, more⟩ := storeOr_inside fits inside more ((c1 &&& ~~~0xF) >>> 4)
  have first := advance_inside inside more
  simp only [decodeGroup, stored1, stored2, ok_bind]
  by_cases more : o2.advance.out_count < out_len
  · obtain ⟨o3, stored3, inside, more'⟩ := store_inside fits first more ((c1 &&& 0xF) <<< 4)
    simp only [if_pos more, stored3, ok_bind]
    by_cases second : c2 < NV
    · obtain ⟨o4, stored4, inside, more⟩ :=
        storeOr_inside fits inside more' ((c2 &&& ~~~0x3) >>> 2)
      have third := advance_inside inside more
      simp only [if_pos second, stored4, ok_bind]
      by_cases more : o4.advance.out_count < out_len
      · obtain ⟨o5, stored5, inside, more'⟩ := store_inside fits third more ((c2 &&& 0x3) <<< 6)
        simp only [if_pos more, stored5, ok_bind]
        by_cases fourth : c3 < NV
        · obtain ⟨o6, stored6, inside, more⟩ := storeOr_inside fits inside more' c3
          rw [if_pos fourth, stored6]
          exact ⟨_, _, rfl, advance_inside inside more⟩
        · rw [if_neg fourth]
          exact ⟨_, _, rfl, inside⟩
      · rw [if_neg more]
        exact ⟨_, _, rfl, third⟩
    · rw [if_neg second]
      exact ⟨_, _, rfl, inside⟩
  · rw [if_neg more]
    exact ⟨_, _, rfl, first⟩

theorem decodeLoop_inside (fits : out_len.toNat ≤ out.length) {input : List UInt8}
    (ascii : ∀ character ∈ input, character < 128) (inside : Inside out out_len output) :
    ∃ next, decodeLoop out_len input output = .ok next ∧ Inside out out_len next := by
  induction input, output using decodeLoop.induct out_len with
  | case1 first second third fourth input output more induction =>
      simp only [List.mem_cons, forall_eq_or_imp] at ascii
      obtain ⟨ascii0, ascii1, ascii2, ascii3, rest⟩ := ascii
      obtain ⟨c0, read0⟩ : ∃ c0, decodeCharacter first = .ok c0 := ⟨_, decodeCharacter_eq ascii0⟩
      obtain ⟨c1, read1⟩ : ∃ c1, decodeCharacter second = .ok c1 := ⟨_, decodeCharacter_eq ascii1⟩
      obtain ⟨c2, read2⟩ : ∃ c2, decodeCharacter third = .ok c2 := ⟨_, decodeCharacter_eq ascii2⟩
      obtain ⟨c3, read3⟩ : ∃ c3, decodeCharacter fourth = .ok c3 := ⟨_, decodeCharacter_eq ascii3⟩
      obtain ⟨stopped, next, decoded, inside⟩ := decodeGroup_inside fits inside more c0 c1 c2 c3
      rw [decodeLoop, if_pos more, read0, read1, read2, read3]
      simp only [ok_bind, decoded]
      cases stopped with
      | true => exact ⟨next, rfl, inside⟩
      | false => exact induction next rest inside
  | case2 first second third fourth input output full =>
      exact ⟨output, by rw [decodeLoop, if_neg full], inside⟩
  | case3 input output short =>
      refine ⟨output, ?_, inside⟩
      rw [decodeLoop]
      exact short

theorem decode_inside (fits : out_len.toNat ≤ out.length) {input : List UInt8}
    (ascii : ∀ character ∈ input, character < 128) :
    ∃ count memory, decode out out_len input = .ok (count, memory) ∧
      WrittenUpTo out out_len memory := by
  obtain ⟨next, decoded, inside⟩ :=
    decodeLoop_inside fits ascii (⟨⟨rfl, rfl⟩, fun _ => rfl⟩ : Inside out out_len ⟨out, 0, 0⟩)
  rw [decode, decoded]
  exact finish_inside fits inside

theorem encodeCharacters_inside (fits : out_len.toNat ≤ out.length) {c : List UInt8}
    (table : ∀ index ∈ c, ∃ character, BASE64_ENCODE_TABLE[index.toNat]? = some character)
    (written : WrittenUpTo out out_len output.memory)
    (room : output.out + c.length ≤ out_len.toNat) (count : output.out_count ≤ out_len) :
    ∃ memory, encodeCharacters out_len c output =
        .ok ⟨memory, output.out + c.length, output.out_count⟩ ∧
      WrittenUpTo out out_len memory := by
  induction c generalizing output with
  | nil => exact ⟨output.memory, rfl, written⟩
  | cons index c induction =>
      rw [List.length_cons] at room
      obtain ⟨character, found⟩ := table index List.mem_cons_self
      have read : readAt BASE64_ENCODE_TABLE index.toNat = .ok character := by
        rw [readAt, found]
      obtain ⟨memory, stored, written⟩ : ∃ memory,
          output.store character = .ok { output with memory } ∧ _ :=
        store_writtenUpTo fits written (by omega)
      obtain ⟨memory', later, written⟩ := @induction ⟨memory, output.out + 1, output.out_count⟩
        (fun index inside => table index (List.mem_cons_of_mem _ inside)) written
        (by simp only; omega) count
      refine ⟨memory', ?_, written⟩
      rw [encodeCharacters, if_pos count, read, ok_bind, stored, ok_bind, later,
        List.length_cons, Nat.add_assoc, Nat.add_comm 1]

theorem encodeGroup_inside {i0 i1 i2 i3 e0 e1 e2 e3 : UInt8}
    (table0 : BASE64_ENCODE_TABLE[i0.toNat]? = some e0)
    (table1 : BASE64_ENCODE_TABLE[i1.toNat]? = some e1)
    (table2 : BASE64_ENCODE_TABLE[i2.toNat]? = some e2)
    (table3 : BASE64_ENCODE_TABLE[i3.toNat]? = some e3)
    (fits : out_len.toNat ≤ out.length) (inside : Inside out out_len output)
    (more : output.out_count < out_len) (small : output.out_count.toNat + 4 < 2 ^ 32) :
    ∃ next, encodeGroup out_len [i0, i1, i2, i3] output = .ok next ∧
      Inside out out_len next ∧ next.out_count.toNat = output.out_count.toNat + 4 := by
  have counted : (output.out_count + 4).toNat = output.out_count.toNat + 4 := by
    rw [UInt32.toNat_add]
    exact Nat.mod_eq_of_lt small
  by_cases room : output.out_count + 4 ≤ out_len
  · have last := UInt32.le_iff_toNat_le.mp room
    obtain ⟨memory, encoded, written⟩ := @encodeCharacters_inside out out_len
      ⟨output.memory, output.out, output.out_count + 4⟩ fits [i0, i1, i2, i3]
      (by simp [table0, table1, table2, table3]) inside.written
      (by simp only [inside.pointer more, List.length_cons, List.length_nil]; omega) room
    refine ⟨_, encoded, ⟨written, fun _ => ?_⟩, counted⟩
    simp only [inside.pointer more, counted, List.length_cons, List.length_nil]
  · refine ⟨⟨output.memory, output.out, output.out_count + 4⟩, ?_, ⟨inside.written, ?_⟩, counted⟩
    · rw [encodeGroup, encodeCharacters, if_neg room]
    · intro less
      exact absurd (UInt32.le_of_lt less) room

theorem encodeLoop_inside (fits : out_len.toNat ≤ out.length) {input : List UInt8}
    (inside : Inside out out_len output)
    (small : output.out_count.toNat + (Rfc4648.encode input).length < 2 ^ 32) :
    ∃ next, encodeLoop out_len input output = .ok next ∧ Inside out out_len next := by
  induction input using Rfc4648.encode.induct generalizing output with
  | case1 => exact ⟨output, rfl, inside⟩
  | case2 first =>
      have byte := first.toNat_lt
      by_cases more : output.out_count < out_len
      · obtain ⟨next, encoded, inside, -⟩ := encodeGroup_inside
          (table_symbol (toNat_high_six first) (by omega))
          (table_symbol (toNat_low_two first) (by omega)) encodeTable_padding encodeTable_padding
          fits inside more small
        rw [encodeLoop, if_pos more]
        exact ⟨next, encoded, inside⟩
      · exact ⟨output, by rw [encodeLoop, if_neg more], inside⟩
  | case3 first second =>
      have byteFirst := first.toNat_lt
      have byteSecond := second.toNat_lt
      by_cases more : output.out_count < out_len
      · obtain ⟨next, encoded, inside, -⟩ := encodeGroup_inside
          (table_symbol (toNat_high_six first) (by omega))
          (table_symbol (toNat_secondIndex first second) (by omega))
          (table_symbol (toNat_low_four second) (by omega)) encodeTable_padding
          fits inside more small
        rw [encodeLoop, if_pos more]
        exact ⟨next, encoded, inside⟩
      · exact ⟨output, by rw [encodeLoop, if_neg more], inside⟩
  | case4 first second third rest induction =>
      have byteFirst := first.toNat_lt
      have byteSecond := second.toNat_lt
      have byteThird := third.toNat_lt
      rw [Rfc4648.encode_three] at small
      simp only [List.length_cons] at small
      by_cases more : output.out_count < out_len
      · obtain ⟨next, encoded, inside, counted⟩ := encodeGroup_inside
          (table_symbol (toNat_high_six first) (by omega))
          (table_symbol (toNat_secondIndex first second) (by omega))
          (table_symbol (toNat_thirdIndex second third) (by omega))
          (table_symbol (toNat_low_six third) (by omega)) fits inside more (by omega)
        rw [encodeLoop, if_pos more, encoded]
        exact induction inside (by omega)
      · exact ⟨output, by rw [encodeLoop, if_neg more], inside⟩

theorem encode_inside (fits : out_len.toNat ≤ out.length) {input : List UInt8}
    (short : input.length < 2 ^ 30) :
    ∃ count memory, encode out out_len input = .ok (count, memory) ∧
      WrittenUpTo out out_len memory := by
  have length := Rfc4648.length_encode input
  obtain ⟨next, encoded, inside⟩ := @encodeLoop_inside out out_len ⟨out, 0, 0⟩ fits input
    ⟨⟨rfl, rfl⟩, fun _ => rfl⟩ (by simp only [UInt32.toNat_zero]; omega)
  rw [encode, encoded]
  exact finish_inside fits inside

end Inside

/-! ## The codec -/

section Exact

variable {out : List UInt8} {out_len : UInt32} {input : List UInt8}

theorem encode_eq (inside : out_len.toNat ≤ out.length)
    (fits : (Rfc4648.encode input).length ≤ out_len.toNat) :
    encode out out_len input =
      .ok (UInt32.ofNat (Rfc4648.encode input).length, Rfc4648.encode input ++
        if (Rfc4648.encode input).length < out_len.toNat then
          0 :: (out.drop (Rfc4648.encode input).length).drop 1
        else out.drop (Rfc4648.encode input).length) := by
  have encoded := @encodeLoop_eq out_len input [] out (by simpa using fits) (by omega)
  have start : (⟨out, 0, 0⟩ : Output) = .between [] out := rfl
  rw [encode, start, encoded, ok_bind, List.nil_append, finish_between fits]
  rw [List.length_drop]
  omega

theorem decode_eq (inside : out_len.toNat ≤ out.length) (fits : input.length ≤ out_len.toNat) :
    decode out out_len (Rfc4648.encode input) =
      .ok (UInt32.ofNat input.length, input ++
        if input.length < out_len.toNat then 0 :: (out.drop input.length).drop 1
        else out.drop input.length) := by
  have start : (⟨out, 0, 0⟩ : Output) = .between [] out := rfl
  rw [decode, start, decodeLoop_finish out_len input (by simpa using fits) (by simpa using inside),
    List.nil_append, finish_between fits]
  rw [List.length_drop]
  omega

end Exact

theorem encode_ascii (input : List UInt8) :
    ∀ character ∈ Rfc4648.encode input, character < 128 :=
  Rfc4648.forall_mem_encode (fun _ => symbol_ascii) (by decide) input

/-- What the codec does with some bytes and their text. Memory is checked: a use of it outside
of the buffers is a fault. -/
structure Codec (input : List UInt8) : Prop where
  encoded : ∀ out out_len, out_len.toNat ≤ out.length →
    encodeLength (.ofNat input.length) ≤ out_len →
      ∃ memory, encode out out_len input = .ok (encodeLength (.ofNat input.length), memory) ∧
        memory.take (encodeLength (.ofNat input.length)).toNat = Rfc4648.encode input
  decodedLength : decodeLength (some (Rfc4648.encode input))
    (.ofNat (Rfc4648.encode input).length) = .ok (.ofNat input.length)
  decoded : ∀ out out_len, out_len.toNat ≤ out.length → input.length ≤ out_len.toNat →
    ∃ memory, decode out out_len (Rfc4648.encode input) = .ok (.ofNat input.length, memory) ∧
      memory.take input.length = input
  encodeInside : ∀ out out_len, out_len.toNat ≤ out.length →
    ∃ count memory, encode out out_len input = .ok (count, memory) ∧
      WrittenUpTo out out_len memory
  decodeInside : ∀ out out_len, out_len.toNat ≤ out.length →
    ∃ count memory, decode out out_len (Rfc4648.encode input) = .ok (count, memory) ∧
      WrittenUpTo out out_len memory

/-- Bytes are encoded as RFC 4648 says and decoded again, and no call writes beyond the length
it is given, be it enough or not. -/
theorem codec_of_short {input : List UInt8} (short : input.length < 2 ^ 30) : Codec input := by
  have length := Rfc4648.length_encode input
  have needed : (UInt32.ofNat (Rfc4648.encode input).length).toNat =
      (Rfc4648.encode input).length := by
    rw [UInt32.toNat_ofNat']
    omega
  refine ⟨?_, decodeLength_encode short, ?_, ?_, ?_⟩
  · intro out out_len inside enough
    rw [encodeLength_eq short] at enough ⊢
    rw [UInt32.le_iff_toNat_le, needed] at enough
    rw [needed]
    exact ⟨_, encode_eq inside enough, List.take_left⟩
  · intro out out_len inside enough
    exact ⟨_, decode_eq inside enough, List.take_left⟩
  · intro out out_len inside
    exact encode_inside inside short
  · intro out out_len inside
    exact decode_inside inside (encode_ascii input)

theorem codec_of_short_five :
    (∃ memory, encode (List.replicate 9 1) 9 [102, 111, 111, 98, 97] = .ok (8, memory) ∧
      memory.take 8 = [90, 109, 57, 118, 89, 109, 69, 61]) ∧
    ∃ memory, decode [1, 2, 3, 4, 5] 5 [90, 109, 57, 118, 89, 109, 69, 61] = .ok (5, memory) ∧
      memory.take 5 = [102, 111, 111, 98, 97] := by
  have five : Codec [102, 111, 111, 98, 97] := codec_of_short (by simp)
  obtain ⟨memory, encoded, text⟩ :=
    five.encoded (List.replicate 9 1) 9 (by decide) (by decide)
  obtain ⟨memory', decoded, bytes⟩ := five.decoded [1, 2, 3, 4, 5] 5 (by decide) (by decide)
  have same : Rfc4648.encode [102, 111, 111, 98, 97] =
      [90, 109, 57, 118, 89, 109, 69, 61] := by decide
  rw [same] at decoded text
  exact ⟨⟨memory, encoded, text⟩, memory', decoded, bytes⟩

end MqttClient.Base64
