import MqttClient.Foundation.CheckedMemory
import MqttClient.Foundation.Utf8Table

/-! # The validation of UTF-8

`UTF8_validate` compares each character with a table of ranges, whose limits are signed: a
`char` is signed, so that the bytes above 0x7F are negative. A string is the block of its bytes,
and a byte outside of it cannot be read.
-/

namespace MqttClient

open Foundation CheckedMemory

namespace UTF8

/-- A row of `valid_ranges`: the number of bytes, and the lower and the upper limit of each. -/
structure ValidRange where
  len : Nat
  bytes : List (Int8 × Int8)

/-- The value of an integer in a `char`. -/
def char (value : UInt8) : Int8 := value.toInt8

def validRanges : List ValidRange :=
  [⟨1, [(char 0x00, char 0x7f)]⟩,
    ⟨2, [(char 0xc2, char 0xdf), (char 0x80, char 0xbf)]⟩,
    ⟨3, [(char 0xe0, char 0xe0), (char 0xa0, char 0xbf), (char 0x80, char 0xbf)]⟩,
    ⟨3, [(char 0xe1, char 0xec), (char 0x80, char 0xbf), (char 0x80, char 0xbf)]⟩,
    ⟨3, [(char 0xed, char 0xed), (char 0x80, char 0x9f), (char 0x80, char 0xbf)]⟩,
    ⟨3, [(char 0xee, char 0xef), (char 0x80, char 0xbf), (char 0x80, char 0xbf)]⟩,
    ⟨4, [(char 0xf0, char 0xf0), (char 0x90, char 0xbf), (char 0x80, char 0xbf),
      (char 0x80, char 0xbf)]⟩,
    ⟨4, [(char 0xf1, char 0xf3), (char 0x80, char 0xbf), (char 0x80, char 0xbf),
      (char 0x80, char 0xbf)]⟩,
    ⟨4, [(char 0xf4, char 0xf4), (char 0x80, char 0x8f), (char 0x80, char 0xbf),
      (char 0x80, char 0xbf)]⟩]

/-- The number of bytes that the first one announces. The operands are promoted to `int`. -/
def charlen (first : Int8) : Nat :=
  if first.toInt32 &&& 128 = 0 then 1
  else if first.toInt32 &&& 0xf0 = 0xf0 then 4
  else if first.toInt32 &&& 0xe0 = 0xe0 then 3
  else 2

/-- The inner loop of `UTF8_char_validate`, over the limits from `j` on. -/
def inRanges (block : List UInt8) (data : Nat) : List (Int8 × Int8) → (j : Nat) →
    Except Fault Bool
  | [], _ => .ok true
  | (lower, upper) :: ranges, j => do
      let byte ← readAt block (data + j)
      if char byte < lower ∨ char byte > upper then return false
      else inRanges block data ranges (j + 1)

/-- The outer loop of `UTF8_char_validate`. -/
def inRows (block : List UInt8) (data charlen : Nat) : List ValidRange → Except Fault Bool
  | [] => .ok false
  | row :: rows =>
      if row.len = charlen then do
        let good ← inRanges block data row.bytes 0
        if good then return true else inRows block data charlen rows
      else inRows block data charlen rows

/-- `UTF8_char_validate`, of the bytes from `data` on: the next character, or NULL. -/
def charValidate (block : List UInt8) (len : Int) (data : Nat) : Except Fault (Option Nat) := do
  let first ← readAt block data
  let charlen := charlen (char first)
  if (charlen : Int) > len then return none
  else
    let good ← inRows block data charlen validRanges
    return if good then some (data + charlen) else none

theorem charlen_pos (first : Int8) : 0 < charlen first := by
  rw [charlen]
  split
  · decide
  · split
    · decide
    · split
      · decide
      · decide

theorem lt_of_charValidate {block : List UInt8} {len : Int} {data next : Nat}
    (validated : charValidate block len data = .ok (some next)) : data < next := by
  rcases bind_eq_ok validated with ⟨first, -, validated⟩
  dsimp only at validated
  split at validated
  · cases validated
  · rcases bind_eq_ok validated with ⟨good, -, validated⟩
    cases good with
    | true =>
        cases validated
        exact Nat.lt_add_of_pos_right (charlen_pos _)
    | false => cases validated

/-- The loop of `UTF8_validate`. -/
def validateLoop (block : List UInt8) (len : Int) (curdata : Nat) : Except Fault (Option Nat) :=
  if (curdata : Int) < len then
    match _validated : charValidate block (len - curdata) curdata with
    | .error fault => .error fault
    | .ok none => .ok none
    | .ok (some next) => validateLoop block len next
  else .ok (some curdata)
termination_by (len - curdata).toNat
decreasing_by
  have behind := lt_of_charValidate _validated
  omega

/-- `UTF8_validate`, of a string or NULL. -/
def validate (len : Int) (data : Option (List UInt8)) : Except Fault Int :=
  match data with
  | none => .ok 1
  | some block =>
      if len = 0 then .ok 1
      else do
        match ← charValidate block len 0 with
        | none => return 0
        | some curdata =>
            let curdata ← validateLoop block len curdata
            return if curdata.isSome then 1 else 0

/-! ## The table -/

section Rows

variable {block : List UInt8} {data : Nat} {row : List Utf8.Range} {rows : List (List Utf8.Range)}

/-- The limits of a row of the table, as `valid_ranges` has them. -/
def limits (row : List Utf8.Range) : List (Int8 × Int8) :=
  row.map fun range => (char range.1, char range.2)

theorem validRanges_eq :
    validRanges = Utf8.table.map fun row => ⟨row.length, limits row⟩ := rfl

theorem toInt_char (byte : UInt8) :
    (char byte).toInt = if byte.toNat < 128 then (byte.toNat : Int) else byte.toNat - 256 := by
  change byte.toBitVec.toInt = _
  rw [BitVec.toInt_eq_toNat_cond]
  change (if 2 * byte.toNat < 256 then (byte.toNat : Int) else byte.toNat - 256) = _
  by_cases ascii : byte.toNat < 128
  · rw [if_pos ascii, if_pos (by omega)]
  · rw [if_neg ascii, if_neg (by omega)]

theorem same_sign : ∀ row ∈ Utf8.table, ∀ range ∈ row,
    range.1.toNat < 128 ↔ range.2.toNat < 128 := by
  have checked : (Utf8.table.all fun row => row.all fun range =>
      decide (range.1.toNat < 128 ↔ range.2.toNat < 128)) = true := by decide
  intro row member range inside
  apply of_decide_eq_true
  exact List.all_eq_true.mp (List.all_eq_true.mp checked row member) range inside

theorem outside_iff {low high byte : UInt8} (sign : low.toNat < 128 ↔ high.toNat < 128) :
    (char byte < char low ∨ char byte > char high) ↔ ¬ Utf8.Range.Contains (low, high) byte := by
  rw [Utf8.Range.Contains, UInt8.le_iff_toNat_le, UInt8.le_iff_toNat_le, gt_iff_lt,
    Int8.lt_iff_toInt_lt, Int8.lt_iff_toInt_lt, toInt_char, toInt_char, toInt_char]
  have lowSmall := low.toNat_lt
  have highSmall := high.toNat_lt
  have byteSmall := byte.toNat_lt
  dsimp only
  by_cases ascii : high.toNat < 128
  · rw [if_pos (sign.mpr ascii), if_pos ascii]
    split <;> omega
  · rw [if_neg fun lower => ascii (sign.mp lower), if_neg ascii]
    split <;> omega

theorem inRanges_spec (signs : ∀ range ∈ row, range.1.toNat < 128 ↔ range.2.toNat < 128) (j : Nat)
    (inside : data + j + row.length ≤ block.length) :
    ∃ good, inRanges block data (limits row) j = .ok good ∧
      (good = true ↔
        List.Forall₂ Utf8.Range.Contains row ((block.drop (data + j)).take row.length)) := by
  induction row generalizing j with
  | nil => exact ⟨true, rfl, iff_of_true rfl .nil⟩
  | cons range row induction =>
      rw [List.forall_mem_cons] at signs
      rw [List.length_cons] at inside
      have here : data + j < block.length := by omega
      rw [List.length_cons, List.drop_eq_getElem_cons here, List.take_succ_cons, limits,
        List.map_cons, inRanges, readAt_of_lt here, ok_bind, List.forall₂_cons]
      have outside : (char block[data + j] < char range.1 ∨ char block[data + j] > char range.2) ↔
          ¬ Utf8.Range.Contains range block[data + j] := outside_iff signs.1
      by_cases contains : Utf8.Range.Contains range block[data + j]
      · rw [if_neg (mt outside.mp (not_not_intro contains))]
        rcases induction signs.2 (j + 1) (by omega) with
          ⟨good, ran, matched⟩
        refine ⟨good, ran, ?_⟩
        rw [matched]
        exact (and_iff_right contains).symm
      · rw [if_pos (outside.mpr contains)]
        exact ⟨false, rfl, iff_of_false Bool.false_ne_true fun matched => contains matched.1⟩

theorem inRows_spec (charlen : Nat) (inside : data + charlen ≤ block.length)
    (signs : ∀ row ∈ rows, ∀ range ∈ row, range.1.toNat < 128 ↔ range.2.toNat < 128) :
    ∃ good, inRows block data charlen (rows.map fun row => ⟨row.length, limits row⟩) = .ok good ∧
      (good = true ↔ ∃ row ∈ rows, row.length = charlen ∧
        List.Forall₂ Utf8.Range.Contains row ((block.drop data).take charlen)) := by
  induction rows with
  | nil => exact ⟨false, rfl, by simp⟩
  | cons row rows induction =>
      rw [List.forall_mem_cons] at signs
      rcases induction signs.2 with ⟨good, ran, found⟩
      rw [List.map_cons, inRows]
      by_cases announced : row.length = charlen
      · rw [if_pos announced]
        subst announced
        rcases inRanges_spec signs.1 0 inside with ⟨matches', tried, matched⟩
        rw [tried, ok_bind]
        cases matches' with
        | true =>
            refine ⟨true, rfl, iff_of_true rfl ⟨row, List.mem_cons_self, rfl, matched.mp rfl⟩⟩
        | false =>
            refine ⟨good, ran, ?_⟩
            rw [found, List.exists_mem_cons_iff]
            apply (or_iff_right _).symm
            exact fun here => Bool.false_ne_true (matched.mpr here.2)
      · rw [if_neg announced]
        refine ⟨good, ran, ?_⟩
        rw [found, List.exists_mem_cons_iff]
        exact (or_iff_right fun here => announced here.1).symm

end Rows

/-! ## One character -/

variable {block : List UInt8} {data : Nat}

theorem charlen_announced : ∀ row ∈ Utf8.table, ∀ range ∈ row.head?, ∀ value < 256,
    range.Contains (UInt8.ofNat value) → charlen (char (UInt8.ofNat value)) = row.length := by
  have checked : (Utf8.table.all fun row => row.head?.all fun range =>
      (List.range 256).all fun value => decide (range.Contains (UInt8.ofNat value) →
        charlen (char (UInt8.ofNat value)) = row.length)) = true := by decide +kernel
  intro row member range first value small
  apply of_decide_eq_true
  exact List.all_eq_true.mp ((Option.all_eq_true _ _).mp (List.all_eq_true.mp checked row member)
    range first) value (List.mem_range.mpr small)

theorem charlen_sequence {first : UInt8} {rest : List UInt8}
    (sequence : Utf8.Sequence (first :: rest)) :
    charlen (char first) = rest.length + 1 := by
  rcases sequence with ⟨row, member, matched⟩
  cases matched with
  | @cons range _ row _ here later =>
      have announced := charlen_announced _ member range rfl first.toNat first.toNat_lt
      rw [UInt8.ofNat_toNat] at announced
      rw [announced here, List.length_cons, later.length_eq]

theorem length_sequence {sequence : List UInt8} (wellFormed : Utf8.Sequence sequence)
    (inside : data < block.length) (stands : sequence <+: block.drop data) :
    sequence.length = charlen (char block[data]) := by
  rw [List.drop_eq_getElem_cons inside] at stands
  cases sequence with
  | nil => exact absurd rfl wellFormed.ne_nil
  | cons first later =>
      have same := (List.cons_prefix_cons.mp stands).1
      rw [← same, charlen_sequence wellFormed, List.length_cons]

theorem charValidate_spec (inside : data < block.length) :
    ∃ next, charValidate block (block.length - data) data = .ok next ∧
      ∀ behind, next = some behind ↔ ∃ sequence, Utf8.Sequence sequence ∧
        sequence <+: block.drop data ∧ behind = data + sequence.length := by
  rw [charValidate, readAt_of_lt inside, ok_bind]
  dsimp only
  by_cases short : ((charlen (char block[data]) : Nat) : Int) > block.length - data
  · rw [if_pos short]
    refine ⟨none, rfl, fun behind => iff_of_false nofun ?_⟩
    rintro ⟨sequence, wellFormed, stands, -⟩
    have announced := length_sequence wellFormed inside stands
    have fits := stands.length_le
    rw [List.length_drop] at fits
    omega
  · rw [if_neg short]
    rcases inRows_spec (charlen (char block[data])) (by omega : data + _ ≤ block.length)
      same_sign with ⟨good, ran, found⟩
    rw [validRanges_eq, ran, ok_bind]
    refine ⟨_, rfl, fun behind => ?_⟩
    constructor
    · intro passed
      cases good with
      | false => cases passed
      | true =>
          cases passed
          rcases found.mp rfl with ⟨row, member, announced, matched⟩
          refine ⟨_, ⟨row, member, matched⟩, List.take_prefix _ _, ?_⟩
          rw [List.length_take, List.length_drop, Nat.min_eq_left (by omega)]
    · rintro ⟨sequence, wellFormed, stands, rfl⟩
      have announced := length_sequence wellFormed inside stands
      rcases wellFormed with ⟨row, member, matched⟩
      have whole : (block.drop data).take (charlen (char block[data])) = sequence := by
        rw [← announced]
        exact (List.prefix_iff_eq_take.mp stands).symm
      rw [if_pos (found.mpr ⟨row, member, matched.length_eq.trans announced, whole ▸ matched⟩),
        announced]

/-! ## A whole string -/

theorem wellFormed_drop (inside : data < block.length) {next : Option Nat}
    (found : ∀ behind, next = some behind ↔ ∃ sequence, Utf8.Sequence sequence ∧
      sequence <+: block.drop data ∧ behind = data + sequence.length) :
    Utf8.WellFormed (block.drop data) ↔
      ∃ behind ∈ next, behind ≤ block.length ∧ Utf8.WellFormed (block.drop behind) := by
  constructor
  · intro wellFormed
    generalize same : block.drop data = bytes at wellFormed
    cases wellFormed with
    | nil => exact absurd (List.drop_eq_nil_iff.mp same) (Nat.not_le.mpr inside)
    | @append first rest sequence wellFormed =>
        have stands : first <+: block.drop data := ⟨rest, same.symm⟩
        have fits := stands.length_le
        rw [List.length_drop] at fits
        refine ⟨_, (found _).mpr ⟨first, sequence, stands, rfl⟩, by omega, ?_⟩
        rw [← List.drop_drop, same, List.drop_left]
        exact wellFormed
  · rintro ⟨behind, same, -, wellFormed⟩
    rcases (found behind).mp same with ⟨sequence, single, stands, rfl⟩
    rcases stands with ⟨rest, whole⟩
    rw [← List.drop_drop, ← whole, List.drop_left] at wellFormed
    rw [← whole]
    exact .append single wellFormed

theorem validateLoop_spec (data : Nat) (inside : data ≤ block.length) :
    ∃ final, validateLoop block block.length data = .ok final ∧
      (final.isSome = true ↔ Utf8.WellFormed (block.drop data)) := by
  induction remaining : block.length - data using Nat.strong_induction_on generalizing data with
  | _ remaining induction =>
      rw [validateLoop]
      by_cases further : (data : Int) < block.length
      · rw [if_pos further]
        have lt : data < block.length := by omega
        rcases charValidate_spec lt with ⟨next, validated, found⟩
        rw [wellFormed_drop lt found]
        split
        · rename_i failed
          cases validated.symm.trans failed
        · rename_i ended
          cases validated.symm.trans ended
          exact ⟨none, rfl, iff_of_false Bool.false_ne_true nofun⟩
        · rename_i behind reached
          cases validated.symm.trans reached
          have progress := lt_of_charValidate reached
          rcases (found behind).mp rfl with ⟨sequence, -, stands, same⟩
          have fits := stands.length_le
          rw [List.length_drop] at fits
          rcases induction (block.length - behind) (by omega) behind (by omega) rfl with
            ⟨final, ran, whole⟩
          refine ⟨final, ran, ?_⟩
          rw [whole]
          constructor
          · exact fun rest => ⟨behind, rfl, by omega, rest⟩
          · rintro ⟨_, ⟨⟩, -, rest⟩
            exact rest
      · rw [if_neg further]
        have ended : block.drop data = [] := List.drop_eq_nil_iff.mpr (by omega)
        rw [ended]
        exact ⟨some data, rfl, iff_of_true rfl .nil⟩

theorem validate_eq (nonempty : block ≠ []) : validate block.length (some block) =
    (validateLoop block block.length 0).map fun final => if final.isSome then 1 else 0 := by
  have inside : 0 < block.length := List.length_pos_iff.mpr nonempty
  have loop : validateLoop block block.length 0 =
      match charValidate block block.length 0 with
      | .error fault => .error fault
      | .ok none => .ok none
      | .ok (some next) => validateLoop block block.length next := by
    rw [validateLoop, if_pos (by exact_mod_cast inside)]
    split <;> rename_i same <;> rw [Nat.cast_zero, Int.sub_zero] at same <;> rw [same]
  rw [validate, if_neg (by omega), loop]
  cases charValidate block block.length 0 with
  | error fault => rfl
  | ok next =>
      cases next with
      | none => rfl
      | some behind =>
          change (validateLoop block block.length behind >>= _) =
            (validateLoop block block.length behind).map _
          cases validateLoop block block.length behind with
          | error fault => rfl
          | ok final => rfl

theorem validate_spec (block : List UInt8) :
    ∃ good : Bool, validate block.length (some block) = .ok (if good then 1 else 0) ∧
      (good = true ↔ Utf8.WellFormed block) := by
  by_cases empty : block = []
  · subst empty
    exact ⟨true, rfl, iff_of_true rfl .nil⟩
  · rcases validateLoop_spec 0 (Nat.zero_le block.length) with ⟨final, ran, whole⟩
    rw [validate_eq empty, ran]
    exact ⟨final.isSome, rfl, whole⟩

/-- `UTF8_validate` returns without having looked behind the string, and returns 1 exactly for
well-formed UTF-8. -/
theorem validate_wellFormed (block : List UInt8) :
    ∃ rc, validate block.length (some block) = .ok rc ∧ (rc = 0 ∨ rc = 1) ∧
      (rc = 1 ↔ Utf8.WellFormed block) := by
  rcases validate_spec block with ⟨good, ran, whole⟩
  refine ⟨_, ran, ?_⟩
  rw [← whole]
  cases good with
  | true => exact ⟨.inr rfl, iff_of_true rfl rfl⟩
  | false => exact ⟨.inl rfl, iff_of_false (by decide) Bool.false_ne_true⟩

/-- The strings that pass are the encodings of characters. -/
theorem validate_encodes (block : List UInt8) : validate block.length (some block) = .ok 1 ↔
    ∃ characters : List Char, characters.flatMap String.utf8EncodeChar = block := by
  rcases validate_spec block with ⟨good, ran, whole⟩
  rw [← Utf8.wellFormed_iff, ← whole, ran]
  cases good with
  | true => exact iff_of_true rfl rfl
  | false => exact iff_of_false (by decide) Bool.false_ne_true

end UTF8

end MqttClient
