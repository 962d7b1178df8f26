import MqttClient.MQTTPacket.Factory
import MqttClient.MQTTProperties

/-! # `MQTTPacket`: the remaining length

`MQTTPacket_encode` and `MQTTPacket_decode` with their counters, for whatever the
characters come from, and what each of them makes of the other's bytes.
-/

namespace MqttClient.MQTTPacket

open Foundation

/-! ## Writing -/

/-- The loop of `MQTTPacket_encode`: the count, and what `buf` points to unless it is
NULL. -/
def encodeLoop (buf : Option (List UInt8)) (rc : Int) (length : Nat) :
    Int × Option (List UInt8) :=
  let d := UInt8.ofNat (length % 128)
  let d := if length / 128 > 0 then d ||| 0x80 else d
  let buf := buf.map fun written => written ++ [d]
  if length / 128 > 0 then encodeLoop buf (rc + 1) (length / 128) else (rc + 1, buf)

/-- `MQTTPacket_encode` with a buffer or with NULL. -/
def encodeTo (buf : Option (List UInt8)) (length : Nat) : Int × Option (List UInt8) :=
  encodeLoop buf 0 length

theorem encodeLoop_eq (buf : Option (List UInt8)) (rc : Int) (length : Nat) :
    encodeLoop buf rc length =
      (rc + (encode length).length, buf.map fun written => written ++ encode length) := by
  induction length using Nat.strongRecOn generalizing buf rc with
  | ind length induction =>
      rw [encodeLoop, encode]
      split
      · rw [induction (length / 128) (by omega), List.length_cons, Option.map_map, Nat.cast_succ,
          Int.add_assoc, Int.add_comm 1]
        congr 2
        funext written
        simp
      · rfl

/-! ## Reading -/

variable {σ : Type} {getch : σ → Except Int UInt8 × σ}

/-- The loop of `MQTTPacket_decode` where `getch` is what `WebSocket_getch` does, with
the characters read. `none` is an `int` that overflows. -/
def decodeChars (getch : σ → Except Int UInt8 × σ) : (remaining : Nat) → (multiplier : Int) →
    (value : Nat) → σ → Option (List UInt8 × Except Int Nat × σ)
  | 0, _, _, state => some ([], .error socketError, state)
  | remaining + 1, multiplier, value, state =>
      match getch state with
      | (.error rc, state) => some ([], .error rc, state)
      | (.ok c, state) =>
          let added := (c.toNat % 128 : Nat) * multiplier
          let next := multiplier * 128
          if toInt added = added ∧ toInt next = next then
            let value := value + added.toNat
            if c.toNat ≥ 128 then
              (decodeChars getch remaining next value state).map fun (chars, result) =>
                (c :: chars, result)
            else some ([c], .ok value, state)
          else none

def decodeFrom (getch : σ → Except Int UInt8 × σ) (state : σ) :
    Option (List UInt8 × Except Int Nat × σ) :=
  decodeChars getch maxNoOfRemainingLengthBytes 1 0 state

inductive Delivers (getch : σ → Except Int UInt8 × σ) : σ → List UInt8 → σ → Prop
  | done (state : σ) : Delivers getch state [] state
  | char {state after final : σ} {c : UInt8} {chars : List UInt8} :
      getch state = (.ok c, after) → Delivers getch after chars final →
      Delivers getch state (c :: chars) final

theorem Delivers.split {front back : List UInt8} : ∀ {state final : σ},
    Delivers getch state (front ++ back) final →
    ∃ behind, Delivers getch state front behind ∧ Delivers getch behind back final := by
  induction front with
  | nil => exact fun delivers => ⟨_, .done _, delivers⟩
  | cons c front induction =>
      intro state final delivers
      cases delivers with
      | char called rest =>
          rcases induction rest with ⟨behind, first, second⟩
          exact ⟨behind, .char called first, second⟩

private theorem round_fits {multiplier remaining : Nat}
    (rounds : multiplier * 128 ^ (remaining + 1) = 268435456) (c : UInt8) :
    toInt ((c.toNat % 128 * multiplier : Nat)) = (c.toNat % 128 * multiplier : Nat) ∧
      toInt ((multiplier * 128 : Nat)) = (multiplier * 128 : Nat) := by
  have scale : multiplier * 128 ≤ 268435456 := by
    rw [← rounds]
    exact Nat.mul_le_mul_left _ (Nat.le_pow (Nat.succ_pos remaining))
  have product : c.toNat % 128 * multiplier ≤ 128 * multiplier :=
    Nat.mul_le_mul_right _ (by omega)
  exact ⟨toInt_of_lt (by omega) (by omega), toInt_of_lt (by omega) (by omega)⟩

private theorem next_rounds {multiplier remaining : Nat}
    (rounds : multiplier * 128 ^ (remaining + 1) = 268435456) :
    multiplier * 128 * 128 ^ remaining = 268435456 := by
  rw [← rounds, pow_succ, Nat.mul_assoc, Nat.mul_comm 128]

theorem decodeChars_char {multiplier remaining : Nat}
    (rounds : multiplier * 128 ^ (remaining + 1) = 268435456) (value : Nat) {state after : σ}
    {c : UInt8} (called : getch state = (.ok c, after)) :
    decodeChars getch (remaining + 1) multiplier value state =
      if c.toNat ≥ 128 then
        (decodeChars getch remaining (multiplier * 128 : Nat)
          (value + c.toNat % 128 * multiplier) after).map fun (chars, result) =>
            (c :: chars, result)
      else some ([c], .ok (value + c.toNat % 128 * multiplier), after) := by
  rcases round_fits rounds c with ⟨product, next⟩
  push_cast at product next
  rw [decodeChars, called]
  dsimp only
  rw [if_pos ⟨product, next⟩, ← Nat.cast_mul, Int.toNat_natCast, Nat.cast_mul]
  rfl

theorem decodeChars_total (getch : σ → Except Int UInt8 × σ) (remaining : Nat) :
    ∀ {multiplier : Nat} (value : Nat) (state : σ), multiplier * 128 ^ remaining = 268435456 →
    ∃ chars result final,
      decodeChars getch remaining multiplier value state = some (chars, result, final) ∧
      chars.length ≤ remaining ∧
      ∀ number, result = .ok number → number + multiplier ≤ value + 268435456 := by
  induction remaining with
  | zero => exact fun _ state _ =>
      ⟨[], .error socketError, state, rfl, Nat.le_refl _, fun _ found => nomatch found⟩
  | succ remaining induction =>
      intro multiplier value state rounds
      rcases called : getch state with ⟨rc | c, after⟩
      · exact ⟨[], .error rc, after, by rw [decodeChars, called], Nat.zero_le _,
          fun _ found => nomatch found⟩
      · have digit : c.toNat % 128 * multiplier ≤ 127 * multiplier :=
          Nat.mul_le_mul_right _ (by omega)
        have scale : multiplier * 128 ≤ 268435456 := by
          rw [← rounds]
          exact Nat.mul_le_mul_left _ (Nat.le_pow (Nat.succ_pos remaining))
        rw [decodeChars_char rounds value called]
        split
        · rcases induction (value + c.toNat % 128 * multiplier) after (next_rounds rounds) with
            ⟨chars, result, final, looped, short, bound⟩
          rw [looped]
          refine ⟨c :: chars, result, final, rfl, Nat.succ_le_succ short, fun number found => ?_⟩
          have below := bound number found
          omega
        · refine ⟨[c], _, after, rfl, by simp, fun number found => ?_⟩
          cases found
          omega

theorem decodeChars_value (remaining : Nat) : ∀ {multiplier value number : Nat}
    {chars : List UInt8} {state final : σ}, multiplier * 128 ^ remaining = 268435456 →
    Delivers getch state chars final →
    VariableByte.scan remaining chars = .value number [] →
    decodeChars getch remaining multiplier value state =
      some (chars, .ok (value + multiplier * number), final) := by
  induction remaining with
  | zero =>
      intro _ _ _ _ _ _ _ _ scanned
      cases scanned
  | succ remaining induction =>
      intro multiplier value number chars state final rounds delivers scanned
      cases delivers with
      | done => cases scanned
      | @char _ after _ c chars called rest =>
          rw [VariableByte.scan] at scanned
          rw [decodeChars_char rounds value called]
          split at scanned
          · rename_i last
            cases scanned
            cases rest
            rw [if_neg (by omega), Nat.mod_eq_of_lt last, Nat.mul_comm]
          · rename_i continued
            cases tail : VariableByte.scan remaining chars with
            | incomplete => rw [tail] at scanned; cases scanned
            | overlong => rw [tail] at scanned; cases scanned
            | value higher left =>
                rw [tail, VariableByte.Scan.consDigit, VariableByte.Scan.value.injEq] at scanned
                rcases scanned with ⟨rfl, rfl⟩
                have sum : value + c.toNat % 128 * multiplier + multiplier * 128 * higher =
                    value + multiplier * (c.toNat % 128 + 128 * higher) := by ring
                rw [if_pos (by omega), induction (next_rounds rounds) rest tail, Option.map_some,
                  sum]

theorem decodeChars_overlong (remaining : Nat) : ∀ {multiplier value : Nat}
    {chars more : List UInt8} {state final : σ}, multiplier * 128 ^ remaining = 268435456 →
    Delivers getch state chars final → chars.length = remaining →
    VariableByte.scan remaining (chars ++ more) = .overlong →
    decodeChars getch remaining multiplier value state =
      some (chars, .error socketError, final) := by
  induction remaining with
  | zero =>
      intro _ _ chars _ _ _ _ delivers none _
      cases List.length_eq_zero_iff.mp none
      cases delivers
      rfl
  | succ remaining induction =>
      intro multiplier value chars more state final rounds delivers long scanned
      cases delivers with
      | done => cases long
      | @char _ after _ c chars called rest =>
          rw [List.cons_append, VariableByte.scan] at scanned
          rw [decodeChars_char rounds value called]
          split at scanned
          · cases scanned
          · cases tail : VariableByte.scan remaining (chars ++ more) with
            | incomplete => rw [tail] at scanned; cases scanned
            | value higher left => rw [tail] at scanned; cases scanned
            | overlong =>
                rw [if_pos (by omega),
                  induction (next_rounds rounds) rest (Nat.succ_inj.mp long) tail]
                rfl

/-- With the characters of a socket, `decodeFrom` is the `decode` of the packet reader. -/
theorem decodeFrom_getch (socket : SOCKET) (reads : SocketReads UInt8) :
    decodeFrom (Socket.getch socket) reads = some (decode socket reads) := by
  have loop : ∀ (remaining multiplier value : Nat) (reads : SocketReads UInt8),
      multiplier * 128 ^ remaining = 268435456 →
      decodeChars (Socket.getch socket) remaining multiplier value reads =
        some (decodeLoop socket remaining multiplier value reads) := by
    intro remaining
    induction remaining with
    | zero => exact fun _ _ _ _ => rfl
    | succ remaining induction =>
        intro multiplier value reads rounds
        rcases called : Socket.getch socket reads with ⟨rc | c, after⟩
        · rw [decodeChars, decodeLoop, called]
        · rw [decodeChars_char rounds value called, decodeLoop, called,
            induction _ _ _ (next_rounds rounds)]
          by_cases continued : c.toNat ≥ 128
          · rw [if_pos continued]
            exact congrArg some (if_pos continued).symm
          · rw [if_neg continued]
            exact congrArg some (if_neg continued).symm
  exact loop 4 1 0 reads (by decide)

/-! ## The codec -/

/-- Up to 268435455 the count, the closed form and the bytes agree and the value is read
back from them; a larger value takes more than four bytes and is rejected; and whatever
is read, at most four characters of it are, without overflow. -/
theorem remainingLength_codec {σ : Type} (getch : σ → Except Int UInt8 × σ) :
    (∀ n : Nat, n ≤ 268435455 →
      (∀ buf, encodeTo (some buf) n = ((encodeTo none n).1, some (buf ++ encode n))) ∧
      (encodeTo none n).1 = (encode n).length ∧ (encodeTo none n).1 = vbiLen n ∧
      ∀ state rest final, Delivers getch state (encode n ++ rest) final →
        ∃ behind, Delivers getch state (encode n) behind ∧ Delivers getch behind rest final ∧
          decodeFrom getch state = some (encode n, .ok n, behind)) ∧
    (∀ n : Nat, 268435456 ≤ n → n < 2 ^ 64 →
      4 < (encodeTo none n).1 ∧
      ∀ state rest final, Delivers getch state (encode n ++ rest) final →
        ∃ behind, Delivers getch state ((encode n).take 4) behind ∧
          decodeFrom getch state = some ((encode n).take 4, .error socketError, behind)) ∧
    ∀ state, ∃ chars result final,
      decodeFrom getch state = some (chars, result, final) ∧ chars.length ≤ 4 ∧
        ∀ number, result = .ok number → number ≤ 268435455 := by
  have counted (n : Nat) : (encodeTo none n).1 = (encode n).length := by
    rw [encodeTo, encodeLoop_eq, Int.zero_add]
  refine ⟨fun n small => ⟨fun buf => ?_, counted n, ?_, fun state rest final delivers => ?_⟩,
    fun n large _ => ⟨?_, fun state rest final delivers => ?_⟩, fun state => ?_⟩
  · rw [counted, encodeTo, encodeLoop_eq, Int.zero_add, Option.map_some]
  · rw [counted, MQTTProperties.length_encode (by omega)]
  · rcases delivers.split with ⟨behind, written, further⟩
    have short : (VariableByte.encode n).length ≤ 4 :=
      VariableByte.encode_length_le 3 (show n < 128 ^ (3 + 1) by omega)
    have scanned := VariableByte.scan_encode_of_length n short []
    rw [List.append_nil, ← encode_eq] at scanned
    refine ⟨behind, written, further, ?_⟩
    rw [decodeFrom, maxNoOfRemainingLengthBytes,
      show (1 : Int) = ((1 : Nat) : Int) from rfl,
      decodeChars_value 4 (by decide) written scanned, Nat.zero_add, Nat.one_mul]
  · rw [counted, encode_eq]
    have long := VariableByte.lt_encode_length 4 (show 128 ^ 4 ≤ n by omega)
    omega
  · have long := VariableByte.lt_encode_length 4 (show 128 ^ 4 ≤ n by omega)
    have scanned := VariableByte.scan_encode_overlong n long []
    rw [List.append_nil, ← encode_eq, ← List.take_append_drop 4 (encode n)] at scanned
    rw [← encode_eq] at long
    rw [← List.take_append_drop 4 (encode n), List.append_assoc] at delivers
    rcases delivers.split with ⟨behind, first, _⟩
    refine ⟨behind, first, ?_⟩
    rw [decodeFrom, maxNoOfRemainingLengthBytes,
      show (1 : Int) = ((1 : Nat) : Int) from rfl,
      decodeChars_overlong 4 (by decide) first (by rw [List.length_take]; omega) scanned]
  · rcases decodeChars_total getch 4 0 state (show 1 * 128 ^ 4 = 268435456 by decide) with
      ⟨chars, result, final, decoded, short, bound⟩
    refine ⟨chars, result, final, decoded, short, fun number found => ?_⟩
    have below := bound number found
    omega

end MqttClient.MQTTPacket
