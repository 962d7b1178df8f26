import MqttClient.Foundation.WebSocketFrame

/-! # Parsing a WebSocket frame

The frame at the start of some bytes, as RFC 6455, section 5.2, lays it out: no reserved bit is
set, the length is written in the shortest of its three forms, and its longest form leaves
the highest bit zero.
-/

namespace MqttClient.Foundation.WebSocketFrame

def takeBytes (count : Nat) (bytes : List UInt8) : Option (List UInt8 × List UInt8) :=
  if count ≤ bytes.length then some (bytes.take count, bytes.drop count) else none

def parseLength (code : Nat) (bytes : List UInt8) : Option (Nat × List UInt8) :=
  if code < 126 then some (code, bytes)
  else if code = 126 then
    (takeBytes 2 bytes).bind fun taken =>
      if 126 ≤ ofBigEndian taken.1 then some (ofBigEndian taken.1, taken.2) else none
  else
    (takeBytes 8 bytes).bind fun taken =>
      if 65536 ≤ ofBigEndian taken.1 ∧ ofBigEndian taken.1 < 2 ^ 63 then
        some (ofBigEndian taken.1, taken.2)
      else none

def parseKey (isMasked : Bool) (bytes : List UInt8) :
    Option (Option (Fin 4 → UInt8) × List UInt8) :=
  if isMasked then
    (takeBytes 4 bytes).map fun taken => (some fun i => taken.1.getD i 0, taken.2)
  else some (none, bytes)

def parsed (first : UInt8) (key : Option (Fin 4 → UInt8)) (payload : List UInt8) :
    WebSocketFrame :=
  let frame : WebSocketFrame :=
    ⟨128 ≤ first.toNat, ⟨first.toNat % 16, Nat.mod_lt _ (Nat.succ_pos 15)⟩, key, payload⟩
  { frame with payload := frame.masked }

def parse : List UInt8 → Option (WebSocketFrame × List UInt8)
  | first :: second :: bytes =>
      if first.toNat / 16 % 8 = 0 then
        (parseLength (second.toNat % 128) bytes).bind fun length =>
          (parseKey (128 ≤ second.toNat) length.2).bind fun key =>
            (takeBytes length.1 key.2).map fun payload =>
              (parsed first key.1 payload.1, payload.2)
      else none
  | _ => none

section Parse

variable {frame : WebSocketFrame} {rest : List UInt8}

theorem takeBytes_append {count : Nat} {front : List UInt8} (length : front.length = count) :
    takeBytes count (front ++ rest) = some (front, rest) := by
  rw [takeBytes, if_pos, List.take_left' length, List.drop_left' length]
  rw [List.length_append, length]
  exact Nat.le_add_right count _

theorem parseLength_eq {length : Nat} (small : length < 2 ^ 63) :
    parseLength (lengthCode length) (extendedLength length ++ rest) = some (length, rest) := by
  unfold parseLength lengthCode extendedLength
  by_cases tiny : length < 126
  · simp [tiny]
  · by_cases medium : length < 65536
    · have value : ofBigEndian (bigEndian 2 length) = length :=
        ofBigEndian_bigEndian (by simpa using medium)
      have long : 126 ≤ length := Nat.le_of_not_lt tiny
      simp [tiny, medium, takeBytes_append (length_bigEndian 2 length), value, long]
    · have value : ofBigEndian (bigEndian 8 length) = length :=
        ofBigEndian_bigEndian (by omega)
      have long : 65536 ≤ length := Nat.le_of_not_lt medium
      simpa [tiny, medium, takeBytes_append (length_bigEndian 8 length), value, long] using small

theorem parseLength_huge {length : Nat} (huge : 2 ^ 63 ≤ length) (fits : length < 2 ^ 64) :
    parseLength (lengthCode length) (extendedLength length ++ rest) = none := by
  have tiny : ¬ length < 126 := by omega
  have medium : ¬ length < 65536 := by omega
  have value : ofBigEndian (bigEndian 8 length) = length := ofBigEndian_bigEndian (by omega)
  unfold parseLength lengthCode extendedLength
  simpa [tiny, medium, takeBytes_append (length_bigEndian 8 length), value] using fun _ => huge

theorem parseKey_eq : parseKey frame.key.isSome (frame.keyBytes ++ rest) =
    some (frame.key, rest) := by
  cases key : frame.key with
  | none => simp [parseKey, keyBytes, key]
  | some bytes =>
      have same : (fun i : Fin 4 => [bytes 0, bytes 1, bytes 2, bytes 3].getD i 0) = bytes := by
        funext i
        exact Fin.cases rfl (Fin.cases rfl (Fin.cases rfl (Fin.cases rfl fun i => i.elim0))) i
      have four : [bytes 0, bytes 1, bytes 2, bytes 3].length = 4 := rfl
      simp only [parseKey, keyBytes, key, Option.isSome_some, if_true, takeBytes_append four,
        Option.map_some, same]

theorem parsed_masked : parsed frame.firstByte frame.key frame.masked = frame := by
  have bound := frame.opcode.isLt
  have fin : decide (128 ≤ frame.firstByte.toNat) = frame.fin := by
    rw [toNat_firstByte]
    cases frame.fin with
    | true => simp
    | false => simp only [Bool.false_eq_true, if_false, decide_eq_false_iff_not]; omega
  have opcode : frame.firstByte.toNat % 16 = frame.opcode := by
    rw [toNat_firstByte]
    split <;> omega
  have payload : ({ frame with payload := frame.masked } : WebSocketFrame).masked =
      frame.payload := by
    cases key : frame.key with
    | none => simp [masked, key]
    | some bytes => simp [masked, key]
  simp only [parsed, fin, opcode, Fin.eta]
  exact congrArg (WebSocketFrame.mk frame.fin frame.opcode frame.key) payload

theorem encode_append (frame : WebSocketFrame) (rest : List UInt8) : frame.encode ++ rest =
    frame.firstByte :: frame.secondByte ::
      (extendedLength frame.payload.length ++ (frame.keyBytes ++ (frame.masked ++ rest))) := by
  simp [encode, header]

theorem reserved_firstByte (frame : WebSocketFrame) : frame.firstByte.toNat / 16 % 8 = 0 := by
  have bound := frame.opcode.isLt
  rw [toNat_firstByte]
  split <;> omega

theorem code_secondByte (frame : WebSocketFrame) :
    frame.secondByte.toNat % 128 = lengthCode frame.payload.length := by
  have bound := lengthCode_lt frame.payload.length
  rw [toNat_secondByte]
  split <;> omega

theorem masked_secondByte (frame : WebSocketFrame) :
    decide (128 ≤ frame.secondByte.toNat) = frame.key.isSome := by
  have bound := lengthCode_lt frame.payload.length
  rw [toNat_secondByte]
  cases frame.key.isSome with
  | true => simp
  | false => simp only [Bool.false_eq_true, if_false, decide_eq_false_iff_not]; omega

theorem parse_encode (small : frame.payload.length < 2 ^ 63) :
    parse (frame.encode ++ rest) = some (frame, rest) := by
  rw [encode_append, parse, if_pos frame.reserved_firstByte, code_secondByte,
    parseLength_eq small, Option.bind_some, masked_secondByte, parseKey_eq, Option.bind_some,
    takeBytes_append length_masked, Option.map_some, parsed_masked]

theorem parse_huge (huge : 2 ^ 63 ≤ frame.payload.length)
    (fits : frame.payload.length < 2 ^ 64) : parse (frame.encode ++ rest) = none := by
  rw [encode_append, parse, if_pos frame.reserved_firstByte, code_secondByte,
    parseLength_huge huge fits, Option.bind_none]

end Parse

/-! ## All frames of some bytes -/

section ParseAll

variable {bytes rest more : List UInt8}

theorem takeBytes_eq_some {count : Nat} {front : List UInt8}
    (taken : takeBytes count bytes = some (front, rest)) :
    front.length = count ∧ bytes = front ++ rest := by
  rcases Option.ite_none_right_eq_some.mp taken with ⟨enough, split⟩
  cases split
  exact ⟨by rw [List.length_take, min_eq_left enough], (List.take_append_drop ..).symm⟩

def FromFront {α : Type} (parser : List UInt8 → Option (α × List UInt8)) : Prop :=
  ∀ bytes value rest, parser bytes = some (value, rest) → ∃ front, bytes = front ++ rest ∧
    ∀ more, parser (front ++ more) = some (value, more)

theorem FromFront.takeBytes (count : Nat) : FromFront (takeBytes count) := by
  intro bytes front rest taken
  rcases takeBytes_eq_some taken with ⟨length, split⟩
  exact ⟨front, split, fun more => takeBytes_append length⟩

theorem FromFront.bind {α β : Type} {first : List UInt8 → Option (α × List UInt8)}
    {next : α → List UInt8 → Option (β × List UInt8)} (head : FromFront first)
    (tail : ∀ value, FromFront (next value)) :
    FromFront fun bytes => (first bytes).bind fun taken => next taken.1 taken.2 := by
  intro bytes value rest parsed
  rcases Option.bind_eq_some_iff.mp parsed with ⟨⟨taken, middle⟩, here, there⟩
  rcases head bytes taken middle here with ⟨front, split, same⟩
  rcases tail taken middle value rest there with ⟨back, split', same'⟩
  refine ⟨front ++ back, by rw [split, split', List.append_assoc], fun more => ?_⟩
  dsimp only
  rw [List.append_assoc, same]
  exact same' more

theorem FromFront.pure {α : Type} (value : α) : FromFront fun bytes => some (value, bytes) := by
  intro bytes other rest parsed
  cases parsed
  exact ⟨[], rfl, fun _ => rfl⟩

theorem FromFront.map {α β : Type} {parser : List UInt8 → Option (α × List UInt8)} (f : α → β)
    (inside : FromFront parser) :
    FromFront fun bytes => (parser bytes).map fun taken => (f taken.1, taken.2) := by
  intro bytes value rest parsed
  rcases Option.map_eq_some_iff.mp parsed with ⟨⟨taken, left⟩, here, made⟩
  cases made
  rcases inside bytes taken _ here with ⟨front, split, same⟩
  refine ⟨front, split, fun more => ?_⟩
  dsimp only
  rw [same, Option.map_some]

theorem FromFront.guard {α : Type} {parser : List UInt8 → Option (α × List UInt8)}
    (condition : Prop) [Decidable condition] (inside : FromFront parser) :
    FromFront fun bytes => if condition then parser bytes else none := by
  intro bytes value rest parsed
  rcases Option.ite_none_right_eq_some.mp parsed with ⟨holds, parsed⟩
  rcases inside bytes value rest parsed with ⟨front, split, same⟩
  refine ⟨front, split, fun more => ?_⟩
  dsimp only
  rw [if_pos holds, same]

theorem fromFront_parseLength (code : Nat) : FromFront (parseLength code) := by
  unfold parseLength
  by_cases tiny : code < 126
  · simp only [if_pos tiny]
    exact .pure code
  · by_cases medium : code = 126
    · simp only [if_neg tiny, if_pos medium]
      exact (FromFront.takeBytes 2).bind fun length =>
        (FromFront.pure (ofBigEndian length)).guard (126 ≤ ofBigEndian length)
    · simp only [if_neg tiny, if_neg medium]
      exact (FromFront.takeBytes 8).bind fun length =>
        (FromFront.pure (ofBigEndian length)).guard
          (65536 ≤ ofBigEndian length ∧ ofBigEndian length < 2 ^ 63)

theorem fromFront_parseKey (isMasked : Bool) : FromFront (parseKey isMasked) := by
  cases isMasked with
  | false => exact .pure none
  | true => exact (FromFront.takeBytes 4).map fun key => some fun i : Fin 4 => key.getD i 0

theorem fromFront_parse : FromFront parse := by
  intro bytes frame rest whole
  rcases bytes with _ | ⟨first, _ | ⟨second, bytes⟩⟩
  · cases whole
  · cases whole
  · rw [parse] at whole
    rcases Option.ite_none_right_eq_some.mp whole with ⟨unreserved, inside⟩
    have parts := (fromFront_parseLength (second.toNat % 128)).bind fun length =>
      (fromFront_parseKey (128 ≤ second.toNat)).bind fun key =>
        (FromFront.takeBytes length).map fun payload => parsed first key payload
    rcases parts bytes frame rest inside with ⟨front, split, same⟩
    refine ⟨first :: second :: front, by rw [split]; rfl, fun more => ?_⟩
    rw [List.cons_append, List.cons_append, parse, if_pos unreserved]
    exact same more

theorem length_of_parse {frame : WebSocketFrame} (found : parse bytes = some (frame, rest)) :
    rest.length < bytes.length := by
  rcases fromFront_parse bytes frame rest found with ⟨front, split, same⟩
  cases front with
  | nil =>
      have empty := same []
      cases empty
  | cons byte front =>
      rw [split, List.length_append, List.length_cons]
      omega

def parseAll (bytes : List UInt8) : List WebSocketFrame :=
  match _found : parse bytes with
  | none => []
  | some (frame, rest) => frame :: parseAll rest
termination_by bytes.length
decreasing_by exact length_of_parse _found

theorem parseAll_none (absent : parse bytes = none) : parseAll bytes = [] := by
  rw [parseAll]
  split
  · rfl
  · rename_i frame rest found
    rw [absent] at found
    cases found

theorem parseAll_some {frame : WebSocketFrame} (found : parse bytes = some (frame, rest)) :
    parseAll bytes = frame :: parseAll rest := by
  rw [parseAll]
  split
  · rename_i absent
    rw [absent] at found
    cases found
  · rename_i other left same
    rw [same] at found
    cases found
    rfl

theorem parse_part {frame : WebSocketFrame} (small : frame.payload.length < 2 ^ 63)
    (isPart : bytes <+: frame.encode) (proper : bytes ≠ frame.encode) : parse bytes = none := by
  rcases isPart with ⟨missing, whole⟩
  cases found : parse bytes with
  | none => rfl
  | some taken =>
      rcases fromFront_parse bytes taken.1 taken.2 found with ⟨front, split, same⟩
      -- with the missing bytes it is the frame, behind which there is nothing
      have read := same (taken.2 ++ missing)
      rw [← List.append_assoc, ← split, whole] at read
      have alone := @parse_encode frame [] small
      rw [List.append_nil, read, Option.some.injEq, Prod.mk.injEq, List.append_eq_nil_iff] at alone
      rw [alone.2.2, List.append_nil] at whole
      exact absurd whole proper

theorem parseAll_encodeAll {frames : List WebSocketFrame}
    (small : ∀ frame ∈ frames, frame.payload.length < 2 ^ 63) (part : parse rest = none) :
    parseAll (encodeAll frames ++ rest) = frames := by
  induction frames with
  | nil => exact parseAll_none part
  | cons frame frames induction =>
      have here := small frame (List.mem_cons_self ..)
      have later := induction fun other member => small other (List.mem_cons_of_mem _ member)
      rw [encodeAll_cons, List.append_assoc, parseAll_some (parse_encode here), later]

end ParseAll

end MqttClient.Foundation.WebSocketFrame
