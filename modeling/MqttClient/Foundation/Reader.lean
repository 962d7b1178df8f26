import MqttClient.Foundation.NetworkOrder
import MqttClient.Foundation.VariableByte

/-! # Readers of byte strings

A format is given by the reader that takes a value off the front of a byte string.
Bytes are in the format of a value when the reader finds that value in them,
whatever follows them; formats are put together as their readers are.
-/

namespace MqttClient.Foundation

abbrev Reader := StateT (List UInt8) Option

namespace Reader

variable {α β : Type}

/-! ## Formats -/

def byte : Reader UInt8
  | [] => none
  | first :: rest => some (first, rest)

def take (count : Nat) : Reader (List UInt8) := fun input =>
  if count ≤ input.length then some (input.take count, input.drop count) else none

/-- An unsigned number of `width` bytes in network byte order. -/
def number (width : Nat) : Reader Nat := ofBigEndian <$> take width

def prefixed : Reader (List UInt8) := number 2 >>= take

/-- A variable byte integer of at most `limit` digits. -/
def numeral (limit : Nat) : Reader Nat := fun input =>
  match VariableByte.scan limit input with
  | .value value rest => some (value, rest)
  | _ => none

def optional (present : Bool) (reader : Reader α) : Reader (Option α) :=
  if present then some <$> reader else pure none

def ofOption (value : Option α) : Reader α := fun input => value.map (·, input)

/-- The loop of `items`, for at most so many of them. -/
def itemsLoop (item : Reader α) : Nat → List UInt8 → Option (List α)
  | _, [] => some []
  | 0, _ :: _ => none
  | limit + 1, first :: input => do
      let (value, rest) ← item (first :: input)
      let values ← itemsLoop item limit rest
      return value :: values

def items (item : Reader α) : Reader (List α) := fun input =>
  (itemsLoop item input.length input).map (·, [])

def toEnd (reader : Reader α) (bytes : List UInt8) : Option α :=
  match reader bytes with
  | some (value, []) => some value
  | _ => none

/-- Reads a block of `count` bytes to its end. -/
def block (count : Nat) (reader : Reader α) : Reader α :=
  take count >>= fun bytes => ofOption (reader.toEnd bytes)

/-! ## Bytes in a format -/

def Reads (reader : Reader α) (bytes : List UInt8) (value : α) : Prop :=
  ∀ rest, reader (bytes ++ rest) = some (value, rest)

variable {reader : Reader α} {bytes : List UInt8} {value : α}

theorem reads_pure (value : α) : Reads (pure value) [] value := fun _ => rfl

theorem Reads.bind {next : α → Reader β} {more : List UInt8} {result : β}
    (first : Reads reader bytes value) (second : Reads (next value) more result) :
    Reads (reader >>= next) (bytes ++ more) result := by
  intro rest
  rw [List.append_assoc]
  change (reader (bytes ++ (more ++ rest))).bind (fun found => next found.1 found.2) = _
  rw [first, Option.bind_some, second]

theorem Reads.map (first : Reads reader bytes value) (change : α → β) :
    Reads (change <$> reader) bytes (change value) := by
  intro rest
  change (reader (bytes ++ rest)).bind (fun found => some (change found.1, found.2)) = _
  rw [first, Option.bind_some]

theorem reads_optional {source : Option β} {write : β → List UInt8} {read : β → α}
    (reads : ∀ present, source = some present → Reads reader (write present) (read present)) :
    Reads (optional source.isSome reader) ((source.map write).getD []) (source.map read) := by
  cases source with
  | none => exact reads_pure none
  | some present => exact (reads present rfl).map some

theorem reads_ofOption {found : Option α} (isFound : found = some value) :
    Reads (ofOption found) [] value := by
  intro rest
  rw [ofOption, isFound, Option.map_some, List.nil_append]

theorem reads_byte (first : UInt8) : Reads byte [first] first := fun _ => rfl

theorem reads_take (bytes : List UInt8) : Reads (take bytes.length) bytes bytes := by
  intro rest
  rw [take, if_pos (by simp), List.take_left, List.drop_left]

theorem reads_number (bytes : List UInt8) :
    Reads (number bytes.length) bytes (ofBigEndian bytes) :=
  (reads_take bytes).map ofBigEndian

theorem reads_prefixed {field string : List UInt8} (width : field.length = 2)
    (counted : ofBigEndian field = string.length) : Reads prefixed (field ++ string) string := by
  have length := reads_number field
  rw [width, counted] at length
  exact length.bind (reads_take string)

theorem reads_numeral {value limit : Nat}
    (short : (VariableByte.encode value).length ≤ limit) :
    Reads (numeral limit) (VariableByte.encode value) value := by
  intro rest
  rw [numeral, VariableByte.scan_encode_of_length value short]

theorem numeral_overlong {value limit : Nat}
    (long : limit < (VariableByte.encode value).length) (rest : List UInt8) :
    numeral limit (VariableByte.encode value ++ rest) = none := by
  rw [numeral, VariableByte.scan_encode_overlong value long]

theorem Reads.toEnd_bind (first : Reads reader bytes value) (next : α → Reader β)
    (more : List UInt8) : (reader >>= next).toEnd (bytes ++ more) = (next value).toEnd more := by
  have goesOn : (reader >>= next) (bytes ++ more) = next value more := by
    change (reader (bytes ++ more)).bind (fun found => next found.1 found.2) = _
    rw [first, Option.bind_some]
  rw [toEnd, goesOn, toEnd]

theorem toEnd_map (change : α → β) : (change <$> reader).toEnd bytes =
    (reader.toEnd bytes).map change := by
  have changed : (change <$> reader) bytes =
      (reader bytes).bind fun found => some (change found.1, found.2) := rfl
  rw [toEnd, changed, toEnd]
  rcases reader bytes with - | ⟨value, - | ⟨first, rest⟩⟩ <;> rfl

theorem toEnd_bind_of_none (missing : reader bytes = none) (next : α → Reader β) :
    (reader >>= next).toEnd bytes = none := by
  have stuck : (reader >>= next) bytes = none := by
    change (reader bytes).bind (fun found => next found.1 found.2) = none
    rw [missing, Option.bind_none]
  rw [toEnd, stuck]

theorem itemsLoop_eq {item : Reader α} : ∀ {fields : List (List UInt8)} {values : List α}
    {limit : Nat}, List.Forall₂ (fun field value => field ≠ [] ∧ Reads item field value)
      fields values → fields.flatten.length ≤ limit →
    itemsLoop item limit fields.flatten = some values
  | [], [], limit, _, _ => by rw [List.flatten_nil, itemsLoop]
  | field :: fields, value :: values, limit, .cons ⟨nonempty, reads⟩ others, room => by
      rcases List.exists_cons_of_ne_nil nonempty with ⟨first, tail, rfl⟩
      rw [List.flatten_cons, List.length_append, List.length_cons] at room
      cases limit with
      | zero => omega
      | succ limit =>
          have here := reads fields.flatten
          have rest := itemsLoop_eq others (show fields.flatten.length ≤ limit by omega)
          rw [List.cons_append] at here
          rw [List.flatten_cons, List.cons_append, itemsLoop, here, Option.bind_eq_bind,
            Option.bind_some]
          dsimp only
          rw [rest]
          rfl

theorem toEnd_items {item : Reader α} {fields : List (List UInt8)} {values : List α}
    (each : List.Forall₂ (fun field value => field ≠ [] ∧ Reads item field value)
      fields values) : (items item).toEnd fields.flatten = some values := by
  rw [toEnd, items, itemsLoop_eq each (Nat.le_refl _), Option.map_some]

theorem Reads.toEnd (reads : Reads reader bytes value) : reader.toEnd bytes = some value := by
  have whole := reads []
  rw [List.append_nil] at whole
  rw [Reader.toEnd, whole]

theorem reads_block (whole : reader.toEnd bytes = some value) :
    Reads (block bytes.length reader) bytes value := by
  have taken : Reads (block bytes.length reader) (bytes ++ []) value :=
    Reads.bind (reads_take bytes) (reads_ofOption whole)
  rwa [List.append_nil] at taken

end Reader

end MqttClient.Foundation
