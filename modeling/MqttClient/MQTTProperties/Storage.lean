import MqttClient.MQTTProperties

/-! # `MQTTProperties`: the array

`MQTTProperties_add`, `MQTTProperties_write` and `MQTTProperties_copy` on the memory
behind `array`, with the `int` that adds up the lengths: what is written outside the
allocated slots, read before it was stored, or added up beyond an `int` is undefined.
-/

namespace MqttClient

/-- `MQTTProperties` with the slots of its array, each of which holds the property that
was stored in it, if one was. -/
structure MQTTPropertyArray where
  count : Nat
  maxCount : Nat
  length : Int
  array : Option (List (Option MQTTProperty))
  deriving DecidableEq, Repr

namespace MQTTPropertyArray

def zero : MQTTPropertyArray := ⟨0, 0, 0, none⟩

/-- `malloc` and `realloc`: what fits of the old slots, then slots that nothing was
stored in. -/
def realloc (slots : Nat) (array : List (Option MQTTProperty)) : List (Option MQTTProperty) :=
  array.take slots ++ List.replicate (slots - array.length) none

/-- The part of `MQTTProperties_add` that makes room: the new `max_count`, and the array. -/
def grow (props : MQTTPropertyArray) : Nat × List (Option MQTTProperty) :=
  match props.array with
  | none => (10, realloc 10 [])
  | some array =>
      if props.count = props.maxCount then
        (props.maxCount + 10, realloc (props.maxCount + 10) array)
      else (props.maxCount, array)

/-- `MQTTProperties_add`. The counts stay below the length, which is checked. -/
def add (props : MQTTPropertyArray) (prop : MQTTProperty) : Option (Int × MQTTPropertyArray) :=
  match MQTTProperty.getType prop.identifier with
  | none => some (mqttInvalidPropertyId, props)
  | some type =>
      let (maxCount, array) := props.grow
      let length := props.length + (MQTTProperties.valueLen prop.value type + 1)
      if props.count < array.length ∧ toInt length = length then
        some (0, ⟨props.count + 1, maxCount, length, some (array.set props.count (some prop))⟩)
      else none

/-- The properties that a loop up to `count` reads. -/
def stored (props : MQTTPropertyArray) : Option (List MQTTProperty) :=
  let array := props.array.getD []
  if props.count ≤ array.length then (array.take props.count).mapM id else none

def len (props : MQTTPropertyArray) : Int := props.length + MQTTPacket.vbiLen props.length

def write (props : MQTTPropertyArray) : Option (List UInt8 × Int) :=
  props.stored.map fun stored =>
    let (bytes, rc) := MQTTProperties.writeLoop stored 1
    (MQTTPacket.encode props.length.toNat ++ bytes, rc)

/-- Successive calls of `MQTTProperties_add`. -/
def addAll (props : MQTTPropertyArray) (added : List MQTTProperty) : Option MQTTPropertyArray :=
  added.foldlM (fun props prop => (props.add prop).map Prod.snd) props

/-- `MQTTProperties_copy`, which logs a failing `MQTTProperties_add` and goes on. -/
def copy (props : MQTTPropertyArray) : Option MQTTPropertyArray :=
  props.stored.bind zero.addAll

/-! ## What is stored -/

/-- What `MQTTProperties_add` adds to the length. -/
def counted (prop : MQTTProperty) : Int :=
  match MQTTProperty.getType prop.identifier with
  | none => 0
  | some type => MQTTProperties.valueLen prop.value type + 1

def Known (prop : MQTTProperty) : Prop := (MQTTProperty.getType prop.identifier).isSome

instance : DecidablePred Known := fun _ => inferInstanceAs (Decidable (_ = true))

structure Holds (props : MQTTPropertyArray) (entries : List MQTTProperty) : Prop where
  count : props.count = entries.length
  length : props.length = (entries.map counted).sum
  fits : entries.length ≤ props.maxCount
  array : props.array.getD [] =
    entries.map some ++ List.replicate (props.maxCount - entries.length) none
  known : ∀ prop ∈ entries, Known prop
  empty : props.array = none → props.maxCount = 0

theorem holds_zero : Holds zero [] where
  count := rfl
  length := rfl
  fits := Nat.le_refl 0
  array := rfl
  known := fun _ member => nomatch member
  empty := fun _ => rfl

theorem vbiLen_pos (remLen : Int) : 0 < MQTTPacket.vbiLen remLen := by
  unfold MQTTPacket.vbiLen
  split
  · decide
  · split
    · decide
    · split <;> decide

theorem counted_nonneg (prop : MQTTProperty) : 0 ≤ counted prop := by
  unfold counted
  split
  · exact Int.le_refl 0
  · rename_i type _
    have positive := vbiLen_pos (toInt prop.value.integer4.toNat)
    cases type <;> simp only [MQTTProperties.valueLen] <;> omega

theorem sum_counted_nonneg (entries : List MQTTProperty) : 0 ≤ (entries.map counted).sum := by
  induction entries with
  | nil => exact Int.le_refl 0
  | cons prop entries induction =>
      have here := counted_nonneg prop
      rw [List.map_cons, List.sum_cons]
      omega

theorem Holds.slots {props : MQTTPropertyArray} {entries : List MQTTProperty}
    (holds : Holds props entries) : (props.array.getD []).length = props.maxCount := by
  have fits := holds.fits
  rw [holds.array, List.length_append, List.length_map, List.length_replicate]
  omega

private theorem mapM_map_some (entries : List MQTTProperty) :
    (entries.map some).mapM id = some entries := by
  induction entries with
  | nil => rfl
  | cons prop entries induction => rw [List.map_cons, List.mapM_cons, induction]; rfl

theorem Holds.stored {props : MQTTPropertyArray} {entries : List MQTTProperty}
    (holds : Holds props entries) : props.stored = some entries := by
  have fits := holds.fits
  rw [MQTTPropertyArray.stored, holds.slots, holds.count, if_pos fits, holds.array,
    ← List.length_map some,
    List.take_left, mapM_map_some]

theorem Holds.write {props : MQTTPropertyArray} {entries : List MQTTProperty}
    (holds : Holds props entries) :
    props.write = some (MQTTPacket.encode (entries.map counted).sum.toNat ++
      (MQTTProperties.writeLoop entries 1).1, (MQTTProperties.writeLoop entries 1).2) := by
  rw [MQTTPropertyArray.write, holds.stored, holds.length]
  rfl

/-! ## `MQTTProperties_add` -/

theorem Holds.add_unknown {props : MQTTPropertyArray} {prop : MQTTProperty}
    (unknown : ¬Known prop) : props.add prop = some (mqttInvalidPropertyId, props) := by
  rw [Known, Option.not_isSome_iff_eq_none] at unknown
  rw [MQTTPropertyArray.add, unknown]

private theorem set_free (entries : List MQTTProperty) (prop : MQTTProperty) {free : Nat}
    (room : 0 < free) :
    (entries.map some ++ List.replicate free none).set entries.length (some prop) =
      (entries ++ [prop]).map some ++ List.replicate (free - 1) none := by
  rcases free with - | free
  · omega
  · rw [List.set_append_right _ _ (by simp), List.length_map, Nat.sub_self, List.replicate_succ]
    simp

theorem Holds.grow {props : MQTTPropertyArray} {entries : List MQTTProperty}
    (holds : Holds props entries) :
    entries.length < props.grow.1 ∧
      props.grow.2 = entries.map some ++ List.replicate (props.grow.1 - entries.length) none := by
  have fits := holds.fits
  have slots := holds.slots
  have stored := holds.array
  unfold MQTTPropertyArray.grow
  cases array : props.array with
  | none =>
      rw [holds.empty array, Nat.le_zero, List.length_eq_zero_iff] at fits
      rw [fits]
      exact ⟨Nat.succ_pos 9, rfl⟩
  | some array =>
      rw [array, Option.getD_some] at slots stored
      dsimp only
      split
      · rename_i full
        rw [holds.count] at full
        refine ⟨by dsimp only; omega, ?_⟩
        dsimp only
        rw [realloc, List.take_of_length_le (by omega), slots, stored, ← full,
          Nat.add_sub_cancel_left, Nat.sub_self, List.replicate_zero, List.append_nil]
      · rename_i room
        rw [holds.count] at room
        exact ⟨by dsimp only; omega, stored⟩

theorem Holds.add_known {props : MQTTPropertyArray} {entries : List MQTTProperty}
    {prop : MQTTProperty} (holds : Holds props entries) (known : Known prop) :
    (props.length + counted prop < 2147483648 →
      ∃ after, props.add prop = some (0, after) ∧ Holds after (entries ++ [prop])) ∧
    (¬props.length + counted prop < 2147483648 → props.add prop = none) := by
  rcases Option.isSome_iff_exists.mp known with ⟨type, typed⟩
  rcases holds.grow with ⟨room, slots⟩
  have size : counted prop = MQTTProperties.valueLen prop.value type + 1 := by
    rw [counted, typed]
  have nonnegative : 0 ≤ props.length + counted prop := by
    rw [holds.length]
    exact Int.add_nonneg (sum_counted_nonneg entries) (counted_nonneg prop)
  have added : props.add prop =
      if props.length + counted prop < 2147483648 then
        some (0, ⟨entries.length + 1, props.grow.1, props.length + counted prop,
          some ((entries ++ [prop]).map some ++
            List.replicate (props.grow.1 - entries.length - 1) none)⟩)
      else none := by
    rw [MQTTPropertyArray.add, typed]
    dsimp only
    rw [slots, holds.count, set_free entries prop (by omega), ← size]
    refine if_congr ⟨fun both => (toInt_eq_self_iff.mp both.2).2, fun small => ⟨?_, ?_⟩⟩ rfl rfl
    · rw [List.length_append, List.length_map, List.length_replicate]
      omega
    · exact toInt_of_lt nonnegative small
  rw [added]
  refine ⟨fun small => ⟨_, if_pos small, ?_, ?_, ?_, ?_, ?_, ?_⟩, fun large => if_neg large⟩
  · rw [List.length_append, List.length_singleton]
  · dsimp only
    rw [List.map_append, List.sum_append, ← holds.length, List.map_singleton, List.sum_singleton]
  · rw [List.length_append, List.length_singleton]
    exact room
  · rw [Option.getD_some, List.length_append, List.length_singleton, Nat.sub_sub]
  · intro other member
    rcases List.mem_append.mp member with member | member
    · exact holds.known other member
    · rw [List.mem_singleton.mp member]
      exact known
  · exact fun none => nomatch none

/-! ## Successive calls -/

theorem addAll_cons (props : MQTTPropertyArray) (prop : MQTTProperty)
    (added : List MQTTProperty) :
    props.addAll (prop :: added) = (props.add prop).bind fun result => result.2.addAll added := by
  rw [addAll, List.foldlM_cons]
  cases props.add prop <;> rfl

theorem Holds.addAll {added : List MQTTProperty} :
    ∀ {props : MQTTPropertyArray} {entries : List MQTTProperty}, Holds props entries →
    props.length + (added.map counted).sum < 2147483648 →
    ∃ after, props.addAll added = some after ∧ Holds after (entries ++ added.filter Known) := by
  induction added with
  | nil =>
      intro props entries holds _
      exact ⟨props, rfl, by rwa [List.filter_nil, List.append_nil]⟩
  | cons prop added induction =>
      intro props entries holds small
      rw [List.map_cons, List.sum_cons] at small
      have rest := sum_counted_nonneg added
      rw [addAll_cons]
      by_cases known : Known prop
      · rcases (holds.add_known known).1 (by omega) with ⟨middle, first, stored⟩
        have length := stored.length
        rw [List.map_append, List.sum_append, ← holds.length, List.map_singleton,
          List.sum_singleton] at length
        rcases induction stored (by omega) with ⟨after, others, holdsAll⟩
        refine ⟨after, by rw [first, Option.bind_some, others], ?_⟩
        rwa [List.filter_cons_of_pos (by simpa using known), List.append_cons]
      · have none : counted prop = 0 := by
          rw [Known, Option.not_isSome_iff_eq_none] at known
          rw [counted, known]
        rcases induction holds (by omega) with ⟨after, others, holdsAll⟩
        refine ⟨after, by rw [add_unknown known, Option.bind_some, others], ?_⟩
        rwa [List.filter_cons_of_neg (by simpa using known)]

theorem Holds.of_addAll {added : List MQTTProperty} :
    ∀ {props after : MQTTPropertyArray} {entries : List MQTTProperty}, Holds props entries →
    props.length < 2147483648 → props.addAll added = some after →
    Holds after (entries ++ added.filter Known) ∧ after.length < 2147483648 := by
  induction added with
  | nil =>
      intro props after entries holds small same
      cases same
      rw [List.filter_nil, List.append_nil]
      exact ⟨holds, small⟩
  | cons prop added induction =>
      intro props after entries holds small called
      rw [addAll_cons] at called
      by_cases known : Known prop
      · by_cases fits : props.length + counted prop < 2147483648
        · rcases (holds.add_known known).1 fits with ⟨middle, first, stored⟩
          have length := stored.length
          rw [List.map_append, List.sum_append, ← holds.length, List.map_singleton,
            List.sum_singleton] at length
          rw [first, Option.bind_some] at called
          rw [List.filter_cons_of_pos (by simpa using known), List.append_cons]
          exact induction stored (by omega) called
        · rw [(holds.add_known known).2 fits] at called
          cases called
      · rw [add_unknown known, Option.bind_some] at called
        rw [List.filter_cons_of_neg (by simpa using known)]
        exact induction holds small called

theorem holds_of_addAll {added : List MQTTProperty} {props : MQTTPropertyArray}
    (built : zero.addAll added = some props) :
    Holds props (added.filter Known) ∧ props.length < 2147483648 :=
  holds_zero.of_addAll (by decide) built

/-! ## The list that the array stands for -/

def view (props : MQTTPropertyArray) (entries : List MQTTProperty) : MQTTProperties :=
  ⟨props.count, props.maxCount, props.length, props.array.map fun _ => entries⟩

theorem Holds.view_add {props after : MQTTPropertyArray} {entries : List MQTTProperty}
    {prop : MQTTProperty} {rc : Int} (holds : Holds props entries)
    (called : props.add prop = some (rc, after)) :
    (view props entries).add prop =
      (rc, view after (if Known prop then entries ++ [prop] else entries)) := by
  by_cases known : Known prop
  · rcases Option.isSome_iff_exists.mp known with ⟨type, typed⟩
    rw [if_pos known]
    unfold MQTTPropertyArray.add at called
    unfold MQTTProperties.add
    rw [typed] at called ⊢
    dsimp only at called ⊢
    split at called
    · cases called
      cases array : props.array with
      | none =>
          have none := holds.fits
          rw [holds.empty array, Nat.le_zero, List.length_eq_zero_iff] at none
          rw [none]
          simp [view, array, MQTTPropertyArray.grow]
      | some stored =>
          simp only [view, array, MQTTPropertyArray.grow, Option.map_some]
          split
          · rfl
          · rfl
    · cases called
  · rw [add_unknown known] at called
    cases called
    have untyped := known
    rw [Known, Option.not_isSome_iff_eq_none] at untyped
    rw [if_neg known, MQTTProperties.add, untyped]

/-- The properties that the array holds are the list that `MQTTProperties.add` builds. -/
theorem Holds.view_addAll {added : List MQTTProperty} :
    ∀ {props after : MQTTPropertyArray} {entries : List MQTTProperty}, Holds props entries →
    props.addAll added = some after →
    added.foldl (fun props prop => (props.add prop).2) (view props entries) =
      view after (entries ++ added.filter Known) := by
  induction added with
  | nil =>
      intro props after entries _ same
      cases same
      rw [List.filter_nil, List.append_nil]
      rfl
  | cons prop added induction =>
      intro props after entries holds called
      rw [addAll_cons] at called
      rcases Option.bind_eq_some_iff.mp called with ⟨⟨rc, middle⟩, first, rest⟩
      rw [List.foldl_cons, holds.view_add first]
      by_cases known : Known prop
      · have behind : entries ++ prop :: added.filter Known =
            (entries ++ [prop]) ++ added.filter Known := List.append_cons ..
        rw [if_pos known, List.filter_cons_of_pos (by simpa using known), behind]
        refine induction ?_ rest
        by_cases fits : props.length + counted prop < 2147483648
        · rcases (holds.add_known known).1 fits with ⟨other, same, stored⟩
          rw [first] at same
          cases same
          exact stored
        · rw [(holds.add_known known).2 fits] at first
          cases first
      · rw [if_neg known, List.filter_cons_of_neg (by simpa using known)]
        rw [add_unknown known] at first
        cases first
        exact induction holds rest

/-! ## `MQTTProperties_copy` -/

/-- A list that was built is copied within the slots of the copy, and the copy has the
count, the length, the properties and the written bytes of the original. -/
theorem copy_faithful {added : List MQTTProperty} {props : MQTTPropertyArray}
    (built : zero.addAll added = some props) :
    ∃ result, props.copy = some result ∧ result.count = props.count ∧
      result.length = props.length ∧ result.count ≤ result.maxCount ∧
      (result.array.getD []).length = result.maxCount ∧
      (∃ entries, props.stored = some entries ∧ result.stored = some entries) ∧
      result.write = props.write ∧ result.write.isSome := by
  rcases holds_of_addAll built with ⟨holds, small⟩
  have sum : zero.length + ((added.filter Known).map counted).sum < 2147483648 := by
    rw [← holds.length]
    exact (Int.zero_add _).symm ▸ small
  rcases holds_zero.addAll sum with ⟨result, copied, same⟩
  simp only [List.nil_append, List.filter_filter, Bool.and_self] at same
  refine ⟨result, ?_, ?_, ?_, ?_, same.slots, ⟨_, holds.stored, same.stored⟩, ?_, ?_⟩
  · rw [copy, holds.stored, Option.bind_some, copied]
  · rw [same.count, holds.count]
  · rw [same.length, holds.length]
  · rw [same.count]
    exact same.fits
  · rw [same.write, holds.write]
  · rw [same.write]
    rfl

/-- Eleven user properties, for which the array is enlarged, an unknown one and an indicator. -/
def manyProperties : List MQTTProperty :=
  List.replicate 11 ⟨38, { data := [0x6b], value := [0x76, 0x77] }⟩ ++
    [⟨99, {}⟩, ⟨1, { byte := 1 }⟩]

theorem copy_faithful_many : ∃ props result, zero.addAll manyProperties = some props ∧
    props.count = 12 ∧ props.maxCount = 20 ∧
    props.copy = some result ∧ result.count = props.count ∧ result.length = props.length ∧
      result.count ≤ result.maxCount ∧ (result.array.getD []).length = result.maxCount ∧
      (∃ entries, props.stored = some entries ∧ result.stored = some entries) ∧
      result.write = props.write ∧ result.write.isSome := by
  have built : (zero.addAll manyProperties).map (fun props => (props.count, props.maxCount)) =
      some (12, 20) := by decide
  rcases Option.map_eq_some_iff.mp built with ⟨props, built, same⟩
  rcases Prod.mk.inj same with ⟨count, maxCount⟩
  rcases copy_faithful built with ⟨result, copied, same⟩
  exact ⟨props, result, built, count, maxCount, copied, same⟩

end MQTTPropertyArray

end MqttClient
