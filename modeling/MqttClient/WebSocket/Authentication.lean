import MqttClient.WebSocket.Upgrade

/-! # `WebSocket`: whom a handshake authenticates

The server shows that it has read the key by the value of its header. What
`WebSocket_upgrade` compares is the text behind the first place of the name, and as many
characters of it as that line has but for the last.
-/

namespace MqttClient

open Foundation CheckedString

namespace WebSocket

/-- A line of a text is the header with a value: the name, a colon, blanks, the value and the end
of the line. It may stand anywhere in the text, also behind an empty line: the code only looks for
one at the end of what it has read. -/
structure AcceptHeader (text : List UInt8) (place : Nat) (value : List UInt8) : Prop where
  line : ∃ before name blanks lineEnd after,
    text = before ++ [10] ++ name ++ [58] ++ blanks ++ value ++ lineEnd ++ after ∧
      place = (before ++ [10]).length ∧ name.map toLower = ascii "sec-websocket-accept" ∧
      (∀ character ∈ blanks, character = 32) ∧ (lineEnd = [13, 10] ∨ lineEnd = [10])

def Authentic (websocketKey status text : List UInt8) : Prop :=
  status = ascii "HTTP/1.1 101" ∧
    ∃ place, AcceptHeader text place (acceptValue (websocketKey ++ wsGuid))

/-- `net->websocket` is only set on an authentic response. -/
def Authenticates (socket : SOCKET) (stack : SHA1.Buffer) (websocketKey : List UInt8)
    (raw : RawSocket) : Prop :=
  Sets (upgrade socket stack ⟨0, some websocketKey⟩ raw) →
    ∃ status text, Response socket raw status text ∧ Authentic websocketKey status text

/-- The name stands at the start of a line, the colon directly behind it, and there are only
blanks in front of the value. -/
def StartsLine (text : List UInt8) (place : Nat) (value : List UInt8) : Prop :=
  (text.take place).getLast? = some 10 ∧ ∃ blanks, (∀ character ∈ blanks, character = 32) ∧
    lineFrom text place = (text.drop place).take 20 ++ ([58] ++ blanks ++ value)

/-- 28 characters, of which the last is `=`, or 28 and the carriage return. -/
def FullLength (value : List UInt8) : Prop :=
  value.length = 28 ∧ value.getLast? = some 61 ∨ value.length = 29 ∧ value.getLast? = some 13

section Value

theorem acceptValue_last (text : List UInt8) :
    ∃ front, acceptValue text = front ++ [61] ∧ front.length = 27 := by
  have length := Fips180.length_digest text
  have nonempty : Fips180.digest text ≠ [] := by
    intro empty
    rw [empty] at length
    cases length
  rcases Rfc4648.encode_last nonempty with ⟨front, third, fourth, split, _, padded⟩
  have last : fourth = 61 := padded.mpr (by rw [length]; decide)
  refine ⟨front ++ [third], ?_, ?_⟩
  · rw [acceptValue, split, last, List.append_assoc]
    rfl
  · have characters := length_acceptValue text
    rw [acceptValue, split, List.length_append, List.length_cons, List.length_singleton]
      at characters
    rw [List.length_append, List.length_singleton]
    omega

theorem agrees_concat {first : List UInt8} (short : first.length ≤ 28) (text : List UInt8)
    (last : UInt8) : Agrees (acceptValue text) (first ++ [last]) ↔ first <+: acceptValue text := by
  have longer : ¬ acceptValue text ++ [0] <+: first := by
    intro front
    have bound := front.length_le
    rw [List.length_append, length_acceptValue, List.length_singleton] at bound
    omega
  simp only [Agrees, List.dropLast_concat, longer, or_false, ne_eq, List.append_eq_nil_iff,
    List.cons_ne_nil, and_false, not_false_eq_true, true_and]

theorem agrees_iff_of_fullLength {value : List UInt8} (full : FullLength value)
    (text : List UInt8) : Agrees (acceptValue text) value ↔
      value = acceptValue text ∨ value = acceptValue text ++ [13] := by
  have characters := length_acceptValue text
  cases full with
  | inl bare =>
      rcases List.getLast?_eq_some_iff.mp bare.2 with ⟨first, rfl⟩
      rcases acceptValue_last text with ⟨front, shown, length⟩
      have counted := bare.1
      rw [List.length_append, List.length_singleton] at counted
      have counted_first : first.length = 27 := by omega
      have other : first ++ [61] ≠ acceptValue text ++ [13] := fun same =>
        absurd (List.append_inj_right' same rfl) (by decide)
      rw [agrees_concat (by omega), or_iff_left other, shown]
      constructor
      · intro inside
        have same : first = front := by
          rw [List.prefix_iff_eq_take.mp inside, counted_first, ← length, List.take_left]
        rw [same]
      · intro same
        rw [List.append_inj_left' same rfl]
        exact List.prefix_append ..
  | inr returned =>
      rcases List.getLast?_eq_some_iff.mp returned.2 with ⟨first, rfl⟩
      have counted := returned.1
      rw [List.length_append, List.length_singleton] at counted
      have other : first ++ [13] ≠ acceptValue text := by
        intro same
        have lengths := congrArg List.length same
        rw [returned.1, characters] at lengths
        exact absurd lengths (by decide)
      rw [agrees_concat (by omega), or_iff_right other]
      constructor
      · intro inside
        rw [inside.eq_of_length (by omega)]
      · intro same
        have front := List.append_inj_left' same rfl
        exact front ▸ List.prefix_rfl

theorem fullLength_of_eq {value text : List UInt8}
    (shown : value = acceptValue text ∨ value = acceptValue text ++ [13]) : FullLength value := by
  rcases acceptValue_last text with ⟨front, split, length⟩
  cases shown with
  | inl bare =>
      refine .inl ⟨by rw [bare, length_acceptValue], ?_⟩
      rw [bare, split, List.getLast?_concat]
  | inr returned =>
      refine .inr ⟨?_, by rw [returned, List.getLast?_concat]⟩
      rw [returned, List.length_append, length_acceptValue, List.length_singleton]

end Value

section Header

variable {text value wanted : List UInt8} {place : Nat}

theorem header_of_offers (complete : ¬ Incomplete text) (offers : Offers text place value)
    (starts : StartsLine text place value) (shown : value = wanted ∨ value = wanted ++ [13]) :
    AcceptHeader text place wanted := by
  have fits : place + 20 ≤ text.length := offers.first.le_stop
  have ended := newline_of_complete complete (by omega : place + 5 ≤ text.length)
  rcases lineFrom_split ended with ⟨rest, split⟩
  rcases List.getLast?_eq_some_iff.mp starts.1 with ⟨before, front⟩
  rcases starts.2 with ⟨blanks, only, line⟩
  have start : place = (before ++ [10]).length := by
    rw [← front, List.length_take_of_le (by omega)]
  have whole : text = before ++ [10] ++
      ((text.drop place).take 20 ++ ([58] ++ blanks ++ value) ++ 10 :: rest) := by
    rw [← line, ← split, ← front, List.take_append_drop]
  cases shown with
  | inl bare =>
      refine ⟨before, (text.drop place).take 20, blanks, [10], rest, ?_, start,
        offers.first.occurs, only, .inr rfl⟩
      rw [bare] at whole
      simpa using whole
  | inr returned =>
      refine ⟨before, (text.drop place).take 20, blanks, [13, 10], rest, ?_, start,
        offers.first.occurs, only, .inl rfl⟩
      rw [returned] at whole
      simpa using whole

theorem not_mem_of_map {name lower : List UInt8} (same : name.map toLower = lower)
    {character : UInt8} (kept : toLower character = character) (absent : character ∉ lower) :
    character ∉ name := by
  intro member
  have image := List.mem_map_of_mem (f := toLower) member
  rw [kept, same] at image
  exact absent image

theorem takeWhile_ne {front : List UInt8} {character : UInt8} (absent : character ∉ front)
    (rest : List UInt8) : (front ++ character :: rest).takeWhile (· != character) = front := by
  rw [List.takeWhile_append_of_pos]
  · simp
  · intro other member
    rw [bne_iff_ne]
    intro same
    exact absent (same ▸ member)

theorem dropWhile_ne {front : List UInt8} {character : UInt8} (absent : character ∉ front)
    (rest : List UInt8) :
    (front ++ character :: rest).dropWhile (· != character) = character :: rest := by
  rw [List.dropWhile_append_of_pos]
  · simp
  · intro other member
    rw [bne_iff_ne]
    intro same
    exact absent (same ▸ member)

theorem AcceptHeader.occursAt (header : AcceptHeader text place wanted) :
    OccursAt text (ascii "sec-websocket-accept") place ∧
      place + 21 + wanted.length < text.length := by
  rcases header with ⟨before, name, blanks, lineEnd, after, whole, start, named, _, ending⟩
  have length := congrArg List.length named
  rw [List.length_map] at length
  have lower : (ascii "sec-websocket-accept").map toLower = ascii "sec-websocket-accept" := rfl
  constructor
  · rw [OccursAt, whole, start, lower]
    simp only [List.append_assoc]
    rw [← List.append_assoc before, List.drop_left, List.take_left' length]
    exact named
  · have ended : 0 < lineEnd.length := by
      cases ending with
      | inl returned => rw [returned]; exact Nat.two_pos
      | inr bare => rw [bare]; exact Nat.one_pos
    have characters : name.length = 20 := length
    have total := congrArg List.length whole
    simp only [List.length_append, List.length_singleton] at total start
    omega

theorem offers_of_header (header : AcceptHeader text place wanted)
    (offers : Offers text place value) (nonempty : wanted ≠ [])
    (plain : ∀ character ∈ [10, 32, 58], character ∉ wanted) :
    StartsLine text place value ∧ (value = wanted ∨ value = wanted ++ [13]) := by
  rcases header with ⟨before, name, blanks, lineEnd, after, whole, start, named, only, ending⟩
  have length := congrArg List.length named
  rw [List.length_map] at length
  have colonless : 58 ∉ name := not_mem_of_map named (by decide) (by decide)
  have newlineless : 10 ∉ name := not_mem_of_map named (by decide) (by decide)
  have split : ∃ cr, lineEnd = cr ++ [10] ∧ (cr = [] ∨ cr = [13]) := by
    cases ending with
    | inl returned => exact ⟨[13], returned, .inr rfl⟩
    | inr bare => exact ⟨[], bare, .inl rfl⟩
  rcases split with ⟨cr, rfl, either⟩
  have parts : text = before ++ [10] ++
      (name ++ 58 :: (blanks ++ (wanted ++ cr)) ++ 10 :: after) := by
    rw [whole]
    simp
  have front : text.take place = before ++ [10] := by
    rw [parts, start, List.take_left]
  have behind : text.drop place = name ++ 58 :: (blanks ++ (wanted ++ cr)) ++ 10 :: after := by
    rw [parts, start, List.drop_left]
  have inside : 10 ∉ name ++ 58 :: (blanks ++ (wanted ++ cr)) := by
    intro member
    simp only [List.mem_append, List.mem_cons] at member
    rcases member with inName | colon | inBlanks | inWanted | inReturn
    · exact newlineless inName
    · exact absurd colon (by decide)
    · exact absurd (only 10 inBlanks) (by decide)
    · exact plain 10 (by decide) inWanted
    · cases either with
      | inl none => exact List.not_mem_nil (none ▸ inReturn)
      | inr one => exact absurd (one ▸ inReturn) (by decide)
  have line : lineFrom text place = name ++ 58 :: (blanks ++ (wanted ++ cr)) := by
    rw [lineFrom, behind, takeWhile_ne inside]
  have kept : (wanted ++ cr).dropWhile blank = wanted ++ cr := by
    cases wanted with
    | nil => exact absurd rfl nonempty
    | cons first others =>
        have solid : ¬ blank first := by
          intro skipped
          have here : first = 58 ∨ first = 32 := by simpa [blank] using skipped
          cases here with
          | inl colon => exact plain 58 (by decide) (colon ▸ List.mem_cons_self)
          | inr space => exact plain 32 (by decide) (space ▸ List.mem_cons_self)
        exact List.dropWhile_cons_of_neg solid
  have offered : value = wanted ++ cr := by
    rw [offers.value, line, valueIn, dropWhile_ne colonless, List.dropWhile_cons_of_pos (by decide),
      List.dropWhile_append_of_pos, kept]
    intro character member
    rw [only character member]
    rfl
  refine ⟨⟨?_, blanks, only, ?_⟩, ?_⟩
  · rw [front, List.getLast?_concat]
  · have taken : (text.drop place).take 20 = name := by
      rw [behind, List.append_assoc]
      exact List.take_left' length
    rw [taken, line, offered]
    rfl
  · rw [offered]
    cases either with
    | inl none => exact .inl (by rw [none, List.append_nil])
    | inr one => exact .inr (by rw [one])

theorem header_iff {key other : List UInt8} (complete : ¬ Incomplete text)
    (offers : Offers text place value) (agrees : Agrees (acceptValue key) value) :
    AcceptHeader text place (acceptValue other) ↔
      StartsLine text place value ∧ FullLength value ∧ acceptValue key = acceptValue other := by
  constructor
  · intro header
    have nonempty : acceptValue other ≠ [] := by
      intro empty
      have characters := length_acceptValue other
      rw [empty] at characters
      cases characters
    have plain : ∀ character ∈ [10, 32, 58], character ∉ acceptValue other :=
      fun character member => not_mem_acceptValue other (List.mem_cons_of_mem 0 member)
    cases offers_of_header header offers nonempty plain with
    | intro starts shown =>
        have full := fullLength_of_eq shown
        have compared := (agrees_iff_of_fullLength full key).mp agrees
        refine ⟨starts, full, ?_⟩
        have lengths : (acceptValue key).length = (acceptValue other).length := by
          rw [length_acceptValue, length_acceptValue]
        cases shown with
        | inl bare =>
            cases compared with
            | inl same => exact same.symm.trans bare
            | inr longer =>
                have counted := congrArg List.length (longer.symm.trans bare)
                rw [List.length_append, length_acceptValue, length_acceptValue] at counted
                exact absurd counted (by decide)
        | inr returned =>
            cases compared with
            | inl shorter =>
                have counted := congrArg List.length (shorter.symm.trans returned)
                rw [List.length_append, length_acceptValue, length_acceptValue] at counted
                exact absurd counted (by decide)
            | inr same => exact List.append_inj_left (same.symm.trans returned) lengths
  · rintro ⟨starts, full, same⟩
    have shown := (agrees_iff_of_fullLength full key).mp agrees
    rw [same] at shown
    exact header_of_offers complete offers starts shown

end Header

/-- The handshake authenticates unless the line that is compared is no proper header or not of
full length, or the key has been cut, and no other line is the header either. -/
theorem authenticates_iff (socket : SOCKET) (stack : SHA1.Buffer) (websocketKey : List UInt8)
    (raw : RawSocket) :
    Authenticates socket stack websocketKey raw ↔
      ∀ status text place value, Response socket raw status text →
        Admitted websocketKey status text → Offers text place value →
          StartsLine text place value ∧ FullLength value ∧
              acceptValue ((websocketKey ++ wsGuid).take 61) =
                acceptValue (websocketKey ++ wsGuid) ∨
            ∃ other, other ≠ place ∧
              AcceptHeader text other (acceptValue (websocketKey ++ wsGuid)) := by
  rw [Authenticates, upgrade_sets_iff]
  constructor
  · intro authenticates status text place value response admitted offers
    rcases admitted.offers with ⟨here, shown, offered, agrees⟩
    have unmoved : here = place := offered.first.unique offers.first
    subst unmoved
    have same : shown = value := offered.value.trans offers.value.symm
    subst same
    rcases authenticates ⟨status, text, response, admitted⟩ with
      ⟨status', text', response', _, other, header⟩
    rcases response.unique response' with ⟨rfl, rfl⟩
    by_cases first : other = here
    · subst first
      exact .inl ((header_iff admitted.complete offers agrees).mp header)
    · exact .inr ⟨other, first, header⟩
  · rintro condition ⟨status, text, response, admitted⟩
    rcases admitted.offers with ⟨place, value, offers, agrees⟩
    refine ⟨status, text, response, admitted.switching, ?_⟩
    cases condition status text place value response admitted offers with
    | inl proper => exact ⟨place, (header_iff admitted.complete offers agrees).mpr proper⟩
    | inr elsewhere =>
        rcases elsewhere with ⟨other, _, header⟩
        exact ⟨other, header⟩

def emptyAnswer : RawSocket where
  frameBuffer := .empty
  reads := ⟨.start, fun _ => [.data (ascii ("HTTP/1.1 101 Switching Protocols\r\n" ++
    "Connection: Upgrade\r\nSec-WebSocket-Accept:\r\n\r\n"))]⟩

theorem not_authenticates_empty :
    ¬ Authenticates 1 ⟨List.replicate 64 0, rfl⟩ (ascii "dGhlIHNhbXBsZSBub25jZQ==")
      emptyAnswer := by
  have response : Response 1 emptyAnswer (ascii "HTTP/1.1 101")
      (ascii (" Switching Protocols\r\nConnection: Upgrade\r\n" ++
        "Sec-WebSocket-Accept:\r\n\r\n")) :=
    ⟨_, _, _, _, rfl, by decide, rfl, by decide⟩
  generalize shown : ascii (" Switching Protocols\r\nConnection: Upgrade\r\n" ++
    "Sec-WebSocket-Accept:\r\n\r\n") = text at response
  have complete : ¬ Incomplete text := by
    rw [← shown]
    decide
  have asks : AsksUpgrade text := by
    rcases checkUpgrade_eq complete with ⟨found, ran, asks⟩
    have upgrades : checkUpgrade text = .ok (some 34) := by
      rw [← shown]
      rfl
    cases ran.symm.trans upgrades
    exact asks.mp rfl
  have length : text.length = 68 := by
    rw [← shown]
    rfl
  have early : ∀ place < 43, ¬ OccursAt text (ascii "sec-websocket-accept") place := by
    rw [← shown]
    decide +kernel
  have line : lineFrom text 43 = ascii "Sec-WebSocket-Accept:\r" := by
    rw [← shown]
    decide +kernel
  have offers : Offers text 43 [13] := by
    refine ⟨⟨Nat.zero_le _, ?_, ?_, fun place _ => early place⟩, ?_, ?_⟩
    · rw [length]
      decide
    · rw [← shown]
      decide +kernel
    · rw [line]
      decide
    · rw [line]
      rfl
  have agrees (expected : List UInt8) : Agrees expected [13] :=
    ⟨List.cons_ne_nil _ _, .inl List.nil_prefix⟩
  intro authenticates
  rcases authenticates ((upgrade_sets_iff ..).mpr ⟨_, text, response, rfl, complete, asks, 43, [13],
    offers, agrees _⟩) with ⟨status, other, again, _, place, header⟩
  rcases response.unique again with ⟨_, rfl⟩
  have stands := header.occursAt
  rw [length_acceptValue, length] at stands
  exact early place (by omega) stands.1

end WebSocket

end MqttClient
