import MqttClient.Foundation.CString
import MqttClient.Foundation.CheckedMemory

/-! # Server addresses

How a server URI is stored, how `MQTTProtocol_addressPort` splits it, and which part of it
`Socket_new` hands to the name service. A URI is the bytes in front of the final zero; the
zero may be read and nothing behind it, and nothing in front of the first byte.
-/

namespace MqttClient

open Foundation Foundation.CheckedMemory Foundation.CString

namespace MQTTClient

def URI_TCP : List UInt8 := [116, 99, 112, 58, 47, 47]

/-- The copy of a URI that `MQTTClient_createWithOptions` keeps. -/
def storedURI (serverURI : List UInt8) : List UInt8 :=
  if serverURI.take URI_TCP.length = URI_TCP then serverURI.drop URI_TCP.length else serverURI

end MQTTClient

namespace MQTTProtocol

/-- The results of `MQTTProtocol_addressPort`; `topic` is where the pointer goes if the caller
asks for one. -/
structure AddressPort where
  len : Nat
  port : Int
  topic : Option Nat
  deriving DecidableEq, Repr

def before : Option Nat → Option Nat → Bool
  | none, none => false
  | none, some _ => true
  | some _, none => false
  | some left, some right => left < right

def portColon (uri : List UInt8) : Option Nat :=
  let colon_pos := strrchr uri 58
  if uri.head? = some 91 ∧ before colon_pos (strrchr uri 93) then none else colon_pos

/-- `--size` for an unsigned size. -/
def decrement : (size : Nat) → Nat
  | 0 => 2 ^ 64 - 1
  | size + 1 => size

def topicPos (uri : List UInt8) : Option Nat :=
  let start := (portColon uri).getD 0
  (strchr (uri.drop start) 47).map (· + start)

/-- `len` before a bracket is stripped off. -/
def addressEnd (uri : List UInt8) : Nat :=
  match portColon uri with
  | some colon_pos => colon_pos
  | none => (topicPos uri).getD uri.length

def portNumber (uri : List UInt8) (default_port : Int) : Int :=
  match portColon uri with
  | some colon_pos => atoi (uri.drop (colon_pos + 1))
  | none => default_port

def addressPort (uri : List UInt8) (default_port : Int) : Except Fault AddressPort := do
  let len := addressEnd uri
  let last ← readBefore (uri ++ [0]) len
  return ⟨if last = 93 then decrement len else len, portNumber uri default_port, topicPos uri⟩

end MQTTProtocol

namespace Socket

/-- Where the copy of `Socket_new` starts, and how many bytes it takes. -/
def addrSlice (addr : List UInt8) (addr_len : Nat) : Nat × Nat :=
  if addr.head? = some 91 then (1, MQTTProtocol.decrement addr_len) else (0, addr_len)

/-- `addr_mem`, the string that `Socket_new` passes to `getaddrinfo`. -/
def addrMem (addr : List UInt8) (addr_len : Nat) : Except Fault (List UInt8) :=
  readBlock (addr ++ [0]) (addrSlice addr addr_len).2 (addrSlice addr addr_len).1

theorem addrMem_ok {addr : List UInt8} {addr_len : Nat}
    (inside : (addrSlice addr addr_len).1 + (addrSlice addr addr_len).2 ≤ addr.length) :
    ∃ host, addrMem addr addr_len = .ok host := by
  refine ⟨_, readBlock_of_le (Nat.le_trans inside ?_)⟩
  rw [List.length_append]
  exact Nat.le_add_right _ _

end Socket

namespace MQTTProtocol

section Bounds

variable {uri : List UInt8} {default_port : Int} {colon : Nat}

theorem portColon_eq_some (found : portColon uri = some colon) :
    strrchr uri 58 = some colon := by
  rw [portColon] at found
  split at found
  · exact absurd found nofun
  · exact found

theorem portColon_eq_none (found : portColon uri = none) :
    strrchr uri 58 = none ∨ uri.head? = some 91 := by
  rw [portColon] at found
  split at found
  · exact .inr (And.left ‹_›)
  · exact .inl found

theorem portColon_lt (found : portColon uri = some colon) : colon < uri.length :=
  strrchr_lt (portColon_eq_some found)

theorem addressEnd_le (uri : List UInt8) : addressEnd uri ≤ uri.length := by
  rw [addressEnd]
  cases found : portColon uri with
  | some colon => exact Nat.le_of_lt (portColon_lt found)
  | none =>
      cases topic : topicPos uri with
      | none => exact Nat.le_refl _
      | some index =>
          simp only [topicPos, found, Option.getD_none, List.drop_zero, Nat.add_zero,
            Option.map_id'] at topic
          exact Nat.le_of_lt (strchr_lt topic)

def strippedLength (uri : List UInt8) : Nat :=
  if uri[addressEnd uri - 1]? = some 93 then addressEnd uri - 1 else addressEnd uri

theorem strippedLength_le (uri : List UInt8) : strippedLength uri ≤ addressEnd uri := by
  rw [strippedLength]
  split <;> omega

theorem strippedLength_pos (bracket : uri.head? = some 91) (positive : 0 < addressEnd uri) :
    0 < strippedLength uri := by
  rw [strippedLength]
  split
  · rename_i closing
    apply Nat.pos_of_ne_zero
    intro first
    rw [first, ← List.head?_eq_getElem?, bracket] at closing
    exact absurd closing (by decide)
  · exact positive

theorem addressPort_ok (default_port : Int) (positive : 0 < addressEnd uri) :
    addressPort uri default_port =
      .ok ⟨strippedLength uri, portNumber uri default_port, topicPos uri⟩ := by
  have bound := addressEnd_le uri
  obtain ⟨size, length⟩ := Nat.exists_eq_succ_of_ne_zero (Nat.ne_of_gt positive)
  have inside : size < uri.length := by omega
  have read : readBefore (uri ++ [0]) (addressEnd uri) = .ok uri[size] := by
    rw [length, readBefore, readAt_of_lt (by rw [List.length_append]; omega),
      List.getElem_append_left inside]
  rw [addressPort, read]
  simp [strippedLength, length, decrement, List.getElem?_eq_getElem inside, pure, Except.pure]

theorem addressPort_empty (default_port : Int) (empty : addressEnd uri = 0) :
    addressPort uri default_port = .error (.outside (2 ^ 64 - 1)) := by
  rw [addressPort, empty]
  rfl

end Bounds

/-! ## Access inside of the string -/

/-- The address of a URI is not empty: something stands in front of the port and the topic. -/
def Addressed : List UInt8 → Prop
  | [] => False
  | first :: rest => 58 ∈ rest ∨ first ≠ 58 ∧ first ≠ 47

instance : DecidablePred Addressed
  | [] => instDecidableFalse
  | first :: rest => inferInstanceAs (Decidable (58 ∈ rest ∨ first ≠ 58 ∧ first ≠ 47))

/-- An address is split without a use of memory outside of the string, and what is copied of
it lies inside. -/
def InBounds (uri : List UInt8) (default_port : Int) : Prop :=
  ∃ split, addressPort uri default_port = .ok split ∧ split.len ≤ uri.length ∧
    (uri.head? = some 91 → 0 < split.len) ∧
    (Socket.addrSlice uri split.len).1 + (Socket.addrSlice uri split.len).2 ≤ uri.length ∧
    ∃ host, Socket.addrMem uri split.len = .ok host

theorem topicPos_of_none {uri : List UInt8} (none : portColon uri = none) :
    topicPos uri = strchr uri 47 := by
  simp [topicPos, none]

theorem addressEnd_of_none {uri : List UInt8} (none : portColon uri = none) :
    addressEnd uri = (strchr uri 47).getD uri.length := by
  simp only [addressEnd, none, topicPos_of_none]

theorem addressEnd_of_some {uri : List UInt8} {colon : Nat} (found : portColon uri = some colon) :
    addressEnd uri = colon := by
  simp only [addressEnd, found]

theorem addressEnd_eq_zero_iff (uri : List UInt8) : addressEnd uri = 0 ↔ ¬ Addressed uri := by
  cases uri with
  | nil => simp [addressEnd, portColon, topicPos, strrchr, strchr, before, Addressed]
  | cons first rest =>
      cases found : portColon (first :: rest) with
      | none =>
          have slash : addressEnd (first :: rest) = 0 ↔ first = 47 := by
            rw [addressEnd_of_none found, strchr_cons]
            by_cases here : first = 47
            · simp [here]
            · cases later : strchr rest 47 <;> simp [here]
          rw [slash, Addressed, not_or, not_and_or, not_not, not_not]
          rcases portColon_eq_none found with absent | bracket
          · rw [strrchr_eq_none_iff, List.mem_cons, not_or] at absent
            exact ⟨fun here => ⟨absent.2, .inr here⟩,
              fun both => both.2.resolve_left (Ne.symm absent.1)⟩
          · have here : first = 91 := Option.some.inj bracket
            subst here
            simp
      | some colon =>
          have last := portColon_eq_some found
          rw [strrchr] at last
          rw [addressEnd_of_some found, Addressed, not_or, not_and_or, not_not, not_not,
            ← strrchr_eq_none_iff]
          cases later : strrchr rest 58 with
          | some index =>
              simp only [later, Option.some.injEq] at last
              simp [← last]
          | none =>
              simp only [later] at last
              by_cases here : first = 58
              · rw [if_pos here] at last
                simp [here, ← Option.some.inj last]
              · rw [if_neg here] at last
                exact absurd last.symm (Option.some_ne_none colon)

/-- For every URI and port the access stays in bounds exactly if the stored URI is not empty
and has more in front of its last colon or, without a colon, in front of its first slash. -/
theorem inBounds_iff (serverURI : List UInt8) (default_port : Int) :
    InBounds (MQTTClient.storedURI serverURI) default_port ↔
      Addressed (MQTTClient.storedURI serverURI) := by
  generalize MQTTClient.storedURI serverURI = uri
  rw [← not_iff_not, ← addressEnd_eq_zero_iff]
  constructor
  · intro outside
    apply Nat.eq_zero_of_not_pos
    intro positive
    apply outside
    have bound := addressEnd_le uri
    have stripped := strippedLength_le uri
    have bracketed (bracket : uri.head? = some 91) := strippedLength_pos bracket positive
    have slice : (Socket.addrSlice uri (strippedLength uri)).1 +
        (Socket.addrSlice uri (strippedLength uri)).2 ≤ uri.length := by
      rw [Socket.addrSlice]
      split_ifs with bracket
      · obtain ⟨size, length⟩ :=
          Nat.exists_eq_succ_of_ne_zero (Nat.ne_of_gt (bracketed bracket))
        simp only [length, decrement]
        omega
      · simp only
        omega
    exact ⟨_, addressPort_ok default_port positive, Nat.le_trans stripped bound, bracketed,
      slice, Socket.addrMem_ok slice⟩
  · intro empty inside
    obtain ⟨split, ran, -⟩ := inside
    rw [addressPort_empty default_port empty] at ran
    exact absurd ran nofun

/-- Without anything behind `tcp://` the byte in front of the string is read. -/
theorem inBounds_fails :
    ¬ ∀ serverURI default_port, InBounds (MQTTClient.storedURI serverURI) default_port := by
  intro all
  obtain ⟨split, ran, -⟩ := all [116, 99, 112, 58, 47, 47] 1883
  rw [addressPort_empty 1883 (by decide)] at ran
  exact absurd ran nofun

/-! ## Splitting a URI -/

/-- A server URI in parts: a name, or an IPv6 address that is written in brackets; the digits
of a port; and a path, empty or from a slash on. -/
structure ServerURI where
  bracketed : Bool
  host : List UInt8
  port : Option (List UInt8)
  path : List UInt8
  hostSlash : 47 ∉ host
  hostBracket : 93 ∉ host
  hostName : bracketed = false → host ≠ [] ∧ 58 ∉ host ∧ 91 ∉ host
  portDigits : ∀ digits ∈ port, digits ≠ [] ∧ ∀ digit ∈ digits, isDigit digit
  portSmall : ∀ digits ∈ port, decimal digits ≤ 65535
  pathSlash : ∀ first ∈ path.head?, first = 47

namespace ServerURI

variable (parts : ServerURI)

def hostText : List UInt8 :=
  if parts.bracketed then 91 :: parts.host ++ [93] else parts.host

def portText : List UInt8 :=
  match parts.port with
  | some digits => 58 :: digits
  | none => []

def front : List UInt8 := parts.hostText ++ parts.portText

def text : List UInt8 := parts.front ++ parts.path

def hostLength : Nat := if parts.bracketed then parts.host.length + 1 else parts.host.length

/-- The URI is split into its parts, and the name service is asked for the host. -/
def Splits (default_port : Int) : Prop :=
  ∃ split, addressPort parts.text default_port = .ok split ∧
    split.len = parts.hostLength ∧
    split.port = parts.port.elim default_port (fun digits => decimal digits) ∧
    split.topic = (if parts.path = [] then none else some parts.front.length) ∧
    Socket.addrMem parts.text split.len = .ok parts.host

/-- The path is not mistaken for a part of the address: it has no colon; behind an IPv6
address with a port it has no closing bracket either, and behind one without a port it may
have colons in front of its last closing bracket. -/
def Unambiguous : Prop :=
  match parts.bracketed, parts.port with
  | false, _ => 58 ∉ parts.path
  | true, some _ => 58 ∉ parts.path ∧ 93 ∉ parts.path
  | true, none => ∀ colon, strrchr parts.path 58 = some colon →
      ∃ bracket, strrchr parts.path 93 = some bracket ∧ colon < bracket

variable {parts} {default_port : Int}

theorem portText_absent {character : UInt8} (colon : character ≠ 58)
    (digit : ¬ isDigit character) : character ∉ parts.portText := by
  rw [portText]
  cases port : parts.port with
  | none => exact List.not_mem_nil
  | some digits =>
      rw [List.mem_cons, not_or]
      exact ⟨colon, fun inside => digit ((parts.portDigits digits port).2 character inside)⟩

theorem front_slash (parts : ServerURI) : 47 ∉ parts.front := by
  have port : 47 ∉ parts.portText := portText_absent (by decide) (by decide)
  have host := parts.hostSlash
  rw [front, hostText, List.mem_append, not_or]
  refine ⟨?_, port⟩
  split <;> simp [host]

theorem topicPos_text (start : (portColon parts.text).getD 0 ≤ parts.front.length) :
    topicPos parts.text = if parts.path = [] then none else some parts.front.length := by
  have absent : 47 ∉ parts.front.drop ((portColon parts.text).getD 0) :=
    fun inside => parts.front_slash (List.mem_of_mem_drop inside)
  have dropped : parts.text.drop ((portColon parts.text).getD 0) =
      parts.front.drop ((portColon parts.text).getD 0) ++ parts.path :=
    List.drop_append_of_le_length start
  rw [topicPos, dropped, strchr_append absent, List.length_drop]
  cases path : parts.path with
  | nil => rfl
  | cons first rest =>
      have slash := parts.pathSlash first (by rw [path]; rfl)
      rw [strchr_cons, if_pos slash]
      simp only [Option.map_some, if_neg (List.cons_ne_nil first rest), Nat.zero_add]
      congr 1
      omega

theorem head_text_bracketed (bracketed : parts.bracketed = true) :
    parts.text.head? = some 91 := by
  simp [text, front, hostText, bracketed]

theorem head_text_name (name : parts.bracketed = false) : parts.text.head? ≠ some 91 := by
  obtain ⟨nonempty, -, absent⟩ := parts.hostName name
  cases host : parts.host with
  | nil => exact absurd host nonempty
  | cons first rest =>
      rw [host, List.mem_cons, not_or] at absent
      simp [text, front, hostText, name, host, Ne.symm absent.1]

theorem strrchr_front_port {digits : List UInt8} (port : parts.port = some digits) :
    strrchr parts.front 58 = some parts.hostText.length := by
  have absent : 58 ∉ digits := fun inside =>
    absurd ((parts.portDigits digits port).2 58 inside) (by decide)
  rw [front, portText, port]
  exact strrchr_split absent

theorem strrchr_front_bracket (bracketed : parts.bracketed = true) :
    strrchr parts.front 93 = some (parts.host.length + 1) := by
  have absent : 93 ∉ parts.portText := portText_absent (by decide) (by decide)
  have split : parts.front = (91 :: parts.host) ++ 93 :: parts.portText := by
    simp [front, hostText, bracketed]
  rw [split]
  exact strrchr_split absent

theorem length_hostText (parts : ServerURI) : parts.hostText.length =
    if parts.bracketed then parts.host.length + 2 else parts.host.length := by
  rw [hostText]
  split <;> simp

theorem length_front (parts : ServerURI) :
    parts.front.length = parts.hostText.length + parts.portText.length :=
  List.length_append

theorem hostText_pos (parts : ServerURI) : 0 < parts.hostText.length := by
  rw [length_hostText]
  cases name : parts.bracketed with
  | true => simp
  | false => simpa using List.length_pos_iff.mpr (parts.hostName name).1

theorem last_hostText (parts : ServerURI) :
    parts.text[parts.hostText.length - 1]? = some 93 ↔ parts.bracketed = true := by
  have inside : parts.hostText.length - 1 < parts.hostText.length :=
    Nat.sub_lt parts.hostText_pos Nat.one_pos
  rw [text, front, List.append_assoc, List.getElem?_append_left inside,
    ← List.getLast?_eq_getElem?]
  cases name : parts.bracketed with
  | true =>
      simp only [hostText, name, if_true, iff_true]
      exact List.getLast?_concat
  | false =>
      simp only [hostText, name, Bool.false_eq_true, if_false, iff_false]
      exact fun last => parts.hostBracket (List.mem_of_getLast? last)

theorem atoi_text {digits : List UInt8} (port : parts.port = some digits) :
    atoi (parts.text.drop (parts.hostText.length + 1)) = decimal digits := by
  have behind : parts.text.drop (parts.hostText.length + 1) = digits ++ parts.path := by
    rw [text, front, portText, port, List.append_assoc, List.drop_length_add_append]
    rfl
  have decimals := parts.portDigits digits port
  have small := parts.portSmall digits port
  rw [behind]
  apply atoi_digits decimals.1 decimals.2 ?_ (by omega)
  intro next first
  rw [parts.pathSlash next first]
  decide

theorem addrMem_text (parts : ServerURI) :
    Socket.addrMem parts.text parts.hostLength = .ok parts.host := by
  have length : parts.text.length =
      parts.hostText.length + parts.portText.length + parts.path.length := by
    rw [text, List.length_append, length_front]
  cases name : parts.bracketed with
  | true =>
      have slice : Socket.addrSlice parts.text parts.hostLength = (1, parts.host.length) := by
        simp [Socket.addrSlice, head_text_bracketed name, hostLength, name, decrement]
      rw [Socket.addrMem, slice, readBlock_of_le ?_]
      · simp [text, front, hostText, name]
      · simp only [List.length_append, length, length_hostText, name, if_true]
        omega
  | false =>
      have slice : Socket.addrSlice parts.text parts.hostLength = (0, parts.host.length) := by
        rw [Socket.addrSlice, if_neg (head_text_name name), hostLength, name]
        rfl
      rw [Socket.addrMem, slice, readBlock_of_le ?_]
      · simp [text, front, hostText, name]
      · simp only [List.length_append, length, length_hostText, name]
        simp
        omega

theorem splits_of_portColon
    (right : portColon parts.text = parts.port.map fun _ => parts.hostText.length) :
    parts.Splits default_port := by
  have length := parts.length_front
  have positive := parts.hostText_pos
  have topic : topicPos parts.text =
      if parts.path = [] then none else some parts.front.length := by
    apply topicPos_text
    rw [right]
    cases parts.port <;> simp [length]
  have ended : addressEnd parts.text = parts.hostText.length := by
    cases port : parts.port with
    | some digits =>
        rw [port, Option.map_some] at right
        exact addressEnd_of_some right
    | none =>
        rw [port, Option.map_none] at right
        rw [portText, port, List.length_nil, Nat.add_zero] at length
        simp only [addressEnd, right, topic]
        split
        · rename_i empty
          rw [Option.getD_none, text, empty, List.append_nil, length]
        · exact length
  have stripped : strippedLength parts.text = parts.hostLength := by
    rw [strippedLength, ended, hostLength]
    have last := parts.last_hostText
    have size := parts.length_hostText
    cases name : parts.bracketed with
    | true =>
        rw [if_pos (last.mpr name), size, name]
        rfl
    | false =>
        rw [if_neg (fun closing => Bool.false_ne_true (name.symm.trans (last.mp closing))), size,
          name]
        rfl
  have number : portNumber parts.text default_port =
      parts.port.elim default_port (fun digits => decimal digits) := by
    cases port : parts.port with
    | some digits =>
        rw [port, Option.map_some] at right
        simp only [portNumber, right, atoi_text port, Option.elim]
    | none =>
        rw [port, Option.map_none] at right
        simp only [portNumber, right, Option.elim]
  refine ⟨_, addressPort_ok default_port (by rw [ended]; exact positive), stripped, number, topic,
    ?_⟩
  simp only [stripped]
  exact parts.addrMem_text

/-! Which colon is taken for that of the port. -/

theorem portColon_name (name : parts.bracketed = false) :
    portColon parts.text = strrchr parts.text 58 := by
  rw [portColon, if_neg]
  exact fun bracket => head_text_name name bracket.1

theorem portColon_bracketed (bracketed : parts.bracketed = true) :
    portColon parts.text =
      if before (strrchr parts.text 58) (strrchr parts.text 93) then none
      else strrchr parts.text 58 := by
  simp only [portColon, head_text_bracketed bracketed, true_and]

theorem strrchr_text (character : UInt8) : strrchr parts.text character =
    ((strrchr parts.path character).map (parts.front.length + ·)).or
      (strrchr parts.front character) :=
  strrchr_append

theorem strrchr_front_lt {colon : Nat} (bracketed : parts.bracketed = true)
    (port : parts.port = none) (found : strrchr parts.front 58 = some colon) :
    colon < parts.host.length + 1 := by
  have split : parts.front = (91 :: parts.host) ++ [93] := by
    simp [front, hostText, portText, bracketed, port]
  have inside := strrchr_lt found
  have closing : colon ≠ parts.host.length + 1 := by
    rintro rfl
    have here := getElem?_strrchr found
    rw [split, ← List.length_cons, List.getElem?_concat_length] at here
    exact absurd here (by decide)
  rw [split, List.length_append, List.length_cons, List.length_singleton] at inside
  omega

theorem portColon_front (absent : strrchr parts.path 58 = none)
    (bracket : parts.bracketed = true → parts.port.isSome → strrchr parts.path 93 = none) :
    portColon parts.text = parts.port.map fun _ => parts.hostText.length := by
  have colon : strrchr parts.text 58 = strrchr parts.front 58 := by
    rw [strrchr_text, absent, Option.map_none, Option.none_or]
  cases name : parts.bracketed with
  | false =>
      rw [portColon_name name, colon]
      cases port : parts.port with
      | some digits => exact strrchr_front_port port
      | none =>
          have host : parts.front = parts.host := by simp [front, hostText, portText, name, port]
          rw [host]
          exact strrchr_eq_none_iff.mpr (parts.hostName name).2.1
  | true =>
      have closing := strrchr_front_bracket name
      rw [portColon_bracketed name, colon, strrchr_text 93, closing]
      cases port : parts.port with
      | some digits =>
          have size := parts.length_hostText
          rw [name, if_pos rfl] at size
          rw [bracket name (by rw [port]; rfl), strrchr_front_port port, size]
          simp [before]
      | none =>
          cases found : strrchr parts.front 58 with
          | none => simp
          | some index =>
              have inside := strrchr_front_lt name port found
              have length := strrchr_lt found
              rw [Option.map_none, if_pos]
              cases strrchr parts.path 93 with
              | none => simpa [before] using inside
              | some behind =>
                  simp only [Option.map_some, Option.some_or, before, decide_eq_true_eq]
                  omega

theorem portColon_path {index : Nat} (found : strrchr parts.path 58 = some index)
    (behind : parts.bracketed = true → ∀ bracket, strrchr parts.path 93 = some bracket →
      bracket ≤ index) :
    portColon parts.text = some (parts.front.length + index) := by
  have colon : strrchr parts.text 58 = some (parts.front.length + index) := by
    rw [strrchr_text, found, Option.map_some, Option.some_or]
  cases name : parts.bracketed with
  | false => rw [portColon_name name, colon]
  | true =>
      have closing := strrchr_front_bracket name
      have inside := strrchr_lt closing
      rw [portColon_bracketed name, colon, if_neg]
      rw [strrchr_text, closing]
      cases last : strrchr parts.path 93 with
      | none =>
          simp only [Option.map_none, Option.none_or, before, decide_eq_true_eq]
          omega
      | some bracket =>
          have order := behind name bracket last
          simp only [Option.map_some, Option.some_or, before, decide_eq_true_eq]
          omega

theorem portColon_hidden {bracket : Nat} (bracketed : parts.bracketed = true)
    (found : strrchr parts.path 93 = some bracket)
    (infront : ∀ index, strrchr parts.path 58 = some index → index < bracket) :
    portColon parts.text = none := by
  have closing : strrchr parts.text 93 = some (parts.front.length + bracket) := by
    rw [strrchr_text, found, Option.map_some, Option.some_or]
  rw [portColon_bracketed bracketed, if_pos]
  rw [closing, strrchr_text]
  cases last : strrchr parts.path 58 with
  | some index =>
      have order := infront index last
      simp only [Option.map_some, Option.some_or, before, decide_eq_true_eq]
      omega
  | none =>
      rw [Option.map_none, Option.none_or]
      cases inside : strrchr parts.front 58 with
      | none => rfl
      | some index =>
          have order := strrchr_lt inside
          simp only [before, decide_eq_true_eq]
          omega

theorem not_splits_of_lt (longer : parts.hostLength < strippedLength parts.text) :
    ¬ parts.Splits default_port := by
  rintro ⟨split, ran, length, -⟩
  have positive : 0 < addressEnd parts.text :=
    Nat.lt_of_lt_of_le (Nat.zero_lt_of_lt longer) (strippedLength_le parts.text)
  rw [addressPort_ok default_port positive, Except.ok.injEq] at ran
  rw [← length, ← ran] at longer
  exact Nat.lt_irrefl _ longer

theorem hostLength_le (parts : ServerURI) : parts.hostLength ≤ parts.hostText.length := by
  rw [hostLength, length_hostText]
  split <;> omega

theorem not_splits_of_path {index : Nat} (found : strrchr parts.path 58 = some index)
    (taken : portColon parts.text = some (parts.front.length + index)) :
    ¬ parts.Splits default_port := by
  apply not_splits_of_lt
  have host := parts.hostLength_le
  have length := parts.length_front
  have here := getElem?_strrchr found
  rw [strippedLength, addressEnd_of_some taken]
  cases path : parts.path with
  | nil => rw [path] at here; exact absurd here nofun
  | cons first rest =>
      have slash := parts.pathSlash first (by rw [path]; rfl)
      cases index with
      | zero =>
          rw [path, slash] at here
          exact absurd here (by simp)
      | succ index =>
          split
          · rename_i closing
            have inPath : parts.path[index]? = some 93 := by
              rw [← closing, text, ← Nat.add_assoc, Nat.add_sub_cancel,
                List.getElem?_append_right (Nat.le_add_right _ _), Nat.add_sub_cancel_left]
            have later : index ≠ 0 := by
              rintro rfl
              rw [path, slash] at inPath
              exact absurd inPath (by simp)
            omega
          · omega

theorem not_splits_of_hidden {digits : List UInt8} (port : parts.port = some digits)
    (hidden : portColon parts.text = none) : ¬ parts.Splits default_port := by
  have topic : topicPos parts.text =
      if parts.path = [] then none else some parts.front.length :=
    topicPos_text (by rw [hidden]; exact Nat.zero_le _)
  have length := parts.length_front
  have host := parts.hostLength_le
  have portLength : parts.portText.length = digits.length + 1 := by
    rw [portText, port, List.length_cons]
  have ended : addressEnd parts.text = parts.front.length := by
    simp only [addressEnd, hidden, topic]
    split
    · rename_i empty
      rw [Option.getD_none, text, empty, List.append_nil]
    · rfl
  have last : parts.text[parts.front.length - 1]? ≠ some 93 := by
    rw [text, List.getElem?_append_left (by omega), ← List.getLast?_eq_getElem?]
    intro closing
    rw [front, portText, port, List.getLast?_append_cons] at closing
    have absent : 93 ∉ parts.portText := portText_absent (by decide) (by decide)
    rw [portText, port] at absent
    exact absent (List.mem_of_getLast? closing)
  apply not_splits_of_lt
  rw [strippedLength, ended, if_neg last]
  omega

end ServerURI

open ServerURI in
/-- For every URI, given in parts, and every default port the split is the one that the parts
say exactly if the path is not mistaken for a part of the address. -/
theorem splits_iff (parts : ServerURI) (default_port : Int) :
    parts.Splits default_port ↔ parts.Unambiguous := by
  cases name : parts.bracketed with
  | false =>
      simp only [Unambiguous, name, ← strrchr_eq_none_iff]
      cases colon : strrchr parts.path 58 with
      | none =>
          have right := portColon_front colon (by rw [name]; exact nofun)
          exact iff_of_true (splits_of_portColon right) rfl
      | some index =>
          have taken := portColon_path colon (by rw [name]; exact nofun)
          exact iff_of_false (not_splits_of_path colon taken) nofun
  | true =>
      cases port : parts.port with
      | none =>
          simp only [Unambiguous, name, port]
          cases colon : strrchr parts.path 58 with
          | none =>
              have right := portColon_front colon (by rw [port]; exact nofun)
              exact iff_of_true (splits_of_portColon right) nofun
          | some index =>
              by_cases hidden : ∃ bracket, strrchr parts.path 93 = some bracket ∧ index < bracket
              · obtain ⟨bracket, found, order⟩ := hidden
                have right := portColon_hidden name found
                  (by rw [colon]; rintro _ ⟨rfl⟩; exact order)
                refine iff_of_true (splits_of_portColon (by rw [right, port]; rfl)) ?_
                rintro _ ⟨rfl⟩
                exact ⟨bracket, found, order⟩
              · have taken := portColon_path colon fun _ bracket found =>
                  Nat.le_of_not_lt fun order => hidden ⟨bracket, found, order⟩
                exact iff_of_false (not_splits_of_path colon taken) fun all =>
                  hidden (all index rfl)
      | some digits =>
          simp only [Unambiguous, name, port, ← strrchr_eq_none_iff]
          cases bracket : strrchr parts.path 93 with
          | none =>
              cases colon : strrchr parts.path 58 with
              | none =>
                  have right := portColon_front colon fun _ _ => bracket
                  exact iff_of_true (splits_of_portColon right) ⟨rfl, rfl⟩
              | some index =>
                  have taken := portColon_path colon (by rw [bracket]; exact nofun)
                  exact iff_of_false (not_splits_of_path colon taken) nofun
          | some place =>
              refine iff_of_false ?_ nofun
              by_cases hidden : ∀ index, strrchr parts.path 58 = some index → index < place
              · exact not_splits_of_hidden port (portColon_hidden name bracket hidden)
              · simp only [not_forall, Nat.not_lt] at hidden
                obtain ⟨index, colon, order⟩ := hidden
                have taken := portColon_path colon
                  (by rw [bracket]; rintro _ _ ⟨rfl⟩; exact order)
                exact not_splits_of_path colon taken

/-- The path `/a:b` behind a name makes its length three too many. -/
theorem splits_fails : ¬ ∀ parts default_port, ServerURI.Splits parts default_port := by
  intro all
  obtain ⟨split, ran, length, -⟩ := all
    ⟨false, [104], none, [47, 97, 58, 98], by simp, by simp, by simp, nofun, nofun, by simp⟩ 1883
  have computed : addressPort [104, 47, 97, 58, 98] 1883 = .ok ⟨3, 0, none⟩ := rfl
  have same := Except.ok.inj (computed.symm.trans ran)
  rw [← same] at length
  exact absurd length (by decide)

end MQTTProtocol

end MqttClient
