import MqttClient.Base64
import MqttClient.Foundation.CheckedString
import MqttClient.Sha1
import MqttClient.WebSocket.RawSocket

/-! # `WebSocket`: the answer to the handshake

`WebSocket_upgrade` reads the response of the server and compares the value of its header
`Sec-WebSocket-Accept` with the one that the key leads to. A string is the list of its bytes in
front of the final zero; a pointer into the response is the index from which on it is read.
-/

namespace MqttClient

open Foundation CheckedMemory CheckedString

namespace WebSocket

def literal (text : String) : List UInt8 := ascii text ++ [0]

/-- `WebSocket_strcasefind`, from `buf` on. -/
def strcasefind (text str : List UInt8) : (buf len : Nat) → Except Fault (Option Nat)
  | _, 0 => .ok none
  | buf, len + 1 =>
      if str.length ≤ len + 1 then do
        if ← strncasecmp (text.drop buf) (str ++ [0]) str.length then return some buf
        else strcasefind text str (buf + 1) len
      else .ok none

def wsGuid : List UInt8 := ascii "258EAFA5-E914-47DA-95CA-C5AB0DC85B11"

/-- `ws_key`, an array of 62 characters, when it holds the value that the server has to send.
`ctx` is on the stack. -/
def wsKey (stack : SHA1.Buffer) (websocketKey : List UInt8) : Except Fault (List UInt8) := do
  let text := (websocketKey ++ wsGuid).take 61
  let shaHash := SHA1.final (SHA1.update (SHA1.init stack) text)
  let (_, wsKey) ← Base64.encode (text ++ List.replicate (62 - text.length) 0) 62 shaHash
  return wsKey

inductive Status
  | refused
  | switching
  | other
  deriving DecidableEq

def statusOf (readBuf : List UInt8) : Except Fault Status := do
  let http ← strncmp readBuf (literal "HTTP/1.1") 8
  let code ← if http then strncmp (readBuf.drop 9) (literal "101") 3 else .ok true
  if code then
    let switching ← strncmp readBuf (literal "HTTP/1.1 101") 12
    return if switching then .switching else .other
  else return .refused

def Incomplete (readBuf : List UInt8) : Prop :=
  4 < readBuf.length ∧ readBuf.drop (readBuf.length - 4) ≠ ascii "\r\n\r\n"

instance (readBuf : List UInt8) : Decidable (Incomplete readBuf) :=
  inferInstanceAs (Decidable (_ ∧ _))

/-- `eol`. What is in front of `p` is added to the number of bytes that may be searched. -/
def endOfLine (readBuf : List UInt8) (p : Nat) : Except Fault (Option Nat) :=
  memchr readBuf 10 p (readBuf.length + p)

def checkUpgrade (readBuf : List UInt8) : Except Fault (Option Nat) := do
  match ← strcasefind readBuf (ascii "Connection") 0 readBuf.length with
  | none => return none
  | some p =>
      match ← endOfLine readBuf p with
      | none => return none
      | some eol => strcasefind readBuf (ascii "Upgrade") p (eol - p)

/-- `while (*p == ':' || *p == ' ')`, over the bytes from `p` on. -/
def skipBlanks : List UInt8 → (p : Nat) → (hashLen : UInt64) → Except Fault (Nat × UInt64)
  | [], p, _ => .error (.outside p)
  | byte :: rest, p, hashLen =>
      if byte = 58 ∨ byte = 32 then skipBlanks rest (p + 1) (hashLen - 1) else .ok (p, hashLen)

def checkKeyHash (wsKey readBuf : List UInt8) : Except Fault Bool := do
  match ← strcasefind readBuf (ascii "sec-websocket-accept") 0 readBuf.length with
  | none => return false
  | some p =>
      match ← endOfLine readBuf p with
      | none => return false
      | some eol =>
          match ← memchr readBuf 58 p (eol - p) with
          | none => return false
          | some p => do
              let (p, hashLen) ← skipBlanks (readBuf.drop p) p (UInt64.ofNat (eol - p - 1))
              strncmp (readBuf.drop p) wsKey hashLen.toNat

/-- Whether `p` is not NULL behind both checks. -/
def checkResponse (wsKey : List UInt8) : (readBuf : Option (List UInt8)) → Except Fault Bool
  | none => .ok false
  | some readBuf => do
      match ← checkUpgrade readBuf with
      | none => return false
      | some _ => checkKeyHash wsKey readBuf

/-- The fields of `networkHandles` that `WebSocket_upgrade` uses, but for the socket. -/
structure NetworkHandles where
  websocket : Int
  websocketKey : Option (List UInt8)

/-- `WebSocket_upgrade` from the second read on. -/
def upgradeRest (socket : SOCKET) (wsKey : List UInt8) (rc : Int) (net : NetworkHandles)
    (raw : RawSocket) : Option (Int × NetworkHandles × RawSocket) :=
  (getRawSocketData socket 1024 rc raw).bind fun (data, raw) =>
    if data.rc = socketError then some (socketError, net, raw)
    else if data.block.any fun readBuf => decide (Incomplete readBuf) then
      some (socketError, net, raw)
    else
      (checkResponse wsKey data.block).toOption.bind fun upgraded =>
        (getRawSocketData socket 0 (if upgraded then 1 else socketError) raw).map
          fun (data, raw) => (data.rc, ⟨if upgraded then 1 else net.websocket, none⟩, raw)

/-- `WebSocket_upgrade`. The result is `none` where memory is read that is not the
response's. -/
def upgrade (socket : SOCKET) (stack : SHA1.Buffer) (net : NetworkHandles) (raw : RawSocket) :
    Option (Int × NetworkHandles × RawSocket) :=
  match net.websocketKey with
  | none => some (socketError, net, raw)
  | some websocketKey =>
      (wsKey stack websocketKey).toOption.bind fun wsKey =>
        (getRawSocketData socket 12 socketError raw).bind fun (data, raw) =>
          if data.rc = socketError then some (socketError, net, raw)
          else
            match data.block with
            | none => some (tcpsocketInterrupted, net, raw)
            | some readBuf =>
                if readBuf.length < 12 then some (tcpsocketInterrupted, net, raw)
                else
                  (statusOf readBuf).toOption.bind fun
                    | .refused => some (socketError, net, raw)
                    | .switching => upgradeRest socket wsKey data.rc net raw
                    | .other => some (data.rc, net, raw)

/-! ## The key -/

def acceptValue (text : List UInt8) : List UInt8 := Rfc4648.encode (Fips180.digest text)

theorem length_acceptValue (text : List UInt8) : (acceptValue text).length = 28 := by
  rw [acceptValue, Rfc4648.length_encode, Fips180.length_digest]

theorem not_mem_acceptValue (text : List UInt8) {character : UInt8}
    (other : character ∈ [0, 10, 32, 58]) : character ∉ acceptValue text := by
  intro member
  have outside : ∀ inside ∈ acceptValue text, inside ∉ ([0, 10, 32, 58] : List UInt8) :=
    Rfc4648.forall_mem_encode (by decide) (by decide) _
  exact outside character member other

theorem wsKey_eq (stack : SHA1.Buffer) (websocketKey : List UInt8) :
    ∃ more, wsKey stack websocketKey =
      .ok (acceptValue ((websocketKey ++ wsGuid).take 61) ++ 0 :: more) := by
  generalize cut : (websocketKey ++ wsGuid).take 61 = text
  have short : text.length ≤ 61 := by
    rw [← cut]
    exact List.length_take_le ..
  have hash : SHA1.final (SHA1.update (SHA1.init stack) text) = Fips180.digest text :=
    SHA1.final_eq ((SHA1.Holds.init stack).update text)
      (Nat.lt_of_le_of_lt short (by decide))
  have characters : (Rfc4648.encode (Fips180.digest text)).length = 28 := length_acceptValue text
  generalize memory : text ++ List.replicate (62 - text.length) (0 : UInt8) = array
  have room : array.length = 62 := by
    rw [← memory, List.length_append, List.length_replicate]
    omega
  have inside : (62 : UInt32).toNat ≤ array.length := by
    rw [room]
    decide
  have fits : (Rfc4648.encode (Fips180.digest text)).length < (62 : UInt32).toNat := by
    rw [characters]
    decide
  refine ⟨(array.drop (acceptValue text).length).drop 1, ?_⟩
  rw [wsKey]
  dsimp only
  rw [cut, memory, hash, Base64.encode_eq inside (Nat.le_of_lt fits), if_pos fits]
  rfl

/-! ## Where a name stands -/

def OccursAt (text name : List UInt8) (place : Nat) : Prop :=
  ((text.drop place).take name.length).map toLower = name.map toLower

instance (text name : List UInt8) (place : Nat) : Decidable (OccursAt text name place) :=
  inferInstanceAs (Decidable (_ = _))

/-- The first place from `start` on, of those from which the name ends in front of `stop`. -/
structure FirstAt (text name : List UInt8) (start stop place : Nat) : Prop where
  start_le : start ≤ place
  le_stop : place + name.length ≤ stop
  occurs : OccursAt text name place
  first : ∀ earlier, start ≤ earlier → earlier < place → ¬ OccursAt text name earlier

section Search

variable {text name : List UInt8}

theorem FirstAt.unique {start stop place other : Nat} (here : FirstAt text name start stop place)
    (there : FirstAt text name start stop other) : place = other := by
  cases Nat.lt_trichotomy place other with
  | inl earlier => exact absurd here.occurs (there.first place here.start_le earlier)
  | inr rest =>
      cases rest with
      | inl same => exact same
      | inr later => exact absurd there.occurs (here.first other there.start_le later)

theorem strcasefind_eq (zero : 0 ∉ name) (nonempty : name ≠ []) {buf len : Nat}
    (inside : buf + len ≤ text.length) :
    ∃ found, strcasefind text name buf len = .ok found ∧
      ∀ place, found = some place ↔ FirstAt text name buf (buf + len) place := by
  have positive := List.length_pos_of_ne_nil nonempty
  induction len generalizing buf with
  | zero =>
      refine ⟨none, rfl, ?_⟩
      intro place
      apply iff_of_false nofun
      intro here
      have fits := here.le_stop
      have later := here.start_le
      omega
  | succ len induction =>
      rw [strcasefind]
      by_cases fits : name.length ≤ len + 1
      · have room : name.length ≤ (text.drop buf).length := by
          rw [List.length_drop]
          omega
        rw [if_pos fits, strncasecmp_whole zero room, ok_bind]
        by_cases here : OccursAt text name buf
        · rw [OccursAt] at here
          rw [decide_eq_true here, if_pos rfl]
          refine ⟨some buf, rfl, ?_⟩
          intro place
          constructor
          · intro same
            cases same
            exact ⟨Nat.le_refl _, by omega, here, fun _ late early => by omega⟩
          · intro there
            cases Nat.eq_or_lt_of_le there.start_le with
            | inl same => rw [same]
            | inr later => exact absurd here (there.first buf (Nat.le_refl _) later)
        · have shift : buf + 1 + len = buf + (len + 1) := by omega
          cases induction (by omega : buf + 1 + len ≤ text.length) with
          | intro found searched =>
              refine ⟨found, ?_, ?_⟩
              · rw [OccursAt] at here
                rw [decide_eq_false here, if_neg Bool.false_ne_true]
                exact searched.1
              · intro place
                rw [searched.2 place, shift]
                constructor
                · intro there
                  refine ⟨Nat.le_of_succ_le there.start_le, there.le_stop, there.occurs, ?_⟩
                  intro earlier late early
                  cases Nat.eq_or_lt_of_le late with
                  | inl same => exact same ▸ here
                  | inr later => exact there.first earlier later early
                · intro there
                  refine ⟨?_, there.le_stop, there.occurs, ?_⟩
                  · apply Nat.lt_of_le_of_ne there.start_le
                    intro same
                    exact here (same ▸ there.occurs)
                  · intro earlier late early
                    exact there.first earlier (Nat.le_of_succ_le late) early
      · rw [if_neg fits]
        refine ⟨none, rfl, ?_⟩
        intro place
        apply iff_of_false nofun
        intro here
        have bound := here.le_stop
        have later := here.start_le
        omega

def lineFrom (text : List UInt8) (place : Nat) : List UInt8 :=
  (text.drop place).takeWhile (· != 10)

theorem lineFrom_split {place : Nat} (ended : 10 ∈ text.drop place) :
    ∃ rest, text.drop place = lineFrom text place ++ 10 :: rest := by
  have split := List.takeWhile_append_dropWhile (p := (· != 10)) (l := text.drop place)
  cases left : (text.drop place).dropWhile (· != 10) with
  | nil =>
      have none := List.dropWhile_eq_nil_iff.mp left 10 ended
      exact absurd none (by decide)
  | cons first rest =>
      have stops := List.head?_dropWhile_not (· != 10) (text.drop place)
      rw [left] at stops split
      have newline : first = 10 := by simpa using stops
      exact ⟨rest, by rw [← newline]; exact split.symm⟩

theorem endOfLine_eq {place : Nat} (ended : 10 ∈ text.drop place) :
    endOfLine text place = .ok (some ((lineFrom text place).length + place)) := by
  have all : (text.drop place).take (text.length + place) = text.drop place := by
    apply List.take_of_length_le
    rw [List.length_drop]
    omega
  rw [endOfLine, memchr_eq (.inr ended), all, CString.strchr_eq_length ended]
  rfl

theorem newline_of_complete (complete : ¬ Incomplete text) {place : Nat}
    (inside : place + 5 ≤ text.length) : 10 ∈ text.drop place := by
  have ends : text.drop (text.length - 4) = ascii "\r\n\r\n" := by
    by_contra other
    exact complete ⟨by omega, other⟩
  have last : text.length - 4 = place + (text.length - 4 - place) := by omega
  have behind : ascii "\r\n\r\n" <:+ text.drop place := by
    rw [← ends, last, ← List.drop_drop]
    exact List.drop_suffix ..
  exact behind.subset (by decide)

end Search

/-! ## The checks -/

/-- The first place of `Connection` has `Upgrade` behind it in its line. -/
def AsksUpgrade (text : List UInt8) : Prop :=
  ∃ place, FirstAt text (ascii "Connection") 0 text.length place ∧
    ∃ later, FirstAt text (ascii "Upgrade") place (place + (lineFrom text place).length) later

def blank (character : UInt8) : Bool := character == 58 || character == 32

def valueIn (line : List UInt8) : List UInt8 := (line.dropWhile (· != 58)).dropWhile blank

/-- The value in the line in which the name of the header stands first. -/
structure Offers (text : List UInt8) (place : Nat) (value : List UInt8) : Prop where
  first : FirstAt text (ascii "sec-websocket-accept") 0 text.length place
  colon : 58 ∈ lineFrom text place
  value : value = valueIn (lineFrom text place)

def Agrees (expected value : List UInt8) : Prop :=
  value ≠ [] ∧ (value.dropLast <+: expected ∨ expected ++ [0] <+: value.dropLast)

instance (expected value : List UInt8) : Decidable (Agrees expected value) :=
  inferInstanceAs (Decidable (_ ∧ _))

section Checks

variable {text : List UInt8}

theorem checkUpgrade_eq (complete : ¬ Incomplete text) :
    ∃ found, checkUpgrade text = .ok found ∧ (found.isSome ↔ AsksUpgrade text) := by
  cases strcasefind_eq (by decide : 0 ∉ ascii "Connection") (by decide)
    (by rw [Nat.zero_add] : 0 + text.length ≤ text.length) with
  | intro found searched =>
      rw [Nat.zero_add] at searched
      rw [checkUpgrade, searched.1, ok_bind]
      cases found with
      | none =>
          refine ⟨none, rfl, iff_of_false Bool.false_ne_true ?_⟩
          intro asks
          cases asks with
          | intro place asks => exact absurd ((searched.2 place).mpr asks.1) nofun
      | some place =>
          have here := (searched.2 place).mp rfl
          have inside : place + 10 ≤ text.length := here.le_stop
          have ended := newline_of_complete complete (by omega : place + 5 ≤ text.length)
          have line := (List.takeWhile_prefix (l := text.drop place) (· != 10)).length_le
          rw [List.length_drop] at line
          have bound : place + (lineFrom text place).length ≤ text.length := by
            rw [lineFrom]
            omega
          dsimp only
          rw [endOfLine_eq ended, ok_bind]
          dsimp only
          rw [Nat.add_sub_cancel]
          cases strcasefind_eq (by decide : 0 ∉ ascii "Upgrade") (by decide) bound with
          | intro found again =>
              refine ⟨found, again.1, ?_⟩
              constructor
              · intro some
                exact ⟨place, here, found.get some, (again.2 _).mp (Option.some_get some).symm⟩
              · intro asks
                cases asks with
                | intro other asks =>
                    cases asks.2 with
                    | intro later there =>
                        have same := asks.1.unique here
                        subst same
                        rw [(again.2 later).mpr there]
                        rfl

theorem skipBlanks_eq {skipped rest : List UInt8} {stop : UInt8} (blanks : ∀ c ∈ skipped, blank c)
    (stops : ¬ blank stop) (p : Nat) (hashLen : UInt64) :
    skipBlanks (skipped ++ stop :: rest) p hashLen =
      .ok (p + skipped.length, hashLen - UInt64.ofNat skipped.length) := by
  induction skipped generalizing p hashLen with
  | nil =>
      have other : ¬ (stop = 58 ∨ stop = 32) := by simpa [blank] using stops
      rw [List.nil_append, skipBlanks, if_neg other]
      simp
  | cons byte skipped induction =>
      have first : byte = 58 ∨ byte = 32 := by simpa [blank] using blanks byte List.mem_cons_self
      have later := induction fun c member => blanks c (List.mem_cons_of_mem byte member)
      rw [List.cons_append, skipBlanks, if_pos first, later]
      have count : hashLen - 1 - UInt64.ofNat skipped.length =
          hashLen - UInt64.ofNat (byte :: skipped).length := by
        rw [List.length_cons, UInt64.ofNat_add]
        grind
      rw [count, List.length_cons, Nat.add_right_comm, Nat.add_assoc]

theorem valueIn_split {line : List UInt8} (colon : 58 ∈ line) :
    ∃ skipped, line = line.takeWhile (· != 58) ++ (skipped ++ valueIn line) ∧
      (∀ c ∈ skipped, blank c) ∧ skipped ≠ [] ∧ ∀ stop ∈ (valueIn line).head?, ¬ blank stop := by
  refine ⟨(line.dropWhile (· != 58)).takeWhile blank, ?_, ?_, ?_, ?_⟩
  · rw [valueIn, List.takeWhile_append_dropWhile, List.takeWhile_append_dropWhile]
  · intro c member
    exact (List.mem_takeWhile_imp member)
  · cases left : line.dropWhile (· != 58) with
    | nil =>
        have none := List.dropWhile_eq_nil_iff.mp left 58 colon
        exact absurd none (by decide)
    | cons first rest =>
        have stops := List.head?_dropWhile_not (· != 58) line
        rw [left] at stops
        have here : first = 58 := by simpa using stops
        rw [here, List.takeWhile_cons_of_pos (by decide)]
        exact List.cons_ne_nil _ _
  · intro stop member
    have stops := List.head?_dropWhile_not blank (line.dropWhile (· != 58))
    rw [valueIn] at member
    rw [Option.mem_def.mp member] at stops
    simpa using stops

theorem toNat_hashLen {skipped left : Nat} (positive : 0 < skipped)
    (small : skipped + left < 18446744073709551616) :
    (UInt64.ofNat (skipped + left - 1) - UInt64.ofNat skipped).toNat =
      if left = 0 then 18446744073709551615 else left - 1 := by
  rw [UInt64.toNat_sub, UInt64.toNat_ofNat', UInt64.toNat_ofNat']
  split <;> omega

theorem stop_of_value (value rest : List UInt8) (stops : ∀ stop ∈ value.head?, ¬ blank stop) :
    ∃ stop others, value ++ 10 :: rest = stop :: others ∧ ¬ blank stop := by
  cases value with
  | nil => exact ⟨10, rest, rfl, by decide⟩
  | cons stop others => exact ⟨stop, others ++ 10 :: rest, rfl, stops stop rfl⟩

theorem strncmp_value (text value rest more : List UInt8) {count : Nat}
    (empty : value = [] → count ≠ 0) (length : value ≠ [] → count = value.length - 1) :
    strncmp (value ++ 10 :: rest) (acceptValue text ++ 0 :: more) count =
      .ok (decide (Agrees (acceptValue text) value)) := by
  cases value with
  | nil =>
      have differs : ¬ Agrees (acceptValue text) [] := fun agrees => agrees.1 rfl
      have newline := not_mem_acceptValue text (by decide : (10 : UInt8) ∈ _)
      have characters := length_acceptValue text
      rw [decide_eq_false differs]
      cases shown : acceptValue text with
      | nil =>
          rw [shown] at characters
          exact absurd characters (by decide)
      | cons first others =>
          cases count with
          | zero => exact absurd rfl (empty rfl)
          | succ count =>
              rw [shown] at newline
              apply strncmp_differs
              intro same
              exact newline (same ▸ List.mem_cons_self)
  | cons first others =>
      have zero := not_mem_acceptValue text (by decide : (0 : UInt8) ∈ _)
      have count_eq := length (List.cons_ne_nil _ _)
      have inside : count ≤ (first :: others ++ 10 :: rest).length := by
        rw [count_eq, List.length_append]
        omega
      have compared : (first :: others ++ 10 :: rest).take count = (first :: others).dropLast := by
        rw [count_eq, List.take_append_of_le_length (Nat.sub_le ..), List.dropLast_eq_take]
      rw [strncmp_eq zero inside, compared]
      simp only [Agrees, ne_eq, List.cons_ne_nil, not_false_eq_true, true_and]

theorem compareValue_eq (small : text.length < 18446744073709551616) (key more : List UInt8)
    {place : Nat} {rest : List UInt8} (split : text.drop place = lineFrom text place ++ 10 :: rest)
    (colon : 58 ∈ lineFrom text place) :
    let p := ((lineFrom text place).takeWhile (· != 58)).length + place
    (do
      let (p, hashLen) ← skipBlanks (text.drop p) p
        (UInt64.ofNat ((lineFrom text place).length + place - p - 1))
      strncmp (text.drop p) (acceptValue key ++ 0 :: more) hashLen.toNat) =
      .ok (decide (Agrees (acceptValue key) (valueIn (lineFrom text place)))) := by
  rcases valueIn_split colon with ⟨skipped, parts, blanks, nonempty, stops⟩
  have total := congrArg List.length split
  rw [List.length_drop, List.length_append, List.length_cons] at total
  have length := congrArg List.length parts
  rw [List.length_append, List.length_append] at length
  have positive := List.length_pos_of_ne_nil nonempty
  have behind : text.drop (((lineFrom text place).takeWhile (· != 58)).length + place) =
      skipped ++ (valueIn (lineFrom text place) ++ 10 :: rest) := by
    rw [Nat.add_comm, ← List.drop_drop, split]
    nth_rewrite 2 [parts]
    rw [List.append_assoc, List.drop_left, List.append_assoc]
  rcases stop_of_value (valueIn (lineFrom text place)) rest stops with ⟨stop, others, next, solid⟩
  have left : (lineFrom text place).length + place -
      (((lineFrom text place).takeWhile (· != 58)).length + place) - 1 =
        skipped.length + (valueIn (lineFrom text place)).length - 1 := by omega
  dsimp only
  rw [behind, next, skipBlanks_eq blanks solid, ok_bind]
  dsimp only
  rw [← List.drop_drop, behind, List.drop_left, left, toNat_hashLen positive (by omega)]
  apply strncmp_value
  · intro empty
    rw [empty, List.length_nil, if_pos rfl]
    decide
  · intro some
    rw [if_neg (List.length_pos_of_ne_nil some).ne']

theorem checkKeyHash_eq (complete : ¬ Incomplete text) (small : text.length < 18446744073709551616)
    (key more : List UInt8) :
    ∃ found, checkKeyHash (acceptValue key ++ 0 :: more) text = .ok found ∧
      (found = true ↔ ∃ place value, Offers text place value ∧
        Agrees (acceptValue key) value) := by
  cases strcasefind_eq (by decide : 0 ∉ ascii "sec-websocket-accept") (by decide)
    (by rw [Nat.zero_add] : 0 + text.length ≤ text.length) with
  | intro found searched =>
      rw [Nat.zero_add] at searched
      rw [checkKeyHash, searched.1, ok_bind]
      cases found with
      | none =>
          refine ⟨false, rfl, iff_of_false Bool.false_ne_true ?_⟩
          intro offers
          rcases offers with ⟨place, value, offers, agrees⟩
          exact absurd ((searched.2 place).mpr offers.first) nofun
      | some place =>
          have here := (searched.2 place).mp rfl
          have inside : place + 20 ≤ text.length := here.le_stop
          have ended := newline_of_complete complete (by omega : place + 5 ≤ text.length)
          rcases lineFrom_split ended with ⟨rest, split⟩
          have total := congrArg List.length split
          rw [List.length_drop, List.length_append, List.length_cons] at total
          have line : (text.drop place).take (lineFrom text place).length =
              lineFrom text place := by
            rw [split, List.take_left]
          dsimp only
          rw [endOfLine_eq ended, ok_bind]
          dsimp only
          rw [Nat.add_sub_cancel, memchr_eq (.inl (by omega)), line]
          by_cases colon : 58 ∈ lineFrom text place
          · rw [CString.strchr_eq_length colon, ok_bind]
            refine ⟨_, compareValue_eq small key more split colon, ?_⟩
            rw [decide_eq_true_iff]
            constructor
            · intro agrees
              exact ⟨place, _, ⟨here, colon, rfl⟩, agrees⟩
            · intro offers
              rcases offers with ⟨other, value, offers, agrees⟩
              have same := offers.first.unique here
              subst same
              rw [← offers.value]
              exact agrees
          · rw [CString.strchr_eq_none colon]
            refine ⟨false, rfl, iff_of_false Bool.false_ne_true ?_⟩
            intro offers
            rcases offers with ⟨other, value, offers, agrees⟩
            have same := offers.first.unique here
            subst same
            exact colon offers.colon

theorem checkResponse_eq (complete : ¬ Incomplete text)
    (small : text.length < 18446744073709551616) (key more : List UInt8) :
    ∃ found, checkResponse (acceptValue key ++ 0 :: more) (some text) = .ok found ∧
      (found = true ↔ AsksUpgrade text ∧
        ∃ place value, Offers text place value ∧ Agrees (acceptValue key) value) := by
  rw [checkResponse]
  cases checkUpgrade_eq complete with
  | intro found asks =>
      rw [asks.1, ok_bind, ← asks.2]
      cases found with
      | none => exact ⟨false, rfl, iff_of_false Bool.false_ne_true fun both => nomatch both.1⟩
      | some p =>
          cases checkKeyHash_eq complete small key more with
          | intro found hash =>
              refine ⟨found, hash.1, hash.2.trans ?_⟩
              exact ⟨fun offers => ⟨rfl, offers⟩, And.right⟩

theorem statusOf_eq {readBuf : List UInt8} (whole : 12 ≤ readBuf.length) :
    ∃ status, statusOf readBuf = .ok status ∧
      (status = .switching ↔ readBuf.take 12 = ascii "HTTP/1.1 101") := by
  have http : strncmp readBuf (literal "HTTP/1.1") 8 =
      .ok (decide (readBuf.take 8 = ascii "HTTP/1.1")) :=
    strncmp_whole (by decide : 0 ∉ ascii "HTTP/1.1") (Nat.le_trans (by decide) whole)
  have code : strncmp (readBuf.drop 9) (literal "101") 3 =
      .ok (decide ((readBuf.drop 9).take 3 = ascii "101")) :=
    strncmp_whole (by decide : 0 ∉ ascii "101") (by
      rw [List.length_drop]
      exact Nat.sub_le_sub_right whole 9)
  have both : strncmp readBuf (literal "HTTP/1.1 101") 12 =
      .ok (decide (readBuf.take 12 = ascii "HTTP/1.1 101")) :=
    strncmp_whole (by decide : 0 ∉ ascii "HTTP/1.1 101") whole
  rw [statusOf, http, code, both, ok_bind]
  by_cases switching : readBuf.take 12 = ascii "HTTP/1.1 101"
  · have front : readBuf.take 8 = ascii "HTTP/1.1" := by
      have cut := congrArg (List.take 8) switching
      rw [List.take_take] at cut
      exact cut
    have number : (readBuf.drop 9).take 3 = ascii "101" := by
      have cut := congrArg (List.drop 9) switching
      rw [List.drop_take] at cut
      exact cut
    rw [decide_eq_true front, decide_eq_true number, decide_eq_true switching]
    exact ⟨.switching, rfl, iff_of_true rfl switching⟩
  · rw [decide_eq_false switching]
    cases decide (readBuf.take 8 = ascii "HTTP/1.1") with
    | false => exact ⟨.other, rfl, iff_of_false nofun switching⟩
    | true =>
        cases decide ((readBuf.drop 9).take 3 = ascii "101") with
        | false => exact ⟨.refused, rfl, iff_of_false nofun switching⟩
        | true => exact ⟨.other, rfl, iff_of_false nofun switching⟩

end Checks

/-! ## The response -/

/-- A call ends, and `net->websocket` is set behind it. -/
def Sets (result : Option (Int × NetworkHandles × RawSocket)) : Prop :=
  ∃ rc net after, result = some (rc, net, after) ∧ net.websocket = 1

theorem not_sets_none : ¬ Sets none := nofun

theorem sets_some {rc : Int} {net : NetworkHandles} {after : RawSocket} :
    Sets (some (rc, net, after)) ↔ net.websocket = 1 := by
  constructor
  · rintro ⟨rc', net', after', same, sets⟩
    cases same
    exact sets
  · intro sets
    exact ⟨rc, net, after, rfl, sets⟩

theorem not_sets_zero {rc : Int} {websocketKey : Option (List UInt8)} {after : RawSocket} :
    ¬ Sets (some (rc, ⟨0, websocketKey⟩, after)) :=
  fun sets => Int.zero_ne_one (sets_some.mp sets)

/-- What the reads of a call give: the first 12 bytes, and the text behind them. -/
structure Response (socket : SOCKET) (raw : RawSocket) (status text : List UInt8) : Prop where
  given : ∃ first between second after,
    getRawSocketData socket 12 socketError raw = some (⟨some status, first⟩, between) ∧
      first ≠ socketError ∧
    getRawSocketData socket 1024 first between = some (⟨some text, second⟩, after) ∧
      second ≠ socketError

/-- The response that `WebSocket_upgrade` lets through for a key. -/
structure Admitted (websocketKey status text : List UInt8) : Prop where
  switching : status = ascii "HTTP/1.1 101"
  complete : ¬ Incomplete text
  asksUpgrade : AsksUpgrade text
  offers : ∃ place value, Offers text place value ∧
    Agrees (acceptValue ((websocketKey ++ wsGuid).take 61)) value

section Response

variable {socket : SOCKET} {raw : RawSocket} {status text status' text' : List UInt8}

theorem Response.unique (response : Response socket raw status text)
    (other : Response socket raw status' text') : status = status' ∧ text = text' := by
  rcases response.given with ⟨first, between, second, after, read, _, readText, _⟩
  rcases other.given with ⟨first', between', second', after', read', _, readText', _⟩
  cases read.symm.trans read'
  cases readText.symm.trans readText'
  exact ⟨rfl, rfl⟩

theorem upgradeRest_sets_iff (key more : List UInt8) (rc : Int) (websocketKey : Option (List UInt8))
    (raw : RawSocket) :
    Sets (upgradeRest socket (acceptValue key ++ 0 :: more) rc ⟨0, websocketKey⟩ raw) ↔
      ∃ text second after, getRawSocketData socket 1024 rc raw = some (⟨some text, second⟩, after) ∧
        second ≠ socketError ∧ ¬ Incomplete text ∧ AsksUpgrade text ∧
          ∃ place value, Offers text place value ∧ Agrees (acceptValue key) value := by
  rw [upgradeRest]
  cases read : getRawSocketData socket 1024 rc raw with
  | none => exact iff_of_false not_sets_none (by rintro ⟨text, second, after, same, -⟩; cases same)
  | some got =>
      rcases got with ⟨⟨block, second⟩, after⟩
      rw [Option.bind_some]
      dsimp only
      by_cases failed : second = socketError
      · rw [if_pos failed]
        apply iff_of_false not_sets_zero
        rintro ⟨text, second', after', same, opened, -⟩
        cases same
        exact opened failed
      rw [if_neg failed]
      cases block with
      | none =>
          rcases getRawSocketData_zero_ends socketError after with ⟨data, last, ended⟩
          apply iff_of_false
          · rw [if_neg (by decide), checkResponse]
            dsimp only [Except.toOption, Option.bind_some]
            rw [if_neg Bool.false_ne_true, if_neg Bool.false_ne_true, ended]
            exact not_sets_zero
          · rintro ⟨text, second', after', same, -⟩
            cases same
      | some text =>
          rw [Option.any_some]
          by_cases incomplete : Incomplete text
          · rw [if_pos (decide_eq_true incomplete)]
            apply iff_of_false not_sets_zero
            rintro ⟨text', second', after', same, _, complete, -⟩
            cases same
            exact complete incomplete
          · have small := Nat.lt_of_le_of_lt (length_block_le read rfl)
              (by decide : 1024 < 18446744073709551616)
            rw [if_neg (by rw [decide_eq_false incomplete]; exact Bool.false_ne_true)]
            rcases checkResponse_eq incomplete small key more with ⟨found, checked, admits⟩
            rcases getRawSocketData_zero_ends (if found then 1 else socketError) after with
              ⟨data, last, ended⟩
            rw [checked]
            dsimp only [Except.toOption, Option.bind_some]
            rw [ended, Option.map_some, sets_some]
            constructor
            · intro sets
              have passed : found = true := by
                cases found with
                | true => rfl
                | false => exact absurd sets (by decide)
              exact ⟨text, second, after, rfl, failed, incomplete, admits.mp passed⟩
            · rintro ⟨text', second', after', same, _, _, admitted⟩
              cases same
              rw [if_pos (admits.mpr admitted)]

theorem upgrade_sets_iff (socket : SOCKET) (stack : SHA1.Buffer) (websocketKey : List UInt8)
    (raw : RawSocket) :
    Sets (upgrade socket stack ⟨0, some websocketKey⟩ raw) ↔
      ∃ status text, Response socket raw status text ∧ Admitted websocketKey status text := by
  rcases wsKey_eq stack websocketKey with ⟨more, key⟩
  rw [upgrade]
  dsimp only
  rw [key]
  dsimp only [Except.toOption, Option.bind_some]
  cases read : getRawSocketData socket 12 socketError raw with
  | none =>
      apply iff_of_false not_sets_none
      rintro ⟨status, text, ⟨first, between, second, after, same, -⟩, -⟩
      cases read.symm.trans same
  | some got =>
      rcases got with ⟨⟨block, first⟩, between⟩
      dsimp only [Option.bind_some]
      by_cases failed : first = socketError
      · rw [if_pos failed]
        apply iff_of_false not_sets_zero
        rintro ⟨status, text, ⟨first', between', second, after, same, opened, -⟩, -⟩
        cases read.symm.trans same
        exact opened failed
      rw [if_neg failed]
      cases block with
      | none =>
          apply iff_of_false not_sets_zero
          rintro ⟨status, text, ⟨first', between', second, after, same, -⟩, -⟩
          cases read.symm.trans same
      | some readBuf =>
          have most := length_block_le read rfl
          dsimp only
          by_cases short : readBuf.length < 12
          · rw [if_pos short]
            apply iff_of_false not_sets_zero
            rintro ⟨status, text, ⟨first', between', second, after, same, -⟩, admitted⟩
            cases read.symm.trans same
            rw [admitted.switching] at short
            exact absurd short (by decide)
          · rw [if_neg short]
            rcases statusOf_eq (Nat.le_of_not_lt short) with ⟨status, found, switching⟩
            rw [List.take_of_length_le most] at switching
            rw [found]
            dsimp only [Option.bind_some]
            cases status with
            | refused =>
                apply iff_of_false not_sets_zero
                rintro ⟨status, text, ⟨first', between', second, after, same, -⟩, admitted⟩
                cases read.symm.trans same
                exact absurd (switching.mpr admitted.switching) nofun
            | other =>
                apply iff_of_false not_sets_zero
                rintro ⟨status, text, ⟨first', between', second, after, same, -⟩, admitted⟩
                cases read.symm.trans same
                exact absurd (switching.mpr admitted.switching) nofun
            | switching =>
                refine (upgradeRest_sets_iff ..).trans ?_
                constructor
                · rintro ⟨text, second, after, same, opened, complete, asks, offers⟩
                  exact ⟨readBuf, text, ⟨first, between, second, after, read, failed, same, opened⟩,
                    switching.mp rfl, complete, asks, offers⟩
                · rintro ⟨status, text, ⟨first', between', second, after, same, _, rest, opened⟩,
                    admitted⟩
                  cases read.symm.trans same
                  exact ⟨text, second, after, rest, opened, admitted.complete,
                    admitted.asksUpgrade, admitted.offers⟩

end Response

end WebSocket

end MqttClient
