import Mathlib.Data.List.Basic
import Mathlib.Tactic.Common
import Mathlib.Tactic.Ring

/-! # Variable byte integers

Little-endian base-128 numerals whose digits carry a continuation bit, and the
scan of such a numeral that accepts a bounded number of digits.
-/

namespace MqttClient.Foundation.VariableByte

/-- The digits of `value`, the continuation bit set on every digit but the last. -/
def encode (value : Nat) : List UInt8 :=
  if value < 128 then [UInt8.ofNat value]
  else UInt8.ofNat (value % 128 + 128) :: encode (value / 128)

/-- What a scan of at most `limit` digits finds at the start of a byte string. -/
inductive Scan
  | incomplete
  | overlong
  | value (number : Nat) (rest : List UInt8)
  deriving DecidableEq, Repr

def Scan.consDigit (digit : Nat) : Scan → Scan
  | .value number rest => .value (digit + 128 * number) rest
  | scan => scan

def scan : Nat → List UInt8 → Scan
  | 0, _ => .overlong
  | _ + 1, [] => .incomplete
  | limit + 1, byte :: bytes =>
      if byte.toNat < 128 then .value byte.toNat bytes
      else (scan limit bytes).consDigit (byte.toNat % 128)

theorem encode_ne_nil (value : Nat) : encode value ≠ [] := by
  rw [encode]
  split <;> simp

theorem encode_length_pos (value : Nat) : 0 < (encode value).length :=
  List.length_pos_of_ne_nil (encode_ne_nil value)

theorem encode_length_le (limit : Nat) : ∀ {value : Nat}, value < 128 ^ (limit + 1) →
    (encode value).length ≤ limit + 1 := by
  induction limit with
  | zero =>
      intro value bound
      rw [encode, if_pos (by simpa using bound)]
      simp
  | succ limit induction =>
      intro value bound
      rw [encode]
      split
      · simp
      · have smaller : value / 128 < 128 ^ (limit + 1) := by
          rw [Nat.div_lt_iff_lt_mul (by decide)]
          rwa [pow_succ] at bound
        simpa using induction smaller

theorem lt_encode_length (limit : Nat) : ∀ {value : Nat}, 128 ^ limit ≤ value →
    limit < (encode value).length := by
  induction limit with
  | zero => exact fun _ => encode_length_pos _
  | succ limit induction =>
      intro value bound
      have large : 128 ≤ value := by
        refine Nat.le_trans ?_ bound
        exact Nat.le_pow (Nat.succ_pos limit)
      rw [encode, if_neg (by omega), List.length_cons]
      refine Nat.succ_lt_succ (induction ?_)
      rwa [Nat.le_div_iff_mul_le (by decide), ← pow_succ]

theorem scan_encode_of_length (value : Nat) {limit : Nat} (long : (encode value).length ≤ limit)
    (rest : List UInt8) : scan limit (encode value ++ rest) = .value value rest := by
  induction value using Nat.strongRecOn generalizing limit with
  | ind value induction =>
      rw [encode] at long ⊢
      cases limit with
      | zero => split at long <;> simp at long
      | succ limit =>
          by_cases small : value < 128
          · have digit : (UInt8.ofNat value).toNat = value := by
              rw [UInt8.toNat_ofNat']
              omega
            rw [if_pos small, List.singleton_append, scan, digit, if_pos small]
          · rw [if_neg small, List.length_cons] at long
            have digit : (UInt8.ofNat (value % 128 + 128)).toNat = value % 128 + 128 := by
              rw [UInt8.toNat_ofNat']
              omega
            rw [if_neg small, List.cons_append, scan, digit, if_neg (by omega),
              induction (value / 128) (by omega) (Nat.le_of_succ_le_succ long), Scan.consDigit]
            congr 1
            omega

theorem scan_encode_overlong (value : Nat) {limit : Nat} (long : limit < (encode value).length)
    (rest : List UInt8) : scan limit (encode value ++ rest) = .overlong := by
  induction limit generalizing value with
  | zero => rfl
  | succ limit induction =>
      rw [encode] at long ⊢
      by_cases small : value < 128
      · rw [if_pos small, List.length_singleton] at long
        omega
      · rw [if_neg small, List.length_cons] at long
        have digit : (UInt8.ofNat (value % 128 + 128)).toNat = value % 128 + 128 := by
          rw [UInt8.toNat_ofNat']
          omega
        rw [if_neg small, List.cons_append, scan, digit, if_neg (by omega),
          induction (value / 128) (Nat.lt_of_succ_lt_succ long)]
        rfl

theorem scan_encode (limit : Nat) {value : Nat} (bound : value < 128 ^ (limit + 1))
    (rest : List UInt8) : scan (limit + 1) (encode value ++ rest) = .value value rest :=
  scan_encode_of_length value (encode_length_le limit bound) rest

theorem scan_append {limit number : Nat} {bytes rest : List UInt8}
    (scanned : scan limit bytes = .value number rest) (more : List UInt8) :
    scan limit (bytes ++ more) = .value number (rest ++ more) := by
  induction limit generalizing bytes number with
  | zero => simp [scan] at scanned
  | succ limit induction =>
      cases bytes with
      | nil => simp [scan] at scanned
      | cons byte bytes =>
          simp only [scan, List.cons_append] at scanned ⊢
          split
          · rename_i last
            rw [if_pos last] at scanned
            cases scanned
            rfl
          · rename_i continued
            rw [if_neg continued] at scanned
            cases tail : scan limit bytes with
            | incomplete => simp [tail, Scan.consDigit] at scanned
            | overlong => simp [tail, Scan.consDigit] at scanned
            | value number rest =>
                simp only [tail, Scan.consDigit, Scan.value.injEq] at scanned
                rcases scanned with ⟨rfl, rfl⟩
                rw [induction tail]
                rfl

theorem scan_proper_prefix {limit number : Nat} {field front : List UInt8}
    (scanned : scan limit field = .value number []) (isPrefix : front <+: field)
    (proper : front ≠ field) : scan limit front = .incomplete := by
  induction limit generalizing field front number with
  | zero => simp [scan] at scanned
  | succ limit induction =>
      cases front with
      | nil => rfl
      | cons byte front =>
          cases field with
          | nil => simp at isPrefix
          | cons first field =>
              rcases List.cons_prefix_cons.mp isPrefix with ⟨rfl, tailPrefix⟩
              simp only [scan] at scanned ⊢
              split
              · rename_i last
                rw [if_pos last] at scanned
                cases scanned
                simp_all
              · rename_i continued
                rw [if_neg continued] at scanned
                cases tail : scan limit field with
                | incomplete => simp [tail, Scan.consDigit] at scanned
                | overlong => simp [tail, Scan.consDigit] at scanned
                | value number rest =>
                    simp only [tail, Scan.consDigit, Scan.value.injEq] at scanned
                    rcases scanned with ⟨_, rfl⟩
                    rw [induction tail tailPrefix fun equal => proper (by rw [equal])]
                    rfl

/-! ## Scanning digit by digit -/

/-- Put `value` and a scale in front of the numeral that was scanned. -/
def Scan.scale (multiplier value : Nat) : Scan → Scan
  | .value number rest => .value (value + multiplier * number) rest
  | scan => scan

private theorem Scan.scale_consDigit (multiplier value digit : Nat) (scan : Scan) :
    (scan.consDigit digit).scale multiplier value =
      scan.scale (multiplier * 128) (value + digit * multiplier) := by
  cases scan with
  | incomplete => rfl
  | overlong => rfl
  | value number rest =>
      simp only [Scan.consDigit, Scan.scale, Scan.value.injEq, and_true]
      ring

/-- The state of a scan behind the digits `field`: what further digits are scaled
by, what is added to them, and how many there may be. -/
def Resumes (limit : Nat) (field : List UInt8) (remaining multiplier value : Nat) : Prop :=
  ∀ more, scan limit (field ++ more) = (scan remaining more).scale multiplier value

theorem Resumes.start (limit : Nat) : Resumes limit [] limit 1 0 := by
  intro more
  rw [List.nil_append]
  cases scan limit more <;> simp [Scan.scale]

theorem Resumes.digit {limit remaining multiplier value : Nat} {field : List UInt8}
    (resumes : Resumes limit field (remaining + 1) multiplier value) {byte : UInt8}
    (continued : 128 ≤ byte.toNat) :
    Resumes limit (field ++ [byte]) remaining (multiplier * 128)
      (value + byte.toNat % 128 * multiplier) := by
  intro more
  rw [List.append_assoc, resumes, List.singleton_append, scan, if_neg (by omega),
    Scan.scale_consDigit]

theorem Resumes.last {limit remaining multiplier value : Nat} {field : List UInt8}
    (resumes : Resumes limit field (remaining + 1) multiplier value) {byte : UInt8}
    (ended : byte.toNat < 128) (more : List UInt8) :
    scan limit (field ++ [byte] ++ more) =
      .value (value + byte.toNat % 128 * multiplier) more := by
  rw [List.append_assoc, resumes, List.singleton_append, scan, if_pos ended, Scan.scale,
    Nat.mod_eq_of_lt ended, Nat.mul_comm]

theorem Resumes.incomplete {limit remaining multiplier value : Nat} {field : List UInt8}
    (resumes : Resumes limit field (remaining + 1) multiplier value) :
    scan limit field = .incomplete := by
  have scanned := resumes []
  rw [List.append_nil] at scanned
  exact scanned

theorem Resumes.overlong {limit multiplier value : Nat} {field : List UInt8}
    (resumes : Resumes limit field 0 multiplier value) (more : List UInt8) :
    scan limit (field ++ more) = .overlong :=
  resumes more

end MqttClient.Foundation.VariableByte
