import Mathlib.Data.List.Basic
import Mathlib.Tactic.Common
import Mathlib.Tactic.Ring

/-! # Network byte order

Numbers as bytes, the highest of them first.
-/

namespace MqttClient.Foundation

def bigEndian : (width value : Nat) → List UInt8
  | 0, _ => []
  | width + 1, value => UInt8.ofNat (value / 256 ^ width) :: bigEndian width value

def ofBigEndian (bytes : List UInt8) : Nat :=
  bytes.foldl (fun value byte => 256 * value + byte.toNat) 0

@[simp] theorem length_bigEndian (width value : Nat) : (bigEndian width value).length = width := by
  induction width with
  | zero => rfl
  | succ width induction => rw [bigEndian, List.length_cons, induction]

theorem foldl_bigEndian (width value start : Nat) :
    (bigEndian width value).foldl (fun value byte => 256 * value + byte.toNat) start =
      start * 256 ^ width + value % 256 ^ width := by
  induction width generalizing start with
  | zero => rw [bigEndian, List.foldl_nil, pow_zero, Nat.mod_one, Nat.mul_one, Nat.add_zero]
  | succ width induction =>
      have byte : (UInt8.ofNat (value / 256 ^ width)).toNat = value / 256 ^ width % 256 :=
        UInt8.toNat_ofNat'
      have digits : value % 256 ^ (width + 1) =
          value % 256 ^ width + 256 ^ width * (value / 256 ^ width % 256) := Nat.mod_pow_succ
      rw [bigEndian, List.foldl_cons, induction, byte, digits]
      ring

theorem ofBigEndian_bigEndian {width value : Nat} (small : value < 256 ^ width) :
    ofBigEndian (bigEndian width value) = value := by
  rw [ofBigEndian, foldl_bigEndian, Nat.zero_mul, Nat.zero_add, Nat.mod_eq_of_lt small]

private theorem foldl_lt (bytes : List UInt8) (start : Nat) :
    bytes.foldl (fun value byte => 256 * value + byte.toNat) start <
      (start + 1) * 256 ^ bytes.length := by
  induction bytes generalizing start with
  | nil => simp
  | cons byte bytes induction =>
      have bound := byte.toNat_lt
      rw [List.foldl_cons, List.length_cons]
      calc bytes.foldl (fun value byte => 256 * value + byte.toNat) (256 * start + byte.toNat)
          < (256 * start + byte.toNat + 1) * 256 ^ bytes.length := induction _
        _ ≤ (start + 1) * 256 * 256 ^ bytes.length := Nat.mul_le_mul_right _ (by omega)
        _ = (start + 1) * 256 ^ (bytes.length + 1) := by ring

theorem ofBigEndian_lt (bytes : List UInt8) : ofBigEndian bytes < 256 ^ bytes.length := by
  have bound := foldl_lt bytes 0
  rwa [Nat.zero_add, Nat.one_mul] at bound

theorem foldl_ofBigEndian (bytes : List UInt8) (start : Nat) :
    bytes.foldl (fun value byte => 256 * value + byte.toNat) start =
      start * 256 ^ bytes.length + ofBigEndian bytes := by
  induction bytes generalizing start with
  | nil => simp [ofBigEndian]
  | cons byte bytes induction =>
      rw [ofBigEndian, List.foldl_cons, List.foldl_cons, induction, induction (256 * 0 + _),
        List.length_cons]
      ring

theorem ofBigEndian_cons (byte : UInt8) (bytes : List UInt8) :
    ofBigEndian (byte :: bytes) = byte.toNat * 256 ^ bytes.length + ofBigEndian bytes := by
  rw [ofBigEndian, List.foldl_cons, foldl_ofBigEndian, Nat.mul_zero, Nat.zero_add]

theorem bigEndian_add (width high value : Nat) :
    bigEndian width (high * 256 ^ width + value) = bigEndian width value := by
  induction width generalizing high with
  | zero => rfl
  | succ width induction =>
      have split : high * 256 ^ (width + 1) + value = value + 256 ^ width * (256 * high) := by ring
      have digit : UInt8.ofNat (value / 256 ^ width + 256 * high) =
          UInt8.ofNat (value / 256 ^ width) := by
        apply UInt8.toNat_inj.mp
        rw [UInt8.toNat_ofNat', UInt8.toNat_ofNat']
        exact Nat.add_mul_mod_self_left ..
      rw [bigEndian, bigEndian, split, Nat.add_mul_div_left _ _ (Nat.pow_pos (by decide)), digit,
        Nat.add_comm, Nat.mul_comm, induction]

theorem bigEndian_ofBigEndian (bytes : List UInt8) :
    bigEndian bytes.length (ofBigEndian bytes) = bytes := by
  induction bytes with
  | nil => rfl
  | cons byte bytes induction =>
      have digit : (byte.toNat * 256 ^ bytes.length + ofBigEndian bytes) / 256 ^ bytes.length =
          byte.toNat := by
        rw [Nat.add_comm, Nat.add_mul_div_right _ _ (Nat.pow_pos (by decide)),
          Nat.div_eq_of_lt (ofBigEndian_lt bytes), Nat.zero_add]
      rw [List.length_cons, bigEndian, ofBigEndian_cons, digit, UInt8.ofNat_toNat, bigEndian_add,
        induction]

theorem bigEndian_append (high low value : Nat) :
    bigEndian (high + low) value = bigEndian high (value / 256 ^ low) ++ bigEndian low value := by
  induction high with
  | zero => rw [Nat.zero_add, bigEndian, List.nil_append]
  | succ high induction =>
      rw [Nat.succ_add, bigEndian, bigEndian, induction, Nat.div_div_eq_div_mul, ← pow_add,
        Nat.add_comm high low, List.cons_append]

end MqttClient.Foundation
