import MqttClient.Foundation.Reader
import MqttClient.MQTTPacket.Writers

/-! # `MQTTPacket`: the fields that are written

What a reader of the fields in network byte order finds in the bytes of each writer.
-/

namespace MqttClient.MQTTPacket

open Foundation Reader

theorem toNat_toChar_emod (value : Int) : ((toChar value).toNat : Int) = value % 256 := by
  rw [toChar, UInt8.toNat_ofNat']
  omega

theorem reads_writeChar (c : UInt8) : Reads byte (writeChar c) c := reads_byte c

/-! ## Two bytes -/

theorem ofBigEndian_writeInt {value : Nat} (small : value < 65536) :
    ofBigEndian (writeInt value) = value := by
  have high := toNat_toChar_emod (value / 256)
  have low := toNat_toChar_emod (value % 256)
  rw [writeInt, Int.tdiv_eq_ediv_of_nonneg (by omega), Int.tmod_eq_emod_of_nonneg (by omega)]
  simp only [ofBigEndian, List.foldl_cons, List.foldl_nil]
  omega

theorem reads_writeInt {value : Nat} (small : value < 65536) :
    Reads (number 2) (writeInt value) value := by
  have reads := reads_number (writeInt value)
  rwa [length_writeInt, ofBigEndian_writeInt small] at reads

theorem reads_writeMQTTLenString {lenstring : List UInt8} (fits : lenstring.length ≤ 65535) :
    Reads prefixed (writeMQTTLenString lenstring) lenstring :=
  reads_prefixed rfl (ofBigEndian_writeInt (by omega))

theorem reads_writeData {data : List UInt8} (fits : data.length ≤ 65535) :
    Reads prefixed (writeData data) data :=
  reads_prefixed rfl (ofBigEndian_writeInt (by omega))

theorem reads_writeUTF {string : CString} (fits : string.bytes.length ≤ 65535) :
    Reads prefixed (writeUTF string) string.bytes := by
  rw [writeUTF, toInt_of_lt (by omega) (by omega)]
  exact reads_prefixed rfl (ofBigEndian_writeInt (by omega))

/-! ## Variable byte integers -/

theorem reads_encode {value : Nat} (small : value ≤ 268435455) :
    Reads (numeral 4) (encode value) value := by
  rw [encode_eq]
  exact reads_numeral (VariableByte.encode_length_le 3 (show value < 128 ^ (3 + 1) by omega))

/-! ## Four bytes -/

theorem writeInt4_of_nonneg {anInt : Int} (nonnegative : 0 ≤ anInt) :
    writeInt4 anInt = [toChar (anInt / 16777216), toChar (anInt % 16777216 / 65536),
      toChar (anInt % 16777216 % 65536 / 256), toChar (anInt % 16777216 % 65536 % 256)] := by
  rw [writeInt4, Int.tmod_eq_emod_of_nonneg nonnegative, Int.tdiv_eq_ediv_of_nonneg nonnegative,
    Int.tmod_eq_emod_of_nonneg (by omega), Int.tdiv_eq_ediv_of_nonneg (by omega),
    Int.tdiv_eq_ediv_of_nonneg (by omega), Int.tmod_eq_emod_of_nonneg (by omega)]

theorem writeInt4_neg {anInt : Int} (nonnegative : 0 ≤ anInt) :
    writeInt4 (-anInt) = [toChar (-(anInt / 16777216)), toChar (-(anInt % 16777216 / 65536)),
      toChar (-(anInt % 16777216 % 65536 / 256)), toChar (-(anInt % 16777216 % 65536 % 256))] := by
  simp only [writeInt4, Int.neg_tmod, Int.neg_tdiv]
  rw [Int.tmod_eq_emod_of_nonneg nonnegative, Int.tdiv_eq_ediv_of_nonneg nonnegative,
    Int.tmod_eq_emod_of_nonneg (by omega), Int.tdiv_eq_ediv_of_nonneg (by omega),
    Int.tdiv_eq_ediv_of_nonneg (by omega), Int.tmod_eq_emod_of_nonneg (by omega)]

theorem ofBigEndian_four (a b c d : UInt8) :
    ofBigEndian [a, b, c, d] =
      a.toNat * 16777216 + b.toNat * 65536 + c.toNat * 256 + d.toNat := by
  simp only [ofBigEndian, List.foldl_cons, List.foldl_nil]
  omega

def readBack4 (value : UInt32) : Nat := ofBigEndian (writeInt4 (toInt value.toNat))

theorem reads_writeInt4 (value : UInt32) :
    Reads (number 4) (writeInt4 (toInt value.toNat)) (readBack4 value) :=
  reads_number (writeInt4 (toInt value.toNat))

theorem readBack4_eq_iff (value : UInt32) : readBack4 value = value.toNat ↔
    value.toNat < 2147483648 ∨ value.toNat % 16777216 = 0 := by
  have bound := value.toNat_lt
  have char := toNat_toChar_emod
  rw [readBack4]
  generalize value.toNat = value at *
  rcases Nat.lt_or_ge value 2147483648 with small | large
  · rw [toInt_of_lt (by omega) (by omega), writeInt4_of_nonneg (by omega), ofBigEndian_four]
    have a := char (value / 16777216)
    have b := char (value % 16777216 / 65536)
    have c := char (value % 16777216 % 65536 / 256)
    have d := char (value % 16777216 % 65536 % 256)
    omega
  · have negative : toInt value = -(4294967296 - value : Int) := by
      unfold toInt
      omega
    rw [negative, writeInt4_neg (by omega), ofBigEndian_four]
    generalize magnitude : (4294967296 - value : Int) = m
    have a := char (-(m / 16777216))
    have b := char (-(m % 16777216 / 65536))
    have c := char (-(m % 16777216 % 65536 / 256))
    have d := char (-(m % 16777216 % 65536 % 256))
    omega

end MqttClient.MQTTPacket
