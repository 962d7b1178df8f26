import Mathlib.Data.List.GetD
import MqttClient.Foundation.BlockStream
import MqttClient.Foundation.NetworkOrder

/-! # SHA-1

The secure hash algorithm of FIPS 180 for messages of whole bytes. A message is padded to blocks
of 16 words; each block is expanded to a schedule of 80 words, one for each round.
-/

namespace MqttClient.Foundation.Fips180

open BlockStream

structure Working where
  a : UInt32
  b : UInt32
  c : UInt32
  d : UInt32
  e : UInt32
  deriving DecidableEq

def initial : Working := ⟨0x67452301, 0xefcdab89, 0x98badcfe, 0x10325476, 0xc3d2e1f0⟩

/-- Section 3.2: the rotation by `count` bits to the left. -/
def rotl (count : UInt32) (word : UInt32) : UInt32 :=
  word <<< count ||| word >>> (32 - count)

def ch (x y z : UInt32) : UInt32 := x &&& y ^^^ ~~~x &&& z

def parity (x y z : UInt32) : UInt32 := x ^^^ y ^^^ z

def maj (x y z : UInt32) : UInt32 := x &&& y ^^^ x &&& z ^^^ y &&& z

def f (round : Nat) : UInt32 → UInt32 → UInt32 → UInt32 :=
  if round < 20 then ch else if round < 40 then parity else if round < 60 then maj else parity

def k (round : Nat) : UInt32 :=
  if round < 20 then 0x5a827999
  else if round < 40 then 0x6ed9eba1
  else if round < 60 then 0x8f1bbcdc
  else 0xca62c1d6

def expand (words : List UInt32) : (count : Nat) → List UInt32
  | 0 => words
  | count + 1 =>
      let earlier := expand words count
      earlier ++ [rotl 1 (earlier.getD (count + 13) 0 ^^^ earlier.getD (count + 8) 0 ^^^
        earlier.getD (count + 2) 0 ^^^ earlier.getD count 0)]

def schedule (words : List UInt32) (round : Nat) : UInt32 := (expand words 64).getD round 0

def round (schedule : Nat → UInt32) (working : Working) (t : Nat) : Working where
  a := rotl 5 working.a + f t working.b working.c working.d + working.e + k t + schedule t
  b := working.a
  c := rotl 30 working.b
  d := working.c
  e := working.d

def Working.add (hash working : Working) : Working where
  a := hash.a + working.a
  b := hash.b + working.b
  c := hash.c + working.c
  d := hash.d + working.d
  e := hash.e + working.e

def blockWords (block : List UInt8) : List UInt32 :=
  (List.range 16).map fun index =>
    UInt32.ofNat (ofBigEndian ((block.drop (4 * index)).take 4))

def compress (hash : Working) (block : List UInt8) : Working :=
  hash.add ((List.range 80).foldl (round (schedule (blockWords block))) hash)

def padding (length : Nat) : List UInt8 :=
  0x80 :: List.replicate ((119 - length % 64) % 64) 0 ++ bigEndian 8 (8 * length)

def Working.bytes (hash : Working) : List UInt8 :=
  [hash.a, hash.b, hash.c, hash.d, hash.e].flatMap fun word => bigEndian 4 word.toNat

/-! ## The schedule -/

section Schedule

variable {words : List UInt32} {count more index round : Nat}

@[simp] theorem length_expand (words : List UInt32) (count : Nat) :
    (expand words count).length = words.length + count := by
  induction count with
  | zero => rfl
  | succ count induction =>
      rw [expand, List.length_append, List.length_singleton, induction]
      rfl

theorem getD_expand (inside : index < words.length + count) (more : Nat) :
    (expand words (count + more)).getD index 0 = (expand words count).getD index 0 := by
  induction more with
  | zero => rfl
  | succ more induction =>
      have inFront : index < (expand words (count + more)).length := by
        rw [length_expand]
        omega
      rw [← Nat.add_assoc, expand, List.getD_append _ _ _ _ inFront, induction]

theorem schedule_eq (block : words.length = 16) (inside : round < 16 + count)
    (most : count ≤ 64) : schedule words round = (expand words count).getD round 0 := by
  have kept := getD_expand (by omega : round < words.length + count) (64 - count)
  rw [Nat.add_sub_cancel' most] at kept
  exact kept

theorem schedule_of_lt (block : words.length = 16) (first : round < 16) :
    schedule words round = words.getD round 0 :=
  schedule_eq block (by omega : round < 16 + 0) (Nat.zero_le 64)

theorem schedule_add (block : words.length = 16) (later : round < 64) :
    schedule words (round + 16) = rotl 1 (schedule words (round + 13) ^^^
      schedule words (round + 8) ^^^ schedule words (round + 2) ^^^ schedule words round) := by
  have last : (expand words round).length = round + 16 := by
    rw [length_expand, block, Nat.add_comm]
  rw [schedule_eq block (by omega : round + 16 < 16 + (round + 1)) later,
    schedule_eq block (by omega : round + 13 < 16 + round) (Nat.le_of_lt later),
    schedule_eq block (by omega : round + 8 < 16 + round) (Nat.le_of_lt later),
    schedule_eq block (by omega : round + 2 < 16 + round) (Nat.le_of_lt later),
    schedule_eq block (by omega : round < 16 + round) (Nat.le_of_lt later), expand,
    List.getD_append_right _ _ _ _ (Nat.le_of_eq last), last, Nat.sub_self]
  rfl

end Schedule

def digest (message : List UInt8) : List UInt8 :=
  (absorb 64 compress initial (message ++ padding message.length)).bytes

theorem length_digest (message : List UInt8) : (digest message).length = 20 := by
  simp [digest, Working.bytes]

example : digest [0x61, 0x62, 0x63] =
    [0xa9, 0x99, 0x3e, 0x36, 0x47, 0x06, 0x81, 0x6a, 0xba, 0x3e, 0x25, 0x71, 0x78, 0x50, 0xc2,
      0x6c, 0x9c, 0xd0, 0xd8, 0x9d] := by
  decide +kernel

end MqttClient.Foundation.Fips180
