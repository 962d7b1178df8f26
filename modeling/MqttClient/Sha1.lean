import MqttClient.Foundation.Fips180

/-! # `SHA1`

The hash that arrives in pieces: `SHA1_Update` fills a buffer of 64 bytes and processes it when
it is full. The buffer is also an array of 16 words, which the rounds replace one by one while
they go. Words are stored with the lowest byte first.
-/

namespace MqttClient

open Foundation BlockStream

namespace SHA1

/-- The union of `w` and `buffer`. -/
structure Buffer where
  bytes : List UInt8
  length_bytes : bytes.length = 64

theorem length_copy {bytes data : List UInt8} {offset : Nat} (whole : bytes.length = 64)
    (inside : offset + data.length ≤ 64) :
    (bytes.take offset ++ data ++ bytes.drop (offset + data.length)).length = 64 := by
  rw [List.length_append, List.length_append, List.length_take, List.length_drop, whole]
  omega

/-- `memcpy(ctx->buffer + offset, data, n)`. -/
def Buffer.copy (buffer : Buffer) (offset : Nat) (data : List UInt8)
    (inside : offset + data.length ≤ 64) : Buffer :=
  ⟨buffer.bytes.take offset ++ data ++ buffer.bytes.drop (offset + data.length),
    length_copy buffer.length_bytes inside⟩

def stored (word : UInt32) : List UInt8 := (bigEndian 4 word.toNat).reverse

def loaded (bytes : List UInt8) : UInt32 := UInt32.ofNat (ofBigEndian bytes.reverse)

/-- `be32toh` and `htobe32`, which swap the bytes. -/
def swap (word : UInt32) : UInt32 := loaded (bigEndian 4 word.toNat)

def Buffer.words (buffer : Buffer) : List UInt32 :=
  (List.range 16).map fun index => loaded ((buffer.bytes.drop (4 * index)).take 4)

theorem length_stored (word : UInt32) : (stored word).length = 4 := by
  rw [stored, List.length_reverse, length_bigEndian]

theorem word_inside (index : Fin 16) (word : UInt32) :
    4 * index.val + (stored word).length ≤ 64 := by
  have small := index.isLt
  rw [length_stored]
  omega

/-- `ctx->w[index] = word`. -/
def Buffer.setWord (buffer : Buffer) (index : Fin 16) (word : UInt32) : Buffer :=
  buffer.copy (4 * index.val) (stored word) (word_inside index word)

def Buffer.setWords (buffer : Buffer) (w : List UInt32) : Buffer :=
  (List.finRange 16).foldl (fun buffer index => buffer.setWord index (w.getD index 0)) buffer

def rotateLeft32 (a n : UInt32) : UInt32 := a <<< n ||| a >>> (32 - n)

/-- One round of `SHA1_ProcessBlock`: `blks[0]` to `blks[4]` are the fields of `blks`. -/
def processRound (state : List UInt32 × Fips180.Working) (i : Nat) :
    List UInt32 × Fips180.Working :=
  let (w, blks) := state
  let w :=
    if i ≥ 16 then
      w.set (i &&& 0x0f) (rotateLeft32 (w.getD ((i + 13) &&& 0x0f) 0 ^^^
        w.getD ((i + 8) &&& 0x0f) 0 ^^^ w.getD ((i + 2) &&& 0x0f) 0 ^^^ w.getD (i &&& 0x0f) 0) 1)
    else w
  let word := w.getD (i &&& 0x0f) 0
  let tmp :=
    if i < 20 then
      rotateLeft32 blks.a 5 + (blks.b &&& blks.c ||| ~~~blks.b &&& blks.d) + blks.e + word +
        0x5a827999
    else if i < 40 then
      rotateLeft32 blks.a 5 + (blks.b ^^^ blks.c ^^^ blks.d) + blks.e + word + 0x6ed9eba1
    else if i < 60 then
      rotateLeft32 blks.a 5 + (blks.b &&& blks.c ||| blks.b &&& blks.d ||| blks.c &&& blks.d) +
        blks.e + word + 0x8f1bbcdc
    else rotateLeft32 blks.a 5 + (blks.b ^^^ blks.c ^^^ blks.d) + blks.e + word + 0xca62c1d6
  (w, ⟨tmp, blks.a, rotateLeft32 blks.b 30, blks.c, blks.d⟩)

/-- `SHA1_ProcessBlock`: the hash value, and what the rounds leave in the union. -/
def processBlock (h : Fips180.Working) (buffer : Buffer) : Fips180.Working × Buffer :=
  let (w, blks) := (List.range 80).foldl processRound (buffer.words.map swap, h)
  (⟨h.a + blks.a, h.b + blks.b, h.c + blks.c, h.d + blks.d, h.e + blks.e⟩, buffer.setWords w)

/-- `SHA_CTX` between two calls. -/
structure Context where
  h : Fips180.Working
  buffer : Buffer
  size : Nat
  total : UInt32
  size_lt : size < 64

/-- `SHA1_Init`, which leaves in the union what has been there. -/
def init (buffer : Buffer) : Context where
  h := ⟨0x67452301, 0xefcdab89, 0x98badcfe, 0x10325476, 0xc3d2e1f0⟩
  buffer := buffer
  size := 0
  total := 0
  size_lt := Nat.zero_lt_succ 63

/-- The number of bytes that one round of `SHA1_Update` takes. -/
def taken (ctx : Context) (data : List UInt8) : Nat := min (64 - ctx.size) data.length

theorem size_add_taken_le (ctx : Context) (data : List UInt8) : ctx.size + taken ctx data ≤ 64 := by
  have space := ctx.size_lt
  rw [taken]
  omega

theorem length_take_taken (ctx : Context) (data : List UInt8) :
    (data.take (taken ctx data)).length = taken ctx data :=
  List.length_take_of_le (Nat.min_le_right ..)

theorem taken_inside (ctx : Context) (data : List UInt8) :
    ctx.size + (data.take (taken ctx data)).length ≤ 64 := by
  rw [length_take_taken]
  exact size_add_taken_le ctx data

theorem taken_pos (ctx : Context) {data : List UInt8} (more : data.length ≠ 0) :
    0 < taken ctx data := by
  have space := ctx.size_lt
  rw [taken]
  omega

/-- One round of `SHA1_Update`. -/
def updateRound (ctx : Context) (data : List UInt8) : Context :=
  let buffer := ctx.buffer.copy ctx.size (data.take (taken ctx data)) (taken_inside ctx data)
  let total := ctx.total + UInt32.ofNat (taken ctx data)
  if full : ctx.size + taken ctx data = 64 then
    let (h, buffer) := processBlock ctx.h buffer
    ⟨h, buffer, 0, total, Nat.zero_lt_succ 63⟩
  else
    ⟨ctx.h, buffer, ctx.size + taken ctx data, total,
      Nat.lt_of_le_of_ne (size_add_taken_le ctx data) full⟩

def update (ctx : Context) (data : List UInt8) : Context :=
  if data.length = 0 then ctx
  else update (updateRound ctx data) (data.drop (taken ctx data))
termination_by data.length
decreasing_by
  rename_i more
  have progress := taken_pos ctx more
  rw [List.length_drop]
  omega

def pad : List UInt8 := 0x80 :: List.replicate 63 0

/-- `SHA1_Final`, which returns the digest. `total` is an `unsigned int` when it is multiplied. -/
def final (ctx : Context) : List UInt8 :=
  let total := (ctx.total * 8).toUInt64
  let padAmount := if ctx.size < 56 then 56 - ctx.size else 64 + 56 - ctx.size
  let ctx := update ctx (pad.take padAmount)
  let buffer := ctx.buffer.setWord 14 (swap (total >>> 32).toUInt32)
  let buffer := buffer.setWord 15 (swap total.toUInt32)
  let (h, _) := processBlock ctx.h buffer
  [h.a, h.b, h.c, h.d, h.e].flatMap fun word => stored (swap word)

/-! ## Words in memory -/

theorem toNat_loaded {bytes : List UInt8} (word : bytes.length = 4) :
    (loaded bytes).toNat = ofBigEndian bytes.reverse := by
  have small := ofBigEndian_lt bytes.reverse
  rw [List.length_reverse, word] at small
  exact UInt32.toNat_ofNat_of_lt' small

theorem bigEndian_four {bytes : List UInt8} (word : bytes.length = 4) :
    bigEndian 4 (ofBigEndian bytes) = bytes := by
  rw [← word]
  exact bigEndian_ofBigEndian bytes

theorem swap_loaded {bytes : List UInt8} (word : bytes.length = 4) :
    swap (loaded bytes) = UInt32.ofNat (ofBigEndian bytes) := by
  have reversed : bytes.reverse.length = 4 := by rw [List.length_reverse, word]
  rw [swap, toNat_loaded word, bigEndian_four reversed, loaded, List.reverse_reverse]

theorem stored_swap (word : UInt32) : stored (swap word) = bigEndian 4 word.toNat := by
  rw [stored, swap, toNat_loaded (length_bigEndian 4 _),
    bigEndian_four (by rw [List.length_reverse, length_bigEndian]), List.reverse_reverse]

theorem swap_words (buffer : Buffer) :
    buffer.words.map swap = Fips180.blockWords buffer.bytes := by
  rw [Buffer.words, Fips180.blockWords, List.map_map]
  apply List.map_congr_left
  intro index member
  have inside := List.mem_range.mp member
  apply swap_loaded
  rw [List.length_take, List.length_drop, buffer.length_bytes]
  omega

/-! ## The rounds -/

theorem choose_eq (x y z : UInt32) : (x &&& y ||| ~~~x &&& z) = Fips180.ch x y z := by
  apply UInt32.toBitVec_inj.mp
  ext index
  simp only [Fips180.ch, UInt32.toBitVec_or, UInt32.toBitVec_and, UInt32.toBitVec_not,
    UInt32.toBitVec_xor, BitVec.getElem_or, BitVec.getElem_and, BitVec.getElem_not,
    BitVec.getElem_xor]
  cases x.toBitVec[index] <;> simp

theorem majority_eq (x y z : UInt32) :
    (x &&& y ||| x &&& z ||| y &&& z) = Fips180.maj x y z := by
  apply UInt32.toBitVec_inj.mp
  ext index
  simp only [Fips180.maj, UInt32.toBitVec_or, UInt32.toBitVec_and, UInt32.toBitVec_xor,
    BitVec.getElem_or, BitVec.getElem_and, BitVec.getElem_xor]
  cases x.toBitVec[index] <;> cases y.toBitVec[index] <;> simp

section Rounds

variable {words w : List UInt32} {i : Nat} {blks : Fips180.Working}

/-- Before a round, `w` holds the words of the schedule for the 16 rounds that it still needs,
each at the place of its round. -/
structure Rolls (words : List UInt32) (i : Nat) (w : List UInt32) : Prop where
  length : w.length = 16
  holds : ∀ t < max i 16, i ≤ t + 16 → w.getD (t % 16) 0 = Fips180.schedule words t

theorem and_fifteen (index : Nat) : index &&& 0x0f = index % 16 :=
  Nat.and_two_pow_sub_one_eq_mod index 4

theorem Rolls.start (block : words.length = 16) : Rolls words 0 words where
  length := block
  holds t inside _ := by
    have first : t < 16 := inside
    rw [Nat.mod_eq_of_lt first, Fips180.schedule_of_lt block first]

theorem processRound_fst (later : i ≥ 16) : (processRound (w, blks) i).1 =
    w.set (i &&& 0x0f) (rotateLeft32 (w.getD ((i + 13) &&& 0x0f) 0 ^^^
      w.getD ((i + 8) &&& 0x0f) 0 ^^^ w.getD ((i + 2) &&& 0x0f) 0 ^^^ w.getD (i &&& 0x0f) 0) 1) :=
  if_pos later

theorem Rolls.next (rolls : Rolls words i w) (blks : Fips180.Working) (block : words.length = 16)
    (inside : i < 80) : Rolls words (i + 1) (processRound (w, blks) i).1 := by
  by_cases later : i ≥ 16
  · have replaced : (processRound (w, blks) i).1 =
        w.set (i % 16) (Fips180.schedule words i) := by
      rcases Nat.exists_eq_add_of_le' later with ⟨t, rfl⟩
      have read (ahead : Nat) (fits : ahead < 16) :
          w.getD ((t + 16 + ahead) &&& 0x0f) 0 = Fips180.schedule words (t + ahead) := by
        have place : (t + 16 + ahead) % 16 = (t + ahead) % 16 := by omega
        rw [and_fifteen, place]
        exact rolls.holds (t + ahead) (by omega) (by omega)
      rw [processRound_fst later, read 13 (by decide), read 8 (by decide), read 2 (by decide),
        and_fifteen, Fips180.schedule_add block (by omega)]
      have oldest := rolls.holds t (by omega) (by omega)
      have place : (t + 16) % 16 = t % 16 := by omega
      rw [place, oldest]
      rfl
    rw [replaced]
    refine ⟨by rw [List.length_set, rolls.length], ?_⟩
    intro t before near
    rw [List.getD_eq_getElem?_getD]
    by_cases same : t = i
    · rw [same, List.getElem?_set_self (by rw [rolls.length]; omega), Option.getD_some]
    · rw [List.getElem?_set_ne (by omega), ← List.getD_eq_getElem?_getD]
      exact rolls.holds t (by omega) (by omega)
  · have kept : (processRound (w, blks) i).1 = w := if_neg later
    rw [kept]
    refine ⟨rolls.length, ?_⟩
    intro t before _
    exact rolls.holds t (by omega) (by omega)

theorem processRound_snd (w : List UInt32) (blks : Fips180.Working) (i : Nat) :
    (processRound (w, blks) i).2 =
      Fips180.round (fun _ => (processRound (w, blks) i).1.getD (i &&& 0x0f) 0) blks i := by
  generalize word : (processRound (w, blks) i).1.getD (i &&& 0x0f) 0 = value
  have order (most constant : UInt32) : most + value + constant = most + constant + value := by
    rw [UInt32.add_assoc, UInt32.add_comm value, UInt32.add_assoc]
  rw [processRound] at word ⊢
  dsimp only at word ⊢
  rw [word, Fips180.round, Fips180.f, Fips180.k]
  by_cases first : i < 20
  · simp only [if_pos first, choose_eq, order]
    rfl
  · by_cases second : i < 40
    · simp only [if_neg first, if_pos second, order]
      rfl
    · by_cases third : i < 60
      · simp only [if_neg first, if_neg second, if_pos third, majority_eq, order]
        rfl
      · simp only [if_neg first, if_neg second, if_neg third, order]
        rfl

theorem rounds (block : words.length = 16) (blks : Fips180.Working) {n : Nat} (most : n ≤ 80) :
    Rolls words n ((List.range n).foldl processRound (words, blks)).1 ∧
      ((List.range n).foldl processRound (words, blks)).2 =
        (List.range n).foldl (Fips180.round (Fips180.schedule words)) blks := by
  induction n with
  | zero => exact ⟨Rolls.start block, rfl⟩
  | succ i induction =>
      cases induction (Nat.le_of_succ_le most) with
      | intro rolls same =>
          have next := rolls.next ((List.range i).foldl processRound (words, blks)).2 block most
          have own : (processRound ((List.range i).foldl processRound (words, blks)) i).1.getD
              (i &&& 0x0f) 0 = Fips180.schedule words i := by
            rw [and_fifteen]
            exact next.holds i (by omega) (by omega)
          rw [List.range_succ, List.foldl_append, List.foldl_append]
          refine ⟨next, ?_⟩
          rw [List.foldl_cons, List.foldl_nil, List.foldl_cons, List.foldl_nil, ← same]
          refine (processRound_snd _ _ i).trans ?_
          rw [Fips180.round, Fips180.round, own]

end Rounds

theorem processBlock_fst (h : Fips180.Working) (buffer : Buffer) :
    (processBlock h buffer).1 = Fips180.compress h buffer.bytes := by
  have block : (Fips180.blockWords buffer.bytes).length = 16 := by
    rw [Fips180.blockWords, List.length_map, List.length_range]
  have same := (rounds block h (Nat.le_refl 80)).2
  rw [Fips180.compress, ← same, ← swap_words]
  rfl

/-! ## The pieces -/

structure Holds (ctx : Context) (message : List UInt8) : Prop where
  h : ctx.h = absorb 64 Fips180.compress Fips180.initial message
  size : ctx.size = message.length % 64
  bytes : ctx.buffer.bytes.take ctx.size = remainder 64 message
  total : ctx.total = UInt32.ofNat message.length

theorem Holds.init (buffer : Buffer) : Holds (init buffer) [] where
  h := (absorb_of_short (Nat.zero_lt_succ 63)).symm
  size := rfl
  bytes := rfl
  total := rfl

theorem take_copy (buffer : Buffer) {offset : Nat} {data : List UInt8}
    (inside : offset + data.length ≤ 64) :
    (buffer.copy offset data inside).bytes.take (offset + data.length) =
      buffer.bytes.take offset ++ data := by
  apply List.take_left'
  rw [List.length_append, List.length_take, buffer.length_bytes]
  omega

section Pieces

variable {ctx : Context} {message : List UInt8}

theorem Holds.updateRound (holds : Holds ctx message) (data : List UInt8) :
    Holds (updateRound ctx data) (message ++ data.take (taken ctx data)) := by
  have length := length_take_taken ctx data
  have most := size_add_taken_le ctx data
  have kept := take_copy ctx.buffer (taken_inside ctx data)
  rw [length, holds.bytes] at kept
  have total : ctx.total + UInt32.ofNat (taken ctx data) =
      UInt32.ofNat (message ++ data.take (taken ctx data)).length := by
    rw [holds.total, List.length_append, length, UInt32.ofNat_add]
  rw [SHA1.updateRound]
  by_cases full : ctx.size + taken ctx data = 64
  · have completes : message.length % 64 + (data.take (taken ctx data)).length = 64 := by
      rw [length, ← holds.size, full]
    have whole := (ctx.buffer.copy ctx.size (data.take (taken ctx data))
      (taken_inside ctx data)).length_bytes
    rw [full, List.take_of_length_le (Nat.le_of_eq whole)] at kept
    have hash := processBlock_fst ctx.h (ctx.buffer.copy ctx.size (data.take (taken ctx data))
      (taken_inside ctx data))
    rw [dif_pos full]
    generalize processBlock ctx.h _ = processed at hash ⊢
    constructor
    · rw [absorb_append_full (by decide) completes, ← kept, ← holds.h]
      exact hash
    · rw [List.length_append, ← Nat.mod_add_mod, completes]
    · rw [remainder_append_full completes, List.take_zero]
    · exact total
  · have short : message.length % 64 + (data.take (taken ctx data)).length < 64 := by
      rw [length, ← holds.size]
      exact Nat.lt_of_le_of_ne most full
    rw [dif_neg full]
    constructor
    · rw [absorb_append_short short]
      exact holds.h
    · rw [List.length_append, ← Nat.mod_add_mod, Nat.mod_eq_of_lt short, length, ← holds.size]
    · rw [remainder_append_short short]
      exact kept
    · exact total

theorem Holds.update (holds : Holds ctx message) (data : List UInt8) :
    Holds (update ctx data) (message ++ data) := by
  induction same : data.length using Nat.strongRecOn generalizing ctx message data with
  | _ length induction =>
      rw [SHA1.update]
      by_cases none : data.length = 0
      · rw [if_pos none, List.eq_nil_of_length_eq_zero none, List.append_nil]
        exact holds
      · have progress := taken_pos ctx none
        have shorter : (data.drop (taken ctx data)).length < length := by
          rw [List.length_drop]
          omega
        have rest := induction _ shorter (holds.updateRound data) (data.drop (taken ctx data)) rfl
        rw [List.append_assoc, List.take_append_drop] at rest
        rw [if_neg none]
        exact rest

theorem Holds.pieces (holds : Holds ctx message) (pieces : List (List UInt8)) :
    Holds (pieces.foldl SHA1.update ctx) (message ++ pieces.flatten) := by
  induction pieces generalizing ctx message with
  | nil =>
      rw [List.flatten_nil, List.append_nil]
      exact holds
  | cons data pieces induction =>
      have rest := induction (holds.update data)
      rw [List.append_assoc] at rest
      rw [List.flatten_cons]
      exact rest

end Pieces

/-! ## The end -/

theorem setWord_setWord (buffer : Buffer) (high low : UInt32) :
    ((buffer.setWord 14 high).setWord 15 low).bytes =
      buffer.bytes.take 56 ++ (stored high ++ stored low) := by
  have first := take_copy buffer (word_inside 14 high)
  have second := take_copy (buffer.setWord 14 high) (word_inside 15 low)
  rw [length_stored] at first second
  have whole := ((buffer.setWord 14 high).setWord 15 low).length_bytes
  have all : ((buffer.setWord 14 high).setWord 15 low).bytes =
      (buffer.setWord 14 high).bytes.take 60 ++ stored low := by
    rw [← List.take_of_length_le (Nat.le_of_eq whole)]
    exact second
  have most : (buffer.setWord 14 high).bytes.take 60 = buffer.bytes.take 56 ++ stored high := first
  rw [all, most, List.append_assoc]

theorem stored_total {length : Nat} (short : length < 2 ^ 29) :
    stored (swap ((UInt32.ofNat length * 8).toUInt64 >>> 32).toUInt32) ++
      stored (swap (UInt32.ofNat length * 8).toUInt64.toUInt32) = bigEndian 8 (8 * length) := by
  have bits : (UInt32.ofNat length * 8).toNat = 8 * length := by
    have small : 2 ^ 29 < UInt32.size := by decide
    rw [UInt32.toNat_mul, UInt32.toNat_ofNat_of_lt' (Nat.lt_trans short small)]
    have eight : (8 : UInt32).toNat = 8 := rfl
    rw [eight]
    omega
  have high : ((UInt32.ofNat length * 8).toUInt64 >>> 32).toUInt32.toNat =
      8 * length / 256 ^ 4 := by
    rw [UInt64.toNat_toUInt32, UInt64.toNat_shiftRight, UInt32.toNat_toUInt64, bits]
    have amount : (32 : UInt64).toNat % 64 = 32 := rfl
    rw [amount, Nat.shiftRight_eq_div_pow]
    omega
  have low : (UInt32.ofNat length * 8).toUInt64.toUInt32.toNat = 8 * length := by
    rw [UInt64.toNat_toUInt32, UInt32.toNat_toUInt64, bits]
    omega
  rw [stored_swap, stored_swap, high, low]
  exact (bigEndian_append 4 4 (8 * length)).symm

theorem processBlock_last {ctx : Context} {message more : List UInt8} (holds : Holds ctx message)
    (completes : message.length % 64 + more.length = 64) {buffer : Buffer}
    (bytes : buffer.bytes = ctx.buffer.bytes.take ctx.size ++ more) :
    (processBlock ctx.h buffer).1 =
      absorb 64 Fips180.compress Fips180.initial (message ++ more) := by
  rw [processBlock_fst, bytes, holds.bytes, holds.h, absorb_append_full (by decide) completes]

theorem take_pad (length : Nat) :
    pad.take (if length % 64 < 56 then 56 - length % 64 else 64 + 56 - length % 64) =
      0x80 :: List.replicate ((119 - length % 64) % 64) 0 := by
  have amount : (if length % 64 < 56 then 56 - length % 64 else 64 + 56 - length % 64) =
      (119 - length % 64) % 64 + 1 := by
    split <;> omega
  have most : min ((119 - length % 64) % 64) 63 = (119 - length % 64) % 64 := by omega
  rw [amount, pad, List.take_succ_cons, List.take_replicate, most]

theorem final_eq {ctx : Context} {message : List UInt8} (holds : Holds ctx message)
    (short : message.length < 2 ^ 29) : final ctx = Fips180.digest message := by
  have padded := holds.update (0x80 :: List.replicate ((119 - message.length % 64) % 64) 0)
  have last : (message ++ 0x80 :: List.replicate ((119 - message.length % 64) % 64) 0).length %
      64 = 56 := by
    rw [List.length_append, List.length_cons, List.length_replicate]
    omega
  have completes : (message ++ 0x80 :: List.replicate ((119 - message.length % 64) % 64) 0).length %
      64 + (bigEndian 8 (8 * message.length)).length = 64 := by
    rw [last, length_bigEndian]
  rw [Fips180.digest, Fips180.padding, final, holds.size, take_pad, holds.total]
  generalize filled : Buffer.setWord _ 15 _ = buffer
  have bytes := setWord_setWord
    (update ctx (0x80 :: List.replicate ((119 - message.length % 64) % 64) 0)).buffer
    (swap ((UInt32.ofNat message.length * 8).toUInt64 >>> 32).toUInt32)
    (swap (UInt32.ofNat message.length * 8).toUInt64.toUInt32)
  rw [filled, stored_total short, ← last, ← padded.size] at bytes
  have hash := processBlock_last padded completes bytes
  rw [List.append_assoc] at hash
  generalize processBlock _ buffer = processed at hash ⊢
  cases processed with
  | mk h buffer =>
      simp only [Fips180.Working.bytes, stored_swap, ← hash]

/-- The digest does not depend on the pieces. -/
theorem final_pieces (buffer : Buffer) (pieces : List (List UInt8))
    (short : pieces.flatten.length < 2 ^ 29) :
    final (pieces.foldl update (init buffer)) = Fips180.digest pieces.flatten :=
  final_eq ((Holds.init buffer).pieces pieces) short

theorem final_abc :
    final ([[0x61], [], [0x62, 0x63]].foldl update (init ⟨List.replicate 64 0, rfl⟩)) =
      Fips180.digest [0x61, 0x62, 0x63] :=
  final_pieces ⟨List.replicate 64 0, rfl⟩ [[0x61], [], [0x62, 0x63]] (by decide)

end SHA1

end MqttClient
