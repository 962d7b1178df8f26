import MqttClient.WebSocket.BuiltFrame
import MqttClient.Foundation.WebSocketParse

/-! # `WebSocket`: layout and restoration

Buffers that come without a mask are sent as one binary frame, and the caller gets them back
as they were.
-/

namespace MqttClient.WebSocket

open Foundation

section Buffers

variable {stream : Nat → UInt8} {count i idx : Nat} {buffers : List (List UInt8)}

theorem originalBuffers_new : originalBuffers true stream count i idx buffers = buffers := by
  induction buffers generalizing i idx with
  | nil => rfl
  | cons buffer buffers induction =>
      rw [originalBuffers, if_neg (fun both => Bool.noConfusion both.1), induction]

theorem maskBuffers_maskBuffers :
    maskBuffers true stream count i idx (maskBuffers true stream count i idx buffers) =
      buffers := by
  induction buffers generalizing i idx with
  | nil => rfl
  | cons buffer buffers induction =>
      rw [maskBuffers, if_neg (fun both => Bool.noConfusion both.1), maskBuffers,
        if_neg (fun both => Bool.noConfusion both.1), length_mask, induction, mask_mask]

theorem maskBuffers_zero :
    maskBuffers true (fun _ => 0) count i idx buffers = buffers := by
  induction buffers generalizing i idx with
  | nil => rfl
  | cons buffer buffers induction =>
      rw [maskBuffers, if_neg (fun both => Bool.noConfusion both.1), induction, mask_zero]

end Buffers

def withoutMask (bufs : PacketBuffers) : MaskedBuffers := { bufs with mask := fun _ => 0 }

theorem eq_withoutMask {masked : MaskedBuffers} {bufs : PacketBuffers}
    (buffers : masked.buffers = bufs.buffers) (mask : masked.mask = fun _ => 0) :
    masked = withoutMask bufs := by
  obtain ⟨⟨original, bounded⟩, key⟩ := masked
  obtain ⟨others, bounded'⟩ := bufs
  cases buffers
  cases mask
  rfl

section Putdatas

variable {rand : Nat → Nat} {buf0 : List UInt8} {bufs : PacketBuffers}

/-- The room for the header and the first buffer together are an `int`. -/
def FitsInt (buf0 : List UInt8) (bufs : PacketBuffers) : Prop :=
  calculateFrameHeaderSize true (dataLength buf0 (withoutMask bufs)) + buf0.length < 2 ^ 31

theorem calculateFrameHeaderSize_le (dataLen : Nat) :
    calculateFrameHeaderSize true dataLen ≤ 14 := by
  unfold calculateFrameHeaderSize
  split_ifs <;> decide

theorem maskedLength_eq (fits : FitsInt buf0 bufs) :
    maskedLength buf0 (withoutMask bufs) = buf0.length := by
  rw [FitsInt] at fits
  rw [maskedLength, toInt_of_lt (by omega) (by omega), toInt_of_lt (by omega) (by omega)]
  omega

theorem maskedLength_short (large : ¬ FitsInt buf0 bufs) :
    maskedLength buf0 (withoutMask bufs) + 4 ≤ buf0.length := by
  have small := calculateFrameHeaderSize_le (dataLength buf0 (withoutMask bufs))
  rw [FitsInt] at large
  rw [maskedLength, toInt, toInt]
  omega

/-- The key with nothing but zeros. -/
def ZeroKey (rand : Nat → Nat) : Prop := ∀ i : Fin 4, UInt8.ofNat (rand i % 255) = 0

theorem keyStream_eq_zero_of_four {key : Fin 4 → UInt8} {start : Nat}
    (zero : ∀ i < 4, WebSocketFrame.keyStream key (start + i) = 0) (place : Fin 4) :
    key place = 0 := by
  have inside : (4 - start % 4 + place) % 4 < 4 := Nat.mod_lt _ (by decide)
  have here := zero _ inside
  have position : (start + (4 - start % 4 + place) % 4) % 4 = place := by omega
  rw [WebSocketFrame.keyStream] at here
  simpa only [position, Fin.eta] using here

theorem keyStream_zero (zero : ZeroKey rand) :
    WebSocketFrame.keyStream (maskingKey rand (withoutMask bufs)) = fun _ => 0 := by
  funext index
  exact zero _

/-- What `WebSocket_putdatas` hands to the socket is one final masked binary frame of the
buffers, and the caller gets the buffers back unless the write is interrupted. -/
structure FramedAndRestored (rand : Nat → Nat) (buf0 : List UInt8) (bufs : PacketBuffers) :
    Prop where
  framed : ∃ wsdata, buildFrame rand ⟨opBinary, opBinary_lt⟩ buf0 (withoutMask bufs) = some wsdata ∧
    (∀ socket state, (putdatas socket rand buf0 (withoutMask bufs) state).map (fun result =>
      (result.1, result.2.2)) =
        some (Socket.putdatas socket wsdata.1 wsdata.2.toPacketBuffers state)) ∧
    ∃ frame, WebSocketFrame.parse (wsdata.1 ++ wsdata.2.buffers.flatten) = some (frame, []) ∧
      frame.fin = true ∧ (frame.opcode : Nat) = opBinary ∧ frame.key.isSome ∧
      frame.payload = buf0 ++ bufs.buffers.flatten ∧
      frame.header.length =
        calculateFrameHeaderSize true (dataLength buf0 (withoutMask bufs))
  restored : ∀ socket state rc after state',
    putdatas socket rand buf0 (withoutMask bufs) state = some (rc, after, state') →
      rc ≠ tcpsocketInterrupted → after = withoutMask bufs

theorem original_withoutMask :
    original rand buf0 (withoutMask bufs) = buf0 ++ bufs.buffers.flatten := by
  have unmasked : decide ((withoutMask bufs).mask 0 = 0) = true := rfl
  rw [original, unmasked, originalBuffers_new]
  rfl

theorem mask_eq_self_of_zero (zero : ZeroKey rand) (index : Nat) (bytes : List UInt8) :
    mask (WebSocketFrame.keyStream (maskingKey rand (withoutMask bufs))) index bytes = bytes := by
  rw [keyStream_zero zero, mask_zero]

theorem payload_sentFrame_split (opcode : Fin 16) :
    let stream := WebSocketFrame.keyStream (maskingKey rand (withoutMask bufs))
    let idx := maskedLength buf0 (withoutMask bufs)
    (sentFrame rand opcode buf0 (withoutMask bufs)).payload =
      buf0.take idx ++ (mask stream idx (buf0.drop idx) ++
        mask stream buf0.length (mask stream idx bufs.buffers.flatten)) := by
  intro stream idx
  have inside : idx ≤ buf0.length := maskedLength_le
  have front : (buf0.take idx).length = idx := by rw [List.length_take, min_eq_left inside]
  have back : idx + (buf0.drop idx).length = buf0.length := by
    rw [List.length_drop, Nat.add_sub_cancel' inside]
  have unmasked : decide ((withoutMask bufs).mask 0 = 0) = true := rfl
  rw [sentFrame, sentPayload, unmasked]
  simp only [mask_append, length_mask, Nat.zero_add, mask_mask, flatten_maskBuffers_new]
  change buf0.take idx ++ (mask stream (buf0.take idx).length (buf0.drop idx) ++
    mask stream ((buf0.take idx).length + (buf0.drop idx).length)
      (mask stream idx (withoutMask bufs).buffers.flatten)) = _
  rw [front, back]
  rfl

theorem payload_sentFrame_iff (opcode : Fin 16) :
    (sentFrame rand opcode buf0 (withoutMask bufs)).payload = buf0 ++ bufs.buffers.flatten ↔
      FitsInt buf0 bufs ∨ ZeroKey rand := by
  constructor
  · intro same
    by_cases fits : FitsInt buf0 bufs
    · exact .inl fits
    · have short := maskedLength_short fits
      have parts := @payload_sentFrame_split rand buf0 bufs opcode
      rw [same] at parts
      have whole (rest : List UInt8) : buf0 ++ rest =
          buf0.take (maskedLength buf0 (withoutMask bufs)) ++
            (buf0.drop (maskedLength buf0 (withoutMask bufs)) ++ rest) := by
        rw [← List.append_assoc, List.take_append_drop]
      simp only at parts
      rw [whole, List.append_cancel_left_eq] at parts
      have unchanged := (List.append_inj_left parts length_mask.symm).symm
      rw [mask_eq_self_iff, List.length_drop] at unchanged
      exact .inr (keyStream_eq_zero_of_four fun i inside => unchanged i (by omega))
  · rintro (fits | zero)
    · rw [payload_sentFrame (maskedLength_eq fits), original_withoutMask]
    · have unmasked := @mask_eq_self_of_zero rand bufs zero
      rw [payload_sentFrame_split]
      simp only [unmasked]
      rw [← List.append_assoc, List.take_append_drop]

theorem unmaskData_withoutMask {wsdata : List UInt8 × MaskedBuffers} {opcode : Fin 16}
    (built : buildFrame rand opcode buf0 (withoutMask bufs) = some wsdata)
    (reached : FitsInt buf0 bufs ∨ ZeroKey rand) :
    unmaskData buf0.length wsdata.2 = withoutMask bufs := by
  obtain ⟨-, made⟩ := Option.ite_none_right_eq_some.mp built
  have unmasked : decide ((withoutMask bufs).mask 0 = 0) = true := rfl
  have buffers : (unmaskData buf0.length wsdata.2).buffers = bufs.buffers := by
    rw [← Option.some.inj made, unmaskData]
    simp only [unmasked, length_maskBuffers]
    rcases reached with fits | zero
    · rw [maskedLength_eq fits]
      exact maskBuffers_maskBuffers
    · rw [keyStream_zero zero, maskBuffers_zero, maskBuffers_zero]
      rfl
  exact eq_withoutMask buffers rfl

theorem putdatas_of_built {wsdata : List UInt8 × MaskedBuffers} {masked : MaskedBuffers}
    (built : buildFrame rand ⟨opBinary, opBinary_lt⟩ buf0 masked = some wsdata) (socket : SOCKET)
    (state : SocketWrites) {sent : Int × SocketWrites}
    (handed : Socket.putdatas socket wsdata.1 wsdata.2.toPacketBuffers state = sent) :
    putdatas socket rand buf0 masked state =
      some (sent.1, if sent.1 ≠ tcpsocketInterrupted then unmaskData buf0.length wsdata.2
        else wsdata.2, sent.2) := by
  rw [← handed]
  exact congrArg _ built

theorem small_of_framedAndRestored (holds : FramedAndRestored rand buf0 bufs) :
    dataLength buf0 (withoutMask bufs) < 2 ^ 63 ∧ (FitsInt buf0 bufs ∨ ZeroKey rand) := by
  obtain ⟨⟨wsdata, built, -, frame, parsed, -, -, -, payload, -⟩, -⟩ := holds
  obtain ⟨fits, encoded⟩ := buildFrame_encode built
  rw [List.flatten_cons] at encoded
  have length := length_sentFrame rand ⟨opBinary, opBinary_lt⟩ buf0 (withoutMask bufs)
  rw [encoded, ← List.append_nil (WebSocketFrame.encode _)] at parsed
  by_cases small : dataLength buf0 (withoutMask bufs) < 2 ^ 63
  · rw [WebSocketFrame.parse_encode (by rw [length]; exact small)] at parsed
    have same := (Prod.mk.inj (Option.some.inj parsed)).1
    rw [← same] at payload
    exact ⟨small, (payload_sentFrame_iff _).mp payload⟩
  · rw [WebSocketFrame.parse_huge (by rw [length]; omega) (by rw [length]; omega)] at parsed
    exact absurd parsed nofun

theorem framedAndRestored_of_small (small : dataLength buf0 (withoutMask bufs) < 2 ^ 63)
    (reached : FitsInt buf0 bufs ∨ ZeroKey rand) : FramedAndRestored rand buf0 bufs := by
  have fits : dataLength buf0 (withoutMask bufs) < 0xFFFFFFFFFFFFFFFF := by omega
  obtain ⟨wsdata, built⟩ : ∃ wsdata,
      buildFrame rand ⟨opBinary, opBinary_lt⟩ buf0 (withoutMask bufs) = some wsdata :=
    ⟨_, if_pos fits⟩
  have length := length_sentFrame rand ⟨opBinary, opBinary_lt⟩ buf0 (withoutMask bufs)
  have encoded := (buildFrame_encode built).2
  rw [List.flatten_cons] at encoded
  refine ⟨⟨wsdata, built, ?_, sentFrame rand ⟨opBinary, opBinary_lt⟩ buf0 (withoutMask bufs), ?_,
    rfl, rfl, rfl, ?_, ?_⟩, ?_⟩
  · intro socket state
    rw [putdatas_of_built built socket state rfl, Option.map_some]
  · rw [encoded, ← List.append_nil (WebSocketFrame.encode _)]
    exact WebSocketFrame.parse_encode (by rw [length]; exact small)
  · exact (payload_sentFrame_iff _).mpr reached
  · rw [sentFrame, ← frameHeader_eq, length_mask, length_sentPayload]
    exact length_frameHeader _ _ fits
  · intro socket state rc after state' ran kept
    rw [putdatas_of_built built socket state rfl, Option.some.injEq, Prod.mk.injEq,
      Prod.mk.injEq] at ran
    rw [← ran.1] at kept
    rw [← ran.2.1, if_pos kept]
    exact unmaskData_withoutMask built reached

/-- Layout and restoration hold exactly if the length of the payload leaves its highest bit
zero, and the header and the first buffer fit into an `int` or the key changes nothing. -/
theorem framedAndRestored_iff (rand : Nat → Nat) (buf0 : List UInt8) (bufs : PacketBuffers) :
    FramedAndRestored rand buf0 bufs ↔
      dataLength buf0 (withoutMask bufs) < 2 ^ 63 ∧ (FitsInt buf0 bufs ∨ ZeroKey rand) :=
  ⟨small_of_framedAndRestored, fun both => framedAndRestored_of_small both.1 both.2⟩

/-- Of a first buffer of `2 ^ 31` bytes none is masked. -/
theorem framedAndRestored_fails :
    ¬ ∀ rand buf0 bufs, FramedAndRestored rand buf0 bufs := by
  intro all
  rcases (small_of_framedAndRestored
    (all (fun _ => 1) (List.replicate (2 ^ 31) 0) ⟨[], Nat.zero_le 4⟩)).2 with fits | zero
  · rw [FitsInt, List.length_replicate] at fits
    exact absurd fits (Nat.not_lt.mpr (Nat.le_add_left _ _))
  · exact absurd (zero 0) (by decide)

end Putdatas

end MqttClient.WebSocket
