import MqttClient.WebSocket.Receive

/-! # `WebSocket`: receiving a frame in pieces

However the bytes of a frame arrive, a part of `WebSocket_receiveFrame` either takes them or is
interrupted with all bytes of the frame still in the stream.
-/

namespace MqttClient.WebSocket

open Foundation

/-- Within a frame: of the stream, `consumed` is what this call has read of the frame. The frame
buffer holds less than `limit` bytes, or none ahead. -/
structure Reading (socket : SOCKET) (limit : Nat) (consumed ahead : List UInt8)
    (raw : RawSocket) : Prop where
  held : Held socket (consumed ++ ahead) raw
  index : raw.frameBuffer.index = consumed.length
  bounded : raw.frameBuffer.data.length < limit ∨
    raw.frameBuffer.data.length = consumed.length

/-- How a part that takes the bytes `taken` off the stream can end. -/
inductive Took {α : Type} (socket : SOCKET) (limit : Nat) (consumed taken ahead : List UInt8)
    (good : α → Prop) (raw : RawSocket) : Except Int α × RawSocket → Prop
  | ok {value : α} {after : RawSocket} (meets : good value)
      (reading : Reading socket limit (consumed ++ taken) ahead after)
      (ready : available socket raw ≤ taken.length + available socket after)
      (progress : (after.reads.inbound socket).size ≤ (raw.reads.inbound socket).size) :
      Took socket limit consumed taken ahead good raw (.ok value, after)
  | interrupted {after : RawSocket}
      (held : Held socket (consumed ++ (taken ++ ahead)) after)
      (short : after.frameBuffer.data.length < limit)
      (wait : available socket raw < taken.length ∨ maxRwCount < taken.length)
      (progress : (after.reads.inbound socket).size < (raw.reads.inbound socket).size) :
      Took socket limit consumed taken ahead good raw (.error tcpsocketInterrupted, after)

/-- A part takes the bytes `taken` off the stream, or is interrupted. -/
def Takes {α : Type} (socket : SOCKET) (limit : Nat) (consumed taken ahead : List UInt8)
    (part : Receive α) (good : α → Prop) : Prop :=
  ∀ raw, Reading socket limit consumed (taken ++ ahead) raw →
    ∃ result, part raw = some result ∧ Took socket limit consumed taken ahead good raw result

section Parts

variable {α β : Type} {socket : SOCKET} {limit : Nat} {consumed taken more ahead : List UInt8}
  {raw : RawSocket} {first : Receive α} {next : α → Receive β} {good : α → Prop}
  {finish : β → Prop}

theorem Takes.done {value : α} (meets : good value) :
    Takes socket limit consumed [] ahead (Receive.done value) good := fun raw reading =>
  ⟨_, rfl, .ok meets (by rwa [List.append_nil]) (Nat.le_add_left ..) le_rfl⟩

theorem Takes.andThen (start : Takes socket limit consumed taken (more ++ ahead) first good)
    (continues : ∀ value, good value →
      Takes socket limit (consumed ++ taken) more ahead (next value) finish) :
    Takes socket limit consumed (taken ++ more) ahead (first.andThen next) finish := by
  intro raw reading
  rw [List.append_assoc] at reading
  rcases start raw reading with ⟨result, ran, took⟩
  cases took with
  | interrupted held short wait progress =>
      refine ⟨_, Receive.andThen_error ran, .interrupted ?_ short ?_ progress⟩
      · rwa [List.append_assoc]
      · rw [List.length_append]
        omega
  | @ok value middle meets reading ready progress =>
      rcases continues value meets middle reading with ⟨result, rest, took⟩
      refine ⟨result, (Receive.andThen_ok ran).trans rest, ?_⟩
      cases took with
      | ok meets last enough later =>
          rw [List.append_assoc] at last
          refine .ok meets last ?_ (later.trans progress)
          rw [List.length_append]
          omega
      | interrupted held short wait later =>
          rw [List.append_assoc, ← List.append_assoc taken] at held
          refine .interrupted held short ?_ (later.trans_le progress)
          rw [List.length_append]
          omega

theorem Takes.mono {other : α → Prop}
    (takes : Takes socket limit consumed taken ahead first good)
    (implies : ∀ value, good value → other value) :
    Takes socket limit consumed taken ahead first other := by
  intro raw reading
  rcases takes raw reading with ⟨result, ran, took⟩
  refine ⟨result, ran, ?_⟩
  cases took with
  | ok meets reading ready progress => exact .ok (implies _ meets) reading ready progress
  | interrupted held short wait progress => exact .interrupted held short wait progress

/-! ## Reading raw data within a frame -/

theorem Reading.consumed_le (reading : Reading socket limit consumed ahead raw) :
    consumed.length ≤ raw.frameBuffer.data.length :=
  reading.index ▸ raw.frameBuffer.index_le

theorem Reading.split (reading : Reading socket limit consumed ahead raw) :
    raw.frameBuffer.data = consumed ++ raw.frameBuffer.ahead ∧
      ahead = raw.frameBuffer.ahead ++ (raw.reads.inbound socket).bytes := by
  have whole := reading.held.stream
  have front : raw.frameBuffer.data.take consumed.length = consumed := by
    have taken := congrArg (List.take consumed.length) whole
    rwa [List.take_append_of_le_length reading.consumed_le, List.take_left] at taken
  have data : raw.frameBuffer.data = consumed ++ raw.frameBuffer.ahead := by
    rw [FrameBuffer.ahead, reading.index]
    conv_lhs => rw [← List.take_append_drop consumed.length raw.frameBuffer.data, front]
  refine ⟨data, ?_⟩
  rw [data, List.append_assoc] at whole
  exact (List.append_cancel_left whole).symm

theorem Reading.length_data (reading : Reading socket limit consumed ahead raw) :
    raw.frameBuffer.data.length = consumed.length + raw.frameBuffer.ahead.length := by
  rw [reading.split.1, List.length_append]

theorem Reading.advance (reading : Reading socket limit consumed (taken ++ ahead) raw)
    (enough : taken.length ≤ raw.frameBuffer.ahead.length) :
    raw.frameBuffer.ahead.take taken.length = taken ∧
      Reading socket limit (consumed ++ taken) ahead
        { raw with frameBuffer := raw.frameBuffer.advance taken.length } := by
  have length := reading.length_data
  have front := congrArg (List.take taken.length) reading.split.2
  rw [List.take_left, List.take_append_of_le_length enough] at front
  refine ⟨front.symm, ⟨⟨reading.held.drained, reading.held.healthy, ?_⟩, ?_, ?_⟩⟩
  · rw [List.append_assoc]
    exact reading.held.stream
  · dsimp only
    rw [FrameBuffer.index_advance, reading.index, List.length_append]
    omega
  · dsimp only
    rw [FrameBuffer.data_advance, List.length_append]
    have bounded := reading.bounded
    omega

theorem available_advance {bytes : Nat} :
    available socket raw ≤
      bytes + available socket { raw with frameBuffer := raw.frameBuffer.advance bytes } := by
  simp only [available, FrameBuffer.length_ahead, FrameBuffer.data_advance,
    FrameBuffer.index_advance]
  omega

theorem obtain_takes (absent rcs : Int) (positive : 0 < taken.length)
    (small : taken.length < 4294967296) (fits : consumed.length + taken.length ≤ limit)
    (short : taken.length < 2147483648 ∨ limit ≤ consumed.length + taken.length) :
    Takes socket limit consumed taken ahead (obtain socket taken.length absent rcs)
      fun got => got.1 = taken ∧ got.2 ≠ 0 ∧ got.2 ≠ socketError := by
  intro raw reading
  have length := reading.length_data
  have bounded := reading.bounded
  rcases reading.split with ⟨data, split⟩
  by_cases enough : taken.length ≤ raw.frameBuffer.ahead.length
  · rcases reading.advance enough with ⟨front, advanced⟩
    have code : toInt taken.length = taken.length := toInt_of_lt (by omega) (by omega)
    refine ⟨(.ok (taken, toInt taken.length), _), ?_, .ok ⟨rfl, ?_, ?_⟩ advanced
      available_advance le_rfl⟩
    · rw [obtain, getRawSocketData_kept rcs positive enough, front]
      dsimp only [Option.map_some]
      rw [code, if_neg (by unfold socketError; omega), if_neg (Nat.lt_irrefl _)]
    · rw [code]
      omega
    · rw [code]
      unfold socketError
      omega
  · rcases getRawSocketData_short rcs reading.held (Nat.lt_of_not_le enough) with
      ⟨result, ran, read⟩
    have opened : recvCount (taken.length - raw.frameBuffer.ahead.length) ≠ 0 :=
      recvCount_ne_zero (by omega) (by omega)
    rw [obtain, ran]
    cases read with
    | closed closed => exact absurd closed opened
    | @wouldBlock reads held nothing progress =>
        refine ⟨_, rfl, ?_⟩
        dsimp only
        rw [if_neg (by decide), if_pos (show ([] : List UInt8).length < _ from positive)]
        refine .interrupted held ?_ (.inl ?_) (progress.resolve_left fun empty => ?_)
        · dsimp only
          omega
        · rw [available, nothing]
          omega
        · have total := congrArg List.length split
          rw [empty, List.append_nil, List.length_append] at total
          omega
    | @data received reads held nonempty count ready progress =>
        have some_data := List.length_pos_of_ne_nil nonempty
        have room := recvCount_le (taken.length - raw.frameBuffer.ahead.length)
        have under := Nat.mod_le (taken.length - raw.frameBuffer.ahead.length) 4294967296
        have all : ((raw.frameBuffer.append received).ahead.take taken.length) =
            raw.frameBuffer.ahead ++ received := by
          rw [FrameBuffer.ahead_append, List.take_of_length_le]
          rw [List.length_append]
          omega
        dsimp only [Option.map_some]
        rw [all, if_neg (by unfold socketError; omega), List.length_append]
        by_cases complete : raw.frameBuffer.ahead.length + received.length = taken.length
        · have same : raw.frameBuffer.ahead ++ received = taken := by
            have whole := held.stream
            dsimp only at whole
            rw [FrameBuffer.data_advance, FrameBuffer.data_append, data, List.append_assoc,
              List.append_assoc, ← List.append_assoc _ received] at whole
            have left := congrArg (List.take taken.length) (List.append_cancel_left whole)
            rwa [List.take_left, List.take_left' (by rw [List.length_append]; exact complete)]
              at left
          rw [if_neg (by omega)]
          refine ⟨_, rfl, .ok ⟨same, by dsimp only; omega, by unfold socketError; dsimp only; omega⟩
            ⟨?_, ?_, .inr ?_⟩ ?_ progress.le⟩
          · rwa [List.append_assoc]
          · dsimp only
            rw [FrameBuffer.index_advance, FrameBuffer.index_append, FrameBuffer.data_append,
              reading.index, List.length_append, List.length_append]
            omega
          · dsimp only
            rw [FrameBuffer.data_advance, FrameBuffer.data_append, List.length_append,
              List.length_append]
            omega
          · rw [available, available]
            dsimp only
            omega
        · rw [if_pos (by omega)]
          refine ⟨_, rfl, .interrupted held ?_ ?_ progress⟩
          · dsimp only
            rw [FrameBuffer.data_advance, FrameBuffer.data_append, List.length_append]
            omega
          · rw [available]
            by_contra ready_and_small
            rw [not_or, Nat.not_lt, Nat.not_lt] at ready_and_small
            have whole : recvCount (taken.length - raw.frameBuffer.ahead.length) = _ :=
              recvCount_of_le ((Nat.sub_le ..).trans ready_and_small.2)
            omega

end Parts

/-! ## The header -/

section Header

variable {β : Type} {socket : SOCKET} {limit : Nat} {consumed ahead : List UInt8}
  {frame : WebSocketFrame} {opcode : Nat} {rcs : Int}

def Positive (rcs : Int) : Prop := rcs ≠ 0 ∧ rcs ≠ socketError

theorem Takes.field (absent rcs : Int) {taken : List UInt8}
    {next : List UInt8 × Int → Receive β} {value : Int → β} (positive : 0 < taken.length)
    (small : taken.length ≤ 8)
    (fits : consumed.length + taken.length ≤ limit)
    (makes : ∀ rcs, next (taken, rcs) = Receive.done (value rcs)) :
    Takes socket limit consumed taken ahead ((obtain socket taken.length absent rcs).andThen next)
      fun result => ∃ rcs, Positive rcs ∧ result = value rcs := by
  have done : Takes socket limit consumed (taken ++ []) ahead
      ((obtain socket taken.length absent rcs).andThen next)
      fun result => ∃ rcs, Positive rcs ∧ result = value rcs := by
    refine (obtain_takes absent rcs positive (by omega) fits (.inl (by omega))).andThen ?_
    rintro ⟨got, rcs⟩ ⟨same, code⟩
    dsimp only at same
    subst same
    rw [makes]
    exact .done ⟨rcs, code, rfl⟩
  rwa [List.append_nil] at done

def opcodeOf (frame : WebSocketFrame) (opcode : Nat) : Nat :=
  if (frame.opcode : Nat) ≠ 0 then frame.opcode else opcode

def startOf (frame : WebSocketFrame) (opcode : Nat) : FrameStart :=
  ⟨frame.fin, opcodeOf frame opcode, frame.key.isSome,
    WebSocketFrame.lengthCode frame.payload.length⟩

theorem receiveStart_takes (fits : 2 ≤ limit) (known : KnownOpcode (opcodeOf frame opcode)) :
    Takes socket limit [] [frame.firstByte, frame.secondByte] ahead (receiveStart socket opcode)
      fun result => ∃ rcs, Positive rcs ∧ result = (startOf frame opcode, rcs) := by
  have bound := frame.opcode.isLt
  have code := WebSocketFrame.lengthCode_lt frame.payload.length
  have tmpOpcode : frame.firstByte.toNat % 16 = frame.opcode := by
    rw [WebSocketFrame.toNat_firstByte]
    split <;> omega
  have isFinal : decide (128 ≤ frame.firstByte.toNat) = frame.fin := by
    rw [WebSocketFrame.toNat_firstByte]
    cases frame.fin with
    | false => exact decide_eq_false (by rw [if_neg Bool.false_ne_true]; omega)
    | true => exact decide_eq_true (by rw [if_pos rfl]; omega)
  have payloadCode : frame.secondByte.toNat % 128 =
      WebSocketFrame.lengthCode frame.payload.length := by
    rw [WebSocketFrame.toNat_secondByte]
    split <;> omega
  have hasMask : decide (128 ≤ frame.secondByte.toNat) = frame.key.isSome := by
    rw [WebSocketFrame.toNat_secondByte]
    cases frame.key.isSome with
    | false => exact decide_eq_false (by rw [if_neg Bool.false_ne_true]; omega)
    | true => exact decide_eq_true (by rw [if_pos rfl]; omega)
  refine Takes.field _ _ (Nat.succ_pos 1) (Nat.le_add_left 2 6) fits fun rcs => ?_
  dsimp only
  rw [tmpOpcode, isFinal, hasMask, payloadCode]
  exact if_pos known

theorem receiveLength_takes (small : frame.payload.length < 18446744073709551616)
    (fits : consumed.length +
      (WebSocketFrame.extendedLength frame.payload.length).length ≤ limit)
    (positive : Positive rcs) :
    Takes socket limit consumed (WebSocketFrame.extendedLength frame.payload.length) ahead
      (receiveLength socket (WebSocketFrame.lengthCode frame.payload.length) rcs)
      fun result => ∃ rcs, Positive rcs ∧ result = (frame.payload.length, rcs) := by
  have extended {width : Nat} (wide : 0 < width) (narrow : width ≤ 8)
      (whole : frame.payload.length < 256 ^ width)
      (fits : consumed.length + (bigEndian width frame.payload.length).length ≤ limit) :
      Takes socket limit consumed (bigEndian width frame.payload.length) ahead
        ((obtain socket width socketError rcs).andThen fun got =>
          .done (ofBigEndian got.1, got.2))
        fun result => ∃ rcs, Positive rcs ∧ result = (frame.payload.length, rcs) := by
    have takes : Takes socket limit consumed (bigEndian width frame.payload.length) ahead
        ((obtain socket (bigEndian width frame.payload.length).length socketError rcs).andThen
          fun got => .done (ofBigEndian got.1, got.2))
        fun result => ∃ rcs, Positive rcs ∧ result = (frame.payload.length, rcs) :=
      .field _ _ (by rwa [length_bigEndian]) (by rwa [length_bigEndian]) fits
        (fun rcs => by dsimp only; rw [ofBigEndian_bigEndian whole])
    rwa [length_bigEndian] at takes
  rw [WebSocketFrame.lengthCode, WebSocketFrame.extendedLength] at *
  by_cases tiny : frame.payload.length < 126
  · rw [if_pos tiny, if_pos tiny, receiveLength, if_neg (by omega), if_neg (by omega)]
    exact .done ⟨rcs, positive, rfl⟩
  · rw [if_neg tiny] at fits ⊢
    rw [if_neg tiny]
    by_cases medium : frame.payload.length < 65536
    · rw [if_pos medium] at fits ⊢
      rw [if_pos medium, receiveLength, if_pos rfl]
      exact extended (by decide) (by decide) medium fits
    · rw [if_neg medium] at fits ⊢
      rw [if_neg medium, receiveLength, if_neg (by decide), if_pos rfl]
      exact extended (by decide) le_rfl small fits

theorem receiveKey_takes (fits : consumed.length + frame.keyBytes.length ≤ limit)
    (positive : Positive rcs) :
    Takes socket limit consumed frame.keyBytes ahead (receiveKey socket frame.key.isSome rcs)
      Positive := by
  unfold WebSocketFrame.keyBytes at *
  cases key : frame.key with
  | none => exact .done positive
  | some bytes =>
      rw [key] at fits
      have takes : Takes socket limit consumed [bytes 0, bytes 1, bytes 2, bytes 3] ahead
          ((obtain socket 4 socketError rcs).andThen fun got => .done got.2)
          fun result => ∃ rcs, Positive rcs ∧ result = rcs :=
        .field _ _ (Nat.succ_pos 3) (Nat.le_add_left 4 4) fits (fun _ => rfl)
      exact takes.mono fun result => by
        rintro ⟨rcs, positive, rfl⟩
        exact positive

theorem receiveHeader_takes (small : frame.payload.length < 18446744073709551616)
    (fits : frame.header.length ≤ limit) (known : KnownOpcode (opcodeOf frame opcode)) :
    Takes socket limit [] frame.header ahead (receiveHeader socket opcode)
      fun result => ∃ rcs, Positive rcs ∧
        result = (startOf frame opcode, frame.payload.length, rcs) := by
  have parts : frame.header = [frame.firstByte, frame.secondByte] ++
      (WebSocketFrame.extendedLength frame.payload.length ++ (frame.keyBytes ++ [])) := by
    rw [List.append_nil]
    rfl
  have start : [frame.firstByte, frame.secondByte].length = 2 := rfl
  rw [parts, List.length_append, List.length_append, List.length_append, start] at fits
  rw [parts]
  refine (receiveStart_takes (by omega) known).andThen ?_
  rintro _ ⟨rcs, positive, rfl⟩
  refine (receiveLength_takes small (by rw [List.nil_append, start]; omega) positive).andThen ?_
  rintro _ ⟨rcs, positive, rfl⟩
  refine (receiveKey_takes (by rw [List.nil_append, List.length_append, start]; omega)
    positive).andThen ?_
  intro rcs positive
  exact .done ⟨rcs, positive, rfl⟩

end Header

/-! ## Whole frames -/

structure Behind (socket : SOCKET) (more : List UInt8) (raw : RawSocket) : Prop where
  drained : Drained socket raw.reads.buffer
  healthy : (raw.reads.inbound socket).Healthy
  bytes : (raw.reads.inbound socket).bytes = more

inductive FragmentRead (socket : SOCKET) (frame : WebSocketFrame) (opcode : Nat)
    (more : List UInt8) (raw : RawSocket) :
    Except Int (Bool × Nat × List UInt8 × Int) × RawSocket → Prop
  | ok {rcs : Int} {after : RawSocket} (positive : Positive rcs)
      (behind : Behind socket more after)
      (ready : available socket raw ≤
        frame.encode.length + (after.reads.inbound socket).ready) :
      FragmentRead socket frame opcode more raw
        (.ok (frame.fin, opcodeOf frame opcode, frame.masked, rcs), after)
  | interrupted {after : RawSocket}
      (held : Held socket (frame.encode ++ more) after)
      (short : after.frameBuffer.data.length < frame.encode.length)
      (wait : available socket raw < frame.encode.length ∨ maxRwCount < frame.payload.length)
      (progress : (after.reads.inbound socket).size < (raw.reads.inbound socket).size) :
      FragmentRead socket frame opcode more raw (.error tcpsocketInterrupted, after)

section Frame

variable {socket : SOCKET} {frame : WebSocketFrame} {opcode : Nat} {more : List UInt8}
  {raw : RawSocket}

theorem unmask_outer (hasMask : Bool) (b : List UInt8) :
    (if hasMask then mask outerMask 0 b else b) = b := by
  split
  · exact mask_zero
  · rfl

theorem Reading.behind {consumed : List UInt8}
    (reading : Reading socket consumed.length consumed more raw) : Behind socket more raw := by
  have length := reading.length_data
  have bounded := reading.bounded
  have none : raw.frameBuffer.ahead = [] := List.eq_nil_of_length_eq_zero (by omega)
  have split := reading.split.2
  rw [none, List.nil_append] at split
  exact ⟨reading.held.drained, reading.held.healthy, split.symm⟩

theorem obtain_payload {rcs : Int} (positive : Positive rcs)
    (small : frame.payload.length < 4294967296)
    (reading : Reading socket frame.encode.length frame.header (frame.masked ++ more) raw) :
    ∃ result, obtain socket frame.payload.length socketError rcs raw = some result ∧
      ((∃ rcs after, result = (.ok (frame.masked, rcs), after) ∧ Positive rcs ∧
          Behind socket more after ∧ available socket raw ≤
            frame.payload.length + (after.reads.inbound socket).ready) ∨
        ∃ after, result = (.error tcpsocketInterrupted, after) ∧
          Held socket (frame.encode ++ more) after ∧
          after.frameBuffer.data.length < frame.encode.length ∧
          (available socket raw < frame.payload.length ∨ maxRwCount < frame.payload.length) ∧
          (after.reads.inbound socket).size < (raw.reads.inbound socket).size) := by
  have whole := frame.length_encode
  rw [← WebSocketFrame.length_masked] at whole small ⊢
  by_cases empty : frame.masked = []
  · rw [empty, List.length_nil, Nat.add_zero] at whole
    rw [empty, whole] at reading
    have behind := reading.behind
    have length := reading.length_data
    have bounded := reading.bounded
    rcases getRawSocketData_zero reading.held positive.1 with
      ⟨reads, read, drained, inbound⟩
    rw [empty, obtain, List.length_nil, read]
    dsimp only [Option.map_some]
    rw [if_neg positive.2, List.length_nil, if_neg (Nat.lt_irrefl 0)]
    refine ⟨_, rfl, .inl ⟨rcs, _, rfl, positive, ⟨drained, ?_, ?_⟩, ?_⟩⟩
    · dsimp only
      rw [inbound]
      exact behind.healthy
    · dsimp only
      rw [inbound]
      exact behind.bytes
    · dsimp only
      rw [inbound, available]
      omega
  · rcases obtain_takes socketError rcs (List.length_pos_of_ne_nil empty) small
      whole.ge (.inr whole.le) raw reading with ⟨result, ran, took⟩
    refine ⟨result, ran, ?_⟩
    cases took with
    | @ok value after meets reading ready progress =>
        rcases value with ⟨b, rcs⟩
        rcases meets with ⟨same, positive⟩
        dsimp only at same
        subst same
        have behind : Reading socket frame.encode.length frame.encode more after := reading
        have empty := behind.length_data
        have bounded := behind.bounded
        refine .inl ⟨rcs, after, rfl, positive, behind.behind, ?_⟩
        unfold available at ready ⊢
        omega
    | interrupted held short wait progress =>
        rw [← List.append_assoc] at held
        exact .inr ⟨_, rfl, held, short, wait, progress⟩

theorem receiveFragment_spec
    (reading : Reading socket frame.encode.length [] (frame.encode ++ more) raw)
    (small : frame.payload.length < 4294967296) (known : KnownOpcode (opcodeOf frame opcode)) :
    ∃ result, receiveFragment socket opcode raw = some result ∧
      FragmentRead socket frame opcode more raw result := by
  have whole := frame.length_encode
  have header := frame.length_header
  rw [WebSocketFrame.encode, List.append_assoc, ← WebSocketFrame.encode] at reading
  rcases receiveHeader_takes (by omega) (by omega) known raw reading with ⟨result, ran, took⟩
  cases took with
  | interrupted held short wait progress =>
      rw [List.nil_append, ← List.append_assoc] at held
      refine ⟨_, Receive.andThen_error ran, .interrupted held short (.inl ?_) progress⟩
      rcases wait with wait | wait
      · omega
      · exact absurd (header.2.trans_lt (by decide)) (Nat.lt_asymm wait)
  | @ok value middle meets reading ready progress =>
      rcases meets with ⟨rcs, positive, rfl⟩
      rcases obtain_payload positive small reading with ⟨result, obtained, ends⟩
      rcases ends with ⟨rcs, after, rfl, positive, behind, enough⟩ |
        ⟨after, rfl, held, short, wait, later⟩
      · refine ⟨_, (Receive.andThen_ok ran).trans (Receive.andThen_ok obtained), ?_⟩
        dsimp only
        rw [unmask_outer]
        exact .ok positive behind (by omega)
      · refine ⟨_, (Receive.andThen_ok ran).trans (Receive.andThen_error obtained),
          .interrupted held short ?_ (later.trans_le progress)⟩
        omega

/-- A payload of 2^32 bytes or more: what is missing of it goes through `int`, so that the
multiple of 2^32 in it is never received. -/
theorem obtain_huge {consumed ahead : List UInt8} {limit : Nat} (bytes : Nat) (absent rcs : Int)
    (reading : Reading socket limit consumed ahead raw) (inside : consumed.length < limit)
    (huge : limit + 4294967296 = consumed.length + bytes + 1) :
    ∃ rc after, obtain socket bytes absent rcs raw = some (.error rc, after) ∧
      (rc = socketError ∨ rc = tcpsocketInterrupted ∧ Held socket (consumed ++ ahead) after ∧
        after.frameBuffer.data.length < limit) := by
  have length := reading.length_data
  have bounded := reading.bounded
  have short : raw.frameBuffer.ahead.length < bytes := by omega
  rcases getRawSocketData_short rcs reading.held short with ⟨result, ran, read⟩
  rw [obtain, ran]
  cases read with
  | closed closed reads => exact ⟨_, _, rfl, .inl rfl⟩
  | @wouldBlock reads held nothing progress =>
      refine ⟨_, _, ?_, .inr ⟨rfl, held, by dsimp only; omega⟩⟩
      dsimp only [Option.map_some]
      rw [if_neg (by decide), if_pos (by rw [List.length_nil]; omega)]
  | @data received reads held nonempty count ready progress =>
      have room := recvCount_le (bytes - raw.frameBuffer.ahead.length)
      refine ⟨_, _, ?_, .inr ⟨rfl, held, ?_⟩⟩
      · dsimp only [Option.map_some]
        rw [if_neg (by unfold socketError; omega), if_pos]
        rw [FrameBuffer.ahead_append, List.length_take, List.length_append]
        omega
      · dsimp only
        rw [FrameBuffer.data_advance, FrameBuffer.data_append, List.length_append]
        omega

theorem receiveFragment_huge {limit : Nat}
    (reading : Reading socket limit [] (frame.encode ++ more) raw)
    (huge : limit + 4294967296 = frame.encode.length + 1)
    (large : 4294967296 ≤ frame.payload.length)
    (small : frame.payload.length < 18446744073709551616)
    (known : KnownOpcode (opcodeOf frame opcode)) :
    ∃ rc after, receiveFragment socket opcode raw = some (.error rc, after) ∧
      (rc = socketError ∨ rc = tcpsocketInterrupted ∧ Held socket (frame.encode ++ more) after ∧
        after.frameBuffer.data.length < limit) := by
  have whole := frame.length_encode
  rw [WebSocketFrame.encode, List.append_assoc] at reading
  rcases receiveHeader_takes small (by omega) known raw reading with ⟨result, ran, took⟩
  cases took with
  | interrupted held short wait progress =>
      rw [List.nil_append, ← List.append_assoc] at held
      exact ⟨_, _, Receive.andThen_error ran, .inr ⟨rfl, held, short⟩⟩
  | @ok value middle meets reading ready progress =>
      rcases meets with ⟨rcs, positive, rfl⟩
      rw [List.nil_append] at reading
      rcases obtain_huge frame.payload.length socketError rcs reading
        (by omega) (by omega) with ⟨rc, after, obtained, ends⟩
      rw [← List.append_assoc] at ends
      exact ⟨rc, after, (Receive.andThen_ok ran).trans (Receive.andThen_error obtained), ends⟩

theorem receiveFragment_nil (opcode : Nat) (held : Held socket [] raw) :
    ∃ after, receiveFragment socket opcode raw = some (.error tcpsocketInterrupted, after) ∧
      Held socket [] after := by
  rcases List.append_eq_nil_iff.mp held.stream with ⟨data, bytes⟩
  have none : raw.frameBuffer.ahead = [] := by rw [FrameBuffer.ahead, data, List.drop_nil]
  have short : raw.frameBuffer.ahead.length < 2 := by rw [none]; decide
  rcases getRawSocketData_short 0 held short with ⟨result, ran, read⟩
  have obtained : ∃ after, obtain socket 2 tcpsocketInterrupted 0 raw =
      some (.error tcpsocketInterrupted, after) ∧ Held socket [] after := by
    rw [obtain, ran]
    cases read with
    | closed closed => exact absurd closed (recvCount_ne_zero (by rw [none]; decide) (by omega))
    | wouldBlock held => exact ⟨_, rfl, held⟩
    | @data received reads after nonempty =>
        have kept := after.stream
        dsimp only at kept
        rw [FrameBuffer.data_advance, FrameBuffer.data_append, List.append_eq_nil_iff,
          List.append_eq_nil_iff] at kept
        exact absurd kept.1.2 nonempty
  rcases obtained with ⟨after, obtained, held⟩
  exact ⟨after, Receive.andThen_error (Receive.andThen_error (Receive.andThen_error obtained)),
    held⟩

end Frame

end MqttClient.WebSocket
