import MqttClient.MQTTPacket.FactoryRuns

/-! # Independence of the fragmentation

What the packet reader obtains from a connection does not depend on how the
connection's bytes are cut into reads.
-/

namespace MqttClient.MQTTPacket

open Foundation

variable {β : Type} [Octet β]

/-- What `calls` successive calls on a socket return, the interrupted ones left
out. -/
def obtained (MQTTVersion : Int) (socket : SOCKET) (calls : Nat) (reads : SocketReads β) :
    List FactoryResult :=
  (resultsOn socket (run (List.replicate calls (socket, MQTTVersion)) reads)).filter
    (· ≠ .returned tcpsocketInterrupted none)

theorem dispatch_ne_interrupted (MQTTVersion : Int) (aHeader : UInt8) (data : List UInt8) :
    dispatch MQTTVersion aHeader data ≠ .returned tcpsocketInterrupted none := by
  unfold dispatch
  dsimp only
  split
  · simp
  · split
    · simp
    · simp
    · split <;> simp

theorem resultOfBytes_ne_interrupted (MQTTVersion : Int) (bytes : List β) :
    resultOfBytes MQTTVersion bytes ≠ .returned tcpsocketInterrupted none := by
  unfold resultOfBytes
  split
  · simp
  · split
    · exact dispatch_ne_interrupted _ _ _
    · simp

theorem Represents.runsAtRest {reads : SocketReads β} {kept : SOCKET → List β}
    {socket : SOCKET} (represents : Represents reads kept) (atRest : AtRest socket reads)
    (positive : socket ≠ 0) (MQTTVersion : Int) (calls : Nat)
    (healthy : ∀ outcome ∈ (framing.reads calls (kept socket) (reads.inbound socket)).1,
      outcome ≠ .failed) :
    RunsAtRest (List.replicate calls (socket, MQTTVersion)) reads := by
  induction calls generalizing reads kept with
  | zero => trivial
  | succ calls induction =>
      rcases represents.step atRest positive MQTTVersion with
        ⟨_, after, inbound, _, _, rested⟩
      refine ⟨atRest, induction after (rested (healthy _ (List.mem_cons_self ..))) ?_⟩
      intro outcome member
      rw [inbound, Function.update_self, Function.update_self] at member
      exact healthy outcome (List.mem_cons_of_mem _ member)

private theorem framingResults_replicate (MQTTVersion : Int) (calls : Nat) (kept : List β)
    (source : RecvSource β) :
    framingResults (List.replicate calls MQTTVersion) kept source =
      (framing.reads calls kept source).1.map (resultOfOutcome MQTTVersion) := by
  induction calls generalizing kept source with
  | zero => rfl
  | succ calls induction =>
      rw [List.replicate_succ, framingResults, induction, Framing.reads, List.map_cons]

theorem Represents.resultsOn_eq_of_ne_failed {reads : SocketReads β} {kept : SOCKET → List β}
    {socket : SOCKET} (represents : Represents reads kept) (atRest : AtRest socket reads)
    (positive : socket ≠ 0) (MQTTVersion : Int) (calls : Nat)
    (healthy : ∀ outcome ∈ (framing.reads calls (kept socket) (reads.inbound socket)).1,
      outcome ≠ .failed) :
    resultsOn socket (run (List.replicate calls (socket, MQTTVersion)) reads) =
      (framing.reads calls (kept socket) (reads.inbound socket)).1.map
        (resultOfOutcome MQTTVersion) := by
  rw [represents.resultsOn_run (fun call member => (List.eq_of_mem_replicate member) ▸ positive)
    (represents.runsAtRest atRest positive MQTTVersion calls healthy)]
  have versions : versionsOn socket (List.replicate calls (socket, MQTTVersion)) =
      List.replicate calls MQTTVersion := by
    simp [versionsOn]
  rw [versions, framingResults_replicate]

theorem Represents.resultsOn_eq {reads : SocketReads β} {kept : SOCKET → List β}
    {socket : SOCKET} {frames : List (List β)} (represents : Represents reads kept)
    (atRest : AtRest socket reads) (positive : socket ≠ 0)
    (aligned : framing.Aligned frames (kept socket) (reads.inbound socket))
    (MQTTVersion : Int) (calls : Nat) :
    resultsOn socket (run (List.replicate calls (socket, MQTTVersion)) reads) =
      (framing.reads calls (kept socket) (reads.inbound socket)).1.map
        (resultOfOutcome MQTTVersion) :=
  represents.resultsOn_eq_of_ne_failed atRest positive MQTTVersion calls (aligned.ne_failed calls)

private theorem filter_resultOfOutcome (MQTTVersion : Int) {outcomes : List (ReadOutcome β)}
    (healthy : ∀ outcome ∈ outcomes, outcome ≠ .failed) :
    (outcomes.map (resultOfOutcome MQTTVersion)).filter
        (· ≠ .returned tcpsocketInterrupted none) =
      (outcomes.filterMap ReadOutcome.toOption).map (resultOfBytes MQTTVersion) := by
  induction outcomes with
  | nil => rfl
  | cons outcome outcomes induction =>
      have later := induction fun other member => healthy other (List.mem_cons_of_mem _ member)
      rw [List.map_cons, List.filter_cons, later]
      cases outcome with
      | packet bytes =>
          have different := resultOfBytes_ne_interrupted MQTTVersion bytes
          exact if_pos (decide_eq_true different)
      | interrupted => rfl
      | failed => exact (healthy _ (List.mem_cons_self ..) rfl).elim

theorem Represents.obtained_eq_of_ne_failed {reads : SocketReads β} {kept : SOCKET → List β}
    {socket : SOCKET} (represents : Represents reads kept) (atRest : AtRest socket reads)
    (positive : socket ≠ 0) (MQTTVersion : Int) (calls : Nat)
    (healthy : ∀ outcome ∈ (framing.reads calls (kept socket) (reads.inbound socket)).1,
      outcome ≠ .failed) :
    obtained MQTTVersion socket calls reads =
      (framing.packets calls (kept socket) (reads.inbound socket)).map
        (resultOfBytes MQTTVersion) := by
  rw [obtained, represents.resultsOn_eq_of_ne_failed atRest positive MQTTVersion calls healthy]
  exact filter_resultOfOutcome MQTTVersion healthy

theorem Represents.obtained_eq {reads : SocketReads β} {kept : SOCKET → List β}
    {socket : SOCKET} {frames : List (List β)} (represents : Represents reads kept)
    (atRest : AtRest socket reads) (positive : socket ≠ 0)
    (aligned : framing.Aligned frames (kept socket) (reads.inbound socket))
    (MQTTVersion : Int) (calls : Nat) :
    obtained MQTTVersion socket calls reads =
      (framing.packets calls (kept socket) (reads.inbound socket)).map
        (resultOfBytes MQTTVersion) :=
  represents.obtained_eq_of_ne_failed atRest positive MQTTVersion calls (aligned.ne_failed calls)

theorem aligned_start {source : RecvSource β} (frames : List (Frame β))
    (healthy : source.Healthy) (stream : source.bytes = frames.flatMap Frame.bytes) :
    framing.Aligned (frames.map Frame.bytes) [] source := by
  refine .start ?_ healthy (by rw [stream, List.flatMap])
  intro bytes member
  rcases List.mem_map.mp member with ⟨frame, _, rfl⟩
  exact frame.isFrame

private theorem map_resultOfBytes (frames : List (Frame β)) (MQTTVersion : Int) :
    (frames.map Frame.bytes).map (resultOfBytes MQTTVersion) =
      frames.map (Frame.result MQTTVersion) := by
  rw [List.map_map]
  exact List.map_congr_left fun frame _ => frame.resultOfBytes MQTTVersion

theorem obtained_eq_results (MQTTVersion : Int) {socket : SOCKET} (positive : 0 < socket)
    {frames : List (Frame β)} {inbound : SOCKET → RecvSource β}
    (healthy : (inbound socket).Healthy)
    (stream : (inbound socket).bytes = frames.flatMap Frame.bytes) {calls : Nat}
    (enough : (inbound socket).size + frames.length ≤ calls) :
    obtained MQTTVersion socket calls ⟨.start, inbound⟩ =
      frames.map (Frame.result MQTTVersion) := by
  have aligned := aligned_start frames healthy stream
  rw [(Represents.start inbound).obtained_eq (.start ..) (Int.ne_of_gt positive) aligned,
    aligned.packets_eq calls (by rwa [List.length_map]), map_resultOfBytes]

theorem obtained_prefix_results (MQTTVersion : Int) {socket : SOCKET} (positive : 0 < socket)
    {frames : List (Frame β)} {inbound : SOCKET → RecvSource β}
    (healthy : (inbound socket).Healthy)
    (part : (inbound socket).bytes <+: frames.flatMap Frame.bytes) (calls : Nat) :
    obtained MQTTVersion socket calls ⟨.start, inbound⟩ <+:
      frames.map (Frame.result MQTTVersion) := by
  have isFrame : ∀ bytes ∈ frames.map Frame.bytes, framing.IsFrame bytes := by
    intro bytes member
    rcases List.mem_map.mp member with ⟨frame, _, rfl⟩
    exact frame.isFrame
  rw [List.flatMap] at part
  rcases Framing.packets_prefix_of_prefix isFrame healthy part calls with ⟨packets, never⟩
  rw [(Represents.start inbound).obtained_eq_of_ne_failed (.start ..) (Int.ne_of_gt positive)
    MQTTVersion calls never, ← map_resultOfBytes]
  exact packets.map _

def unfragmented (MQTTVersion : Int) (socket : SOCKET) (frames : List (Frame β)) :
    List FactoryResult :=
  let whole := RecvSource.putBack (frames.flatMap Frame.bytes) []
  resultsOn socket (run (List.replicate frames.length (socket, MQTTVersion))
    ⟨.start, fun _ => whole⟩)

theorem unfragmented_eq {socket : SOCKET} (positive : socket ≠ 0) (frames : List (Frame β))
    (MQTTVersion : Int) :
    unfragmented MQTTVersion socket frames = frames.map (Frame.result MQTTVersion) := by
  have healthy : (RecvSource.putBack (frames.flatMap Frame.bytes) []).Healthy :=
    RecvSource.Healthy.putBack (by simp [RecvSource.Healthy]) _
  have aligned := aligned_start frames healthy (by simp)
  rw [unfragmented, (Represents.start _).resultsOn_eq (.start ..) positive aligned]
  have isFrame : ∀ bytes ∈ frames.map Frame.bytes, framing.IsFrame bytes := aligned.isFrame
  have whole := Framing.reads_putBack isFrame
  rw [List.length_map] at whole
  dsimp only
  rw [List.flatMap, whole, ← map_resultOfBytes, List.map_map]
  rfl

/-- However the bytes of a connection are cut into reads, the packets obtained from
it are those of the unfragmented connection: a prefix of them after any number of
calls, and all of them after enough calls. -/
theorem obtained_eq_unfragmented (MQTTVersion : Int) {socket : SOCKET} (positive : 0 < socket)
    (frames : List (Frame UInt8)) {inbound : SOCKET → RecvSource UInt8}
    (healthy : (inbound socket).Healthy)
    (stream : (inbound socket).bytes = frames.flatMap Frame.bytes) :
    (∀ calls, obtained MQTTVersion socket calls ⟨.start, inbound⟩ <+:
        unfragmented MQTTVersion socket frames) ∧
      (∀ calls, (inbound socket).size + frames.length ≤ calls →
        obtained MQTTVersion socket calls ⟨.start, inbound⟩ =
          unfragmented MQTTVersion socket frames) ∧
      unfragmented MQTTVersion socket frames = frames.map (Frame.result MQTTVersion) := by
  have nonzero : socket ≠ 0 := Int.ne_of_gt positive
  have aligned := aligned_start frames healthy stream
  have read (calls : Nat) := (Represents.start inbound).obtained_eq (.start ..) nonzero
    aligned MQTTVersion calls
  rw [unfragmented_eq nonzero, ← map_resultOfBytes]
  refine ⟨fun calls => ?_, fun calls enough => ?_, rfl⟩
  · rw [read]
    exact (aligned.packets_prefix calls).map _
  · rw [read, aligned.packets_eq calls (by rwa [List.length_map])]

/-- A PUBACK that arrives in three pieces. -/
theorem obtained_eq_unfragmented_puback :
    let puback : Frame UInt8 := ⟨0x40, [2], [0, 7], by decide⟩
    let pieces : RecvSource UInt8 := [.data [0x40], .wouldBlock, .data [2, 0], .data [7]]
    obtained 4 3 9 ⟨.start, fun _ => pieces⟩ = unfragmented 4 3 [puback] ∧
      unfragmented 4 3 [puback] = [.returned 0 (some (.ack ⟨⟨0x40⟩, some 7, 4⟩))] := by
  intro puback pieces
  have healthy : pieces.Healthy := by simp [pieces, RecvSource.Healthy, RecvEvent.Healthy]
  have obtained := @obtained_eq_unfragmented 4 3 (by decide) [puback] (fun _ => pieces) healthy
    (by decide)
  exact ⟨obtained.2.1 9 (by decide), obtained.2.2.trans (by decide)⟩

end MqttClient.MQTTPacket
