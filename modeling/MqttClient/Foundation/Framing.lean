import MqttClient.Foundation.ReceiveSource

/-! # Resumable framing

A framing rule says, of the bytes of a packet read so far, how many more must
be asked for before the rule can be consulted again. A reader that keeps its
partial packet between calls obtains the same packets however the source is
cut into reads; that is `Framing.packets_of_source`.
-/

namespace MqttClient.Foundation

/-- What the bytes of a packet read so far still require. `more extra` asks for
`extra + 1` further bytes. -/
inductive Need
  | more (extra : Nat)
  | complete
  | malformed
  deriving DecidableEq, Repr

structure Framing (α : Type) where
  need : List α → Need
  start : ∃ extra, need [] = .more extra

inductive ReadOutcome (α : Type)
  | packet (bytes : List α)
  | interrupted
  | failed
  deriving DecidableEq, Repr

def ReadOutcome.toOption : ReadOutcome α → Option (List α)
  | .packet bytes => some bytes
  | _ => none

def ReadOutcome.bytes : ReadOutcome α → List α
  | .packet bytes => bytes
  | _ => []

namespace Framing

/-- One call of the reader, from the bytes kept of the current packet: ask for
what is needed until the packet is complete or a read comes back short. Returns
the outcome, the bytes kept for the next call and what remains of the source. -/
def read (framing : Framing α) (kept : List α) (source : RecvSource α) :
    ReadOutcome α × List α × RecvSource α :=
  match framing.need kept with
  | .complete => (.packet kept, [], source)
  | .malformed => (.failed, kept, source)
  | .more extra =>
      match _received : source.recv (extra + 1) with
      | (.data bytes, rest) =>
          if bytes.length = extra + 1 then framing.read (kept ++ bytes) rest
          else (.interrupted, kept ++ bytes, rest)
      | (.wouldBlock, rest) => (.interrupted, kept, rest)
      | (.endOfFile, rest) => (.failed, kept, rest)
      | (.failed, rest) => (.failed, kept, rest)
termination_by source.size
decreasing_by
  exact (RecvSource.recv_data (Nat.succ_pos extra) _received).2.2.2

/-- The outcomes of `calls` successive calls, and the final reader. -/
def reads (framing : Framing α) : Nat → List α → RecvSource α →
    List (ReadOutcome α) × List α × RecvSource α
  | 0, kept, source => ([], kept, source)
  | calls + 1, kept, source =>
      let first := framing.read kept source
      let later := framing.reads calls first.2.1 first.2.2
      (first.1 :: later.1, later.2)

def packets (framing : Framing α) (calls : Nat) (kept : List α)
    (source : RecvSource α) : List (List α) :=
  (framing.reads calls kept source).1.filterMap ReadOutcome.toOption

structure IsFrame (framing : Framing α) (frame : List α) : Prop where
  complete : framing.need frame = .complete
  within : ∀ front, front <+: frame → front ≠ frame →
    ∃ extra, framing.need front = .more extra ∧ front.length + extra + 1 ≤ frame.length

theorem IsFrame.ne_nil {framing : Framing α} {frame : List α}
    (isFrame : framing.IsFrame frame) : frame ≠ [] := by
  rintro rfl
  rcases framing.start with ⟨extra, start⟩
  simp [isFrame.complete] at start

theorem read_complete {framing : Framing α} {kept : List α}
    (complete : framing.need kept = .complete) (source : RecvSource α) :
    framing.read kept source = (.packet kept, [], source) := by
  rw [read, complete]

theorem read_malformed {framing : Framing α} {kept : List α}
    (malformed : framing.need kept = .malformed) (source : RecvSource α) :
    framing.read kept source = (.failed, kept, source) := by
  rw [read, malformed]

private theorem read_more {framing : Framing α} {kept : List α} {extra : Nat}
    {source rest : RecvSource α} {event : RecvEvent α}
    (more : framing.need kept = .more extra)
    (received : source.recv (extra + 1) = (event, rest)) :
    framing.read kept source =
      match event with
      | .data bytes =>
          if bytes.length = extra + 1 then framing.read (kept ++ bytes) rest
          else (.interrupted, kept ++ bytes, rest)
      | .wouldBlock => (.interrupted, kept, rest)
      | .endOfFile => (.failed, kept, rest)
      | .failed => (.failed, kept, rest) := by
  rw [read, more]
  dsimp only
  split
  all_goals
    rename_i equal
    rw [received] at equal
    cases equal
    rfl

theorem read_full {framing : Framing α} {kept bytes : List α} {extra : Nat}
    {source rest : RecvSource α} (more : framing.need kept = .more extra)
    (received : source.recv (extra + 1) = (.data bytes, rest))
    (full : bytes.length = extra + 1) :
    framing.read kept source = framing.read (kept ++ bytes) rest := by
  rw [read_more more received]
  exact if_pos full

theorem read_short {framing : Framing α} {kept bytes : List α} {extra : Nat}
    {source rest : RecvSource α} (more : framing.need kept = .more extra)
    (received : source.recv (extra + 1) = (.data bytes, rest))
    (short : bytes.length ≠ extra + 1) :
    framing.read kept source = (.interrupted, kept ++ bytes, rest) := by
  rw [read_more more received]
  exact if_neg short

theorem read_wouldBlock {framing : Framing α} {kept : List α} {extra : Nat}
    {source rest : RecvSource α} (more : framing.need kept = .more extra)
    (received : source.recv (extra + 1) = (.wouldBlock, rest)) :
    framing.read kept source = (.interrupted, kept, rest) :=
  read_more more received

theorem read_failed {framing : Framing α} {kept : List α} {extra : Nat}
    {source rest : RecvSource α} {event : RecvEvent α}
    (more : framing.need kept = .more extra)
    (received : source.recv (extra + 1) = (event, rest)) (unhealthy : ¬event.Healthy) :
    framing.read kept source = (.failed, kept, rest) := by
  rw [read_more more received]
  cases event with
  | data bytes => exact (unhealthy trivial).elim
  | wouldBlock => exact (unhealthy trivial).elim
  | endOfFile => rfl
  | failed => rfl

theorem read_conserves (framing : Framing α) (kept : List α) (source : RecvSource α) :
    kept ++ source.bytes =
      (framing.read kept source).1.bytes ++ (framing.read kept source).2.1 ++
        (framing.read kept source).2.2.bytes := by
  induction sized : source.size using Nat.strongRecOn generalizing kept source with
  | ind size induction =>
  subst sized
  cases needed : framing.need kept with
  | complete => simp [read_complete needed, ReadOutcome.bytes]
  | malformed => simp [read_malformed needed, ReadOutcome.bytes]
  | more extra =>
      cases received : source.recv (extra + 1) with
      | mk event rest =>
      cases event with
      | wouldBlock =>
          have conserved := (RecvSource.recv_wouldBlock received).1
          simp [read_wouldBlock needed received, ReadOutcome.bytes, conserved]
      | endOfFile =>
          have conserved := RecvSource.recv_unhealthy received id
          simp [read_failed needed received id, ReadOutcome.bytes, conserved]
      | failed =>
          have conserved := RecvSource.recv_unhealthy received id
          simp [read_failed needed received id, ReadOutcome.bytes, conserved]
      | data bytes =>
          rcases RecvSource.recv_data (Nat.succ_pos extra) received with
            ⟨_, _, conserved, smaller⟩
          by_cases full : bytes.length = extra + 1
          · rw [read_full needed received full, conserved, ← List.append_assoc]
            exact induction rest.size smaller _ _ rfl
          · simp [read_short needed received full, ReadOutcome.bytes, conserved]

/-! ## Independence of the schedule -/

structure Aligned (framing : Framing α) (frames : List (List α)) (kept : List α)
    (source : RecvSource α) : Prop where
  isFrame : ∀ frame ∈ frames, framing.IsFrame frame
  healthy : source.Healthy
  stream : kept ++ source.bytes = frames.flatten
  proper : ∀ frame rest, frames = frame :: rest → kept <+: frame ∧ kept ≠ frame

theorem Aligned.start {framing : Framing α} {frames : List (List α)}
    {source : RecvSource α} (isFrame : ∀ frame ∈ frames, framing.IsFrame frame)
    (healthy : source.Healthy) (stream : source.bytes = frames.flatten) :
    framing.Aligned frames [] source where
  isFrame := isFrame
  healthy := healthy
  stream := by simpa using stream
  proper := by
    rintro frame rest rfl
    exact ⟨List.nil_prefix, fun equal => (isFrame frame (by simp)).ne_nil equal.symm⟩

theorem Aligned.kept_eq_nil {framing : Framing α} {kept : List α}
    {source : RecvSource α} (aligned : framing.Aligned [] kept source) :
    kept = [] ∧ source.bytes = [] := by
  simpa using aligned.stream

inductive Advance (framing : Framing α) (frames : List (List α)) (source : RecvSource α) :
    ReadOutcome α × List α × RecvSource α → Prop
  | interrupted {kept : List α} {rest : RecvSource α}
      (aligned : framing.Aligned frames kept rest)
      (progress : rest = [] ∨ rest.size < source.size) :
      Advance framing frames source (.interrupted, kept, rest)
  | packet {frame : List α} {later : List (List α)} {rest : RecvSource α}
      (head : frames = frame :: later)
      (aligned : framing.Aligned later [] rest) (progress : rest.size ≤ source.size) :
      Advance framing frames source (.packet frame, [], rest)

theorem Advance.weaken {framing : Framing α} {frames : List (List α)}
    {source rest : RecvSource α} {result : ReadOutcome α × List α × RecvSource α}
    (advance : framing.Advance frames rest result) (smaller : rest.size ≤ source.size) :
    framing.Advance frames source result := by
  cases advance with
  | interrupted aligned progress =>
      exact .interrupted aligned (progress.imp_right fun less => by omega)
  | packet head aligned progress => exact .packet head aligned (by omega)

/-- The bytes that a read adds to a proper prefix of the current frame keep it a
prefix of that frame, because the rule never asks past the end. -/
private theorem prefix_of_received {kept bytes left frame others : List α}
    (stream : kept ++ (bytes ++ left) = frame ++ others)
    (within : kept.length + bytes.length ≤ frame.length) :
    kept ++ bytes <+: frame := by
  have front : kept ++ bytes <+: frame ++ others := ⟨left, by simpa using stream⟩
  apply List.prefix_of_prefix_length_le front (List.prefix_append ..)
  simpa using within

theorem Aligned.read {framing : Framing α} {frames : List (List α)} {kept : List α}
    {source : RecvSource α} (aligned : framing.Aligned frames kept source) :
    framing.Advance frames source (framing.read kept source) := by
  induction sized : source.size using Nat.strongRecOn generalizing kept source with
  | ind size induction =>
  subst sized
  -- the rule asks for more, and not past the end of the first frame
  have asks : ∃ extra, framing.need kept = .more extra ∧
      ∀ frame rest, frames = frame :: rest → kept.length + extra + 1 ≤ frame.length := by
    cases frames with
    | nil =>
        rcases framing.start with ⟨extra, start⟩
        exact ⟨extra, aligned.kept_eq_nil.1 ▸ start, by simp⟩
    | cons frame rest =>
        rcases aligned.proper frame rest rfl with ⟨isPrefix, different⟩
        rcases (aligned.isFrame frame (by simp)).within kept isPrefix different with
          ⟨extra, more, bounded⟩
        refine ⟨extra, more, ?_⟩
        rintro frame rest ⟨⟩
        exact bounded
  rcases asks with ⟨extra, more, bounded⟩
  have healthy := aligned.healthy.recv (extra + 1)
  cases received : source.recv (extra + 1) with
  | mk event rest =>
  rw [received] at healthy
  cases event with
  | endOfFile => exact healthy.1.elim
  | failed => exact healthy.1.elim
  | wouldBlock =>
      rcases RecvSource.recv_wouldBlock received with ⟨conserved, progress⟩
      rw [read_wouldBlock more received]
      refine .interrupted ⟨aligned.isFrame, healthy.2, ?_, aligned.proper⟩ ?_
      · rw [← conserved]
        exact aligned.stream
      · refine progress.imp_left ?_
        rintro rfl
        simpa [RecvSource.recv] using received.symm
  | data bytes =>
      rcases RecvSource.recv_data (Nat.succ_pos extra) received with
        ⟨nonempty, asked, conserved, smaller⟩
      have stream := aligned.stream
      rw [conserved] at stream
      cases frames with
      | nil => simp [nonempty] at stream
      | cons frame later =>
          have frameBound := bounded frame later rfl
          have grown : kept ++ bytes <+: frame :=
            prefix_of_received (by simpa using stream) (by omega)
          by_cases full : bytes.length = extra + 1
          · rw [read_full more received full]
            by_cases last : kept ++ bytes = frame
            · rw [last, read_complete (aligned.isFrame frame (by simp)).complete]
              refine .packet rfl (.start ?_ healthy.2 ?_) (Nat.le_of_lt smaller)
              · exact fun item member => aligned.isFrame item (by simp [member])
              · rw [← List.append_assoc, last, List.flatten_cons] at stream
                exact List.append_cancel_left stream
            · refine (induction rest.size smaller ⟨aligned.isFrame, healthy.2, ?_, ?_⟩
                rfl).weaken (Nat.le_of_lt smaller)
              · simpa using stream
              · rintro _ _ ⟨⟩
                exact ⟨grown, last⟩
          · rw [read_short more received full]
            refine .interrupted ⟨aligned.isFrame, healthy.2, by simpa using stream, ?_⟩
              (.inr smaller)
            rintro _ _ ⟨⟩
            refine ⟨grown, fun last => ?_⟩
            have lengths := congrArg List.length last
            simp only [List.length_append] at lengths
            omega

theorem packets_succ (framing : Framing α) (calls : Nat) (kept : List α)
    (source : RecvSource α) :
    framing.packets (calls + 1) kept source =
      (framing.read kept source).1.toOption.toList ++
        framing.packets calls (framing.read kept source).2.1
          (framing.read kept source).2.2 := by
  unfold packets
  rw [reads]
  dsimp only
  cases (framing.read kept source).1 <;> rfl

theorem Aligned.packets_prefix {framing : Framing α} {frames : List (List α)}
    {kept : List α} {source : RecvSource α}
    (aligned : framing.Aligned frames kept source) (calls : Nat) :
    framing.packets calls kept source <+: frames := by
  induction calls generalizing frames kept source with
  | zero => exact List.nil_prefix
  | succ calls induction =>
      rw [packets_succ]
      have advance := aligned.read
      revert advance
      cases framing.read kept source with
      | mk outcome next =>
      intro advance
      cases advance with
      | interrupted after _ => simpa [ReadOutcome.toOption] using induction after
      | packet head after _ =>
          subst head
          simpa [ReadOutcome.toOption] using induction after

theorem Aligned.exhausted {framing : Framing α} {frames : List (List α)} {kept : List α}
    {source : RecvSource α} (aligned : framing.Aligned frames kept source)
    (empty : source.bytes = []) : frames = [] := by
  cases frames with
  | nil => rfl
  | cons frame later =>
      rcases aligned.proper frame later rfl with ⟨⟨suffix, split⟩, different⟩
      have stream := aligned.stream
      rw [← split, empty] at stream
      simp at stream
      exact (different (by simpa [stream.1] using split)).elim

theorem Aligned.packets_eq {framing : Framing α} {frames : List (List α)}
    {kept : List α} {source : RecvSource α}
    (aligned : framing.Aligned frames kept source) (calls : Nat)
    (enough : source.size + frames.length ≤ calls) :
    framing.packets calls kept source = frames := by
  induction calls generalizing frames kept source with
  | zero =>
      have empty : frames = [] := List.length_eq_zero_iff.mp (by omega)
      simp [packets, reads, empty]
  | succ calls induction =>
      rw [packets_succ]
      have advance := aligned.read
      revert advance
      cases framing.read kept source with
      | mk outcome next =>
      intro advance
      cases advance with
      | @interrupted kept rest after progress =>
          rcases progress with rfl | progress
          · have exhausted : frames = [] := after.exhausted rfl
            subst frames
            exact List.prefix_nil.mp (after.packets_prefix calls)
          · simpa [ReadOutcome.toOption] using induction after (by omega)
      | packet head after progress =>
          subst head
          have remaining := induction after (by
            simp only [List.length_cons] at enough
            omega)
          simp [ReadOutcome.toOption, remaining]

theorem Aligned.ne_failed {framing : Framing α} {frames : List (List α)} {kept : List α}
    {source : RecvSource α} (aligned : framing.Aligned frames kept source) (calls : Nat) :
    ∀ outcome ∈ (framing.reads calls kept source).1, outcome ≠ .failed := by
  induction calls generalizing frames kept source with
  | zero => simp [reads]
  | succ calls induction =>
      have advance := aligned.read
      rw [reads]
      revert advance
      cases framing.read kept source with
      | mk outcome next =>
      intro advance outcome member
      cases advance with
      | interrupted after _ =>
          rcases List.mem_cons.mp member with rfl | member
          · simp
          · exact induction after outcome member
      | packet _ after _ =>
          rcases List.mem_cons.mp member with rfl | member
          · simp
          · exact induction after outcome member

/-! ## A source that has not brought everything yet -/

theorem read_append_wouldBlock (framing : Framing α) (kept : List α) (source more : RecvSource α) :
    framing.read kept (source ++ .wouldBlock :: more) =
        ((framing.read kept source).1, (framing.read kept source).2.1,
          (framing.read kept source).2.2 ++ .wouldBlock :: more) ∨
      ∃ later, framing.read kept source = (.interrupted, later, []) ∧
        framing.read kept (source ++ .wouldBlock :: more) = (.interrupted, later, more) := by
  induction sized : source.size using Nat.strongRecOn generalizing kept source with
  | ind size induction =>
  subst sized
  cases needed : framing.need kept with
  | complete =>
      rw [read_complete needed, read_complete needed]
      exact .inl rfl
  | malformed =>
      rw [read_malformed needed, read_malformed needed]
      exact .inl rfl
  | more extra =>
      rcases RecvSource.recv_append_wouldBlock source more (extra + 1) with same | ⟨nothing, pause⟩
      · cases received : source.recv (extra + 1) with
        | mk event rest =>
        rw [received] at same
        rw [read_more needed received, read_more needed same]
        cases event with
        | wouldBlock | endOfFile | failed => exact .inl rfl
        | data bytes =>
            have smaller := (RecvSource.recv_data (Nat.succ_pos extra) received).2.2.2
            dsimp only
            split
            · exact induction rest.size smaller _ _ rfl
            · exact .inl rfl
      · rw [read_wouldBlock needed nothing, read_wouldBlock needed pause]
        exact .inr ⟨kept, rfl, rfl⟩

theorem reads_append_wouldBlocks (framing : Framing α) (calls : Nat) (kept : List α)
    (source more : RecvSource α) {pauses : Nat} (enough : calls ≤ pauses) :
    (framing.reads calls kept (source ++ (List.replicate pauses .wouldBlock ++ more))).1 =
      (framing.reads calls kept source).1 := by
  induction calls generalizing kept source pauses with
  | zero => rfl
  | succ calls induction =>
      obtain ⟨pauses, rfl⟩ : ∃ before, pauses = before + 1 := ⟨pauses - 1, by omega⟩
      rw [List.replicate_succ, List.cons_append, reads, reads]
      rcases framing.read_append_wouldBlock kept source (List.replicate pauses .wouldBlock ++ more)
        with same | ⟨later, nothing, pause⟩
      · have next := induction (framing.read kept source).2.1 (framing.read kept source).2.2
          (Nat.le_of_succ_le enough)
        rw [List.replicate_succ, List.cons_append] at next
        rw [same]
        dsimp only
        rw [next]
      · have next := induction later [] (Nat.le_of_succ_le_succ enough)
        rw [List.nil_append] at next
        rw [nothing, pause]
        dsimp only
        rw [next]

theorem packets_prefix_of_prefix {framing : Framing α} {frames : List (List α)}
    {source : RecvSource α} (isFrame : ∀ frame ∈ frames, framing.IsFrame frame)
    (healthy : source.Healthy) (part : source.bytes <+: frames.flatten) (calls : Nat) :
    framing.packets calls [] source <+: frames ∧
      ∀ outcome ∈ (framing.reads calls [] source).1, outcome ≠ .failed := by
  rcases part with ⟨rest, stream⟩
  have same := framing.reads_append_wouldBlocks calls [] source [.data rest] (Nat.le_refl calls)
  have aligned : framing.Aligned frames []
      (source ++ (List.replicate calls .wouldBlock ++ [.data rest])) := by
    refine .start isFrame (fun event member => ?_) ?_
    · rcases List.mem_append.mp member with member | member
      · exact healthy event member
      · rcases List.mem_append.mp member with member | member
        · rw [List.eq_of_mem_replicate member]
          trivial
        · rw [List.mem_singleton.mp member]
          trivial
    · rw [← stream]
      simp [RecvSource.bytes, RecvEvent.bytes]
  rw [packets, ← same]
  exact ⟨aligned.packets_prefix calls, aligned.ne_failed calls⟩

/-! ## A source in one piece -/

theorem read_putBack {framing : Framing α} {frame : List α}
    (isFrame : framing.IsFrame frame) (others : List α) {kept left : List α}
    (split : kept ++ left = frame) (missing : left ≠ []) :
    framing.read kept (RecvSource.putBack (left ++ others) []) =
      (.packet frame, [], RecvSource.putBack others []) := by
  induction sized : left.length using Nat.strongRecOn generalizing kept left with
  | ind size induction =>
  subst sized
  have proper : kept ≠ frame := by
    rintro rfl
    exact missing (by simpa using split)
  rcases isFrame.within kept ⟨left, split⟩ proper with ⟨extra, more, within⟩
  have lengths := congrArg List.length split
  rw [List.length_append] at lengths
  have received : (RecvSource.putBack (left ++ others) []).recv (extra + 1) =
      (.data (left.take (extra + 1)),
        RecvSource.putBack (left.drop (extra + 1) ++ others) []) := by
    cases left with
    | nil => exact (missing rfl).elim
    | cons byte left =>
        rw [List.cons_append, RecvSource.putBack, RecvSource.recv, ← List.cons_append,
          List.take_append_of_le_length (by omega), List.drop_append_of_le_length (by omega)]
  rw [read_full more received (by rw [List.length_take]; omega)]
  have next : kept ++ left.take (extra + 1) ++ left.drop (extra + 1) = frame := by
    rw [List.append_assoc, List.take_append_drop, split]
  by_cases last : left.drop (extra + 1) = []
  · rw [last, List.append_nil] at next
    rw [next, read_complete isFrame.complete, last, List.nil_append]
  · exact induction _ (by rw [List.length_drop]; omega) next last rfl

theorem reads_putBack {framing : Framing α} {frames : List (List α)}
    (isFrame : ∀ frame ∈ frames, framing.IsFrame frame) :
    (framing.reads frames.length [] (RecvSource.putBack frames.flatten [])).1 =
      frames.map ReadOutcome.packet := by
  induction frames with
  | nil => rfl
  | cons frame frames induction =>
      have head := isFrame frame (List.mem_cons_self ..)
      rw [List.length_cons, reads, List.flatten_cons,
        read_putBack head frames.flatten (List.nil_append frame) head.ne_nil]
      have later := induction fun other member => isFrame other (List.mem_cons_of_mem _ member)
      exact congrArg _ later

end Framing

end MqttClient.Foundation
