import SeqDetect.Server.Sequence

/-!
# Sequences in several segments

Port 8 keeps nothing from one delivery to the next.  What it prints for a stream depends
on the bytes and on where a segment ends whose last word is padded.
-/

namespace SeqDetect.Server

open Pattern

/-- A delivery of one short segment in one buffer, and the block that it is delivered to. -/
structure Segment where
  tpcb : Pcb
  p : Chain
  single : p.next = []
  positive : 1 ≤ p.tot_len
  short : p.tot_len ≤ 255

variable (tcp_send_fin : Pcb → Err)

/-- The words that successive calls print. -/
def emitted (segments : List Segment) : List (BitVec 32) :=
  segments.flatMap fun segment =>
    printed (seq_recv_callback tcp_send_fin segment.tpcb (some segment.p)).effects

/-- The bytes that the segments carry. -/
def streamBytes (segments : List Segment) : List Delta.Byte :=
  (segments.map fun segment => segment.p.bytes).flatten

/-- Where in the stream a segment ends whose length is not a multiple of four. -/
def paddedEnds (segments : List Segment) : List ℕ :=
  raggedEnds 4 0 (segments.map fun segment => segment.p.bytes)

theorem emitted_eq (segments : List Segment) :
    emitted tcp_send_fin segments =
      ((cutAt 0 (paddedEnds segments) (streamBytes segments)).flatMap
        (chunks 4 0xFF)).map bigEndian := by
  have whole : ∀ segment : Segment, segment.p.head.len = segment.p.tot_len := by
    intro segment
    simp [segment.p.sum_len, segment.single]
  rw [paddedEnds, streamBytes, ← flatMap_chunks (by decide), emitted, List.flatMap_map,
    List.map_flatMap]
  apply List.flatMap_congr
  intro segment _
  exact printed_seq_of_short _ _ (whole segment) (Nat.lt_succ_of_le segment.short)

/-- The words are those of the stream cut at the padded ends, the last word of each piece filled
up with `0xFF`; so they depend on the bytes and on these ends only. -/
theorem emitted_resegmented {first second : List Segment}
    (sameBytes : streamBytes first = streamBytes second)
    (sameEnds : paddedEnds first = paddedEnds second) :
    emitted tcp_send_fin first =
        ((cutAt 0 (paddedEnds first) (streamBytes first)).flatMap (chunks 4 0xFF)).map bigEndian ∧
      emitted tcp_send_fin second = emitted tcp_send_fin first := by
  have words := emitted_eq tcp_send_fin first
  refine ⟨words, ?_⟩
  rw [words, emitted_eq, sameBytes, sameEnds]

/-- Some bytes as a segment of their own. -/
def segment (bytes : List Delta.Byte) (positive : 1 ≤ bytes.length)
    (short : bytes.length ≤ 255) : Segment where
  tpcb := connection .seq
  p := .single bytes (by omega)
  single := rfl
  positive := positive
  short := short

/-- Six bytes, once as four and two and once as one segment. -/
theorem emitted_resegmented_aligned :
    emitted (fun _ => .ERR_OK) [segment [0x61, 0x62, 0x63, 0x64] (by decide) (by decide),
        segment [0x65, 0x66] (by decide) (by decide)] = [0x61626364, 0x6566ffff] ∧
      emitted (fun _ => .ERR_OK)
        [segment [0x61, 0x62, 0x63, 0x64, 0x65, 0x66] (by decide) (by decide)] =
        [0x61626364, 0x6566ffff] := by
  obtain ⟨words, same⟩ := @emitted_resegmented (fun _ => .ERR_OK)
    [segment [0x61, 0x62, 0x63, 0x64, 0x65, 0x66] (by decide) (by decide)]
    [segment [0x61, 0x62, 0x63, 0x64] (by decide) (by decide),
      segment [0x65, 0x66] (by decide) (by decide)] (by decide) (by decide)
  rw [same, words]
  decide

/-- Five bytes, once as one segment and once as one and four. -/
theorem emitted_depends_on_segments :
    streamBytes [segment [1, 2, 3, 4, 5] (by decide) (by decide)] =
        streamBytes [segment [1] (by decide) (by decide),
          segment [2, 3, 4, 5] (by decide) (by decide)] ∧
      emitted (fun _ => .ERR_OK) [segment [1, 2, 3, 4, 5] (by decide) (by decide)] ≠
        emitted (fun _ => .ERR_OK) [segment [1] (by decide) (by decide),
          segment [2, 3, 4, 5] (by decide) (by decide)] := by
  refine ⟨by decide, ?_⟩
  rw [emitted_eq, emitted_eq]
  decide

end SeqDetect.Server
