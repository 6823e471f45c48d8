import XiaoNet.Utils.MsgBufferSpec

/-!
# A `MsgBuffer` that is filled when it is empty

The nodes that read ahead fill their buffer only once all its bytes have been retrieved. Such a
buffer never grows: `Chunked cap` is what holds of it, and the lemmas say what filling and
retrieving make of it.
-/

namespace XiaoNet

namespace MsgBuffer

/-- A buffer of capacity `cap`, with all its room when it is empty. -/
structure Chunked (cap : Nat) (b : MsgBuffer) : Prop where
  wf : b.WellFormed
  initCap_eq : b.initCap = cap
  length_eq : b.buffer.length = cap + kBufferOffset
  front : b.contents = [] → b.head = kBufferOffset

variable {b : MsgBuffer} {cap : Nat}

theorem chunked_fresh (h : cap + kBufferOffset ≤ vectorMaxSize) : Chunked cap (fresh cap) where
  wf := fresh_wellFormed h
  initCap_eq := rfl
  length_eq := length_fresh cap
  front := fun _ => rfl

theorem WellFormed.tail_eq (h : b.WellFormed) (hempty : b.contents = []) : b.tail = b.head := by
  have hlen := h.length_contents
  rw [hempty, List.length_nil] at hlen
  have hle := h.head_le
  omega

theorem Chunked.readableBytes_eq (h : Chunked cap b) (hempty : b.contents = []) :
    b.readableBytes = 0 := by
  rw [← h.wf.length_contents_eq, hempty, List.length_nil]

/-- The room of an empty buffer. -/
theorem Chunked.writableBytes_eq (h : Chunked cap b) (hempty : b.contents = []) :
    b.writableBytes = cap := by
  rw [h.wf.writableBytes_eq, h.wf.tail_eq hempty, h.front hempty, h.length_eq,
    Nat.add_sub_cancel]

/-- There is room already. -/
theorem Chunked.ensureWritableBytes_eq (h : Chunked cap b) (hempty : b.contents = []) {len : Nat}
    (hlen : len ≤ cap) : b.ensureWritableBytes len = .ok b := by
  refine ensureWritableBytesAux_room h.wf (h.front hempty) ?_ 3
  rw [← h.wf.writableBytes_eq, h.writableBytes_eq hempty]
  exact hlen

theorem Chunked.hasWritten (h : Chunked cap b) (hempty : b.contents = []) {data : List Byte}
    (hne : data ≠ []) (hlen : data.length ≤ cap) :
    ∃ b', b.hasWritten data = .ok b' ∧ Chunked cap b' ∧ b'.contents = data := by
  have hw := h.writableBytes_eq hempty
  have hroom : data.length ≤ b.buffer.length - b.tail := by
    rw [← h.wf.writableBytes_eq, hw]
    exact hlen
  obtain ⟨buffer, hstore, hbec⟩ := store_tail h.wf data hroom
  have hcontents := hbec.contents
  rw [hempty, List.nil_append] at hcontents
  have hbuffer := length_of_store hstore
  refine ⟨_, ?_, ⟨hbec.wf, h.initCap_eq, hbuffer.trans h.length_eq, fun hnil => ?_⟩, hcontents⟩
  · rw [MsgBuffer.hasWritten, if_pos (by rw [hw]; exact hlen), hstore, ok_bind]
  · exact absurd (hcontents.symm.trans hnil) hne

/-- A buffer of 8 bytes or more is not shrunk when it is emptied. -/
theorem Chunked.retrieve (h : Chunked cap b) {n : Nat}
    (hcap : b.contents.length ≤ n → kBufferOffset ≤ cap) :
    Chunked cap (b.retrieve n) ∧ (b.retrieve n).contents = b.contents.drop n := by
  have hlen := h.wf.length_contents_eq
  rw [hlen] at hcap
  have hbec := retrieve_spec h.wf (n := n) fun hall => .inr (h.initCap_eq ▸ hcap hall)
  refine ⟨?_, hbec.contents⟩
  by_cases hall : n ≥ b.readableBytes
  · have hsize : ¬ b.buffer.length > mulSize b.initCap 2 := by
      have hcap := hcap hall
      rw [h.wf.mulSize_initCap, h.length_eq, h.initCap_eq]
      omega
    have heq : b.retrieve n = { b with tail := kBufferOffset, head := kBufferOffset } := by
      rw [MsgBuffer.retrieve, if_pos hall, retrieveAll, if_neg hsize]
    rw [heq] at hbec ⊢
    exact ⟨hbec.wf, h.initCap_eq, h.length_eq, fun _ => rfl⟩
  · have heq : b.retrieve n = { b with head := addSize b.head n } := by
      rw [MsgBuffer.retrieve, if_neg hall]
    have hleft : b.contents.drop n ≠ [] := by
      intro hnil
      have hdrop := congrArg List.length hnil
      rw [List.length_drop, hlen, List.length_nil] at hdrop
      omega
    have hcontents := hbec.contents
    rw [heq] at hbec hcontents ⊢
    exact ⟨hbec.wf, h.initCap_eq, h.length_eq, fun hnil => absurd (hcontents.symm.trans hnil) hleft⟩

end MsgBuffer

end XiaoNet
