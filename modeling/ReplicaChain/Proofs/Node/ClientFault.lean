import ReplicaChain.Proofs.Node.ConnectionFold

/-!
# A client that stops listening

What is written on a connection is one byte string, whatever the packets and wherever their responses end.
So a client that takes only so many bytes sees the beginning of what it would have seen otherwise.  The packet
whose response is cut has been handled as if nothing were wrong, it is counted as failed, and it is the last
one.
-/

namespace ReplicaChain

open Wire (Packet)

variable {ω σ : Type}

/-! ## Sinks that fill up -/

namespace Sink

/-- A sink that accepts so many bytes and refuses all others. -/
def accepting (limit : Nat) (refusal : IoFault) : Sink :=
  ⟨.empty, some limit, refusal⟩

theorem write_accepting (limit : Nat) (refusal : IoFault) (b : ByteArray) :
    (accepting limit refusal).write b =
      if b.size ≤ limit then (.ok (), ⟨b, some (limit - b.size), refusal⟩)
      else (.error (.io refusal), ⟨Bytes.take limit b, some 0, refusal⟩) := by
  simp only [write, accepting, ByteArray.empty_append]

end Sink

namespace Node

variable {n : Node ω σ} {s : Source} {frames : List ByteArray} {t : ByteArray}

/-- Frames at the front of a stream are answered one after another up to the first response that the client
does not take to its end.  All responses together are written as one byte string. -/
theorem serve_frames_eq_write (env : Environment ω σ) (n : Node ω σ)
    (hframes : ∀ frame ∈ frames, ∃ p, Packet.IsFrame frame p)
    (hs : s.bytes = Source.join frames ++ t) :
    ∃ rest : Source, rest.bytes = t ∧ rest.ending = s.ending ∧ ∀ k : Sink,
      match k.write (answerFrames env n frames).2 with
      | (.ok _, k') => serve env n s k = serve env (answerFrames env n frames).1 rest k'
      | (.error fault, k') =>
        ∃ i < frames.length,
          (k.write (answerFrames env n (frames.take i)).2).1 = .ok () ∧
          (k.write (answerFrames env n (frames.take (i + 1))).2).1 = .error fault ∧
          serve env n s k =
            (some fault, (answerFrames env n (frames.take (i + 1))).1.countFailure, k') := by
  induction frames generalizing n s with
  | nil =>
    refine ⟨s, by simpa using hs, rfl, fun k ↦ ?_⟩
    simp [answerFrames]
  | cons frame frames ih =>
    obtain ⟨p, hp⟩ := hframes frame (by simp)
    have hsplit : s.bytes = frame ++ (Source.join frames ++ t) := by
      rw [hs, Source.join_cons, ByteArray.append_assoc]
    obtain ⟨s', hbytes, hending, hfirst⟩ := serve_eq_write env n hp hsplit
    obtain ⟨rest, hrest, hend, hothers⟩ :=
      ih (answerFrame env n frame).1 (fun b hb ↦ hframes b (by simp [hb])) hbytes
    refine ⟨rest, hrest, hend.trans hending, fun k ↦ ?_⟩
    have hserve := hfirst k
    simp only [answerFrames, Sink.write_append]
    rcases hw : k.write (answerFrame env n frame).2 with ⟨fault | _, k₁⟩ <;> rw [hw] at hserve
    · refine ⟨0, Nat.zero_lt_succ _, ?_, ?_, hserve⟩
      · simp [answerFrames]
      · simp [answerFrames, hw]
    · have hlater := hothers k₁
      dsimp only at hserve ⊢
      rw [hserve]
      rcases hw' : k₁.write (answerFrames env (answerFrame env n frame).1 frames).2 with
        ⟨fault | _, k₂⟩ <;> rw [hw'] at hlater
      · obtain ⟨i, hi, hbefore, hcut, hbroken⟩ := hlater
        refine ⟨i + 1, Nat.succ_lt_succ hi, ?_, ?_, hbroken⟩
        · simp only [List.take_succ_cons, answerFrames, Sink.write_append, hw]
          exact hbefore
        · simp only [List.take_succ_cons, answerFrames, Sink.write_append, hw]
          exact hcut
      · exact hlater

/-- Nothing is done with a stream that has no bytes left. -/
theorem serve_of_bytes_eq_empty (env : Environment ω σ) (n : Node ω σ) (hs : s.bytes = .empty) :
    ∃ fault buffers, ∀ k, serve env n s k = (fault, n.setBuffers buffers, k) := by
  rcases hd : Packet.decode n.forwarder.buffers s with ⟨fault | p, buffers, rest⟩
  · exact ⟨_, buffers, fun k ↦ serve_of_error hd⟩
  · have hsize := Packet.size_of_decode hd
    rw [← Source.size_bytes, ← Source.size_bytes, hs, ByteArray.size_empty, Wire.Header.byteSize] at hsize
    omega

/-- What a client that takes everything gets of the first frames of a stream. -/
theorem exists_serve_take (env : Environment ω σ) (n : Node ω σ)
    (hframes : ∀ frame ∈ frames, ∃ p, Packet.IsFrame frame p) (i : Nat) :
    ∃ fault buffers, serve env n ⟨frames.take i, .closed⟩ .unbounded =
        (fault, (answerFrames env n (frames.take i)).1.setBuffers buffers,
          Sink.unbounded.append (answerFrames env n (frames.take i)).2) ∧
      (answerFrames env n (frames.take i)).1.packetsReceived =
        n.packetsReceived + (frames.take i).length := by
  have htail : (Packet.decode .standard ⟨[.empty], .closed⟩).1 = .error Ending.closed.fault := rfl
  obtain ⟨hserve, hcount, -⟩ := serve_eq_answerFrames env n
    (fun b hb ↦ hframes b (List.mem_of_mem_take hb)) ByteArray.append_empty.symm htail
    (show Sink.unbounded.room = none from rfl)
  exact ⟨_, _, hserve, hcount⟩

/-- A client that takes only so many bytes makes no difference if all responses together have no more.
Otherwise it gets the beginning of what it would have got, and the connection ends with the fault of its
stream.  There is one packet then whose response was cut: the responses before it fit, and with its own they
do not.  Everything up to this packet has been handled as it would have been, nothing after it has, and the
node has counted one failure more. -/
theorem serve_accepting (env : Environment ω σ) (n : Node ω σ) {pieces : List ByteArray}
    {ending : Ending} (limit : Nat) (refusal : IoFault)
    (hframes : ∀ frame ∈ frames, ∃ p, Packet.IsFrame frame p)
    (hpieces : Source.join pieces = Source.join frames) :
    let free := serve env n ⟨pieces, ending⟩ .unbounded
    let cut := serve env n ⟨pieces, ending⟩ (.accepting limit refusal)
    let first (i : Nat) := serve env n ⟨frames.take i, .closed⟩ .unbounded
    (free.2.2.written.size ≤ limit →
      cut.1 = free.1 ∧ cut.2.1 = free.2.1 ∧ cut.2.2.written = free.2.2.written) ∧
    (limit < free.2.2.written.size →
      cut.1 = some (.io refusal) ∧ cut.2.2.written = Bytes.take limit free.2.2.written ∧
      ∃ i < frames.length,
        (first i).2.2.written.size ≤ limit ∧ limit < (first (i + 1)).2.2.written.size ∧
        cut.2.1.store = (first (i + 1)).2.1.store ∧
        cut.2.1.packetsReceived = n.packetsReceived + (i + 1) ∧
        ∃ buffers, cut.2.1 = ((first (i + 1)).2.1.setBuffers buffers).countFailure) := by
  intro free cut first
  have hwritten (b : ByteArray) : (Sink.unbounded.append b).written = b := ByteArray.empty_append
  obtain ⟨rest, hbytes, -, hserve⟩ := serve_frames_eq_write env n (s := ⟨pieces, ending⟩) hframes
    (t := .empty) (by rw [ByteArray.append_empty]; exact hpieces)
  obtain ⟨fault, buffers, hend⟩ := serve_of_bytes_eq_empty env (answerFrames env n frames).1 hbytes
  have hfree : free = (fault, (answerFrames env n frames).1.setBuffers buffers,
      Sink.unbounded.append (answerFrames env n frames).2) :=
    (hserve .unbounded).trans (hend _)
  have hcut := hserve (.accepting limit refusal)
  rw [Sink.write_accepting] at hcut
  rw [hfree, hwritten]
  refine ⟨fun hfits ↦ ?_, fun hshort ↦ ?_⟩
  · rw [if_pos hfits] at hcut
    have hcut' : cut = (fault, (answerFrames env n frames).1.setBuffers buffers,
        ⟨(answerFrames env n frames).2, some (limit - (answerFrames env n frames).2.size), refusal⟩) :=
      hcut.trans (hend _)
    rw [hcut']
    exact ⟨rfl, rfl, rfl⟩
  · rw [if_neg (Nat.not_le.mpr hshort)] at hcut
    obtain ⟨i, hi, hbefore, hbroken, hcut⟩ := hcut
    obtain ⟨_, _, hbefore', -⟩ := exists_serve_take env n hframes i
    obtain ⟨_, _, hafter', hcount⟩ := exists_serve_take env n hframes (i + 1)
    have hcut' : cut = _ := hcut
    rw [hcut']
    refine ⟨rfl, rfl, i, hi, ?_⟩
    simp only [first, hbefore', hafter', hwritten]
    refine ⟨Nat.le_of_not_lt fun hlarge ↦ ?_, Nat.lt_of_not_le fun hsmall ↦ ?_, rfl, ?_, _, rfl⟩
    · simp [Sink.write_accepting, Nat.not_le.mpr hlarge] at hbefore
    · simp [Sink.write_accepting, hsmall] at hbroken
    · rw [List.length_take, Nat.min_eq_left (Nat.succ_le_of_lt hi)] at hcount
      exact hcount

/-- Two extents are created over one connection, and the second reply is cut after five bytes. -/
theorem serve_accepting_second_reply :
    let frames := [(Packet.createExtent 0 1 1 1).frame, (Packet.createExtent 0 2 1 2).frame]
    let refusal : IoFault := ⟨.brokenPipe, "peer closed"⟩
    let cut := serve (environment {} .unreachable 0) (ofSettings {} ()) ⟨frames, .closed⟩
      (.accepting 70 refusal)
    cut.1 = some (.io refusal) ∧ cut.2.2.written.size = 70 ∧ cut.2.1.packetsReceived = 2 := by
  intro frames refusal cut
  let env : Environment Extent.Store Unit := environment {} .unreachable 0
  let n : Node Extent.Store Unit := ofSettings {} ()
  have hframes : ∀ frame ∈ frames, ∃ p, Packet.IsFrame frame p := by
    intro frame hframe
    simp only [frames, List.mem_cons, List.not_mem_nil, or_false] at hframe
    rcases hframe with rfl | rfl
    · exact Packet.Fits.exists_isFrame ⟨⟨rfl, rfl⟩, by decide, by decide, by decide, by decide⟩
    · exact Packet.Fits.exists_isFrame ⟨⟨rfl, rfl⟩, by decide, by decide, by decide, by decide⟩
  have hsize (i : Nat) : (serve env n ⟨frames.take i, .closed⟩ .unbounded).2.2.written.size =
      (answerFrames env n (frames.take i)).2.size := by
    obtain ⟨_, _, hserve, -⟩ := exists_serve_take env n hframes i
    rw [hserve]
    exact congrArg ByteArray.size ByteArray.empty_append
  have hone : (answerFrames env n (frames.take 1)).2.size = 65 := by decide +kernel
  have htwo : (answerFrames env n (frames.take 2)).2.size = 130 := by decide +kernel
  have hfree : (serve env n ⟨frames, .closed⟩ .unbounded).2.2.written.size = 130 :=
    (hsize 2).trans htwo
  have hshort : 70 < (serve env n ⟨frames, .closed⟩ .unbounded).2.2.written.size := by
    rw [hfree]
    decide
  obtain ⟨hfault, hwritten, i, hi, -, hcut, -, hreceived, -⟩ :=
    (serve_accepting env n 70 refusal hframes rfl).2 hshort
  refine ⟨hfault, ?_, ?_⟩
  · rw [show cut.2.2.written = _ from hwritten, Bytes.size_take, hfree]
    rfl
  · have hfits : ¬ 70 < (serve env n ⟨frames.take 1, .closed⟩ .unbounded).2.2.written.size := by
      rw [hsize, hone]
      decide
    have hpos : i ≠ 0 := by
      rintro rfl
      exact hfits hcut
    have hlt : i < 2 := hi
    obtain rfl : i = 1 := by omega
    exact hreceived

end Node

end ReplicaChain
