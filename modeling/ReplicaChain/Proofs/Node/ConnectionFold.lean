import ReplicaChain.Node.Startup
import ReplicaChain.Proofs.Node.Answering
import ReplicaChain.Proofs.Wire.RoundTrip

/-!
# A connection is a fold over its frames

What a node does with a connection is what it does with the frames of the connection one after
another, each handled alone on the node that the frames before it left behind.  Where one frame ends
and the next begins is decided by decoding alone: no cut of the stream shows, and no packet takes a
byte of its successor.  The bytes after the last frame decide only how the connection ends.
-/

namespace ReplicaChain

open Wire (Packet)

variable {ω σ : Type}

/-! ## What handling leaves alone -/

/-- The part of a node that is kept by the connection itself and not by the handling of packets. -/
def Node.ledger (n : Node ω σ) : Latency.Collector × Shutdown × Nat :=
  (n.collector, n.shutdown, n.packetsReceived)

namespace Handling

theorem ledger_perform (env : Environment ω σ) (x : Handling ω σ) :
    (x.perform env).2.node.ledger = x.node.ledger := by
  unfold perform
  split
  · rfl
  · split <;> rfl

theorem ledger_stream (now : Int64) (b : ByteArray) (x : Handling ω σ) :
    (x.stream now b).2.node.ledger = x.node.ledger := by
  unfold stream
  dsimp only
  split <;> rfl

theorem ledger_operate (env : Environment ω σ) (x : Handling ω σ) :
    (x.operate env).2.node.ledger = x.node.ledger := by
  rcases operate_cases env x with ⟨fault, h⟩ | ⟨a, h⟩ | ⟨a, h⟩ <;> rw [h]
  · exact ledger_perform env x
  · rw [ledger_stream, ledger_perform]
  · exact ledger_perform env x

theorem ledger_send (env : Environment ω σ) (x : Handling ω σ) :
    (x.send env).2.node.ledger = x.node.ledger := by
  unfold send
  dsimp only
  split
  · rfl
  · split <;> rfl

theorem ledger_receive (env : Environment ω σ) (x : Handling ω σ) :
    (x.receive env).2.node.ledger = x.node.ledger := by
  unfold receive
  dsimp only
  split
  · rfl
  · split <;> rfl

theorem ledger_conclude (env : Environment ω σ) (fault : Option Fault) (x : Handling ω σ) :
    (x.conclude env fault).node.ledger = x.node.ledger := by
  unfold conclude
  split
  · exact ledger_receive env x
  · rfl

theorem ledger_process (env : Environment ω σ) (x : Handling ω σ) :
    (x.process env).2.node.ledger = x.node.ledger := by
  rcases process_cases env x with
    hp | ⟨fault, hp⟩ | ⟨addresses, -, hp | ⟨fault, y, hs, hp⟩ | ⟨y, hs, hp⟩⟩ <;> rw [hp]
  · exact ledger_operate env x
  · rfl
  · exact ledger_operate env (x.resolved addresses)
  · calc
      (y.finish env false).node.ledger = ((x.resolved addresses).send env).2.node.ledger := by
        rw [hs]; rfl
      _ = x.node.ledger := ledger_send env _
  · calc
      _ = y.node.ledger := (ledger_conclude env _ _).trans (ledger_operate env y)
      _ = ((x.resolved addresses).send env).2.node.ledger := by rw [hs]
      _ = x.node.ledger := ledger_send env _

theorem stopTimer_onto (k : Sink) (elapsed : Latency.Duration) (x : Handling ω σ) :
    (x.onto k).stopTimer elapsed = (x.stopTimer elapsed).onto k := by
  unfold stopTimer onto
  dsimp only
  split <;> rfl

theorem Answers.stopTimer {p : Packet} {x : Handling ω σ} (h : x.Answers p)
    (elapsed : Latency.Duration) : (x.stopTimer elapsed).Answers p := by
  unfold Handling.stopTimer
  split <;> exact h

theorem packetsReceived_stopTimer (elapsed : Latency.Duration) (x : Handling ω σ) :
    (x.stopTimer elapsed).node.packetsReceived = x.node.packetsReceived := by
  unfold stopTimer
  split <;> rfl

end Handling

namespace Node

/-! ## One packet -/

def countFailure (n : Node ω σ) : Node ω σ :=
  { n with packetsFailed := n.packetsFailed + 1 }

@[simp]
theorem packetsFailed_countFailure (n : Node ω σ) :
    n.countFailure.packetsFailed = n.packetsFailed + 1 := rfl

@[simp]
theorem packetsReceived_countFailure (n : Node ω σ) :
    n.countFailure.packetsReceived = n.packetsReceived := rfl

/-- Handling a packet does something to the node, the same for every client, counts the packet, and then
writes the whole response at once.  If the client refuses any of it, the packet is counted as failed. -/
theorem exists_handle_eq_write (env : Environment ω σ) (p : Packet) (n : Node ω σ) :
    ∃ m out, m.packetsReceived = n.packetsReceived + 1 ∧ ∀ k : Sink, handle env p n k =
      match k.write out with
      | (.ok _, k') => (none, m, k')
      | (.error fault, k') => (some fault, m.countFailure, k') := by
  let x : Handling ω σ := (⟨.ofPacket p, n.begin, .unbounded⟩ : Handling ω σ).startTimer env.cluster
  obtain ⟨out, y, y', hprocess⟩ := Handling.emits_process env x
  have hy : x.process env = (none, y.onto (Sink.unbounded.append out)) := hprocess.eq_write .unbounded
  have hanswers : y.Answers p := Handling.answers_process hy
  obtain ⟨out', hreply⟩ := Handling.emits_reply (hanswers.stopTimer env.elapsed)
  let m := (y.stopTimer env.elapsed).node
  refine ⟨m.finish.setBuffers (m.forwarder.buffers.release p.data), out ++ out', ?_, fun k ↦ ?_⟩
  · calc
      _ = y.node.packetsReceived := Handling.packetsReceived_stopTimer env.elapsed y
      _ = (x.process env).2.node.ledger.2.2 := by rw [hy]; rfl
      _ = n.packetsReceived + 1 := by rw [Handling.ledger_process]; rfl
  · have hx : (⟨.ofPacket p, n.begin, k⟩ : Handling ω σ).startTimer env.cluster = x.onto k := rfl
    rw [Sink.write_append]
    unfold handle
    simp only [hx, hprocess.eq_write k]
    rcases k.write out with ⟨fault | _, k'⟩
    · have hnode : (y'.stopTimer env.elapsed).node = m := by
        simp only [Handling.stopTimer, hprocess.timer_eq, hprocess.node_eq, m]
        split <;> simp only [hprocess.node_eq]
      dsimp only
      simp only [Handling.stopTimer_onto]
      rw [← hnode]
      rfl
    · simp only [Handling.stopTimer_onto, hreply.eq_write k']
      rcases k'.write out' with ⟨fault | _, k''⟩ <;> rfl

/-- For a client that takes everything, handling a packet adds bytes to the output that do not depend
on the output before, leaves no fault, and counts one packet. -/
theorem exists_handle_eq (env : Environment ω σ) (p : Packet) (n : Node ω σ) :
    ∃ m out, m.packetsReceived = n.packetsReceived + 1 ∧
      ∀ k : Sink, k.room = none → handle env p n k = (none, m, k.append out) := by
  obtain ⟨m, out, hcount, hh⟩ := exists_handle_eq_write env p n
  exact ⟨m, out, hcount, fun k hk ↦ by rw [hh, Sink.write_of_room_eq_none hk]⟩

/-! ## One turn of the loop -/

theorem serve_of_error {env : Environment ω σ} {n : Node ω σ} {s rest : Source} {k : Sink}
    {fault : Fault} {buffers : BufferPool}
    (hd : Packet.decode n.forwarder.buffers s = (.error fault, buffers, rest)) :
    serve env n s k =
      (if fault.isEndOfStream then none else some fault, n.setBuffers buffers, k) := by
  rw [serve]
  split <;> simp_all

theorem serve_of_ok {env : Environment ω σ} {n m : Node ω σ} {s rest : Source} {k k' : Sink}
    {p : Packet} {buffers : BufferPool}
    (hd : Packet.decode n.forwarder.buffers s = (.ok p, buffers, rest))
    (hh : handle env p (n.setBuffers buffers) k = (none, m, k')) :
    serve env n s k = serve env m rest k' := by
  rw [serve]
  split
  · simp_all
  · rename_i hd'
    obtain ⟨⟨rfl⟩, rfl, rfl⟩ := by simpa [hd] using hd'
    simp [hh]

theorem serve_of_unwritten {env : Environment ω σ} {n m : Node ω σ} {s rest : Source} {k k' : Sink}
    {p : Packet} {buffers : BufferPool} {fault : Fault}
    (hd : Packet.decode n.forwarder.buffers s = (.ok p, buffers, rest))
    (hh : handle env p (n.setBuffers buffers) k = (some fault, m, k')) :
    serve env n s k = (some fault, m, k') := by
  rw [serve]
  split
  · simp_all
  · rename_i hd'
    obtain ⟨⟨rfl⟩, rfl, rfl⟩ := by simpa [hd] using hd'
    simp [hh]

@[simp]
theorem packetsReceived_setBuffers (buffers : BufferPool) (n : Node ω σ) :
    (n.setBuffers buffers).packetsReceived = n.packetsReceived := rfl

/-! ## The fold -/

/-- What a node does with one frame: the node afterwards and the bytes of the response. -/
def answerFrame (env : Environment ω σ) (n : Node ω σ) (frame : ByteArray) :
    Node ω σ × ByteArray :=
  match Packet.decode n.forwarder.buffers (.ofBytes frame) with
  | (.error _, buffers, _) => (n.setBuffers buffers, .empty)
  | (.ok p, buffers, _) =>
    let handled := handle env p (n.setBuffers buffers) .unbounded
    (handled.2.1, handled.2.2.written)

/-- What a node does with a list of frames, each on the node that the frames before it left. -/
def answerFrames (env : Environment ω σ) : Node ω σ → List ByteArray → Node ω σ × ByteArray
  | n, [] => (n, .empty)
  | n, frame :: frames =>
    let first := answerFrame env n frame
    let others := answerFrames env first.1 frames
    (others.1, first.2 ++ others.2)

theorem packetsReceived_answerFrame (env : Environment ω σ) (n : Node ω σ) {frame : ByteArray}
    {p : Packet} (hf : Packet.IsFrame frame p) :
    (answerFrame env n frame).1.packetsReceived = n.packetsReceived + 1 := by
  obtain ⟨buffers, rest, hd, -⟩ := hf.decode n.forwarder.buffers
  obtain ⟨m, out, hcount, hh⟩ := exists_handle_eq env p (n.setBuffers buffers)
  rw [answerFrame, hd]
  simp only [hh .unbounded rfl]
  exact hcount

/-- A stream that begins with a frame is served by answering the frame and writing the response.  If the
client takes it, the rest is served, and otherwise that is the end. -/
theorem serve_eq_write (env : Environment ω σ) (n : Node ω σ) {s : Source} {frame t : ByteArray}
    {p : Packet} (hf : Packet.IsFrame frame p) (hs : s.bytes = frame ++ t) :
    ∃ rest : Source, rest.bytes = t ∧ rest.ending = s.ending ∧ ∀ k : Sink,
      serve env n s k =
        match k.write (answerFrame env n frame).2 with
        | (.ok _, k') => serve env (answerFrame env n frame).1 rest k'
        | (.error fault, k') => (some fault, (answerFrame env n frame).1.countFailure, k') := by
  obtain ⟨buffers, rest, hd, hrest⟩ := hf.decode n.forwarder.buffers
  have hx : (Source.ofBytes frame).Extends t s.ending s := ⟨by rw [hs, Source.bytes_ofBytes], rfl⟩
  obtain ⟨rest', hd', hrest'⟩ := Packet.decode_extends hx hd
  obtain ⟨m, out, -, hh⟩ := exists_handle_eq_write env p (n.setBuffers buffers)
  have hunbounded : handle env p (n.setBuffers buffers) .unbounded =
      (none, m, Sink.unbounded.append out) := hh .unbounded
  have ha : answerFrame env n frame = (m, out) := by
    rw [answerFrame, hd]
    simp only [hunbounded]
    simp [Sink.append, Sink.unbounded]
  refine ⟨rest', ?_, hrest'.ending_eq, fun k ↦ ?_⟩
  · rw [hrest'.bytes_eq, hrest, ByteArray.empty_append]
  · have hk := hh k
    rw [ha]
    dsimp only
    rcases hw : k.write out with ⟨fault | _, k'⟩ <;> rw [hw] at hk
    · exact serve_of_unwritten hd' hk
    · exact serve_of_ok hd' hk

/-- A stream that begins with a frame is served by answering the frame and then serving the rest. -/
theorem serve_of_isFrame (env : Environment ω σ) (n : Node ω σ) {s : Source} {k : Sink}
    {frame t : ByteArray} {p : Packet} (hf : Packet.IsFrame frame p)
    (hs : s.bytes = frame ++ t) (hk : k.room = none) :
    ∃ rest : Source, rest.bytes = t ∧ rest.ending = s.ending ∧
      serve env n s k = serve env (answerFrame env n frame).1 rest
        (k.append (answerFrame env n frame).2) := by
  obtain ⟨rest, hbytes, hending, hserve⟩ := serve_eq_write env n hf hs
  exact ⟨rest, hbytes, hending, by rw [hserve, Sink.write_of_room_eq_none hk]⟩

/-- Frames at the front of a stream are answered one after another, and then the rest is served. -/
theorem serve_of_frames (env : Environment ω σ) (n : Node ω σ) {s : Source} {k : Sink}
    {frames : List ByteArray} {t : ByteArray}
    (hframes : ∀ frame ∈ frames, ∃ p, Packet.IsFrame frame p)
    (hs : s.bytes = Source.join frames ++ t) (hk : k.room = none) :
    ∃ rest : Source, rest.bytes = t ∧ rest.ending = s.ending ∧
      serve env n s k = serve env (answerFrames env n frames).1 rest
        (k.append (answerFrames env n frames).2) ∧
      (answerFrames env n frames).1.packetsReceived = n.packetsReceived + frames.length := by
  induction frames generalizing n s k with
  | nil => exact ⟨s, by simpa using hs, rfl, by simp [answerFrames]⟩
  | cons frame frames ih =>
    obtain ⟨p, hp⟩ := hframes frame (by simp)
    have hsplit : s.bytes = frame ++ (Source.join frames ++ t) := by
      rw [hs, Source.join_cons, ByteArray.append_assoc]
    obtain ⟨s', hbytes, hending, hfirst⟩ := serve_of_isFrame env n hp hsplit hk
    have hcount := packetsReceived_answerFrame env n hp
    obtain ⟨rest, hrest, hend, hothers, hcounts⟩ :=
      ih (answerFrame env n frame).1 (k := k.append (answerFrame env n frame).2)
        (fun b hb ↦ hframes b (by simp [hb])) hbytes (by simpa using hk)
    refine ⟨rest, hrest, by rw [hend, hending], ?_, ?_⟩
    · rw [hfirst, hothers, Sink.append_append]
      rfl
    · rw [List.length_cons]
      simp only [answerFrames]
      omega

/-- A beginning of a frame that is not the whole frame is refused as the stream ends. -/
theorem decode_of_begins_frame {frame a b : ByteArray} {p : Packet} (hf : Packet.IsFrame frame p)
    (hsplit : frame = a ++ b) (hb : b ≠ .empty) (pool : BufferPool) (ending : Ending) :
    (Packet.decode pool ⟨[a], ending⟩).1 = .error ending.fault := by
  obtain ⟨pool', rest, hd, hrest⟩ := hf.decode pool
  have hx : (⟨[a], ending⟩ : Source).Extends b .closed (.ofBytes frame) :=
    ⟨by rw [Source.bytes_ofBytes, hsplit]; simp [Source.bytes], rfl⟩
  exact Packet.decode_of_prefix hx (mt ByteArray.size_eq_zero_iff.mp hb) hd (by simp [hrest])

/-- A connection whose bytes are frames followed by something that is refused is served frame by
frame, however the bytes are cut.  The node counts one packet for every frame, and what follows the
frames, be it nothing or the beginning of a frame, decides how the connection ends and nothing else.
No packet that was read ends it. -/
theorem serve_eq_answerFrames (env : Environment ω σ) (n : Node ω σ) {frames pieces : List ByteArray}
    {t : ByteArray} {ending : Ending} {pool : BufferPool} {fault : Fault} {k : Sink}
    (hframes : ∀ frame ∈ frames, ∃ p, Packet.IsFrame frame p)
    (hpieces : Source.join pieces = Source.join frames ++ t)
    (htail : (Packet.decode pool ⟨[t], ending⟩).1 = .error fault) (hk : k.room = none) :
    let answered := answerFrames env n frames
    let buffers := (Packet.decode answered.1.forwarder.buffers ⟨[t], ending⟩).2.1
    serve env n ⟨pieces, ending⟩ k =
        (if fault.isEndOfStream then none else some fault, answered.1.setBuffers buffers,
          k.append answered.2) ∧
      answered.1.packetsReceived = n.packetsReceived + frames.length ∧
      (∀ frame p a b, Packet.IsFrame frame p → frame = a ++ b → b ≠ .empty →
        (Packet.decode pool ⟨[a], ending⟩).1 = .error ending.fault) ∧
      ∀ p m, (handle env p m k).1 = none := by
  intro answered buffers
  obtain ⟨rest, hbytes, hending, hserve, hcount⟩ :=
    serve_of_frames env n (s := ⟨pieces, ending⟩) hframes hpieces hk
  have hsame : Source.Same ⟨[t], ending⟩ rest :=
    ⟨by rw [hbytes]; simp [Source.bytes], hending⟩
  obtain ⟨hresult, hpool, -⟩ := Packet.decode_same answered.1.forwarder.buffers hsame
  have hfault : (Packet.decode answered.1.forwarder.buffers rest).1 = .error fault := by
    rw [hresult, (Packet.decode_pool _ pool _).1, htail]
  have hrefused : Packet.decode answered.1.forwarder.buffers rest =
      (.error fault, buffers, (Packet.decode answered.1.forwarder.buffers rest).2.2) :=
    Prod.ext hfault (Prod.ext hpool rfl)
  refine ⟨?_, hcount, fun frame p a b hf hsplit hb ↦ ?_, fun p m ↦ ?_⟩
  · rw [hserve, serve_of_error hrefused]
  · exact decode_of_begins_frame hf hsplit hb pool ending
  · obtain ⟨m', out, -, hhandle⟩ := exists_handle_eq env p m
    rw [hhandle k hk]

/-- A request that arrives in two pieces, after which the client closes the stream, is one packet. -/
theorem serve_createExtent_cut :
    let served := serve (environment {} .unreachable 0) (ofSettings {} ())
      ⟨[Bytes.take 10 (Packet.createExtent 0 1 1 1).frame,
        Bytes.drop 10 (Packet.createExtent 0 1 1 1).frame], .closed⟩ .unbounded
    served.1 = none ∧ served.2.1.packetsReceived = 1 := by
  have hfits : (Packet.createExtent 0 1 1 1).Fits :=
    ⟨⟨rfl, rfl⟩, by decide, by decide, by decide, by decide⟩
  have hframes : ∀ frame ∈ [(Packet.createExtent 0 1 1 1).frame], ∃ p, Packet.IsFrame frame p := by
    intro frame hframe
    rw [List.mem_singleton.mp hframe]
    exact hfits.exists_isFrame
  have hpieces : Source.join [Bytes.take 10 (Packet.createExtent 0 1 1 1).frame,
      Bytes.drop 10 (Packet.createExtent 0 1 1 1).frame] =
      Source.join [(Packet.createExtent 0 1 1 1).frame] ++ .empty := by
    simp [Bytes.take_append_drop]
  have htail : (Packet.decode .standard ⟨[.empty], .closed⟩).1 = .error Ending.closed.fault := rfl
  have hk : Sink.unbounded.room = none := rfl
  obtain ⟨hserve, hcount, -⟩ := serve_eq_answerFrames (environment {} .unreachable 0)
    (ofSettings {} ()) hframes hpieces htail hk
  constructor
  · rw [hserve]
    rfl
  · rw [hserve, packetsReceived_setBuffers, hcount]
    rfl

end Node

end ReplicaChain
