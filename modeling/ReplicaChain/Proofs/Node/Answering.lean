import ReplicaChain.Proofs.Node.Paths
import ReplicaChain.Proofs.Stream.Reading
import ReplicaChain.Proofs.Wire.Reply

/-!
# How a packet is answered

Handling a packet ends with a reply to it or with a fault of the client's stream, and with nothing
else.  The client's stream is otherwise out of sight: what is done to the node and what is written
does not depend on what was written before.  All that is written for a packet, be it one reply or the
frames of a streamed read, amounts to one write: a sink that refuses the rest of a byte string has taken
the same beginning of it, however it was cut.  A stream that takes everything therefore gets, for every
packet, bytes that only the packet and the node determine, and never causes a fault.
-/

namespace ReplicaChain

open Wire (Packet)

/-! ## Sinks -/

namespace Sink

def append (b : ByteArray) (k : Sink) : Sink :=
  { k with written := k.written ++ b }

@[simp]
theorem room_append (b : ByteArray) (k : Sink) : (k.append b).room = k.room := rfl

@[simp]
theorem append_empty (k : Sink) : k.append .empty = k := by
  simp [append]

@[simp]
theorem append_append (a b : ByteArray) (k : Sink) :
    (k.append a).append b = k.append (a ++ b) := by
  simp [append, ByteArray.append_assoc]

@[simp]
theorem write_empty (k : Sink) : k.write .empty = (.ok (), k) := by
  rcases k with ⟨written, _ | room, refusal⟩ <;> simp [write]

/-- Nothing is written after a refusal, so two writes are as good as one. -/
theorem write_append (a b : ByteArray) (k : Sink) :
    k.write (a ++ b) =
      match k.write a with
      | (.ok _, k') => k'.write b
      | (.error fault, k') => (.error fault, k') := by
  rcases k with ⟨written, _ | room, refusal⟩
  · simp only [write, ByteArray.append_assoc]
  have htake := Bytes.take_append room a b
  by_cases ha : a.size ≤ room
  · have hroom : a.size + b.size ≤ room ↔ b.size ≤ room - a.size := by omega
    rw [Bytes.take_of_size_le ha] at htake
    simp only [write, if_pos ha, hroom, htake, ByteArray.append_assoc, ByteArray.size_append,
      Nat.sub_add_eq]
  · have hroom : ¬ (a ++ b).size ≤ room := by
      rw [ByteArray.size_append]
      omega
    rw [Nat.sub_eq_zero_of_le (by omega), Bytes.take_zero, ByteArray.append_empty] at htake
    simp only [write, if_neg ha, if_neg hroom, htake]

theorem write_of_room_eq_none {k : Sink} (hk : k.room = none) (b : ByteArray) :
    k.write b = (.ok (), k.append b) := by
  simp [write, append, hk]

end Sink

namespace Handling

variable {ω σ : Type} {env : Environment ω σ} {x y : Handling ω σ} {p : Packet}

/-! ## The reply -/

/-- The packet of a handling has become a reply to `p`. -/
def Answers (p : Packet) (x : Handling ω σ) : Prop :=
  ∃ r b, x.request.packet = p.reply r b

theorem answers_fail (hx : x.request.packet = p) (action : Wire.Action) (fault : Fault) :
    (x.fail action fault).Answers p :=
  ⟨_, _, by rw [← hx]; rfl⟩

theorem Answers.fail (h : x.Answers p) (action : Wire.Action) (fault : Fault) :
    (x.fail action fault).Answers p := by
  obtain ⟨r, b, h⟩ := h
  obtain ⟨r', b', h'⟩ := answers_fail h action fault
  exact ⟨r', b', h'⟩

theorem result_fail_ne_ok (action : Wire.Action) (fault : Fault) (x : Handling ω σ) :
    (x.fail action fault).request.packet.header.result ≠ .ok :=
  Packet.faultCode_ne_ok action fault x.request.packet

theorem result_failForward_ne_ok (action : Wire.Action) (fault : Fault) (x : Handling ω σ) :
    (x.failForward action fault).request.packet.header.result ≠ .ok :=
  Packet.faultCode_ne_ok action fault x.request.packet

theorem answers_stream {now : Int64} {b : ByteArray} (hx : x.request.packet = p)
    (h : x.stream now b = (none, y)) : y.Answers p := by
  simp only [stream] at h
  split at h
  · simp at h
  · simp only [Prod.mk.injEq, true_and] at h
    subst h hx
    exact ⟨_, _, rfl⟩

theorem answers_operate (hx : x.request.packet = p) (h : x.operate env = (none, y)) :
    y.Answers p := by
  have hp : (x.perform env).2.request.packet = p := by rw [request_perform, hx]
  rcases operate_cases env x with ⟨fault, ho⟩ | ⟨a, ho⟩ | ⟨a, ho⟩ <;> rw [ho] at h
  · cases h
    exact answers_fail hp _ _
  · exact answers_stream hp h
  · cases h
    exact ⟨_, _, by rw [← hp]; rfl⟩

/-- Sending leaves the packet as it is or reports a fault. -/
theorem packet_send (h : x.send env = (none, y)) : y.request.packet = x.request.packet := by
  simp only [send] at h
  split at h
  · simp_all
  · split at h
    · simp only [Prod.mk.injEq, true_and] at h
      subst h
      rfl
    · simp at h

theorem answers_send {fault : Fault} (hx : x.request.packet = p)
    (h : x.send env = (some fault, y)) : y.Answers p := by
  simp only [send] at h
  split at h
  · simp at h
  · split at h
    · simp at h
    · simp only [Prod.mk.injEq] at h
      rw [← h.2, ← hx]
      exact ⟨_, _, rfl⟩

theorem Answers.receive (h : x.Answers p) (env : Environment ω σ) : (x.receive env).2.Answers p := by
  simp only [Handling.receive]
  split
  · exact h
  · split
    · exact h
    · exact Answers.fail h _ _

theorem Answers.conclude (h : x.Answers p) (env : Environment ω σ) (fault : Option Fault) :
    (x.conclude env fault).Answers p := by
  unfold Handling.conclude
  split
  · exact h.receive env
  · exact h

/-- Whatever is done with a packet ends in a reply to it, unless the client's stream fails. -/
theorem answers_process (h : x.process env = (none, y)) : y.Answers x.request.packet := by
  rcases process_cases env x with
    hp | ⟨fault, hp⟩ | ⟨addresses, -, hp | ⟨fault, z, hs, hp⟩ | ⟨z, hs, hp⟩⟩ <;> rw [hp] at h
  · exact answers_operate rfl h
  · cases h
    exact answers_fail rfl _ _
  · exact answers_operate (packet_resolved addresses) h
  · cases h
    have hz : z.Answers x.request.packet := answers_send (packet_resolved addresses) hs
    exact hz
  · obtain ⟨ho, rfl⟩ := Prod.mk.inj h
    exact (answers_operate (packet_send hs) (Prod.ext ho rfl)).conclude env _

/-! ## The client's stream -/

/-- The same handling for another client. -/
def onto (k : Sink) (x : Handling ω σ) : Handling ω σ :=
  { x with client := k }

theorem perform_onto (k : Sink) (env : Environment ω σ) (x : Handling ω σ) :
    (x.onto k).perform env = ((x.perform env).1, (x.perform env).2.onto k) := by
  simp only [perform, onto]
  split
  · rfl
  · split <;> rfl

theorem send_onto (k : Sink) (env : Environment ω σ) (x : Handling ω σ) :
    (x.onto k).send env = ((x.send env).1, (x.send env).2.onto k) := by
  by_cases hf : x.request.followers.isEmpty
  · rw [send, send, if_pos hf, if_pos (show (x.onto k).request.followers.isEmpty from hf)]
  · rw [send, send, if_neg hf, if_neg (show ¬ (x.onto k).request.followers.isEmpty from hf)]
    dsimp only [onto]
    generalize Follower.firstFault _ = fault
    cases fault <;> rfl

theorem receive_onto (k : Sink) (env : Environment ω σ) (x : Handling ω σ) :
    (x.onto k).receive env = ((x.receive env).1, (x.receive env).2.onto k) := by
  by_cases hf : x.request.followers.isEmpty
  · rw [receive, receive, if_pos hf, if_pos (show (x.onto k).request.followers.isEmpty from hf)]
  · rw [receive, receive, if_neg hf, if_neg (show ¬ (x.onto k).request.followers.isEmpty from hf)]
    dsimp only [onto]
    generalize Follower.firstFault _ = fault
    cases fault <;> rfl

theorem finish_onto (k : Sink) (env : Environment ω σ) (ok : Bool) (x : Handling ω σ) :
    (x.onto k).finish env ok = (x.finish env ok).onto k := rfl

theorem conclude_onto (k : Sink) (env : Environment ω σ) (fault : Option Fault)
    (x : Handling ω σ) : (x.onto k).conclude env fault = (x.conclude env fault).onto k := by
  have hr : (x.onto k).request = x.request := rfl
  unfold conclude
  rw [receive_onto, hr]
  cases fault.isNone && x.request.isOk <;> rfl

/-- The frames of a streamed answer, the first of which lies at `offset`. -/
def streamFrames (now : Int64) (request : Wire.Header) (offset : Int64) :
    List ByteArray → List Packet
  | [] => []
  | piece :: rest =>
    streamFrame now request offset piece ::
      streamFrames now request (offset + .ofInt piece.size) rest

/-- A frame of a streamed answer is a reply to a packet that lies where the piece lies. -/
theorem streamFrame_eq_reply (now : Int64) (request : Wire.Header) (offset : Int64)
    (piece : ByteArray) :
    ∃ q : Packet, streamFrame now request offset piece = q.reply .ok piece :=
  let q := Packet.streamReply now request.requestId request.partition request.extent
  ⟨{ q with header := { q.header with offset } }, rfl⟩

/-- The frames of a streamed answer are written as one byte string. -/
theorem streamTo_eq_write (now : Int64) (request : Wire.Header) (offset : Int64) (k : Sink)
    (pieces : List ByteArray) :
    streamTo now request offset k pieces =
      match k.write (Source.join ((streamFrames now request offset pieces).map Packet.frame)) with
      | (.ok _, k') => (none, k')
      | (.error fault, k') => (some fault, k') := by
  induction pieces generalizing offset k with
  | nil => simp [streamTo, streamFrames]
  | cons piece pieces ih =>
    obtain ⟨q, hq⟩ := streamFrame_eq_reply now request offset piece
    have hw : (streamFrame now request offset piece).writeTo k =
        k.write (streamFrame now request offset piece).frame := by
      rw [hq, Packet.writeTo, Packet.encode_reply]
    rw [streamTo, hw, streamFrames, List.map_cons, Source.join_cons, Sink.write_append]
    rcases k.write (streamFrame now request offset piece).frame with ⟨fault | _, k'⟩
    · rfl
    · exact ih _ k'

theorem streamTo_of_room_eq_none (now : Int64) (request : Wire.Header) (offset : Int64) {k : Sink}
    (hk : k.room = none) (pieces : List ByteArray) :
    streamTo now request offset k pieces =
      (none, k.append (Source.join ((streamFrames now request offset pieces).map Packet.frame))) := by
  rw [streamTo_eq_write, Sink.write_of_room_eq_none hk]

/-! ## One write for a packet -/

/-- A function on handlings that, begun at `x`, writes `out` to whatever client there is and ends in `y`.  It
may end in `y'` if the client refuses to take all of `out`, but what it does to the node is the same. -/
structure Emits (f : Handling ω σ → Option Fault × Handling ω σ) (x : Handling ω σ)
    (out : ByteArray) (y y' : Handling ω σ) : Prop where
  eq_write : ∀ k : Sink, f (x.onto k) =
    match k.write out with
    | (.ok _, k') => (none, y.onto k')
    | (.error fault, k') => (some fault, y'.onto k')
  node_eq : y'.node = y.node
  timer_eq : y'.request.timer = y.request.timer

theorem emits_empty {f : Handling ω σ → Option Fault × Handling ω σ}
    (h : ∀ k, f (x.onto k) = (none, y.onto k)) : Emits f x .empty y y :=
  ⟨fun k ↦ by rw [h, Sink.write_empty], rfl, rfl⟩

theorem emits_stream (now : Int64) (b : ByteArray) (x : Handling ω σ) :
    ∃ out y y', Emits (stream now b) x out y y' := by
  let h := x.request.packet.header
  let z := x.answer Packet.replyOk
  let out := Source.join ((streamFrames now h h.offset (streamPieces b)).map Packet.frame)
  refine ⟨out, { z with request := { z.request with needsReply := false } }, x, fun k ↦ ?_, rfl, rfl⟩
  have hs := streamTo_eq_write now h h.offset k (streamPieces b)
  simp only [stream, onto, h] at hs ⊢
  rw [hs]
  rcases k.write out with ⟨fault | _, k'⟩ <;> rfl

/-- The reply of a packet that is not a streamed read is left to be written. -/
theorem exists_operate_onto (hs : x.request.packet.header.opcode.streamsReply = false)
    (env : Environment ω σ) :
    ∃ y : Handling ω σ, ∀ k, (x.onto k).operate env = (none, y.onto k) := by
  have hz := request_perform env x
  rcases hp : x.perform env with ⟨fault | a, z⟩ <;> rw [hp] at hz
  · refine ⟨z.fail .operate fault, fun k ↦ ?_⟩
    exact operate_of_error (y := z.onto k) (by rw [perform_onto, hp])
  · refine ⟨z.answer (Packet.replyWith a.body), fun k ↦ ?_⟩
    exact operate_of_ok (y := z.onto k) (by rw [perform_onto, hp]) (by rw [← hz] at hs; exact hs)

theorem emits_operate (env : Environment ω σ) (x : Handling ω σ) :
    ∃ out y y', Emits (operate env) x out y y' := by
  cases hs : x.request.packet.header.opcode.streamsReply with
  | false =>
    obtain ⟨y, hy⟩ := exists_operate_onto hs env
    exact ⟨.empty, y, y, emits_empty hy⟩
  | true =>
    rcases hp : x.perform env with ⟨fault | a, z⟩
    · refine ⟨.empty, _, _, emits_empty (y := z.fail .operate fault) fun k ↦ ?_⟩
      exact operate_of_error (y := z.onto k) (by rw [perform_onto, hp])
    · have hz : z.request = x.request := by rw [← request_perform env x, hp]
      obtain ⟨out, y, y', hw⟩ := emits_stream env.now a.body z
      refine ⟨out, y, y', fun k ↦ ?_, hw.node_eq, hw.timer_eq⟩
      rw [operate_of_streamed (y := z.onto k) (by rw [perform_onto, hp]) (by rw [← hz] at hs; exact hs)]
      exact hw.eq_write k

/-- Only a streamed read writes to the client before the reply, and it is never relayed. -/
theorem emits_process (env : Environment ω σ) (x : Handling ω σ) :
    ∃ out y y', Emits (process env) x out y y' := by
  by_cases hm : x.request.isMasterCommand = true
  · have hm' (k : Sink) : (x.onto k).request.isMasterCommand = true := hm
    obtain ⟨out, y, y', hw⟩ := emits_operate env x
    refine ⟨out, y, y', fun k ↦ ?_, hw.node_eq, hw.timer_eq⟩
    rw [process_of_isMasterCommand (hm' k), hw.eq_write k]
  simp only [Bool.not_eq_true] at hm
  rcases hp : Request.parseFollowers x.request.packet with fault | addresses
  · exact ⟨.empty, _, _, emits_empty (y := x.fail .prepare fault) fun k ↦ process_of_parse_error hm hp⟩
  let z := x.resolved addresses
  have ht (k : Sink) : (x.onto k).process env = (z.onto k).processResolved env :=
    process_of_parse_ok hm hp
  by_cases hf : z.request.isForward = true
  · have hf' (k : Sink) : (z.onto k).request.isForward = true := hf
    rcases hs : z.send env with ⟨_ | fault, w⟩
    · have hs' (k : Sink) : (z.onto k).send env = (none, w.onto k) := by rw [send_onto, hs]
      have hw : w.request.packet.header.opcode.streamsReply = false := by
        rw [packet_send hs]
        exact streamsReply_of_isForward hf
      obtain ⟨y, hy⟩ := exists_operate_onto hw env
      refine ⟨.empty, _, _, emits_empty (y := y.conclude env none) fun k ↦ ?_⟩
      rw [ht, processResolved_of_sent (hf' k) (hs' k), hy k, conclude_onto]
    · have hs' (k : Sink) : (z.onto k).send env = (some fault, w.onto k) := by rw [send_onto, hs]
      refine ⟨.empty, _, _, emits_empty (y := w.finish env false) fun k ↦ ?_⟩
      rw [ht, processResolved_of_send_fault (hf' k) (hs' k), finish_onto]
  · simp only [Bool.not_eq_true] at hf
    have hf' (k : Sink) : (z.onto k).request.isForward = false := hf
    obtain ⟨out, y, y', hw⟩ := emits_operate env z
    refine ⟨out, y, y', fun k ↦ ?_, hw.node_eq, hw.timer_eq⟩
    rw [ht, processResolved_of_local (hf' k), hw.eq_write k]

theorem emits_reply (h : x.Answers p) : ∃ out, Emits reply x out x x := by
  obtain ⟨r, b, h⟩ := h
  by_cases hn : x.request.needsReply = true
  · refine ⟨x.request.packet.frame, fun k ↦ ?_, rfl, rfl⟩
    have hw : x.request.packet.writeTo k = k.write x.request.packet.frame := by
      rw [h, Packet.writeTo, Packet.encode_reply]
    rw [reply, if_pos (show (x.onto k).request.needsReply = true from hn)]
    rcases hout : k.write x.request.packet.frame with ⟨fault | _, k'⟩ <;> simp only [onto, hw, hout]
  · refine ⟨.empty, emits_empty fun k ↦ ?_⟩
    rw [reply, if_neg (show ¬ (x.onto k).request.needsReply = true from hn)]

end Handling

end ReplicaChain
