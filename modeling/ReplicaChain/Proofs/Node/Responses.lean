import ReplicaChain.Proofs.Node.Application
import ReplicaChain.Proofs.Node.ConnectionFold

/-!
# The frames of a response

A packet is answered by one frame or by a stream of frames.  Which frames these are depends on the
packet, the storage and, for the frames of a stream, the clock.  The number of followers that the
packet was on its way to appears in the frames, but decides nothing.
-/

namespace ReplicaChain

open Wire (Packet)

variable {ω σ : Type}

namespace Handling

/-! ## Responses -/

/-- The packets that answer a packet when it is applied. -/
def responses (engine : Extent.Engine ω) (now : Int64) (p : Packet) (store : ω) : List Packet :=
  match p.header.opcode.streamsReply, (performed engine p store).1 with
  | true, .ok a => streamFrames now p.header p.header.offset (streamPieces a.body)
  | _, _ => [(applied engine p store).1]

theorem responses_of_not_streamed (engine : Extent.Engine ω) (now : Int64) {p : Packet} (store : ω)
    (hs : p.header.opcode.streamsReply = false) :
    responses engine now p store = [(applied engine p store).1] := by
  simp only [responses, hs]

/-- Every packet of a response holds what it declares. -/
theorem encode_of_mem_streamFrames {now : Int64} {request : Wire.Header} {offset : Int64}
    {pieces : List ByteArray} {q : Packet} (hq : q ∈ streamFrames now request offset pieces) :
    q.encode = .ok q.frame := by
  induction pieces generalizing offset with
  | nil => simp [streamFrames] at hq
  | cons piece pieces ih =>
    rcases List.mem_cons.mp hq with rfl | hq
    · obtain ⟨q, hreply⟩ := streamFrame_eq_reply now request offset piece
      rw [hreply, Packet.encode_reply]
    · exact ih hq

theorem encode_of_mem_responses {engine : Extent.Engine ω} {now : Int64} {p q : Packet} {store : ω}
    (hq : q ∈ responses engine now p store) : q.encode = .ok q.frame := by
  unfold responses at hq
  split at hq
  · exact encode_of_mem_streamFrames hq
  · obtain ⟨code, body, hreply⟩ := exists_applied_eq_reply engine p store
    rw [List.mem_singleton.mp hq, hreply, Packet.encode_reply]

variable {env : Environment ω σ} {x y : Handling ω σ} {p : Packet}

/-- Writing a reply to a client that takes everything adds its frame to what was written. -/
theorem client_reply {code : Wire.ResultCode} {body : ByteArray} (hk : x.client.room = none)
    (hneeds : x.request.needsReply = true) (hx : x.request.packet = p.reply code body) :
    x.reply.2.client = x.client.append (p.reply code body).frame := by
  have hw : x.request.packet.writeTo x.client =
      (.ok (), x.client.append (p.reply code body).frame) := by
    rw [hx, Packet.writeTo, Packet.encode_reply]
    exact Sink.write_of_room_eq_none hk _
  exact (Node.reply_of_writeTo hneeds hw).2

/-- A client that takes everything gets all frames of a streamed answer and no reply after them. -/
theorem stream_of_room_eq_none (now : Int64) (b : ByteArray) (hk : x.client.room = none) :
    let h := x.request.packet.header
    x.stream now b = (none, { x.answer Packet.replyOk with
      request := { (x.answer Packet.replyOk).request with needsReply := false }
      client := x.client.append
        (Source.join ((streamFrames now h h.offset (streamPieces b)).map Packet.frame)) }) := by
  intro h
  have hwrites := streamTo_of_room_eq_none now h h.offset hk (streamPieces b)
  simp only [stream, h] at hwrites ⊢
  rw [hwrites]
  rfl

/-- A packet that is applied for a client that takes everything is answered by its responses. -/
theorem exists_operate_responses (hk : x.client.room = none)
    (hneeds : x.request.needsReply = true) :
    ∃ y, x.operate env = (none, y) ∧
      y.node.store = (applied env.engine x.request.packet x.node.store).2 ∧
      y.node.forwarder = x.node.forwarder ∧
      y.reply.2.client = x.client.append (Source.join
        ((responses env.engine env.now x.request.packet x.node.store).map Packet.frame)) := by
  have hperform := perform_eq_performed env x
  have hsingle (q : Packet) : Source.join ([q].map Packet.frame) = q.frame := by simp
  unfold responses applied
  generalize performed env.engine x.request.packet x.node.store = outcome at hperform ⊢
  obtain ⟨fault | a, store⟩ := outcome
  · refine ⟨_, operate_of_error hperform, rfl, rfl, ?_⟩
    cases x.request.packet.header.opcode.streamsReply <;> dsimp only <;> rw [hsingle] <;>
      exact client_reply hk hneeds rfl
  · cases hs : x.request.packet.header.opcode.streamsReply with
    | false =>
      refine ⟨_, operate_of_ok hperform hs, rfl, rfl, ?_⟩
      dsimp only
      rw [hsingle]
      exact client_reply hk hneeds rfl
    | true =>
      refine ⟨_, (operate_of_streamed hperform hs).trans (stream_of_room_eq_none env.now a.body hk),
        rfl, rfl, ?_⟩
      rfl

/-! ## Responses of different nodes -/

/-- A packet of a response apart from what two nodes may give differently: the number of followers
that are left, and the time at which a frame of a streamed answer was made. -/
def apart (q : Packet) : Packet :=
  let streamed := q.header.opcode = .ok ∧ q.header.result = .ok
  { q with
    header := {
      q.header with
      remaining := 0
      startTime := if streamed then 0 else q.header.startTime } }

theorem map_apart_streamFrames (now now' : Int64) (p : Packet) (offset : Int64)
    (pieces : List ByteArray) :
    (streamFrames now p.header offset pieces).map apart =
      (streamFrames now' p.alone.header offset pieces).map apart := by
  induction pieces generalizing offset with
  | nil => rfl
  | cons piece pieces ih =>
    simp only [streamFrames, List.map_cons]
    rw [ih]
    rfl

/-- A packet and the copy of it that one node alone is to handle are answered alike. -/
theorem map_apart_responses (engine : Extent.Engine ω) (now now' : Int64) (p : Packet) (store : ω) :
    (responses engine now p store).map apart = (responses engine now' p.alone store).map apart := by
  have hsingle :
      [(applied engine p store).1].map apart = [(applied engine p.alone store).1].map apart := by
    obtain ⟨code, body, hreply⟩ := exists_applied_eq_reply engine p store
    rw [applied_alone, hreply]
    rfl
  have hopcode : p.alone.header.opcode = p.header.opcode := rfl
  unfold responses
  rw [performed_alone, hopcode]
  split
  · exact map_apart_streamFrames now now' p p.header.offset _
  · exact hsingle

/-- Bytes are the frames of packets, each of which holds what it declares. -/
def IsResponse (qs : List Packet) (b : ByteArray) : Prop :=
  b = Source.join (qs.map Packet.frame) ∧ ∀ q ∈ qs, q.encode = .ok q.frame

/-- Two nodes gave the same packets as their responses, apart from what they may give differently. -/
def Alike (b b' : ByteArray) : Prop :=
  ∃ qs qs', IsResponse qs b ∧ IsResponse qs' b' ∧ qs.map apart = qs'.map apart

/-- The responses to a packet and to the copy of it that one node alone is to handle are alike. -/
theorem alike_responses (engine : Extent.Engine ω) (now now' : Int64) (p : Packet) (store : ω) :
    Alike (Source.join ((responses engine now p store).map Packet.frame))
      (Source.join ((responses engine now' p.alone store).map Packet.frame)) :=
  ⟨_, _, ⟨rfl, fun _ ↦ encode_of_mem_responses⟩, ⟨rfl, fun _ ↦ encode_of_mem_responses⟩,
    map_apart_responses engine now now' p store⟩

end Handling

namespace Node

open Handling (applied responses)

variable {env : Environment ω σ} {n : Node ω σ} {p : Packet}

/-- A node answers the frame of a packet by processing the packet and writing the reply. -/
theorem exists_answerFrame (env : Environment ω σ) (n : Node ω σ) (hp : p.Decodable) :
    ∃ buffers, ∀ y, (opening env p (n.setBuffers buffers) .unbounded).process env = (none, y) →
      (answerFrame env n p.frame).1.store = y.node.store ∧
        (answerFrame env n p.frame).1.forwarder =
          { y.node.forwarder with buffers := y.node.forwarder.buffers.release p.data } ∧
        (answerFrame env n p.frame).2 = y.reply.2.client.written := by
  obtain ⟨buffers, rest, hd, -⟩ := hp.isFrame.decode n.forwarder.buffers
  refine ⟨buffers, fun y hy ↦ ?_⟩
  obtain ⟨hstore, hforwarder⟩ := handle_node env p (n.setBuffers buffers) .unbounded
  have hclient := (handle_of_process hy).2
  rw [hy] at hstore hforwarder
  have hanswered : answerFrame env n p.frame =
      ((handle env p (n.setBuffers buffers) .unbounded).2.1,
        (handle env p (n.setBuffers buffers) .unbounded).2.2.written) := by
    rw [answerFrame, hd]
  rw [hanswered, ← hclient]
  exact ⟨hstore, hforwarder, rfl⟩

/-- A packet that was processed without a fault and turned into a reply is answered by the reply. -/
theorem exists_answerFrame_of_reply (env : Environment ω σ) (n : Node ω σ) (hp : p.Decodable) :
    ∃ buffers, ∀ y code body,
      (opening env p (n.setBuffers buffers) .unbounded).process env = (none, y) →
      y.request.packet = p.reply code body → y.request.needsReply = true → y.client = .unbounded →
      (answerFrame env n p.frame).1.store = y.node.store ∧
        (answerFrame env n p.frame).1.forwarder =
          { y.node.forwarder with buffers := y.node.forwarder.buffers.release p.data } ∧
        (answerFrame env n p.frame).2 = (p.reply code body).frame := by
  obtain ⟨buffers, hanswer⟩ := exists_answerFrame env n hp
  refine ⟨buffers, fun y code body hy hreply hneeds hclient ↦ ?_⟩
  obtain ⟨hstore, hforwarder, hwritten⟩ := hanswer y hy
  have hroom : y.client.room = none := by rw [hclient]; rfl
  refine ⟨hstore, hforwarder, ?_⟩
  rw [hwritten, Handling.client_reply hroom hneeds hreply, hclient]
  exact ByteArray.empty_append

/-- A packet that is not relayed is applied and answered by its responses, and the node keeps its
links and its network as they are. -/
theorem answerFrame_of_local (env : Environment ω σ) (n : Node ω σ) (hp : p.Decodable)
    (hm : p.header.opcode.isMaster = false) {addresses : List String}
    (hparse : Request.parseFollowers p = .ok addresses)
    (hlocal : (Request.ofPacket p).isForward = false) :
    (answerFrame env n p.frame).1.store = (applied env.engine p n.store).2 ∧
      (answerFrame env n p.frame).1.forwarder.links = n.forwarder.links ∧
      (answerFrame env n p.frame).1.forwarder.network = n.forwarder.network ∧
      (answerFrame env n p.frame).2 =
        Source.join ((responses env.engine env.now p n.store).map Packet.frame) := by
  obtain ⟨buffers, hanswer⟩ := exists_answerFrame env n hp
  let x := opening env p (n.setBuffers buffers) .unbounded
  have hk : (x.resolved addresses).client.room = none := rfl
  obtain ⟨y, ho, hstore, hforwarder, hclient⟩ :=
    Handling.exists_operate_responses (x := x.resolved addresses) hk rfl
  have hmaster : x.request.isMasterCommand = false := hm
  have hx : Request.parseFollowers x.request.packet = .ok addresses := hparse
  have hlocal : (x.resolved addresses).request.isForward = false := hlocal
  have hprocess : x.process env = (none, y) := by
    rw [Handling.process_of_parse_ok hmaster hx, Handling.processResolved_of_local hlocal, ho]
  obtain ⟨hstore', hforwarder', hwritten⟩ := hanswer y hprocess
  refine ⟨hstore'.trans hstore, ?_, ?_, ?_⟩
  · rw [hforwarder', hforwarder]
    rfl
  · rw [hforwarder', hforwarder]
    rfl
  · rw [hwritten, hclient]
    exact ByteArray.empty_append

theorem answerFrame_alone (env : Environment ω σ) (n : Node ω σ) (hp : p.Decodable)
    (hm : p.header.opcode.isMaster = false) :
    (answerFrame env n p.alone.frame).1.store = (applied env.engine p n.store).2 ∧
      (answerFrame env n p.alone.frame).2 =
        Source.join ((responses env.engine env.now p.alone n.store).map Packet.frame) := by
  have hlocal : (Request.ofPacket p.alone).isForward = false := rfl
  obtain ⟨hstore, -, -, hwritten⟩ :=
    answerFrame_of_local env n hp.decodable_alone hm (Handling.parseFollowers_alone p) hlocal
  refine ⟨hstore.trans ?_, hwritten⟩
  rw [Handling.applied_alone]

end Node

end ReplicaChain
