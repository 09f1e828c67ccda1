import ReplicaChain.Proofs.Extent.Accounting
import ReplicaChain.Proofs.Node.StreamedRead
import ReplicaChain.Proofs.Node.Verdict

/-!
# Which responses can be read back

A node writes whatever the storage gives it, and a reader takes no payload beyond a limit.  So not every
response can be read.  A frame of a streamed answer always can, and so can any other response whose payload
is within the limit; one that is beyond it is refused for its size.  Only the answers that carry bytes of
the storage and the wording of a fault can be as long as that.
-/

namespace ReplicaChain

open Extent (Store)
open Wire (Packet)

/-! ## Reading a frame back -/

namespace Wire.Packet

/-- Wherever the frame of a packet begins in a stream, the header and the payload are read from it as they
were written, and the stream is left where the frame ends. -/
def Readable (q : Packet) : Prop :=
  ∀ (pool : BufferPool) (s : Source) (t : ByteArray), s.bytes = q.frame ++ t →
    ∃ r pool' rest, decode pool s = (.ok r, pool', rest) ∧ rest.bytes = t ∧
      r.header = q.header ∧ r.payload = q.payload

/-- Wherever the frame of a packet begins in a stream, it is refused for the size of its payload. -/
def Oversized (q : Packet) : Prop :=
  ∀ (pool : BufferPool) (s : Source) (t : ByteArray), s.bytes = q.frame ++ t →
    (decode pool s).1 = .error (.payloadTooLarge q.payload.size)

theorem Oversized.not_readable {q : Packet} (h : q.Oversized) : ¬ q.Readable := by
  intro hread
  have hbytes : (Source.ofBytes q.frame).bytes = q.frame ++ .empty := by simp
  obtain ⟨r, pool, rest, hd, -⟩ := hread .standard (.ofBytes q.frame) .empty hbytes
  have hfault := h .standard (.ofBytes q.frame) .empty hbytes
  rw [hd] at hfault
  cases hfault

/-- A packet answers something: its header is canonical and bears a result, it has no argument, and it
holds the payload that it declares. -/
structure IsAnswer (q : Packet) : Prop where
  canonical : q.header.IsCanonical
  answered : q.header.result ≠ .unexecuted
  argumentSize_eq : q.header.argumentSize = 0
  size_le : q.header.size.toNat ≤ q.data.size

variable {q : Packet}

theorem IsAnswer.payloadSize_eq (h : q.IsAnswer) : q.header.payloadSize = q.header.size.toNat := by
  rw [Header.payloadSize, Header.defersPayload, decide_eq_false h.answered, Bool.and_false]
  exact if_neg Bool.false_ne_true

theorem IsAnswer.size_payload (h : q.IsAnswer) : q.payload.size = q.header.size.toNat := by
  rw [payload, Bytes.size_take]
  exact Nat.min_eq_left h.size_le

theorem IsAnswer.size_frame (h : q.IsAnswer) :
    q.frame.size = Header.byteSize + q.payload.size := by
  have hargument : (Bytes.take q.header.argumentSize.toNat q.argument).size = 0 := by
    rw [h.argumentSize_eq, Bytes.size_take]
    exact Nat.zero_min _
  rw [frame, ByteArray.size_append, ByteArray.size_append, Header.size_encode, hargument,
    h.payloadSize_eq]
  rfl

/-- The limit of the reader decides alone whether an answer can be read. -/
theorem IsAnswer.readable (h : q.IsAnswer) (hsize : q.payload.size ≤ maxPayloadSize) :
    q.Readable := by
  have hpayload := h.payloadSize_eq
  have hfits : q.Fits := by
    refine ⟨h.canonical, ?_, ?_, hpayload ▸ h.size_le, by rwa [hpayload, ← h.size_payload]⟩ <;>
    · rw [h.argumentSize_eq]
      exact Nat.zero_le _
  intro pool s t hs
  obtain ⟨pool', rest, hd, hrest, -⟩ := hfits.decode_frame pool hs
  refine ⟨q.received, pool', rest, hd, hrest, rfl, ?_⟩
  change Bytes.take q.header.size.toNat (Bytes.take q.header.payloadSize q.data.bytes) = q.payload
  rw [hpayload]
  exact Bytes.take_of_size_le (Nat.le_of_eq h.size_payload)

theorem IsAnswer.oversized (h : q.IsAnswer) (hsize : maxPayloadSize < q.payload.size) :
    q.Oversized := by
  have hpayload := h.payloadSize_eq
  intro pool s t hs
  have ha : q.header.argumentSize.toNat = 0 := by
    rw [h.argumentSize_eq]
    rfl
  rcases decode_frame_or h.canonical (ha ▸ Nat.zero_le _) (ha ▸ Nat.zero_le _)
    (hpayload ▸ h.size_le) pool hs with hfits | hfault
  · have hlimit := hfits.payload_limit
    rw [hpayload, ← h.size_payload] at hlimit
    omega
  · rw [hfault, hpayload, h.size_payload]

end Wire.Packet

/-! ## Extents longer than a payload -/

namespace Extent.Store

/-- A write for which there is room leaves a live extent with the bytes that were written. -/
theorem live_write {s : Store} {partition extent : UInt64} {e : Extent.State}
    (he : s.Live partition extent e) (offset : Int64) (bytes : ByteArray) (hoffset : 0 ≤ offset)
    (hstart : offset.toNatClampNeg ≤ e.content.size)
    (hroom : ¬ s.capacity < s.used + .ofNat (Store.growth offset bytes e)) :
    let s' := (Store.engine (.write partition extent offset bytes) s).2
    s'.Live partition extent
        { e with content := Bytes.overwrite offset.toNatClampNeg bytes e.content } ∧
      s'.capacity = s.capacity ∧ s'.used = s.used + .ofNat (Store.growth offset bytes e) := by
  obtain ⟨p, hp, honline, hextent, hdeleted⟩ := he
  have hlive : p.live extent = .ok e :=
    Extent.Partition.live_eq_ok_iff.mpr ⟨honline, hextent, hdeleted⟩
  rw [Store.growth] at hroom ⊢
  have hwritten : (Store.engine (.write partition extent offset bytes) s).2 =
      { s.setExtent partition extent p
          { e with content := Bytes.overwrite offset.toNatClampNeg bytes e.content } with
        used := s.used + .ofNat (offset.toNatClampNeg + bytes.size - e.content.size) } := by
    simp only [Store.engine, Store.perform, Store.write, if_neg (Int64.not_lt.mpr hoffset), hp,
      hlive, if_neg (Nat.not_lt.mpr hstart), if_neg hroom, Except.map]
  rw [hwritten]
  exact ⟨⟨_, Std.ExtTreeMap.getElem?_insert_self, honline, Std.ExtTreeMap.getElem?_insert_self,
    hdeleted⟩, rfl, rfl⟩

/-- Two writes to an empty extent, the second where the first ends, leave it with the bytes of both. -/
theorem live_extended {s : Store} {partition extent : UInt64} (hs : s.Live partition extent .blank)
    (first second : ByteArray) {offset : Int64} (hoffset : 0 ≤ offset)
    (hfirst : offset.toNatClampNeg = first.size)
    (hroom : ¬ s.capacity < s.used + .ofNat first.size)
    (hroom' : ¬ s.capacity < s.used + .ofNat first.size + .ofNat second.size) :
    ∃ e, (Store.run [.write partition extent 0 first, .write partition extent offset second] s).Live
        partition extent e ∧ e.content.size = first.size + second.size := by
  have hgrowth : Store.growth 0 first .blank = first.size := Nat.zero_add _
  obtain ⟨hlive, hcapacity, hused⟩ := live_write hs 0 first (by decide) (Nat.zero_le _)
    (hgrowth.symm ▸ hroom)
  have hsize : (Bytes.overwrite (0 : Int64).toNatClampNeg first .empty).size = first.size :=
    (Bytes.size_overwrite (Nat.zero_le _)).trans (by simp)
  have hstart : offset.toNatClampNeg ≤
      (Bytes.overwrite (0 : Int64).toNatClampNeg first .empty).size := by
    rw [hsize, hfirst]
  have hgrowth' : Store.growth offset second
      { Extent.State.blank with content := Bytes.overwrite (0 : Int64).toNatClampNeg first .empty } =
        second.size := by
    rw [Store.growth, hsize, hfirst, Nat.add_sub_cancel_left]
  rw [hgrowth] at hused
  obtain ⟨hlive', -, -⟩ := live_write hlive offset second hoffset hstart
    (by rw [hcapacity, hused]; exact hgrowth'.symm ▸ hroom')
  refine ⟨_, hlive', (Bytes.size_overwrite hstart).trans ?_⟩
  rw [hsize, hfirst]
  omega

end Extent.Store

/-! ## Responses -/

namespace Handling

variable {ω σ : Type} {engine : Extent.Engine ω} {p q : Packet}

/-- What a node may write in answer to a packet: a block of a streamed answer, the success of the operation
that the packet asks for, or the report of a fault. -/
inductive Responds (engine : Extent.Engine ω) (p : Packet) : Packet → Prop
  | block {now offset : Int64} {piece : ByteArray} (h : piece.size ≤ blockSize) :
      Responds engine p (streamFrame now p.header offset piece)
  | done {store : ω} {a : Extent.Answer} (hs : p.header.opcode.streamsReply = false)
      (h : (performed engine p store).1 = .ok a) : Responds engine p (p.replyWith a.body)
  | failed (action : Wire.Action) (fault : Fault) : Responds engine p (p.replyFault action fault)

theorem faultCode_ne_unexecuted (action : Wire.Action) (fault : Fault) (p : Packet) :
    p.faultCode action fault ≠ .unexecuted := by
  have hstorage (opcode : Wire.Opcode) (fault : StorageFault) :
      (Wire.storageVerdict opcode fault).forWire ≠ .unexecuted := by
    cases fault <;> simp only [Wire.storageVerdict] <;> try split
    all_goals simp [Wire.ResultCode.forWire]
  unfold Packet.faultCode Wire.verdict
  split
  · simp [Wire.ResultCode.forWire]
  · split
    · exact hstorage _ _
    · simp [Wire.ResultCode.forWire]
    · simp [Wire.ResultCode.forWire]

theorem isAnswer_reply {code : Wire.ResultCode} (hp : p.header.IsCanonical)
    (hcode : code ≠ .unexecuted) (body : ByteArray) : (p.reply code body).IsAnswer where
  canonical := hp
  answered := hcode
  argumentSize_eq := rfl
  size_le := by
    rw [Packet.size_reply]
    exact Nat.min_le_left _ _

theorem Responds.isAnswer (h : Responds engine p q) (hp : p.header.IsCanonical) : q.IsAnswer := by
  cases h with
  | @block now offset piece _ =>
    obtain ⟨r, hr⟩ := streamFrame_eq_reply now p.header offset piece
    refine ⟨⟨rfl, rfl⟩, show Wire.ResultCode.ok ≠ .unexecuted by decide, rfl, ?_⟩
    rw [hr, Packet.size_reply]
    exact Nat.min_le_left _ _
  | done _ _ => exact isAnswer_reply hp (by simp) _
  | failed action fault => exact isAnswer_reply hp (faultCode_ne_unexecuted action fault p) _

theorem responds_of_mem_streamFrames {now offset : Int64} {pieces : List ByteArray}
    (hpieces : ∀ piece ∈ pieces, piece.size ≤ blockSize)
    (hq : q ∈ streamFrames now p.header offset pieces) : Responds engine p q := by
  induction pieces generalizing offset with
  | nil => simp [streamFrames] at hq
  | cons piece pieces ih =>
    rcases List.mem_cons.mp hq with rfl | hq
    · exact .block (hpieces piece (by simp))
    · exact ih (fun rest hrest ↦ hpieces rest (List.mem_cons_of_mem piece hrest)) hq

theorem responds_of_mem_responses {now : Int64} {store : ω} (hq : q ∈ responses engine now p store) :
    Responds engine p q := by
  unfold responses applied at hq
  rcases hs : p.header.opcode.streamsReply with _ | _ <;>
    rcases h : performed engine p store with ⟨fault | a, store'⟩ <;> rw [hs, h] at hq
  · exact List.mem_singleton.mp hq ▸ .failed .operate fault
  · exact List.mem_singleton.mp hq ▸ .done hs (by rw [h])
  · exact List.mem_singleton.mp hq ▸ .failed .operate fault
  · exact responds_of_mem_streamFrames (blocks_streamPieces _).size_le hq

/-! ## All paths of a packet -/

variable {env : Environment ω σ} {x y : Handling ω σ}

/-- A part of handling kept the client's stream, and the packet but for reporting a fault. -/
structure Keeps (x y : Handling ω σ) : Prop where
  client_eq : y.client = x.client
  needsReply_eq : y.request.needsReply = x.request.needsReply
  packet : y.request.packet = x.request.packet ∨
    ∃ action fault, y.request.packet = x.request.packet.replyFault action fault

theorem keeps_receive (env : Environment ω σ) (x : Handling ω σ) : x.Keeps (x.receive env).2 := by
  unfold receive
  dsimp only
  split
  · exact ⟨rfl, rfl, .inl rfl⟩
  · split
    · exact ⟨rfl, rfl, .inl rfl⟩
    · exact ⟨rfl, rfl, .inr ⟨_, _, rfl⟩⟩

theorem keeps_conclude (env : Environment ω σ) (fault : Option Fault) (x : Handling ω σ) :
    x.Keeps (x.conclude env fault) := by
  have hreceive := keeps_receive env x
  unfold conclude
  split
  · exact ⟨hreceive.client_eq, hreceive.needsReply_eq, hreceive.packet⟩
  · exact ⟨rfl, rfl, .inl rfl⟩

theorem keeps_send (env : Environment ω σ) (x : Handling ω σ) : x.Keeps (x.send env).2 := by
  unfold send
  dsimp only
  split
  · exact ⟨rfl, rfl, .inl rfl⟩
  · split
    · exact ⟨rfl, rfl, .inl rfl⟩
    · exact ⟨rfl, rfl, .inr ⟨_, _, rfl⟩⟩

/-- The packet that came reports a fault when it could not be relayed. -/
theorem packet_send_of_fault {fault : Fault} (h : x.send env = (some fault, y)) :
    y.request.packet = x.request.packet.replyFault .sendToFollowers fault := by
  simp only [send] at h
  split at h
  · simp at h
  · split at h
    · simp at h
    · obtain ⟨hfault, rfl⟩ := Prod.mk.inj h
      obtain rfl := Option.some.inj hfault
      rfl

/-- What a node may write in answer to a packet stays so if it reports a fault instead. -/
theorem Responds.keeps (h : Responds engine p x.request.packet) (ha : x.Answers p)
    (hk : x.Keeps y) : Responds engine p y.request.packet := by
  obtain ⟨code, body, hx⟩ := ha
  rcases hk.packet with hpacket | ⟨action, fault, hpacket⟩
  · rwa [hpacket]
  · rw [hpacket, hx]
    exact .failed action fault

/-- Handling ends, and the client is written nothing but what a node may write in answer to a packet. -/
def AnswersBy (engine : Extent.Engine ω) (p : Packet) (k : Sink)
    (result : Option Fault × Handling ω σ) : Prop :=
  ∃ (y : Handling ω σ) (qs : List Packet), result = (none, y) ∧
    y.reply.2.client = k.append (Source.join (qs.map Packet.frame)) ∧
    ∀ q ∈ qs, q.encode = .ok q.frame ∧ Responds engine p q

theorem answersBy_operate (env : Environment ω σ) (hk : x.client.room = none)
    (hneeds : x.request.needsReply = true) :
    AnswersBy env.engine x.request.packet x.client (x.operate env) := by
  obtain ⟨y, ho, -, -, hclient⟩ := exists_operate_responses hk hneeds
  exact ⟨y, _, ho, hclient, fun q hq ↦ ⟨encode_of_mem_responses hq, responds_of_mem_responses hq⟩⟩

/-- One reply is to be written to a client that has not been written to. -/
theorem answersBy_reply (hclient : y.client = x.client) (hk : x.client.room = none)
    (hneeds : y.request.needsReply = true) (ha : y.Answers p)
    (hr : Responds engine p y.request.packet) : AnswersBy engine p x.client (none, y) := by
  obtain ⟨code, body, hy⟩ := ha
  refine ⟨y, [p.reply code body], rfl, ?_, fun q hq ↦ ?_⟩
  · rw [client_reply (hclient ▸ hk) hneeds hy, hclient]
    simp
  · rw [List.mem_singleton.mp hq]
    exact ⟨Packet.encode_reply .., hy ▸ hr⟩

/-- A client that takes everything is written nothing else, whatever path the packet takes. -/
theorem answersBy_process (env : Environment ω σ) (hk : x.client.room = none)
    (hneeds : x.request.needsReply = true) :
    AnswersBy env.engine x.request.packet x.client (x.process env) := by
  by_cases hm : x.request.isMasterCommand = true
  · rw [process_of_isMasterCommand hm]
    exact answersBy_operate env hk hneeds
  simp only [Bool.not_eq_true] at hm
  rcases hp : Request.parseFollowers x.request.packet with fault | addresses
  · rw [process_of_parse_error hm hp]
    exact answersBy_reply rfl hk hneeds (answers_fail rfl _ _) (.failed .prepare fault)
  rw [process_of_parse_ok hm hp]
  let z := x.resolved addresses
  change AnswersBy env.engine z.request.packet z.client (z.processResolved env)
  by_cases hf : z.request.isForward = true
  · -- A packet that is relayed gets one reply: that of the storage, or a fault that takes its place.
    have hkeeps := keeps_send env z
    rcases hs : z.send env with ⟨_ | fault, y⟩ <;> rw [hs] at hkeeps
    · have hy : y.request.packet = z.request.packet := packet_send hs
      have hstreams : y.request.packet.header.opcode.streamsReply = false := by
        rw [hy]
        exact streamsReply_of_isForward hf
      obtain ⟨w, ho, hrequest, -, -, hclient⟩ := exists_operate_eq env hstreams
      have hanswers : w.Answers z.request.packet := by
        rw [Answers, hrequest, ← hy]
        exact exists_applied_eq_reply env.engine y.request.packet y.node.store
      have hresponds : Responds env.engine z.request.packet w.request.packet := by
        have hmem := List.mem_singleton_self (applied env.engine y.request.packet y.node.store).1
        rw [← responses_of_not_streamed env.engine env.now _ hstreams] at hmem
        rw [hrequest, ← hy]
        exact responds_of_mem_responses hmem
      have hneeds' : w.request.needsReply = true := by
        rw [hrequest]
        exact hkeeps.needsReply_eq.trans hneeds
      have hconclude := keeps_conclude env none w
      rw [processResolved_of_sent hf hs, ho]
      exact answersBy_reply (hconclude.client_eq.trans (hclient.trans hkeeps.client_eq)) hk
        (hconclude.needsReply_eq.trans hneeds') (hanswers.conclude env none)
        (hresponds.keeps hanswers hconclude)
    · have hpacket := packet_send_of_fault hs
      rw [processResolved_of_send_fault hf hs]
      exact answersBy_reply hkeeps.client_eq hk (hkeeps.needsReply_eq.trans hneeds) ⟨_, _, hpacket⟩
        (hpacket ▸ .failed .sendToFollowers fault)
  · simp only [Bool.not_eq_true] at hf
    rw [processResolved_of_local hf]
    exact answersBy_operate env hk hneeds

/-! ## Long responses -/

theorem size_payload_reply_le (code : Wire.ResultCode) (body : ByteArray) (p : Packet) :
    (p.reply code body).payload.size ≤ body.size := by
  rw [Packet.payload, Bytes.size_take]
  exact Nat.min_le_right _ _

/-- The responses that can have a payload beyond the limit: a read of more than that, a report of the
storage, and the report of a fault that takes as many words. -/
inductive Overlong (p : Packet) : Packet → Prop
  | read {body : ByteArray} (hp : p.header.opcode = .read ∨ p.header.opcode = .extentRepairRead)
      (hsize : Wire.maxPayloadSize < p.header.size.toNat) : Overlong p (p.replyWith body)
  | report {body : ByteArray} (hp : p.header.opcode = .getAllWaterMark ∨
      p.header.opcode = .loadDataPartition ∨ p.header.opcode = .dataNodeHeartbeat) :
      Overlong p (p.replyWith body)
  | fault {action : Wire.Action} {fault : Fault}
      (hsize : Wire.maxPayloadSize < 20 + fault.message.utf8ByteSize) :
      Overlong p (p.replyFault action fault)

/-- What a successful operation gives back: nothing, the bytes asked for, or a report. -/
theorem answer_cases {s s' : Store} {op : Extent.Operation} {a : Extent.Answer}
    (h : s.perform op = .ok (a, s')) :
    a.body.size = 0 ∨
      (∃ partition extent offset size, op = .read partition extent offset size ∧
        a.body.size = size.toNat) ∨
      (∃ partition mode, op = .watermarks partition mode) ∨
      ∃ opcode partition, op = .command opcode partition ∧
        (opcode = .loadDataPartition ∨ opcode = .dataNodeHeartbeat) := by
  unfold Store.perform at h
  split at h
  all_goals obtain ⟨b, hb, hpair⟩ := Store.exists_of_map_eq_ok h
  all_goals obtain ⟨rfl, -⟩ := Prod.mk.inj hpair
  · exact .inl rfl
  · exact .inl rfl
  · exact .inr (.inl ⟨_, _, _, _, rfl, (size_of_read_eq_ok hb).2.1⟩)
  · exact .inl rfl
  · exact .inr (.inr (.inl ⟨_, _, rfl⟩))
  · exact .inl rfl
  · rename_i opcode partition
    unfold Store.command at hb
    split at hb
    · obtain rfl := Except.ok.inj hb
      exact .inl rfl
    · obtain rfl := Except.ok.inj hb
      exact .inl rfl
    · obtain ⟨t, -, rfl⟩ := Store.exists_of_map_eq_ok hb
      exact .inl rfl
    · exact .inr (.inr (.inr ⟨_, _, rfl, .inl rfl⟩))
    · exact .inr (.inr (.inr ⟨_, _, rfl, .inr rfl⟩))
    · cases hb

theorem exists_perform_of_performed {p : Packet} {s : Store} {a : Extent.Answer}
    (h : (performed Store.engine p s).1 = .ok a) :
    ∃ op s', operationOf p = .ok op ∧ s.perform op = .ok (a, s') := by
  unfold performed at h
  rcases ho : operationOf p with fault | op
  · simp [ho] at h
  · simp only [ho, Store.engine] at h
    rcases hp : s.perform op with fault | ⟨b, t⟩
    · simp [hp, Except.mapError] at h
    · simp only [hp, Except.mapError, Except.ok.injEq] at h
      exact ⟨op, t, rfl, by rw [hp, h]⟩

/-- What a packet asks for by its opcode. -/
theorem opcode_of_operationOf {p : Packet} {op : Extent.Operation} (h : operationOf p = .ok op) :
    match op with
    | .read _ _ _ size => p.header.opcode.isRead = true ∧ size = p.header.size
    | .watermarks _ _ => p.header.opcode = .getAllWaterMark
    | .command opcode _ => p.header.opcode = opcode
    | _ => True := by
  unfold operationOf at h
  dsimp only at h
  split at h
  · split at h <;> cases h
    trivial
  all_goals cases h
  all_goals simp_all [Wire.Opcode.isRead]

/-- Only reads and reports are answered with more than a reader accepts. -/
theorem overlong_of_operationOf {p : Packet} {op : Extent.Operation} {s s' : Store}
    {a : Extent.Answer} (ho : operationOf p = .ok op) (ha : s.perform op = .ok (a, s'))
    (hs : p.header.opcode.streamsReply = false) (hsize : Wire.maxPayloadSize < a.body.size) :
    Overlong p (p.replyWith a.body) := by
  have hopcode := opcode_of_operationOf ho
  rcases answer_cases ha with
    hzero | ⟨_, _, _, size, rfl, hread⟩ | ⟨_, _, rfl⟩ | ⟨opcode, _, rfl, hcommand⟩
  · omega
  · obtain ⟨hread', rfl⟩ := hopcode
    refine .read ?_ (hread ▸ hsize)
    simp_all [Wire.Opcode.isRead, Wire.Opcode.streamsReply]
  · exact .report (.inl hopcode)
  · rw [← hopcode] at hcommand
    exact .report (.inr hcommand)

theorem Responds.overlong {p q : Packet} (h : Responds Store.engine p q)
    (hsize : Wire.maxPayloadSize < q.payload.size) : Overlong p q := by
  cases h with
  | block hpiece =>
    rw [payload_streamFrame hpiece] at hsize
    have hlimit : blockSize ≤ Wire.maxPayloadSize := by decide
    omega
  | @done store a hs ha =>
    obtain ⟨op, s', ho, hperform⟩ := exists_perform_of_performed ha
    exact overlong_of_operationOf ho hperform hs
      (Nat.lt_of_lt_of_le hsize (size_payload_reply_le .ok a.body p))
  | failed action fault =>
    refine .fault (Nat.lt_of_lt_of_le hsize ?_)
    have hbody := size_payload_reply_le (p.faultCode action fault)
      (Bytes.ofText (Wire.errorBody action fault)) p
    rw [Wire.Action.ofText_errorBody, ByteArray.size_append] at hbody
    have hheading := action.size_heading_le
    change _ ≤ 20 + (Bytes.ofText fault.message).size
    change (p.replyFault action fault).payload.size ≤ _ at hbody
    omega

end Handling

namespace Node

open Handling

variable {ω σ : Type}

/-! ## Connections -/

/-- A client that takes everything is written nothing but responses to a packet that was read. -/
theorem exists_handle_responses (env : Environment ω σ) (p : Packet) (n : Node ω σ) {k : Sink}
    (hk : k.room = none) :
    ∃ (m : Node ω σ) (qs : List Packet),
      handle env p n k = (none, m, k.append (Source.join (qs.map Packet.frame))) ∧
      ∀ q ∈ qs, q.encode = .ok q.frame ∧ Responds env.engine p q := by
  obtain ⟨m, out, -, hhandle⟩ := exists_handle_eq env p n
  obtain ⟨y, qs, (hprocess : (opening env p n k).process env = _), hclient, hqs⟩ :=
    Handling.answersBy_process env (x := opening env p n k) hk rfl
  refine ⟨m, qs, ?_, hqs⟩
  have hsink := (handle_of_process hprocess).2
  rw [hhandle k hk] at hsink ⊢
  exact congrArg (fun k' ↦ (none, m, k')) (hsink.trans hclient)

theorem exists_serve_responses (env : Environment ω σ) (n : Node ω σ) (s : Source) {k : Sink}
    (hk : k.room = none) :
    ∃ qs : List Packet,
      (serve env n s k).2.2 = k.append (Source.join (qs.map Packet.frame)) ∧
      ∀ q ∈ qs, q.encode = .ok q.frame ∧ ∃ p, p.Decodable ∧ Responds env.engine p q := by
  fun_induction serve env n s k with
  | case1 n s k fault buffers rest hd => exact ⟨[], by simp, by simp⟩
  | case2 n s k p buffers rest hd fault m k' hh =>
    obtain ⟨_, _, hhandle, -⟩ := exists_handle_responses env p (n.setBuffers buffers) hk
    cases hh.symm.trans hhandle
  | case3 n s k p buffers rest hd m k' hh ih =>
    obtain ⟨_, qs, hhandle, hqs⟩ := exists_handle_responses env p (n.setBuffers buffers) hk
    obtain ⟨-, rfl, rfl⟩ := by simpa using hh.symm.trans hhandle
    obtain ⟨qs', hserve, hqs'⟩ := ih (by simpa using hk)
    refine ⟨qs ++ qs', ?_, fun q hq ↦ ?_⟩
    · rw [hserve, Sink.append_append, List.map_append, Source.join_append]
    · rcases List.mem_append.mp hq with hq | hq
      · exact ⟨(hqs q hq).1, p, ⟨_, _, _, _, hd⟩, (hqs q hq).2⟩
      · exact hqs' q hq

/-- Every frame that is written on a connection to a client that takes everything is a header with a
payload.  If the payload is within the limit of a reader, the frame can be read back as it was written,
and otherwise it is refused for its size.  That happens to nothing but reads of more bytes than the
limit, to reports of the storage, and to faults whose wording is as long as that. -/
theorem served_readable {env : Environment Store σ} (hengine : env.engine = Store.engine)
    (n : Node Store σ) (s : Source) {k : Sink} (hk : k.room = none) :
    ∃ qs : List Packet,
      (serve env n s k).2.2 = k.append (Source.join (qs.map Packet.frame)) ∧
      ∀ q ∈ qs, q.encode = .ok q.frame ∧ q.frame.size = Wire.Header.byteSize + q.payload.size ∧
        (q.payload.size ≤ Wire.maxPayloadSize → q.Readable) ∧
        (Wire.maxPayloadSize < q.payload.size →
          q.Oversized ∧ ∃ p, p.Decodable ∧ Overlong p q) := by
  obtain ⟨qs, hserve, hqs⟩ := exists_serve_responses env n s hk
  refine ⟨qs, hserve, fun q hq ↦ ?_⟩
  obtain ⟨hencode, p, hp, hresponds⟩ := hqs q hq
  have hanswer : q.IsAnswer := hresponds.isAnswer hp.fits.canonical
  rw [hengine] at hresponds
  exact ⟨hencode, hanswer.size_frame, hanswer.readable,
    fun hsize ↦ ⟨hanswer.oversized hsize, p, hp, hresponds.overlong hsize⟩⟩

/-- Nothing is written on a connection that is closed at once. -/
theorem client_serve_of_empty (env : Environment ω σ) (n : Node ω σ) {s : Source}
    (hs : s.bytes = .empty) (k : Sink) : (serve env n s k).2.2 = k := by
  rcases hd : Packet.decode n.forwarder.buffers s with ⟨fault | p, buffers, rest⟩
  · rw [serve_of_error hd]
  · have hread := Packet.size_of_decode hd
    have hsize := Source.size_bytes s
    rw [hs, ByteArray.size_empty] at hsize
    have hpos : 0 < Wire.Header.byteSize := by decide
    omega

/-- The response to a request to create an extent can be read back. -/
theorem served_readable_createExtent :
    let frame := (Packet.createExtent 0 1 1 1).frame
    let served := serve (environment {} .unreachable 0) (ofSettings {} ()) (.ofBytes frame) .unbounded
    ∃ qs : List Packet, served.2.2.written = Source.join (qs.map Packet.frame) ∧ qs ≠ [] ∧
      ∀ q ∈ qs, q.Readable := by
  intro frame served
  let env : Environment Store Unit := environment {} .unreachable 0
  have hengine : env.engine = Store.engine := rfl
  have hfits : (Packet.createExtent 0 1 1 1).Fits :=
    ⟨⟨rfl, rfl⟩, by decide, by decide, by decide, by decide⟩
  obtain ⟨p, hframe⟩ := hfits.exists_isFrame
  have hk : Sink.unbounded.room = none := rfl
  have hbytes : (Source.ofBytes frame).bytes = frame ++ .empty := by simp
  obtain ⟨rest, hrest, -, hserve⟩ := serve_of_isFrame env (ofSettings {} ()) hframe hbytes hk
  have hsize : (answerFrame env (ofSettings {} ()) frame).2.size = 65 := by decide +kernel
  have hclient : served.2.2 =
      Sink.unbounded.append (answerFrame env (ofSettings {} ()) frame).2 := by
    change (serve env (ofSettings {} ()) (.ofBytes frame) .unbounded).2.2 = _
    rw [hserve, client_serve_of_empty env _ hrest]
  obtain ⟨qs, hwritten, hqs⟩ := served_readable hengine (ofSettings {} ()) (.ofBytes frame) hk
  have hsplit : served.2.2.written = Source.join (qs.map Packet.frame) := by
    rw [show served.2.2 = _ from hwritten]
    exact ByteArray.empty_append
  have htotal : (Source.join (qs.map Packet.frame)).size = 65 := by
    rw [← hsplit, hclient, ← hsize]
    exact congrArg ByteArray.size ByteArray.empty_append
  refine ⟨qs, hsplit, ?_, fun q hq ↦ ?_⟩
  · rintro rfl
    cases htotal
  · -- The frame is a part of the 65 bytes that are written, so it cannot be too long.
    obtain ⟨-, hframe, hread, -⟩ := hqs q hq
    obtain ⟨before, after, rfl⟩ := List.append_of_mem hq
    rw [List.map_append, List.map_cons, Source.join_append, Source.join_cons, ByteArray.size_append,
      ByteArray.size_append, hframe] at htotal
    have hlimit : 65 ≤ Wire.maxPayloadSize := by decide
    exact hread (by omega)

/-- A read of more bytes than a reader accepts succeeds where the extent holds them, and its response is
refused for its size. -/
theorem answersWith_oversized {env : Environment Store σ} (hengine : env.engine = Store.engine)
    {p : Packet} {n : Node Store σ} {k : Sink} (hk : k.room = none) (hp : p.header.opcode = .read)
    (hremaining : p.header.remaining = 0)
    (hparse : ∃ addresses, Request.parseFollowers p = .ok addresses)
    (hcanonical : p.header.IsCanonical) {e : Extent.State}
    (he : n.store.Live p.header.partition p.header.extent e) (hoffset : 0 ≤ p.header.offset)
    (hend : p.header.offset.toNatClampNeg + p.header.size.toNat ≤ e.content.size)
    (hsize : Wire.maxPayloadSize < p.header.size.toNat) :
    ∃ q, AnswersWith env p n k [q] ∧ q.header.result = .ok ∧ q.Oversized := by
  have hread : p.header.opcode.isRead = true := by rw [hp]; rfl
  have hlocal : (Request.ofPacket p).isForward = false := by
    rw [Request.isForward, Request.ofPacket, hremaining]
    rfl
  obtain ⟨body, hbody⟩ : ∃ body, n.store.read p.header.partition p.header.extent p.header.offset
      p.header.size = .ok body := ⟨_, read_of_live he hoffset hend⟩
  have hlength : body.size = p.header.size.toNat := (size_of_read_eq_ok hbody).2.1
  have hanswers := answersWith_of_isRead (n := n) hengine hk hread hparse hlocal
  rw [responses_of_not_streamed _ _ _ (by rw [hp]; rfl), applied_of_read_ok hread hbody] at hanswers
  refine ⟨p.replyWith body, hanswers, rfl, ?_⟩
  have hanswer : (p.replyWith body).IsAnswer := isAnswer_reply hcanonical (by simp) body
  have hpayload : (p.replyWith body).payload = body := payload_reply p <| by
    rw [hlength]
    exact Nat.le_of_lt_succ p.header.size.toNat_lt
  exact hanswer.oversized (by rwa [hpayload, hlength])

/-- A write as long as a reader accepts, and another of one byte after it, make an extent that can be
asked for in one read.  The response to that read is a success that cannot be read back. -/
theorem unreadable_read :
    let bytes := Bytes.zeros 16777216
    let store := Store.run [.createExtent 7 1025, .write 7 1025 0 bytes,
      .write 7 1025 16777216 (Bytes.zeros 1)] (.empty 67108864)
    let n : Node Store Unit := { ofSettings {} () with store }
    let p := Packet.read 0 4 7 1025 0 16777217
    p.Decodable ∧ ∃ q, AnswersWith (environment {} .unreachable 0) p n .unbounded [q] ∧
      q.header.result = .ok ∧ ¬ q.Readable := by
  intro bytes store n p
  -- Only the size of what is written counts, and nothing has to be evaluated that holds the bytes.
  have hbytes : bytes.size = 16777216 := Bytes.size_zeros _
  clear_value bytes
  let created := Store.run [.createExtent 7 1025] (.empty 67108864)
  have hcreated : created.Live 7 1025 .blank := Store.live_iff.mpr (by decide +kernel)
  have hused : created.used = 0 := by decide +kernel
  have hcapacity : created.capacity = 67108864 := by decide +kernel
  have hoffset : (0 : Int64) ≤ 16777216 := by decide
  obtain ⟨e, hlive, hsize⟩ := Store.live_extended hcreated bytes (Bytes.zeros 1) hoffset hbytes.symm
    (by rw [hused, hcapacity, hbytes]; decide)
    (by rw [hused, hcapacity, hbytes, Bytes.size_zeros]; decide)
  have hstore : store = Store.run [.write 7 1025 0 bytes, .write 7 1025 16777216 (Bytes.zeros 1)]
      created := Store.run_append [.createExtent 7 1025] [_, _] _
  rw [← hstore] at hlive
  rw [hbytes, Bytes.size_zeros] at hsize
  have hdecodable : p.Decodable := by
    have hfits : p.Fits := ⟨⟨rfl, rfl⟩, by decide, by decide, by decide, by decide⟩
    have hframe : (Source.ofBytes p.frame).bytes = p.frame ++ .empty := by simp
    obtain ⟨pool, rest, hd, -⟩ := hfits.decode_frame .standard hframe
    exact ⟨_, _, pool, rest, hd⟩
  have hend : p.header.offset.toNatClampNeg + p.header.size.toNat ≤ e.content.size := by
    rw [hsize]
    decide
  have hparse : Request.parseFollowers p = .ok [] := by decide +kernel
  have hlong : Wire.maxPayloadSize < p.header.size.toNat := by decide
  have hstart : 0 ≤ p.header.offset := by decide
  have hengine : (environment {} .unreachable 0 : Environment Store Unit).engine = Store.engine := rfl
  obtain ⟨q, hanswers, hok, hoversized⟩ := answersWith_oversized hengine (p := p) (n := n)
    (k := .unbounded) rfl rfl rfl ⟨_, hparse⟩ ⟨rfl, rfl⟩ hlive hstart hend hlong
  exact ⟨hdecodable, q, hanswers, hok, hoversized.not_readable⟩

end Node

end ReplicaChain
