import ReplicaChain.Proofs.Node.ReplyShape
import ReplicaChain.Proofs.Wire.Burst

/-!
# Corrupted writes

The checksum of a write is compared before its payload reaches the storage.  A payload that was changed on
its way within four consecutive bytes has another checksum, so it is refused, the storage is not asked, and
the connection goes on with the packet that follows.
-/

namespace ReplicaChain

open Wire (Header Packet)

variable {ω σ : Type}

/-- A header as it is sent before a payload that is to be written by one node alone. -/
structure Wire.Header.AnnouncesWrite (payload : ByteArray) (h : Header) : Prop where
  magic_eq : h.magic = 0xFF
  opcode_eq : h.opcode = .write
  remaining_eq : h.remaining = 0
  argumentSize_eq : h.argumentSize = 0
  size_eq : h.size.toNat = payload.size
  size_le : payload.size ≤ Wire.maxPayloadSize
  crc_eq : h.crc = Checksum.crc32 payload

namespace Wire.Header.AnnouncesWrite

variable {h : Header} {payload corrupted : ByteArray}

theorem payloadSize_eq (hh : h.AnnouncesWrite payload) : h.payloadSize = payload.size := by
  rw [Header.payloadSize, Header.defersPayload, hh.opcode_eq]
  exact hh.size_eq

/-- Another payload of the announced size makes a frame with the header. -/
theorem fits (hh : h.AnnouncesWrite payload) (hsize : corrupted.size = payload.size) :
    Packet.Fits ⟨h, .empty, .detached corrupted⟩ where
  canonical := ⟨hh.magic_eq, by rw [hh.opcode_eq]; rfl⟩
  argument_le := by simp [hh.argumentSize_eq]
  argument_limit := by simp [hh.argumentSize_eq]
  payload_le := Nat.le_of_eq (hh.payloadSize_eq.trans hsize.symm)
  payload_limit := hh.payloadSize_eq.trans_le hh.size_le

theorem frame_eq (hh : h.AnnouncesWrite payload) (hsize : corrupted.size = payload.size) :
    Packet.frame ⟨h, .empty, .detached corrupted⟩ = h.encode ++ corrupted := by
  have hpayload : Bytes.take h.payloadSize corrupted = corrupted :=
    Bytes.take_of_size_le (Nat.le_of_eq (hsize.trans hh.payloadSize_eq.symm))
  change h.encode ++ Bytes.take h.argumentSize.toNat .empty ++ Bytes.take h.payloadSize corrupted = _
  rw [hpayload, Bytes.take_of_size_le (Nat.zero_le _), ByteArray.append_empty]

end Wire.Header.AnnouncesWrite

namespace Node

open Handling

variable {env : Environment ω σ} {n : Node ω σ} {p : Packet} {fault : Fault}

/-- A packet that is not relayed and asks for nothing that can be done leaves the storage alone and is
answered by a report of the fault. -/
theorem exists_handle_of_operationOf_error (env : Environment ω σ) (n : Node ω σ)
    (hm : p.header.opcode.isMaster = false) {addresses : List String}
    (hparse : Request.parseFollowers p = .ok addresses)
    (hlocal : (Request.ofPacket p).isForward = false) (hop : operationOf p = .error fault) (k : Sink) :
    ∃ m : Node ω σ, m.store = n.store ∧ handle env p n k =
      match (p.replyFault .operate fault).writeTo k with
      | (.ok _, k') => (none, m, k')
      | (.error unwritten, k') => (some unwritten, m, k') := by
  let x := opening env p n k
  let y := (x.resolved addresses).fail .operate fault
  have hperform : (x.resolved addresses).perform env = (.error fault, x.resolved addresses) := by
    rw [perform, show operationOf (x.resolved addresses).request.packet = .error fault from hop]
  have hprocess : x.process env = (none, y) := by
    rw [process_of_parse_ok (x := x) hm hparse,
      processResolved_of_local (x := x.resolved addresses) hlocal, operate_of_error hperform]
  obtain ⟨hresult, hclient⟩ := handle_of_process hprocess
  obtain ⟨hstore, -⟩ := handle_node env p n k
  rw [show (opening env p n k).process env = (none, y) from hprocess] at hstore
  refine ⟨(handle env p n k).2.1, hstore, ?_⟩
  have hneeds : y.request.needsReply = true := rfl
  have hwrite : y.request.packet.writeTo y.client = (p.replyFault .operate fault).writeTo k := rfl
  refine Prod.ext ?_ (Prod.ext ?_ ?_)
  · rw [hresult, reply, if_pos hneeds, hwrite]
    rcases (p.replyFault .operate fault).writeTo k with ⟨_ | _, k'⟩ <;> rfl
  · rcases (p.replyFault .operate fault).writeTo k with ⟨_ | _, k'⟩ <;> rfl
  · rw [hclient, reply, if_pos hneeds, hwrite]
    rcases (p.replyFault .operate fault).writeTo k with ⟨_ | _, k'⟩ <;> rfl

/-- What a reader gets of a write whose payload was changed is refused for its checksum. -/
theorem operationOf_received_of_corrupted {h : Header} {payload corrupted : ByteArray}
    (hh : h.AnnouncesWrite payload) (hsize : corrupted.size = payload.size)
    (hcrc : Checksum.crc32 corrupted ≠ Checksum.crc32 payload) :
    operationOf (Packet.received ⟨h, .empty, .detached corrupted⟩) =
      .error (.checksum (Checksum.crc32 payload) (Checksum.crc32 corrupted)) := by
  have hpayload : (Packet.received ⟨h, .empty, .detached corrupted⟩).payload = corrupted := by
    change Bytes.take h.size.toNat (Bytes.take h.payloadSize corrupted) = corrupted
    rw [hh.payloadSize_eq, hh.size_eq, ← hsize, Bytes.take_of_size_le (Nat.le_refl _),
      Bytes.take_of_size_le (Nat.le_refl _)]
  have hheader : (Packet.received ⟨h, .empty, .detached corrupted⟩).header = h := rfl
  rw [operationOf, hheader, hh.opcode_eq]
  simp only [Packet.verifyChecksum, hpayload, hheader, hh.crc_eq, if_neg hcrc]

/-- A write whose payload was changed within four consecutive bytes leaves the storage as it was.  It is
answered by a report of the checksums, and if the client takes the answer then the connection goes on with
what follows the write. -/
theorem corrupted_write_refused (env : Environment ω σ) (n : Node ω σ) {h : Header} {start : Nat}
    {payload corrupted t : ByteArray} {s : Source} (hh : h.AnnouncesWrite payload)
    (hdiffers : Checksum.DiffersWithin start 4 payload corrupted) (hne : payload ≠ corrupted)
    (hs : s.bytes = h.encode ++ corrupted ++ t) (k : Sink) :
    ∃ (m : Node ω σ) (rest : Source) (q : Packet),
      m.store = n.store ∧ rest.bytes = t ∧ rest.ending = s.ending ∧
        Packet.IsReplyTo ⟨h, .empty, .detached corrupted⟩ q ∧ q.header.result = .intraGroupNet ∧
        q.payload = Bytes.ofText ("OperatePkg_CRC mismatch: expected " ++
          Text.hex (Checksum.crc32 payload).toNat ++ ", got " ++
          Text.hex (Checksum.crc32 corrupted).toNat) ∧
        serve env n s k =
          match q.writeTo k with
          | (.ok _, k') => serve env m rest k'
          | (.error unwritten, k') => (some unwritten, m, k') := by
  let p : Packet := ⟨h, .empty, .detached corrupted⟩
  let fault : Fault := .checksum (Checksum.crc32 payload) (Checksum.crc32 corrupted)
  have hsize : corrupted.size = payload.size := hdiffers.size_eq.symm
  have hcrc : Checksum.crc32 corrupted ≠ Checksum.crc32 payload := fun hcrc ↦
    hne (Checksum.eq_of_crc32_eq hdiffers hcrc.symm)
  obtain ⟨buffers, rest, hd, hrest, hending⟩ :=
    (hh.fits hsize).decode_frame n.forwarder.buffers (hs.trans (by rw [hh.frame_eq hsize]))
  have hmaster : p.received.header.opcode.isMaster = false := by
    change h.opcode.isMaster = false
    rw [hh.opcode_eq]
    rfl
  have hparse : Request.parseFollowers p.received = .ok [] := by
    have hargument : Follower.parse p.received.argument p.received.header.argumentSize.toNat = .ok [] := by
      change Follower.parse (Bytes.take h.argumentSize.toNat .empty) h.argumentSize.toNat = .ok []
      rw [hh.argumentSize_eq]
      rfl
    have hcount : Follower.checkHopCount p.received.header.remaining = .ok () := by
      change Follower.checkHopCount h.remaining = .ok ()
      rw [hh.remaining_eq]
      rfl
    rw [Request.parseFollowers, hargument, hcount]
  have hlocal : (Request.ofPacket p.received).isForward = false := by
    change (decide (0 < h.remaining) && !h.opcode.streamsReply) = false
    rw [hh.remaining_eq]
    rfl
  have hop := operationOf_received_of_corrupted hh hsize hcrc
  obtain ⟨m, hstore, hhandle⟩ :=
    exists_handle_of_operationOf_error env (n.setBuffers buffers) hmaster hparse hlocal hop k
  have hbody : fault.IsReportable .operate := Fault.isReportable_of_hasShortParts _ trivial
  have hreply := Packet.isReplyTo_reply (p.faultCode_mem_replies .operate fault) hbody p
  refine ⟨m, rest, p.replyFault .operate fault, hstore, hrest, hending, hreply, rfl,
    payload_reply p (Nat.le_of_lt_succ hbody), ?_⟩
  have hwritten : p.received.replyFault .operate fault = p.replyFault .operate fault := rfl
  rw [hwritten] at hhandle
  rcases hw : (p.replyFault .operate fault).writeTo k with ⟨unwritten | _, k'⟩ <;> rw [hw] at hhandle
  · exact serve_of_unwritten hd hhandle
  · exact serve_of_ok hd hhandle

/-- One byte of four is changed, and the write arrives in two pieces. -/
theorem corrupted_write_refused_byte :
    let h := (Packet.write 0 1 1 1 0 (Bytes.ofText "data")).header
    let n : Node Extent.Store Unit := ofSettings {} ()
    let env : Environment Extent.Store Unit := environment {} .unreachable 0
    let s : Source := ⟨[h.encode ++ Bytes.ofText "da", Bytes.ofText "Ta"], .closed⟩
    h.AnnouncesWrite (Bytes.ofText "data") ∧
      Checksum.DiffersWithin 2 4 (Bytes.ofText "data") (Bytes.ofText "daTa") ∧
      ∃ (m : Node Extent.Store Unit) (rest : Source) (q : Packet),
        m.store = n.store ∧ rest.bytes = .empty ∧ q.header.result = .intraGroupNet ∧
          q.payload =
            Bytes.ofText "OperatePkg_CRC mismatch: expected 0xadf3f363, got 0x3877d7c1" ∧
          serve env n s .unbounded =
            serve env m rest (Sink.unbounded.append (q.header.encode ++ q.payload)) := by
  intro h n env s
  have hh : h.AnnouncesWrite (Bytes.ofText "data") := ⟨rfl, rfl, rfl, rfl, by decide, by decide, rfl⟩
  have hdiffers : Checksum.DiffersWithin 2 4 (Bytes.ofText "data") (Bytes.ofText "daTa") := by
    refine ⟨rfl, ?_⟩
    rintro (_ | _ | _ | _ | i) hi
    · rfl
    · rfl
    · omega
    · omega
    · rfl
  have hs : s.bytes = h.encode ++ Bytes.ofText "daTa" ++ .empty := by
    have hcut : Bytes.ofText "daTa" = Bytes.ofText "da" ++ Bytes.ofText "Ta" := by decide
    simp [s, Source.bytes, hcut, ByteArray.append_assoc]
  obtain ⟨m, rest, q, hstore, hrest, -, hreply, hresult, hpayload, hserve⟩ :=
    corrupted_write_refused env n hh hdiffers (by decide) hs .unbounded
  have hwritten : q.writeTo .unbounded =
      (.ok (), Sink.unbounded.append (q.header.encode ++ q.payload)) := by
    rw [Packet.writeTo, hreply.encode_eq]
    rfl
  rw [hwritten] at hserve
  refine ⟨hh, hdiffers, m, rest, q, hstore, hrest, hresult, hpayload.trans ?_, hserve⟩
  decide +kernel

end Node

end ReplicaChain
