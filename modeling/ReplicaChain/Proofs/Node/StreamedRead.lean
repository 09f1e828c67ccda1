import Mathlib.Algebra.Ring.Nat
import Mathlib.Data.List.Basic
import ReplicaChain.Proofs.Extent.Effect
import ReplicaChain.Proofs.Node.Responses

/-!
# Reads and streamed reads

A read is answered by one frame with everything that was asked for, and a streamed read by a frame for
every block of it.  The two ways of answering share nothing but the storage.  They agree all the same:
the blocks put together are the body of the one frame, every block says where in the extent it lies, and
a read that is refused is refused in the same words.
-/

namespace ReplicaChain

open Extent (Store)
open Wire (Packet)

/-! ## Blocks -/

theorem Source.join_append (l l' : List ByteArray) : join (l ++ l') = join l ++ join l' := by
  induction l with
  | nil => simp
  | cons b l ih => rw [List.cons_append, join_cons, join_cons, ih, ByteArray.append_assoc]

namespace Handling

/-- How bytes are cut into blocks: full ones from the front on, and a last one that is empty only if
there is nothing to cut. -/
inductive Blocks : ByteArray → List ByteArray → Prop
  | last {b : ByteArray} (h : b.size ≤ blockSize) : Blocks b [b]
  | cons {b : ByteArray} {rest : List ByteArray} (h : blockSize < b.size)
      (hrest : Blocks (Bytes.drop blockSize b) rest) : Blocks b (Bytes.take blockSize b :: rest)

theorem pieces_eq_cons {b : ByteArray} (hb : 0 < b.size) :
    Bytes.pieces blockSize b =
      Bytes.take blockSize b :: Bytes.pieces blockSize (Bytes.drop blockSize b) := by
  rw [Bytes.pieces, dif_neg (by simp only [blockSize]; omega)]

theorem pieces_of_size_eq_zero {b : ByteArray} (hb : b.size = 0) :
    Bytes.pieces blockSize b = [] := by
  rw [Bytes.pieces, dif_pos (.inr hb)]

theorem blocks_streamPieces (b : ByteArray) : Blocks b (streamPieces b) := by
  induction hsize : b.size using Nat.strongRecOn generalizing b with
  | ind size ih =>
    subst hsize
    unfold streamPieces
    split
    · exact .last (by omega)
    · rename_i hpos
      rw [pieces_eq_cons (Nat.pos_of_ne_zero hpos)]
      by_cases hlast : b.size ≤ blockSize
      · have hdrop : (Bytes.drop blockSize b).size = 0 := by rw [Bytes.size_drop]; omega
        rw [pieces_of_size_eq_zero hdrop, Bytes.take_of_size_le hlast]
        exact .last hlast
      · have hdrop : (Bytes.drop blockSize b).size = b.size - blockSize := Bytes.size_drop _ _
        have hblock : 0 < blockSize := by decide
        have hrest := ih _ (by omega) (Bytes.drop blockSize b) rfl
        rw [streamPieces, if_neg (by omega)] at hrest
        exact .cons (Nat.lt_of_not_le hlast) hrest

variable {b : ByteArray} {l : List ByteArray}

theorem Blocks.ne_nil (h : Blocks b l) : l ≠ [] := by
  cases h <;> simp

theorem Blocks.join_eq (h : Blocks b l) : Source.join l = b := by
  induction h with
  | last => simp
  | cons _ _ ih => rw [Source.join_cons, ih, Bytes.take_append_drop]

/-- There are as many blocks as it takes, but at least one. -/
theorem Blocks.length_eq (h : Blocks b l) :
    l.length = max 1 ((b.size + (blockSize - 1)) / blockSize) := by
  induction h with
  | last h =>
    simp only [blockSize] at h ⊢
    simp only [List.length_singleton]
    omega
  | cons h _ ih =>
    rw [Bytes.size_drop] at ih
    simp only [blockSize] at h ih ⊢
    rw [List.length_cons, ih]
    omega

theorem Blocks.size_le (h : Blocks b l) : ∀ piece ∈ l, piece.size ≤ blockSize := by
  induction h with
  | last h => simpa using h
  | cons _ _ ih =>
    intro piece hpiece
    rcases List.mem_cons.mp hpiece with rfl | hpiece
    · rw [Bytes.size_take]
      exact Nat.min_le_left _ _
    · exact ih piece hpiece

/-- All blocks but the last are full. -/
theorem Blocks.size_eq (h : Blocks b l) : ∀ piece ∈ l.dropLast, piece.size = blockSize := by
  induction h with
  | last => simp
  | cons h hrest ih =>
    intro piece hpiece
    rw [List.dropLast_cons_of_ne_nil hrest.ne_nil] at hpiece
    rcases List.mem_cons.mp hpiece with rfl | hpiece
    · rw [Bytes.size_take]
      omega
    · exact ih piece hpiece

/-! ## Frames -/

/-- A packet answers a request with some of the bytes asked for. -/
structure BlockReply (request : Wire.Header) (q : Packet) : Prop where
  opcode_eq : q.header.opcode = .ok
  result_eq : q.header.result = .ok
  requestId_eq : q.header.requestId = request.requestId
  partition_eq : q.header.partition = request.partition
  extent_eq : q.header.extent = request.extent
  crc_eq : q.header.crc = Checksum.crc32 q.payload

/-- Packets answer a request with all the bytes asked for, block by block, and each says where its block
lies. -/
structure Streams (request : Wire.Header) (body : ByteArray) (qs : List Packet) : Prop where
  replies : ∀ q ∈ qs, BlockReply request q
  length_eq : qs.length = max 1 ((body.size + (blockSize - 1)) / blockSize)
  join_eq : Source.join (qs.map Packet.payload) = body
  size_eq : ∀ q ∈ qs.dropLast, q.payload.size = blockSize
  offset_eq : ∀ sent q rest, qs = sent ++ q :: rest →
    q.header.offset = request.offset + .ofNat (Bytes.totalSize (sent.map Packet.payload))

theorem payload_reply {code : Wire.ResultCode} {body : ByteArray} (p : Packet)
    (hbody : body.size ≤ 0xFFFFFFFF) : (p.reply code body).payload = body := by
  have hsize := Packet.size_reply code body p
  rw [Nat.min_eq_left hbody] at hsize
  rw [Packet.payload, hsize]
  exact Bytes.take_of_size_le (Nat.le_refl _)

variable {now : Int64} {request : Wire.Header} {offset : Int64} {piece : ByteArray}
  {pieces : List ByteArray}

theorem payload_streamFrame (hpiece : piece.size ≤ blockSize) :
    (streamFrame now request offset piece).payload = piece := by
  obtain ⟨q, hq⟩ := streamFrame_eq_reply now request offset piece
  rw [hq, payload_reply]
  exact Nat.le_trans hpiece (by decide)

theorem map_payload_streamFrames (hpieces : ∀ piece ∈ pieces, piece.size ≤ blockSize) :
    (streamFrames now request offset pieces).map Packet.payload = pieces := by
  induction pieces generalizing offset with
  | nil => rfl
  | cons piece pieces ih =>
    rw [streamFrames, List.map_cons, payload_streamFrame (hpieces piece (by simp)),
      ih fun rest hrest ↦ hpieces rest (List.mem_cons_of_mem piece hrest)]

theorem blockReply_of_mem_streamFrames (hpieces : ∀ piece ∈ pieces, piece.size ≤ blockSize)
    {q : Packet} (hq : q ∈ streamFrames now request offset pieces) : BlockReply request q := by
  induction pieces generalizing offset with
  | nil => simp [streamFrames] at hq
  | cons piece pieces ih =>
    rcases List.mem_cons.mp hq with rfl | hq
    · refine ⟨rfl, rfl, rfl, rfl, rfl, ?_⟩
      rw [payload_streamFrame (hpieces piece (by simp))]
      rfl
    · exact ih (fun rest hrest ↦ hpieces rest (List.mem_cons_of_mem piece hrest)) hq

theorem offset_streamFrames (hpieces : ∀ piece ∈ pieces, piece.size ≤ blockSize)
    {sent rest : List Packet} {q : Packet}
    (hsplit : streamFrames now request offset pieces = sent ++ q :: rest) :
    q.header.offset = offset + .ofNat (Bytes.totalSize (sent.map Packet.payload)) := by
  induction pieces generalizing offset sent with
  | nil => simp [streamFrames] at hsplit
  | cons piece pieces ih =>
    have hpieces' : ∀ rest ∈ pieces, rest.size ≤ blockSize :=
      fun rest hrest ↦ hpieces rest (List.mem_cons_of_mem piece hrest)
    cases sent with
    | nil =>
      obtain ⟨rfl, -⟩ := List.cons.inj hsplit
      change offset = offset + .ofNat 0
      simp
    | cons first sent =>
      obtain ⟨rfl, htail⟩ := List.cons.inj hsplit
      rw [ih hpieces' htail, List.map_cons, payload_streamFrame (hpieces piece (by simp)),
        Bytes.totalSize_cons, Int64.ofNat_add, Int64.add_assoc]
      rfl

theorem streams_streamFrames (now : Int64) (request : Wire.Header) (body : ByteArray) :
    Streams request body (streamFrames now request request.offset (streamPieces body)) := by
  have hblocks := blocks_streamPieces body
  have hpayloads : (streamFrames now request request.offset (streamPieces body)).map Packet.payload =
      streamPieces body := map_payload_streamFrames hblocks.size_le
  refine ⟨fun q ↦ blockReply_of_mem_streamFrames hblocks.size_le, ?_, ?_, fun q hq ↦ ?_,
    fun sent q rest ↦ offset_streamFrames hblocks.size_le⟩
  · rw [← hblocks.length_eq, ← congrArg List.length hpayloads, List.length_map]
  · rw [hpayloads, hblocks.join_eq]
  · refine hblocks.size_eq q.payload ?_
    rw [← hpayloads, ← List.map_dropLast]
    exact List.mem_map_of_mem hq

/-! ## Reads of a store -/

theorem read_of_live {partition extent : UInt64} {e : Extent.State} {offset : Int64} {size : UInt32}
    {s : Store} (he : s.Live partition extent e) (hoffset : 0 ≤ offset)
    (hend : offset.toNatClampNeg + size.toNat ≤ e.content.size) :
    s.read partition extent offset size =
      .ok (e.content.extract offset.toNatClampNeg (offset.toNatClampNeg + size.toNat)) := by
  obtain ⟨p, hp, hlive⟩ := he.exists_live
  simp only [Store.read, if_neg (Int64.not_lt.mpr hoffset), hp, hlive, if_neg (Nat.not_lt.mpr hend)]

/-- What is read lies within an extent. -/
theorem size_of_read_eq_ok {partition extent : UInt64} {offset : Int64} {size : UInt32} {s : Store}
    {body : ByteArray} (h : s.read partition extent offset size = .ok body) :
    0 ≤ offset ∧ body.size = size.toNat ∧ ∃ e, s.extentAt partition extent = some e ∧
      offset.toNatClampNeg + body.size ≤ e.content.size := by
  unfold Store.read at h
  split at h
  · cases h
  · rename_i hoffset
    split at h
    · cases h
    · rename_i p hp
      split at h
      · cases h
      · rename_i e hlive
        dsimp only at h
        split at h
        · cases h
        · rename_i hsize
          obtain rfl := Except.ok.inj h
          have hbody : (e.content.extract offset.toNatClampNeg
              (offset.toNatClampNeg + size.toNat)).size = size.toNat := by
            rw [ByteArray.size_extract]
            omega
          refine ⟨Int64.not_lt.mp hoffset, hbody, e, ?_, by omega⟩
          rw [Store.extentAt, hp]
          exact (Extent.Partition.live_eq_ok_iff.mp hlive).2.1

theorem performed_of_isRead {p : Packet} (hp : p.header.opcode.isRead = true) (s : Store) :
    performed Store.engine p s =
      (((s.read p.header.partition p.header.extent p.header.offset p.header.size).map .bytes).mapError
        .storage, s) := by
  have hop : operationOf p =
      .ok (.read p.header.partition p.header.extent p.header.offset p.header.size) := by
    simp only [Wire.Opcode.isRead, Bool.or_eq_true, decide_eq_true_eq] at hp
    rcases hp with (h | h) | h <;> simp only [operationOf, h]
  rw [performed, hop]
  simp only [Store.engine, Store.perform]
  cases s.read p.header.partition p.header.extent p.header.offset p.header.size <;> rfl

section Responses

variable {p : Packet} {s : Store} {body : ByteArray}

theorem applied_of_read_ok (hp : p.header.opcode.isRead = true)
    (h : s.read p.header.partition p.header.extent p.header.offset p.header.size = .ok body) :
    applied Store.engine p s = (p.replyWith body, s) := by
  have hperformed := performed_of_isRead hp s
  rw [h] at hperformed
  rw [applied, hperformed]
  rfl

theorem applied_of_read_error {fault : StorageFault} (hp : p.header.opcode.isRead = true)
    (h : s.read p.header.partition p.header.extent p.header.offset p.header.size = .error fault) :
    applied Store.engine p s = (p.replyFault .operate (.storage fault), s) := by
  have hperformed := performed_of_isRead hp s
  rw [h] at hperformed
  rw [applied, hperformed]
  rfl

theorem responses_of_read_error {fault : StorageFault} (hp : p.header.opcode.isRead = true)
    (h : s.read p.header.partition p.header.extent p.header.offset p.header.size = .error fault)
    (now : Int64) :
    responses Store.engine now p s = [p.replyFault .operate (.storage fault)] := by
  have hperformed := performed_of_isRead hp s
  rw [h] at hperformed
  rw [responses, applied_of_read_error hp h, hperformed]
  cases p.header.opcode.streamsReply <;> rfl

theorem responses_of_streamRead_ok (hp : p.header.opcode = .streamRead)
    (h : s.read p.header.partition p.header.extent p.header.offset p.header.size = .ok body)
    (now : Int64) :
    responses Store.engine now p s =
      streamFrames now p.header p.header.offset (streamPieces body) := by
  have hperformed := performed_of_isRead (p := p) (by rw [hp]; rfl) s
  rw [h] at hperformed
  rw [responses, hperformed, hp]
  rfl

end Responses

end Handling

namespace Node

open Handling

variable {σ : Type}

/-- A node answers a packet with some frames and goes on with the storage, the links, the counts of relays
and the network that it had. -/
def AnswersWith (env : Environment Store σ) (p : Packet) (n : Node Store σ) (k : Sink)
    (qs : List Packet) : Prop :=
  ∃ m out, handle env p n k = (none, m, k.append out) ∧ IsResponse qs out ∧ m.store = n.store ∧
    m.forwarder = { n.forwarder with buffers := n.forwarder.buffers.release p.data }

/-- A packet that is not relayed and leaves the storage as it is gets its responses. -/
theorem answersWith_responses {env : Environment Store σ} {p : Packet} {n : Node Store σ} {k : Sink}
    {addresses : List String} (hk : k.room = none) (hm : p.header.opcode.isMaster = false)
    (hparse : Request.parseFollowers p = .ok addresses)
    (hlocal : (Request.ofPacket p).isForward = false)
    (hstore : (applied env.engine p n.store).2 = n.store) :
    AnswersWith env p n k (responses env.engine env.now p n.store) := by
  let x := opening env p n k
  have hx : (x.resolved addresses).client.room = none := hk
  obtain ⟨y, (ho : _ = _), hy, hforwarder, hclient⟩ := exists_operate_responses hx rfl
  have hprocess : x.process env = (none, y) := by
    have hmaster : x.request.isMasterCommand = false := hm
    have hfollowers : Request.parseFollowers x.request.packet = .ok addresses := hparse
    have hforward : (x.resolved addresses).request.isForward = false := hlocal
    rw [process_of_parse_ok hmaster hfollowers, processResolved_of_local hforward, ho]
  obtain ⟨m, out, -, hhandle⟩ := exists_handle_eq env p n
  obtain ⟨hmstore, hmforwarder⟩ := handle_node env p n k
  have hsink := (handle_of_process hprocess).2
  rw [hhandle k hk] at hmstore hmforwarder hsink
  rw [show opening env p n k = x from rfl, hprocess] at hmstore hmforwarder
  refine ⟨m, _, ?_, ⟨rfl, fun q ↦ encode_of_mem_responses⟩, ?_, ?_⟩
  · rw [hhandle k hk]
    exact congrArg (fun k' ↦ (none, m, k')) (hsink.trans hclient)
  · exact hmstore.trans (hy.trans hstore)
  · rw [hmforwarder, hforwarder]
    rfl

/-- A read that is not relayed, and the same read to be streamed. -/
structure Counterparts (p r : Packet) : Prop where
  read : p.header.opcode = .read
  streamRead : r.header.opcode = .streamRead
  remaining_eq : p.header.remaining = 0
  named : ∃ addresses, Request.parseFollowers p = .ok addresses
  named' : ∃ addresses, Request.parseFollowers r = .ok addresses
  partition_eq : r.header.partition = p.header.partition
  extent_eq : r.header.extent = p.header.extent
  offset_eq : r.header.offset = p.header.offset
  size_eq : r.header.size = p.header.size
  requestId_eq : r.header.requestId = p.header.requestId

variable {env : Environment Store σ} {p r : Packet} {n : Node Store σ} {k : Sink}

/-- A read that is not relayed, be it streamed or not, gets its responses. -/
theorem answersWith_of_isRead (hengine : env.engine = Store.engine) (hk : k.room = none)
    (hread : p.header.opcode.isRead = true) (hparse : ∃ addresses, Request.parseFollowers p = .ok addresses)
    (hlocal : (Request.ofPacket p).isForward = false) :
    AnswersWith env p n k (responses Store.engine env.now p n.store) := by
  obtain ⟨addresses, hparse⟩ := hparse
  rw [← hengine]
  refine answersWith_responses hk ?_ hparse hlocal ?_
  · simp only [Wire.Opcode.isRead, Bool.or_eq_true, decide_eq_true_eq] at hread
    rcases hread with (h | h) | h <;> rw [h] <;> rfl
  · rw [hengine]
    cases h : n.store.read p.header.partition p.header.extent p.header.offset p.header.size with
    | error fault => rw [applied_of_read_error hread h]
    | ok body => rw [applied_of_read_ok hread h]

/-- The offset of a frame is that of its block, as long as the end of what is read is in reach of an
offset. -/
theorem toInt_offset {request : Wire.Header} {body : ByteArray} {frames sent rest : List Packet}
    {q : Packet} (h : Streams request body frames) (hoffset : 0 ≤ request.offset)
    (hfits : request.offset.toNatClampNeg + body.size < 2 ^ 63) (hsplit : frames = sent ++ q :: rest) :
    q.header.offset.toInt =
      request.offset.toInt + Bytes.totalSize (sent.map Packet.payload) := by
  -- A frame begins before the end of the body, and the end is in reach.
  have hsent : Bytes.totalSize (sent.map Packet.payload) ≤ body.size := by
    rw [← h.join_eq, hsplit, List.map_append, Source.join_append, ByteArray.size_append,
      Source.size_join]
    exact Nat.le_add_right _ _
  have hpos : 0 ≤ request.offset.toInt := Int64.le_iff_toInt_le.mp hoffset
  have hnat : (request.offset.toNatClampNeg : Int) = request.offset.toInt :=
    Int.toNat_of_nonneg hpos
  rw [h.offset_eq sent q rest hsplit, Int64.toInt_add, Int64.toInt_ofNat_of_lt (by omega)]
  exact Int.bmod_eq_of_le (by omega) (by omega)

/-- A read that is answered with success by one frame is answered, when it is to be streamed, by as many
frames as its body has blocks and by nothing else.  The frames hold the body block by block, and each
says for which request it is and where its block lies; no offset overflows as long as the extents are not
larger than an offset can tell.  A read that fails is answered in both ways by one frame with the same
result and the same body.  Neither way changes the storage or takes the node to a follower. -/
theorem streamed_read_agrees (hengine : env.engine = Store.engine) (h : Counterparts p r)
    {n' : Node Store σ} {k' : Sink} (hstore : n'.store = n.store) (hk : k.room = none)
    (hk' : k'.room = none) :
    let q := (applied env.engine p n.store).1
    AnswersWith env p n k [q] ∧
      (q.header.result = .ok → ∃ frames, AnswersWith env r n' k' frames ∧
        Streams r.header q.payload frames ∧
        ((∀ partition extent e, n.store.extentAt partition extent = some e →
            e.content.size < 2 ^ 63) →
          ∀ sent q' rest, frames = sent ++ q' :: rest → q'.header.offset.toInt =
            r.header.offset.toInt + Bytes.totalSize (sent.map Packet.payload))) ∧
      (q.header.result ≠ .ok → ∃ q', AnswersWith env r n' k' [q'] ∧
        q'.header.result = q.header.result ∧ q'.payload = q.payload) := by
  intro q
  have hp : p.header.opcode.isRead = true := by rw [h.read]; rfl
  have hr : r.header.opcode.isRead = true := by rw [h.streamRead]; rfl
  have hplain : AnswersWith env p n k (responses Store.engine env.now p n.store) := by
    refine answersWith_of_isRead hengine hk hp h.named ?_
    rw [Request.isForward, Request.ofPacket, h.remaining_eq]
    rfl
  have hstreamed : AnswersWith env r n' k' (responses Store.engine env.now r n'.store) := by
    refine answersWith_of_isRead hengine hk' hr h.named' ?_
    rw [Request.isForward, Request.ofPacket, h.streamRead]
    exact Bool.and_false _
  have hsame : n'.store.read r.header.partition r.header.extent r.header.offset r.header.size =
      n.store.read p.header.partition p.header.extent p.header.offset p.header.size := by
    rw [hstore, h.partition_eq, h.extent_eq, h.offset_eq, h.size_eq]
  rw [responses_of_not_streamed _ _ _ (by rw [h.read]; rfl), ← hengine] at hplain
  refine ⟨hplain, ?_⟩
  simp only [q, hengine]
  rcases hbody : n.store.read p.header.partition p.header.extent p.header.offset p.header.size with
    fault | body
  · rw [responses_of_read_error hr (hsame.trans hbody)] at hstreamed
    rw [applied_of_read_error hp hbody]
    have hcode : r.faultCode .operate (.storage fault) = p.faultCode .operate (.storage fault) := by
      unfold Packet.faultCode
      rw [h.read, h.streamRead]
      cases fault <;> rfl
    exact ⟨fun hok ↦ absurd hok (Packet.faultCode_ne_ok _ _ p), fun _ ↦
      ⟨_, hstreamed, hcode, rfl⟩⟩
  · rw [responses_of_streamRead_ok h.streamRead (hsame.trans hbody)] at hstreamed
    rw [applied_of_read_ok hp hbody]
    obtain ⟨hoffset, hsize, e, he, hend⟩ := size_of_read_eq_ok hbody
    rw [← h.offset_eq] at hoffset hend
    have hpayload : (p.replyWith body).payload = body := payload_reply p <| by
      rw [hsize]
      exact Nat.le_of_lt_succ p.header.size.toNat_lt
    have hstreams := streams_streamFrames env.now r.header body
    refine ⟨fun _ ↦ ⟨_, hstreamed, by rwa [hpayload], fun hextents sent q' rest ↦ ?_⟩,
      fun hne ↦ absurd rfl hne⟩
    exact toInt_offset hstreams hoffset (Nat.lt_of_le_of_lt hend (hextents _ _ _ he))

/-- A read of one byte more than a block takes two frames when it is streamed. -/
theorem streamed_read_agrees_two_blocks :
    let content := Bytes.zeros 131073
    let store := (Store.empty 1048576).setExtent 7 1025 .blank ⟨content, false⟩
    let n : Node Store Unit := { ofSettings {} () with store }
    let r := (Packet.range 0 1 .streamRead 7 1025 0 131073).withFollowers
      (Follower.encode ["a:1"]).toUTF8 1
    ∃ frames, AnswersWith (environment {} .unreachable 0) r n .unbounded frames ∧
      frames.length = 2 ∧ Source.join (frames.map Packet.payload) = content := by
  intro content store n r
  have hcontent : content.size = 131073 := Bytes.size_zeros _
  clear_value content
  let env : Environment Store Unit := environment {} .unreachable 0
  let p := Packet.read 0 1 7 1025 0 131073
  have hp : Request.parseFollowers p = .ok [] := by decide +kernel
  have hr : Request.parseFollowers r = .ok ["a:1"] := by decide +kernel
  have h : Counterparts p r := ⟨rfl, rfl, rfl, ⟨[], hp⟩, ⟨_, hr⟩, rfl, rfl, rfl, rfl, rfl⟩
  have hread : n.store.read p.header.partition p.header.extent p.header.offset p.header.size =
      .ok content := by
    have hlive : store.Live 7 1025 ⟨content, false⟩ :=
      ⟨_, Std.ExtTreeMap.getElem?_insert_self, rfl, Std.ExtTreeMap.getElem?_insert_self, rfl⟩
    have hend : (0 : Int64).toNatClampNeg + (131073 : UInt32).toNat ≤ content.size := by
      rw [hcontent]
      decide
    have hextract : content.extract 0 131073 = content :=
      Bytes.take_of_size_le (Nat.le_of_eq hcontent)
    exact (read_of_live hlive (by decide) hend).trans (congrArg Except.ok hextract)
  have hreply : (applied env.engine p n.store).1 = p.replyWith content := by
    rw [show env.engine = Store.engine from rfl, applied_of_read_ok rfl hread]
  have hpayload : (applied env.engine p n.store).1.payload = content := by
    rw [hreply]
    exact payload_reply p (by rw [hcontent]; decide)
  have hk : Sink.unbounded.room = none := rfl
  obtain ⟨-, hok, -⟩ := streamed_read_agrees (show env.engine = Store.engine from rfl) h
    (show n.store = n.store from rfl) hk hk
  obtain ⟨frames, hanswers, hstreams, -⟩ := hok (congrArg (·.header.result) hreply)
  rw [hpayload] at hstreams
  refine ⟨frames, hanswers, ?_, hstreams.join_eq⟩
  rw [hstreams.length_eq, hcontent]
  rfl

end Node

end ReplicaChain
