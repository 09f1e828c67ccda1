import ReplicaChain.Node.Startup
import ReplicaChain.Proofs.Extent.Watermarks
import ReplicaChain.Proofs.Node.StreamedRead

/-!
# Replies with watermarks

A replica learns about the extents of another from the body of a reply.  The body is read as a JSON
document, and what is read is the very list that the store made for the half that was asked for.
-/

namespace ReplicaChain.Handling

open Extent (Store Watermark Operation readWatermarks readUsed)
open Wire (Packet)

variable {σ : Type}

/-- The reply to a packet that asks for watermarks holds the report on the half that it names. -/
theorem operate_of_getAllWaterMark {env : Environment Store σ} {x : Handling Store σ} {s : Store}
    {p : Extent.Partition} (hengine : env.engine = Store.engine) (hs : x.node.store = s)
    (hopcode : x.request.packet.header.opcode = .getAllWaterMark)
    (hp : s.partitions[x.request.packet.header.partition]? = some p) :
    ∃ y : Handling Store σ, x.operate env = (none, y) ∧
      y.request.packet = x.request.packet.replyWith
        (Extent.reportWatermarks (p.watermarks (some x.request.packet.header.extentMode))).toUTF8 := by
  let h := x.request.packet.header
  let op : Operation := .watermarks h.partition h.extentMode
  let a : Extent.Answer := .watermarks (p.watermarks (some h.extentMode))
  have hop : operationOf x.request.packet = .ok op := by
    simp only [operationOf, hopcode]
    rfl
  have hanswer : (Store.engine op s).1 = .ok a := Store.engine_watermarks hp h.extentMode
  have hperform : x.perform env = (.ok a, { x with
      node := { x.node with store := (Store.engine op s).2 } }) := by
    rw [perform, hop]
    dsimp only
    rw [hengine, hs, show Store.engine op s = (.ok a, (Store.engine op s).2) from
      Prod.ext hanswer rfl]
  have hstreams : x.request.packet.header.opcode.streamsReply = false := by
    rw [hopcode]
    rfl
  exact ⟨_, operate_of_ok hperform hstreams, rfl⟩

/-- Let a store be reached by any operations.  For every partition that exists, the lists of tiny and of
other extents ascend strictly and have no extent in common.  The one tells of just the extents that are not
deleted and have a number from 1 to 64, the other of just the rest of those that are not deleted, each with
its current length.  What the master is told of the partition is the two merged in order.  The reply to a
request for watermarks, read as JSON, gives back the list of the half that was asked for.  All sizes that
the master is told add up to the used bytes, which a heartbeat reports. -/
theorem watermarks_tell_live_extents {capacity : UInt64} {s : Store} (hs : s.Reached capacity) :
    (∀ partition p, s.partitions[partition]? = some p →
      ∃ tiny normal all : List Watermark,
        (Store.engine (.watermarks partition .tiny) s).1 = .ok (.watermarks tiny) ∧
        (Store.engine (.watermarks partition .normal) s).1 = .ok (.watermarks normal) ∧
        s.loaded partition = some all ∧ s.ReportedBy partition tiny normal all ∧
        ∀ (env : Environment Store σ) (x : Handling Store σ), env.engine = Store.engine →
          x.node.store = s → x.request.packet.header.opcode = .getAllWaterMark →
          x.request.packet.header.partition = partition →
          ∃ (y : Handling Store σ) (body : ByteArray), x.operate env = (none, y) ∧
            y.request.packet.header.result = .ok ∧ y.request.packet.data.bytes = body ∧
            (body.size ≤ 0xFFFFFFFF → y.request.packet.payload = body) ∧
            readWatermarks body = some (match x.request.packet.header.extentMode with
              | .tiny => tiny
              | .normal => normal)) ∧
      (s.partitions.keys.map fun q ↦ (((s.loaded q).getD []).map (·.size.toNat)).sum).sum =
        s.used.toNat ∧
      ∀ q, ∃ body, (Store.engine (.command .dataNodeHeartbeat q) s).1 = .ok (.bytes body) ∧
        readUsed body = some s.used := by
  refine ⟨fun partition p hp ↦ ?_, hs.sum_loaded, fun q ↦ ?_⟩
  · refine ⟨_, _, _, Store.engine_watermarks hp .tiny, Store.engine_watermarks hp .normal,
      Store.loaded_eq hp, hs.reportedBy hp, ?_⟩
    rintro env x hengine hstore hopcode rfl
    obtain ⟨y, hoperate, hreply⟩ := operate_of_getAllWaterMark hengine hstore hopcode hp
    have hread := Extent.readWatermarks_reportWatermarks
      (p.watermarks (some x.request.packet.header.extentMode))
    refine ⟨y, _, hoperate, by rw [hreply]; rfl, congrArg (·.data.bytes) hreply, fun hsize ↦ ?_, ?_⟩
    · rw [hreply]
      exact payload_reply x.request.packet hsize
    · refine hread.trans ?_
      cases x.request.packet.header.extentMode <;> rfl
  · exact ⟨_, rfl, Extent.readUsed_reportHeartbeat _ _ _⟩

/-- A store holds extents around both ends of the tiny numbers, one of them deleted, in an offline
partition.  The reply about the extents that are not tiny names extent zero and extent 65. -/
theorem watermarks_tell_live_extents_boundary :
    let ops : List Operation := [.createExtent 3 65, .createExtent 3 64, .createExtent 3 0,
      .createExtent 3 1, .createExtent 3 2, .write 3 0 0 (Bytes.ofText "abc"), .markDelete 3 2,
      .write 3 65 0 (Bytes.ofText "de"), .command .offlineDataPartition 3]
    let s := Store.run ops (.empty 5)
    let x : Handling Store Unit := ⟨.ofPacket (Packet.getAllWatermarks 0 7 3 .normal),
      { Node.ofSettings {} () with store := s }, .unbounded⟩
    s.loaded 3 = some [⟨0, 3⟩, ⟨1, 0⟩, ⟨64, 0⟩, ⟨65, 2⟩] ∧
      ∃ y body, x.operate (Node.environment {} .unreachable 0) = (none, y) ∧
        y.request.packet.data.bytes = body ∧ readWatermarks body = some [⟨0, 3⟩, ⟨65, 2⟩] := by
  intro ops s x
  have hs : s.Reached 5 := Store.Reached.empty.run (by decide)
  have hall : s.loaded 3 = some ((s.partitionAt 3).watermarks none) := Store.loaded_eq (by decide +kernel)
  have hp : s.partitions[(3 : UInt64)]? = some (s.partitionAt 3) := by decide +kernel
  obtain ⟨hpartition, -⟩ := @watermarks_tell_live_extents Unit _ _ hs
  obtain ⟨tiny, normal, all, -, hnormal, -, -, hreply⟩ := hpartition 3 _ hp
  obtain ⟨y, body, hoperate, -, hbody, -, hread⟩ :=
    hreply (Node.environment {} .unreachable 0) x rfl rfl rfl rfl
  have hlist : normal = [⟨0, 3⟩, ⟨65, 2⟩] := by
    have heval :
        (Store.engine (.watermarks 3 .normal) s).1 = .ok (.watermarks [⟨0, 3⟩, ⟨65, 2⟩]) := by
      decide +kernel
    rw [heval] at hnormal
    cases hnormal
    rfl
  refine ⟨hall.trans (by decide +kernel), y, body, hoperate, hbody, ?_⟩
  rw [← hlist]
  exact hread

end ReplicaChain.Handling
