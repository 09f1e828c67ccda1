import ReplicaChain.Proofs.Cluster.World
import ReplicaChain.Proofs.Follower.Descriptors
import ReplicaChain.Proofs.Node.Acknowledgement

/-!
# How many followers acknowledge a packet

The followers of a packet are the entries of its descriptor text, and there is one entry for each comma
of the declared part.  A packet that succeeded was acknowledged once for each of them.  The number of
followers that the header promises is not compared with them, so a header may promise more than the
descriptors name.
-/

namespace ReplicaChain

open Follower
open Wire (Packet)

variable {ω σ : Type}

/-! ## Acknowledgements -/

namespace Handling

/-- What is read off the record after a packet was handled: the links from which it was
acknowledged. -/
def acknowledged (env : Environment ω σ) (x : Handling ω σ) : List Link :=
  ((x.map (·, [])).process env.recorded).2.record.filterMap
    (Event.acknowledgedOn x.request.packet.header.requestId)

/-- A relayed packet that succeeded was acknowledged once for each entry of its descriptors, on a link
obtained for the address of the entry.  So at least as many followers as the header promises have
acknowledged it just when the declared part of the descriptors names that many. -/
theorem acknowledged_of_result_ok {env : Environment ω σ} {x : Handling ω σ}
    (hm : x.request.isMasterCommand = false) (hf : x.request.isForward = true)
    (hok : (x.process env).2.request.packet.header.result = .ok) :
    let p := x.request.packet
    let record := ((x.map (·, [])).process env.recorded).2.record
    ∃ text, Text.Utf8.decode (Bytes.take p.header.argumentSize.toNat p.argument) = .ok text ∧
      (∃ links : List Link,
        List.Forall₂ (Obtained x.node.forwarder.links.idle record)
          ((entries text.toList).map fun entry ↦ String.ofList (addressOf entry)) links ∧
        (acknowledged env x).Perm links) ∧
      (acknowledged env x).length = text.toList.count ',' ∧
      (p.header.remaining.toInt ≤ (acknowledged env x).length ↔
        p.header.remaining.toInt ≤ text.toList.count ',') := by
  intro p record
  rcases hp : Request.parseFollowers p with fault | addresses
  · rw [process_of_parse_error hm hp] at hok
    exact absurd hok (result_fail_ne_ok .prepare fault x)
  obtain ⟨text, htext, haddresses⟩ := Follower.parse_eq_ok (Request.parse_of_parseFollowers hp)
  have hproject := process_map env.network.recorded_projects (x.map (·, []))
  have hresult : (x.process env).2.request.packet.header.result =
      ((x.map (·, [])).process env.recorded).2.request.packet.header.result :=
    congrArg (·.2.request.packet.header.result) hproject
  rw [hresult] at hok
  rcases process_recorded_cases env (x := x.map (·, [])) rfl hm hp hf with
    ⟨-, -, links, hobtained, -, hacknowledged⟩ | ⟨hfailed, -⟩
  · have hlength : (acknowledged env x).length = text.toList.count ',' := by
      calc
        (acknowledged env x).length = links.length := hacknowledged.length_eq
        _ = addresses.length := hobtained.length_eq.symm
        _ = text.toList.count ',' := by rw [haddresses, List.length_map, length_entries]
    rw [haddresses] at hobtained
    exact ⟨text, htext, ⟨links, hobtained, hacknowledged⟩, hlength, by rw [hlength]⟩
  · exact absurd hok hfailed

/-- A request to create an extent whose second descriptor is not closed by a comma is acknowledged by
the first follower alone. -/
theorem acknowledged_of_result_ok_unclosed :
    let p := (Packet.createExtent 0 1 1 1).withFollowers "0:b:2,1:c:3".toUTF8 1
    let follower : Node Extent.Store Unit := .idle (.empty 10) ⟨1, 1, 1⟩ (.filled 0 0) .disabled ()
    let w := Cluster.World.ofMembers (fun _ ↦ follower) (.kind (Node.environment {} .unreachable 0))
    let env := Node.environment {} Cluster.network 0
    let x : Handling Extent.Store (Cluster.World Extent.Store Unit) :=
      ⟨.ofPacket p, Node.ofSettings {} w, .unbounded⟩
    (acknowledged env x).length = 1 ∧ p.header.remaining.toInt ≤ (acknowledged env x).length := by
  intro p follower w env x
  have hm : x.request.isMasterCommand = false := rfl
  have hf : x.request.isForward = true := by decide
  have hok : (x.process env).2.request.packet.header.result = .ok := by decide +kernel
  have hread : Text.Utf8.decode (Bytes.take p.header.argumentSize.toNat p.argument) =
      .ok "0:b:2,1:c:3" := by decide +kernel
  obtain ⟨text, htext, -, hlength, hiff⟩ := acknowledged_of_result_ok hm hf hok
  obtain rfl : "0:b:2,1:c:3" = text := Except.ok.inj (hread.symm.trans htext)
  exact ⟨hlength, hiff.mpr (by decide)⟩

/-- A request to create an extent that promises two followers and names none succeeds, and nobody
acknowledges it. -/
theorem acknowledged_lt_remaining :
    let p := (Packet.createExtent 0 1 1 1).withFollowers .empty 2
    let env := Node.environment {} .unreachable 0
    let x : Handling Extent.Store Unit := ⟨.ofPacket p, Node.ofSettings {} (), .unbounded⟩
    x.request.isMasterCommand = false ∧ x.request.isForward = true ∧
      (x.process env).2.request.packet.header.result = .ok ∧
      ¬ p.header.remaining.toInt ≤ (acknowledged env x).length := by
  decide +kernel

end Handling

end ReplicaChain
