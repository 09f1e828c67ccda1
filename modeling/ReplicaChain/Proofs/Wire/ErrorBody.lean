import ReplicaChain.Proofs.Wire.RoundTrip

/-!
# What an error body reports

The body of an error begins with the label of the action during which the fault was met.  No label
is the beginning of another, so the payload of a reply reports one action at most.
-/

namespace ReplicaChain.Wire

namespace Action

/-- The bytes with which the body of an error begins that was met during an action. -/
def heading (action : Action) : ByteArray :=
  Bytes.ofText (action.label ++ "_")

theorem size_heading_le (action : Action) : action.heading.size ≤ 20 := by
  cases action <;> decide

theorem eq_of_heading_prefix {a b : Action}
    (h : a.heading.data.toList <+: b.heading.data.toList) : a = b := by
  revert h
  cases a <;> cases b <;> decide

theorem ofText_errorBody (action : Action) (fault : Fault) :
    Bytes.ofText (errorBody action fault) = action.heading ++ Bytes.ofText fault.message := by
  simp [heading, errorBody, Bytes.ofText]

end Action

namespace Packet

/-- The payload of a packet begins with the heading of an action. -/
def Reports (action : Action) (p : Packet) : Prop :=
  ∃ text, p.payload = action.heading ++ text

/-- A reply to a fault reports the action during which the fault was met, however long its body. -/
theorem reports_replyFault (action : Action) (fault : Fault) (p : Packet) :
    (p.replyFault action fault).Reports action := by
  let body := Bytes.ofText (errorBody action fault)
  let room := min body.size 0xFFFFFFFF
  have hbody : body = action.heading ++ Bytes.ofText fault.message := Action.ofText_errorBody ..
  have hheading : action.heading.size ≤ room := by
    have := action.size_heading_le
    simp only [room, hbody, ByteArray.size_append]
    omega
  have hpayload : (p.replyFault action fault).payload = Bytes.take room body := by
    rw [payload, replyFault, size_reply]
    rfl
  refine ⟨Bytes.take (room - action.heading.size) (Bytes.ofText fault.message), ?_⟩
  calc
    (p.replyFault action fault).payload =
        (action.heading ++ Bytes.ofText fault.message).extract 0 room := by rw [hpayload, hbody]; rfl
    _ = Bytes.take room action.heading ++
          Bytes.take (room - action.heading.size) (Bytes.ofText fault.message) := by
      rw [ByteArray.extract_append, Nat.zero_sub]
      rfl
    _ = _ := by rw [Bytes.take_of_size_le hheading]

/-- A payload reports one action at most. -/
theorem Reports.unique {p : Packet} {a b : Action} (ha : p.Reports a) (hb : p.Reports b) : a = b := by
  have hheading {c : Action} (h : p.Reports c) : c.heading.data.toList <+: p.payload.data.toList := by
    obtain ⟨text, htext⟩ := h
    rw [htext, ByteArray.data_append, Array.toList_append]
    exact List.prefix_append ..
  rcases List.prefix_or_prefix_of_prefix (hheading ha) (hheading hb) with h | h
  · exact Action.eq_of_heading_prefix h
  · exact (Action.eq_of_heading_prefix h).symm

end Packet

end ReplicaChain.Wire
