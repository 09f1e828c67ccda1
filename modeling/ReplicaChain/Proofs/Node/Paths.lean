import ReplicaChain.Node.Connection

/-!
# The paths of a packet through a node

A packet takes one of five paths: a command goes straight to the storage, a packet whose followers
cannot be read is refused, a packet without followers is applied, and a packet that is to be relayed
either fails while it is sent or is applied and then concluded.  Each path is an equation, so that no
later proof has to open `Handling.process` again.
-/

namespace ReplicaChain.Handling

variable {ω σ : Type} {env : Environment ω σ} {x y : Handling ω σ}

def resolved (addresses : List String) (x : Handling ω σ) : Handling ω σ :=
  { x with request := x.request.withFollowers addresses }

@[simp]
theorem packet_resolved (addresses : List String) :
    (x.resolved addresses).request.packet = x.request.packet := rfl

@[simp]
theorem isForward_resolved (addresses : List String) :
    (x.resolved addresses).request.isForward = x.request.isForward := rfl

/-- The answer to a packet that is relayed is one reply. -/
theorem streamsReply_of_isForward {r : Request} (hf : r.isForward = true) :
    r.packet.header.opcode.streamsReply = false := by
  simp only [Request.isForward, Bool.and_eq_true, Bool.not_eq_true'] at hf
  exact hf.2

/-! ## Before the relay -/

theorem process_of_isMasterCommand (hm : x.request.isMasterCommand = true) :
    x.process env = x.operate env := by
  rw [process, if_pos hm]

theorem process_of_parse_error {fault : Fault} (hm : x.request.isMasterCommand = false)
    (hp : Request.parseFollowers x.request.packet = .error fault) :
    x.process env = (none, x.fail .prepare fault) := by
  rw [process, if_neg (by simp [hm]), resolve, hp]

theorem process_of_parse_ok {addresses : List String} (hm : x.request.isMasterCommand = false)
    (hp : Request.parseFollowers x.request.packet = .ok addresses) :
    x.process env = (x.resolved addresses).processResolved env := by
  rw [process, if_neg (by simp [hm]), resolve, hp]
  rfl

/-! ## The relay -/

theorem processResolved_of_local (hf : x.request.isForward = false) :
    x.processResolved env = x.operate env := by
  rw [processResolved, if_neg (by simp [hf])]

theorem processResolved_of_send_fault {fault : Fault} (hf : x.request.isForward = true)
    (hs : x.send env = (some fault, y)) : x.processResolved env = (none, y.finish env false) := by
  rw [processResolved, if_pos hf, hs]

theorem processResolved_of_sent (hf : x.request.isForward = true)
    (hs : x.send env = (none, y)) :
    x.processResolved env =
      ((y.operate env).1, (y.operate env).2.conclude env (y.operate env).1) := by
  rw [processResolved, if_pos hf, hs]

/-- Every handling takes one of the five paths. -/
theorem process_cases (env : Environment ω σ) (x : Handling ω σ) :
    x.process env = x.operate env ∨
      (∃ fault, x.process env = (none, x.fail .prepare fault)) ∨
      ∃ addresses, Request.parseFollowers x.request.packet = .ok addresses ∧
        (x.process env = (x.resolved addresses).operate env ∨
          (∃ fault y, (x.resolved addresses).send env = (some fault, y) ∧
            x.process env = (none, y.finish env false)) ∨
          ∃ y, (x.resolved addresses).send env = (none, y) ∧
            x.process env =
              ((y.operate env).1, (y.operate env).2.conclude env (y.operate env).1)) := by
  by_cases hm : x.request.isMasterCommand = true
  · exact .inl (process_of_isMasterCommand hm)
  · simp only [Bool.not_eq_true] at hm
    rcases hp : Request.parseFollowers x.request.packet with fault | addresses
    · exact .inr (.inl ⟨fault, process_of_parse_error hm hp⟩)
    · refine .inr (.inr ⟨addresses, rfl, ?_⟩)
      rw [process_of_parse_ok hm hp]
      by_cases hf : (x.resolved addresses).request.isForward = true
      · rcases hs : (x.resolved addresses).send env with ⟨_ | fault, y⟩
        · exact .inr (.inr ⟨y, rfl, processResolved_of_sent hf hs⟩)
        · exact .inr (.inl ⟨fault, y, rfl, processResolved_of_send_fault hf hs⟩)
      · simp only [Bool.not_eq_true] at hf
        exact .inl (processResolved_of_local hf)

/-! ## The storage -/

theorem operate_of_error {fault : Fault} (h : x.perform env = (.error fault, y)) :
    x.operate env = (none, y.fail .operate fault) := by
  rw [operate, h]

theorem operate_of_streamed {a : Extent.Answer} (h : x.perform env = (.ok a, y))
    (hs : y.request.packet.header.opcode.streamsReply = true) :
    x.operate env = y.stream env.now a.body := by
  rw [operate, h]
  exact if_pos hs

theorem operate_of_ok {a : Extent.Answer} (h : x.perform env = (.ok a, y))
    (hs : y.request.packet.header.opcode.streamsReply = false) :
    x.operate env = (none, y.answer (Wire.Packet.replyWith a.body)) := by
  rw [operate, h]
  exact if_neg (by simp [hs])

@[simp]
theorem request_perform (env : Environment ω σ) (x : Handling ω σ) :
    (x.perform env).2.request = x.request := by
  unfold perform
  split
  · rfl
  · split <;> rfl

@[simp]
theorem forwarder_perform (env : Environment ω σ) (x : Handling ω σ) :
    (x.perform env).2.node.forwarder = x.node.forwarder := by
  unfold perform
  split
  · rfl
  · split <;> rfl

/-- Applying a packet fails, streams an answer or makes a reply. -/
theorem operate_cases (env : Environment ω σ) (x : Handling ω σ) :
    (∃ fault, x.operate env = (none, (x.perform env).2.fail .operate fault)) ∨
      (∃ a : Extent.Answer, x.operate env = (x.perform env).2.stream env.now a.body) ∨
      ∃ a : Extent.Answer,
        x.operate env = (none, (x.perform env).2.answer (Wire.Packet.replyWith a.body)) := by
  rcases h : x.perform env with ⟨fault | a, y⟩
  · exact .inl ⟨fault, operate_of_error h⟩
  · rcases hs : y.request.packet.header.opcode.streamsReply with _ | _
    · exact .inr (.inr ⟨a, operate_of_ok h hs⟩)
    · exact .inr (.inl ⟨a, operate_of_streamed h hs⟩)

@[simp]
theorem forwarder_stream (now : Int64) (b : ByteArray) (x : Handling ω σ) :
    (x.stream now b).2.node.forwarder = x.node.forwarder := by
  unfold stream
  dsimp only
  split <;> rfl

/-- Applying a packet concerns no follower. -/
@[simp]
theorem forwarder_operate (env : Environment ω σ) (x : Handling ω σ) :
    (x.operate env).2.node.forwarder = x.node.forwarder := by
  have hperform := forwarder_perform env x
  rcases operate_cases env x with ⟨fault, h⟩ | ⟨a, h⟩ | ⟨a, h⟩ <;> rw [h]
  · exact hperform
  · rw [forwarder_stream, hperform]
  · exact hperform

/-- Applying a packet changes neither its followers, nor their links, nor its request id. -/
theorem request_operate (env : Environment ω σ) (x : Handling ω σ) :
    (x.operate env).2.request.followers = x.request.followers ∧
      (x.operate env).2.request.slots = x.request.slots ∧
      (x.operate env).2.request.packet.header.requestId = x.request.packet.header.requestId := by
  have hperform := request_perform env x
  rcases operate_cases env x with ⟨fault, h⟩ | ⟨a, h⟩ | ⟨a, h⟩ <;> rw [h, ← hperform]
  · exact ⟨rfl, rfl, rfl⟩
  · unfold stream
    dsimp only
    split <;> exact ⟨rfl, rfl, rfl⟩
  · exact ⟨rfl, rfl, rfl⟩

/-! ## The replies -/

/-- Handling a packet comes to the point at which the replies of its followers are collected. -/
def CollectsAt (env : Environment ω σ) (x z : Handling ω σ) : Prop :=
  x.request.isMasterCommand = false ∧ ∃ addresses y,
    Request.parseFollowers x.request.packet = .ok addresses ∧ x.request.isForward = true ∧
    (x.resolved addresses).send env = (none, y) ∧ y.operate env = (none, z) ∧ z.request.isOk = true

/-- From there on the replies are collected and the links are settled. -/
theorem process_of_collectsAt {z : Handling ω σ} (h : CollectsAt env x z) :
    x.process env = (none, (z.receive env).2.finish env (z.receive env).1.isNone) := by
  obtain ⟨hm, addresses, y, hp, hf, hs, ho, hok⟩ := h
  have hf' : (x.resolved addresses).request.isForward = true := hf
  rw [process_of_parse_ok hm hp, processResolved_of_sent hf' hs, ho, conclude, if_pos]
  exact hok

end ReplicaChain.Handling
