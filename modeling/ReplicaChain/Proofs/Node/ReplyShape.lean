import ReplicaChain.Node.Startup
import ReplicaChain.Proofs.Follower.Faults
import ReplicaChain.Proofs.Node.Fanout
import ReplicaChain.Proofs.Node.Readability

/-!
# The shape of a reply

Every packet that a node reads is answered by one reply, unless it is a streamed read that succeeds.  A reply
can be packed at four places and packed again at two of them, but it never shows: it identifies the request
as the request did, it has no argument, it declares the size and the checksum of just the bytes that follow,
and its result is one of six.  If something went wrong, the reply names the first thing that did and nothing
else.

The wording of a fault has to fit into a reply for this.  It does if neither the network nor the storage
words its failures in four gigabytes.
-/

namespace ReplicaChain

open Follower
open Wire (Action Packet maxArgumentSize)

variable {ω σ : Type}

/-! ## Replies -/

namespace Wire

def ResultCode.replies : List ResultCode :=
  [.ok, .intraGroupNet, .argMismatch, .notExist, .again, .notLeader]

namespace Packet

/-- A packet has the shape of a reply to `p`: what identifies the request is as it was, there is no argument,
the size and the checksum are those of the bytes that follow the header, and the packet can be written. -/
structure IsReplyTo (p q : Packet) : Prop where
  magic_eq : q.header.magic = p.header.magic
  extentMode_eq : q.header.extentMode = p.header.extentMode
  opcode_eq : q.header.opcode = p.header.opcode
  remaining_eq : q.header.remaining = p.header.remaining
  partition_eq : q.header.partition = p.header.partition
  extent_eq : q.header.extent = p.header.extent
  offset_eq : q.header.offset = p.header.offset
  requestId_eq : q.header.requestId = p.header.requestId
  startTime_eq : q.header.startTime = p.header.startTime
  kernelOffset_eq : q.header.kernelOffset = p.header.kernelOffset
  argumentSize_eq : q.header.argumentSize = 0
  argument_eq : q.argument = .empty
  size_eq : q.header.size.toNat = q.payload.size
  payloadSize_eq : q.header.payloadSize = q.payload.size
  crc_eq : q.header.crc = Checksum.crc32 q.payload
  result_mem : q.header.result ∈ ResultCode.replies
  encode_eq : q.encode = .ok (q.header.encode ++ q.payload)

/-- A result other than `unexecuted` never defers the payload, so what is packed is what follows. -/
theorem isReplyTo_reply {code : ResultCode} {body : ByteArray} (hcode : code ∈ ResultCode.replies)
    (hbody : body.size < 2 ^ 32) (p : Packet) : p.IsReplyTo (p.reply code body) := by
  have hpayload : (p.reply code body).payload = body := Handling.payload_reply p (Nat.le_of_lt_succ hbody)
  have hsize : (p.reply code body).header.size.toNat = body.size := by
    rw [size_reply]
    exact Nat.min_eq_left (Nat.le_of_lt_succ hbody)
  have hanswered : (p.reply code body).header.result ≠ .unexecuted := by
    change code ≠ .unexecuted
    rintro rfl
    revert hcode
    decide
  have hpayloadSize : (p.reply code body).header.payloadSize = body.size := by
    rw [Header.payloadSize, Header.defersPayload, decide_eq_false hanswered, Bool.and_false, ← hsize]
    exact if_neg Bool.false_ne_true
  have hframe : (p.reply code body).frame = (p.reply code body).header.encode ++ body := by
    have hargument : Bytes.take (p.reply code body).header.argumentSize.toNat
        (p.reply code body).argument = .empty := rfl
    rw [frame, hargument, ByteArray.append_empty, hpayloadSize]
    exact congrArg _ (Bytes.take_of_size_le (Nat.le_refl _))
  constructor
  case size_eq => rw [hpayload, hsize]
  case payloadSize_eq => rw [hpayload, hpayloadSize]
  case crc_eq => rw [hpayload]; rfl
  case result_mem => exact hcode
  case encode_eq => rw [encode_reply, hframe, hpayload]
  all_goals rfl

/-- The state of the disk is never told. -/
theorem faultCode_mem_replies (action : Action) (fault : Fault) (p : Packet) :
    p.faultCode action fault ∈ ResultCode.replies := by
  have hstorage (opcode : Opcode) (fault : StorageFault) :
      (storageVerdict opcode fault).forWire ∈ ResultCode.replies := by
    cases fault <;> simp only [storageVerdict] <;> try split
    all_goals decide
  unfold faultCode verdict
  split
  · decide
  · split
    · exact hstorage _ _
    · decide
    · decide

end Packet

end Wire

/-! ## What decides a reply -/

namespace Handling

variable {env : Environment ω σ} {x y z : Handling ω σ} {action action' : Action} {fault fault' : Fault}

/-- Handling a packet comes to the point at which it is applied. -/
def Applies (env : Environment ω σ) (x : Handling ω σ) : Prop :=
  x.request.isMasterCommand = true ∨
    ∃ addresses, Request.parseFollowers x.request.packet = .ok addresses ∧
      (x.request.isForward = true → ((x.resolved addresses).send env).1 = none)

/-- Handling a packet fails by a fault: its followers cannot be found, it cannot be relayed to them, the
storage refuses it, or it is not acknowledged.  Nothing of this is tried once something failed. -/
inductive FailsBy (env : Environment ω σ) (x : Handling ω σ) : Action → Fault → Prop
  | unresolved {fault : Fault} (hm : x.request.isMasterCommand = false)
      (hp : Request.parseFollowers x.request.packet = .error fault) : FailsBy env x .prepare fault
  | unrelayed {fault : Fault} {addresses : List String} (hm : x.request.isMasterCommand = false)
      (hp : Request.parseFollowers x.request.packet = .ok addresses)
      (hf : x.request.isForward = true) (hs : ((x.resolved addresses).send env).1 = some fault) :
      FailsBy env x .sendToFollowers fault
  | refused {fault : Fault} (ha : x.Applies env)
      (h : (performed env.engine x.request.packet x.node.store).1 = .error fault) :
      FailsBy env x .operate fault
  | unacknowledged {fault : Fault} {z : Handling ω σ} (hz : CollectsAt env x z)
      (h : (z.receive env).1 = some fault) : FailsBy env x (receiveAction fault) fault

/-! ### Relaying and collecting -/

theorem settleExchange_of_none {action : Fault → Action} {results : List (Option Link × Option Fault)}
    {f : Forwarder σ} (h : x.settleExchange action results f = (none, y)) :
    y = x.exchanged results f := by
  unfold settleExchange at h
  split at h
  · exact (Prod.mk.inj h).2.symm
  · cases h

theorem settleExchange_of_some {action : Fault → Action} {results : List (Option Link × Option Fault)}
    {f : Forwarder σ} (h : x.settleExchange action results f = (some fault, y)) :
    firstFault results = some fault ∧ y = (x.exchanged results f).failForward (action fault) fault := by
  unfold settleExchange at h
  split at h
  · cases h
  · rename_i hfault
    cases h
    exact ⟨hfault, rfl⟩

theorem exists_of_send {addresses : List String} (h : (x.resolved addresses).send env = (none, y)) :
    ∃ results f, y = (x.resolved addresses).exchanged results f := by
  rw [send_resolved] at h
  exact ⟨_, _, settleExchange_of_none h⟩

/-- What was handled when the replies are collected is the packet's own success. -/
theorem exists_of_collectsAt (h : CollectsAt env x z) :
    ∃ a addresses, (performed env.engine x.request.packet x.node.store).1 = .ok a ∧
      Request.parseFollowers x.request.packet = .ok addresses ∧ z.request.followers = addresses ∧
      z.request.packet = x.request.packet.replyWith a.body ∧ z.client = x.client ∧
      z.request.needsReply = x.request.needsReply := by
  obtain ⟨-, addresses, y, hp, hf, hs, ho, hok⟩ := h
  obtain ⟨results, f, rfl⟩ := exists_of_send hs
  have hperform := perform_eq_performed env ((x.resolved addresses).exchanged results f)
  have hstreams : x.request.packet.header.opcode.streamsReply = false := streamsReply_of_isForward hf
  change _ = ((performed env.engine x.request.packet x.node.store).1, _) at hperform
  rcases ho' : (performed env.engine x.request.packet x.node.store).1 with fault | a
  · rw [ho'] at hperform
    rw [operate_of_error hperform] at ho
    cases ho
    exact absurd (of_decide_eq_true hok) (result_fail_ne_ok _ _ _)
  · rw [ho'] at hperform
    rw [operate_of_ok hperform hstreams] at ho
    cases ho
    exact ⟨a, addresses, rfl, hp, rfl, rfl, rfl, rfl⟩

/-! ### The first fault -/

theorem CollectsAt.unique {z' : Handling ω σ} (h : CollectsAt env x z) (h' : CollectsAt env x z') :
    z' = z := by
  obtain ⟨-, addresses, y, hp, -, hs, ho, -⟩ := h
  obtain ⟨-, addresses', y', hp', -, hs', ho', -⟩ := h'
  obtain rfl := Except.ok.inj (hp.symm.trans hp')
  obtain rfl := (Prod.mk.inj (hs.symm.trans hs')).2
  exact (Prod.mk.inj (ho'.symm.trans ho)).2

theorem CollectsAt.applies (h : CollectsAt env x z) : x.Applies env := by
  obtain ⟨-, addresses, y, hp, -, hs, -⟩ := h
  exact .inr ⟨addresses, hp, fun _ ↦ by rw [hs]⟩

/-- A packet that is applied fails by the refusal of the storage or by a missed acknowledgement. -/
theorem FailsBy.of_applies (h : FailsBy env x action fault) (ha : x.Applies env) :
    (action = .operate ∧ (performed env.engine x.request.packet x.node.store).1 = .error fault) ∨
      (action = receiveAction fault ∧ ∃ z, CollectsAt env x z ∧ (z.receive env).1 = some fault) := by
  cases h with
  | unresolved hm hp =>
    rcases ha with ha | ⟨addresses, hp', -⟩
    · simp [hm] at ha
    · simp [hp] at hp'
  | unrelayed hm hp hf hs =>
    rcases ha with ha | ⟨addresses, hp', hsent⟩
    · simp [hm] at ha
    · obtain rfl := Except.ok.inj (hp.symm.trans hp')
      simp [hsent hf] at hs
  | refused _ hrefused => exact .inl ⟨rfl, hrefused⟩
  | unacknowledged hz hs => exact .inr ⟨rfl, _, hz, hs⟩

/-- No packet fails by more than one fault. -/
theorem FailsBy.unique (h : FailsBy env x action fault) (h' : FailsBy env x action' fault') :
    action' = action ∧ fault' = fault := by
  by_cases ha : x.Applies env
  · rcases h.of_applies ha with ⟨rfl, hr⟩ | ⟨rfl, z, hz, hs⟩ <;>
      rcases h'.of_applies ha with ⟨rfl, hr'⟩ | ⟨rfl, z', hz', hs'⟩
    · exact ⟨rfl, Except.error.inj (hr'.symm.trans hr)⟩
    · obtain ⟨a, -, hok, -⟩ := exists_of_collectsAt hz'
      simp [hr] at hok
    · obtain ⟨a, -, hok, -⟩ := exists_of_collectsAt hz
      simp [hr'] at hok
    · obtain rfl := hz.unique hz'
      obtain rfl := Option.some.inj (hs'.symm.trans hs)
      exact ⟨rfl, rfl⟩
  · -- Before it is applied, a packet fails when its followers are looked for or else by the relay.
    cases h with
    | refused ha' _ => exact absurd ha' ha
    | unacknowledged hz _ => exact absurd hz.applies ha
    | unresolved _ hp =>
      cases h' with
      | unresolved _ hp' => exact ⟨rfl, Except.error.inj (hp'.symm.trans hp)⟩
      | unrelayed _ hp' _ _ => simp [hp] at hp'
      | refused ha' _ => exact absurd ha' ha
      | unacknowledged hz _ => exact absurd hz.applies ha
    | unrelayed _ hp _ hs =>
      cases h' with
      | unresolved _ hp' => simp [hp] at hp'
      | unrelayed _ hp' _ hs' =>
        obtain rfl := Except.ok.inj (hp.symm.trans hp')
        exact ⟨rfl, Option.some.inj (hs'.symm.trans hs)⟩
      | refused ha' _ => exact absurd ha' ha
      | unacknowledged hz _ => exact absurd hz.applies ha

/-! ### The end of a packet -/

/-- What becomes of a packet.  The packet was turned into the report of the fault by which it failed, or
into the reply that holds the answer of the storage; or else it was a streamed read and nothing failed. -/
inductive Concludes (env : Environment ω σ) (x : Handling ω σ) : Option Fault × Handling ω σ → Prop
  | failed {y : Handling ω σ} {action : Action} {fault : Fault} (h : FailsBy env x action fault)
      (hpacket : y.request.packet = x.request.packet.replyFault action fault)
      (hclient : y.client = x.client) (hneeds : y.request.needsReply = x.request.needsReply) :
      Concludes env x (none, y)
  | done {y : Handling ω σ} {a : Extent.Answer}
      (h : (performed env.engine x.request.packet x.node.store).1 = .ok a)
      (hnone : ∀ action fault, ¬ FailsBy env x action fault)
      (hpacket : y.request.packet = x.request.packet.replyWith a.body)
      (hclient : y.client = x.client) (hneeds : y.request.needsReply = x.request.needsReply) :
      Concludes env x (none, y)
  | streamed {result : Option Fault × Handling ω σ}
      (hs : x.request.packet.header.opcode = .streamRead)
      (hnone : ∀ action fault, ¬ FailsBy env x action fault) : Concludes env x result

theorem packet_receive (h : x.receive env = (none, y)) : y.request.packet = x.request.packet := by
  by_cases hf : x.request.followers.isEmpty
  · rw [receive, if_pos hf] at h
    rw [← (Prod.mk.inj h).2]
  · rw [receive_of_followers env hf] at h
    rw [settleExchange_of_none h]
    rfl

theorem packet_receive_of_fault (h : x.receive env = (some fault, y)) :
    y.request.packet = x.request.packet.replyFault (receiveAction fault) fault := by
  by_cases hf : x.request.followers.isEmpty
  · rw [receive, if_pos hf] at h
    cases h
  · rw [receive_of_followers env hf] at h
    rw [(settleExchange_of_some h).2]
    rfl

/-- What becomes of a packet that is applied and not relayed. -/
theorem concludes_operate (ha : x.Applies env) (hlocal : ∀ z, ¬ CollectsAt env x z)
    (hpacket : y.request.packet = x.request.packet) (hstore : y.node.store = x.node.store)
    (hclient : y.client = x.client) (hneeds : y.request.needsReply = x.request.needsReply) :
    Concludes env x (y.operate env) := by
  have hperform := perform_eq_performed env y
  rw [hpacket, hstore] at hperform
  rcases ho : (performed env.engine x.request.packet x.node.store).1 with refusal | a <;>
    rw [ho] at hperform
  · rw [operate_of_error hperform]
    exact .failed (.refused ha ho) (congrArg (Packet.replyFault .operate refusal) hpacket) hclient hneeds
  · have hnone (action : Action) (fault : Fault) : ¬ FailsBy env x action fault := by
      intro h
      rcases h.of_applies ha with ⟨-, hr⟩ | ⟨-, z, hz, -⟩
      · simp [ho] at hr
      · exact hlocal z hz
    cases hs : y.request.packet.header.opcode.streamsReply with
    | true => exact .streamed (hpacket ▸ of_decide_eq_true hs) hnone
    | false =>
      rw [operate_of_ok hperform hs]
      exact .done ho hnone (congrArg (Packet.replyWith a.body) hpacket) hclient hneeds

/-- What becomes of a packet that was relayed and applied, when the replies are collected. -/
theorem concludes_of_collectsAt (hz : CollectsAt env x z) : Concludes env x (x.process env) := by
  obtain ⟨a, -, hok, -, -, hpacket, hclient, hneeds⟩ := exists_of_collectsAt hz
  have hkeeps := keeps_receive env z
  rw [process_of_collectsAt hz]
  rcases hr : z.receive env with ⟨_ | fault, w⟩ <;> rw [hr] at hkeeps
  · refine .done hok (fun action fault h ↦ ?_) ((packet_receive hr).trans hpacket)
      (hkeeps.client_eq.trans hclient) (hkeeps.needsReply_eq.trans hneeds)
    rcases h.of_applies hz.applies with ⟨-, hr'⟩ | ⟨-, z', hz', hs⟩
    · simp [hok] at hr'
    · obtain rfl := hz.unique hz'
      simp [hr] at hs
  · have hreport : w.request.packet = x.request.packet.replyFault (receiveAction fault) fault := by
      rw [packet_receive_of_fault hr, hpacket]
      rfl
    exact .failed (.unacknowledged hz (by rw [hr])) hreport (hkeeps.client_eq.trans hclient)
      (hkeeps.needsReply_eq.trans hneeds)

/-- Every packet ends in one of these ways. -/
theorem concludes_process (env : Environment ω σ) (x : Handling ω σ) :
    Concludes env x (x.process env) := by
  by_cases hm : x.request.isMasterCommand = true
  · rw [process_of_isMasterCommand hm]
    exact concludes_operate (.inl hm) (fun z hz ↦ by simp [hz.1] at hm) rfl rfl rfl rfl
  simp only [Bool.not_eq_true] at hm
  rcases hp : Request.parseFollowers x.request.packet with fault | addresses
  · rw [process_of_parse_error hm hp]
    exact .failed (.unresolved hm hp) rfl rfl rfl
  by_cases hf : x.request.isForward = true
  · have hf' : (x.resolved addresses).request.isForward = true := hf
    rcases hs : (x.resolved addresses).send env with ⟨_ | fault, y⟩
    · have ha : x.Applies env := .inr ⟨addresses, hp, fun _ ↦ by rw [hs]⟩
      obtain ⟨results, f, rfl⟩ := exists_of_send hs
      let y := (x.resolved addresses).exchanged results f
      let applied (store : ω) : Handling ω σ := { y with node := { y.node with store } }
      have hperform : y.perform env = ((performed env.engine x.request.packet x.node.store).1,
          applied (performed env.engine x.request.packet x.node.store).2) := perform_eq_performed env y
      rcases ho : performed env.engine x.request.packet x.node.store with ⟨refusal | a, store⟩ <;>
        rw [ho] at hperform
      · have hresult := result_fail_ne_ok .operate refusal (applied store)
        rw [process_of_parse_ok hm hp, processResolved_of_sent hf' hs, operate_of_error hperform, conclude,
          if_neg (by simpa [Request.isOk] using hresult)]
        exact .failed (.refused ha (by rw [ho])) rfl rfl rfl
      · have happlied := operate_of_ok hperform (streamsReply_of_isForward hf)
        exact concludes_of_collectsAt ⟨hm, addresses, y, hp, hf, hs, happlied, rfl⟩
    · have hsend := send_resolved env addresses x
      rw [hs] at hsend
      obtain ⟨-, rfl⟩ := settleExchange_of_some hsend.symm
      rw [process_of_parse_ok hm hp, processResolved_of_send_fault hf' hs]
      exact .failed (.unrelayed hm hp hf (by rw [hs])) rfl rfl rfl
  · simp only [Bool.not_eq_true] at hf
    have hf' : (x.resolved addresses).request.isForward = false := hf
    have ha : x.Applies env := .inr ⟨addresses, hp, fun h ↦ by simp [hf] at h⟩
    have hlocal (z : Handling ω σ) : ¬ CollectsAt env x z := by
      rintro ⟨-, -, -, -, h, -⟩
      simp [hf] at h
    rw [process_of_parse_ok hm hp, processResolved_of_local hf']
    exact concludes_operate ha hlocal rfl rfl rfl rfl

/-! ### Room for a report -/

/-- What the storage says to the operation of a packet, be it an answer or a refusal, is shorter than the size
that a header can declare. -/
def AnswersBriefly (engine : Extent.Engine ω) (p : Packet) (store : ω) : Prop :=
  (∀ a, (performed engine p store).1 = .ok a → a.body.size < 2 ^ 32) ∧
    ∀ refusal, (performed engine p store).1 = .error (.storage refusal) →
      (Fault.storage refusal).IsReportable .operate

theorem hasShortParts_of_operationOf {p : Packet} (h : operationOf p = .error fault) :
    fault.HasShortParts := by
  unfold operationOf Packet.verifyChecksum at h
  grind [Fault.HasShortParts]

/-- The fault by which a packet fails can be reported. -/
theorem FailsBy.isReportable (hnetwork : env.network.Terse) (hp : x.request.packet.Decodable)
    (hstorage : AnswersBriefly env.engine x.request.packet x.node.store)
    (h : FailsBy env x action fault) : fault.IsReportable action := by
  cases h with
  | unresolved _ hparse =>
    exact Fault.isReportable_of_hasShortParts _ (Request.hasShortParts_of_parseFollowers hp hparse)
  | @unrelayed _ addresses _ _ _ hs =>
    rcases hsend : (x.resolved addresses).send env with ⟨result, y⟩
    obtain rfl : result = some fault := by rw [hsend] at hs; exact hs
    rw [send_of_fresh env (x.resolved addresses) rfl] at hsend
    exact Forwarder.isReportable_of_send hnetwork (settleExchange_of_some hsend).1
  | refused _ hrefused =>
    rcases ho : operationOf x.request.packet with fault' | op
    · simp only [performed, ho] at hrefused
      obtain rfl := Except.error.inj hrefused
      exact Fault.isReportable_of_hasShortParts _ (hasShortParts_of_operationOf ho)
    · rcases hr : (env.engine op x.node.store).1 with refusal | a <;>
        simp only [performed, ho, hr, Except.mapError] at hrefused
      · obtain rfl := Except.error.inj hrefused
        exact hstorage.2 refusal (by simp only [performed, ho, hr, Except.mapError])
      · cases hrefused
  | @unacknowledged _ z hz hs =>
    obtain ⟨-, addresses, -, hparse, hfollowers, -⟩ := exists_of_collectsAt hz
    have hshort (address : String) (ha : address ∈ z.request.followers) :
        address.toList.length ≤ maxArgumentSize :=
      Request.length_le_of_mem_followers hp hparse (hfollowers ▸ ha)
    rcases hreceive : z.receive env with ⟨result, w⟩
    obtain rfl : result = some fault := by rw [hreceive] at hs; exact hs
    by_cases hf : z.request.followers.isEmpty
    · rw [receive, if_pos hf] at hreceive
      cases hreceive
    · rw [receive_of_followers env hf] at hreceive
      exact Forwarder.isReportable_of_receive hnetwork hshort (settleExchange_of_some hreceive).1

end Handling

namespace Node

open Handling

/-! ## Connections -/

/-- One turn of a connection: a packet that was read, the node that handled it, and the client's stream
before and after it was answered. -/
structure Round (ω σ : Type) where
  packet : Packet
  node : Node ω σ
  client : Sink
  answered : Sink

/-- The turns of a connection up to the one in which no packet could be read or the answer could not be
written, and the client's stream in the end. -/
inductive Rounds (env : Environment ω σ) :
    Node ω σ → Source → Sink → List (Round ω σ) → Sink → Prop
  | ended {n : Node ω σ} {s rest : Source} {k : Sink} {buffers : BufferPool} {fault : Fault}
      (hd : Packet.decode n.forwarder.buffers s = (.error fault, buffers, rest)) :
      Rounds env n s k [] k
  | broken {n m : Node ω σ} {s rest : Source} {k k' : Sink} {buffers : BufferPool} {p : Packet}
      {fault : Fault} (hd : Packet.decode n.forwarder.buffers s = (.ok p, buffers, rest))
      (hh : handle env p (n.setBuffers buffers) k = (some fault, m, k')) :
      Rounds env n s k [⟨p, n.setBuffers buffers, k, k'⟩] k'
  | turn {n m : Node ω σ} {s rest : Source} {k k' out : Sink} {buffers : BufferPool} {p : Packet}
      {rounds : List (Round ω σ)} (hd : Packet.decode n.forwarder.buffers s = (.ok p, buffers, rest))
      (hh : handle env p (n.setBuffers buffers) k = (none, m, k'))
      (hrest : Rounds env m rest k' rounds out) :
      Rounds env n s k (⟨p, n.setBuffers buffers, k, k'⟩ :: rounds) out

/-- A packet is answered by one reply, unless it is a streamed read that did not fail.  The reply is a
success if the packet did not fail, and otherwise it holds the wording of the one fault by which it failed. -/
def Round.IsAnswered (env : Environment ω σ) (r : Round ω σ) : Prop :=
  let x := opening env r.packet r.node r.client
  (r.packet.header.opcode = .streamRead ∧ ∀ action fault, ¬ x.FailsBy env action fault) ∨
    ∃ q, r.packet.IsReplyTo q ∧ r.answered = (q.writeTo r.client).2 ∧
      (q.header.result = .ok → ∀ action fault, ¬ x.FailsBy env action fault) ∧
      (q.header.result ≠ .ok → ∃ action fault, x.FailsBy env action fault ∧
        (∀ action' fault', x.FailsBy env action' fault' → action' = action ∧ fault' = fault) ∧
        q.payload = Bytes.ofText (Wire.errorBody action fault))

variable {env : Environment ω σ}

theorem client_handle_of_process {p : Packet} {n : Node ω σ} {k : Sink} {y : Handling ω σ}
    (hy : (opening env p n k).process env = (none, y)) (hclient : y.client = k)
    (hneeds : y.request.needsReply = true) :
    (handle env p n k).2.2 = (y.request.packet.writeTo k).2 := by
  have hw : y.request.packet.writeTo y.client =
      ((y.request.packet.writeTo k).1, (y.request.packet.writeTo k).2) := by rw [hclient]
  rw [(handle_of_process hy).2, (reply_of_writeTo hneeds hw).2]

/-- What a node does with one packet. -/
theorem isAnswered_handle (hnetwork : env.network.Terse) {p : Packet} (hp : p.Decodable)
    (n : Node ω σ) (k : Sink) (hstorage : AnswersBriefly env.engine p n.store) :
    (Round.mk p n k (handle env p n k).2.2).IsAnswered env := by
  let x := opening env p n k
  have hconcludes := concludes_process env x
  rcases hprocess : x.process env with ⟨result, y⟩
  rw [hprocess] at hconcludes
  cases hconcludes with
  | streamed hs hnone => exact .inl ⟨hs, hnone⟩
  | @failed _ action fault h hpacket hclient hneeds =>
    have hwritten := client_handle_of_process hprocess hclient hneeds
    have hbody : fault.IsReportable action := h.isReportable hnetwork hp hstorage
    have hreply := Packet.isReplyTo_reply (p.faultCode_mem_replies action fault) hbody p
    refine .inr ⟨p.replyFault action fault, hreply, ?_, fun hok ↦ ?_, fun _ ↦ ?_⟩
    · rw [hwritten, hpacket]
      rfl
    · exact absurd hok (Packet.faultCode_ne_ok action fault p)
    · refine ⟨action, fault, h, fun action' fault' h' ↦ h.unique h', ?_⟩
      exact payload_reply p (Nat.le_of_lt_succ hbody)
  | @done _ a h hnone hpacket hclient hneeds =>
    have hwritten := client_handle_of_process hprocess hclient hneeds
    have hok : Wire.ResultCode.ok ∈ Wire.ResultCode.replies := by decide
    have hreply := Packet.isReplyTo_reply hok (hstorage.1 a h) p
    refine .inr ⟨p.replyWith a.body, hreply, ?_, fun _ ↦ hnone, fun hne ↦ absurd rfl hne⟩
    rw [hwritten, hpacket]
    rfl

/-- A connection is a sequence of turns, and in each of them the packet that was read is answered by one
reply in the shape of replies, unless it is a streamed read that succeeded.  This holds whatever the packets
are and whatever the followers do, wherever the storage answers a packet with less than a header can declare
and the network words its failures in less than that. -/
theorem connection_answers_once (hnetwork : env.network.Terse) (n : Node ω σ) (s : Source) (k : Sink) :
    ∃ rounds, Rounds env n s k rounds (serve env n s k).2.2 ∧
      ∀ r ∈ rounds, AnswersBriefly env.engine r.packet r.node.store → r.IsAnswered env := by
  induction hsize : s.size using Nat.strongRecOn generalizing n s k with
  | ind size ih =>
    subst hsize
    rcases hd : Packet.decode n.forwarder.buffers s with ⟨fault | p, buffers, rest⟩
    · refine ⟨[], ?_, by simp⟩
      rw [serve_of_error hd]
      exact .ended hd
    have hp : p.Decodable := Packet.decodable_of_decode (by rw [hd])
    have hfirst := isAnswered_handle hnetwork hp (n.setBuffers buffers) k
    rcases hh : handle env p (n.setBuffers buffers) k with ⟨_ | fault, m, k'⟩ <;> rw [hh] at hfirst
    · have hlt : rest.size < s.size := by
        have hread := Packet.size_of_decode hd
        have hpos : 0 < Wire.Header.byteSize := by decide
        omega
      obtain ⟨rounds, hrounds, hanswered⟩ := ih rest.size hlt m rest k' rfl
      rw [serve_of_ok hd hh]
      exact ⟨_, .turn hd hh hrounds, List.forall_mem_cons.mpr ⟨hfirst, hanswered⟩⟩
    · rw [serve_of_unwritten hd hh]
      exact ⟨_, .broken hd hh, by simpa using hfirst⟩

/-- The first turn is about the packet with which the stream begins. -/
theorem Rounds.exists_head {n : Node ω σ} {s : Source} {k out : Sink} {p : Packet}
    {rounds : List (Round ω σ)} (h : Rounds env n s k rounds out)
    (hp : (Packet.decode n.forwarder.buffers s).1 = .ok p) :
    ∃ k' later, rounds =
      ⟨p, n.setBuffers (Packet.decode n.forwarder.buffers s).2.1, k, k'⟩ :: later := by
  cases h with
  | ended hd =>
    rw [hd] at hp
    cases hp
  | broken hd hh | turn hd hh hrest =>
    rw [hd] at hp ⊢
    cases hp
    exact ⟨_, _, rfl⟩

theorem Round.IsAnswered.of_failsBy {r : Round ω σ} {action : Action} {fault : Fault}
    (h : r.IsAnswered env) (hfails : (opening env r.packet r.node r.client).FailsBy env action fault) :
    ∃ q, r.packet.IsReplyTo q ∧ r.answered = (q.writeTo r.client).2 ∧
      q.payload = Bytes.ofText (Wire.errorBody action fault) := by
  rcases h with ⟨-, hnone⟩ | ⟨q, hq, hwritten, hok, hfailed⟩
  · exact absurd hfails (hnone action fault)
  · obtain ⟨action', fault', -, hunique, hpayload⟩ := hfailed fun hresult ↦ hok hresult _ _ hfails
    obtain ⟨rfl, rfl⟩ := hunique action fault hfails
    exact ⟨q, hq, hwritten, hpayload⟩

/-- A packet that cannot be relayed is answered by one reply that says why. -/
theorem connection_answers_once_unreachable :
    let p := (Packet.createExtent 0 1 1 1).withFollowers (Bytes.ofText "0:[::1]:80,") 1
    let env : Environment Extent.Store Unit := environment {} .unreachable 0
    let s : Source := .ofBytes p.frame
    ∃ r later, Rounds env (ofSettings {} ()) s .unbounded (r :: later)
        (serve env (ofSettings {} ()) s .unbounded).2.2 ∧
      ∃ q, p.IsReplyTo q ∧ r.answered = (q.writeTo .unbounded).2 ∧ q.payload =
        Bytes.ofText "SendToFollowers_I/O error: Network is unreachable (os error 101)" := by
  intro p env s
  let n : Node Extent.Store Unit := ofSettings {} ()
  have hfits : p.Fits := ⟨⟨rfl, rfl⟩, by decide, by decide, by decide, by decide⟩
  have hread : (Packet.decode n.forwarder.buffers s).1 = .ok p := by
    obtain ⟨_, _, hdecode, -⟩ := hfits.decode_frame n.forwarder.buffers (s := s) (t := .empty) (by simp [s])
    have hreceived : p.received = p := by decide +kernel
    rw [hdecode, hreceived]
  let m := n.setBuffers (Packet.decode n.forwarder.buffers s).2.1
  let x := opening env p m .unbounded
  have hm : x.request.isMasterCommand = false := rfl
  have hp : Request.parseFollowers x.request.packet = .ok ["[::1]:80"] := by decide +kernel
  have hf : x.request.isForward = true := rfl
  have hs : ((x.resolved ["[::1]:80"]).send env).1 = some (.io Network.noRoute) := by decide +kernel
  have hfails : x.FailsBy env .sendToFollowers (.io Network.noRoute) := .unrelayed hm hp hf hs
  have hdone : (performed env.engine p m.store).1 = .ok .done := by decide +kernel
  have hbriefly : AnswersBriefly env.engine p m.store := by
    refine ⟨fun a ha ↦ ?_, fun refusal hrefusal ↦ ?_⟩
    · obtain rfl := Except.ok.inj (ha.symm.trans hdone)
      decide
    · rw [hdone] at hrefusal
      cases hrefusal
  obtain ⟨rounds, hrounds, hanswered⟩ :=
    connection_answers_once (show env.network.Terse from Network.terse_unreachable) n s .unbounded
  obtain ⟨k, later, rfl⟩ := hrounds.exists_head hread
  refine ⟨_, later, hrounds, ?_⟩
  exact (hanswered _ List.mem_cons_self hbriefly).of_failsBy hfails

end Node

end ReplicaChain
