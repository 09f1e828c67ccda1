import ReplicaChain.Proofs.Node.ClientFault
import ReplicaChain.Proofs.Node.ReplyShape

/-!
# How often a packet fails

A packet can fail at four places before it is answered, but nothing is tried any more once one of them has
failed.  So it is counted as failed once if the reply is not a success, and not at all if it is.  Only the
last step asks no such question: a reply that the client does not take is counted as a failure whatever it
says.  That ends the connection, so no more than one packet of a connection is counted twice.
-/

namespace ReplicaChain

open Follower
open Wire (Action Packet)

variable {ω σ : Type}

/-! ## Up to the reply -/

namespace Handling

variable {env : Environment ω σ} {x y : Handling ω σ} {failed : Nat}

/-- What was counted on the way to a reply: one failure if the reply is not a success, and none if it is or
if the client's stream failed before. -/
inductive Tallied (failed : Nat) : Option Fault × Handling ω σ → Prop
  | refused {y : Handling ω σ} (hresult : y.request.isOk = false)
      (hcount : y.node.packetsFailed = failed + 1) : Tallied failed (none, y)
  | accepted {y : Handling ω σ} (hresult : y.request.isOk = true)
      (hcount : y.node.packetsFailed = failed) : Tallied failed (none, y)
  | broken {y : Handling ω σ} {fault : Fault} (hcount : y.node.packetsFailed = failed) :
      Tallied failed (some fault, y)

theorem tallied_fail (action : Action) (fault : Fault) (x : Handling ω σ) :
    Tallied x.node.packetsFailed (none, x.fail action fault) :=
  .refused (decide_eq_false (result_fail_ne_ok action fault x)) rfl

theorem Tallied.finish {result : Option Fault} (h : Tallied failed (result, y))
    (env : Environment ω σ) (ok : Bool) : Tallied failed (result, y.finish env ok) := by
  cases h with
  | refused hresult hcount => exact .refused hresult hcount
  | accepted hresult hcount => exact .accepted hresult hcount
  | broken hcount => exact .broken hcount

theorem packetsFailed_perform (env : Environment ω σ) (x : Handling ω σ) :
    (x.perform env).2.node.packetsFailed = x.node.packetsFailed := by
  rw [perform_eq_performed]

theorem tallied_stream (now : Int64) (b : ByteArray) (x : Handling ω σ) :
    Tallied x.node.packetsFailed (x.stream now b) := by
  unfold stream
  dsimp only
  split
  · exact .broken rfl
  · exact .accepted rfl rfl

theorem tallied_operate (env : Environment ω σ) (x : Handling ω σ) :
    Tallied x.node.packetsFailed (x.operate env) := by
  rw [← packetsFailed_perform env x]
  rcases operate_cases env x with ⟨fault, h⟩ | ⟨a, h⟩ | ⟨a, h⟩ <;> rw [h]
  · exact tallied_fail _ _ _
  · exact tallied_stream _ _ _
  · exact .accepted rfl rfl

/-- Exchanges with followers report the fault of one of them. -/
theorem tallied_settleExchange {action : Fault → Action} {results : List (Option Link × Option Fault)}
    {f : Forwarder σ} {fault : Fault} (h : x.settleExchange action results f = (some fault, y)) :
    Tallied x.node.packetsFailed (none, y) := by
  obtain ⟨-, rfl⟩ := settleExchange_of_some h
  exact .refused (decide_eq_false (result_failForward_ne_ok (action fault) fault _)) rfl

/-- Replies are collected for a packet that has succeeded so far. -/
theorem tallied_receive (hok : x.request.isOk = true) (env : Environment ω σ) :
    Tallied x.node.packetsFailed (none, (x.receive env).2) := by
  by_cases hf : x.request.followers.isEmpty
  · rw [receive, if_pos hf]
    exact .accepted hok rfl
  rcases hr : x.receive env with ⟨_ | fault, y⟩ <;> rw [receive_of_followers env hf] at hr
  · obtain rfl := settleExchange_of_none hr
    exact .accepted hok rfl
  · exact tallied_settleExchange hr

theorem Tallied.conclude {outcome : Option Fault × Handling ω σ} (h : Tallied failed outcome)
    (env : Environment ω σ) :
    Tallied failed (outcome.1, outcome.2.conclude env outcome.1) := by
  cases h with
  | refused hresult hcount =>
    rw [Handling.conclude, if_neg (by simp [hresult])]
    exact Tallied.finish (.refused hresult hcount) env false
  | @accepted y hresult hcount =>
    rw [Handling.conclude, if_pos (by simp [hresult]), ← hcount]
    exact (tallied_receive hresult env).finish env _
  | broken hcount =>
    rw [Handling.conclude, if_neg (by simp)]
    exact Tallied.finish (.broken hcount) env false

/-- No packet fails at two of the places before its reply. -/
theorem tallied_process (env : Environment ω σ) (x : Handling ω σ) :
    Tallied x.node.packetsFailed (x.process env) := by
  rcases process_cases env x with
    hp | ⟨fault, hp⟩ | ⟨addresses, -, hp | ⟨fault, y, hs, hp⟩ | ⟨y, hs, hp⟩⟩ <;> rw [hp]
  · exact tallied_operate env x
  · exact tallied_fail .prepare fault x
  · exact tallied_operate env (x.resolved addresses)
  · rw [send_resolved] at hs
    exact (tallied_settleExchange hs).finish env false
  · rw [send_resolved] at hs
    have hcount : y.node.packetsFailed = x.node.packetsFailed := by
      rw [settleExchange_of_none hs]
      rfl
    rw [← hcount]
    exact (tallied_operate env y).conclude env

end Handling

/-! ## The reply -/

namespace Node

variable {env : Environment ω σ} {n : Node ω σ} {s : Source} {k out : Sink}
  {rounds : List (Round ω σ)}

def Round.isRefused (env : Environment ω σ) (r : Round ω σ) : Bool :=
  let processed := (opening env r.packet r.node r.client).process env
  processed.1.isNone && !processed.2.request.isOk

/-- The client does not take all that one which takes everything gets in response to the packet. -/
def Round.isUnwritten (env : Environment ω σ) (r : Round ω σ) : Bool :=
  !(r.client.write (handle env r.packet r.node .unbounded).2.2.written).1.isOk

/-- A response that is not written to its end leaves a fault, and nothing else does. -/
theorem isUnwritten_eq_isSome (env : Environment ω σ) (p : Packet) (n : Node ω σ) (k k' : Sink) :
    Round.isUnwritten env ⟨p, n, k, k'⟩ = (handle env p n k).1.isSome := by
  obtain ⟨m, out, -, hh⟩ := exists_handle_eq_write env p n
  have hout : (handle env p n .unbounded).2.2.written = out := by
    rw [hh]
    exact ByteArray.empty_append
  rw [Round.isUnwritten, hout, hh k]
  rcases k.write out with ⟨_ | _, k'⟩ <;> rfl

@[simp]
theorem packetsFailed_setBuffers (buffers : BufferPool) (n : Node ω σ) :
    (n.setBuffers buffers).packetsFailed = n.packetsFailed := rfl

theorem packetsFailed_stopTimer (elapsed : Latency.Duration) (x : Handling ω σ) :
    (x.stopTimer elapsed).node.packetsFailed = x.node.packetsFailed := by
  unfold Handling.stopTimer
  split <;> rfl

/-- A reply that is not written is one failure more. -/
theorem packetsFailed_handle_of_process {p : Packet} {fault : Option Fault} {y : Handling ω σ}
    (hy : (opening env p n k).process env = (fault, y)) :
    (handle env p n k).2.1.packetsFailed =
      y.node.packetsFailed + if (handle env p n k).1.isSome then 1 else 0 := by
  have hprocess : ((⟨.ofPacket p, n.begin, k⟩ : Handling ω σ).startTimer env.cluster).process env =
    (fault, y) := hy
  rw [← packetsFailed_stopTimer env.elapsed y]
  unfold handle
  simp only [hprocess]
  cases fault with
  | some fault => rfl
  | none =>
    rw [← node_reply (y.stopTimer env.elapsed)]
    rcases (y.stopTimer env.elapsed).reply with ⟨_ | fault, z⟩ <;> rfl

/-- What the reply says and whether it is written are counted each by itself. -/
theorem packetsFailed_handle (env : Environment ω σ) (p : Packet) (n : Node ω σ) (k k' : Sink) :
    (handle env p n k).2.1.packetsFailed = n.packetsFailed +
      (if Round.isRefused env ⟨p, n, k, k'⟩ then 1 else 0) +
      if Round.isUnwritten env ⟨p, n, k, k'⟩ then 1 else 0 := by
  have htallied := Handling.tallied_process env (opening env p n k)
  rcases hy : (opening env p n k).process env with ⟨fault, y⟩
  rw [hy] at htallied
  rw [packetsFailed_handle_of_process hy, isUnwritten_eq_isSome, Round.isRefused, hy]
  congr 1
  change Handling.Tallied n.packetsFailed (fault, y) at htallied
  cases htallied with
  | refused hresult hcount => simp [hresult, hcount]
  | accepted hresult hcount => simp [hresult, hcount]
  | broken hcount => simp [hcount]

theorem packetsReceived_handle (env : Environment ω σ) (p : Packet) (n : Node ω σ) (k : Sink) :
    (handle env p n k).2.1.packetsReceived = n.packetsReceived + 1 := by
  obtain ⟨m, out, hcount, hh⟩ := exists_handle_eq_write env p n
  rw [hh k, ← hcount]
  rcases k.write out with ⟨_ | _, k'⟩ <;> rfl

/-! ## The whole connection -/

/-- Every connection is a sequence of turns. -/
theorem exists_rounds (env : Environment ω σ) (n : Node ω σ) (s : Source) (k : Sink) :
    ∃ rounds, Rounds env n s k rounds (serve env n s k).2.2 := by
  fun_induction serve env n s k with
  | case1 n s k fault buffers rest hd => exact ⟨_, .ended hd⟩
  | case2 n s k p buffers rest hd fault m k' hh => exact ⟨_, .broken hd hh⟩
  | case3 n s k p buffers rest hd m k' hh ih =>
    obtain ⟨rounds, hrounds⟩ := ih
    exact ⟨_, .turn hd hh hrounds⟩

/-- Every turn is about one packet. -/
theorem Rounds.packetsReceived_serve (h : Rounds env n s k rounds out) :
    (serve env n s k).2.1.packetsReceived = n.packetsReceived + rounds.length := by
  induction h with
  | ended hd =>
    rw [serve_of_error hd]
    rfl
  | @broken n m s rest k k' buffers p fault hd hh =>
    have hcount := packetsReceived_handle env p (n.setBuffers buffers) k
    rw [hh] at hcount
    rw [serve_of_unwritten hd hh]
    exact hcount
  | @turn n m s rest k k' out buffers p rounds hd hh hrest ih =>
    have hcount := packetsReceived_handle env p (n.setBuffers buffers) k
    rw [hh, packetsReceived_setBuffers] at hcount
    rw [serve_of_ok hd hh, ih, List.length_cons, show m.packetsReceived = _ from hcount]
    omega

/-- Every turn counts what its reply says and whether it was written. -/
theorem Rounds.packetsFailed_serve (h : Rounds env n s k rounds out) :
    (serve env n s k).2.1.packetsFailed = n.packetsFailed +
      rounds.countP (Round.isRefused env) + rounds.countP (Round.isUnwritten env) := by
  induction h with
  | ended hd =>
    rw [serve_of_error hd]
    rfl
  | @broken n m s rest k k' buffers p fault hd hh =>
    have hcount := packetsFailed_handle env p (n.setBuffers buffers) k k'
    rw [hh, packetsFailed_setBuffers] at hcount
    rw [serve_of_unwritten hd hh, List.countP_singleton, List.countP_singleton]
    exact hcount
  | @turn n m s rest k k' out buffers p rounds hd hh hrest ih =>
    have hcount := packetsFailed_handle env p (n.setBuffers buffers) k k'
    rw [hh, packetsFailed_setBuffers] at hcount
    rw [serve_of_ok hd hh, ih, List.countP_cons, List.countP_cons, show m.packetsFailed = _ from hcount]
    omega

/-- A response that is not written to its end is the last one. -/
theorem Rounds.isUnwritten_of_mem_dropLast (h : Rounds env n s k rounds out) :
    ∀ r ∈ rounds.dropLast, r.isUnwritten env = false := by
  induction h with
  | ended hd => simp
  | broken hd hh => simp
  | @turn n m s rest k k' out buffers p rounds hd hh hrest ih =>
    have hwritten := isUnwritten_eq_isSome env p (n.setBuffers buffers) k k'
    rw [hh] at hwritten
    cases rounds with
    | nil => simp
    | cons r rounds => exact List.forall_mem_cons.mpr ⟨hwritten, ih⟩

theorem countP_or_add_countP_and {α : Type} (p q : α → Bool) (l : List α) :
    l.countP (fun a ↦ p a || q a) + l.countP (fun a ↦ p a && q a) = l.countP p + l.countP q := by
  induction l with
  | nil => rfl
  | cons a l ih =>
    simp only [List.countP_cons]
    cases p a <;> cases q a <;> simp <;> omega

/-- No more than one turn is counted twice. -/
theorem Rounds.countP_both_le (h : Rounds env n s k rounds out) :
    rounds.countP (fun r ↦ r.isRefused env && r.isUnwritten env) ≤ 1 := by
  have hwritten := h.isUnwritten_of_mem_dropLast
  rcases List.eq_nil_or_concat rounds with rfl | ⟨earlier, r, rfl⟩
  · exact Nat.zero_le _
  · rw [List.concat_eq_append] at hwritten ⊢
    rw [List.dropLast_concat] at hwritten
    have hnone : earlier.countP (fun r ↦ r.isRefused env && r.isUnwritten env) = 0 :=
      List.countP_eq_zero.mpr fun r hr ↦ by simp [hwritten r hr]
    have hlast : [r].countP (fun r ↦ r.isRefused env && r.isUnwritten env) ≤ 1 :=
      List.countP_le_length
    rw [List.countP_append, hnone, Nat.zero_add]
    exact hlast

/-- A connection counts one packet for every turn, and one failure for every turn in which the reply was not
a success or the client did not take the whole response.  A turn in which both happened counts as two
failures.  Only the last turn can be one that was not written to its end, so a connection counts at most
one failure more than packets. -/
theorem failures_of_connection (env : Environment ω σ) (n : Node ω σ) (s : Source) (k : Sink) :
    let served := serve env n s k
    ∃ rounds, Rounds env n s k rounds served.2.2 ∧
      served.2.1.packetsReceived = n.packetsReceived + rounds.length ∧
      served.2.1.packetsFailed = n.packetsFailed +
        (rounds.countP (fun r ↦ r.isRefused env || r.isUnwritten env) +
          rounds.countP fun r ↦ r.isRefused env && r.isUnwritten env) ∧
      (∀ r ∈ rounds.dropLast, r.isUnwritten env = false) ∧
      served.2.1.packetsFailed - n.packetsFailed ≤
        served.2.1.packetsReceived - n.packetsReceived + 1 := by
  intro served
  obtain ⟨rounds, hrounds⟩ := exists_rounds env n s k
  have hreceived : served.2.1.packetsReceived = _ := hrounds.packetsReceived_serve
  have hfailed : served.2.1.packetsFailed = _ := hrounds.packetsFailed_serve
  rw [Nat.add_assoc, ← countP_or_add_countP_and] at hfailed
  refine ⟨rounds, hrounds, hreceived, hfailed, hrounds.isUnwritten_of_mem_dropLast, ?_⟩
  have hor : rounds.countP (fun r ↦ r.isRefused env || r.isUnwritten env) ≤ rounds.length :=
    List.countP_le_length
  have hand := hrounds.countP_both_le
  omega

/-- A streamed read of an extent that does not exist is refused, and the client closes its stream after ten
bytes of the refusal.  The one packet is counted as two failures. -/
theorem failures_of_connection_twice :
    let p := Packet.range 0 353 .streamRead 7 1025 0 1
    let served := serve (environment {} .unreachable 0) (ofSettings {} ()) (.ofBytes p.frame)
      (.accepting 10 ⟨.brokenPipe, "peer closed"⟩)
    served.2.1.packetsReceived = 1 ∧ served.2.1.packetsFailed = 2 := by
  intro p served
  let env : Environment Extent.Store Unit := environment {} .unreachable 0
  let n : Node Extent.Store Unit := ofSettings {} ()
  have hfits : p.Fits := ⟨⟨rfl, rfl⟩, by decide, by decide, by decide, by decide⟩
  obtain ⟨q, hframe⟩ := hfits.exists_isFrame
  obtain ⟨rest, -, -, hserve⟩ := serve_eq_write env n (s := .ofBytes p.frame) (t := .empty) hframe
    (by simp)
  have hanswered : (answerFrame env n p.frame).1.packetsReceived = 1 ∧
      (answerFrame env n p.frame).1.packetsFailed = 1 ∧
      10 < (answerFrame env n p.frame).2.size := by decide +kernel
  have hcut := hserve (.accepting 10 ⟨.brokenPipe, "peer closed"⟩)
  rw [Sink.write_accepting, if_neg (Nat.not_le.mpr hanswered.2.2)] at hcut
  have hserved : served = (_, (answerFrame env n p.frame).1.countFailure, _) := hcut
  rw [hserved, packetsReceived_countFailure, packetsFailed_countFailure, hanswered.1, hanswered.2.1]
  exact ⟨rfl, rfl⟩

end Node

end ReplicaChain
