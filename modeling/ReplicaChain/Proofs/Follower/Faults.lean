import ReplicaChain.Proofs.Follower.Descriptors
import ReplicaChain.Proofs.Follower.Exchanges
import ReplicaChain.Proofs.Wire.Wording

/-!
# What can go wrong with followers

Descriptors may be unreadable, a link may be refused, a dial or a write may fail, and what comes back may be
no packet or no acknowledgement.  Whichever of these is reported, a reply has room for it.  Only failures of
the network are in words that the node does not choose itself, and of these it is assumed.
-/

namespace ReplicaChain

open Wire (Action Packet maxArgumentSize)

/-- A network says of its failures no more than a reply has room for. -/
structure Network.Terse {σ : Type} (net : Network σ) : Prop where
  dial : ∀ link s fault, (net.dial link s).1 = some (.failed fault) →
    (Fault.io fault).IsReportable .sendToFollowers
  await : ∀ link s fault, (net.await link s).1 = .failed fault →
    (Fault.io fault).IsReportable .sendToFollowers
  write : ∀ link b s fault, (net.write link b s).1 = .error fault →
    (Fault.io fault).IsReportable .sendToFollowers
  incoming : ∀ link s fault, (net.incoming link s).1.ending = .failed fault →
    (Fault.io fault).IsReportable .receiveFromFollower

/-! ## A host without a route -/

theorem SocketAddress.length_le_of_lookUp {host : String} {port : UInt16} {fault : IoFault}
    (h : SocketAddress.lookUp host port = .error fault) :
    fault.text.toList.length ≤ maxArgumentSize := by
  unfold lookUp at h
  repeat' split at h
  all_goals cases h
  all_goals decide

/-- A text that leads to no address is refused in few words. -/
theorem SocketAddress.length_le_of_resolve {text : String} {fault : IoFault}
    (h : SocketAddress.resolve text = .lookup (.error fault)) :
    fault.text.toList.length ≤ maxArgumentSize := by
  simp only [resolve] at h
  split at h
  · cases h
  · split at h
    · cases h
      decide
    · split at h
      · cases h
        decide
      · exact length_le_of_lookUp (Resolution.lookup.inj h)

/-- A host without a route to anywhere says so in few words. -/
theorem Network.terse_unreachable : Network.unreachable.Terse where
  dial link s fault h := by
    have hroute : noRoute.text.toList.length ≤ maxArgumentSize := by decide
    simp only [unreachable] at h
    split at h <;> cases h
    exact Fault.isReportable_of_hasShortParts _ hroute
  await link s fault h := by
    have hroute : noRoute.text.toList.length ≤ maxArgumentSize := by decide
    simp only [unreachable] at h
    split at h <;> cases h
    · rename_i hresolve
      exact Fault.isReportable_of_hasShortParts _ (SocketAddress.length_le_of_resolve hresolve)
    · exact Fault.isReportable_of_hasShortParts _ hroute
  write link b s fault h := by
    cases h
    have hshort : (IoKind.description .notConnected).toList.length ≤ maxArgumentSize := by decide
    exact Fault.isReportable_of_hasShortParts _ hshort
  incoming link s fault h := nomatch h

namespace Follower

variable {σ : Type} {net : Network σ}

/-! ## Addresses -/

theorem length_le_of_mem_entriesFrom {read cs token : List Char} (h : token ∈ entriesFrom read cs) :
    token.length ≤ read.length + cs.length := by
  induction cs generalizing read with
  | nil => cases h
  | cons c cs ih =>
    rw [entriesFrom] at h
    split at h
    · rcases List.mem_cons.mp h with rfl | h
      · simp
      · have htoken := ih h
        simp only [List.length_nil, List.length_cons] at htoken ⊢
        omega
    · have htoken := ih h
      simp only [List.length_cons] at htoken ⊢
      omega

theorem StandsFor.length_le {token address : List Char} (h : StandsFor token address) :
    address.length ≤ token.length := by
  rcases h with ⟨index, -, rfl, -⟩ | ⟨rfl, -⟩
  · simp only [List.length_append, List.length_cons]
    omega
  · exact Nat.le_refl _

/-- No address is longer than the descriptors that name it. -/
theorem length_le_of_mem_parse {argument : ByteArray} {declared : Nat} {addresses : List String}
    {address : String} (h : parse argument declared = .ok addresses) (ha : address ∈ addresses) :
    address.toList.length ≤ declared := by
  obtain ⟨text, htext, rfl⟩ := parse_eq_ok h
  obtain ⟨token, htoken, rfl⟩ := List.mem_map.mp ha
  have hsize : text.utf8ByteSize ≤ declared := by
    have hbytes := congrArg ByteArray.size (utf8_eq_ofText_of_decode htext)
    rw [Bytes.size_take] at hbytes
    change _ = text.utf8ByteSize at hbytes
    omega
  rw [String.toList_ofList]
  calc
    (addressOf token).length ≤ token.length := (standsFor_addressOf token).length_le
    _ ≤ ([] : List Char).length + text.toList.length := length_le_of_mem_entriesFrom htoken
    _ = text.toList.length := Nat.zero_add _
    _ ≤ text.utf8ByteSize := (Text.utf8ByteSize_bounds text).1
    _ ≤ declared := hsize

end Follower

/-- No follower has a longer address than an argument can hold. -/
theorem Request.length_le_of_mem_followers {p : Packet} {addresses : List String} {address : String}
    (hp : p.Decodable) (h : parseFollowers p = .ok addresses) (ha : address ∈ addresses) :
    address.toList.length ≤ maxArgumentSize :=
  Nat.le_trans (Follower.length_le_of_mem_parse (parse_of_parseFollowers h) ha) hp.fits.argument_limit

/-- Followers that cannot be found are reported in few words. -/
theorem Request.hasShortParts_of_parseFollowers {p : Packet} {fault : Fault} (hp : p.Decodable)
    (h : parseFollowers p = .error fault) : fault.HasShortParts := by
  have hsize : p.header.argumentSize.toNat ≤ p.argument.size := hp.fits.argument_le
  have hlimit : p.header.argumentSize.toNat ≤ 65536 := hp.fits.argument_limit
  simp only [parseFollowers, Follower.parse, if_neg (Nat.not_lt.mpr hsize)] at h
  split at h
  · rename_i hparse
    cases h
    split at hparse
    · rename_i fault hdecode
      cases hparse
      obtain ⟨hindex, hlength⟩ := Text.Utf8.index_le_of_decode hdecode
      rw [Bytes.size_take] at hindex
      refine ⟨by omega, fun n hn ↦ ?_⟩
      have := hlength n hn
      omega
    · cases hparse
  · unfold Follower.checkHopCount at h
    split at h
    · rename_i hcount
      cases h
      split at hcount <;> cases hcount
      trivial
    · cases h

namespace Follower

variable {σ : Type} {net : Network σ}

/-! ## Relays -/

theorem hasShortParts_of_request {address : String} {pool links : LinkPool} {fault : Fault}
    (h : pool.request address = (.refused fault, links)) : fault.HasShortParts := by
  unfold LinkPool.request at h
  grind [Fault.HasShortParts]

/-- If a relay failed, the reason can be reported. -/
def SendStage.Reportable (stage : SendStage) : Prop :=
  ∀ fault, (Sending.result stage).2 = some fault → fault.IsReportable .sendToFollowers

theorem reportable_settled {link : Option Link} {fault : Fault}
    (h : fault.IsReportable .sendToFollowers) : (SendStage.settled link (some fault)).Reportable := by
  rintro fault' ⟨⟩
  exact h

theorem reportable_stageOfLink {link : Link} {a : Attempt} (f : Forwarder σ)
    (ha : ∀ fault, a = .failed fault → (Fault.io fault).IsReportable .sendToFollowers) :
    (Sending.stageOfLink (f.conclude link a).1).Reportable := by
  cases a with
  | succeeded => rintro fault ⟨⟩
  | failed fault => exact reportable_settled (ha fault rfl)
  | expired =>
    have hshort : ("follower connect" : String).toList.length ≤ maxArgumentSize := by decide
    exact reportable_settled (Fault.isReportable_of_hasShortParts _ hshort)

theorem reportable_sending_advance (hnet : net.Terse) (frame : ByteArray) (address : String)
    {stage : SendStage} (f : Forwarder σ) (h : stage.Reportable) :
    (Sending.advance net frame address stage f).1.Reportable := by
  cases stage with
  | waiting =>
    rcases hr : f.links.request address with ⟨link | link | fault, links⟩
    · simp only [Sending.advance, hr]
      rintro fault ⟨⟩
    · rcases hd : net.dial link f.network with ⟨_ | a, network⟩
      · simp only [Sending.advance, hr, hd]
        rintro fault ⟨⟩
      · simp only [Sending.advance, hr, hd]
        refine reportable_stageOfLink _ fun fault hfault ↦ hnet.dial link f.network fault ?_
        rw [hd, hfault]
    · simp only [Sending.advance, hr]
      exact reportable_settled (Fault.isReportable_of_hasShortParts _ (hasShortParts_of_request hr))
  | dialing link => exact reportable_stageOfLink _ (hnet.await link f.network)
  | connected link =>
    rcases hw : net.write link frame f.network with ⟨fault | _, network⟩
    · simp only [Sending.advance, hw]
      exact reportable_settled (hnet.write link frame f.network fault (by rw [hw]))
    · simp only [Sending.advance, hw]
      rintro fault ⟨⟩
  | settled link fault => exact h

/-- The fault of a relay can be reported. -/
theorem Forwarder.isReportable_of_send (hnet : net.Terse) {schedule : List Nat} {frame : ByteArray}
    {followers : List String} {f : Forwarder σ} {fault : Fault}
    (h : firstFault (f.send net schedule frame followers).1 = some fault) :
    fault.IsReportable .sendToFollowers := by
  rw [send_eq_relayed] at h
  obtain ⟨r, hr, hfault⟩ := exists_of_firstFault h
  refine forall_mem_runAll (P := fun _ ↦ SendStage.Reportable)
    (fun address stage ↦ reportable_sending_advance hnet frame address) _ ?_ r hr fault hfault
  intro r hr
  obtain ⟨address, -, rfl⟩ := List.mem_map.mp hr
  rintro fault ⟨⟩

/-! ## Replies -/

theorem hasShortParts_of_checkReply {address : String} {requestId : Int64} {reply : Packet}
    {fault : Fault} (haddress : address.toList.length ≤ maxArgumentSize)
    (h : checkReply address requestId reply = some fault) : fault.HasShortParts := by
  unfold checkReply at h
  grind [Fault.HasShortParts]

theorem isReportable_of_decode (hnet : net.Terse) {pool : BufferPool} {link : Link} {s : σ}
    {fault : Fault} (h : (Packet.decode pool (net.incoming link s).1).1 = .error fault) :
    fault.IsReportable (Handling.receiveAction fault) := by
  rcases Packet.hasShortParts_of_decode h with rfl | hshort
  · cases hending : (net.incoming link s).1.ending with
    | closed =>
      have hshort : ("early eof" : String).toList.length ≤ maxArgumentSize := by decide
      exact Fault.isReportable_of_hasShortParts _ hshort
    | failed fault => exact hnet.incoming link s fault hending
    | silent =>
      have hshort : ("packet read deadline exceeded" : String).toList.length ≤ maxArgumentSize := by
        decide
      exact Fault.isReportable_of_hasShortParts _ hshort
  · exact Fault.isReportable_of_hasShortParts _ hshort

/-- The address of a follower is not too long, and if its reply was missed, the reason can be reported. -/
def ReceiveStage.Reportable (address : String) (stage : ReceiveStage) : Prop :=
  address.toList.length ≤ maxArgumentSize ∧
    ∀ fault, (Receiving.result stage).2 = some fault → fault.IsReportable (Handling.receiveAction fault)

theorem reportable_receiving_advance (hnet : net.Terse) (requestId : Int64) {address : String}
    {stage : ReceiveStage} (f : Forwarder σ) (h : stage.Reportable address) :
    (Receiving.advance net requestId address stage f).1.Reportable address := by
  refine ⟨h.1, fun fault hfault ↦ ?_⟩
  rcases stage with (_ | link) | ⟨link, fault'⟩
  · obtain rfl : Fault.unlinked address = fault := Option.some.inj hfault
    exact Fault.isReportable_of_hasShortParts _ h.1
  · simp only [Receiving.advance, Receiving.result, Forwarder.receiveOne] at hfault
    split at hfault
    · rename_i hd
      obtain rfl := Option.some.inj hfault
      exact isReportable_of_decode hnet (congrArg Prod.fst hd)
    · exact Fault.isReportable_of_hasShortParts _ (hasShortParts_of_checkReply h.1 hfault)
  · exact h.2 fault hfault

/-- The fault of a missed acknowledgement can be reported. -/
theorem Forwarder.isReportable_of_receive (hnet : net.Terse) {schedule : List Nat} {requestId : Int64}
    {followers : List String} {slots : List (Option Link)} {f : Forwarder σ} {fault : Fault}
    (hfollowers : ∀ address ∈ followers, address.toList.length ≤ maxArgumentSize)
    (h : firstFault (f.receive net schedule requestId followers slots).1 = some fault) :
    fault.IsReportable (Handling.receiveAction fault) := by
  rw [receive_eq_collected] at h
  obtain ⟨r, hr, hfault⟩ := exists_of_firstFault h
  have hreportable : r.2.Reportable r.1 := by
    refine forall_mem_runAll (P := fun address stage ↦ stage.Reportable address)
      (fun address stage ↦ reportable_receiving_advance hnet requestId) _ ?_ r hr
    intro r hr
    obtain ⟨⟨address, slot⟩, hslot, rfl⟩ := List.mem_map.mp hr
    exact ⟨hfollowers address (List.of_mem_zip hslot).1, fun fault hpending ↦ nomatch hpending⟩
  exact hreportable.2 fault hfault

end Follower

end ReplicaChain
