import Mathlib.Data.List.Forall2
import Mathlib.Data.List.TakeWhile
import ReplicaChain.Node.Handling
import ReplicaChain.Proofs.Text.Numeral
import ReplicaChain.Proofs.Wire.RoundTrip

/-!
# What descriptors name

The declared part of an argument is cut at its commas.  Each comma closes a token, and what follows the last
one counts for nothing.  A token stands for the address that is left of it when a leading number and a colon
are taken away; it stands for itself if it has no such beginning or if no colon would be left.

A list of addresses is written with the position of each in front of it.  The position is what is taken away
when the list is read, whatever an address looks like, as long as it has a colon and no comma.
-/

namespace ReplicaChain

namespace Follower

open Text (IsNumeral)

variable {cs read rest token index address : List Char} {tokens : List (List Char)}

/-! ## Tokens -/

/-- Tokens, each closed by a comma. -/
def closed (tokens : List (List Char)) : List Char :=
  tokens.flatMap (· ++ [','])

theorem closed_cons (token : List Char) (tokens : List (List Char)) :
    closed (token :: tokens) = token ++ ',' :: closed tokens := by
  rw [closed, List.flatMap_cons, List.append_assoc]
  rfl

theorem entriesFrom_of_not_mem (h : ',' ∉ cs) : entriesFrom read cs = [] := by
  induction cs generalizing read with
  | nil => rfl
  | cons c cs ih =>
    obtain ⟨hc, hcs⟩ := List.ne_and_not_mem_of_not_mem_cons h
    rw [entriesFrom, if_neg (Ne.symm hc), ih hcs]

theorem entriesFrom_append_comma (h : ',' ∉ token) :
    entriesFrom read (token ++ ',' :: rest) = (read.reverse ++ token) :: entries rest := by
  induction token generalizing read with
  | nil =>
    rw [List.nil_append, entriesFrom, if_pos rfl, List.append_nil]
    rfl
  | cons c token ih =>
    obtain ⟨hc, htoken⟩ := List.ne_and_not_mem_of_not_mem_cons h
    rw [List.cons_append, entriesFrom, if_neg (Ne.symm hc), ih htoken, List.reverse_cons,
      List.append_assoc, List.singleton_append]

/-- A text of closed tokens is cut into just these. -/
theorem entries_closed (htokens : ∀ t ∈ tokens, ',' ∉ t) (hrest : ',' ∉ rest) :
    entries (closed tokens ++ rest) = tokens := by
  induction tokens with
  | nil => exact entriesFrom_of_not_mem hrest
  | cons token tokens ih =>
    obtain ⟨htoken, htokens⟩ := List.forall_mem_cons.mp htokens
    rw [closed_cons, List.append_assoc, List.cons_append, entries, entriesFrom_append_comma htoken,
      ih htokens]
    rfl

theorem exists_closed_entriesFrom (hread : ',' ∉ read) (cs : List Char) :
    (∀ t ∈ entriesFrom read cs, ',' ∉ t) ∧
      ∃ rest, ',' ∉ rest ∧ read.reverse ++ cs = closed (entriesFrom read cs) ++ rest := by
  induction cs generalizing read with
  | nil => exact ⟨by simp [entriesFrom], read.reverse, by simpa, by simp [entriesFrom, closed]⟩
  | cons c cs ih =>
    rw [entriesFrom]
    by_cases hc : c = ','
    · have hnil : ',' ∉ ([] : List Char) := List.not_mem_nil
      obtain ⟨hentries, rest, hrest, heq⟩ := ih hnil
      have htoken : ',' ∉ read.reverse := by simpa
      rw [if_pos hc, closed_cons]
      refine ⟨List.forall_mem_cons.mpr ⟨htoken, hentries⟩, rest, hrest, ?_⟩
      rw [List.append_assoc, List.cons_append, ← heq, hc]
      rfl
    · have hlonger : ',' ∉ c :: read := List.not_mem_cons_of_ne_of_not_mem (Ne.symm hc) hread
      rw [if_neg hc]
      simpa using ih hlonger

/-- Every text is its tokens, closed by commas, and a rest without a comma. -/
theorem exists_closed_entries (cs : List Char) :
    (∀ t ∈ entries cs, ',' ∉ t) ∧ ∃ rest, ',' ∉ rest ∧ cs = closed (entries cs) ++ rest :=
  exists_closed_entriesFrom List.not_mem_nil cs

theorem length_entriesFrom (read cs : List Char) :
    (entriesFrom read cs).length = cs.count ',' := by
  induction cs generalizing read with
  | nil => rfl
  | cons c cs ih =>
    rw [entriesFrom, List.count_cons]
    by_cases hc : c = ','
    · rw [if_pos hc, List.length_cons, ih, if_pos (by simp [hc])]
    · rw [if_neg hc, ih, if_neg (by simp [hc]), Nat.add_zero]

/-- There is one entry for each comma, whatever stands between them and after the last. -/
theorem length_entries (cs : List Char) : (entries cs).length = cs.count ',' :=
  length_entriesFrom [] cs

/-! ## The address of a token -/

def positionBound : Nat :=
  0x100000000

/-- What a token stands for: the text after a leading position, if there is a colon in it, and else the
token itself. -/
def StandsFor (token address : List Char) : Prop :=
  (∃ index, IsNumeral positionBound index ∧ token = index ++ ':' :: address ∧ ':' ∈ address) ∨
    (address = token ∧ ∀ index rest, IsNumeral positionBound index → token = index ++ ':' :: rest →
      ':' ∉ rest)

theorem colon_not_mem_of_isNumeral {bound : Nat} (h : IsNumeral bound index) : ':' ∉ index :=
  h.not_mem (by decide) (by decide)

theorem addressOf_of_not_mem (h : ':' ∉ token) : addressOf token = token := by
  have hdrop : token.dropWhile (· ≠ ':') = [] := by
    rw [List.dropWhile_eq_nil_iff]
    intro c hc
    have hne : c ≠ ':' := fun heq ↦ h (heq ▸ hc)
    simpa using hne
  rw [addressOf, hdrop]

theorem addressOf_append (h : ':' ∉ index) :
    addressOf (index ++ ':' :: rest) =
      if ':' ∈ rest ∧ (Text.unsigned? positionBound index).isSome then rest
      else index ++ ':' :: rest := by
  have hbefore : ∀ c ∈ index, decide (c ≠ ':') = true := by
    intro c hc
    have hne : c ≠ ':' := fun heq ↦ h (heq ▸ hc)
    simpa using hne
  have hdrop : (index ++ ':' :: rest).dropWhile (· ≠ ':') = ':' :: rest := by
    rw [List.dropWhile_append_of_pos hbefore, List.dropWhile_cons_of_neg (by simp)]
  have htake : (index ++ ':' :: rest).takeWhile (· ≠ ':') = index := by
    rw [List.takeWhile_append_of_pos hbefore, List.takeWhile_cons_of_neg (by simp), List.append_nil]
  rw [addressOf, hdrop, htake]
  rfl

/-- The position in front of an address is taken away. -/
theorem addressOf_of_isNumeral (hindex : IsNumeral positionBound index) (haddress : ':' ∈ address) :
    addressOf (index ++ ':' :: address) = address := by
  have hread : (Text.unsigned? positionBound index).isSome :=
    (Text.isSome_unsigned?_iff (by decide)).mpr hindex
  rw [addressOf_append (colon_not_mem_of_isNumeral hindex), if_pos ⟨haddress, hread⟩]

theorem standsFor_addressOf (token : List Char) : StandsFor token (addressOf token) := by
  by_cases hcut : ∃ index rest, IsNumeral positionBound index ∧ token = index ++ ':' :: rest ∧
      ':' ∈ rest
  · obtain ⟨index, rest, hindex, rfl, hrest⟩ := hcut
    rw [addressOf_of_isNumeral hindex hrest]
    exact .inl ⟨index, hindex, rfl, hrest⟩
  · have hwhole : addressOf token = token := by
      by_cases hcolon : ':' ∈ token
      · -- The token is cut at its first colon, and no other cut has a number in front.
        obtain ⟨index, rest, rfl, hindex⟩ := List.eq_append_cons_of_mem hcolon
        rw [addressOf_append hindex, if_neg]
        rintro ⟨hrest, hread⟩
        have hnumeral := (Text.isSome_unsigned?_iff (by decide)).mp hread
        exact hcut ⟨index, rest, hnumeral, rfl, hrest⟩
      · exact addressOf_of_not_mem hcolon
    refine .inr ⟨hwhole, fun index rest hindex heq hrest ↦ ?_⟩
    exact hcut ⟨index, rest, hindex, heq, hrest⟩

/-! ## Reading descriptors -/

theorem utf8_decode_ofText (text : String) : Text.Utf8.decode (Bytes.ofText text) = .ok text := by
  have hvalid : (Bytes.ofText text).IsValidUTF8 := text.isValidUTF8
  rw [Text.Utf8.decode, dif_pos hvalid]
  rfl

theorem utf8_eq_ofText_of_decode {b : ByteArray} {text : String}
    (h : Text.Utf8.decode b = .ok text) : b = Bytes.ofText text := by
  unfold Text.Utf8.decode at h
  split at h
  · rw [← Except.ok.inj h]
    rfl
  · cases h

variable {argument argument' : ByteArray} {declared : Nat} {addresses : List String}

/-- Descriptors that can be read are text, and there is one address for each token. -/
theorem parse_eq_ok_iff :
    parse argument declared = .ok addresses ↔
      declared ≤ argument.size ∧
        ∃ text, Text.Utf8.decode (Bytes.take declared argument) = .ok text ∧
          addresses = (entries text.toList).map fun entry ↦ String.ofList (addressOf entry) := by
  unfold parse
  split
  · rename_i hshort
    simp [Nat.not_le.mpr hshort]
  · rename_i hlong
    simp only [Nat.le_of_not_lt hlong, true_and]
    split
    · rename_i hfault
      simp [hfault]
    · rename_i text htext
      simp [htext, eq_comm]

theorem parse_eq_ok (h : parse argument declared = .ok addresses) :
    ∃ text, Text.Utf8.decode (Bytes.take declared argument) = .ok text ∧
      addresses = (entries text.toList).map fun entry ↦ String.ofList (addressOf entry) :=
  (parse_eq_ok_iff.mp h).2

theorem parse_eq_error_iff :
    (∃ fault, parse argument declared = .error fault) ↔
      argument.size < declared ∨ ¬ (Bytes.take declared argument).IsValidUTF8 := by
  rw [← Text.Utf8.decode_ok_iff, parse]
  split
  · rename_i hshort
    exact iff_of_true ⟨_, rfl⟩ (.inl hshort)
  · rename_i hlong
    cases htext : Text.Utf8.decode (Bytes.take declared argument) with
    | error fault => simp
    | ok text => simp [hlong]

/-- Only the declared bytes count. -/
theorem parse_congr (h : declared ≤ argument.size) (h' : declared ≤ argument'.size)
    (hsame : Bytes.take declared argument = Bytes.take declared argument') :
    parse argument declared = parse argument' declared := by
  rw [parse, parse, if_neg (Nat.not_lt.mpr h), if_neg (Nat.not_lt.mpr h'), hsame]

/-! ## Descriptors that were written -/

def tokensFrom (i : Nat) : List String → List (List Char)
  | [] => []
  | address :: rest => ((Text.decimal i).toList ++ ':' :: address.toList) :: tokensFrom (i + 1) rest

/-- An address that can be named: it has a colon and no comma. -/
def IsNameable (address : String) : Prop :=
  ':' ∈ address.toList ∧ ',' ∉ address.toList

instance : DecidablePred IsNameable := fun _ ↦
  inferInstanceAs (Decidable (_ ∧ _))

theorem toList_encodeFrom (i : Nat) (addresses : List String) :
    (encodeFrom i addresses).toList = closed (tokensFrom i addresses) := by
  induction addresses generalizing i with
  | nil => rfl
  | cons address rest ih =>
    rw [encodeFrom, tokensFrom, closed_cons, ← ih]
    simp only [String.toList_append, List.append_assoc, List.cons_append]
    rfl

/-- Every address takes at least the byte of its comma. -/
theorem length_le_utf8ByteSize_encodeFrom (i : Nat) (addresses : List String) :
    addresses.length ≤ (encodeFrom i addresses).utf8ByteSize := by
  induction addresses generalizing i with
  | nil => exact Nat.zero_le _
  | cons address rest ih =>
    have hcomma : (",").utf8ByteSize = 1 := rfl
    have hrest := ih (i + 1)
    simp only [encodeFrom, String.utf8ByteSize_append, List.length_cons, hcomma]
    omega

theorem not_mem_of_mem_tokensFrom (h : ∀ a ∈ addresses, IsNameable a) (i : Nat)
    (ht : token ∈ tokensFrom i addresses) : ',' ∉ token := by
  induction addresses generalizing i with
  | nil => cases ht
  | cons address rest ih =>
    obtain ⟨haddress, hrest⟩ := List.forall_mem_cons.mp h
    rcases List.mem_cons.mp ht with rfl | ht
    · have hnumeral := Text.isNumeral_decimal (Nat.lt_succ_self i)
      have hposition : ',' ∉ (Text.decimal i).toList := hnumeral.not_mem (by decide) (by decide)
      simpa [hposition] using haddress.2
    · exact ih hrest (i + 1) ht

/-- The tokens that are written stand for the addresses for which they are written. -/
theorem map_addressOf_tokensFrom (h : ∀ a ∈ addresses, IsNameable a) (i : Nat)
    (hi : i + addresses.length ≤ positionBound) :
    (tokensFrom i addresses).map (fun token ↦ String.ofList (addressOf token)) = addresses := by
  induction addresses generalizing i with
  | nil => rfl
  | cons address rest ih =>
    obtain ⟨haddress, hrest⟩ := List.forall_mem_cons.mp h
    rw [List.length_cons] at hi
    have hposition : IsNumeral positionBound (Text.decimal i).toList :=
      Text.isNumeral_decimal (by omega)
    rw [tokensFrom, List.map_cons, addressOf_of_isNumeral hposition haddress.1,
      ih hrest (i + 1) (by omega), String.ofList_toList]

/-- Descriptors that are not too long are read back. -/
theorem parse_encode (h : ∀ a ∈ addresses, IsNameable a)
    (hsize : (encode addresses).utf8ByteSize ≤ positionBound) :
    parse (Bytes.ofText (encode addresses)) (encode addresses).utf8ByteSize = .ok addresses := by
  have hwhole : (Bytes.ofText (encode addresses)).size = (encode addresses).utf8ByteSize :=
    String.size_toByteArray
  have hposition : 0 + addresses.length ≤ positionBound := by
    rw [Nat.zero_add]
    exact Nat.le_trans (length_le_utf8ByteSize_encodeFrom 0 addresses) hsize
  have htokens : entries (encode addresses).toList = tokensFrom 0 addresses := by
    calc
      entries (encode addresses).toList = entries (closed (tokensFrom 0 addresses) ++ []) := by
        rw [encode, toList_encodeFrom, List.append_nil]
      _ = tokensFrom 0 addresses :=
        entries_closed (fun _ ht ↦ not_mem_of_mem_tokensFrom h 0 ht) List.not_mem_nil
  refine parse_eq_ok_iff.mpr ⟨Nat.le_of_eq hwhole.symm, encode addresses, ?_, ?_⟩
  · rw [Bytes.take_of_size_le (Nat.le_of_eq hwhole), utf8_decode_ofText]
  · rw [htokens, map_addressOf_tokensFrom h 0 hposition]

/-- What is read from descriptors.  Reading fails only for lack of bytes or because the declared ones are
not text.  Otherwise there is one address for each token that a comma closes. -/
theorem parse_tokens (h : parse argument declared = .ok addresses) :
    ∃ text tokens rest, Bytes.take declared argument = Bytes.ofText text ∧
      text.toList = closed tokens ++ rest ∧ (∀ t ∈ rest :: tokens, ',' ∉ t) ∧
      List.Forall₂ StandsFor tokens (addresses.map String.toList) := by
  obtain ⟨text, htext, rfl⟩ := parse_eq_ok h
  obtain ⟨hentries, rest, hrest, hwhole⟩ := exists_closed_entries text.toList
  refine ⟨text, entries text.toList, rest, utf8_eq_ofText_of_decode htext, hwhole,
    List.forall_mem_cons.mpr ⟨hrest, hentries⟩, ?_⟩
  rw [List.map_map, List.forall₂_map_right_iff, List.forall₂_same]
  intro token _
  rw [Function.comp_apply, String.toList_ofList]
  exact standsFor_addressOf token

/-- A number in front of an address is taken away once, and not at all if no colon would be left. -/
example :
    parse (Bytes.ofText "0:80:443,80:443,+7:[::1]:80,:a:1,,4294967296:a:1,5:b") 51 =
      .ok ["80:443", "80:443", "[::1]:80", ":a:1", "", "4294967296:a:1"] := by
  decide +kernel

end Follower

open Follower
open Wire (Packet maxArgumentSize maxPayloadSize)

/-! ## Descriptors on the wire -/

theorem Request.parse_of_parseFollowers {p : Packet} {addresses : List String}
    (h : Request.parseFollowers p = .ok addresses) :
    Follower.parse p.argument p.header.argumentSize.toNat = .ok addresses := by
  unfold Request.parseFollowers at h
  split at h
  · cases h
  · split at h
    · cases h
    · rename_i hparse _ _ _
      cases h
      exact hparse

section OnTheWire

variable {ω σ : Type} {addresses : List String} {hops : Int8} {p : Packet}

theorem argumentSize_withFollowers (hsize : (encode addresses).utf8ByteSize ≤ maxArgumentSize) :
    (p.withFollowers (Bytes.ofText (encode addresses)) hops).header.argumentSize.toNat =
      (encode addresses).utf8ByteSize := by
  have hwhole : (Bytes.ofText (encode addresses)).size = (encode addresses).utf8ByteSize :=
    String.size_toByteArray
  have hbound : maxArgumentSize < UInt32.size := by decide
  rw [Packet.withFollowers, hwhole, Nat.min_eq_left (Nat.le_trans hsize (by decide))]
  exact UInt32.toNat_ofNat_of_lt' (Nat.lt_of_le_of_lt hsize hbound)

/-- A packet that fits without descriptors fits with descriptors of an admissible length. -/
theorem fits_withFollowers (hsize : (encode addresses).utf8ByteSize ≤ maxArgumentSize)
    (hc : p.header.IsCanonical) (hd : p.header.payloadSize ≤ p.data.size)
    (hl : p.header.payloadSize ≤ maxPayloadSize) :
    (p.withFollowers (Bytes.ofText (encode addresses)) hops).Fits where
  canonical := hc
  argument_le := by
    rw [argumentSize_withFollowers hsize]
    exact Nat.le_of_eq String.size_toByteArray.symm
  argument_limit := by rwa [argumentSize_withFollowers hsize]
  payload_le := hd
  payload_limit := hl

/-- The addresses that were attached to a packet are its followers when it has been received. -/
theorem parseFollowers_received (h : ∀ a ∈ addresses, IsNameable a)
    (hsize : (encode addresses).utf8ByteSize ≤ maxArgumentSize) (hhops : 0 ≤ hops) :
    Request.parseFollowers (p.withFollowers (Bytes.ofText (encode addresses)) hops).received =
      .ok addresses := by
  let q := p.withFollowers (Bytes.ofText (encode addresses)) hops
  have hdeclared : q.header.argumentSize.toNat = (encode addresses).utf8ByteSize :=
    argumentSize_withFollowers hsize
  have hargument : q.received.argument = Bytes.ofText (encode addresses) :=
    Bytes.take_of_size_le (Nat.le_of_eq (String.size_toByteArray.trans hdeclared.symm))
  have hparse : Follower.parse q.received.argument q.received.header.argumentSize.toNat =
      .ok addresses := by
    rw [hargument]
    change Follower.parse _ q.header.argumentSize.toNat = _
    rw [hdeclared]
    exact parse_encode h (Nat.le_trans hsize (by decide))
  have hcount : checkHopCount q.received.header.remaining = .ok () :=
    if_neg (Int8.not_lt.mpr hhops)
  change Request.parseFollowers q.received = _
  rw [Request.parseFollowers, hparse]
  dsimp only
  rw [hcount]

namespace Handling

/-- Addresses that are attached to a packet arrive.  Once the packet was sent and received, its followers
are these addresses in their order, each with a slot to which no link is bound. -/
theorem resolve_of_withFollowers (h : ∀ a ∈ addresses, IsNameable a)
    (hsize : (encode addresses).utf8ByteSize ≤ maxArgumentSize) (hhops : 0 ≤ hops)
    (hc : p.header.IsCanonical) (hd : p.header.payloadSize ≤ p.data.size)
    (hl : p.header.payloadSize ≤ maxPayloadSize) :
    ∃ frame, (p.withFollowers (Bytes.ofText (encode addresses)) hops).encode = .ok frame ∧
      ∀ (pool : BufferPool) (s : Source) (t : ByteArray), s.bytes = frame ++ t →
        ∃ q pool' rest, Packet.decode pool s = (.ok q, pool', rest) ∧ rest.bytes = t ∧
          ∀ x : Handling ω σ, x.request.packet = q →
            x.resolve.1 = none ∧ x.resolve.2.request.followers = addresses ∧
              x.resolve.2.request.slots = List.replicate addresses.length none := by
  have hfits : (p.withFollowers (Bytes.ofText (encode addresses)) hops).Fits :=
    fits_withFollowers hsize hc hd hl
  refine ⟨_, Packet.encode_eq_frame hfits.argument_le hfits.payload_le, fun pool s t hs ↦ ?_⟩
  obtain ⟨pool', rest, hdecode, hrest, -⟩ := hfits.decode_frame pool hs
  refine ⟨_, pool', rest, hdecode, hrest, fun x hx ↦ ?_⟩
  have hresolve : x.resolve = (none, { x with request := x.request.withFollowers addresses }) := by
    rw [resolve, hx, parseFollowers_received h hsize hhops]
  rw [hresolve]
  exact ⟨rfl, rfl, List.map_const'⟩

/-- Follower lists survive the wire.  Addresses with a colon and without a comma, attached to a packet that
fits otherwise, are its followers when it has been encoded, decoded and resolved, in their order and without
links.  What is read from any argument is told by its declared bytes: nothing if they are not all there or
not text, and else one address for each token that a comma closes, which is the token or what is left of it
without a leading number and colon. -/
theorem followers_survive_wire :
    (∀ (addresses : List String) (hops : Int8) (p : Packet), (∀ a ∈ addresses, IsNameable a) →
      (encode addresses).utf8ByteSize ≤ maxArgumentSize → 0 ≤ hops → p.header.IsCanonical →
      p.header.payloadSize ≤ p.data.size → p.header.payloadSize ≤ maxPayloadSize →
      ∃ frame, (p.withFollowers (Bytes.ofText (encode addresses)) hops).encode = .ok frame ∧
        ∀ (pool : BufferPool) (s : Source) (t : ByteArray), s.bytes = frame ++ t →
          ∃ q pool' rest, Packet.decode pool s = (.ok q, pool', rest) ∧ rest.bytes = t ∧
            ∀ x : Handling ω σ, x.request.packet = q →
              x.resolve.1 = none ∧ x.resolve.2.request.followers = addresses ∧
                x.resolve.2.request.slots = List.replicate addresses.length none) ∧
    ∀ (blob : ByteArray) (declared : Nat),
      ((∃ fault, parse blob declared = .error fault) ↔
        blob.size < declared ∨ ¬ (Bytes.take declared blob).IsValidUTF8) ∧
      (∀ blob', declared ≤ blob.size → declared ≤ blob'.size →
        Bytes.take declared blob = Bytes.take declared blob' →
        parse blob declared = parse blob' declared) ∧
      ∀ addresses, parse blob declared = .ok addresses →
        ∃ text tokens rest, Bytes.take declared blob = Bytes.ofText text ∧
          text.toList = closed tokens ++ rest ∧ (∀ t ∈ rest :: tokens, ',' ∉ t) ∧
          List.Forall₂ StandsFor tokens (addresses.map String.toList) := by
  constructor
  · intro addresses hops p h hsize hhops hc hd hl
    exact resolve_of_withFollowers h hsize hhops hc hd hl
  · intro blob declared
    exact ⟨parse_eq_error_iff, fun blob' ↦ parse_congr, fun addresses ↦ parse_tokens⟩

/-- A host by its number, one in brackets, and one that looks like a position itself. -/
theorem followers_survive_wire_numbers :
    let addresses := ["10.0.0.1:17310", "[::1]:17310", "80:443"]
    let p := Packet.createExtent 0 1 7 1025
    (∀ a ∈ addresses, IsNameable a) ∧ (encode addresses).utf8ByteSize ≤ maxArgumentSize ∧
      p.header.IsCanonical ∧ p.header.payloadSize ≤ p.data.size ∧
      p.header.payloadSize ≤ maxPayloadSize ∧
      ∃ frame, (p.withFollowers (Bytes.ofText (encode addresses)) 3).encode = .ok frame ∧
        ∃ q pool' rest, Packet.decode .standard (.ofBytes frame) = (.ok q, pool', rest) ∧
          ∀ x : Handling Unit Unit, x.request.packet = q →
            x.resolve.2.request.followers = addresses ∧
              x.resolve.2.request.slots = [none, none, none] := by
  intro addresses p
  have hnameable : ∀ a ∈ addresses, IsNameable a := by decide +kernel
  have hsize : (encode addresses).utf8ByteSize ≤ maxArgumentSize := by decide +kernel
  have hc : p.header.IsCanonical := ⟨rfl, rfl⟩
  have hd : p.header.payloadSize ≤ p.data.size := by decide
  have hl : p.header.payloadSize ≤ maxPayloadSize := by decide
  obtain ⟨frame, hencode, hread⟩ :=
    followers_survive_wire.1 addresses 3 p hnameable hsize (by decide) hc hd hl
  obtain ⟨q, pool', rest, hdecode, -, hresolve⟩ := hread .standard (.ofBytes frame) .empty (by simp)
  refine ⟨hnameable, hsize, hc, hd, hl, frame, hencode, q, pool', rest, hdecode, fun x hx ↦ ?_⟩
  exact (hresolve x hx).2

end Handling

end OnTheWire

end ReplicaChain
