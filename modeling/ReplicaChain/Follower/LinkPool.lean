import ReplicaChain.Fault

/-!
# The pool of follower links

A link is an open connection to a follower.  It is idle in the pool, under the address of its
follower, or on loan to exactly one request.  A borrower hands a healthy link back for reuse and
destroys one that may carry unread or half-written bytes.

The pool counts live links against a limit.  The count goes up before a link is dialed and down
again when dialing fails, so borrowers that dial at the same time cannot overshoot the limit.  Each
operation is made of small steps on the pool, in the order in which it takes them; only a dial lies
between steps of one operation.
-/

namespace ReplicaChain.Follower

/-- An open connection to a follower, told apart from all others of its pool by its number. -/
structure Link where
  number : Nat
  address : String
  deriving DecidableEq, Repr

structure LinkLimits where
  idlePerAddress : Nat
  maxLinks : Nat
  connectTimeoutMs : Nat
  deriving DecidableEq, Repr

structure LinkTally where
  /-- Links that are open: dialed and not yet forgotten. -/
  active : Int
  evicted : Nat
  reused : Nat
  exhausted : Nat
  deriving DecidableEq, Repr

structure LinkPool where
  limits : LinkLimits
  /-- Idle links under the address they were handed back for, the newest first. -/
  idle : List (String × Link)
  /-- Live links, together with those being dialed. -/
  total : Nat
  draining : Bool
  /-- The number of the next link. -/
  nextNumber : Nat
  tally : LinkTally
  deriving DecidableEq, Repr

/-- The answer to a request for a link. -/
inductive Grant where
  /-- An idle link. -/
  | idle (link : Link)
  /-- A place for a link that is still to be dialed. -/
  | toDial (link : Link)
  | refused (fault : Fault)
  deriving DecidableEq, Repr

namespace LinkPool

def empty (limits : LinkLimits) : LinkPool :=
  ⟨limits, [], 0, false, 0, ⟨0, 0, 0, 0⟩⟩

def idleCount (address : String) (p : LinkPool) : Nat :=
  p.idle.countP (·.1 = address)

/-! ## Steps -/

/-- Takes the newest idle link of an address. -/
def takeIdle (address : String) (p : LinkPool) : Option (Link × LinkPool) :=
  match p.idle.find? (·.1 = address) with
  | none => none
  | some (_, link) =>
    some (link, {
      p with
      idle := p.idle.eraseP (·.1 = address)
      tally := { p.tally with reused := p.tally.reused + 1 } })

/-- Raises the count of live links and tells what it was. -/
def countUp (p : LinkPool) : Nat × LinkPool :=
  (p.total, { p with total := p.total + 1 })

def countDown (p : LinkPool) : LinkPool :=
  { p with total := p.total - 1 }

/-- Gives up a place in the count that was found to be beyond the limit. -/
def overLimit (p : LinkPool) : LinkPool :=
  { p.countDown with tally := { p.tally with exhausted := p.tally.exhausted + 1 } }

def number (address : String) (p : LinkPool) : Link × LinkPool :=
  (⟨p.nextNumber, address⟩, { p with nextNumber := p.nextNumber + 1 })

def opened (p : LinkPool) : LinkPool :=
  { p with tally := { p.tally with active := p.tally.active + 1 } }

/-- A dial failed, so its place in the count is free again. -/
def notOpened (p : LinkPool) : LinkPool :=
  p.countDown

def forget (p : LinkPool) : LinkPool :=
  { p.countDown with tally := { p.tally with active := p.tally.active - 1 } }

/-- Puts a link among the idle ones of an address if there is room for it. -/
def park (address : String) (link : Link) (p : LinkPool) : Option LinkPool :=
  if p.idleCount address < p.limits.idlePerAddress then
    some { p with idle := (address, link) :: p.idle }
  else none

/-! ## Operations -/

/-- Asks for a link: an idle one, or else a place to dial one. -/
def request (address : String) (p : LinkPool) : Grant × LinkPool :=
  if p.draining then (.refused .linksDraining, p)
  else
    match p.takeIdle address with
    | some (link, p) => (.idle link, p)
    | none =>
      let counted := p.countUp
      if p.limits.maxLinks ≤ counted.1 then (.refused .linksExhausted, counted.2.overLimit)
      else
        let numbered := counted.2.number address
        (.toDial numbered.1, numbered.2)

/-- Hands a link back.  It is kept if the borrower allows it, the pool is not draining and there is
room; the flag tells whether it was. -/
def release (address : String) (link : Link) (keep : Bool) (p : LinkPool) : Bool × LinkPool :=
  if keep && !p.draining then
    match p.park address link with
    | some p => (true, p)
    | none => (false, p.forget)
  else (false, p.forget)

def destroy (p : LinkPool) : LinkPool :=
  { p with tally := { p.tally with evicted := p.tally.evicted + 1 } }.forget

def forgetMany : Nat → LinkPool → LinkPool
  | 0, p => p
  | n + 1, p => forgetMany n p.forget

/-- Closes all idle links and refuses every further request; gives the links closed. -/
def drain (p : LinkPool) : List Link × LinkPool :=
  (p.idle.map (·.2), forgetMany p.idle.length { p with draining := true, idle := [] })

end LinkPool

end ReplicaChain.Follower
