/-!
# Shutdown

Shutting down takes two things.  A signal makes the accept loop stop; a listener that falls behind
sees only the newest signal and learns how many it missed.  And the packets in flight are given time
to be answered: a drain ends when none is left, or fails at its deadline.
-/

namespace ReplicaChain

/-- What the accept loop finds when it looks for a signal. -/
inductive Signal where
  | none
  | requested
  /-- Earlier signals were overwritten before they were seen. -/
  | missed (count : Nat)
  deriving DecidableEq, Repr

/-- The packets in flight and the signals not yet seen. -/
structure Shutdown where
  /-- Counted modulo `2 ^ 64`. -/
  inFlight : UInt64
  unseen : Nat
  deriving DecidableEq, Repr

namespace Shutdown

def idle : Shutdown :=
  ⟨0, 0⟩

def begin (s : Shutdown) : Shutdown :=
  { s with inFlight := s.inFlight + 1 }

def finish (s : Shutdown) : Shutdown :=
  { s with inFlight := s.inFlight - 1 }

def finishMany : Nat → Shutdown → Shutdown
  | 0, s => s
  | n + 1, s => finishMany n s.finish

/-- Whether a drain that looks now finds nothing in flight. -/
def isDrained (s : Shutdown) : Bool :=
  s.inFlight = 0

def request (s : Shutdown) : Shutdown :=
  { s with unseen := s.unseen + 1 }

/-- Looks for a signal.  The queue holds one, so a look after several first reports the lost
ones and leaves the newest to be seen. -/
def poll (s : Shutdown) : Signal × Shutdown :=
  match s.unseen with
  | 0 => (.none, s)
  | 1 => (.requested, { s with unseen := 0 })
  | n + 2 => (.missed (n + 1), { s with unseen := 1 })

/-- Waits for a termination signal.  If none can be received the wait never ends; otherwise it
ends by asking the accept loop to stop. -/
def stopOn (received : Bool) (s : Shutdown) : Bool × Shutdown :=
  if received then (true, s.request) else (false, s)

end Shutdown

end ReplicaChain
