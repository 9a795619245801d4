import Mathlib.Data.List.MinMax
import Hy2Link.Client.PathBackoff

/-! # The quality table

What the client remembers of its peers from one session to the next: whether a
direct path was good or poor, or whether the peer could not be reached at all.
A record is kept for a time that depends on its conclusion.  A session that
comes to the same conclusion leaves that time as it is; one that comes to another
conclusion starts a new record.

A peer that could not be reached is not tried again while its record lasts,
except once: `tryConsumeForcedRetry` hands out that chance.

Every method is one section of the table's mutex.  Expired records are removed
lazily, every 64 accesses, and a full table makes room by dropping the record
that was not touched for the longest time.
-/

namespace Hy2Link.Client.Quality

open Interleaving

inductive PeerResultKind
  | good | poor | unpunchable
deriving DecidableEq

def peerTTLGood : Time := 45 * minute

def peerTTLPoor : Time := 45 * minute

def peerTTLUnpunchableSticky : Time := 30 * minute

def peerTTLUnpunchableTransient : Time := 10 * minute

def peerTableMaxEntries : Nat := 1024

def peerTablePruneEvery : Nat := 64

structure PeerQuality where
  kind : PeerResultKind
  reasonCode : String
  rttMs : Int
  lossPct : Int
  «at» : Time
  expire : Time
  forcedRetryUsed : Bool
  natType : String
  addr : String
  lastTouch : Time
deriving DecidableEq

structure PeerOutcome where
  kind : PeerResultKind
  reason : String
  rttMs : Int
  lossPct : Int
  natType : String
  addr : String
deriving DecidableEq

def peerTTLFor (kind : PeerResultKind) (reason : String) : Time :=
  match kind with
  | .good => peerTTLGood
  | .poor => peerTTLPoor
  | .unpunchable =>
    if reason = Punch.Reason.natSymmetric.code then peerTTLUnpunchableSticky
    else peerTTLUnpunchableTransient

namespace PeerQuality

def fresh (now : Time) (q : PeerQuality) : Bool := now < q.expire

def create (now : Time) (o : PeerOutcome) : PeerQuality where
  kind := o.kind
  reasonCode := o.reason
  rttMs := o.rttMs
  lossPct := o.lossPct
  «at» := now
  expire := now + peerTTLFor o.kind o.reason
  forcedRetryUsed := false
  natType := o.natType
  addr := o.addr
  lastTouch := now

/-- The same conclusion once more: the measurements alone are taken over. -/
def update (now : Time) (o : PeerOutcome) (old : PeerQuality) : PeerQuality :=
  { old with
    reasonCode := o.reason
    rttMs := o.rttMs
    lossPct := o.lossPct
    natType := o.natType
    addr := o.addr
    lastTouch := now }

/-- The outcome repeats the conclusion of a record that has not expired. -/
def repeats (now : Time) (o : PeerOutcome) (old : PeerQuality) : Bool :=
  old.kind = o.kind && old.fresh now

end PeerQuality

abbrev Records := Table IPv4 PeerQuality

/-- The order in which a loop visits the entries of the map, which is not
determined. -/
structure Iteration where
  keys : Records → List IPv4
  complete : ∀ m vip, vip ∈ keys m ↔ vip ∈ m

structure PeerTable where
  m : Records
  sincePrune : Nat

def newPeerTable : PeerTable := ⟨∅, 0⟩

namespace PeerTable

def pruneLocked (t : PeerTable) (now : Time) : PeerTable :=
  ⟨t.m.filter fun _ q => q.fresh now, 0⟩

/-- The count at the head of `record` and of `lookup`. -/
def access (t : PeerTable) (now : Time) : PeerTable :=
  let t := { t with sincePrune := t.sincePrune + 1 }
  if peerTablePruneEvery ≤ t.sincePrune then t.pruneLocked now else t

def lastTouch (t : PeerTable) (vip : IPv4) : Time := ((t.m.lookup vip).map (·.lastTouch)).getD 0

/-- The entry that makes room for `incoming`: the first one visited of those
with the smallest `lastTouch`. -/
def victim (t : PeerTable) (order : Iteration) (incoming : IPv4) : Option IPv4 :=
  if t.m.keys.card < peerTableMaxEntries then none
  else if (t.m.lookup incoming).isSome then none
  else (order.keys t.m).argmin t.lastTouch

def evictIfFullLocked (t : PeerTable) (order : Iteration) (incoming : IPv4) : PeerTable :=
  match t.victim order incoming with
  | none => t
  | some vip => { t with m := t.m.erase vip }

def record (t : PeerTable) (now : Time) (order : Iteration) (vip : IPv4) (o : PeerOutcome) :
    PeerTable :=
  let t := t.access now
  match (t.m.lookup vip).filter (·.repeats now o) with
  | some old => { t with m := t.m.insert vip (old.update now o) }
  | none =>
    let t := t.evictIfFullLocked order vip
    { t with m := t.m.insert vip (.create now o) }

def tryConsumeForcedRetry (t : PeerTable) (now : Time) (vip : IPv4) : PeerTable × Bool :=
  match (t.m.lookup vip).filter fun q => q.kind = .unpunchable && q.fresh now with
  | none => (t, true)
  | some q =>
    if q.forcedRetryUsed then (t, false)
    else
      ({ t with m := t.m.insert vip { q with forcedRetryUsed := true, lastTouch := now } }, true)

def lookup (t : PeerTable) (now : Time) (vip : IPv4) : PeerTable × Option PeerQuality :=
  let t := t.access now
  match (t.m.lookup vip).filter (·.fresh now) with
  | none => (t, none)
  | some q =>
    let q := { q with lastTouch := now }
    ({ t with m := t.m.insert vip q }, some q)

def peek (t : PeerTable) (now : Time) (vip : IPv4) : Option PeerQuality :=
  (t.m.lookup vip).filter (·.fresh now)

def unpunchable (t : PeerTable) (now : Time) (vip : IPv4) : PeerTable × Option PeerQuality :=
  let (t, q) := t.lookup now vip
  (t, q.filter fun q => q.kind = .unpunchable)

end PeerTable

/-! ## Sequences of calls -/

inductive Call
  | record (order : Iteration) (vip : IPv4) (o : PeerOutcome)
  | lookup (vip : IPv4)
  | peek (vip : IPv4)
  | unpunchable (vip : IPv4)
  | tryConsumeForcedRetry (vip : IPv4)

namespace PeerTable

def call (t : PeerTable) (now : Time) : Call → PeerTable
  | .record order vip o => t.record now order vip o
  | .lookup vip => (t.lookup now vip).1
  | .peek _ => t
  | .unpunchable vip => (t.unpunchable now vip).1
  | .tryConsumeForcedRetry vip => (t.tryConsumeForcedRetry now vip).1

/-- The entry that the call drops to make room. -/
def evicted (t : PeerTable) (now : Time) : Call → Option IPv4
  | .record order vip o =>
    let t := t.access now
    if ((t.m.lookup vip).filter (·.repeats now o)).isSome then none else t.victim order vip
  | _ => none

def step (t : PeerTable) (call : Time × Call) : Option PeerTable := some (t.call call.1 call.2)

end PeerTable

end Hy2Link.Client.Quality
