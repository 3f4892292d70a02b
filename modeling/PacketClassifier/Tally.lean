import PacketClassifier.Text.Numeral

/-!
# Traffic counters

A tally counts the packets and bytes that hit an entry.  It is split in shards,
one per thread that processes packets, so that a hit touches the shard of its
thread only; counters taken over from elsewhere go to a base.  The counters of
a tally are the sum over base and shards.  All counters are words of 64 bits
and wrap around.
-/

namespace PacketClassifier

/-- A number of packets and a number of bytes. -/
structure Counters where
  packets : UInt64 := 0
  bytes : UInt64 := 0
deriving DecidableEq, Inhabited

namespace Counters

/-- The sum of two pairs of counters. -/
def add (left right : Counters) : Counters where
  packets := left.packets + right.packets
  bytes := left.bytes + right.bytes

instance : Add Counters := ⟨add⟩

/-- The sum of two pairs of counters, unless a part of it is too large for a word. -/
def add? (left right : Counters) : Option Counters :=
  if left.packets.toNat + right.packets.toNat < UInt64.size ∧
      left.bytes.toNat + right.bytes.toNat < UInt64.size then
    some (left + right)
  else
    none

/-- Counters with all their parts. -/
def structuralText (counters : Counters) : String :=
  "FlowCounters \x7b packets: " ++ Text.decimal counters.packets.toNat ++
    ", bytes: " ++ Text.decimal counters.bytes.toNat ++ " \x7d"

end Counters

/-- A thread that processes packets. -/
abbrev ThreadId := Nat

/-- Counters split by thread. -/
structure Tally where
  base : Counters := {}
  shards : List (ThreadId × Counters) := []
deriving DecidableEq, Inhabited

namespace Tally

/-- Add to the shard of a thread, which comes to be with its first packet. -/
def addToShard (thread : ThreadId) (counters : Counters) :
    List (ThreadId × Counters) → List (ThreadId × Counters)
  | [] => [(thread, counters)]
  | (owner, shard) :: rest =>
      if owner = thread then
        (owner, shard + counters) :: rest
      else
        (owner, shard) :: addToShard thread counters rest

/-- Count one packet of `bytes` bytes on a thread. -/
def hit (tally : Tally) (thread : ThreadId) (bytes : UInt64) : Tally :=
  { tally with shards := addToShard thread ⟨1, bytes⟩ tally.shards }

/-- Take over counters from elsewhere. -/
def fold (tally : Tally) (counters : Counters) : Tally :=
  { tally with base := tally.base + counters }

/-- Set the base and every shard back to zero. -/
def reset (tally : Tally) : Tally where
  base := {}
  shards := tally.shards.map (fun (owner, _) => (owner, {}))

/-- What has been counted: the sum over the base and the shards. -/
def counters (tally : Tally) : Counters :=
  (tally.shards.map Prod.snd).foldl (· + ·) tally.base

/-- What has been counted, unless a sum on the way is too large for a word. -/
def counters? (tally : Tally) : Option Counters :=
  (tally.shards.map Prod.snd).foldlM Counters.add? tally.base

end Tally

end PacketClassifier
