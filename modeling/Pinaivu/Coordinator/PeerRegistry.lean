import Pinaivu.Protocol.Messages

namespace Coordinator

open Protocol

structure PeerEntry where
  capabilities : NodeCapabilities
  multiaddrs : List Multiaddr
  lastSeenMs : UInt64
  deriving DecidableEq

structure PeerRegistry where
  inner : List (PeerId × PeerEntry)
  ttl : UInt64

def pushMissing (addrs more : List Multiaddr) : List Multiaddr :=
  more.foldl (fun known addr => if known.contains addr then known else known ++ [addr]) addrs

namespace PeerRegistry

def new (ttl : UInt64) : PeerRegistry := ⟨[], ttl⟩

def get (registry : PeerRegistry) (peer : PeerId) : Option PeerEntry :=
  (registry.inner.find? (·.1 = peer)).map (·.2)

/-- The map's slots, in the order it happens to iterate. -/
def snapshot (registry : PeerRegistry) : List (PeerId × PeerEntry) := registry.inner

def modify (registry : PeerRegistry) (peer : PeerId) (change : PeerEntry → PeerEntry) : PeerRegistry :=
  { registry with
    inner := registry.inner.map fun slot => if slot.1 = peer then (slot.1, change slot.2) else slot }

def upsert (registry : PeerRegistry) (peer : PeerId) (capabilities : NodeCapabilities)
    (addrs : List Multiaddr) (nowMs : UInt64) : PeerRegistry :=
  match registry.get peer with
  | some _ => registry.modify peer fun entry =>
      { capabilities, multiaddrs := pushMissing entry.multiaddrs addrs, lastSeenMs := nowMs }
  | none =>
    { registry with inner := registry.inner ++ [(peer, ⟨capabilities, addrs, nowMs⟩)] }

def observeAddrs (registry : PeerRegistry) (peer : PeerId) (addrs : List Multiaddr) : PeerRegistry :=
  registry.modify peer fun entry => { entry with multiaddrs := pushMissing entry.multiaddrs addrs }

/-- `now_ms().saturating_sub(ttl)`. -/
def cutoff (registry : PeerRegistry) (nowMs : UInt64) : UInt64 :=
  if registry.ttl ≤ nowMs then nowMs - registry.ttl else 0

def evictStale (registry : PeerRegistry) (nowMs : UInt64) : PeerRegistry :=
  { registry with
    inner := registry.inner.filter fun slot => registry.cutoff nowMs ≤ slot.2.lastSeenMs }

end PeerRegistry

end Coordinator
