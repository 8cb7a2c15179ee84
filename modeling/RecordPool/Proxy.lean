/-!
# Proxies

A proxy is a light handle on a record: it names the pool that minted it and the
index of the record it points at.  It is pointed at one record after another
rather than made anew for each.
-/

namespace RecordPool

/-- The identity of a pool. -/
structure PoolId where
  value : Nat
  deriving DecidableEq

/-- The text of a pool's identity. -/
def PoolId.text (id : PoolId) : String :=
  s!"pool#{id.value}"

/-- A handle on a record of a pool. -/
structure Proxy where
  owner : PoolId
  index : Nat
  deriving DecidableEq

namespace Proxy

/-- The index of a proxy that points at no record. -/
def unboundIndex : Nat := UInt64.size - 1

/-- A proxy of a pool that points at no record. -/
def unbound (owner : PoolId) : Proxy :=
  ⟨owner, unboundIndex⟩

/-- Whether the proxy points at a record. -/
def isBound (proxy : Proxy) : Bool :=
  proxy.index != unboundIndex

/-- The proxy pointed at a record. -/
def pointAt (proxy : Proxy) (index : Nat) : Proxy :=
  { proxy with index := index }

/-- The proxy pointed at no record. -/
def unbind (proxy : Proxy) : Proxy :=
  proxy.pointAt unboundIndex

/-- The text of a proxy. -/
def text (proxy : Proxy) : String :=
  if proxy.isBound then
    s!"Proxy({proxy.index}@{proxy.owner.text})"
  else
    s!"Proxy(unbound@{proxy.owner.text})"

end Proxy

end RecordPool
