import RecordPool.Pool.Basic

/-!
# Minting and recycling proxies

Released proxies wait in a queue of bounded length.  A reference is served from
its front, and minted when the queue is empty.  A proxy released while the queue
is full is dropped.
-/

namespace RecordPool.Pool

variable {σ : Type}

/-- Mints a proxy that points at no record. -/
def mint (pool : Pool σ) : Proxy × Pool σ :=
  (.unbound pool.id, { pool with proxiesMinted := pool.proxiesMinted + 1 })

/-- Takes the proxy that has waited longest, or mints one. -/
def acquire (pool : Pool σ) : Proxy × Pool σ :=
  match pool.spares with
  | [] => pool.mint
  | proxy :: rest =>
      (proxy, { pool with
        spares := rest
        proxiesRecycled := pool.proxiesRecycled + 1 })

/-- Gives a proxy back for use again.  One minted by another pool is handed back. -/
def release (pool : Pool σ) (proxy : Proxy) : Except RejectedProxy (Pool σ) :=
  match pool.checkOwner proxy with
  | .error error => .error ⟨proxy, error⟩
  | .ok () =>
      if pool.spares.length < pool.spareLimit then
        .ok { pool with spares := pool.spares ++ [proxy.unbind] }
      else
        .ok pool

end RecordPool.Pool
