import RecordPool.Layout.Draft
import RecordPool.Pool.Lifecycle
import RecordPool.Pool.Motion
import RecordPool.Pool.Recycling

/-!
# A pool of particles

A pool filled with particles that stand along the first axis, each of unit mass.
-/

namespace RecordPool.Workload

/-- Where the fields of a particle lie. -/
structure ParticleFields where
  position : Point
  mass : Cell .f32

/-- The layout of a particle, a position of three coordinates and a mass, with the
locations of its fields. -/
def declareParticle : Except Layout.Error (Layout × ParticleFields) := do
  let (coordinates, draft) := Layout.Draft.row {} "pos" .f64 3
  let (mass, draft) := draft.cell "mass" .f32
  let layout ← draft.build
  return (layout, ⟨⟨coordinates⟩, mass⟩)

/-- Creates the particle of a number and points the proxy at it. -/
def addParticle (fields : ParticleFields) (proxy : Proxy) (number : Nat) :
    EStateM (Failure Pool.Error) (Pool Backend) Proxy := do
  let particle ← Pool.create proxy
  EStateM.adaptExcept .fault <|
    fields.position.setPosition .quiet particle [.ofNat number, .zero, .zero]
  EStateM.adaptExcept .fault <| fields.mass.set .quiet particle .one
  return particle

/-- Creates the particles of several numbers through one proxy. -/
def addParticles (fields : ParticleFields) :
    Proxy → List Nat → EStateM (Failure Pool.Error) (Pool Backend) Unit
  | _, [] => pure ()
  | proxy, number :: rest => do
      let particle ← addParticle fields proxy number
      addParticles fields particle rest

/-- A pool of `count` particles on a kind of store, without validation. -/
def particles (id : PoolId) (count : Nat) (storage : BackendKind) (system : System := .usual) :
    Except (Failure Pool.Error) (Pool Backend × ParticleFields) := do
  let (layout, fields) ← declareParticle.mapError fun error => .refused (.layout error)
  let config : Pool.Config :=
    { initialCapacity := max count 1, storage := storage, validation := false }
  let pool ← Pool.ofConfig id layout config system
  let (proxy, pool) := pool.acquire
  match addParticles fields proxy (List.range count) pool with
  | .ok () filled => return (filled, fields)
  | .error failure _ => throw failure

end RecordPool.Workload
