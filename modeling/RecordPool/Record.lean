import RecordPool.Edit

/-!
# Records under view

A `Record` is what is shown of a stored record: its id and its contents at one
moment.
-/

namespace RecordPool

/-- The id and the contents of a record at one moment. -/
structure Record where
  id : Nat
  contents : Buffer
  deriving DecidableEq

namespace Record

/-- The value of a kind at a byte offset. -/
def get (record : Record) (kind : Kind) (offset : Nat) : Except Fault kind.Carrier := do
  let image ← record.contents.window offset kind.size
  kind.decode image

end Record

end RecordPool
