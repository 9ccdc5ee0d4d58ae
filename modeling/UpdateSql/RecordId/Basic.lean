/-
**Record ids.**

A stored record is located by the number of its cluster and its position in that cluster.

Main definitions:

* `RecordId` — the two numbers;
* `RecordId.text` — the written form `#cluster:position`;
* `RecordId.sort` — ascending order, by cluster first and then by position.
-/

import UpdateSql.Error

set_option relaxedAutoImplicit false
set_option autoImplicit false

namespace UpdateSql

/-- The locator of one stored record. -/
structure RecordId where
  cluster : UInt32
  position : UInt64
deriving DecidableEq, Repr

namespace RecordId

/-- The characters of the written form `#cluster:position`. -/
def chars (r : RecordId) : List Char :=
  '#' :: (Nat.toDigits 10 r.cluster.toNat ++ ':' :: Nat.toDigits 10 r.position.toNat)

/-- The written form `#cluster:position`. -/
def text (r : RecordId) : String := String.ofList r.chars

/-- Record ids are ordered by cluster, and within a cluster by position. -/
instance : Ord RecordId where
  compare r s := (compare r.cluster s.cluster).then (compare r.position s.position)

/-- The given ids in ascending order, repeated ones kept. -/
def sort (ids : List RecordId) : List RecordId :=
  ids.mergeSort fun r s => (compare r s).isLE

end RecordId

end UpdateSql
