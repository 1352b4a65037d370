import QueryLayer.Query.Identity
import QueryLayer.Source.Basic

/-! # Origins and their change feeds

Where the records of a cache come from: a system that takes writes and reports, from a cursor on,
which records were created or modified and which ids were deleted.
-/
namespace QueryLayer

/-- A record as it is after a creation or modification. -/
structure RecordChange where
  collection : String
  record : Record
deriving DecidableEq

structure RecordDeletion where
  collection : String
  id : CompositeId
deriving DecidableEq

/-- What happened since a cursor; `cursor` is where the next set starts. -/
structure ChangeSet where
  cursor : String
  changes : List RecordChange
  deletions : List RecordDeletion
deriving DecidableEq

structure Origin (ω : Type) where
  listChanges : Option String → Action ω ChangeSet
  /-- Answers the record as it was stored. -/
  create : String → Record → Action ω Record
  update : String → CompositeId → Record → Action ω Unit
  delete : String → CompositeId → Action ω Unit

end QueryLayer
