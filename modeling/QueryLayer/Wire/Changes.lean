import QueryLayer.Cache.Sync
import QueryLayer.Wire.Query

/-! # Wire forms of changes and cache options -/
namespace QueryLayer

open Wire

def RecordChange.decode : Decoder RecordChange := Wire.fields do
  let collection ← required "collection" text
  let record ← required "record" Wire.record
  pure ⟨collection, record⟩

def RecordDeletion.decode : Decoder RecordDeletion := Wire.fields do
  let collection ← required "collection" text
  let id ← required "id" (list raw)
  pure ⟨collection, id⟩

def CacheOptions.encode (o : CacheOptions) : Value :=
  .object [("sync_interval_secs", (o.syncInterval.map Value.nat).getD .null),
    ("sync_on_read", .bool o.syncOnRead)]

def CacheOptions.decode : Decoder CacheOptions := Wire.fields do
  let syncOnRead ← optional "sync_on_read" flag true
  let syncInterval ← maybe "sync_interval_secs" size
  pure ⟨syncOnRead, syncInterval⟩

end QueryLayer
