import QueryLayer.Cache.Sync

/-! # Cached sources

Reads are answered by the replica, after a sync or, where reads do not sync, once one has succeeded.
Writes go to the origin and come back through its feed.
-/
namespace QueryLayer.Cache

variable {ω : Type}

/-- Makes sure that the replica of a collection may be read. -/
def ensureSynced (c : Cache ω) (collection : String) : Action (CacheState ω) Unit :=
  if c.options.syncOnRead then c.sync
  else .reading fun s => if s.synced then .ok () else .error (.notSynced collection)

/-- The ids of the replicated records that a filter selects. -/
def targetIds (replica : Collection (CacheState ω)) (caller : Caller) (filter : Filter) :
    Action (CacheState ω) (List CompositeId) := do
  let rows ← replica.list caller (.ofFilter filter) (Projection.primaryKeysOf replica.schema)
  rows.mapM (m := Except Error) fun r => r.id replica.schema

/-- Hands a record to the origin, which answers it as stored. -/
def send (c : Cache ω) (replica : Collection (CacheState ω)) (record : Record) :
    Action (CacheState ω) Record :=
  (c.origin.create replica.name record).zoom originLens

/-- The replicated records with the ids of these. -/
def readBack (replica : Collection (CacheState ω)) (caller : Caller) (stored : List Record) :
    Action (CacheState ω) (List Record) := do
  let condition ← Condition.matchRecords replica.schema stored
  replica.list caller (.ofCondition condition) (Projection.columnsOf replica.schema)

/-- A member of the replica as the cache shows it. -/
def collection (c : Cache ω) (replica : Collection (CacheState ω)) : Collection (CacheState ω) where
  toScope := replica.toScope
  list caller filter projection := do
    c.ensureSynced replica.name
    replica.list caller filter projection
  create caller records := do
    c.ensureSynced replica.name
    let stored ← records.mapM (c.send replica)
    c.sync
    readBack replica caller stored
  update caller filter patch := do
    c.ensureSynced replica.name
    let ids ← targetIds replica caller filter
    ids.forM fun id => (c.origin.update replica.name id patch).zoom originLens
  delete caller filter := do
    c.ensureSynced replica.name
    let ids ← targetIds replica caller filter
    ids.forM fun id => (c.origin.delete replica.name id).zoom originLens
  aggregate caller filter aggregation limit := do
    c.ensureSynced replica.name
    replica.aggregate caller filter aggregation limit
  execute := replica.execute
  getForm := replica.getForm

/-- The replica as a source. -/
def replica (c : Cache ω) : Source (CacheState ω) := (Memory.source c.database).zoom replicaLens

def source (c : Cache ω) : Source (CacheState ω) where
  collections := c.replica.collections.map c.collection
  charts := c.replica.charts
  renderChart := c.replica.renderChart

/-- A cache that was never synced, over a replica and an origin. -/
def start (replica : Store) (origin : ω) : CacheState ω :=
  ⟨replica, none, 0, false, origin, []⟩

/-- The first sync in the background, where there is an interval. It fails in silence. -/
def firstTurn (c : Cache ω) (s : CacheState ω) : CacheState ω :=
  match c.options.syncInterval with
  | some (_ + 1) => (c.sync.runOn s).2
  | _ => s

end QueryLayer.Cache
