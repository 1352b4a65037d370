import QueryLayer.Proofs.Cache.Batches

/-! # Change sets that come again

A set that comes once more first puts records back that its own deletions have taken out. They are taken out
again, and all other records of the set find themselves in their places: `replica_sync_again`.
-/
namespace QueryLayer

open Memory (KeyedStore rowOf hasId)

namespace ChangeSet

variable {db : Database} {set : ChangeSet} {name : String} {schema : CollectionSchema} {store : Store}
  {before once twice : List Record}

/-- Rows that a set leaves are not deleted by it and have their last record in it. -/
theorem Settles.stays (h : set.Settles schema name before once) {r : Record} (hr : r ∈ once) :
    hasId (set.deletedIds name) (r.key schema) = false ∧ (set.latest? schema name (r.key schema)).getD r = r := by
  have hrow := h.keyed.mem_iff.1 hr
  rw [h.lookup] at hrow
  split at hrow
  · cases hrow
  · next hdeleted =>
    refine ⟨Bool.eq_false_iff.2 hdeleted, ?_⟩
    cases hlatest : set.latest? schema name (r.key schema) with
    | none => rfl
    | some last =>
      rw [hlatest, Option.some_or] at hrow
      exact Option.some.inj hrow

/-- What a set leaves of rows it leaves as it is. -/
theorem Settles.eq_of_again (h : set.Settles schema name before once)
    (hagain : set.Settles schema name once twice) : twice = once := by
  obtain ⟨added, heq, hadded⟩ := hagain.order
  have hnone : added = [] := by
    refine List.eq_nil_iff_forall_not_mem.2 fun a ha => ?_
    have hrow := hagain.keyed.mem_iff.1 (heq ▸ List.mem_append_right _ ha)
    have hmissing := hadded a ha
    -- an id of the set that is not deleted is there after the first time
    rw [hagain.lookup, hmissing, Option.or_none] at hrow
    rw [h.lookup] at hmissing
    split at hrow
    · cases hrow
    · next hdeleted =>
      rw [if_neg hdeleted, hrow, Option.some_or] at hmissing
      cases hmissing
  have hfilter : (once.filter fun r => !hasId (set.deletedIds name) (r.key schema)) = once :=
    List.filter_eq_self.2 fun r hr => by rw [(h.stays hr).1]; rfl
  rw [heq, hnone, List.append_nil, hfilter]
  exact (List.map_congr_left fun r hr => (h.stays hr).2).trans (List.map_id _)

theorem keyedStore_applyTo (h : ∀ write ∈ set.writes, write.Acceptable db) (hstore : KeyedStore db store) :
    KeyedStore db (set.applyTo db store) :=
  fun name schema hs => (settles_applyTo h hs (hstore name schema hs)).keyed

/-- A set has an entry in the store for each collection that it writes to, and leaves the others. -/
theorem get?_applyTo (hs : db.schemas.get? name = some schema) (set : ChangeSet) (store : Store) :
    (set.applyTo db store).get? name =
      if (set.writes.filter fun write => write.collection = name) = [] then store.get? name
      else some ((set.applyTo db store).rows name) := by
  rw [← foldl_carry_writes]
  refine (Database.get?_foldl_alter ReplicaWrite.collection ReplicaWrite.effect hs set.writes store).trans ?_
  refine if_congr Iff.rfl rfl (congrArg some ?_)
  exact (Database.rows_foldl_alter ReplicaWrite.collection ReplicaWrite.effect hs set.writes store).symm

/-- Applying an acceptable set twice comes to the same as applying it once. -/
theorem applyTo_applyTo (h : ∀ write ∈ set.writes, write.Acceptable db) (hstore : KeyedStore db store) :
    set.applyTo db (set.applyTo db store) = set.applyTo db store := by
  refine Dict.ext fun name => ?_
  cases hs : db.schemas.get? name with
  | none =>
    rw [← foldl_carry_writes]
    exact Database.get?_foldl_alter_of_none ReplicaWrite.collection ReplicaWrite.effect hs set.writes _
  | some schema =>
    have honce := settles_applyTo h hs (hstore name schema hs)
    have htwice := settles_applyTo h hs (keyedStore_applyTo h hstore name schema hs)
    rw [get?_applyTo hs set (set.applyTo db store), honce.eq_of_again htwice]
    split
    · rfl
    · next hwritten => rw [get?_applyTo hs set store, if_neg hwritten]

end ChangeSet

namespace Cache

variable {ω : Type} {c : Cache ω} {s t again : CacheState ω}

/-- A sync that is answered with a set that the replica has taken succeeds and changes no collection. -/
theorem replica_sync_again {set : ChangeSet} {o o' : ω} (hplain : c.database.PlainKeys)
    (hs : KeyedStore c.database s.replica)
    (hset : (c.origin.listChanges s.cursor).runOn s.origin = (.ok set, o))
    (h : c.sync.runOn s = (.ok (), t)) (hreplica : again.replica = t.replica)
    (hagain : (c.origin.listChanges again.cursor).runOn again.origin = (.ok set, o')) :
    ∃ u, c.sync.runOn again = (.ok (), u) ∧ u.replica = t.replica := by
  obtain ⟨given, o'', queue, hgiven, hwrites, rfl⟩ := runOn_sync_eq_ok hplain hs h
  rw [hset] at hgiven
  cases hgiven
  have hkeyed : KeyedStore c.database again.replica := by
    rw [hreplica]
    exact ChangeSet.keyedStore_applyTo hwrites hs
  obtain ⟨queue', hsync⟩ := exists_runOn_sync c again
  rw [runFetch, hagain] at hsync
  dsimp only at hsync
  rw [runWrites_of_acceptable hplain set.cursor hwrites (s := { again with origin := o' }) hkeyed,
    ChangeSet.foldl_carry_writes] at hsync
  refine ⟨_, hsync, ?_⟩
  dsimp only
  rw [hreplica]
  exact ChangeSet.applyTo_applyTo hwrites hs

/-! ## A visit -/

/-- One person comes and goes, one is renamed twice, one is deleted, and one is new. -/
def visit : ChangeSet where
  cursor := "c1"
  changes := [⟨"people", People.person 5 "Ed"⟩, ⟨"people", People.person 2 "Bob"⟩,
    ⟨"people", [("id", .int 4)]⟩, ⟨"people", People.person 2 "Bert"⟩]
  deletions := [⟨"people", [.int 1]⟩, ⟨"people", [.int 5]⟩]

/-- The visit is told, for the first time or once more. -/
def told (s : CacheState Feed) : CacheState Feed :=
  { s with origin := s.origin.push visit.changes visit.deletions (some visit.cursor) }

theorem replica_told (s : CacheState Feed) : (told s).replica = s.replica := rfl

/-- The replica holds three people, and the visit is to come. -/
def beforeVisit : CacheState Feed := told (start (Memory.run People.database People.three) (.start 9 false))

def afterVisit : CacheState Feed := (People.cache.sync.runOn beforeVisit).2

theorem replica_sync_again_people : ∃ u, People.cache.sync.runOn (told afterVisit) = (.ok (), u) ∧
    u.replica = afterVisit.replica ∧
    u.replica.rows "people" = [People.person 2 "Bert", People.person 3 "Cy", People.person 4 "nobody"] := by
  have hthree : beforeVisit.replica = Memory.run People.database People.three := by
    rw [beforeVisit, replica_told, start]
  have hkeyed : KeyedStore People.cache.database beforeVisit.replica := by
    rw [hthree]
    exact People.keyedStore_three
  have hset : ((People.cache.origin.listChanges beforeVisit.cursor).runOn beforeVisit.origin).1 = .ok visit :=
    Outcome.eq_ok_of_toOption (by decide +kernel)
  have hok : (People.cache.sync.runOn beforeVisit).1 = .ok () := Outcome.eq_ok_of_toOption (by decide +kernel)
  have hagain : ((People.cache.origin.listChanges (told afterVisit).cursor).runOn (told afterVisit).origin).1 =
      .ok visit := Outcome.eq_ok_of_toOption (by decide +kernel)
  have hsync : People.cache.sync.runOn beforeVisit = (.ok (), afterVisit) := Prod.ext hok rfl
  obtain ⟨u, hu, hreplica⟩ := replica_sync_again People.plainKeys hkeyed (Prod.ext hset rfl) hsync
    (replica_told afterVisit) (Prod.ext hagain rfl)
  exact ⟨u, hu, hreplica, by rw [hreplica]; decide +kernel⟩

end Cache

end QueryLayer
