import QueryLayer.Cache.Creation
import QueryLayer.Cache.Feed
import QueryLayer.Proofs.Cache.Feeding

/-! # What a creation reads back

A creation in a cache whose steps calls of `sync` come between. It reads its records back from the
replica after a sync of its own, which has nothing to do when another one has completed meanwhile. If
that one fetched before the last record was created, rows are missing; otherwise there is one row for
each record.
-/
namespace QueryLayer

variable {ω : Type}

namespace CreationStage

/-- What the origin has stored for a creation that is still under way. -/
def stored : CreationStage → List Record
  | sending _ stored | closing _ stored => stored
  | _ => []

/-- A creation that is under way has this many records, handed to the origin or not. -/
def Counts (n : Nat) : CreationStage → Prop
  | opening _ records => records.length = n
  | sending rest stored => rest.length + stored.length = n
  | closing _ stored => stored.length = n
  | finished _ => True

end CreationStage

/-- Another task begins a sync or goes on with one. -/
inductive SyncTurn where
  | join
  | advance (call : Nat)

def SyncRace.after (c : Cache ω) (r : SyncRace ω) : SyncTurn → SyncRace ω
  | .join => r.join
  | .advance call => r.advance c call

theorem SyncRace.Follows.after {c : Cache ω} {v : FeedView ω} {race : SyncRace ω}
    (hs : c.database.schemas.get? v.name = some v.schema) (hhonest : v.Honest c.origin)
    (h : race.Follows v) (turn : SyncTurn) : (race.after c turn).Follows v := by
  cases turn with
  | join => exact h.join
  | advance call =>
    rcases race.advance_cases c call with ⟨hsame, -⟩ | ⟨stage, _, hplace, hstepped, -⟩
    · rw [SyncRace.after, hsame]
      exact h
    · rw [SyncRace.after, hstepped]
      exact h.stepped hs hhonest hplace

/-- Whatever turns the calls of `sync` take, they follow the feed. -/
theorem SyncRace.Follows.foldl_after {c : Cache ω} {v : FeedView ω} {race : SyncRace ω}
    (hs : c.database.schemas.get? v.name = some v.schema) (hhonest : v.Honest c.origin)
    (h : race.Follows v) (turns : List SyncTurn) :
    (turns.foldl (SyncRace.after c) race).Follows v := by
  induction turns generalizing race with
  | nil => exact h
  | cons turn rest ih => exact ih (h.after hs hhonest turn)

inductive CreationTurn where
  | sync (turn : SyncTurn)
  | resume

/-- A creation and the calls of `sync` around it. -/
structure CreationRun (ω : Type) where
  creation : CreationRace ω
  /-- The calls that were answered since a record was last handed to the origin. -/
  informed : List Nat
  /-- Whether one of them has completed, if there is any record. -/
  caughtUp : Bool

namespace CreationRun

def start (c : Cache ω) (replica : Collection (CacheState ω)) (records : List Record)
    (race : SyncRace ω) : CreationRun ω :=
  ⟨.start c replica records race, [], true⟩

/-- What an event of a race says about the calls that were answered. -/
def tell (r : CreationRun ω) : SyncEvent → CreationRun ω
  | .answered call _ _ => { r with informed := call :: r.informed }
  | .moved call _ => { r with caughtUp := r.caughtUp || r.informed.contains call }
  | _ => r

def next (c : Cache ω) (replica : Collection (CacheState ω)) (caller : Caller) (r : CreationRun ω) :
    CreationTurn → CreationRun ω
  | .sync turn =>
    let event? := match turn with
      | .join => none
      | .advance call => r.creation.race.event? c call
    let told := (event?.map r.tell).getD r
    { told with creation := r.creation.interleave (·.after c turn) }
  | .resume =>
    let creation := r.creation.resume c replica caller
    match r.creation.stage with
    | .sending (_ :: _) _ => ⟨creation, [], false⟩
    | _ => { r with creation }

/-- A creation that begins after some turns of syncs, and then takes turns with them. -/
def run (c : Cache ω) (replica : Collection (CacheState ω)) (caller : Caller) (records : List Record)
    (start : CacheState ω) (before : List SyncTurn) (turns : List CreationTurn) : CreationRun ω :=
  turns.foldl (next c replica caller)
    (CreationRun.start c replica records (before.foldl (SyncRace.after c) ⟨start, []⟩))

/-- The records of a creation are tracked, apart from each other, and in the replica once it has
caught up. -/
structure Fits (v : FeedView ω) (n : Nat) (r : CreationRun ω) : Prop where
  follows : r.creation.race.Follows v
  tracks : ∀ record ∈ r.creation.stage.stored, ∃ place, r.creation.race.Tracks v record place
  apart : r.creation.stage.stored.Pairwise fun a b => sameId (a.key v.schema) (b.key v.schema) = false
  informed : ∀ call ∈ r.informed, ∀ cursor writes, r.creation.race.Applying call cursor writes →
    v.position cursor = (v.feed r.creation.race.state.origin).length
  caughtUp : r.caughtUp = true → ∀ record ∈ r.creation.stage.stored,
    Memory.HasRow v.schema (r.creation.race.state.replica.rows v.name) record
  counts : r.creation.stage.Counts n

section

variable {c : Cache ω} {v : FeedView ω} {n : Nat} {r : CreationRun ω}

@[simp] theorem creation_tell (r : CreationRun ω) (e : SyncEvent) : (r.tell e).creation = r.creation := by
  cases e <;> rfl

/-- Nothing happens, or a call takes a step, and what that says is noted. -/
theorem next_advance_cases (c : Cache ω) (replica : Collection (CacheState ω)) (caller : Caller)
    (r : CreationRun ω) (call : Nat) :
    r.next c replica caller (.sync (.advance call)) = r ∨
      ∃ stage e, r.creation.race.calls[call]? = some stage ∧
        c.stepEvent call stage r.creation.race.state = some e ∧
        r.next c replica caller (.sync (.advance call)) =
          { r.tell e with creation := ⟨r.creation.race.stepped c call stage, r.creation.stage⟩ } := by
  rcases r.creation.race.advance_cases c call with ⟨hsame, hnone⟩ | ⟨stage, e, hplace, hstepped, he, hsome⟩
  · exact Or.inl (by simp [next, CreationRace.interleave, SyncRace.after, hsame, hnone])
  · refine Or.inr ⟨stage, e, hplace, he, ?_⟩
    simp [next, CreationRace.interleave, SyncRace.after, hstepped, hsome]

theorem Fits.join (h : r.Fits v n) {replica : Collection (CacheState ω)} {caller : Caller} :
    (r.next c replica caller (.sync .join)).Fits v n where
  follows := h.follows.join
  tracks record hmem := by
    obtain ⟨place, htracks⟩ := h.tracks record hmem
    exact ⟨place, htracks.join⟩
  apart := h.apart
  informed call hcall cursor writes happlying := h.informed call hcall cursor writes happlying.of_join
  caughtUp := h.caughtUp
  counts := h.counts

variable (hs : c.database.schemas.get? v.name = some v.schema) (hkeys : v.schema.UsableKeys)
  (hhonest : v.Honest c.origin)

/-- What a step of a call is, as far as the calls that were answered are concerned. -/
theorem stepEvent_cases {call : Nat} {stage : SyncStage} {s : CacheState ω} {e : SyncEvent}
    (h : c.stepEvent call stage s = some e) :
    (∃ cursor set, stage = .fetching ∧ e = .answered call cursor set) ∨
      (∃ cursor, stage = .applying cursor [] ∧ e = .moved call cursor) ∨
      ∀ r : CreationRun ω, r.tell e = r := by
  cases stage with
  | queued observed =>
    refine Or.inr (Or.inr fun r => ?_)
    by_cases hobserved : s.generation = observed <;> simp [Cache.stepEvent, hobserved] at h <;>
      (subst h; rfl)
  | fetching =>
    rcases hanswer : ((c.origin.listChanges s.cursor).runOn s.origin).1 with error | set
    · simp only [Cache.stepEvent, hanswer, Option.some.injEq] at h
      subst h
      exact Or.inr (Or.inr fun _ => rfl)
    · simp only [Cache.stepEvent, hanswer, Option.some.injEq] at h
      exact Or.inl ⟨_, _, rfl, h.symm⟩
  | applying cursor writes =>
    cases writes with
    | nil =>
      cases h
      exact Or.inr (Or.inl ⟨cursor, rfl, rfl⟩)
    | cons write rest =>
      refine Or.inr (Or.inr fun r => ?_)
      rcases houtcome : ((write.apply c.database).runOn s.replica).1 with error | _ <;>
        simp only [Cache.stepEvent, houtcome, Option.some.injEq] at h <;> (subst h; rfl)
  | finished outcome => cases h

include hs hkeys hhonest

/-- A step of a call keeps everything but what it says about the calls that were answered. -/
theorem Fits.stepped (h : r.Fits v n) {call : Nat} {stage : SyncStage} {e : SyncEvent}
    (hplace : r.creation.race.calls[call]? = some stage)
    (he : c.stepEvent call stage r.creation.race.state = some e) :
    Fits v n { r.tell e with creation := ⟨r.creation.race.stepped c call stage, r.creation.stage⟩ } := by
  have hfeed := SyncRace.feed_step hhonest stage r.creation.race.state
  have hrow : ∀ record ∈ r.creation.stage.stored,
      Memory.HasRow v.schema (r.creation.race.state.replica.rows v.name) record →
      Memory.HasRow v.schema ((r.creation.race.stepped c call stage).state.replica.rows v.name) record := by
    intro record hmem
    obtain ⟨place, htracks⟩ := h.tracks record hmem
    exact htracks.hasRow_stepped hs hkeys h.follows hplace
  have hinformed : ∀ other ∈ r.informed, ∀ cursor writes,
      (r.creation.race.stepped c call stage).Applying other cursor writes →
      v.position cursor = (v.feed (c.step stage r.creation.race.state).2.origin).length := by
    intro other hother cursor writes happlying
    rw [hfeed]
    rcases happlying.of_set with ⟨rfl, hnext⟩ | ⟨-, hbefore⟩
    · rcases SyncRace.step_eq_applying hnext with ⟨set, rfl, rfl, rfl, hanswer⟩ | ⟨write, rfl, -⟩
      · exact (hhonest.listed _ _ _ _ hanswer).2.1
      · exact h.informed call hother cursor _ hplace
    · exact h.informed other hother cursor writes hbefore
  refine ⟨h.follows.stepped hs hhonest hplace, fun record hmem => ?_, h.apart, ?_, ?_, h.counts⟩
  · obtain ⟨place, htracks⟩ := h.tracks record hmem
    exact ⟨place, htracks.stepped hs hkeys hhonest h.follows hplace⟩
  · rcases stepEvent_cases he with ⟨given, set, rfl, rfl⟩ | ⟨cursor, rfl, rfl⟩ | hquiet
    · intro other hother cursor writes happlying
      rcases List.mem_cons.1 hother with rfl | hother
      · rcases happlying.of_set with ⟨-, hnext⟩ | ⟨hne, -⟩
        · rcases SyncRace.step_eq_applying hnext with ⟨set, -, rfl, -, hanswer⟩ | ⟨_, hstage, -⟩
          · exact (hhonest.listed _ _ _ _ hanswer).2.1.trans (congrArg List.length hfeed.symm)
          · cases hstage
        · exact absurd rfl hne
      · exact hinformed other hother cursor writes happlying
    · exact hinformed
    · rw [hquiet]
      exact hinformed
  · rcases stepEvent_cases he with ⟨given, set, rfl, rfl⟩ | ⟨cursor, rfl, rfl⟩ | hquiet
    · exact fun hcaught record hmem => hrow record hmem (h.caughtUp hcaught record hmem)
    · intro hcaught record hmem
      rcases (Bool.or_eq_true_iff).1 hcaught with hcaught | hcall
      · exact hrow record hmem (h.caughtUp hcaught record hmem)
      · have hposition := h.informed call (List.contains_iff_mem.1 hcall) cursor [] hplace
        obtain ⟨place, htracks⟩ := h.tracks record hmem
        have hlt : place < v.position cursor := by
          rw [hposition]
          exact (List.getElem?_eq_some_iff.1 htracks.entry).1
        rcases htracks.coming call cursor [] hplace hlt with hstored | ⟨_, hput, -⟩
        · exact hrow record hmem hstored
        · cases hput
    · rw [hquiet]
      exact fun hcaught record hmem => hrow record hmem (h.caughtUp hcaught record hmem)

theorem Fits.advance (h : r.Fits v n) {replica : Collection (CacheState ω)} {caller : Caller} (call : Nat) :
    (r.next c replica caller (.sync (.advance call))).Fits v n := by
  rcases r.next_advance_cases c replica caller call with hsame | ⟨stage, e, hplace, he, hstepped⟩
  · rw [hsame]
    exact h
  · rw [hstepped]
    exact h.stepped hs hkeys hhonest hplace he

end

/-! ## Steps of the creation -/

/-- The collection of the replica that a creation is made in. -/
def member (c : Cache ω) (v : FeedView ω) : Collection (CacheState ω) :=
  (Memory.collection c.database v.name v.schema).zoom Cache.replicaLens

section

variable {c : Cache ω} {v : FeedView ω} {n : Nat} {r : CreationRun ω}

theorem runOn_send (record : Record) (s : CacheState ω) :
    (c.send (member c v) record).runOn s =
      (((c.origin.create v.name record).runOn s.origin).1,
        { s with origin := ((c.origin.create v.name record).runOn s.origin).2 }) :=
  Action.runOn_zoom Cache.originLens_lawful _ s

/-- Reading back leaves everything as it is. -/
theorem runOn_readBack (caller : Caller) (stored : List Record) (s : CacheState ω) :
    (Cache.readBack (member c v) caller stored).runOn s =
      (Condition.matchRecords v.schema stored >>= fun t =>
        Memory.list c.database s.replica v.name v.schema (.ofCondition t) (.columnsOf v.schema), s) := by
  rw [Cache.readBack, Action.runOn_bind, Action.liftM_eq_ofExcept, Action.runOn_ofExcept]
  have hschema : (member c v).schema = v.schema := rfl
  rw [hschema]
  cases Condition.matchRecords v.schema stored with
  | error e => rfl
  | ok t => exact Action.runOn_zoom Cache.replicaLens_lawful _ s

variable {caller : Caller}

theorem Fits.of_finished {race : SyncRace ω} {outcome : Except Error (List Record)} {informed : List Nat}
    {caughtUp : Bool} (h : race.Follows v)
    (hinformed : ∀ call ∈ informed, ∀ cursor writes, race.Applying call cursor writes →
      v.position cursor = (v.feed race.state.origin).length) :
    Fits v n ⟨⟨race, .finished outcome⟩, informed, caughtUp⟩ :=
  ⟨h, (fun _ hmem => nomatch hmem), .nil, hinformed, (fun _ _ hmem => nomatch hmem), trivial⟩

/-- What the origin answers to a record is one more record of the creation, and news to every call. -/
theorem Fits.created {race : SyncRace ω} {record answer : Record} {rest stored : List Record}
    {informed : List Nat} {caughtUp : Bool} {o : ω} (hhonest : v.Honest c.origin)
    (h : Fits v n ⟨⟨race, .sending (record :: rest) stored⟩, informed, caughtUp⟩)
    (hcreate : (c.origin.create v.name record).runOn race.state.origin = (.ok answer, o)) :
    Fits v n ⟨⟨race.withOrigin o, .sending rest (stored ++ [answer])⟩, [], false⟩ := by
  obtain ⟨hfeed, hpresent, hfresh⟩ := hhonest.created _ _ _ _ hcreate
  have hfollows : (race.withOrigin o).Follows v := h.follows.withOrigin ⟨_, hfeed.symm⟩
  refine ⟨hfollows, fun record hmem => ?_, ?_, (fun _ hmem => nomatch hmem), Bool.noConfusion, ?_⟩
  · rcases List.mem_append.1 hmem with hmem | hmem
    · obtain ⟨place, htracks⟩ := h.tracks record hmem
      exact ⟨place, htracks.withOrigin hfeed⟩
    · cases List.mem_singleton.1 hmem
      exact ⟨_, SyncRace.tracks_created hfeed h.follows hpresent hfresh⟩
  · refine List.pairwise_append.2 ⟨h.apart, List.pairwise_singleton _ _, fun a ha b hb => ?_⟩
    cases List.mem_singleton.1 hb
    obtain ⟨place, htracks⟩ := h.tracks a ha
    exact hfresh _ (List.mem_of_getElem? htracks.entry) rfl
  · have hcounts : (record :: rest).length + stored.length = n := h.counts
    change rest.length + (stored ++ [answer]).length = n
    rw [List.length_cons] at hcounts
    rw [List.length_append, List.length_singleton]
    omega

theorem Fits.resume (hhonest : v.Honest c.origin) (h : r.Fits v n) :
    (r.next c (member c v) caller .resume).Fits v n := by
  obtain ⟨⟨race, stage⟩, informed, caughtUp⟩ := r
  cases stage with
  | opening call records =>
    rw [next]
    dsimp only [CreationRace.resume]
    rcases race.outcome? call with _ | (error | _)
    · exact h
    · exact .of_finished h.follows h.informed
    · exact ⟨h.follows, (fun _ hmem => nomatch hmem), .nil, h.informed, (fun _ _ hmem => nomatch hmem),
        h.counts⟩
  | sending rest stored =>
    cases rest with
    | nil => exact ⟨h.follows.join, fun record hmem => by
        obtain ⟨place, htracks⟩ := h.tracks record hmem
        exact ⟨place, htracks.join⟩, h.apart,
        fun call hcall cursor writes happlying => h.informed call hcall cursor writes happlying.of_join,
        h.caughtUp, (Nat.zero_add _).symm.trans h.counts⟩
    | cons record rest =>
      rw [next]
      dsimp only [CreationRace.resume]
      rw [runOn_send]
      rcases hcreate : (c.origin.create v.name record).runOn race.state.origin with ⟨error | answer, o⟩
      · exact .of_finished (h.follows.withOrigin (hhonest.rejected _ _ _ _ hcreate)) (fun _ hmem => nomatch hmem)
      · exact h.created hhonest hcreate
  | closing call stored =>
    rw [next]
    dsimp only [CreationRace.resume]
    rcases race.outcome? call with _ | (error | _)
    · exact h
    · exact .of_finished h.follows h.informed
    · dsimp only
      rw [runOn_readBack]
      exact .of_finished h.follows h.informed
  | finished outcome => exact h

theorem fits_start {race : SyncRace ω} (h : race.Follows v) (records : List Record) :
    (start c (member c v) records race).Fits v records.length := by
  rw [start, CreationRace.start]
  split
  · exact ⟨h.join, (fun _ hmem => nomatch hmem), .nil, (fun _ hmem => nomatch hmem),
      (fun _ _ hmem => nomatch hmem), rfl⟩
  · split
    · exact ⟨h, (fun _ hmem => nomatch hmem), .nil, (fun _ hmem => nomatch hmem),
        (fun _ _ hmem => nomatch hmem), rfl⟩
    · exact .of_finished h (fun _ hmem => nomatch hmem)

variable (hs : c.database.schemas.get? v.name = some v.schema) (hkeys : v.schema.UsableKeys)
  (hhonest : v.Honest c.origin)
include hs hkeys hhonest

/-- Every turn keeps the records of a creation tracked, whoever takes it. -/
theorem Fits.turn (h : r.Fits v n) (turn : CreationTurn) : (r.next c (member c v) caller turn).Fits v n := by
  cases turn with
  | sync turn =>
    cases turn with
    | join => exact h.join
    | advance call => exact h.advance hs hkeys hhonest call
  | resume => exact h.resume hhonest

theorem Fits.turns (h : r.Fits v n) (turns : List CreationTurn) :
    (turns.foldl (next c (member c v) caller) r).Fits v n := by
  induction turns generalizing r with
  | nil => exact h
  | cons turn rest ih => exact ih (h.turn hs hkeys hhonest turn)

theorem fits_run {replica : Store} {origin : ω} (hreplica : Memory.Keyed v.schema (replica.rows v.name))
    (records : List Record) (before : List SyncTurn) (turns : List CreationTurn) :
    (run c (member c v) caller records (Cache.start replica origin) before turns).Fits v records.length := by
  have hstart : SyncRace.Follows v ⟨Cache.start replica origin, []⟩ :=
    ⟨hreplica, Nat.zero_le _, (fun _ _ _ hcall => nomatch hcall), fun _ _ _ _ hcall => nomatch hcall⟩
  exact (fits_start (hstart.foldl_after hs hhonest before) records).turns hs hkeys hhonest turns

/-- A creation that answers once the replica has caught up with it answers one row for each record. -/
theorem length_readBack {replica : Store} {origin : ω}
    (hreplica : Memory.Keyed v.schema (replica.rows v.name)) {records stored rows : List Record}
    {before : List SyncTurn} {turns : List CreationTurn} {call : Nat} {r : CreationRun ω}
    (hrun : run c (member c v) caller records (Cache.start replica origin) before turns = r)
    (hstage : r.creation.stage = .closing call stored) (hcaught : r.caughtUp = true)
    (hrows : (r.next c (member c v) caller .resume).creation.stage = .finished (.ok rows)) :
    rows.length = records.length ∧ stored.length = records.length ∧
      ∀ record ∈ stored, Memory.HasRow v.schema rows record := by
  have h : r.Fits v records.length := hrun ▸ fits_run hs hkeys hhonest hreplica records before turns
  obtain ⟨⟨race, stage⟩, informed, caughtUp⟩ := r
  obtain rfl : stage = .closing call stored := hstage
  rw [next] at hrows
  dsimp only [CreationRace.resume] at hrows
  rcases hclosed : race.outcome? call with _ | (error | _)
  · simp only [hclosed] at hrows
    cases hrows
  · simp only [hclosed] at hrows
    cases hrows
  · simp only [hclosed, runOn_readBack] at hrows
    obtain ⟨t, ht, hlist⟩ := Outcome.bind_eq_ok_iff.1 (CreationStage.finished.inj hrows)
    obtain ⟨hlength, hall⟩ := Memory.length_list_of_matchRecords hkeys h.follows.keyed h.apart
      (h.caughtUp hcaught) ht hlist
    exact ⟨hlength.trans h.counts, h.counts, hall⟩

end

end CreationRun

namespace CreationRun

/-! ## When the replica has caught up -/

/-- The second sync of a creation, where every call that has something to apply was answered since the
last record was handed to the origin. -/
structure Settling (r : CreationRun ω) (call : Nat) : Prop where
  began : call < r.creation.race.calls.length
  informed : ∀ other cursor writes, r.creation.race.Applying other cursor writes → other ∈ r.informed
  queued : ∀ observed, r.creation.race.calls[call]? = some (.queued observed) →
    r.creation.race.state.generation = observed ∨ r.caughtUp = true
  finished : r.creation.race.calls[call]? = some (.finished (.ok ())) → r.caughtUp = true

variable {c : Cache ω} {r : CreationRun ω} {call : Nat}

theorem Settling.join (h : r.Settling call) {replica : Collection (CacheState ω)} {caller : Caller} :
    (r.next c replica caller (.sync .join)).Settling call := by
  have hplace : r.creation.race.join.calls[call]? = r.creation.race.calls[call]? :=
    List.getElem?_append_left h.began
  refine ⟨?_, fun other cursor writes happlying => h.informed other cursor writes happlying.of_join,
    fun observed hcall => h.queued observed (hplace ▸ hcall), fun hcall => h.finished (hplace ▸ hcall)⟩
  change call < (r.creation.race.calls ++ _).length
  rw [List.length_append]
  exact Nat.lt_add_right _ h.began

/-- What a step of a call says about the second sync of a creation. -/
structure Told (c : Cache ω) (r told : CreationRun ω) (other : Nat) (stage : SyncStage) (call : Nat) :
    Prop where
  informed : ∀ place ∈ r.informed, place ∈ told.informed
  caughtUp : r.caughtUp = true → told.caughtUp = true
  applying : ∀ cursor writes, (c.step stage r.creation.race.state).1 = .applying cursor writes →
    other ∈ told.informed
  queued : ∀ observed, (c.step stage r.creation.race.state).1 ≠ .queued observed
  generation : (c.step stage r.creation.race.state).2.generation = r.creation.race.state.generation ∨
    told.caughtUp = true
  finished : other = call → (c.step stage r.creation.race.state).1 = .finished (.ok ()) →
    told.caughtUp = true

theorem Settling.told (h : r.Settling call) {other : Nat} {stage : SyncStage} {e : SyncEvent}
    (hplace : r.creation.race.calls[other]? = some stage)
    (he : c.stepEvent other stage r.creation.race.state = some e) : Told c r (r.tell e) other stage call := by
  cases stage with
  | queued observed =>
    by_cases hobserved : r.creation.race.state.generation = observed
    · rw [Cache.stepEvent, if_pos hobserved] at he
      cases he
      refine ⟨fun _ => id, id, ?_, ?_, Or.inl rfl, fun _ => ?_⟩ <;> simp [Cache.step, hobserved]
    · rw [Cache.stepEvent, if_neg hobserved] at he
      cases he
      refine ⟨fun _ => id, id, ?_, ?_, Or.inl rfl, fun hcall _ => ?_⟩
      · simp [Cache.step, hobserved]
      · simp [Cache.step, hobserved]
      · subst hcall
        exact (h.queued observed hplace).resolve_left hobserved
  | fetching =>
    rcases hanswer : (c.origin.listChanges r.creation.race.state.cursor).runOn
      r.creation.race.state.origin with ⟨error | set, origin⟩
    · simp only [Cache.stepEvent, hanswer, Option.some.injEq] at he
      subst he
      refine ⟨fun _ => id, id, ?_, ?_, ?_, fun _ => ?_⟩ <;> simp [Cache.step, hanswer]
    · simp only [Cache.stepEvent, hanswer, Option.some.injEq] at he
      subst he
      refine ⟨fun _ => List.mem_cons_of_mem _, id, fun _ _ _ => List.mem_cons_self, ?_, ?_, fun _ => ?_⟩ <;>
        simp [Cache.step, hanswer]
  | applying cursor writes =>
    have hother : other ∈ r.informed := h.informed other cursor writes hplace
    cases writes with
    | nil =>
      cases he
      have hcaught : (r.tell (.moved other cursor)).caughtUp = true :=
        Bool.or_eq_true_iff.2 (Or.inr (List.contains_iff_mem.2 hother))
      exact ⟨fun _ => id, fun _ => hcaught, fun _ _ _ => hother, fun _ => SyncStage.noConfusion,
        Or.inr hcaught, fun _ _ => hcaught⟩
    | cons write rest =>
      rcases houtcome : (write.apply c.database).runOn r.creation.race.state.replica with ⟨error | _, written⟩
      · simp only [Cache.stepEvent, houtcome, Option.some.injEq] at he
        subst he
        refine ⟨fun _ => id, id, ?_, ?_, ?_, fun _ => ?_⟩ <;> simp [Cache.step, houtcome]
      · simp only [Cache.stepEvent, houtcome, Option.some.injEq] at he
        subst he
        refine ⟨fun _ => id, id, fun _ _ _ => hother, ?_, ?_, fun _ => ?_⟩ <;> simp [Cache.step, houtcome]
  | finished outcome => cases he

theorem Settling.stepped (h : r.Settling call) {other : Nat} {stage : SyncStage} {e : SyncEvent}
    (hplace : r.creation.race.calls[other]? = some stage)
    (he : c.stepEvent other stage r.creation.race.state = some e) :
    Settling { r.tell e with creation := ⟨r.creation.race.stepped c other stage, r.creation.stage⟩ } call := by
  have htold := h.told hplace he
  refine ⟨?_, fun place cursor writes happlying => ?_, fun observed hcall => ?_, fun hcall => ?_⟩
  · change call < (r.creation.race.calls.set other _).length
    rw [List.length_set]
    exact h.began
  · rcases happlying.of_set with ⟨rfl, hnext⟩ | ⟨-, hbefore⟩
    · exact htold.applying cursor writes hnext
    · exact htold.informed place (h.informed place cursor writes hbefore)
  · rcases getElem?_set_cases hcall with ⟨-, hnext⟩ | ⟨-, hbefore⟩
    · exact absurd hnext (htold.queued observed)
    · rcases htold.generation with hsame | hcaught
      · exact (h.queued observed hbefore).imp (hsame.trans ·) htold.caughtUp
      · exact Or.inr hcaught
  · rcases getElem?_set_cases hcall with ⟨hcall, hnext⟩ | ⟨-, hbefore⟩
    · exact htold.finished hcall hnext
    · exact htold.caughtUp (h.finished hbefore)

theorem Settling.advance (h : r.Settling call) {replica : Collection (CacheState ω)} {caller : Caller}
    (other : Nat) : (r.next c replica caller (.sync (.advance other))).Settling call := by
  rcases r.next_advance_cases c replica caller other with hsame | ⟨stage, e, hplace, he, hstepped⟩
  · rw [hsame]
    exact h
  · rw [hstepped]
    exact h.stepped hplace he

theorem Settling.turn (h : r.Settling call) {replica : Collection (CacheState ω)} {caller : Caller}
    (turn : SyncTurn) : (r.next c replica caller (.sync turn)).Settling call := by
  cases turn with
  | join => exact h.join
  | advance other => exact h.advance other

theorem Settling.turns (h : r.Settling call) {replica : Collection (CacheState ω)} {caller : Caller}
    (turns : List SyncTurn) :
    (turns.foldl (fun r turn => r.next c replica caller (.sync turn)) r).Settling call := by
  induction turns generalizing r with
  | nil => exact h
  | cons turn rest ih => exact ih (h.turn turn)

/-- The second sync begins when every record has been sent. -/
theorem settling_resume {replica : Collection (CacheState ω)} {caller : Caller} {stored : List Record}
    (hstage : r.creation.stage = .sending [] stored)
    (hidle : ∀ other cursor writes, ¬r.creation.race.Applying other cursor writes) :
    (r.next c replica caller .resume).Settling r.creation.race.calls.length := by
  obtain ⟨⟨race, stage⟩, informed, caughtUp⟩ := r
  obtain rfl : stage = .sending [] stored := hstage
  have hlast : (race.calls ++ [SyncStage.queued race.state.generation])[race.calls.length]? =
      some (.queued race.state.generation) := List.getElem?_concat_length
  refine ⟨?_, fun other cursor writes happlying => ?_, fun observed hcall => ?_, fun hcall => ?_⟩
  · change race.calls.length < (race.calls ++ _).length
    rw [List.length_append]
    exact Nat.lt_succ_self _
  · exact absurd happlying.of_join (hidle other cursor writes)
  · change (race.calls ++ _)[race.calls.length]? = _ at hcall
    rw [hlast] at hcall
    cases hcall
    exact Or.inl rfl
  · change (race.calls ++ _)[race.calls.length]? = _ at hcall
    rw [hlast] at hcall
    cases hcall

/-- Where no other call has anything to apply when the second sync of a creation begins, the replica has
caught up once that sync has succeeded. -/
theorem caughtUp_of_idle {replica : Collection (CacheState ω)} {caller : Caller} {stored : List Record}
    (hstage : r.creation.stage = .sending [] stored)
    (hidle : ∀ other cursor writes, ¬r.creation.race.Applying other cursor writes) (turns : List SyncTurn)
    (hok : (turns.foldl (fun r turn => r.next c replica caller (.sync turn))
      (r.next c replica caller .resume)).creation.race.outcome? r.creation.race.calls.length = some (.ok ())) :
    (turns.foldl (fun r turn => r.next c replica caller (.sync turn))
      (r.next c replica caller .resume)).caughtUp = true := by
  refine ((settling_resume hstage hidle).turns turns).finished ?_
  rw [SyncRace.outcome?_eq] at hok
  obtain ⟨stage, hcall, hstage⟩ := Option.bind_eq_some_iff.1 hok
  cases stage <;> cases hstage
  exact hcall

end CreationRun

/-- What a creation is closing with, and what it has answered. -/
def CreationStage.closing? : CreationStage → Option (Nat × List Record)
  | closing call stored => some (call, stored)
  | _ => none

def CreationStage.answer? : CreationStage → Option (List Record)
  | finished (.ok rows) => some rows
  | _ => none

theorem CreationStage.eq_closing {stage : CreationStage} {call : Nat} {stored : List Record}
    (h : stage.closing? = some (call, stored)) : stage = closing call stored := by
  cases stage <;> cases h
  rfl

theorem CreationStage.eq_answer {stage : CreationStage} {rows : List Record}
    (h : stage.answer? = some rows) : stage = finished (.ok rows) := by
  match stage with
  | finished (.ok _) => cases h; rfl
  | finished (.error _) => cases h
  | opening _ _ => cases h
  | sending _ _ => cases h
  | closing _ _ => cases h

/-! ## An honest origin -/

namespace Ledger

def key : Column := Column.primaryKey ((Column.ofType .string).withOperators [.equal, .oneOf])

def schema : CollectionSchema := CollectionSchema.empty.withField "id" (.column key)

def database : Database := ⟨Dict.empty.insert "a" schema, ∅⟩

/-- Texts that stand for numbers. -/
def tally (n : Nat) : String := String.ofList (List.replicate n '|')

theorem length_tally (n : Nat) : (tally n).length = n := by
  rw [tally, String.length_ofList, List.length_replicate]

/-- Everything is kept in the order in which it was created; the place of a record gives it its id. -/
def changes (created : List Record) : List RecordChange :=
  created.zipIdx.map fun e => ⟨"a", e.1.insert "id" (.text (tally e.2))⟩

def origin : Origin (List Record) where
  listChanges cursor := .reading fun created =>
    .ok ⟨tally created.length, (changes created).drop ((cursor.map String.length).getD 0), []⟩
  create _ record := .updating fun created =>
    (.ok (record.insert "id" (.text (tally created.length))), created ++ [record])
  update _ _ _ := pure ()
  delete _ _ := pure ()

def view : FeedView (List Record) :=
  ⟨"a", schema, fun created => (changes created).map .changed, String.length⟩

theorem changes_append (created : List Record) (record : Record) :
    changes (created ++ [record]) =
      changes created ++ [⟨"a", record.insert "id" (.text (tally created.length))⟩] := by
  simp [changes, List.zipIdx_append]

theorem key_insert (record : Record) (n : Nat) :
    (record.insert "id" (.text (tally n))).key schema = [.text (tally n)] := by
  have hkeys : schema.primaryKeys = ["id"] := by decide
  rw [Record.key, hkeys, List.map_singleton]
  exact congrArg (fun v => [Option.getD v Value.null]) (Entries.get?_insert_self ..)

theorem usableKeys : schema.UsableKeys := by
  have hkeys : schema.primaryKeys = ["id"] := by decide
  refine ⟨by decide, fun pk hpk => ⟨key, ?_⟩⟩
  rw [hkeys] at hpk
  obtain rfl := List.mem_singleton.1 hpk
  exact ⟨rfl, by decide, by unfold Column.HasMembership; decide, by decide, by decide⟩

theorem honest : view.Honest origin := by
  refine ⟨?_, ?_, ?_, ?_⟩
  · intro cursor o set o' h
    cases h
    refine ⟨rfl, ?_, fun change hmem => ?_, fun _ hmem => nomatch hmem⟩
    · change (tally o.length).length = (view.feed o).length
      simp [length_tally, view, changes]
    · change FeedEntry.changed change ∈ List.drop _ (List.map _ (changes o)) at hmem
      rw [← List.map_drop] at hmem
      obtain ⟨other, hother, heq⟩ := List.mem_map.1 hmem
      cases heq
      exact hother
  · intro cursor o error o' h
    cases h
  · intro record o stored o' h
    cases h
    refine ⟨?_, fun value hmem => ?_, fun entry hmem => ?_⟩
    · change (changes (o ++ [record])).map FeedEntry.changed = _
      rw [changes_append, List.map_append]
      rfl
    · rw [view, key_insert] at hmem
      cases List.mem_singleton.1 hmem
      exact Value.noConfusion
    · obtain ⟨change, hchange, rfl⟩ := List.mem_map.1 hmem
      obtain ⟨⟨other, n⟩, hother, rfl⟩ := List.mem_map.1 hchange
      intro _
      have hlt : n < o.length := by simpa using List.snd_lt_of_mem_zipIdx hother
      change sameId (Record.key (other.insert "id" (.text (tally n))) schema)
        (Record.key (record.insert "id" (.text (tally o.length))) schema) = false
      rw [key_insert, key_insert]
      have hne : tally n ≠ tally o.length := by
        intro heq
        have hlength := congrArg String.length heq
        rw [length_tally, length_tally] at hlength
        omega
      simp [sameId, Value.sameItems, Value.same, Value.alike, hne]
  · intro record o error o' h
    cases h

def cache : Cache (List Record) := ⟨database, origin, .default⟩

def creating (records : List Record) (turns : List CreationTurn) : CreationRun (List Record) :=
  CreationRun.run cache (CreationRun.member cache view) default records
    (Cache.start database.emptyStore []) [] turns

/-- Turns of one call of `sync`. -/
def goOn (call n : Nat) : List CreationTurn := List.replicate n (.sync (.advance call))

def undisturbed : List CreationTurn :=
  goOn 0 3 ++ [.resume, .resume, .resume] ++ goOn 1 4

/-- Another sync fetches before the record is created and completes before the second sync of the
creation has its turn. -/
def overtaken : List CreationTurn :=
  goOn 0 3 ++ [.resume, .sync .join] ++ goOn 1 2 ++ [.resume, .resume] ++ goOn 1 1 ++ goOn 2 1

end Ledger

namespace CreationRun

open Ledger in
theorem length_readBack_undisturbed :
    (creating [[]] undisturbed).caughtUp = true ∧ ∃ rows,
      ((creating [[]] undisturbed).next cache (member cache view) default .resume).creation.stage =
        .finished (.ok rows) ∧ rows.length = [([] : Record)].length := by
  have hcaught : (creating [[]] undisturbed).caughtUp = true := by decide +kernel
  have hstage : (creating [[]] undisturbed).creation.stage.closing? = some (1, [[("id", .text "")]]) := by
    decide +kernel
  have hrows : ((creating [[]] undisturbed).next cache (member cache view) default
      .resume).creation.stage.answer? = some [[("id", .text "")]] := by decide +kernel
  have hkeyed : Memory.Keyed view.schema (database.emptyStore.rows view.name) := by
    rw [Memory.rows_emptyStore]
    exact .nil
  have hrun : run cache (member cache view) default [[]] (Cache.start database.emptyStore []) []
      undisturbed = creating [[]] undisturbed := rfl
  refine ⟨hcaught, _, CreationStage.eq_answer hrows, ?_⟩
  exact (length_readBack rfl usableKeys honest hkeyed hrun (CreationStage.eq_closing hstage) hcaught
    (CreationStage.eq_answer hrows)).1

end CreationRun

/-! ## Creations that lose rows -/

/-- Records with a number for their id, and a name. -/
def wideDatabase : Database :=
  let key := Column.primaryKey ((Column.ofType .number).withOperators [.equal, .oneOf])
  let schema := (CollectionSchema.empty.withField "id" (.column key)).withField "name"
    (.column (.ofType .string))
  ⟨Dict.empty.insert "a" schema, ∅⟩

def wideCache : Cache Feed := ⟨wideDatabase, Feed.origin false, .default⟩

/-- Two records are created that get ids which are the same as doubles. -/
def wideAnswer : Except Error (List Record) :=
  let member := ((Memory.source wideDatabase).collection? "a").map (·.zoom Cache.replicaLens)
  match member with
  | some member =>
    (((wideCache.collection member).create default [[("name", .text "Tove")], [("name", .text "Ada")]]).runOn
      (Cache.start wideDatabase.emptyStore (Feed.start 9007199254740992 true))).1
  | none => .ok []

/-- A creation may answer fewer rows than it created records: when another sync overtakes it, and, with
nothing beside it, when the ids that the origin gave are compared as doubles and found the same. -/
theorem not_length_readBack :
    (¬ ∀ (ω : Type) (c : Cache ω) (v : FeedView ω) (caller : Caller) (replica : Store) (origin : ω)
      (records stored rows : List Record) (before : List SyncTurn) (turns : List CreationTurn) (call : Nat),
      c.database.schemas.get? v.name = some v.schema → v.schema.UsableKeys → v.Honest c.origin →
      Memory.Keyed v.schema (replica.rows v.name) →
      (CreationRun.run c (CreationRun.member c v) caller records (Cache.start replica origin) before
        turns).creation.stage = .closing call stored →
      ((CreationRun.run c (CreationRun.member c v) caller records (Cache.start replica origin) before
        turns).next c (CreationRun.member c v) caller .resume).creation.stage = .finished (.ok rows) →
      rows.length = records.length) ∧
    wideAnswer.toOption = some [[("id", .int 9007199254740993), ("name", .text "Ada")]] := by
  constructor
  · intro h
    have hkeyed : Memory.Keyed Ledger.view.schema (Ledger.database.emptyStore.rows Ledger.view.name) := by
      rw [Memory.rows_emptyStore]
      exact .nil
    have hstage : (Ledger.creating [[]] Ledger.overtaken).creation.stage.closing? =
        some (2, [[("id", .text "")]]) := by decide +kernel
    have hrows : ((Ledger.creating [[]] Ledger.overtaken).next Ledger.cache
        (CreationRun.member Ledger.cache Ledger.view) default .resume).creation.stage.answer? = some [] := by
      decide +kernel
    have hlength := h (List Record) Ledger.cache Ledger.view default Ledger.database.emptyStore [] [[]]
      _ [] [] Ledger.overtaken 2 rfl Ledger.usableKeys Ledger.honest hkeyed
      (CreationStage.eq_closing hstage) (CreationStage.eq_answer hrows)
    cases hlength
  · decide +kernel

end QueryLayer
