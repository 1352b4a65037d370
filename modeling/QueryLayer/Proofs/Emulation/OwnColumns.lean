import QueryLayer.Proofs.Emulation.Acceptance

/-! # Filters on own columns

A condition that only compares columns of its own collection is answered through an emulation as by a
database that declares the operators itself, with any request that takes a filter. Brute force never fails
on keyed rows; rules that give conditions of their own have to be faithful.
-/
namespace QueryLayer

/-- Only columns of the collection itself are compared. -/
def Condition.OnColumns (schema : CollectionSchema) (c : Condition) : Prop :=
  ∀ l ∈ c.leaves, Path.Plain l.field ∧ (schema.column? l.field).isSome

theorem Condition.OnColumns.holds_congr {schema : CollectionSchema} {c : Condition} (hc : c.OnColumns schema)
    {a b : Record} (h : a.SameColumns schema b) : c.holds a = c.holds b := by
  refine Condition.holds_congr fun l hl => ?_
  obtain ⟨hplain, hcolumn⟩ := hc l hl
  exact Leaf.holds_congr hplain (h l.field hcolumn)

/-- No path goes through a relation. -/
def Condition.Flat (c : Condition) : Prop := ∀ l ∈ c.leaves, Path.Plain l.field

theorem Condition.Flat.plain {c : Condition} (h : c.Flat) : ∀ f ∈ c.projection.fields, Path.Plain f := by
  intro f hf
  obtain ⟨l, hl, rfl⟩ := List.mem_map.1 (Projection.mem_ofList.1 hf)
  exact h l hl

namespace Emulation

/-- A flat condition that holds for records with the columns of one of the rows when the leaf does. -/
structure StandsFor (schema : CollectionSchema) (rows : List Record) (l : Leaf) (t : Condition) : Prop where
  flat : t.Flat
  holds_eq : ∀ row ∈ rows, ∀ record : Record, record.SameColumns schema row → t.holds record = l.holds record

variable {db : Database} {e : Emulation Store} {decorated : Unit → Source Store} {caller : Caller}
  {store : Store} {name : String} {schema : CollectionSchema}

theorem standsFor_leaf {rows : List Record} {l : Leaf} (h : Path.Plain l.field) :
    StandsFor schema rows l (.leaf l) where
  flat m hm := by
    obtain rfl := List.mem_singleton.1 hm
    exact h
  holds_eq _ _ _ _ := rfl

theorem standsFor_of_replaced {rows : List Record} {l : Leaf} {c t : Condition} (hc : c.OnColumns schema)
    (hrows : ∀ row ∈ rows, c.holds row = l.holds row) (hplain : Path.Plain l.field)
    (hcolumn : (schema.column? l.field).isSome) (h : c.Replaced (StandsFor schema rows) t) :
    StandsFor schema rows l t where
  flat m hm := by
    obtain ⟨_, _, _, hstands, hm⟩ := h.mem_leaves hm
    exact hstands.flat m hm
  holds_eq row hrow record hsame := by
    have ht : t.holds record = c.holds record := by
      rw [c.holds_eq_truth]
      exact h.holds_eq fun l t _ hlt => hlt.holds_eq row hrow record hsame
    rw [ht, hc.holds_congr hsame, hrows row hrow, Leaf.holds_congr hplain (hsame l.field hcolumn)]

theorem standsFor_of_matchRecords {rows : List Record} (hrows : Memory.Keyed schema rows)
    (hkeys : schema.UsableKeys) {l : Leaf} (hplain : Path.Plain l.field)
    (hcolumn : (schema.column? l.field).isSome) {t : Condition}
    (h : Condition.matchRecords schema (rows.filter l.holds) = .ok t) : StandsFor schema rows l t where
  flat m hm := hkeys.plain m.field (Condition.field_mem_primaryKeys hkeys h hm)
  holds_eq _ hrow _ hsame := Condition.holds_of_matchRecords hrows hkeys hplain hcolumn h hrow hsame

/-- Whatever the value, the rule leaves the store as it is and answers nothing, or a condition on own columns
that holds for the stored records for which the operator does. -/
def Faithful (decorated : Unit → Source Store) (store : Store) (name : String) (schema : CollectionSchema)
    (r : Registration (EmulationRule Store)) : Prop :=
  ∀ v, (r.rule.equivalent decorated v).Yields (· = store) (fun answer => ∀ c, answer = some c →
    c.OnColumns schema ∧ ∀ row ∈ store.rows name, c.holds row = Leaf.holds ⟨r.field, r.operator, v⟩ row)
    fun _ => True

/-- What stands for a leaf on own columns is accepted, and failures come only where rules give conditions. -/
theorem ownColumnRules (caller : Caller) (hreg : Registered db e) (hkeys : MatchableKeys db e)
    (hstore : Memory.Fitting db store) (hs : db.schemas.get? name = some schema)
    (hkeyed : Memory.Keyed schema (store.rows name)) {E : Error → Prop}
    (hrules : ∀ r ∈ e.registrations.of name,
      r.rule = .bruteForce ∨ (∀ err, E err) ∧ Faithful decorated store name schema r) :
    e.LeafRules decorated caller (· = store) E
      (fun chain c l => c = Memory.collection db name schema ∧ Path.Plain l.field ∧
        (chain = [] ∨ ∀ err, E err))
      (fun c l t => StandsFor schema (store.rows name) l t ∧ e.Accepts c l t) where
  relation := by
    rintro chain c l first rest r ⟨_, hplain, _⟩ hsplit _
    rw [Path.split?_of_plain hplain] at hsplit
    cases hsplit
  stray := by
    rintro chain c l first rest ⟨_, hplain, _⟩ hsplit _
    rw [Path.split?_of_plain hplain] at hsplit
    cases hsplit
  native := by
    rintro chain c l ⟨rfl, hplain, _⟩ hsplit hfind
    exact ⟨standsFor_leaf hplain, accepts_of_native hsplit hfind⟩
  cycle := by
    rintro chain c l r ⟨_, _, hchain⟩ _ _ hcycle
    rcases hchain with rfl | hE
    · cases hcycle
    · exact hE _
  asked := by
    rintro chain c l r ⟨rfl, hplain, _⟩ hsplit hfind
    obtain ⟨hmem, hfield, hoperator⟩ := mem_of_find? hfind
    have hl : (⟨r.field, r.operator, l.value⟩ : Leaf) = l := by rw [hfield, hoperator]
    rcases hrules r hmem with hbrute | ⟨hE, hfaithful⟩
    · rw [hbrute]
      refine Action.yields_pure fun condition hcondition => ?_
      cases hcondition
    · refine (hfaithful l.value).mono (fun answer hanswer condition hcondition => ?_) fun err _ => hE err
      obtain ⟨honcolumns, hrows⟩ := hanswer condition hcondition
      rw [hl] at hrows
      refine ⟨fun m hm => ⟨rfl, (honcolumns m hm).1, Or.inr hE⟩, fun t ht => ⟨fun err _ => hE err, ?_⟩⟩
      intro hok
      have hcolumn := (hreg.usable hkeys hs hfind).2
      have hstands := ht.mono fun _ _ hlt => hlt.1
      have haccepts := ht.mono fun _ _ hlt => hlt.2
      exact ⟨standsFor_of_replaced honcolumns hrows hplain hcolumn hstands, accepts_of_replaced haccepts hok⟩
  brute := by
    rintro chain c l r ⟨rfl, hplain, _⟩ hsplit hfind
    obtain ⟨husable, hcolumn⟩ := hreg.usable hkeys hs hfind
    refine bruteForce_yields caller husable hkeyed hplain hcolumn fun t ht => ?_
    exact ⟨standsFor_of_matchRecords hkeyed husable hplain hcolumn ht,
      accepts_of_matchRecords hstore hs husable ht⟩

/-- What a condition is refined to asks the source what the condition asks the native database. -/
theorem asks_of_standsFor (hstore : Memory.Fitting db store) (hs : db.schemas.get? name = some schema)
    (hchild : e.child = Memory.source db) {f : Filter} {c t : Condition} (hc : f.condition = some c)
    (hflat : c.Flat) (ht : c.Replaced (StandsFor schema (store.rows name)) t)
    (hcheck : (e.scope (Memory.collection db name schema)).checkFilter f = .ok ())
    (haccepted : (db.scope name schema).checkFilter { f with condition := some t } = .ok ())
    (extra : Projection) :
    e.AsksDeclared db store name schema extra { f with condition := some t } f where
  accepted := haccepted
  accepted' := by rw [← scope_eq_native hchild]; exact hcheck
  select_eq := by
    rw [← (e.sameBare_native db name schema).select_eq]
    refine Memory.select_congr hc ?_ fun records hrecords record hrecord => ?_
    · have hflat' : t.Flat := by
        intro m hm
        obtain ⟨_, _, _, hstands, hm⟩ := ht.mem_leaves hm
        exact hstands.flat m hm
      exact (Projection.sameHops_of_plain hflat'.plain hflat.plain).union_left extra
    · have hshows := Memory.shows_of_hydrate hstore (fun r hr => .of_mem_rows hstore hs hr) hrecords record
        (Memory.mem_of_mem_searched hrecord)
      cases hshows with
      | intro row hrow hsame _ =>
        rw [c.holds_eq_truth]
        exact ht.holds_eq fun l t _ hlt => hlt.holds_eq row hrow record hsame

theorem refine_yields_asks (caller : Caller) (hreg : Registered db e) (hkeys : MatchableKeys db e)
    (hstore : Memory.Fitting db store) (hs : db.schemas.get? name = some schema)
    (hkeyed : Memory.Keyed schema (store.rows name)) {E : Error → Prop}
    (hrules : ∀ r ∈ e.registrations.of name,
      r.rule = .bruteForce ∨ (∀ err, E err) ∧ Faithful decorated store name schema r)
    {f : Filter} (hflat : ∀ c, f.condition = some c → c.Flat)
    (hrefused : ∀ err, (e.scope (Memory.collection db name schema)).checkFilter f = .error err → E err)
    (extra : Projection) :
    (e.refine decorated caller (Memory.collection db name schema) f).Yields (· = store)
      (fun g => e.AsksDeclared db store name schema extra g f) E := by
  have hrefine := (ownColumnRules caller hreg hkeys hstore hs hkeyed hrules).refine_yields (f := f)
    (c := Memory.collection db name schema) (fun c hc _ l hl => ⟨rfl, hflat c hc l hl, Or.inl rfl⟩) hrefused
  refine hrefine.mono (fun g hg => ?_) fun _ herr => herr
  obtain ⟨hcheck, ⟨hnone, rfl⟩ | ⟨c, t, hc, ht, rfl⟩⟩ := hg
  · exact asks_self hnone extra
  · have hstands := ht.mono fun _ _ hlt => hlt.1
    have haccepts := ht.mono fun _ _ hlt => hlt.2
    exact asks_of_standsFor hstore hs hreg.child_eq hc (hflat c hc) hstands hcheck
      (checkFilter_of_accepts hc haccepts hcheck) extra

/-- A flat filter selects through an emulation what it selects where the operators are declared. -/
theorem runOn_send_of_flat (caller : Caller) (hreg : Registered db e) (hkeys : MatchableKeys db e)
    (hreach : Memory.Reachable db store) (hs : db.schemas.get? name = some schema)
    (hkeyed : Memory.Keyed schema (store.rows name)) {f : Filter}
    (hflat : ∀ c, f.condition = some c → c.Flat) (q : Memory.Request) :
    ((∀ r ∈ e.registrations.of name, r.rule = .bruteForce) →
      (q.send (e.collection decorated (Memory.collection db name schema)) caller f).runOn store =
        (q.send (e.declared db name schema) caller f).runOn store) ∧
    ((∀ r ∈ e.registrations.of name, r.rule = .bruteForce ∨ Faithful decorated store name schema r) →
      ∀ reply after,
        (q.send (e.collection decorated (Memory.collection db name schema)) caller f).runOn store =
          (.ok reply, after) →
        (q.send (e.declared db name schema) caller f).runOn store = (.ok reply, after)) := by
  constructor
  · intro hbrute
    have hrules : ∀ r ∈ e.registrations.of name, r.rule = .bruteForce ∨
        (∀ err, (e.scope (Memory.collection db name schema)).checkFilter f = .error err) ∧
          Faithful decorated store name schema r := fun r hr => Or.inl (hbrute r hr)
    have hrefine := refine_yields_asks caller hreg hkeys hreach.fitting hs hkeyed hrules hflat
      (fun _ herr => herr) q.extra
    exact runOn_send_eq_declared hreg.child_eq hrefine
  · intro hfaithful reply after hreply
    have hrules : ∀ r ∈ e.registrations.of name, r.rule = .bruteForce ∨
        (∀ _ : Error, True) ∧ Faithful decorated store name schema r :=
      fun r hr => (hfaithful r hr).imp_right fun h => ⟨fun _ => trivial, h⟩
    have hrefine := refine_yields_asks caller hreg hkeys hreach.fitting hs hkeyed hrules hflat
      (fun _ _ => trivial) q.extra
    rcases runOn_send_of_asks hrefine with ⟨err, _, hemulated⟩ | hemulated
    · rw [hemulated] at hreply
      cases hreply
    · rw [← hemulated, hreply]

def named (operator : Operator) (text : String) : Filter :=
  .ofCondition (.leaf ⟨"name", operator, .text text⟩)

theorem flat_named (operator : Operator) (text : String) :
    ∀ c, (named operator text).condition = some c → c.Flat := by
  rintro c hc l hl
  cases hc
  obtain rfl := List.mem_singleton.1 hl
  change Path.Plain "name"
  decide

theorem runOn_send_of_flat_contained :
    (Memory.Request.delete.send ((byName (contained.take 1)).collection (fun _ => .empty)
      (Memory.collection library "authors" authors)) default (named .contains "o")).runOn stocked =
        (Memory.Request.delete.send ((byName (contained.take 1)).declared library "authors" authors) default
          (named .contains "o")).runOn stocked ∧
    ∀ reply after, (Memory.Request.delete.send ((byName contained).collection (fun _ => .empty)
      (Memory.collection library "authors" authors)) default (named .notContains "o")).runOn stocked =
        (.ok reply, after) →
      (Memory.Request.delete.send ((byName contained).declared library "authors" authors) default
        (named .notContains "o")).runOn stocked = (.ok reply, after) := by
  have hreach : Memory.Reachable library stocked := ⟨stocking, rfl⟩
  have hkeyed := keyedStore_stocked "authors" authors rfl
  constructor
  · refine (runOn_send_of_flat default (registered_byName (by decide)) (matchableKeys_byName _) hreach rfl
      hkeyed (flat_named _ _) _).1 fun r hr => ?_
    obtain rfl := List.mem_singleton.1 (mem_of_mem_byName hr)
    rfl
  · refine (runOn_send_of_flat default (registered_byName (by decide)) (matchableKeys_byName _) hreach rfl
      hkeyed (flat_named _ _) _).2 fun r hr => ?_
    rcases List.mem_cons.1 (mem_of_mem_byName hr) with rfl | hr
    · exact Or.inl rfl
    · obtain rfl := List.mem_singleton.1 hr
      right
      refine fun v => Action.yields_pure fun c hc => ?_
      cases hc
      refine ⟨fun l hl => ?_, fun row _ => rfl⟩
      obtain rfl := List.mem_singleton.1 hl
      exact ⟨(by decide : Path.Plain "name"), rfl⟩

end Emulation

end QueryLayer
