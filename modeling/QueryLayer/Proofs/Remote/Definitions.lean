import QueryLayer.Proofs.Action.Simulation
import QueryLayer.Proofs.Remote.Instances
import QueryLayer.Remote.Body

/-! # Requests by definition

A server that serves whatever source a request defines has a slot for each definition. A request takes
a turn in the slot of its own: the instance in it answers, and is built first if there is none. Main
statement: `Server.served_dispatch`.
-/
namespace QueryLayer

variable {σ : Type}

/-- The outcome of a request to an instance, and the instance after it. -/
def MemoryInstance.dispatch (i : MemoryInstance) (r : Request) : Except Error Value × MemoryInstance :=
  let outcome := ((Server.bound (Memory.source i.database)).dispatch r).runOn i.store
  (outcome.1, { i with store := outcome.2 })

/-- The outcome of a request for a definition whose instance is held, or not built yet. A method that
is not known builds nothing. -/
def Factories.turn (f : Factories) (r : Request) (held : Option MemoryInstance) :
    Except Error Value × Option MemoryInstance :=
  match Method.ofName? r.method, held with
  | none, held => (.error (.setup (.unsupportedMethod r.method)), held)
  | some _, some i => ((i.dispatch r).1, some (i.dispatch r).2)
  | some _, none =>
    match f.create r.definition with
    | .ok i => ((i.dispatch r).1, some (i.dispatch r).2)
    | .error e => (.error e, none)

namespace Instances

variable {s : Instances MemoryInstance} {key : String} {cell : Nat} {db : Database}

def held? (s : Instances MemoryInstance) (key : String) : Option MemoryInstance :=
  (s.slot? key).map Prod.snd

/-- The slot of a digest holds a source with this store; the other slots are those of `base`. -/
structure Holds (base : Instances MemoryInstance) (key : String) (cell : Nat) (db : Database)
    (s : Instances MemoryInstance) (store : Store) : Prop where
  sound : s.Sound
  slot : s.slot? key = some (cell, ⟨db, store⟩)
  others : ∀ other, other ≠ key → s.slot? other = base.slot? other

theorem storeLens_shows (base : Instances MemoryInstance) (key : String) (cell : Nat) (db : Database) :
    (storeLens cell).Shows (Holds base key cell db) where
  get s store h := by
    have hget := (slot?_eq_some_iff.1 h.slot).2
    simp [storeLens, hget]
  set s store store' h := by
    obtain ⟨hcell, hget⟩ := slot?_eq_some_iff.1 h.slot
    have hset : (storeLens cell).set store' s = s.set cell ⟨db, store'⟩ := by simp [storeLens, hget]
    rw [hset]
    refine ⟨h.sound.set _ _, h.sound.slot?_set_self hcell _, fun other hne => ?_⟩
    exact (h.sound.slot?_set_of_ne hcell hne _).trans (h.others other hne)

theorem sourceAt_of_slot {i : MemoryInstance} (h : s.slot? key = some (cell, i)) :
    s.sourceAt cell = (Memory.source i.database).zoom (storeLens cell) := by
  rw [sourceAt, (slot?_eq_some_iff.1 h).2]

/-- What a request does to the slots: a turn in its own, and nothing in the others. -/
structure Served (f : Factories) (r : Request) (s : Instances MemoryInstance)
    (o : Except Error Value × Instances MemoryInstance) : Prop where
  sound : o.2.Sound
  others : ∀ other, other ≠ r.definition.digest → o.2.slot? other = s.slot? other
  turn : f.turn r (s.held? r.definition.digest) = (o.1, o.2.held? r.definition.digest)
  cell : ∀ cell i, s.slot? r.definition.digest = some (cell, i) →
    ∃ i', o.2.slot? r.definition.digest = some (cell, i')

end Instances

namespace Server

open Instances

variable {l : Lens σ (Instances MemoryInstance)} {f : Factories}

theorem dispatch_bound_of_known {source : Source σ} {r : Request} {method : Method}
    (h : Method.ofName? r.method = some method) :
    (bound source).dispatch r = source.answer method r.collection r.arguments := by
  rw [dispatch, h]
  rfl

/-- The source in a slot answers a request as it does alone. -/
theorem runOn_answer_slot (hl : l.Lawful) {r : Request} {method : Method}
    (hmethod : Method.ofName? r.method = some method) {base : Instances MemoryInstance} {key : String}
    {cell : Nat} {i : MemoryInstance} {w : σ} (h : Holds base key cell i.database (l.get w) i.store) :
    let o := ((((l.get w).sourceAt cell).zoom l).answer method r.collection r.arguments).runOn w
    o.1 = (i.dispatch r).1 ∧ Holds base key cell i.database (l.get o.2) (i.dispatch r).2.store := by
  have houter := (((Memory.source i.database).zoom (storeLens cell)).simulates_answer hl.shows method
    r.collection r.arguments)
  have hinner := (Memory.source i.database).simulates_answer (storeLens_shows base key cell i.database)
    method r.collection r.arguments
  rw [sourceAt_of_slot h.slot, MemoryInstance.dispatch, dispatch_bound_of_known hmethod]
  obtain ⟨houtcome, s, hs, hstate⟩ := (houter.trans hinner) w i.store ⟨_, rfl, h⟩
  exact ⟨houtcome, hs ▸ hstate⟩


theorem dispatch_byDefinition_of_known {r : Request} {method : Method}
    (h : Method.ofName? r.method = some method) :
    (byDefinition f l).dispatch r = (resolveSource f r.definition).zoom l >>= fun source =>
      (source.zoom l).answer method r.collection r.arguments := by
  have hbind : (byDefinition f l).dispatch r =
      ((resolveSource f r.definition).zoom l >>= fun source => pure (source.zoom l)) >>= fun source =>
        source.answer method r.collection r.arguments := by
    rw [dispatch, h]
    rfl
  rw [hbind, bind_assoc]
  rfl

/-- The source that a definition describes, looked up in a part of the state. -/
theorem runOn_zoom_resolveSource (hl : l.Lawful) (definition : Value) (w : σ) :
    let o := ((resolveSource f definition).zoom l).runOn w
    let resolved := (resolve definition (f.create definition)).runOn (l.get w)
    o.1 = resolved.1.map resolved.2.sourceAt ∧ l.get o.2 = resolved.2 := by
  have hrun : (resolveSource f definition).runOn (l.get w) =
      let resolved := (resolve definition (f.create definition)).runOn (l.get w)
      (resolved.1.map resolved.2.sourceAt, resolved.2) := by
    rw [resolveSource, Action.runOn_bind]
    rcases (resolve definition (f.create definition)).runOn (l.get w) with ⟨e | cell, t⟩ <;> rfl
  have hzoom := hl.shows.simulates_zoom (resolveSource f definition) w (l.get w) rfl
  rwa [hrun] at hzoom

/-- A request whose slot holds an instance once it is resolved, the one whose turn it is. -/
theorem served_of_slot (hl : l.Lawful) {r : Request} {method : Method}
    (hmethod : Method.ofName? r.method = some method) {s : Instances MemoryInstance} {w : σ}
    {cell : Nat} {i : MemoryInstance} (hsound : (l.get w).Sound)
    (hothers : ∀ other, other ≠ r.definition.digest → (l.get w).slot? other = s.slot? other)
    (hslot : (l.get w).slot? r.definition.digest = some (cell, i))
    (hturn : f.turn r (s.held? r.definition.digest) = ((i.dispatch r).1, some (i.dispatch r).2))
    (hcell : ∀ c j, s.slot? r.definition.digest = some (c, j) → c = cell) :
    let o := ((((l.get w).sourceAt cell).zoom l).answer method r.collection r.arguments).runOn w
    Served f r s (o.1, l.get o.2) := by
  obtain ⟨hanswer, hholds⟩ := runOn_answer_slot hl hmethod ⟨hsound, hslot, fun _ _ => rfl⟩
  refine ⟨hholds.sound, fun other hne => ?_, ?_, fun c j hc => ?_⟩
  · exact (hholds.others other hne).trans (hothers other hne)
  · rw [hturn, held?, hholds.slot]
    exact congrArg (Prod.mk · _) hanswer.symm
  · rw [hcell c j hc]
    exact ⟨_, hholds.slot⟩

/-- A request takes its turn in the slot of its definition. -/
theorem served_dispatch (hl : l.Lawful) (r : Request) {w : σ} (h : (l.get w).Sound) :
    let o := ((byDefinition f l).dispatch r).runOn w
    Served f r (l.get w) (o.1, l.get o.2) := by
  cases hmethod : Method.ofName? r.method with
  | none =>
    have hrun : ((byDefinition f l).dispatch r).runOn w =
        (.error (.setup (.unsupportedMethod r.method)), w) := by
      rw [dispatch, hmethod]
      rfl
    rw [hrun]
    exact ⟨h, fun _ _ => rfl, by simp [Factories.turn, hmethod], fun cell i hslot => ⟨i, hslot⟩⟩
  | some method =>
    have hsource := runOn_zoom_resolveSource (f := f) hl r.definition w
    have hresolved := resolved_resolve h r.definition (f.create r.definition)
    rw [dispatch_byDefinition_of_known hmethod, Action.runOn_bind]
    generalize ((resolveSource f r.definition).zoom l).runOn w = found at *
    generalize (resolve r.definition (f.create r.definition)).runOn (l.get w) = resolved at *
    obtain ⟨outcome, w'⟩ := found
    obtain ⟨cell?, s⟩ := resolved
    simp only at hsource
    obtain ⟨rfl, rfl⟩ := hsource
    obtain ⟨hsound, hothers, hends⟩ := hresolved
    simp only at hsound hothers hends
    cases hends with
    | found hslot hslot' =>
      refine served_of_slot hl hmethod hsound hothers hslot' ?_ fun c j hc => ?_
      · simp [held?, hslot, Factories.turn, hmethod]
      · exact (Prod.mk.inj (Option.some.inj (hc.symm.trans hslot))).1
    | built hslot hattempt hslot' =>
      refine served_of_slot hl hmethod hsound hothers hslot' ?_ fun c j hc => ?_
      · simp [held?, hslot, Factories.turn, hmethod, hattempt]
      · exact nomatch hslot.symm.trans hc
    | refused hslot hattempt hslot' =>
      refine ⟨hsound, hothers, ?_, fun c j hc => nomatch hslot.symm.trans hc⟩
      simp [held?, hslot, hslot', Factories.turn, hmethod, hattempt, Except.map]

end Server

end QueryLayer
