import QueryLayer.Proofs.Action.Yields
import QueryLayer.Proofs.Source.Calls
import QueryLayer.Source.Memory.Basic

/-! # What actions change

An action that runs alone only reads if it leaves every state as it is, and it is atomic if it does so
wherever it fails. A sequence is atomic when only its last step changes anything that can fail. Main
statement: the reads of a memory source only read and its writes are atomic, `Memory.transacts_source`.
-/
namespace QueryLayer

variable {σ α β : Type}

namespace Action

def ReadsOnly (act : Action σ α) : Prop := ∀ s, (act.runOn s).2 = s

def Atomic (act : Action σ α) : Prop := ∀ s e, (act.runOn s).1 = .error e → (act.runOn s).2 = s

theorem readsOnly_pure (a : α) : (pure a : Action σ α).ReadsOnly := fun _ => rfl

theorem readsOnly_throw (e : Error) : (throw e : Action σ α).ReadsOnly := fun _ => rfl

theorem readsOnly_ofExcept (r : Except Error α) : (ofExcept r : Action σ α).ReadsOnly := fun _ => rfl

theorem readsOnly_reading (f : σ → Except Error α) : (reading f).ReadsOnly := fun _ => rfl

theorem ReadsOnly.atomic {act : Action σ α} (h : act.ReadsOnly) : act.Atomic := fun s _ _ => h s

theorem atomic_updating {f : σ → Except Error α × σ} (h : ∀ s e, (f s).1 = .error e → (f s).2 = s) :
    (updating f).Atomic := h

theorem ReadsOnly.bind {act : Action σ α} {next : α → Action σ β} (h : act.ReadsOnly)
    (hnext : ∀ a, (next a).ReadsOnly) : (act >>= next).ReadsOnly := by
  intro s
  have hs := h s
  rw [runOn_bind]
  rcases hrun : act.runOn s with ⟨e | a, t⟩
  · rwa [hrun] at hs
  · rw [hrun] at hs
    obtain rfl : t = s := hs
    exact hnext a t

/-- What comes after a read may change something, once it cannot fail any more. -/
theorem ReadsOnly.bind_atomic {act : Action σ α} {next : α → Action σ β} (h : act.ReadsOnly)
    (hnext : ∀ a, (next a).Atomic) : (act >>= next).Atomic := by
  intro s e he
  have hs := h s
  rw [runOn_bind] at he ⊢
  rcases hrun : act.runOn s with ⟨d | a, t⟩
  · rwa [hrun] at hs
  · rw [hrun] at hs he
    obtain rfl : t = s := hs
    exact hnext a t e he

theorem Atomic.bind_pure {act : Action σ α} (h : act.Atomic) (f : α → β) :
    (act >>= fun a => pure (f a)).Atomic := by
  rw [← map_eq_pure_bind]
  intro s e he
  rw [runOn_map] at he ⊢
  cases hact : (act.runOn s).1 with
  | error d => exact h s d hact
  | ok a =>
    rw [hact] at he
    exact nomatch he

end Action

/-! ## Sources -/

/-- The reads of a collection only read, and its writes are atomic. -/
structure Collection.Transacts (c : Collection σ) : Prop where
  list : ∀ caller filter projection, (c.list caller filter projection).ReadsOnly
  create : ∀ caller records, (c.create caller records).Atomic
  update : ∀ caller filter patch, (c.update caller filter patch).Atomic
  delete : ∀ caller filter, (c.delete caller filter).Atomic
  aggregate : ∀ caller filter aggregation limit, (c.aggregate caller filter aggregation limit).ReadsOnly
  execute : ∀ caller action values filter, (c.execute caller action values filter).ReadsOnly
  getForm : ∀ caller action values filter, (c.getForm caller action values filter).ReadsOnly

structure Source.Transacts (s : Source σ) : Prop where
  collections : ∀ c ∈ s.collections, c.Transacts
  renderChart : ∀ caller name, (s.renderChart caller name).ReadsOnly

namespace Memory

theorem atomic_writing (name : String) (write : Store → Except Error (α × List Record)) :
    (writing name write).Atomic := by
  refine Action.atomic_updating fun store e he => ?_
  revert he
  cases write store with
  | ok answer => exact nofun
  | error e => exact fun _ => rfl

theorem transacts_collection (db : Database) (name : String) (schema : CollectionSchema) :
    (collection db name schema).Transacts where
  list _ _ _ := Action.readsOnly_reading _
  create _ _ := atomic_writing _ _
  update _ _ _ := atomic_writing _ _
  delete _ _ := atomic_writing _ _
  aggregate _ _ _ _ := Action.readsOnly_reading _
  execute _ _ _ _ := Action.readsOnly_throw _
  getForm _ _ _ _ := Action.readsOnly_pure _

theorem transacts_source (db : Database) : (source db).Transacts where
  collections c hc := by
    obtain ⟨e, _, rfl⟩ := List.mem_map.1 hc
    exact transacts_collection db e.1 e.2
  renderChart caller name := by
    unfold source
    dsimp only
    split
    · next chart _ => exact Action.readsOnly_pure chart
    · exact Action.readsOnly_throw _

end Memory

end QueryLayer
