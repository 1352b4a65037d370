import QueryLayer.Proofs.Memory.Run

/-! # Sources that keep an invariant

A source keeps an invariant when all its operations do. A memory source keeps its stores reachable.
-/
namespace QueryLayer

namespace Action

variable {σ α β : Type} {I : σ → Prop}

/-- The invariant holds at every pause, at the end and when the action is given up. -/
def Keeps (I : σ → Prop) (act : Action σ α) : Prop := act.Yields I (fun _ => True) fun _ => True

theorem keeps_pure (a : α) : (pure a : Action σ α).Keeps I := yields_pure trivial

theorem keeps_throw (e : Error) : (throw e : Action σ α).Keeps I := yields_throw trivial

theorem keeps_reading (f : σ → Except Error α) : (reading f).Keeps I :=
  yields_reading (fun _ _ _ _ => trivial) fun _ _ _ _ => trivial

theorem keeps_updating {f : σ → Except Error α × σ} (hf : ∀ s, I s → I (f s).2) : (updating f).Keeps I :=
  yields_updating hf

theorem Yields.keeps {P : α → Prop} {E : Error → Prop} {act : Action σ α} (h : act.Yields I P E) :
    act.Keeps I := h.mono (fun _ _ => trivial) fun _ _ => trivial

theorem Keeps.bind {act : Action σ α} {next : α → Action σ β} (h : act.Keeps I)
    (hnext : ∀ a, (next a).Keeps I) : (act >>= next).Keeps I := Yields.bind h fun a _ => hnext a

end Action

variable {σ : Type}

structure Collection.Keeps (I : σ → Prop) (c : Collection σ) : Prop where
  list : ∀ caller filter projection, (c.list caller filter projection).Keeps I
  create : ∀ caller records, (c.create caller records).Keeps I
  update : ∀ caller filter patch, (c.update caller filter patch).Keeps I
  delete : ∀ caller filter, (c.delete caller filter).Keeps I
  aggregate : ∀ caller filter aggregation limit, (c.aggregate caller filter aggregation limit).Keeps I
  execute : ∀ caller action values filter, (c.execute caller action values filter).Keeps I
  getForm : ∀ caller action values filter, (c.getForm caller action values filter).Keeps I

structure Source.Keeps (I : σ → Prop) (s : Source σ) : Prop where
  collections : ∀ c ∈ s.collections, c.Keeps I
  renderChart : ∀ caller name, (s.renderChart caller name).Keeps I

theorem Source.keeps_empty (I : σ → Prop) : (Source.empty : Source σ).Keeps I where
  collections _ h := by cases h
  renderChart _ _ := Action.keeps_throw _

namespace Memory

variable {db : Database} {name : String} {schema : CollectionSchema}

theorem collection_keeps_reachable (hs : db.schemas.get? name = some schema) :
    (collection db name schema).Keeps (Reachable db) where
  list _ _ _ := Action.keeps_reading _
  create caller records := by
    refine Action.keeps_updating fun store h => ?_
    have hafter := h.after (.create caller name records)
    rwa [after_create hs] at hafter
  update caller filter patch := by
    refine Action.keeps_updating fun store h => ?_
    have hafter := h.after (.update caller name filter patch)
    rwa [after_update hs] at hafter
  delete caller filter := by
    refine Action.keeps_updating fun store h => ?_
    have hafter := h.after (.delete caller name filter)
    rwa [after_delete hs] at hafter
  aggregate _ _ _ _ := Action.keeps_reading _
  execute _ _ _ _ := Action.keeps_throw _
  getForm _ _ _ _ := Action.keeps_pure _

theorem source_keeps_reachable (db : Database) : (source db).Keeps (Reachable db) where
  collections c hc := by
    obtain ⟨d, hd, rfl⟩ := List.mem_map.1 hc
    exact collection_keeps_reachable (Dict.get?_eq_some_iff.2 hd)
  renderChart caller name := by
    unfold source
    dsimp only
    split
    · next chart _ => exact Action.keeps_pure chart
    · exact Action.keeps_throw _

end Memory

end QueryLayer
