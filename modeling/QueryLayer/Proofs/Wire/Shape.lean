import QueryLayer.Proofs.Value.Reading
import QueryLayer.Proofs.Wire.Query
import QueryLayer.Wire.Shape

/-! # Shapes that pass nothing by

Where a reader asks for every part of a value, it sees the value: `Shape.Covers.read?_written`.
-/
namespace QueryLayer

open Value

namespace Wire

/-- The shape asks for every part of the value. -/
inductive Shape.Covers : Shape → Value → Prop
  | any (v : Value) : Covers .any v
  | choice (s : String) : Covers .choice (.text s)
  | items {each : Shape} {items : List Value} : (∀ v ∈ items, Covers each v) →
    Covers (.items each) (.array items)
  | object {known : List (String × Shape)} {members : Record} : Entries.Sorted members →
    (known.map Prod.fst).Nodup → (∀ m ∈ members, (Entries.get? known m.1).isSome) →
    (∀ m ∈ members, ∀ shape, Entries.get? known m.1 = some shape → Covers shape m.2) →
    Covers (.object known) (.object members)
  | gathered {known : List (String × Shape)} {members : Record} : Entries.Sorted members →
    (known.map Prod.fst).Nodup → (∀ m ∈ members, (Entries.get? known m.1).isSome) →
    (∀ m ∈ members, ∀ shape, Entries.get? known m.1 = some shape → Covers shape m.2) →
    Covers (.gathered known) (.object members)

/-- The members of an object written down. -/
def writtenMembers (members : Record) : List (String × Written) := members.map fun m => (m.1, m.2.written)

theorem named?_membersWrittenBy (members : Record) :
    named? (membersWrittenBy some members) = some (writtenMembers members) := by
  induction members with
  | nil => rfl
  | cons m members ih =>
    obtain ⟨name, v⟩ := m
    rw [membersWrittenBy, named?, ih]
    rfl

/-- The members of one name among those that are named once. -/
theorem filter_writtenMembers {members : Record} (h : (members.map Prod.fst).Nodup) (name : String) :
    (writtenMembers members).filter (fun m => m.1 = name) =
      ((Entries.get? members name).map fun v => (name, v.written)).toList := by
  induction members with
  | nil => rfl
  | cons m members ih =>
    obtain ⟨key, v⟩ := m
    obtain ⟨hnew, hrest⟩ := List.nodup_cons.1 h
    have hcons : writtenMembers ((key, v) :: members) = (key, v.written) :: writtenMembers members := rfl
    rw [hcons, List.filter_cons, ih hrest, Entries.get?_cons]
    by_cases hkey : key = name
    · subst hkey
      have hnone : Entries.get? members key = none := Entries.get?_eq_none_iff.2 hnew
      simp [hnone]
    · simp [hkey]

/-- The members that are asked for, of those that are there. -/
def kept (known : List (String × Shape)) (members : Record) : Record :=
  present (known.map fun e => (e.1, Entries.get? members e.1))

theorem readMembers?_written {members : Record} (h : (members.map Prod.fst).Nodup) {room : Nat}
    {known : List (String × Shape)}
    (hread : ∀ e ∈ known, ∀ v, Entries.get? members e.1 = some v → e.2.read? room v.written = some v) :
    readMembers? room (writtenMembers members) known = some (kept known members) := by
  induction known with
  | nil => rfl
  | cons e known ih =>
    obtain ⟨name, shape⟩ := e
    rw [readMembers?, ih fun e he => hread e (List.mem_cons_of_mem _ he)]
    simp only [Option.bind_eq_bind, Option.bind_some, filter_writtenMembers h]
    cases hget : Entries.get? members name with
    | none => simp [kept, present, hget]
    | some v =>
      have hseen := hread (name, shape) List.mem_cons_self v hget
      simp [kept, present, hget, hseen]

theorem get?_kept (known : List (String × Shape)) (members : Record) (name : String) :
    Entries.get? (kept known members) name =
      if (Entries.get? known name).isSome then Entries.get? members name else none := by
  induction known with
  | nil => rfl
  | cons e known ih =>
    obtain ⟨key, shape⟩ := e
    rw [Entries.get?_cons]
    cases hget : Entries.get? members key with
    | none =>
      have hskip : kept ((key, shape) :: known) members = kept known members := by
        simp [kept, present, hget]
      rw [hskip, ih]
      by_cases hkey : key = name
      · subst hkey
        simp [hget]
      · simp [hkey]
    | some v =>
      have htake : kept ((key, shape) :: known) members = (key, v) :: kept known members := by
        simp [kept, present, hget]
      rw [htake, Entries.get?_cons, ih]
      by_cases hkey : key = name
      · subst hkey
        simp [hget]
      · simp [hkey]

/-- Members that are all known are all kept. -/
theorem ofList_kept {known : List (String × Shape)} {members : Record} (hs : Entries.Sorted members)
    (hknown : (known.map Prod.fst).Nodup) (hall : ∀ m ∈ members, (Entries.get? known m.1).isSome) :
    Entries.ofList (kept known members) = members := by
  have hsub := map_fst_present_sublist (known.map fun e => (e.1, Entries.get? members e.1))
  rw [List.map_map] at hsub
  have hnames : ((kept known members).map Prod.fst).Nodup := hknown.sublist hsub
  refine Entries.ext_get? (Entries.sorted_ofList _) hs fun name => ?_
  rw [Entries.get?_ofList hnames, get?_kept]
  split
  · rfl
  · next hunknown =>
    cases hget : Entries.get? members name with
    | none => rfl
    | some v => exact absurd (hall (name, v) (Entries.get?_eq_some_mem hget)) hunknown

/-- There is nothing beside members that are all known. -/
theorem isWhole_unknown {known : List (String × Shape)} {members : Record} (room : Nat)
    (hall : ∀ m ∈ members, (Entries.get? known m.1).isSome) :
    isWhole room ((writtenMembers members).filter fun m => !known.any (·.1 = m.1)) = true := by
  have hnone : (writtenMembers members).filter (fun m => !known.any (·.1 = m.1)) = [] := by
    refine List.filter_eq_nil_iff.2 fun w hw => ?_
    obtain ⟨m, hm, rfl⟩ := List.mem_map.1 hw
    obtain ⟨shape, hshape⟩ := Option.isSome_iff_exists.1 (hall m hm)
    have hany : known.any (fun e => e.1 = m.1) = true :=
      List.any_eq_true.2 ⟨_, Entries.get?_eq_some_mem hshape, by simp⟩
    simp [hany]
  rw [hnone]
  rfl

/-! ## Seeing the whole -/

theorem value?_written_of_itemValues? {items : List Value} {room : Nat}
    (h : Written.itemValues? room (itemsWrittenBy some items) = some items) :
    ∀ v ∈ items, v.written.value? room = some v := by
  induction items with
  | nil => simp
  | cons v items ih =>
    obtain ⟨u, hu, h⟩ := Option.bind_eq_some_iff.1 h
    obtain ⟨rest, hrest, h⟩ := Option.bind_eq_some_iff.1 h
    obtain ⟨rfl, rfl⟩ := List.cons.inj (Option.some.inj h)
    exact List.forall_mem_cons.2 ⟨hu, ih hrest⟩

theorem value?_written_of_memberValues? {members : Record} {room : Nat}
    (h : Written.memberValues? room (membersWrittenBy some members) = some members) :
    ∀ m ∈ members, m.2.written.value? room = some m.2 := by
  induction members with
  | nil => simp
  | cons m members ih =>
    obtain ⟨name, v⟩ := m
    obtain ⟨u, hu, h⟩ := Option.bind_eq_some_iff.1 h
    obtain ⟨rest, hrest, h⟩ := Option.bind_eq_some_iff.1 h
    obtain ⟨hm, rfl⟩ := List.cons.inj (Option.some.inj h)
    obtain rfl : u = v := (Prod.mk.inj hm).2
    exact List.forall_mem_cons.2 ⟨hu, ih hrest⟩

theorem mapM_read?_written {each : Shape} {items : List Value} {room : Nat}
    (h : ∀ v ∈ items, each.read? room v.written = some v) :
    (itemsWrittenBy some items).mapM (fun w => each.read? room w) = some items := by
  induction items with
  | nil => rfl
  | cons v items ih =>
    have hv : each.read? room (v.writtenBy some) = some v := h v List.mem_cons_self
    rw [itemsWrittenBy, List.mapM_cons, hv, ih fun u hu => h u (List.mem_cons_of_mem v hu)]
    rfl

/-- Members that are seen whole by the shapes that ask for them. -/
theorem read?_of_known {known : List (String × Shape)} {members : Record} {room : Nat}
    (hknown : (known.map Prod.fst).Nodup)
    (hvalues : ∀ m ∈ members, m.2.written.value? room = some m.2)
    (hread : ∀ m ∈ members, ∀ shape, Entries.get? known m.1 = some shape →
      m.2.written.value? room = some m.2 → shape.read? room m.2.written = some m.2) :
    ∀ e ∈ known, ∀ v, Entries.get? members e.1 = some v → e.2.read? room v.written = some v := by
  intro e he v hget
  have hmem : (e.1, v) ∈ members := Entries.get?_eq_some_mem hget
  exact hread (e.1, v) hmem e.2 (Entries.get?_of_mem_of_nodup hknown he) (hvalues (e.1, v) hmem)

/-- A reader that asks for everything sees the value. -/
theorem Shape.Covers.read?_written {shape : Shape} {v : Value} (h : shape.Covers v) {room : Nat}
    (hv : v.written.value? room = some v) : shape.read? room v.written = some v := by
  induction h generalizing room with
  | any v => exact hv
  | choice s => rfl
  | @items each items _ ih =>
    obtain ⟨inner, rfl, hitems⟩ := itemValues?_of_value? hv
    have hvalues := value?_written_of_itemValues? hitems
    have hread := mapM_read?_written fun v hv => ih v hv (hvalues v hv)
    change ((itemsWrittenBy some items).mapM fun w => each.read? inner w).map Value.array = _
    rw [hread]
    rfl
  | @object known members hs hknown hall _ ih =>
    obtain ⟨inner, rfl, hmembers⟩ := Value.memberValues?_of_value? hv
    have hknowns := read?_of_known hknown (value?_written_of_memberValues? hmembers)
      fun m hm shape hshape hm' => ih m hm shape hshape hm'
    have hread := readMembers?_written hs.nodup hknowns
    change (do
      let named ← named? (membersWrittenBy some members)
      let found ← readMembers? inner named known
      pure (Value.object (Entries.ofList found))) = _
    rw [named?_membersWrittenBy]
    simp only [Option.bind_eq_bind, Option.bind_some, hread, ofList_kept hs hknown hall]
    rfl
  | @gathered known members hs hknown hall _ ih =>
    obtain ⟨inner, rfl, hmembers⟩ := Value.memberValues?_of_value? hv
    have hknowns := read?_of_known hknown (value?_written_of_memberValues? hmembers)
      fun m hm shape hshape hm' => ih m hm shape hshape hm'
    have hread := readMembers?_written hs.nodup hknowns
    have hwhole := isWhole_unknown inner hall
    change (do
      let named ← named? (membersWrittenBy some members)
      let found ← readMembers? inner named known
      if isWhole inner (named.filter fun m => !known.any (·.1 = m.1)) then
        pure (Value.object (Entries.ofList found))
      else none) = _
    rw [named?_membersWrittenBy]
    simp only [Option.bind_eq_bind, Option.bind_some, hread, ofList_kept hs hknown hall, hwhole]
    rfl

end Wire

end QueryLayer
