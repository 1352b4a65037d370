import QueryLayer.Data.Entries

/-! # Dictionaries

A finite map from names to values, kept in name order. Two dictionaries that answer every name
alike are equal.
-/
namespace QueryLayer

structure Dict (α : Type) where
  entries : List (String × α)
  sorted : Entries.Sorted entries

namespace Dict

variable {α β : Type}

instance [DecidableEq α] : DecidableEq (Dict α) := fun a b =>
  if h : a.entries = b.entries then
    isTrue (by cases a; cases b; cases h; rfl)
  else isFalse fun heq => h (heq ▸ rfl)

def empty : Dict α := ⟨[], Entries.sorted_nil⟩

instance : EmptyCollection (Dict α) := ⟨empty⟩
instance : Inhabited (Dict α) := ⟨empty⟩

def get? (d : Dict α) (key : String) : Option α := Entries.get? d.entries key

def contains (d : Dict α) (key : String) : Bool := (d.get? key).isSome

def insert (d : Dict α) (key : String) (value : α) : Dict α :=
  ⟨Entries.insert key value d.entries, Entries.sorted_insert d.sorted key value⟩

def erase (d : Dict α) (key : String) : Dict α :=
  ⟨Entries.erase key d.entries, Entries.sorted_erase d.sorted key⟩

/-- Later entries replace earlier ones of the same name. -/
def ofList (entries : List (String × α)) : Dict α :=
  ⟨Entries.ofList entries, Entries.sorted_ofList entries⟩

def keys (d : Dict α) : List String := d.entries.map Prod.fst

def values (d : Dict α) : List α := d.entries.map Prod.snd

def isEmpty (d : Dict α) : Bool := d.entries.isEmpty

def mapEntries (d : Dict α) (f : String × α → β) : Dict β :=
  ⟨d.entries.map fun e => (e.1, f e), Entries.sorted_map d.sorted f⟩

def map (d : Dict α) (f : α → β) : Dict β := d.mapEntries fun e => f e.2

def filter (d : Dict α) (p : String × α → Bool) : Dict α :=
  ⟨d.entries.filter p, Entries.sorted_filter d.sorted p⟩

/-- Changes the value under `key`, if there is one. -/
def modify (d : Dict α) (key : String) (f : α → α) : Dict α :=
  d.mapEntries fun e => if e.1 = key then f e.2 else e.2

@[ext] theorem ext {a b : Dict α} (h : ∀ key, a.get? key = b.get? key) : a = b := by
  obtain ⟨as, ha⟩ := a
  obtain ⟨bs, hb⟩ := b
  obtain rfl : as = bs := Entries.ext_get? ha hb h
  rfl

@[simp] theorem get?_empty (key : String) : (∅ : Dict α).get? key = none := rfl

@[simp] theorem get?_insert_self (d : Dict α) (key : String) (value : α) :
    (d.insert key value).get? key = some value := Entries.get?_insert_self ..

theorem get?_insert_of_ne (d : Dict α) {key other : String} (h : key ≠ other) (value : α) :
    (d.insert key value).get? other = d.get? other := Entries.get?_insert_of_ne h ..

theorem get?_insert (d : Dict α) (key other : String) (value : α) :
    (d.insert key value).get? other = if key = other then some value else d.get? other :=
  Entries.get?_insert ..

@[simp] theorem get?_erase_self (d : Dict α) (key : String) : (d.erase key).get? key = none :=
  Entries.get?_erase_self ..

theorem get?_erase_of_ne (d : Dict α) {key other : String} (h : key ≠ other) :
    (d.erase key).get? other = d.get? other := Entries.get?_erase_of_ne h _

theorem get?_eq_some_iff {d : Dict α} {key : String} {value : α} :
    d.get? key = some value ↔ (key, value) ∈ d.entries := Entries.get?_eq_some_iff d.sorted

theorem mem_keys_iff {d : Dict α} {key : String} : key ∈ d.keys ↔ (d.get? key).isSome := by
  rw [Option.isSome_iff_ne_none]
  exact Decidable.not_not.symm.trans (not_congr Entries.get?_eq_none_iff.symm)

theorem nodup_keys (d : Dict α) : d.keys.Nodup := by
  refine List.Pairwise.imp (fun h heq => ?_) (List.pairwise_map.2 d.sorted)
  exact String.lt_irrefl _ (heq ▸ h)

@[simp] theorem get?_mapEntries (d : Dict α) (f : String × α → β) (key : String) :
    (d.mapEntries f).get? key = (d.get? key).map fun v => f (key, v) := by
  obtain ⟨es, hs⟩ := d
  simp only [get?, mapEntries]
  clear hs
  induction es with
  | nil => rfl
  | cons e rest ih =>
    obtain ⟨k, v⟩ := e
    simp only [List.map_cons, Entries.get?_cons, ih]
    split
    · next h => subst h; rfl
    · rfl

@[simp] theorem keys_mapEntries (d : Dict α) (f : String × α → β) :
    (d.mapEntries f).keys = d.keys := by
  simp [keys, mapEntries]

end Dict

end QueryLayer
