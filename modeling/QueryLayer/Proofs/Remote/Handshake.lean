import QueryLayer.Proofs.Remote.Exchange
import QueryLayer.Proofs.Wire.Schema

/-! # What a handshake tells

A client that connects to a server knows the collections of its source by their names, each with its schema
as it is read. That is the schema itself unless a default or the value of a validation rule is null, which
is read as none: `Client.handshake_source`.
-/
namespace QueryLayer

open Wire

variable {σ : Type}

namespace Handshake

/-- A handshake as it is read. -/
def asRead (h : Handshake) : Handshake := { h with schemas := h.schemas.map CollectionSchema.asRead }

/-- No schema has a null that could be left out. -/
def NullFree (h : Handshake) : Prop := ∀ e ∈ h.schemas.entries, e.2.NullFree

theorem asRead_eq_self_iff {h : Handshake} : h.asRead = h ↔ h.NullFree := by
  have hschemas : h.asRead = h ↔ h.schemas.map CollectionSchema.asRead = h.schemas :=
    ⟨fun heq => congrArg schemas heq, fun heq => by rw [asRead, heq]⟩
  rw [hschemas, Dict.map_eq_self_iff]
  exact forall₂_congr fun e _ => CollectionSchema.asRead_eq_self_iff

theorem decodeCharts_encodeCharts (charts : Dict Unit) : decodeCharts (encodeCharts charts) = .ok charts := by
  have hs : Entries.Sorted [("charts", some (texts charts.keys))] :=
    Entries.sorted_of_names ["charts"] rfl (by decide)
  have hnames : ((some (texts charts.keys)).map (list text)).getD (.ok []) = .ok charts.keys :=
    list_of_forall fun s _ => (text_text s).1
  have hcharts : Dict.ofList (charts.keys.map fun name => (name, ())) = charts := by
    rw [Dict.keys, List.map_map]
    exact (charts.ofList_map_entries id).trans (Dict.map_eq_self_iff.2 fun _ _ => rfl)
  refine fields_of_run [("charts", some (texts charts.keys))] ?_
  rw [run_optional "charts" hs rfl hnames, hcharts]
  rfl

def entries (h : Handshake) : List (String × Option Value) :=
  [("collectionSchemas", some (h.schemas.encode CollectionSchema.encode)),
    ("dataSourceSchema", some (encodeCharts h.charts))]

theorem decode_encode (h : Handshake) : decode h.encode = .ok h.asRead := by
  have hs : Entries.Sorted h.entries :=
    Entries.sorted_of_names ["collectionSchemas", "dataSourceSchema"] rfl (by decide)
  have hschemas : dict CollectionSchema.decode (h.schemas.encode CollectionSchema.encode) =
      .ok (h.schemas.map CollectionSchema.asRead) :=
    dict_encode fun e _ => e.2.decode_encode
  refine fields_of_run h.entries ?_
  rw [run_required "dataSourceSchema" hs rfl (decodeCharts_encodeCharts h.charts),
    run_required "collectionSchemas" hs rfl hschemas]
  rfl

/-- A handshake is read as itself where it has no such null. -/
theorem decode_encode_iff {h : Handshake} : decode h.encode = .ok h ↔ h.NullFree := by
  rw [decode_encode, ← asRead_eq_self_iff]
  exact ⟨Except.ok.inj, congrArg Except.ok⟩

/-- The request for a handshake. -/
def request (definition : Value) : Request := ⟨definition, none, Method.handshake.name, .empty⟩

theorem sendable_empty : Arguments.empty.Sendable := ⟨nofun, nofun⟩

/-- Collections of different names are told of by their names. -/
theorem get?_ofSource {source : Source σ} (hnames : source.names.Nodup) {c : Collection σ}
    (hc : c ∈ source.collections) : (ofSource source).schemas.get? c.name = some c.schema := by
  have hnodup : ((source.collections.map fun c => (c.name, c.schema)).map Prod.fst).Nodup := by
    rw [List.map_map]
    exact hnames
  exact (Entries.get?_ofList hnodup c.name).trans
    (Entries.get?_of_mem_of_nodup hnodup (List.mem_map_of_mem hc))

theorem perm_ofSource {source : Source σ} (hnames : source.names.Nodup) :
    (ofSource source).schemas.entries.Perm (source.collections.map fun c => (c.name, c.schema)) := by
  refine Entries.perm_ofList ?_
  rw [List.map_map]
  exact hnames

theorem nullFree_ofSource {source : Source σ} (hnames : source.names.Nodup) :
    (ofSource source).NullFree ↔ ∀ c ∈ source.collections, c.schema.NullFree := by
  unfold NullFree
  simp only [(perm_ofSource hnames).mem_iff, List.forall_mem_map]

end Handshake

/-! ## Clients -/

namespace Server

/-- A request for a handshake reaches the server, which finds a source, and the answer comes back. -/
structure Greets (server : Server σ) (maxBody : Nat) (definition : Value) (source : Source σ) (s t : σ) :
    Prop where
  found : (server.sourceFor definition).runOn s = (.ok source, t)
  request : (Handshake.request definition).encode.ReadsBack
  fits : (Handshake.request definition).encode.compact.utf8ByteSize ≤ maxBody
  answer : (Handshake.ofSource source).encode.ReadsBack

variable {server : Server σ} {maxBody : Nat} {definition : Value} {source : Source σ} {s t : σ}

theorem Greets.runOn_handshake (h : server.Greets maxBody definition source s t) :
    (Client.ofServer server maxBody definition).handshake.runOn s =
      (.ok (Handshake.ofSource source).asRead, t) := by
  let told : Action σ Handshake := pure (Handshake.ofSource source).asRead
  have hanswer : source.answer .handshake none .empty =
      (fun _ => (Handshake.ofSource source).encode) <$> told := by
    rw [map_pure]
    rfl
  refine Client.runOn_call Handshake.sendable_empty h.request h.fits h.found hanswer fun x hx => ?_
  obtain rfl : (Handshake.ofSource source).asRead = x := Except.ok.inj hx
  exact ⟨h.answer, (Handshake.ofSource source).decode_encode⟩

end Server

namespace Client

theorem catalog_source (client : Client σ) (h : Handshake) : (client.source h).catalog = h.schemas.get? := by
  funext name
  unfold Source.catalog Source.collection? source
  dsimp only
  rw [Source.find?_named (fun _ => rfl) h.schemas.entries name, Option.map_map]
  exact Option.map_id'

theorem names_source (client : Client σ) (h : Handshake) : (client.source h).names = h.schemas.keys := by
  unfold Source.names source Dict.keys
  rw [List.map_map]
  rfl

variable {server : Server σ} {maxBody : Nat} {definition : Value} {source : Source σ} {s t : σ}

/-- A handshake is read as itself exactly when no column of its source has a null that could be left out.
A client then knows the collections of the source with their schemas, and otherwise with their schemas as
they are read. -/
theorem handshake_source (hnames : source.names.Nodup) :
    (Handshake.decode (Handshake.ofSource source).encode = .ok (Handshake.ofSource source) ↔
      ∀ c ∈ source.collections, c.schema.NullFree) ∧
    (server.Greets maxBody definition source s t →
      ∃ told, (ofServer server maxBody definition).handshake.runOn s = (.ok told, t) ∧
        ((ofServer server maxBody definition).source told).names.Perm source.names ∧
        (∀ c ∈ source.collections, ((ofServer server maxBody definition).source told).catalog c.name =
          some c.schema.asRead) ∧
        ((∀ c ∈ source.collections, ((ofServer server maxBody definition).source told).catalog c.name =
          some c.schema) ↔ ∀ c ∈ source.collections, c.schema.NullFree)) := by
  constructor
  · rw [Handshake.decode_encode_iff, Handshake.nullFree_ofSource hnames]
  intro h
  have htold : ∀ c ∈ source.collections,
      ((ofServer server maxBody definition).source (Handshake.ofSource source).asRead).catalog c.name =
        some c.schema.asRead := by
    intro c hc
    rw [catalog_source, Handshake.asRead, Dict.map, Dict.get?_mapEntries, Handshake.get?_ofSource hnames hc]
    rfl
  refine ⟨_, h.runOn_handshake, ?_, htold, ?_⟩
  · rw [names_source, Handshake.asRead, Dict.map, Dict.keys_mapEntries]
    have hperm := (Handshake.perm_ofSource hnames).map Prod.fst
    rw [List.map_map] at hperm
    exact hperm
  · refine forall₂_congr fun c hc => ?_
    rw [htold c hc, Option.some.injEq]
    exact CollectionSchema.asRead_eq_self_iff

end Client

/-! ## A library -/

namespace Lending

def key : Column := ((Column.ofType .number).withOperators [.equal, .oneOf]).primaryKey

def books : CollectionSchema :=
  let title := { ((Column.ofType .string).withOperators [.like, .equal]).withDefault (.text "untitled") with
    validation := [⟨.longerThan, some (.nat 0)⟩, ⟨.present, none⟩] }
  let state := { ((Column.ofType .enum).withEnumValues ["in", "out"]).readOnly with isSortable := false }
  let columns := (CollectionSchema.empty.withField "id" (.column key)).withField "author_id"
    (.column (.ofType .number)) |>.withField "title" (.column title) |>.withField "state" (.column state)
  let related := columns.withField "author" (.relation (.manyToOne "people" "author_id" "id"))
    |>.withField "blurb" (.relation (.oneToOne "blurbs" "book_id" "id"))
    |>.withField "tags" (.relation ⟨.manyToMany, "tags", some "tag_id", some "id", some "book_id",
      some "id", some "taggings"⟩)
  { related.withAction "lend" ⟨.bulk, false, true⟩ with searchable := true, segments := ["new", "old"] }

def people : CollectionSchema :=
  (CollectionSchema.empty.withField "id" (.column key)).withField "books"
    (.relation (.oneToMany "books" "author_id" "id"))

def database : Database := ⟨Dict.ofList [("books", books), ("people", people)], Dict.ofList [("loans", .nat 7)]⟩

theorem handshake_lending :
    (Memory.source database).names.Nodup ∧
    (Server.bound (Memory.source database)).Greets 1000 .null (Memory.source database) database.emptyStore
      database.emptyStore ∧
    Handshake.decode (Handshake.ofSource (Memory.source database)).encode =
      .ok (Handshake.ofSource (Memory.source database)) ∧
    ∃ told, (Client.ofServer (Server.bound (Memory.source database)) 1000 .null).handshake.runOn
        database.emptyStore = (.ok told, database.emptyStore) ∧
      ∀ c ∈ (Memory.source database).collections,
        ((Client.ofServer (Server.bound (Memory.source database)) 1000 .null).source told).catalog c.name =
          some c.schema := by
  have hnames : (Memory.source database).names.Nodup := by decide +kernel
  have hgreets : (Server.bound (Memory.source database)).Greets 1000 .null (Memory.source database)
      database.emptyStore database.emptyStore :=
    ⟨rfl, by decide +kernel, by decide +kernel, by decide +kernel⟩
  have hfree : ∀ c ∈ (Memory.source database).collections, c.schema.NullFree := by decide +kernel
  obtain ⟨hread, hclient⟩ := Client.handshake_source hnames
  obtain ⟨told, hrun, -, -, hsame⟩ := hclient hgreets
  exact ⟨hnames, hgreets, hread.2 hfree, told, hrun, hsame.2 hfree⟩

/-- A column whose default is null, and one that has none. -/
def blank : Database :=
  let column := Column.ofType .string
  ⟨Dict.empty.insert "notes" ((CollectionSchema.empty.withField "a" (.column (column.withDefault .null))).withField
    "b" (.column column)), ∅⟩

/-- The default that is null is not told. -/
theorem not_decode_encode_blank :
    ¬ ∀ db : Database, Handshake.decode (Handshake.ofSource (Memory.source db)).encode =
      .ok (Handshake.ofSource (Memory.source db)) := by
  intro h
  have hread := h blank
  revert hread
  decide +kernel

end Lending

end QueryLayer
