import Mathlib.Data.List.Nodup
import QueryLayer.Proofs.Remote.Definitions
import QueryLayer.Proofs.Remote.RoundTrip

/-! # Definitions apart

A server that serves by definition keeps the sources of different definitions apart, as long as
digests tell them apart. What it answers to the requests for one definition is a function of these
requests alone, whatever else is asked for in between: they all go to one instance, which is built
once. The order in which the members of a definition are sent makes no difference, since values list
them by name. Main statement: `Server.keptApart_byDefinition`.
-/
namespace QueryLayer

variable {σ : Type}

namespace BodyReader

/-- The definition that a body names, if it can be read. -/
def definition? (reader : BodyReader) (body : ByteArray) : Option Value :=
  (reader.read body).toOption.map Request.definition

def asksFor (reader : BodyReader) (definition : Value) (body : ByteArray) : Bool :=
  reader.definition? body = some definition

/-- The bodies that ask for a definition. -/
def asked (reader : BodyReader) (definition : Value) (bodies : List ByteArray) : List ByteArray :=
  bodies.filter (reader.asksFor definition)

variable {reader : BodyReader} {body : ByteArray} {definition : Value}

theorem definition?_eq_some_iff :
    reader.definition? body = some definition ↔
      ∃ r, reader.read body = .ok r ∧ r.definition = definition := by
  cases h : reader.read body <;> simp [definition?, h, Except.toOption]

theorem asksFor_iff :
    reader.asksFor definition body = true ↔
      ∃ r, reader.read body = .ok r ∧ r.definition = definition := by
  rw [asksFor, decide_eq_true_iff, definition?_eq_some_iff]

variable {bodies : List ByteArray}

theorem asksFor_of_mem_asked (h : body ∈ reader.asked definition bodies) :
    reader.asksFor definition body :=
  (List.mem_filter.1 h).2

theorem asked_cons_of_asksFor (h : reader.asksFor definition body = true) :
    reader.asked definition (body :: bodies) = body :: reader.asked definition bodies :=
  List.filter_cons_of_pos h

theorem asked_cons_of_not (h : reader.asksFor definition body = false) :
    reader.asked definition (body :: bodies) = reader.asked definition bodies :=
  List.filter_cons_of_neg (ne_true_of_eq_false h)

/-- No other definition that is asked for has the digest of this one. -/
def Unmistaken (reader : BodyReader) (definition : Value) (bodies : List ByteArray) : Prop :=
  ∀ body ∈ bodies, ∀ e ∈ reader.definition? body, e.digest = definition.digest → e = definition

end BodyReader

namespace Server

variable (server : Server σ) (reader : BodyReader)

/-- Bodies that are sent one after the other, each with its answer. -/
def exchanges : List ByteArray → σ → List (ByteArray × Except Error Value)
  | [], _ => []
  | body :: bodies, w =>
    let o := (server.handleBody reader body).runOn w
    (body, o.1) :: exchanges bodies o.2

/-- The state after bodies were sent. -/
def after (bodies : List ByteArray) (w : σ) : σ :=
  bodies.foldl (fun w body => ((server.handleBody reader body).runOn w).2) w

end Server

namespace Factories

variable (f : Factories) (reader : BodyReader)

/-- The outcome of a body for a definition whose instance is held, or not built yet. -/
def exchange (body : ByteArray) (held : Option MemoryInstance) :
    Except Error Value × Option MemoryInstance :=
  match reader.read body with
  | .ok r => f.turn r held
  | .error e => (.error e, held)

/-- Bodies for one definition, each with its answer. -/
def turns : List ByteArray → Option MemoryInstance → List (ByteArray × Except Error Value)
  | [], _ => []
  | body :: bodies, held =>
    (body, (f.exchange reader body held).1) :: turns bodies (f.exchange reader body held).2

/-- The instance that is held after bodies for its definition. -/
def heldAfter (bodies : List ByteArray) (held : Option MemoryInstance) : Option MemoryInstance :=
  bodies.foldl (fun held body => (f.exchange reader body held).2) held

variable {f reader} {i : MemoryInstance} {definition : Value}

/-- A held instance answers as a server that is bound to it. -/
theorem exchange_some (f : Factories) (reader : BodyReader) (body : ByteArray) (i : MemoryInstance) :
    f.exchange reader body (some i) =
      let o := ((Server.bound (Memory.source i.database)).handleBody reader body).runOn i.store
      (o.1, some { i with store := o.2 }) := by
  cases hread : reader.read body with
  | error e =>
    rw [exchange, hread, Server.runOn_handleBody_of_error hread]
  | ok r =>
    rw [exchange, hread, Server.handleBody_of_ok hread]
    cases hmethod : Method.ofName? r.method with
    | some method => simp [turn, hmethod, MemoryInstance.dispatch]
    | none =>
      simp only [turn, hmethod, Server.dispatch]
      rfl

/-- The first known method builds the instance; until then there is nothing that it could see. -/
theorem exchange_none {body : ByteArray} (hcreate : f.create definition = .ok i)
    (hasks : reader.asksFor definition body) :
    (f.exchange reader body none).1 = (f.exchange reader body (some i)).1 ∧
      ((f.exchange reader body none).2 = none ∧ (f.exchange reader body (some i)).2 = some i ∨
        (f.exchange reader body none).2 = (f.exchange reader body (some i)).2) := by
  obtain ⟨r, hread, rfl⟩ := BodyReader.asksFor_iff.1 hasks
  unfold exchange
  rw [hread]
  cases hmethod : Method.ofName? r.method with
  | none => simp [turn, hmethod]
  | some method => simp [turn, hmethod, hcreate]

theorem turns_some (bodies : List ByteArray) (i : MemoryInstance) :
    f.turns reader bodies (some i) =
        (Server.bound (Memory.source i.database)).exchanges reader bodies i.store ∧
      f.heldAfter reader bodies (some i) =
        some { i with store := (Server.bound (Memory.source i.database)).after reader bodies i.store } := by
  induction bodies generalizing i with
  | nil => exact ⟨rfl, rfl⟩
  | cons body bodies ih =>
    have hnext := exchange_some f reader body i
    obtain ⟨hturns, hheld⟩ := ih { i with
      store := (((Server.bound (Memory.source i.database)).handleBody reader body).runOn i.store).2 }
    constructor
    · rw [turns, hnext, hturns]
      rfl
    · rw [heldAfter, List.foldl_cons, hnext]
      exact hheld

theorem turns_none_of_create (hcreate : f.create definition = .ok i) {bodies : List ByteArray}
    (hasks : ∀ body ∈ bodies, reader.asksFor definition body) :
    f.turns reader bodies none = f.turns reader bodies (some i) ∧
      (f.heldAfter reader bodies none = none ∨
        f.heldAfter reader bodies none = f.heldAfter reader bodies (some i)) := by
  induction bodies with
  | nil => exact ⟨rfl, .inl rfl⟩
  | cons body bodies ih =>
    obtain ⟨hbody, hbodies⟩ := List.forall_mem_cons.1 hasks
    obtain ⟨hanswer, ⟨hnone, hsome⟩ | hsame⟩ := exchange_none hcreate hbody
    · obtain ⟨hturns, hheld⟩ := ih hbodies
      rw [turns, turns, hanswer, hnone, hsome, hturns, heldAfter, heldAfter, List.foldl_cons,
        List.foldl_cons, hnone, hsome]
      exact ⟨rfl, hheld⟩
    · rw [turns, turns, hanswer, hsame, heldAfter, heldAfter, List.foldl_cons, List.foldl_cons, hsame]
      exact ⟨rfl, .inr rfl⟩

/-- A failure to build is answered to every known method, and leaves nothing. -/
theorem turns_none_of_failed {e : Error} (hcreate : f.create definition = .error e)
    {bodies : List ByteArray} (hasks : ∀ body ∈ bodies, reader.asksFor definition body) :
    (∀ x ∈ f.turns reader bodies none, ∀ r, reader.read x.1 = .ok r →
        x.2 = .error (if (Method.ofName? r.method).isSome then e
          else .setup (.unsupportedMethod r.method))) ∧
      f.heldAfter reader bodies none = none := by
  induction bodies with
  | nil => exact ⟨nofun, rfl⟩
  | cons body bodies ih =>
    obtain ⟨hbody, hbodies⟩ := List.forall_mem_cons.1 hasks
    obtain ⟨r, hread, rfl⟩ := BodyReader.asksFor_iff.1 hbody
    have hexchange : f.exchange reader body none = (.error (if (Method.ofName? r.method).isSome then e
        else .setup (.unsupportedMethod r.method)), none) := by
      rw [exchange, hread]
      cases hmethod : Method.ofName? r.method <;> simp [turn, hmethod, hcreate]
    obtain ⟨hturns, hheld⟩ := ih hbodies
    constructor
    · rw [turns, hexchange]
      intro x hx r' hr'
      rcases List.mem_cons.1 hx with rfl | hx
      · obtain rfl := Except.ok.inj (hread.symm.trans hr')
        rfl
      · exact hturns x hx r' hr'
    · rw [heldAfter, List.foldl_cons, hexchange]
      exact hheld

/-- A held instance was built from the definition and has served the bodies so far. -/
theorem of_heldAfter {bodies : List ByteArray}
    (hasks : ∀ body ∈ bodies, reader.asksFor definition body) {j : MemoryInstance}
    (h : f.heldAfter reader bodies none = some j) :
    ∃ i, f.create definition = .ok i ∧ j = { i with
      store := (Server.bound (Memory.source i.database)).after reader bodies i.store } := by
  cases hcreate : f.create definition with
  | error e =>
    rw [(turns_none_of_failed hcreate hasks).2] at h
    exact nomatch h
  | ok i =>
    rcases (turns_none_of_create hcreate hasks).2 with hnone | hsame
    · rw [hnone] at h
      exact nomatch h
    · rw [hsame, (turns_some bodies i).2] at h
      exact ⟨i, rfl, (Option.some.inj h).symm⟩

end Factories

/-! ## Runs -/

namespace Server

open Instances

variable {l : Lens σ (Instances MemoryInstance)} {f : Factories} {reader : BodyReader}

/-- What a body does to the slots: a turn in that of its definition, and nothing in the others. No
instance ever moves. -/
structure Exchanged (f : Factories) (reader : BodyReader) (body : ByteArray)
    (s : Instances MemoryInstance) (o : Except Error Value × Instances MemoryInstance) : Prop where
  sound : o.2.Sound
  others : ∀ key, (∀ e ∈ reader.definition? body, key ≠ e.digest) → o.2.slot? key = s.slot? key
  turn : ∀ e ∈ reader.definition? body,
    f.exchange reader body (s.held? e.digest) = (o.1, o.2.held? e.digest)
  cell : ∀ key cell i, s.slot? key = some (cell, i) → ∃ i', o.2.slot? key = some (cell, i')

theorem exchanged_handleBody (f : Factories) (reader : BodyReader) (hl : l.Lawful) (body : ByteArray)
    {w : σ} (h : (l.get w).Sound) :
    let o := ((byDefinition f l).handleBody reader body).runOn w
    Exchanged f reader body (l.get w) (o.1, l.get o.2) := by
  cases hread : reader.read body with
  | error e =>
    have hdefinition : reader.definition? body = none := by
      rw [BodyReader.definition?, hread]
      rfl
    rw [runOn_handleBody_of_error hread]
    refine ⟨h, fun _ _ => rfl, fun e he => ?_, fun _ _ i hslot => ⟨i, hslot⟩⟩
    rw [hdefinition] at he
    cases he
  | ok r =>
    have hdefinition : reader.definition? body = some r.definition :=
      BodyReader.definition?_eq_some_iff.2 ⟨r, hread, rfl⟩
    have hserved := served_dispatch (f := f) hl r h
    rw [handleBody_of_ok hread]
    refine ⟨hserved.sound, fun key hkey => ?_, fun e he => ?_, fun key cell i hslot => ?_⟩
    · exact hserved.others key (hkey r.definition hdefinition)
    · obtain rfl : r.definition = e := Option.some.inj (hdefinition.symm.trans he)
      rw [Factories.exchange, hread]
      exact hserved.turn
    · by_cases hkey : key = r.definition.digest
      · subst hkey
        exact hserved.cell cell i hslot
      · exact ⟨i, (hserved.others key hkey).trans hslot⟩

theorem sound_after (hl : l.Lawful) (bodies : List ByteArray) {w : σ} (h : (l.get w).Sound) :
    (l.get ((byDefinition f l).after reader bodies w)).Sound := by
  induction bodies generalizing w with
  | nil => exact h
  | cons body bodies ih => exact ih (exchanged_handleBody f reader hl body h).sound

/-- An instance stays in its cell for good. -/
theorem slot?_after (f : Factories) (reader : BodyReader) (hl : l.Lawful) (bodies : List ByteArray)
    {w : σ} (h : (l.get w).Sound) {key : String} {cell : Nat} {i : MemoryInstance}
    (hslot : (l.get w).slot? key = some (cell, i)) :
    ∃ i', (l.get ((byDefinition f l).after reader bodies w)).slot? key = some (cell, i') := by
  induction bodies generalizing w i with
  | nil => exact ⟨i, hslot⟩
  | cons body bodies ih =>
    have hexchanged := exchanged_handleBody f reader hl body h
    obtain ⟨i', hslot'⟩ := hexchanged.cell key cell i hslot
    exact ih hexchanged.sound hslot'

variable {definition : Value}

/-- What a run shows of one definition: the turns that the bodies for it take. -/
theorem filter_exchanges (hl : l.Lawful) {bodies : List ByteArray}
    (hdigest : reader.Unmistaken definition bodies) {w : σ} (h : (l.get w).Sound) :
    let held := (l.get w).held? definition.digest
    ((byDefinition f l).exchanges reader bodies w).filter (fun x => reader.asksFor definition x.1) =
        f.turns reader (reader.asked definition bodies) held ∧
      (l.get ((byDefinition f l).after reader bodies w)).held? definition.digest =
        f.heldAfter reader (reader.asked definition bodies) held := by
  induction bodies generalizing w with
  | nil => exact ⟨rfl, rfl⟩
  | cons body bodies ih =>
    obtain ⟨hbody, hbodies⟩ := List.forall_mem_cons.1 hdigest
    have hexchanged := exchanged_handleBody f reader hl body h
    obtain ⟨hturns, hheld⟩ := ih hbodies hexchanged.sound
    cases hasks : reader.asksFor definition body with
    | true =>
      have hdefinition : reader.definition? body = some definition := of_decide_eq_true hasks
      have hturn := hexchanged.turn definition hdefinition
      simp only at hturn
      simp only [BodyReader.asked_cons_of_asksFor hasks, exchanges, List.filter_cons, hasks, if_true,
        Factories.turns, hturn, hturns, true_and]
      rw [Factories.heldAfter, List.foldl_cons, hturn]
      exact hheld
    | false =>
      -- a body for another definition has another digest and leaves the slot as it is
      have hother : ∀ e ∈ reader.definition? body, definition.digest ≠ e.digest := by
        intro e he hsame
        obtain rfl := hbody e he hsame.symm
        exact Bool.false_ne_true (hasks.symm.trans (decide_eq_true he))
      have hsame := congrArg (Option.map Prod.snd) (hexchanged.others definition.digest hother)
      simp only [BodyReader.asked_cons_of_not hasks, exchanges, List.filter_cons, hasks,
        Bool.false_eq_true, if_false]
      rw [held?, ← hsame]
      exact ⟨hturns, hheld⟩

theorem asksFor_of_mem_exchanges {server : Server σ} {bodies : List ByteArray}
    (hasks : ∀ body ∈ bodies, reader.asksFor definition body) {w : σ}
    {x : ByteArray × Except Error Value} (h : x ∈ server.exchanges reader bodies w) :
    reader.asksFor definition x.1 := by
  induction bodies generalizing w with
  | nil => exact nomatch h
  | cons body bodies ih =>
    obtain ⟨hbody, hbodies⟩ := List.forall_mem_cons.1 hasks
    rcases List.mem_cons.1 h with rfl | h
    · exact hbody
    · exact ih hbodies h

/-- Bodies for one definition take their turns. -/
theorem exchanges_of_asked (hl : l.Lawful) {bodies : List ByteArray}
    (hasks : ∀ body ∈ bodies, reader.asksFor definition body) {w : σ} (h : (l.get w).Sound) :
    (byDefinition f l).exchanges reader bodies w =
      f.turns reader bodies ((l.get w).held? definition.digest) := by
  have hdigest : reader.Unmistaken definition bodies := by
    intro body hbody e he _
    have hdefinition : reader.definition? body = some definition := of_decide_eq_true (hasks body hbody)
    exact Option.some.inj (he.symm.trans hdefinition)
  have hfilter := (filter_exchanges (f := f) hl hdigest h).1
  have hasked : reader.asked definition bodies = bodies := List.filter_eq_self.2 hasks
  have hall : ∀ x ∈ (byDefinition f l).exchanges reader bodies w, reader.asksFor definition x.1 :=
    fun x hx => asksFor_of_mem_exchanges hasks hx
  rwa [List.filter_eq_self.2 hall, hasked] at hfilter

/-- Definitions that digests tell apart: different ones are written differently, and the texts of
different ones have different hashes. -/
structure ToldApart (definitions : List Value) : Prop where
  text : ∀ d ∈ definitions, ∀ e ∈ definitions, d.compact = e.compact → d = e
  hash : ∀ d ∈ definitions, ∀ e ∈ definitions,
    Sha256.ofText d.compact = Sha256.ofText e.compact → d.compact = e.compact

theorem ToldApart.mono {definitions others : List Value} (h : ToldApart definitions)
    (hsub : ∀ d ∈ others, d ∈ definitions) : ToldApart others where
  text d hd e he := h.text d (hsub d hd) e (hsub e he)
  hash d hd e he := h.hash d (hsub d hd) e (hsub e he)

theorem toldApart_of_nodup {definitions : List Value} (h : (definitions.map Value.digest).Nodup) :
    ToldApart definitions where
  text _ hd _ he hsame := List.inj_on_of_nodup_map h hd he (congrArg Sha256.ofText hsame)
  hash _ hd _ he hsame := congrArg Value.compact (List.inj_on_of_nodup_map h hd he hsame)

theorem ToldApart.unmistaken {bodies : List ByteArray}
    (h : ToldApart (definition :: bodies.filterMap reader.definition?)) :
    reader.Unmistaken definition bodies := by
  intro body hbody e he hsame
  have hmem : e ∈ definition :: bodies.filterMap reader.definition? :=
    List.mem_cons_of_mem _ (List.mem_filterMap.2 ⟨body, hbody, he⟩)
  have hself : definition ∈ definition :: bodies.filterMap reader.definition? := List.mem_cons_self
  exact h.text e hmem definition hself (h.hash e hmem definition hself hsame)

/-- What the bodies for one definition, among others, come to. Alone they are answered in the same
way, and so they are by the one instance that its definition builds; if it builds none, every known
method is refused. The instance is the only one that its slot ever holds, and stays in one cell. -/
structure KeptApart (f : Factories) (l : Lens σ (Instances MemoryInstance)) (reader : BodyReader)
    (bodies : List ByteArray) (w : σ) (definition : Value) : Prop where
  alone : ((byDefinition f l).exchanges reader bodies w).filter (fun x => reader.asksFor definition x.1) =
    (byDefinition f l).exchanges reader (reader.asked definition bodies) w
  built : ∀ i, f.create definition = .ok i →
    (byDefinition f l).exchanges reader (reader.asked definition bodies) w =
      (bound (Memory.source i.database)).exchanges reader (reader.asked definition bodies) i.store
  refused : ∀ e, f.create definition = .error e →
    ∀ x ∈ (byDefinition f l).exchanges reader (reader.asked definition bodies) w,
      ∀ r, reader.read x.1 = .ok r → x.2 = .error (if (Method.ofName? r.method).isSome then e
        else .setup (.unsupportedMethod r.method))
  shared : ∀ before rest, bodies = before ++ rest → ∀ cell j,
    (l.get ((byDefinition f l).after reader before w)).slot? definition.digest = some (cell, j) →
    ∃ i, f.create definition = .ok i ∧
      j = { i with
        store := (bound (Memory.source i.database)).after reader
          (reader.asked definition before) i.store } ∧
      ∃ j', (l.get ((byDefinition f l).after reader bodies w)).slot? definition.digest = some (cell, j')

theorem keptApart_byDefinition (hl : l.Lawful) {bodies : List ByteArray} {w : σ}
    (hstart : l.get w = .empty) (h : ToldApart (definition :: bodies.filterMap reader.definition?)) :
    KeptApart f l reader bodies w definition := by
  have hsound : (l.get w).Sound := hstart ▸ sound_empty
  have hheld : (l.get w).held? definition.digest = none := by
    rw [hstart]
    rfl
  have hdigest := h.unmistaken
  have hasks : ∀ (bodies : List ByteArray), ∀ body ∈ reader.asked definition bodies,
      reader.asksFor definition body := fun _ _ hbody => BodyReader.asksFor_of_mem_asked hbody
  have halone := exchanges_of_asked (f := f) hl (hasks bodies) hsound
  rw [hheld] at halone
  refine ⟨?_, fun i hcreate => ?_, fun e hcreate => ?_, fun before rest hsplit cell j hslot => ?_⟩
  · rw [halone, (filter_exchanges hl hdigest hsound).1, hheld]
  · rw [halone, (Factories.turns_none_of_create hcreate (hasks bodies)).1, (Factories.turns_some _ i).1]
  · rw [halone]
    exact (Factories.turns_none_of_failed hcreate (hasks bodies)).1
  · have hbefore : reader.Unmistaken definition before := fun body hbody =>
      hdigest body (hsplit ▸ List.mem_append_left rest hbody)
    have hafter := (filter_exchanges (f := f) hl hbefore hsound).2
    have hstays := slot?_after f reader hl rest (sound_after hl before hsound) hslot
    have hrun : (byDefinition f l).after reader bodies w =
        (byDefinition f l).after reader rest ((byDefinition f l).after reader before w) := by
      rw [hsplit]
      exact List.foldl_append
    rw [held?, hslot, hheld] at hafter
    obtain ⟨i, hcreate, rfl⟩ := Factories.of_heldAfter (hasks before) hafter.symm
    exact ⟨i, hcreate, rfl, hrun ▸ hstays⟩

end Server

/-! ## Notes, drafts and an unknown kind -/

namespace NoteServer

def fields : Value :=
  .object [("fields", .object [("id", .object [("columnType", .text "Number"),
    ("isPrimaryKey", .bool true), ("type", .text "Column")])])]

def notes : Value := .object [("collections", .object [("notes", fields)]), ("type", .text "memory")]

def drafts : Value := .object [("collections", .object [("drafts", fields)]), ("type", .text "memory")]

def unknown : Value := .object [("type", .text "sql")]

def create (definition : Value) (collection : String) : Request :=
  ⟨definition, some collection, Method.create.name,
    { Arguments.empty with data := some [[("id", .nat 1)]] }⟩

def list (definition : Value) (collection : String) : Request :=
  ⟨definition, some collection, Method.list.name, .empty⟩

def requests : List Request :=
  [create notes "notes", list unknown "notes", create drafts "drafts", list notes "notes",
    create notes "notes"]

/-- The requests, and something that is none. -/
def bodies : List ByteArray := ⟨#[255]⟩ :: requests.map fun r => r.encode.compact.toUTF8

/-- The whole state as a part of itself. -/
def whole : Lens (Instances MemoryInstance) (Instances MemoryInstance) := ⟨id, fun t _ => t⟩

theorem definitions_bodies : bodies.filterMap BodyReader.textsOnly.definition? =
    requests.map Request.definition := by
  have hall : ∀ r ∈ requests, r.arguments.Sendable ∧ r.encode.legible Written.maxDepth = true := by
    decide +kernel
  have hnone : BodyReader.textsOnly.definition? ⟨#[255]⟩ = none := by decide +kernel
  have hsome : ∀ r ∈ requests, BodyReader.textsOnly.definition? r.encode.compact.toUTF8 =
      some r.definition := by
    intro r hr
    obtain ⟨hsendable, hlegible⟩ := hall r hr
    have hread := Request.read_legible hsendable hlegible .textsOnly
    exact BodyReader.definition?_eq_some_iff.2 ⟨r, hread, rfl⟩
  rw [bodies, List.filterMap_cons_none hnone, List.filterMap_map, ← List.filterMap_eq_map]
  exact List.filterMap_congr hsome

/-- The requests for the notes, apart from what else is sent. -/
theorem keptApart_notes :
    whole.Lawful ∧ Server.ToldApart (notes :: bodies.filterMap BodyReader.textsOnly.definition?) ∧
      (Factories.builtIn.create notes).toOption.isSome ∧
      Server.KeptApart Factories.builtIn whole .textsOnly bodies .empty notes := by
  have hbuilt : (Factories.builtIn.create notes).toOption.isSome := by decide +kernel
  have hlawful : whole.Lawful := ⟨fun _ _ => rfl, fun _ _ _ => rfl⟩
  have hnodup : ([notes, drafts, unknown].map Value.digest).Nodup := by decide +kernel
  have htold : Server.ToldApart (notes :: bodies.filterMap BodyReader.textsOnly.definition?) := by
    refine (Server.toldApart_of_nodup hnodup).mono ?_
    rw [definitions_bodies]
    decide +kernel
  exact ⟨hlawful, htold, hbuilt, Server.keptApart_byDefinition hlawful rfl htold⟩

end NoteServer

end QueryLayer
