import QueryLayer.Proofs.Emulation.Acceptance
import QueryLayer.Proofs.Emulation.Nesting

/-! # Reported cycles

A replacement is refused when the label of its registration is in the chain already. The chain that is reported
is that of replacements which have begun within each other; but labels are texts, and the field `2024.level` of
`logs` has the label of the field `level` of `logs.2024`. So a cycle can be reported although no registration
has been entered twice, and only then when labels do not tell the registrations apart. Main statement:
`reports_of_replacementCycle`.
-/
namespace QueryLayer

/-! ## Labels -/

theorem append_cons_inj {α : Type} {a : α} {xs xs' ys ys' : List α} (h : a ∉ xs) (h' : a ∉ xs')
    (heq : xs ++ a :: ys = xs' ++ a :: ys') : xs = xs' ∧ ys = ys' := by
  induction xs generalizing xs' with
  | nil =>
    cases xs' with
    | nil => exact ⟨rfl, List.tail_eq_of_cons_eq heq⟩
    | cons x' xs' => exact absurd (List.head_eq_of_cons_eq heq) fun hx => h' (hx ▸ List.mem_cons_self)
  | cons x xs ih =>
    cases xs' with
    | nil => exact absurd (List.head_eq_of_cons_eq heq) fun hx => h (hx ▸ List.mem_cons_self)
    | cons x' xs' =>
      rw [List.cons_append, List.cons_append, List.cons.injEq] at heq
      obtain ⟨rfl, heq⟩ := heq
      obtain ⟨rfl, hys⟩ := ih (fun hmem => h (List.mem_cons_of_mem _ hmem))
        (fun hmem => h' (List.mem_cons_of_mem _ hmem)) heq
      exact ⟨rfl, hys⟩

theorem append_cons_inj_last {α : Type} {a : α} {xs xs' ys ys' : List α} (h : a ∉ ys) (h' : a ∉ ys')
    (heq : xs ++ a :: ys = xs' ++ a :: ys') : xs = xs' ∧ ys = ys' := by
  have hrev := congrArg List.reverse heq
  simp only [List.reverse_append, List.reverse_cons, List.append_assoc, List.singleton_append] at hrev
  obtain ⟨hys, hxs⟩ := append_cons_inj (by simpa using h) (by simpa using h') hrev
  exact ⟨List.reverse_injective hxs, List.reverse_injective hys⟩

namespace Emulation

/-- The part of a label that names the collection and the field. -/
def Entry.path (n : Entry) : String := n.collection ++ "." ++ n.field

/-- Where two registrations have the same label. -/
def Entry.SameText (n m : Entry) : Prop := n.path = m.path ∧ n.operator = m.operator

theorem Entry.label_eq_iff {n m : Entry} : n.label = m.label ↔ n.SameText m := by
  have hchars (k : Entry) : k.label.toList = k.path.toList ++ '[' :: (k.operator.name.toList ++ [']']) := by
    simp [label, Registration.label, path]
  have hname (o : Operator) : '[' ∉ o.name.toList ++ [']'] := by cases o <;> decide
  constructor
  · intro h
    have hlist := congrArg String.toList h
    rw [hchars, hchars] at hlist
    obtain ⟨hpath, hoperator⟩ := append_cons_inj_last (hname _) (hname _) hlist
    have hoperator := String.toList_injective (List.append_cancel_right hoperator)
    have hof := congrArg Operator.ofName? hoperator
    rw [Operator.ofName?_name, Operator.ofName?_name] at hof
    exact ⟨String.toList_injective hpath, Option.some.inj hof⟩
  · rintro ⟨hpath, hoperator⟩
    refine String.toList_injective ?_
    rw [hchars, hchars, hpath, hoperator]

theorem Entry.SameText.chars {n m : Entry} (h : n.SameText m) :
    n.collection.toList ++ '.' :: n.field.toList = m.collection.toList ++ '.' :: m.field.toList := by
  have hlist := congrArg String.toList h.1
  simpa [path] using hlist

variable {σ : Type}

/-- Whether the label of a registration says which one it is. -/
def TellsApart (e : Emulation σ) : Prop :=
  ∀ n m, (e.registration? n).isSome → (e.registration? m).isSome → n.SameText m → n = m

/-- The first dot of a path ends the name of a collection that has none, and the last one begins the name of a
field that has none. -/
theorem tellsApart_of_dotless {e : Emulation σ}
    (h : (∀ n, (e.registration? n).isSome → '.' ∉ n.collection.toList) ∨
      ∀ n, (e.registration? n).isSome → '.' ∉ n.field.toList) : e.TellsApart := by
  intro n m hn hm hsame
  have hnames : n.collection.toList = m.collection.toList ∧ n.field.toList = m.field.toList := by
    rcases h with hcollections | hfields
    · exact append_cons_inj (hcollections n hn) (hcollections m hm) hsame.chars
    · exact append_cons_inj_last (hfields n hn) (hfields m hm) hsame.chars
  exact Entry.ext (String.toList_injective hnames.1) (String.toList_injective hnames.2) hsame.2

end Emulation

/-! ## Errors that report nothing -/

/-- The chain of a reported cycle. -/
def Error.chain? : Error → Option (List String)
  | setup (.replacementCycle chain) => some chain
  | _ => none

/-- No cycle is reported. -/
abbrev Reportless {α : Type} (x : Except Error α) : Prop := Outcome.FailsAs (fun err => err.chain? = none) x

theorem Source.reportless_collection {σ : Type} (s : Source σ) (name : String) :
    Reportless (s.collection name) := by
  unfold Source.collection
  split
  · exact Outcome.failsAs_ok _
  · exact Outcome.failsAs_error rfl

theorem Column.reportless_checkEnum (c : Column) (v : Value) : Reportless (c.checkEnum v) := by
  unfold Column.checkEnum
  exact .ite (Outcome.failsAs_ok _) (.ite (Outcome.failsAs_ok _) (Outcome.failsAs_error rfl))

namespace Scope

variable (s : Scope)

theorem reportless_columnAt (catalog : Catalog) (name : String) (schema : CollectionSchema)
    (hops : List String) : Reportless (columnAt catalog name schema hops) := by
  fun_induction columnAt catalog name schema hops
  any_goals exact Outcome.failsAs_error rfl
  · exact Outcome.failsAs_ok _
  · assumption

theorem reportless_checkLeaf (l : Leaf) : Reportless (s.checkLeaf l) := by
  unfold checkLeaf
  refine Outcome.FailsAs.bind (reportless_columnAt _ _ _ _) fun c => ?_
  dsimp only
  refine .guard rfl (.guard rfl (.guard rfl ?_))
  split
  · split
    · exact .guard rfl (c.reportless_checkEnum l.value)
    · exact c.reportless_checkEnum l.value
  · exact c.reportless_checkEnum l.value

theorem reportless_checkConditions {cs : List Condition} (h : ∀ c ∈ cs, Reportless (s.checkCondition c)) :
    Reportless (s.checkConditions cs) := by
  induction cs with
  | nil =>
    rw [checkConditions]
    exact Outcome.failsAs_ok _
  | cons c cs ih =>
    rw [checkConditions]
    exact (h c List.mem_cons_self).bind fun _ => ih fun d hd => h d (List.mem_cons_of_mem _ hd)

theorem reportless_checkCondition (c : Condition) : Reportless (s.checkCondition c) := by
  induction c using Condition.induct with
  | hleaf l => exact s.reportless_checkLeaf l
  | hnot c ih => exact ih
  | hbranch a cs ih =>
    rw [checkCondition]
    split
    · exact Outcome.failsAs_error rfl
    · exact s.reportless_checkConditions ih

end Scope

theorem Record.reportless_id (r : Record) (schema : CollectionSchema) : Reportless (r.id schema) := by
  unfold Record.id
  refine Outcome.failsAs_mapM fun pk _ => ?_
  split
  · split
    · exact Outcome.failsAs_error rfl
    · exact Outcome.failsAs_ok _
  · exact Outcome.failsAs_error rfl

theorem Condition.reportless_matchRecords (schema : CollectionSchema) (records : List Record) :
    Reportless (Condition.matchRecords schema records) := by
  unfold matchRecords
  refine (Outcome.failsAs_mapM fun r _ => r.reportless_id schema).bind fun ids => ?_
  unfold matchIds
  dsimp only
  split
  · exact Outcome.failsAs_error rfl
  · split
    · exact Outcome.failsAs_error rfl
    · exact Outcome.failsAs_error rfl
    · split
      · split <;> exact Outcome.failsAs_ok _
      · exact Outcome.failsAs_ok _

/-! ## Where a cycle is reported -/

namespace Emulation

variable {σ : Type}

section

variable (e : Emulation σ) (decorated : Unit → Source σ) (caller : Caller)

/-- The replacement of a leaf begins within those of `entered`. -/
structure Begun (start t : Task σ) (entered : List Entry) (r : Registration (EmulationRule σ)) : Prop where
  leads : ∃ ks, e.Leads decorated start ks t ∧ ks.reduceOption = entered
  own : Path.split? t.leaf.field = none
  found : e.registration? t.entry = some r

/-- How a cycle comes to be reported, with what passes for the same registration. -/
inductive Reports (same : Entry → Entry → Prop) (start : Task σ) (reported : List String) : Prop
  /-- A registration is met again within its own replacement. -/
  | again {t : Task σ} {entered : List Entry} {r : Registration (EmulationRule σ)} {n : Entry} :
    e.Begun decorated start t entered r → n ∈ entered → same n t.entry →
    reported = (entered ++ [t.entry]).map Entry.label → Reports same start reported
  /-- A replacer that is asked for the first time on the way has failed with this report itself. -/
  | replacer {t : Task σ} {entered : List Entry} {r : Registration (EmulationRule σ)} :
    e.Begun decorated start t entered r → t.entry.label ∉ t.chain →
    (r.rule.equivalent decorated t.leaf.value).CanEnd (.error (.setup (.replacementCycle reported))) →
    Reports same start reported
  /-- The child has, when all records were read for brute force. -/
  | listing {t : Task σ} {entered : List Entry} {r : Registration (EmulationRule σ)} :
    e.Begun decorated start t entered r → t.entry.label ∉ t.chain →
    (r.rule.equivalent decorated t.leaf.value).CanEnd (.ok none) →
    (t.collection.list caller .empty ((Projection.primaryKeysOf t.collection.schema).union
      t.leaf.projection)).CanEnd (.error (.setup (.replacementCycle reported))) →
    Reports same start reported

end

variable {e : Emulation σ} {decorated : Unit → Source σ} {caller : Caller} {start t : Task σ}

theorem Reports.mono {same same' : Entry → Entry → Prop} {reported : List String}
    (h : e.Reports decorated caller same start reported)
    (himp : ∀ n m, (e.registration? n).isSome → (e.registration? m).isSome → same n m → same' n m) :
    e.Reports decorated caller same' start reported := by
  cases h with
  | @again t _ _ _ hbegun hn hsame hreported =>
    obtain ⟨ks, hleads, rfl⟩ := hbegun.leads
    have ht : (e.registration? t.entry).isSome := by
      rw [hbegun.found]
      rfl
    exact .again hbegun hn (himp _ _ (hleads.grows.registered _ hn) ht hsame) hreported
  | replacer hbegun hnew hfails => exact .replacer hbegun hnew hfails
  | listing hbegun hnew hnone hfails => exact .listing hbegun hnew hnone hfails

/-- A failure that reports a cycle does so in one of these ways. -/
def Explained (e : Emulation σ) (decorated : Unit → Source σ) (caller : Caller) (start : Task σ) (err : Error) :
    Prop :=
  ∀ reported, err = .setup (.replacementCycle reported) →
    e.Reports decorated caller Entry.SameText start reported

theorem explained_of_reportless {α : Type} {x : Except Error α} (h : Reportless x) :
    Outcome.FailsAs (e.Explained decorated caller start) x := by
  rintro err herr reported rfl
  have hnone := h _ herr
  cases hnone

theorem yields_ofExcept_of_reportless {α : Type} {x : Except Error α} (h : Reportless x) :
    (Action.ofExcept x : Action σ α).Yields (fun _ => True) (fun a => x = .ok a)
      (e.Explained decorated caller start) :=
  Action.yields_ofExcept (fun _ ha => ha) (explained_of_reportless h)

theorem bruteForce_explained {entered : List Entry} {r : Registration (EmulationRule σ)}
    (hbegun : e.Begun decorated start t entered r) (hnew : t.entry.label ∉ t.chain)
    (hnone : (r.rule.equivalent decorated t.leaf.value).CanEnd (.ok none)) :
    (bruteForce caller t.collection t.leaf).Yields (fun _ => True) (fun _ => True)
      (e.Explained decorated caller start) := by
  unfold bruteForce
  dsimp only
  have hlist : (t.collection.list caller .empty ((Projection.primaryKeysOf t.collection.schema).union
      t.leaf.projection)).Yields (fun _ => True) (fun _ => True) (e.Explained decorated caller start) := by
    refine (Action.yields_canEnd _).mono (fun _ _ => trivial) ?_
    rintro err herr reported rfl
    exact .listing hbegun hnew hnone herr
  refine hlist.bind fun records _ => ?_
  have hmatch := Condition.reportless_matchRecords t.collection.schema (records.filter t.leaf.holds)
  exact (yields_ofExcept_of_reportless hmatch).mono (fun _ _ => trivial) fun _ h => h

/-- A label that comes again is that of a registration whose replacement is under way. -/
theorem replacementCycle_explained {c : Collection σ} {l : Leaf} {chain : List String} {ks : List (Option Entry)}
    {r : Registration (EmulationRule σ)} (hstart : start.chain = [])
    (hleads : e.Leads decorated start ks ⟨c, l, chain⟩) (hsplit : Path.split? l.field = none)
    (hfind : e.registrations.find? c.name l.field l.operator = some r)
    (hcycle : Registration.label c.name l.field l.operator ∈ chain) :
    e.Explained decorated caller start
      (.setup (.replacementCycle (chain ++ [Registration.label c.name l.field l.operator]))) := by
  rintro reported hreported
  cases hreported
  have hchain : chain = ks.reduceOption.map Entry.label := by
    have hgrows := hleads.grows.chain
    rwa [hstart, List.nil_append] at hgrows
  have hbegun : e.Begun decorated start ⟨c, l, chain⟩ ks.reduceOption r :=
    ⟨⟨ks, hleads, rfl⟩, hsplit, hfind⟩
  rw [hchain] at hcycle
  obtain ⟨n, hn, hlabel⟩ := List.mem_map.1 hcycle
  refine .again hbegun hn (Entry.label_eq_iff.1 hlabel) ?_
  rw [List.map_append, ← hchain]
  rfl

theorem equivalent_explained {entered : List Entry} {r : Registration (EmulationRule σ)}
    (hbegun : e.Begun decorated start t entered r) (hnew : t.entry.label ∉ t.chain) :
    (r.rule.equivalent decorated t.leaf.value).Yields (fun _ => True)
      (fun answer => (r.rule.equivalent decorated t.leaf.value).CanEnd (.ok answer))
      (e.Explained decorated caller start) := by
  refine (Action.yields_canEnd _).mono (fun _ h => h) ?_
  rintro err herr reported rfl
  exact .replacer hbegun hnew herr

/-- The induction is on the recursion; that a call is reached from the start is kept by the calls it makes. -/
theorem replaceLeaf_explained {c : Collection σ} {l : Leaf} {chain : List String} (hstart : start.chain = [])
    (h : ∃ ks, e.Leads decorated start ks ⟨c, l, chain⟩) :
    (e.replaceLeaf decorated caller c l chain).Yields (fun _ => True) (fun _ => True)
      (e.Explained decorated caller start) := by
  induction c, l, chain using replaceLeaf.induct e with
  | case1 c l chain first rest hsplit r hr _ ih =>
    rw [replaceLeaf_relation e decorated caller hsplit hr]
    obtain ⟨ks, hleads⟩ := h
    refine (yields_ofExcept_of_reportless (e.child.reportless_collection _)).bind fun foreign hforeign => ?_
    have hnext := hleads.append (.step (.hop hsplit hr hforeign) (.here _))
    exact (ih foreign ⟨_, hnext⟩).bind fun _ _ => Action.yields_pure trivial
  | case2 c l chain first rest hsplit hr =>
    rw [replaceLeaf_stray e decorated caller hsplit hr]
    exact Action.yields_pure trivial
  | case3 c l chain hsplit r hfind _ hcycle =>
    rw [replaceLeaf_cycle e decorated caller hsplit hfind hcycle]
    obtain ⟨ks, hleads⟩ := h
    exact Action.yields_throw (replacementCycle_explained hstart hleads hsplit hfind hcycle)
  | case4 c l chain hsplit r hfind _ hnew _ ih =>
    rw [replaceLeaf_rule e decorated caller hsplit hfind hnew]
    obtain ⟨ks, hleads⟩ := h
    have hbegun : e.Begun decorated start ⟨c, l, chain⟩ ks.reduceOption r :=
      ⟨⟨ks, hleads, rfl⟩, hsplit, hfind⟩
    refine (equivalent_explained hbegun hnew).bind fun answer hanswer => ?_
    cases answer with
    | none => exact bruteForce_explained hbegun hnew hanswer
    | some condition =>
      have hleaves : ∀ m ∈ condition.leaves, (e.replaceLeaf decorated caller c m
          (chain ++ [Registration.label c.name l.field l.operator])).Yields (fun _ => True)
            (fun _ => True) (e.Explained decorated caller start) := fun m hm =>
        ih m ⟨_, hleads.append (.step (.enter hsplit hfind hnew hanswer hm) (.here _))⟩
      refine (Condition.replaceLeavesTogether_yields hleaves).bind fun tree _ => ?_
      exact (yields_ofExcept_of_reportless ((e.scope c).reportless_checkCondition tree)).bind fun _ _ =>
        Action.yields_pure trivial
  | case5 c l chain hsplit hfind =>
    rw [replaceLeaf_native e decorated caller hsplit hfind]
    exact Action.yields_pure trivial

/-- A reported cycle comes from registrations with the same label, one within the replacement of the other,
unless it is handed on; where labels tell the registrations apart, these are the same registration. -/
theorem reports_of_replacementCycle {c : Collection σ} {l : Leaf} {reported : List String}
    (h : (e.replaceLeaf decorated caller c l []).CanEnd (.error (.setup (.replacementCycle reported)))) :
    e.Reports decorated caller Entry.SameText ⟨c, l, []⟩ reported ∧
      (e.TellsApart → e.Reports decorated caller Eq ⟨c, l, []⟩ reported) := by
  have hyields : (e.replaceLeaf decorated caller c l []).Yields (fun _ => True) (fun _ => True)
      (e.Explained decorated caller ⟨c, l, []⟩) := replaceLeaf_explained rfl ⟨[], .here _⟩
  have hreports := h.error_of_yields hyields reported rfl
  exact ⟨hreports, fun hapart => hreports.mono hapart⟩

section

variable {c : Collection σ} {l : Leaf} {chain : List String} {err : Error}

theorem replaceLeaf_of_hop {first rest : String} {r : Relation} {foreign : Collection σ}
    (hsplit : Path.split? l.field = some (first, rest)) (hr : c.schema.relation? first = some r)
    (hforeign : e.child.collection r.foreignCollection = .ok foreign)
    (hinner : e.replaceLeaf decorated caller foreign { l with field := rest } chain = throw err) :
    e.replaceLeaf decorated caller c l chain = throw err := by
  rw [replaceLeaf_relation e decorated caller hsplit hr, hforeign]
  change (e.replaceLeaf decorated caller foreign { l with field := rest } chain >>= _) = _
  rw [hinner]
  rfl

theorem replaceLeaf_of_rule {r : Registration (EmulationRule σ)} {inner : Leaf}
    (hsplit : Path.split? l.field = none)
    (hfind : e.registrations.find? c.name l.field l.operator = some r)
    (hnew : Registration.label c.name l.field l.operator ∉ chain)
    (hrule : r.rule.equivalent decorated l.value = pure (some (.leaf inner)))
    (hinner : e.replaceLeaf decorated caller c inner
      (chain ++ [Registration.label c.name l.field l.operator]) = throw err) :
    e.replaceLeaf decorated caller c l chain = throw err := by
  rw [replaceLeaf_rule e decorated caller hsplit hfind hnew, hrule]
  change (e.replaceLeaf decorated caller c inner _ >>= _) = _
  rw [hinner]
  rfl

end

/-! ## Names of authors, levels of logs -/

/-- Two operators that are each replaced by the other. -/
def turning : List (Registration (EmulationRule Store)) :=
  [⟨"name", .like, .replace fun v _ => pure (some (.leaf ⟨"name", .startsWith, v⟩))⟩,
    ⟨"name", .startsWith, .replace fun v _ => pure (some (.leaf ⟨"name", .like, v⟩))⟩]

theorem replaceLeaf_turning (decorated : Unit → Source Store) (caller : Caller) (v : Value) :
    (byName turning).replaceLeaf decorated caller (Memory.collection library "authors" authors)
      ⟨"name", .like, v⟩ [] =
    throw (.setup (.replacementCycle
      ["authors.name[like]", "authors.name[starts_with]", "authors.name[like]"])) := by
  have hplain : Path.split? "name" = none := by decide
  have hlike : Registration.label "authors" "name" .like = "authors.name[like]" := by decide
  have hstarts : Registration.label "authors" "name" .startsWith = "authors.name[starts_with]" := by decide
  refine replaceLeaf_of_rule hplain rfl List.not_mem_nil rfl (replaceLeaf_of_rule hplain rfl ?_ rfl ?_)
  · change Registration.label "authors" "name" .startsWith ∉ [Registration.label "authors" "name" .like]
    rw [hlike, hstarts]
    decide
  · rw [replaceLeaf_cycle (byName turning) decorated caller hplain rfl (by simp [Memory.collection])]
    change throw (Error.setup (.replacementCycle [Registration.label "authors" "name" .like,
      Registration.label "authors" "name" .startsWith, Registration.label "authors" "name" .like])) = _
    rw [hlike, hstarts]

theorem tellsApart_turning : (byName turning).TellsApart := by
  refine tellsApart_of_dotless (.inl fun n hn => ?_)
  obtain ⟨r, hr⟩ := Option.isSome_iff_exists.1 hn
  have hmem := (mem_of_find? hr).1
  by_cases hauthors : "authors" = n.collection
  · rw [← hauthors]
    decide
  · change r ∈ (((∅ : Registrations (EmulationRule Store)).add "authors" _).add "authors" _).of _ at hmem
    rw [of_add, if_neg hauthors, of_add, if_neg hauthors] at hmem
    cases hmem

theorem reports_turning :
    (byName turning).Reports (fun _ => .empty) default Eq
      ⟨Memory.collection library "authors" authors, ⟨"name", .like, .text "T%"⟩, []⟩
      ["authors.name[like]", "authors.name[starts_with]", "authors.name[like]"] := by
  have hcycle := replaceLeaf_turning (fun _ => .empty) default (.text "T%")
  have hends : ((byName turning).replaceLeaf (fun _ => .empty) default
      (Memory.collection library "authors" authors) ⟨"name", .like, .text "T%"⟩ []).CanEnd
        (.error (.setup (.replacementCycle
          ["authors.name[like]", "authors.name[starts_with]", "authors.name[like]"]))) := by
    rw [hcycle]
    exact Action.canEnd_runOn (throw _) ∅
  exact (reports_of_replacementCycle hends).2 tellsApart_turning

/-- The logs of one year. -/
def yearLogs : CollectionSchema :=
  (CollectionSchema.empty.withField "id" numericId).withField "level" (.column (.ofType .string))

def logs : CollectionSchema :=
  (((CollectionSchema.empty.withField "2024.level" (.column (.ofType .string))).withField "id"
    numericId).withField "year" (.relation (.manyToOne "logs.2024" "year_id" "id"))).withField "year_id"
      (.column (.ofType .number))

def journal : Database := ⟨Dict.ofList [("logs", logs), ("logs.2024", yearLogs)], ∅⟩

/-- Levels by pattern, in the logs by those of the year. -/
def byLevel : Emulation Store :=
  ⟨Memory.source journal, ((∅ : Registrations (EmulationRule Store)).add "logs.2024"
    ⟨"level", .like, .bruteForce⟩).add "logs"
      ⟨"2024.level", .like, .replace fun v _ => pure (some (.leaf ⟨"year:level", .like, v⟩))⟩⟩

theorem registered_byLevel : Registered journal byLevel := by
  have hyear : (ofSource (Memory.source journal)).register "logs.2024" "level" .like .bruteForce =
      .ok ⟨Memory.source journal, (∅ : Registrations (EmulationRule Store)).add "logs.2024"
        ⟨"level", .like, .bruteForce⟩⟩ := rfl
  have hlogs : (⟨Memory.source journal, (∅ : Registrations (EmulationRule Store)).add "logs.2024"
      ⟨"level", .like, .bruteForce⟩⟩ : Emulation Store).register "logs" "2024.level" .like
        (.replace fun v _ => pure (some (.leaf ⟨"year:level", .like, v⟩))) = .ok byLevel := rfl
  exact .register (.register .none hyear) hlogs

/-- Levels that match a pattern. -/
def leveled : Task Store := ⟨Memory.collection journal "logs" logs, ⟨"2024.level", .like, .text "h%"⟩, []⟩

/-- What they are replaced by. -/
def viaYear : Task Store :=
  ⟨Memory.collection journal "logs" logs, ⟨"year:level", .like, .text "h%"⟩, ["logs.2024.level[like]"]⟩

def ofYear : Task Store :=
  ⟨Memory.collection journal "logs.2024" yearLogs, ⟨"level", .like, .text "h%"⟩, ["logs.2024.level[like]"]⟩

theorem split?_leveled : Path.split? "2024.level" = none := by decide

theorem split?_viaYear : Path.split? "year:level" = some ("year", "level") := by decide

theorem find?_leveled : byLevel.registration? leveled.entry =
    some ⟨"2024.level", .like, .replace fun v _ => pure (some (.leaf ⟨"year:level", .like, v⟩))⟩ := rfl

theorem split?_ofYear : Path.split? "level" = none := by decide

theorem label_leveled : leveled.entry.label = "logs.2024.level[like]" := by decide

theorem label_ofYear : ofYear.entry.label = "logs.2024.level[like]" := by decide

theorem replaceLeaf_leveled (decorated : Unit → Source Store) (caller : Caller) :
    byLevel.replaceLeaf decorated caller leveled.collection leveled.leaf [] =
      throw (.setup (.replacementCycle ["logs.2024.level[like]", "logs.2024.level[like]"])) := by
  have hforeign : byLevel.child.collection "logs.2024" =
      .ok (Memory.collection journal "logs.2024" yearLogs) := rfl
  have hrelation : logs.relation? "year" = some (.manyToOne "logs.2024" "year_id" "id") := rfl
  have hbrute : byLevel.registration? ofYear.entry = some ⟨"level", .like, .bruteForce⟩ := rfl
  have hcycle : ofYear.entry.label ∈ [leveled.entry.label] := by
    rw [label_ofYear, label_leveled]
    exact List.mem_singleton_self _
  have hlast := replaceLeaf_cycle (c := Memory.collection journal "logs.2024" yearLogs)
    (l := ⟨"level", .like, .text "h%"⟩) byLevel decorated caller split?_ofYear hbrute hcycle
  change _ = throw (Error.setup (.replacementCycle [leveled.entry.label, ofYear.entry.label])) at hlast
  rw [label_ofYear, label_leveled] at hlast
  refine replaceLeaf_of_rule (c := Memory.collection journal "logs" logs) split?_leveled find?_leveled
    List.not_mem_nil rfl ?_
  refine replaceLeaf_of_hop split?_viaYear hrelation hforeign ?_
  change byLevel.replaceLeaf decorated caller _ _ [leveled.entry.label] = _
  rw [label_leveled]
  exact hlast

theorem calls_leveled {decorated : Unit → Source Store} {k : Option Entry} {u : Task Store}
    (h : byLevel.Calls decorated leveled k u) : k = some leveled.entry ∧ u = viaYear := by
  cases h with
  | hop hsplit _ _ =>
    change Path.split? "2024.level" = _ at hsplit
    rw [split?_leveled] at hsplit
    cases hsplit
  | enter _ hfind _ hanswer hinner =>
    rw [find?_leveled] at hfind
    cases hfind
    have hcondition := hanswer.ok_of_yields (E := fun _ => False)
      (Action.yields_pure (P := fun answer => answer = some (.leaf ⟨"year:level", .like, .text "h%"⟩)) rfl)
    cases hcondition
    obtain rfl := List.mem_singleton.1 hinner
    rw [label_leveled]
    exact ⟨rfl, rfl⟩

theorem calls_viaYear {decorated : Unit → Source Store} {k : Option Entry} {u : Task Store}
    (h : byLevel.Calls decorated viaYear k u) : k = none ∧ u = ofYear := by
  cases h with
  | hop hsplit hr hforeign =>
    change Path.split? "year:level" = _ at hsplit
    rw [split?_viaYear] at hsplit
    cases hsplit
    cases hr
    cases hforeign
    exact ⟨rfl, rfl⟩
  | enter hsplit _ _ _ _ =>
    change Path.split? "year:level" = _ at hsplit
    rw [split?_viaYear] at hsplit
    cases hsplit

theorem not_calls_ofYear {decorated : Unit → Source Store} {k : Option Entry} {u : Task Store} :
    ¬ byLevel.Calls decorated ofYear k u := by
  intro h
  cases h with
  | hop hsplit _ _ =>
    change Path.split? "level" = _ at hsplit
    rw [split?_ofYear] at hsplit
    cases hsplit
  | enter _ _ hnew _ _ =>
    rw [label_ofYear] at hnew
    exact hnew List.mem_cons_self

theorem leads_leveled {decorated : Unit → Source Store} {ks : List (Option Entry)} {t : Task Store}
    (h : byLevel.Leads decorated leveled ks t) : (ks = [] ∧ t = leveled) ∨ t = viaYear ∨
      (ks = [some leveled.entry, none] ∧ t = ofYear) := by
  cases h with
  | here => exact .inl ⟨rfl, rfl⟩
  | step hfirst hrest =>
    obtain ⟨rfl, rfl⟩ := calls_leveled hfirst
    cases hrest with
    | here => exact .inr (.inl rfl)
    | step hsecond hrest =>
      obtain ⟨rfl, rfl⟩ := calls_viaYear hsecond
      cases hrest with
      | here => exact .inr (.inr ⟨rfl, rfl⟩)
      | step hthird _ => exact absurd hthird not_calls_ofYear

theorem begun_leveled {decorated : Unit → Source Store} {entered : List Entry} {t : Task Store}
    {r : Registration (EmulationRule Store)} (h : byLevel.Begun decorated leveled t entered r) :
    (entered = [] ∧ t = leveled) ∨ (entered = [leveled.entry] ∧ t = ofYear) := by
  obtain ⟨ks, hleads, rfl⟩ := h.leads
  rcases leads_leveled hleads with ⟨rfl, rfl⟩ | rfl | ⟨rfl, rfl⟩
  · exact .inl ⟨rfl, rfl⟩
  · have hown := h.own
    change Path.split? "year:level" = none at hown
    rw [split?_viaYear] at hown
    cases hown
  · exact .inr ⟨rfl, rfl⟩

theorem not_reports_leveled {decorated : Unit → Source Store} {caller : Caller} {reported : List String} :
    ¬ byLevel.Reports decorated caller Eq leveled reported := by
  have hown : ofYear.entry.label ∈ ofYear.chain := by
    rw [label_ofYear]
    exact List.mem_cons_self
  intro h
  cases h with
  | again hbegun hn hsame _ =>
    rcases begun_leveled hbegun with ⟨rfl, rfl⟩ | ⟨rfl, rfl⟩
    · cases hn
    · obtain rfl := List.mem_singleton.1 hn
      exact absurd hsame (by decide)
  | replacer hbegun hnew hfails =>
    rcases begun_leveled hbegun with ⟨rfl, rfl⟩ | ⟨rfl, rfl⟩
    · have hfind := hbegun.found
      rw [find?_leveled] at hfind
      cases hfind
      exact hfails.error_of_yields (P := fun _ => True) (E := fun _ => False) (Action.yields_pure trivial)
    · exact hnew hown
  | listing hbegun hnew hnone _ =>
    rcases begun_leveled hbegun with ⟨rfl, rfl⟩ | ⟨rfl, rfl⟩
    · have hfind := hbegun.found
      rw [find?_leveled] at hfind
      cases hfind
      have hanswer := hnone.ok_of_yields (P := fun answer => answer ≠ none) (E := fun _ => False)
        (Action.yields_pure (Option.some_ne_none _))
      exact hanswer rfl
    · exact hnew hown

/-- The level of a log and that of its year pass for one registration. -/
theorem not_reports_of_replacementCycle :
    ¬ ∀ (db : Database) (e : Emulation Store), Registered db e → ∀ (decorated : Unit → Source Store)
      (caller : Caller) (c : Collection Store) (l : Leaf) (reported : List String),
      (e.replaceLeaf decorated caller c l []).CanEnd (.error (.setup (.replacementCycle reported))) →
        e.Reports decorated caller Eq ⟨c, l, []⟩ reported := by
  intro h
  have hcycle := replaceLeaf_leveled (fun _ => .empty) default
  have hends : (byLevel.replaceLeaf (fun _ => .empty) default leveled.collection leveled.leaf []).CanEnd
      (.error (.setup (.replacementCycle ["logs.2024.level[like]", "logs.2024.level[like]"]))) := by
    rw [hcycle]
    exact Action.canEnd_runOn (throw _) ∅
  exact not_reports_leveled (h journal byLevel registered_byLevel _ default _ _ _ hends)

end Emulation

end QueryLayer
