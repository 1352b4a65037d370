import QueryLayer.Proofs.Data.Entries
import QueryLayer.Proofs.Value.NumberText
import QueryLayer.Value.Printer

/-! # What a compact text reads as

The compact text of a value is cut into the tokens of its parts, and these build one written value:
`writtenBy` of what the texts of its numbers read as. Main statement: a value that its text gives back
is written down part by part, `readWritten?_of_read?`.
-/
namespace QueryLayer

namespace Value

/-! ## Characters and tokens of a value -/

def quotedChars (s : String) : List Char :=
  '"' :: (s.toList.flatMap fun c => (escapeChar c).toList) ++ ['"']

mutual

def chars : Value → List Char
  | null => ['n', 'u', 'l', 'l']
  | bool true => ['t', 'r', 'u', 'e']
  | bool false => ['f', 'a', 'l', 's', 'e']
  | number n => n.text.toList
  | text s => quotedChars s
  | array items => '[' :: itemChars true items ++ [']']
  | object members => '\x7b' :: memberChars true members ++ ['\x7d']

def itemChars (first : Bool) : List Value → List Char
  | [] => []
  | v :: rest => (if first then [] else [',']) ++ (v.chars ++ itemChars false rest)

def memberChars (first : Bool) : List (String × Value) → List Char
  | [] => []
  | (k, v) :: rest =>
    (if first then [] else [',']) ++ (quotedChars k ++ (':' :: v.chars ++ memberChars false rest))

end

/-- What the text of a number reads as. -/
def reread? (n : Number) : Option Number := (numberOfText? n.text.toList).join

mutual

/-- The texts of all numbers have the form of a number. -/
def spelled : Value → Bool
  | null | bool _ | text _ => true
  | number n => (numberOfText? n.text.toList).isSome
  | array items => itemsSpelled items
  | object members => membersSpelled members

def itemsSpelled : List Value → Bool
  | [] => true
  | v :: rest => v.spelled && itemsSpelled rest

def membersSpelled : List (String × Value) → Bool
  | [] => true
  | (_, v) :: rest => v.spelled && membersSpelled rest

end

mutual

def tokens : Value → List Token
  | null => [.scalar (some null)]
  | bool b => [.scalar (some (bool b))]
  | number n => [.scalar ((reread? n).map number)]
  | text s => [.text (some s)]
  | array items => .openArray :: itemTokens true items ++ [.closeArray]
  | object members => .openObject :: memberTokens true members ++ [.closeObject]

def itemTokens (first : Bool) : List Value → List Token
  | [] => []
  | v :: rest => (if first then [] else [.comma]) ++ (v.tokens ++ itemTokens false rest)

def memberTokens (first : Bool) : List (String × Value) → List Token
  | [] => []
  | (k, v) :: rest =>
    (if first then [] else [.comma]) ++
      (.text (some k) :: .colon :: v.tokens ++ memberTokens false rest)

end

mutual

/-- A value written down, its numbers as `read` takes them. -/
def writtenBy (read : Number → Option Number) : Value → Written
  | null => .scalar (some null)
  | bool b => .scalar (some (bool b))
  | number n => .scalar ((read n).map number)
  | text s => .scalar (some (text s))
  | array items => .array (itemsWrittenBy read items)
  | object members => .object (membersWrittenBy read members)

def itemsWrittenBy (read : Number → Option Number) : List Value → List Written
  | [] => []
  | v :: rest => v.writtenBy read :: itemsWrittenBy read rest

def membersWrittenBy (read : Number → Option Number) :
    List (String × Value) → List (Option String × Written)
  | [] => []
  | (k, v) :: rest => (some k, v.writtenBy read) :: membersWrittenBy read rest

end

/-- A value written down part by part. -/
def written (v : Value) : Written := v.writtenBy some

theorem toList_quote (s : String) : (quote s).toList = quotedChars s := by
  have hfold : ∀ (cs : List Char) (out : String),
      (cs.foldl (fun out c => out ++ escapeChar c) out).toList =
        out.toList ++ cs.flatMap fun c => (escapeChar c).toList := by
    intro cs
    induction cs with
    | nil => simp
    | cons c cs ih => intro out; simp [ih]
  simp [quote, quotedChars, hfold]

mutual

theorem toList_print (v : Value) (out : String) : (print out v).toList = out.toList ++ v.chars := by
  match v with
  | null => simp [print, chars]
  | bool true => simp [print, chars]
  | bool false => simp [print, chars]
  | number n => simp [print, chars]
  | text s => simp [print, chars, toList_quote]
  | array items =>
    simp only [print, chars, String.toList_append, toList_printItems items]
    simp
  | object members =>
    simp only [print, chars, String.toList_append, toList_printMembers members]
    simp

theorem toList_printItems (items : List Value) (out : String) (first : Bool) :
    (printItems out first items).toList = out.toList ++ itemChars first items := by
  match items with
  | [] => simp [printItems, itemChars]
  | v :: rest =>
    simp only [printItems, itemChars, toList_printItems rest, toList_print v]
    cases first <;> simp

theorem toList_printMembers (members : List (String × Value)) (out : String) (first : Bool) :
    (printMembers out first members).toList = out.toList ++ memberChars first members := by
  match members with
  | [] => simp [printMembers, memberChars]
  | (k, v) :: rest =>
    simp only [printMembers, memberChars, toList_printMembers rest, toList_print v]
    cases first <;> simp [toList_quote]

end

theorem toList_compact (v : Value) : v.compact.toList = v.chars := by
  simp [compact, toList_print]

/-! ## Cutting into tokens -/

/-- What may follow a value: nothing, or the character that separates or closes. -/
def Closes (rest : List Char) : Prop := ∀ c ∈ rest.head?, c = ',' ∨ c = ']' ∨ c = '\x7d'

theorem closes_nil : Closes [] := by simp [Closes]

theorem closes_cons {c : Char} (h : c = ',' ∨ c = ']' ∨ c = '\x7d') (rest : List Char) :
    Closes (c :: rest) := by
  simpa [Closes] using h

theorem closes_itemChars (items : List Value) (rest : List Char) :
    Closes (itemChars false items ++ ']' :: rest) := by
  cases items with
  | nil => exact closes_cons (by simp) rest
  | cons v items => exact closes_cons (by simp) _

theorem closes_memberChars (members : List (String × Value)) (rest : List Char) :
    Closes (memberChars false members ++ '\x7d' :: rest) := by
  cases members with
  | nil => exact closes_cons (by simp) rest
  | cons m members => exact closes_cons (by simp) _

/-- Numbers and words have no quotes: one goes on as long as characters belong to it, and no character that
separates or closes does. -/
structure Unquoted (inside : List Char → Inside) (belongs : Char → Bool)
    (read : List Char → Option (Option Value)) : Prop where
  goesOn : ∀ {c}, belongs c = true → ∀ done acc cs,
    lex? (inside done) acc (c :: cs) = lex? (inside (c :: done)) acc cs
  ends : ∀ {c}, belongs c = false → ∀ done acc cs, lex? (inside done) acc (c :: cs) =
    ((finish? (inside done) acc).bind (start? c)).bind fun next => lex? next.1 next.2 cs
  finishes : ∀ done acc, finish? (inside done) acc = (read done.reverse).map (.scalar · :: acc)
  apart : belongs ',' = false ∧ belongs ']' = false ∧ belongs '\x7d' = false

/-- What is not quoted is read once what follows it comes. -/
theorem Unquoted.lex?_append {inside : List Char → Inside} {belongs : Char → Bool}
    {read : List Char → Option (Option Value)} (h : Unquoted inside belongs read) {cs : List Char}
    (hcs : ∀ c ∈ cs, belongs c = true) {rest : List Char} (hrest : Closes rest) (done : List Char)
    (acc : List Token) :
    lex? (inside done) acc (cs ++ rest) =
      (read (done.reverse ++ cs)).bind fun v => lex? .nothing (.scalar v :: acc) rest := by
  induction cs generalizing done with
  | cons c cs ih =>
    rw [List.cons_append, h.goesOn (hcs c List.mem_cons_self), ih fun c hc => hcs c (List.mem_cons_of_mem _ hc)]
    simp
  | nil =>
    rw [List.nil_append, List.append_nil]
    cases rest with
    | nil =>
      rw [lex?, h.finishes, Option.map_eq_bind]
      rfl
    | cons c rest =>
      obtain ⟨hcomma, hbracket, hbrace⟩ := h.apart
      have hc : belongs c = false := by
        rcases hrest c rfl with rfl | rfl | rfl <;> assumption
      rw [h.ends hc, h.finishes]
      cases read done.reverse with
      | none => rfl
      | some v =>
        rw [Option.map_some, Option.bind_some, Option.bind_some, lex?]
        cases start? c (.scalar v :: acc) <;> rfl

theorem unquoted_number :
    Unquoted .number isNumberChar fun cs => (numberOfText? cs).map (Option.map number) where
  goesOn hc done acc cs := by rw [lex?, if_pos hc]
  ends hc done acc cs := by
    rw [lex?, if_neg (Bool.eq_false_iff.1 hc)]
    cases (finish? (.number done) acc).bind (start? _) <;> rfl
  finishes done acc := by rw [finish?, Option.map_map]; rfl
  apart := by decide

theorem unquoted_word : Unquoted .word Char.isLower fun cs => (word? cs).map some where
  goesOn hc done acc cs := by rw [lex?, if_pos hc]
  ends hc done acc cs := by
    rw [lex?, if_neg (Bool.eq_false_iff.1 hc)]
    cases (finish? (.word done) acc).bind (start? _) <;> rfl
  finishes done acc := by rw [finish?, Option.map_map]; rfl
  apart := by decide

theorem hexValue?_hexDigit : ∀ n, n < 16 → hexValue? (Text.hexDigit n) = some n := by decide

theorem lex?_escape {e c : Char} (h : escaped? e = some c) (hu : e ≠ 'u') (done : List Nat)
    (acc : List Token) (rest : List Char) :
    lex? (.text done) acc ('\\' :: e :: rest) = lex? (.text (c.toNat :: done)) acc rest := by
  rw [lex?]
  · simp [h]
  · intro _ _ _ _ _ heq
    exact absurd heq hu

theorem lex?_hex {n : Nat} (h : n < 32) (done : List Nat) (acc : List Token) (rest : List Char) :
    lex? (.text done) acc
        ('\\' :: 'u' :: '0' :: '0' :: Text.hexDigit (n / 16) :: Text.hexDigit (n % 16) :: rest) =
      lex? (.text (n :: done)) acc rest := by
  have hhigh := hexValue?_hexDigit (n / 16) (by omega)
  have hlow := hexValue?_hexDigit (n % 16) (by omega)
  have hzero : hexValue? '0' = some 0 := by decide
  have hcode : hexValue4? '0' '0' (Text.hexDigit (n / 16)) (Text.hexDigit (n % 16)) = some n := by
    simp only [hexValue4?, hhigh, hlow, hzero, Option.bind_eq_bind, Option.bind_some]
    congr 1
    omega
  rw [lex?]
  simp [hcode]

/-- An escaped character is collected as the character. -/
theorem lex?_escapeChar (c : Char) (done : List Nat) (acc : List Token) (rest : List Char) :
    lex? (.text done) acc ((escapeChar c).toList ++ rest) = lex? (.text (c.toNat :: done)) acc rest := by
  have hsame : ∀ n, c.toNat = n → c = Char.ofNat n := fun n h => h ▸ (Char.ofNat_toNat c).symm
  unfold escapeChar
  split
  · exact lex?_escape (by decide) (by decide) done acc rest
  · exact lex?_escape (by decide) (by decide) done acc rest
  · exact lex?_escape (by decide) (by decide) done acc rest
  · exact lex?_escape (by decide) (by decide) done acc rest
  · exact lex?_escape (by decide) (by decide) done acc rest
  · next hquote hslash _ _ _ =>
    split
    · next h =>
      obtain rfl := hsame 8 h
      exact lex?_escape (by decide) (by decide) done acc rest
    · split
      · next h =>
        obtain rfl := hsame 12 h
        exact lex?_escape (by decide) (by decide) done acc rest
      · split
        · next h =>
          rw [String.toList_ofList]
          exact lex?_hex h done acc rest
        · next h =>
          have hchars : c.toString.toList = [c] := by simp
          rw [hchars, List.singleton_append, lex?.eq_def]
          simp only
          rw [if_neg hquote, if_neg hslash, if_neg h]

theorem lex?_escaped (cs : List Char) (done : List Nat) (acc : List Token) (rest : List Char) :
    lex? (.text done) acc ((cs.flatMap fun c => (escapeChar c).toList) ++ rest) =
      lex? (.text ((cs.map Char.toNat).reverse ++ done)) acc rest := by
  induction cs generalizing done with
  | nil => rfl
  | cons c cs ih =>
    rw [List.flatMap_cons, List.append_assoc, lex?_escapeChar, ih]
    simp

theorem isSurrogate_toNat (c : Char) :
    isLowSurrogate c.toNat = false ∧ isHighSurrogate c.toNat = false := by
  have hvalid := c.valid
  simp only [UInt32.isValidChar, Nat.isValidChar] at hvalid
  change c.toNat < 55296 ∨ 57343 < c.toNat ∧ c.toNat < 1114112 at hvalid
  simp only [isLowSurrogate, isHighSurrogate, Bool.and_eq_false_iff, decide_eq_false_iff_not]
  omega

/-- Collected characters that are whole are the text that they spell. -/
theorem textOf?_map_toNat (done tail : List Char) :
    textOf? tail (done.map Char.toNat) = some (String.ofList (done.reverse ++ tail)) := by
  induction done generalizing tail with
  | nil => rfl
  | cons c done ih =>
    obtain ⟨hlow, hhigh⟩ := isSurrogate_toNat c
    rw [List.map_cons, textOf?.eq_def]
    simp [hlow, hhigh, Char.ofNat_toNat, ih]

theorem lex?_quotedChars (s : String) (acc : List Token) (rest : List Char) :
    lex? .nothing acc (quotedChars s ++ rest) = lex? .nothing (.text (some s) :: acc) rest := by
  have hopen : ∀ cs, lex? .nothing acc ('"' :: cs) = lex? (.text []) acc cs := fun _ => rfl
  have hclose : ∀ done, lex? (.text done) acc ('"' :: rest) =
      lex? .nothing (.text (textOf? [] done) :: acc) rest := by
    intro done
    rw [lex?.eq_def]
    simp
  have htext := textOf?_map_toNat s.toList.reverse []
  rw [List.append_nil, List.reverse_reverse, String.ofList_toList, List.map_reverse] at htext
  rw [quotedChars, List.cons_append, List.cons_append, hopen, List.append_assoc, lex?_escaped,
    List.singleton_append, hclose, List.append_nil, htext]

theorem start?_number {c : Char} (h : (c.isDigit || c = '-') = true) (acc : List Token) :
    start? c acc = some (.number [c], acc) := by
  have hblank : isBlankChar c = false := by
    rw [Bool.eq_false_iff]
    intro hblank
    simp only [isBlankChar, Bool.or_eq_true, decide_eq_true_eq] at hblank
    rcases hblank with ((rfl | rfl) | rfl) | rfl <;> exact absurd h (by decide)
  rw [start?, hblank, if_neg Bool.false_ne_true, if_pos h]
  all_goals
    intro hc
    exact absurd (hc ▸ h) (by decide)

/-- The text of a number is cut into one token, if it has the form of one. -/
theorem lex?_number_text (n : Number) (acc : List Token) {rest : List Char} (hrest : Closes rest) :
    lex? .nothing acc (n.text.toList ++ rest) =
      if (number n).spelled then lex? .nothing (.scalar ((reread? n).map number) :: acc) rest
      else none := by
  obtain ⟨c, cs, hcs, hc⟩ := n.spellsNumber_text.start
  have hall : ∀ d ∈ cs, isNumberChar d = true := fun d hd =>
    n.spellsNumber_text.all d (hcs ▸ List.mem_cons_of_mem c hd)
  have hlex : lex? .nothing acc (n.text.toList ++ rest) = (numberOfText? n.text.toList).bind fun m =>
      lex? .nothing (.scalar (m.map number) :: acc) rest := by
    rw [hcs, List.cons_append, lex?, start?_number hc]
    simp only
    rw [unquoted_number.lex?_append hall hrest, List.reverse_singleton, List.singleton_append, Option.bind_map]
    rfl
  rw [hlex, spelled, reread?]
  cases numberOfText? n.text.toList <;> rfl

theorem lex?_wordChars {c : Char} {cs : List Char} {v : Value} {acc : List Token}
    (hstart : start? c acc = some (.word [c], acc)) (hlower : ∀ d ∈ cs, d.isLower = true)
    (hword : word? (c :: cs) = some v) {rest : List Char} (hrest : Closes rest) :
    lex? .nothing acc (c :: cs ++ rest) = lex? .nothing (.scalar (some v) :: acc) rest := by
  rw [List.cons_append, lex?, hstart]
  simp only
  rw [unquoted_word.lex?_append hlower hrest, List.reverse_singleton, List.singleton_append, hword,
    Option.map_some, Option.bind_some]

mutual

/-- The characters of a value are cut into its tokens, if its numbers are spelled as numbers. -/
theorem lex?_chars (v : Value) (acc : List Token) {rest : List Char} (hrest : Closes rest) :
    lex? .nothing acc (v.chars ++ rest) =
      if v.spelled then lex? .nothing (v.tokens.reverse ++ acc) rest else none := by
  match v with
  | null => exact lex?_wordChars rfl (List.all_eq_true.1 rfl) rfl hrest
  | bool true => exact lex?_wordChars rfl (List.all_eq_true.1 rfl) rfl hrest
  | bool false => exact lex?_wordChars rfl (List.all_eq_true.1 rfl) rfl hrest
  | number n => exact lex?_number_text n acc hrest
  | text s => exact lex?_quotedChars s acc rest
  | array items =>
    have hitems := lex?_itemChars items true (.openArray :: acc) rest
    rw [chars, List.append_assoc, List.cons_append]
    refine Eq.trans (b := lex? .nothing (.openArray :: acc) (itemChars true items ++ ']' :: rest)) rfl ?_
    simpa [tokens, spelled] using hitems
  | object members =>
    have hmembers := lex?_memberChars members true (.openObject :: acc) rest
    rw [chars, List.append_assoc, List.cons_append]
    refine Eq.trans
      (b := lex? .nothing (.openObject :: acc) (memberChars true members ++ '\x7d' :: rest)) rfl ?_
    simpa [tokens, spelled] using hmembers

theorem lex?_itemChars (items : List Value) (first : Bool) (acc : List Token) (rest : List Char) :
    lex? .nothing acc (itemChars first items ++ ']' :: rest) =
      if itemsSpelled items then
        lex? .nothing (.closeArray :: ((itemTokens first items).reverse ++ acc)) rest
      else none := by
  match items, first with
  | [], _ => rfl
  | v :: items, true =>
    rw [itemChars, if_pos rfl, List.nil_append, List.append_assoc,
      lex?_chars v acc (closes_itemChars items rest), lex?_itemChars items false, itemsSpelled]
    cases v.spelled <;> simp [itemTokens]
  | v :: items, false =>
    have hcomma : lex? .nothing acc (',' :: (v.chars ++ (itemChars false items ++ ']' :: rest))) =
      lex? .nothing (.comma :: acc) (v.chars ++ (itemChars false items ++ ']' :: rest)) := rfl
    rw [itemChars, if_neg Bool.false_ne_true, List.append_assoc, List.append_assoc,
      List.singleton_append, hcomma, lex?_chars v _ (closes_itemChars items rest),
      lex?_itemChars items false, itemsSpelled]
    cases v.spelled <;> simp [itemTokens]

theorem lex?_memberChars (members : List (String × Value)) (first : Bool) (acc : List Token)
    (rest : List Char) :
    lex? .nothing acc (memberChars first members ++ '\x7d' :: rest) =
      if membersSpelled members then
        lex? .nothing (.closeObject :: ((memberTokens first members).reverse ++ acc)) rest
      else none := by
  have hcolon : ∀ acc cs, lex? .nothing acc (':' :: cs) = lex? .nothing (.colon :: acc) cs :=
    fun _ _ => rfl
  match members, first with
  | [], _ => rfl
  | (k, v) :: members, true =>
    rw [memberChars, if_pos rfl, List.nil_append, List.append_assoc, lex?_quotedChars,
      List.cons_append, List.cons_append, List.append_assoc, hcolon,
      lex?_chars v _ (closes_memberChars members rest), lex?_memberChars members false, membersSpelled]
    cases v.spelled <;> simp [memberTokens]
  | (k, v) :: members, false =>
    have hcomma : ∀ cs, lex? .nothing acc (',' :: cs) = lex? .nothing (.comma :: acc) cs := fun _ => rfl
    rw [memberChars, if_neg Bool.false_ne_true, List.append_assoc, List.singleton_append,
      List.cons_append, hcomma, List.append_assoc, lex?_quotedChars, List.cons_append,
      List.append_assoc, hcolon, lex?_chars v _ (closes_memberChars members rest),
      lex?_memberChars members false, membersSpelled]
    cases v.spelled <;> simp [memberTokens]

end

/-! ## Building the written value -/

/-- Places where a value may stand. -/
def AwaitsValue (awaits : Awaits) : Prop := awaits = .value ∨ awaits = .valueOrClose

theorem run?_cons_of_step? {r next : Reading} {t : Token} (h : r.step? t = some next)
    (ts : List Token) : r.run? (t :: ts) = next.run? ts := by
  rw [Reading.run?, h]

theorem step?_scalar {awaits : Awaits} (h : AwaitsValue awaits) (stack : List Frame)
    (v : Option Value) :
    Reading.step? ⟨stack, awaits⟩ (.scalar v) = some (.deliver stack (.scalar v)) := by
  rcases h with rfl | rfl <;> rfl

theorem step?_text {awaits : Awaits} (h : AwaitsValue awaits) (stack : List Frame) (s : String) :
    Reading.step? ⟨stack, awaits⟩ (.text (some s)) = some (.deliver stack (.scalar (some (text s)))) := by
  rcases h with rfl | rfl <;> rfl

theorem step?_openArray {awaits : Awaits} (h : AwaitsValue awaits) (stack : List Frame) :
    Reading.step? ⟨stack, awaits⟩ .openArray = some ⟨.array [] :: stack, .valueOrClose⟩ := by
  rcases h with rfl | rfl <;> rfl

theorem step?_openObject {awaits : Awaits} (h : AwaitsValue awaits) (stack : List Frame) :
    Reading.step? ⟨stack, awaits⟩ .openObject = some ⟨.object [] none :: stack, .keyOrClose⟩ := by
  rcases h with rfl | rfl <;> rfl

mutual

/-- The tokens of a value deliver what is written down. -/
theorem run?_tokens (v : Value) {awaits : Awaits} (h : AwaitsValue awaits) (stack : List Frame)
    (ts : List Token) :
    Reading.run? ⟨stack, awaits⟩ (v.tokens ++ ts) =
      (Reading.deliver stack (v.writtenBy reread?)).run? ts := by
  match v with
  | null | bool _ | number _ => exact run?_cons_of_step? (step?_scalar h stack _) ts
  | text s => exact run?_cons_of_step? (step?_text h stack s) ts
  | array [] =>
    rw [tokens, List.append_assoc, List.cons_append, run?_cons_of_step? (step?_openArray h stack)]
    rfl
  | array (v :: items) =>
    have hitems := run?_itemTokens items [v.writtenBy reread?] stack ts
    rw [tokens, List.append_assoc, List.cons_append, run?_cons_of_step? (step?_openArray h stack),
      itemTokens, if_pos rfl, List.nil_append, List.append_assoc, run?_tokens v (.inr rfl)]
    exact hitems
  | object [] =>
    rw [tokens, List.append_assoc, List.cons_append, run?_cons_of_step? (step?_openObject h stack)]
    rfl
  | object ((k, v) :: members) =>
    have hmembers := run?_memberTokens members [(some k, v.writtenBy reread?)] (some k) stack ts
    have hopen : Reading.run? ⟨.object [] none :: stack, .keyOrClose⟩
        (.text (some k) :: .colon :: (v.tokens ++ (memberTokens false members ++ .closeObject :: ts))) =
          Reading.run? ⟨.object [] (some k) :: stack, .value⟩
            (v.tokens ++ (memberTokens false members ++ .closeObject :: ts)) := rfl
    rw [tokens, List.append_assoc, List.cons_append, run?_cons_of_step? (step?_openObject h stack),
      memberTokens, if_pos rfl, List.nil_append]
    simp only [List.cons_append, List.append_assoc, List.nil_append]
    rw [hopen, run?_tokens v (.inl rfl)]
    exact hmembers

theorem run?_itemTokens (items : List Value) (done : List Written) (stack : List Frame)
    (ts : List Token) :
    Reading.run? ⟨.array done :: stack, .separator⟩ (itemTokens false items ++ .closeArray :: ts) =
      (Reading.deliver stack (.array (done.reverse ++ itemsWrittenBy reread? items))).run? ts := by
  match items with
  | [] =>
    rw [itemsWrittenBy, List.append_nil]
    rfl
  | v :: items =>
    have hitems := run?_itemTokens items (v.writtenBy reread? :: done) stack ts
    have hcomma : Reading.run? ⟨.array done :: stack, .separator⟩
        (.comma :: (v.tokens ++ (itemTokens false items ++ .closeArray :: ts))) =
          Reading.run? ⟨.array done :: stack, .value⟩
            (v.tokens ++ (itemTokens false items ++ .closeArray :: ts)) := rfl
    rw [itemTokens, if_neg Bool.false_ne_true]
    simp only [List.cons_append, List.append_assoc, List.nil_append]
    rw [hcomma, run?_tokens v (.inl rfl), itemsWrittenBy]
    rw [List.reverse_cons, List.append_assoc] at hitems
    exact hitems

theorem run?_memberTokens (members : List (String × Value)) (done : List (Option String × Written))
    (key : Option String) (stack : List Frame) (ts : List Token) :
    Reading.run? ⟨.object done key :: stack, .separator⟩
        (memberTokens false members ++ .closeObject :: ts) =
      (Reading.deliver stack (.object (done.reverse ++ membersWrittenBy reread? members))).run? ts := by
  match members with
  | [] =>
    rw [membersWrittenBy, List.append_nil]
    rfl
  | (k, v) :: members =>
    have hmembers := run?_memberTokens members ((some k, v.writtenBy reread?) :: done) (some k) stack ts
    have hkey : Reading.run? ⟨.object done key :: stack, .separator⟩ (.comma :: .text (some k) :: .colon ::
        (v.tokens ++ (memberTokens false members ++ .closeObject :: ts))) =
          Reading.run? ⟨.object done (some k) :: stack, .value⟩
            (v.tokens ++ (memberTokens false members ++ .closeObject :: ts)) := rfl
    rw [memberTokens, if_neg Bool.false_ne_true]
    simp only [List.cons_append, List.append_assoc, List.nil_append]
    rw [hkey, run?_tokens v (.inl rfl), membersWrittenBy]
    rw [List.reverse_cons, List.append_assoc] at hmembers
    exact hmembers

end

/-- What a compact text writes down is its value, up to its numbers. -/
theorem readWritten?_compact (v : Value) :
    readWritten? v.compact = if v.spelled then some (v.writtenBy reread?) else none := by
  have hlex := lex?_chars v [] closes_nil
  have hrun := run?_tokens v (.inl rfl) [] []
  rw [List.append_nil] at hlex hrun
  unfold readWritten?
  rw [toList_compact, hlex]
  cases v.spelled with
  | false => rfl
  | true =>
    have hcut : lex? .nothing (v.tokens.reverse ++ []) [] = some v.tokens.reverse := by
      rw [List.append_nil]
      rfl
    simp only [if_true, hcut, Option.bind_eq_bind, Option.bind_some, List.reverse_reverse, hrun]
    rfl

/-! ## Values that their text gives back -/

theorem names_of_memberValues? {members kept : List (String × Value)}
    {read : Number → Option Number} {room : Nat}
    (h : Written.memberValues? room (membersWrittenBy read members) = some kept) :
    kept.map Prod.fst = members.map Prod.fst := by
  induction members generalizing kept with
  | nil =>
    obtain rfl : [] = kept := Option.some.inj h
    rfl
  | cons m members ih =>
    obtain ⟨u, -, h⟩ := Option.bind_eq_some_iff.1 h
    obtain ⟨rest, hrest, h⟩ := Option.bind_eq_some_iff.1 h
    obtain rfl : (m.1, u) :: rest = kept := Option.some.inj h
    rw [List.map_cons, List.map_cons, ih hrest]

/-- The members of an object that has itself as its value. -/
theorem memberValues?_of_value? {members : List (String × Value)} {read : Number → Option Number}
    {room : Nat} (h : ((object members).writtenBy read).value? room = some (object members)) :
    ∃ inner, room = inner + 1 ∧
      Written.memberValues? inner (membersWrittenBy read members) = some members := by
  cases room with
  | zero => exact nomatch h
  | succ room =>
    obtain ⟨found, hfound, heq⟩ := Option.map_eq_some_iff.1 h
    have hlist : Entries.ofList found = members := Value.object.inj heq
    have hsorted : Entries.Sorted members := hlist ▸ Entries.sorted_ofList found
    have hnames := Entries.sorted_of_map_fst_eq (names_of_memberValues? hfound) hsorted
    rw [Entries.ofList_of_sorted hnames] at hlist
    exact ⟨room, rfl, hlist ▸ hfound⟩

/-- The items of an array that has itself as its value. -/
theorem itemValues?_of_value? {items : List Value} {read : Number → Option Number} {room : Nat}
    (h : ((array items).writtenBy read).value? room = some (array items)) :
    ∃ inner, room = inner + 1 ∧
      Written.itemValues? inner (itemsWrittenBy read items) = some items := by
  cases room with
  | zero => exact nomatch h
  | succ room =>
    obtain ⟨found, hfound, heq⟩ := Option.map_eq_some_iff.1 h
    obtain rfl := Value.array.inj heq
    exact ⟨room, rfl, hfound⟩

mutual

theorem writtenBy_of_value? (v : Value) {read : Number → Option Number} {room : Nat}
    (h : (v.writtenBy read).value? room = some v) : v.writtenBy read = v.written := by
  match v with
  | null => rfl
  | bool _ => rfl
  | text _ => rfl
  | number n => exact congrArg Written.scalar h
  | array items =>
    obtain ⟨inner, rfl, hitems⟩ := itemValues?_of_value? h
    exact congrArg Written.array (itemsWrittenBy_of_itemValues? items hitems)
  | object members =>
    obtain ⟨inner, rfl, hmembers⟩ := memberValues?_of_value? h
    exact congrArg Written.object (membersWrittenBy_of_memberValues? members hmembers)

theorem itemsWrittenBy_of_itemValues? (items : List Value) {read : Number → Option Number} {room : Nat}
    (h : Written.itemValues? room (itemsWrittenBy read items) = some items) :
    itemsWrittenBy read items = itemsWrittenBy some items := by
  match items with
  | [] => rfl
  | v :: items =>
    obtain ⟨u, hu, h⟩ := Option.bind_eq_some_iff.1 h
    obtain ⟨rest, hrest, h⟩ := Option.bind_eq_some_iff.1 h
    obtain ⟨rfl, rfl⟩ := List.cons.inj (Option.some.inj h)
    rw [itemsWrittenBy, itemsWrittenBy, writtenBy_of_value? u hu,
      itemsWrittenBy_of_itemValues? rest hrest]
    rfl

theorem membersWrittenBy_of_memberValues? (members : List (String × Value))
    {read : Number → Option Number} {room : Nat}
    (h : Written.memberValues? room (membersWrittenBy read members) = some members) :
    membersWrittenBy read members = membersWrittenBy some members := by
  match members with
  | [] => rfl
  | (k, v) :: members =>
    obtain ⟨u, hu, h⟩ := Option.bind_eq_some_iff.1 h
    obtain ⟨rest, hrest, h⟩ := Option.bind_eq_some_iff.1 h
    obtain ⟨hm, rfl⟩ := List.cons.inj (Option.some.inj h)
    obtain rfl : u = v := (Prod.mk.inj hm).2
    rw [membersWrittenBy, membersWrittenBy, writtenBy_of_value? u hu,
      membersWrittenBy_of_memberValues? rest hrest]
    rfl

end

/-- A value that its text gives back is written down part by part. -/
theorem readWritten?_of_read? {v : Value} (h : read? v.compact = some v) :
    readWritten? v.compact = some v.written ∧ v.written.value? Written.maxDepth = some v := by
  obtain ⟨w, hw, hvalue⟩ := Option.bind_eq_some_iff.1 h
  have hcompact := readWritten?_compact v
  cases hspelled : v.spelled with
  | false =>
    rw [hspelled, hw] at hcompact
    exact nomatch hcompact
  | true =>
    rw [hspelled, if_pos rfl, hw] at hcompact
    obtain rfl := Option.some.inj hcompact
    rw [writtenBy_of_value? v hvalue] at hw hvalue
    exact ⟨hw, hvalue⟩

end Value

end QueryLayer
