/-
Values of JSON text are read as they were written.

* **`Document`** — a text with the tokens that spell it and the value they stand for;
* **`Document.parse_eq`** — the value is read from the text;
* **`Document.ofMembers`** — members make an object;
* **`record?_present`** — from the members of a record that are present its fields are read, the others as
  absent.
-/
import Utxo.Proofs.Json.Numbers
import Utxo.Proofs.Json.Strings

namespace Utxo.Json

open Text

/-! ### Tokens -/

/-- The tokens of a text are found under every bound that covers the text. -/
def IsScanned (text : Bytes) (ts : List Token) : Prop :=
  ∀ n, text.length ≤ n → Token.scanUpTo n text = some ts

variable {rest : Bytes} {ts us : List Token}

theorem isScanned_nil : IsScanned [] [] := by
  intro n _
  cases n <;> rfl

/-- One token more in front of a text. -/
theorem IsScanned.cons {b : UInt8} {t : Token} {behind : Bytes} (h : IsScanned rest ts)
    (hspace : Token.isSpace b = false) (htake : Token.take b behind = some (t, rest))
    (hlength : rest.length ≤ behind.length) : IsScanned (b :: behind) (t :: ts) := by
  intro n hn
  rw [List.length_cons] at hn
  obtain ⟨m, rfl⟩ : ∃ m, n = m + 1 := ⟨n - 1, by omega⟩
  simp only [Token.scanUpTo, hspace, htake, h m (by omega), Option.bind_eq_bind, Option.bind_some,
    Bool.false_eq_true, if_false]
  rfl

theorem IsScanned.string (h : IsScanned rest ts) (s : String) :
    IsScanned (Text.utf8 (printText s) ++ rest) (.string (bodyOf s) :: ts) := by
  rw [utf8_printText, List.cons_append, List.append_assoc, List.cons_append, List.nil_append]
  refine h.cons rfl ?_ (by simp; omega)
  show (Token.takeBody _).map _ = _
  rw [takeBody_bodyOf]
  rfl

theorem IsScanned.number {n : Nat} {ds : Bytes} (h : IsScanned rest ts) (hds : IsNumeral n ds)
    (hends : EndsNumber rest) : IsScanned (ds ++ rest) (.number ds :: ts) := by
  cases ds with
  | nil => simpa using hds.leading
  | cons d ds =>
    have hdigit := hds.isDigit d List.mem_cons_self
    have hspace : Token.isSpace d = false := by
      grind [Token.isSpace, Token.isDigit]
    exact h.cons hspace (hds.take hends) (by simp)

/-- A text is spelled in tokens wherever it stands, if a number in it ends there. -/
def Spells (text : Bytes) (ts : List Token) : Prop :=
  ∀ rest us, EndsNumber rest → IsScanned rest us → IsScanned (text ++ rest) (ts ++ us)

/-- Tokens stand for a value, whatever follows them. -/
def StandFor (ts : List Token) (j : Json) : Prop :=
  ∀ n us, 2 * ts.length ≤ n → takeValue n (ts ++ us) = some (j, us)

/-- A single token that stands for a value. -/
theorem standFor_singleton {t : Token} {j : Json}
    (h : ∀ n us, takeValue (n + 1) (t :: us) = some (j, us)) : StandFor [t] j := by
  intro n us hn
  obtain ⟨m, rfl⟩ : ∃ m, n = m + 1 := ⟨n - 1, by simp at hn; omega⟩
  exact h m us

/-! ### Documents -/

/-- A text with the tokens that spell it and the value that they stand for. -/
structure Document where
  text : String
  tokens : List Token
  value : Json
  spells : Spells (Text.utf8 text) tokens
  standFor : StandFor tokens value

namespace Document

/-- The value of a document is read from its text. -/
theorem parse_eq (d : Document) {text : String} (h : d.text = text) :
    parse (Text.utf8 text) = some d.value := by
  rw [← h]
  have hscan : Token.scan (Text.utf8 d.text) = some d.tokens := by
    have hscanned := d.spells [] [] (by simp [EndsNumber]) isScanned_nil
    rw [List.append_nil, List.append_nil] at hscanned
    exact hscanned _ le_rfl
  have hvalue : takeValue (2 * d.tokens.length) d.tokens = some (d.value, []) := by
    have hstand := d.standFor _ [] le_rfl
    rwa [List.append_nil] at hstand
  simp only [parse, hscan, Option.bind_eq_bind, Option.bind_some, hvalue]

/-- The document of a null. -/
def null : Document where
  text := "null"
  tokens := [.null]
  value := .null
  spells rest us _ h := by
    have hbytes : Text.utf8 "null" = [0x6e, 0x75, 0x6c, 0x6c] := utf8_eq _
    rw [hbytes]
    exact h.cons rfl rfl (Nat.le_add_right _ 3)
  standFor := standFor_singleton fun _ _ => rfl

/-- The document of a truth value. -/
def ofBool (b : Bool) : Document where
  text := printBool b
  tokens := [.bool b]
  value := .bool b
  spells rest us _ h := by
    cases b with
    | false =>
      have hbytes : Text.utf8 "false" = [0x66, 0x61, 0x6c, 0x73, 0x65] := utf8_eq _
      rw [printBool, if_neg Bool.false_ne_true, hbytes]
      exact h.cons rfl rfl (Nat.le_add_right _ 4)
    | true =>
      have hbytes : Text.utf8 "true" = [0x74, 0x72, 0x75, 0x65] := utf8_eq _
      rw [printBool, if_pos rfl, hbytes]
      exact h.cons rfl rfl (Nat.le_add_right _ 3)
  standFor := standFor_singleton fun _ _ => rfl

/-- The document of a natural number. -/
def ofNat (n : Nat) : Document where
  text := toString n
  tokens := [.number (Text.utf8 (toString n))]
  value := .number (Text.utf8 (toString n))
  spells _ _ hends h := h.number (isNumeral_toString n) hends
  standFor := standFor_singleton fun _ _ => rfl

/-- The document of a text. -/
def ofText (s : String) : Document where
  text := printText s
  tokens := [.string (bodyOf s)]
  value := .string (bodyOf s)
  spells _ _ _ h := h.string s
  standFor := standFor_singleton fun _ _ => rfl

end Document

/-! ### Objects -/

/-- The tokens of members up to the end of their object. -/
def memberTokens : List (String × Document) → List Token
  | [] => [.closeObject]
  | [(name, d)] => .string (bodyOf name) :: .colon :: (d.tokens ++ [.closeObject])
  | (name, d) :: ms => .string (bodyOf name) :: .colon :: (d.tokens ++ .comma :: memberTokens ms)

/-- Members as they are written. -/
def printMembers (ms : List (String × Document)) : String :=
  String.intercalate "," (ms.map fun m => printText m.1 ++ ":" ++ m.2.text)

variable {ms : List (String × Document)}

theorem IsScanned.member {name : String} {d : Document} (h : IsScanned rest us)
    (hends : EndsNumber rest) :
    IsScanned (Text.utf8 (printText name ++ ":" ++ d.text) ++ rest)
      (.string (bodyOf name) :: .colon :: (d.tokens ++ us)) := by
  have hvalue := d.spells rest us hends h
  have hcolon : IsScanned (0x3a :: (Text.utf8 d.text ++ rest)) (.colon :: (d.tokens ++ us)) :=
    hvalue.cons rfl rfl le_rfl
  have hbytes : Text.utf8 (printText name ++ ":" ++ d.text) ++ rest =
      Text.utf8 (printText name) ++ 0x3a :: (Text.utf8 d.text ++ rest) := by
    have hmark : Text.utf8 ":" = [0x3a] := utf8_eq _
    simp only [utf8_append, hmark, List.append_assoc, List.cons_append, List.nil_append]
  rw [hbytes]
  exact hcolon.string name

theorem endsNumber_cons {b : UInt8} (hdigit : Token.isDigit b = false) (hpoint : b ≠ 0x2e)
    (hlower : b ≠ 0x65) (hupper : b ≠ 0x45) : EndsNumber (b :: rest) := by
  rintro c ⟨⟩
  exact ⟨hdigit, hpoint, hlower, hupper⟩

theorem isScanned_members (h : IsScanned rest us) :
    IsScanned (Text.utf8 (printMembers ms) ++ 0x7d :: rest) (memberTokens ms ++ us) := by
  have hclose : IsScanned (0x7d :: rest) (.closeObject :: us) := h.cons rfl rfl le_rfl
  fun_induction memberTokens ms with
  | case1 =>
    have hbytes : Text.utf8 (printMembers []) = [] := utf8_eq _
    rw [hbytes]
    exact hclose
  | case2 name d =>
    rw [List.cons_append, List.cons_append, List.append_assoc]
    exact hclose.member (endsNumber_cons rfl (by decide) (by decide) (by decide))
  | case3 name d ms hne ih =>
    obtain ⟨m, ms, rfl⟩ := List.exists_cons_of_ne_nil hne
    have hcomma : IsScanned (0x2c :: (Text.utf8 (printMembers (m :: ms)) ++ 0x7d :: rest))
        (.comma :: (memberTokens (m :: ms) ++ us)) := ih.cons rfl rfl le_rfl
    have hbytes : Text.utf8 (printMembers ((name, d) :: m :: ms)) ++ 0x7d :: rest =
        Text.utf8 (printText name ++ ":" ++ d.text) ++
          0x2c :: (Text.utf8 (printMembers (m :: ms)) ++ 0x7d :: rest) := by
      have hmark : Text.utf8 "," = [0x2c] := utf8_eq _
      simp only [printMembers, List.map_cons, String.intercalate_cons_cons, utf8_append, hmark,
        List.append_assoc, List.cons_append, List.nil_append]
    rw [hbytes, List.cons_append, List.cons_append, List.append_assoc]
    exact hcomma.member (endsNumber_cons rfl (by decide) (by decide) (by decide))

theorem takeMembers_eq (hne : ms ≠ []) (n : Nat) (us : List Token)
    (hn : 2 * (memberTokens ms).length ≤ n) :
    takeMembers n (memberTokens ms ++ us) =
      some (ms.map fun m => (bodyOf m.1, m.2.value), us) := by
  fun_induction memberTokens ms generalizing n with
  | case1 => contradiction
  | case2 name d =>
    simp only [List.length_cons, List.length_append, List.length_nil] at hn
    obtain ⟨n, rfl⟩ : ∃ m, n = m + 1 := ⟨n - 1, by omega⟩
    have hvalue := d.standFor n (.closeObject :: us) (by omega)
    simp [takeMembers, hvalue]
  | case3 name d ms hrest ih =>
    simp only [List.length_cons, List.length_append] at hn
    obtain ⟨n, rfl⟩ : ∃ m, n = m + 1 := ⟨n - 1, by omega⟩
    have hvalue := d.standFor n (.comma :: (memberTokens ms ++ us)) (by omega)
    have hmembers := ih hrest n (by omega)
    simp [takeMembers, hvalue, hmembers]

theorem spells_object (ms : List (String × Document)) : Spells
    (Text.utf8 (printObject (ms.map fun m => (m.1, m.2.text)))) (.openObject :: memberTokens ms) := by
  intro rest us _ h
  have hbytes : Text.utf8 (printObject (ms.map fun m => (m.1, m.2.text))) ++ rest =
      0x7b :: (Text.utf8 (printMembers ms) ++ 0x7d :: rest) := by
    have hopen : Text.utf8 "\x7b" = [0x7b] := utf8_eq _
    have hclose : Text.utf8 "\x7d" = [0x7d] := utf8_eq _
    rw [printObject, utf8_append, utf8_append, hopen, hclose, List.map_map, List.append_assoc,
      List.append_assoc]
    rfl
  rw [hbytes]
  exact (isScanned_members h).cons rfl rfl le_rfl

theorem standFor_object (ms : List (String × Document)) : StandFor (.openObject :: memberTokens ms)
    (.object (ms.map fun m => (bodyOf m.1, m.2.value))) := by
  intro n us hn
  rw [List.length_cons] at hn
  obtain ⟨n, rfl⟩ : ∃ m, n = m + 1 := ⟨n - 1, by omega⟩
  cases ms with
  | nil => rw [memberTokens, List.cons_append, List.singleton_append, takeValue, List.map_nil]
  | cons m ms =>
    have hmembers := takeMembers_eq (List.cons_ne_nil m ms) n us (by omega)
    -- The first token is a name, so the object is not at its end.
    have hname : ∃ ts, memberTokens (m :: ms) = .string (bodyOf m.1) :: ts := by
      cases ms <;> exact ⟨_, rfl⟩
    obtain ⟨ts, hts⟩ := hname
    rw [hts] at hmembers ⊢
    rw [List.cons_append, List.cons_append] at *
    simp [takeValue, hmembers]

/-- The document of an object. -/
def Document.ofMembers (ms : List (String × Document)) : Document where
  text := printObject (ms.map fun m => (m.1, m.2.text))
  tokens := .openObject :: memberTokens ms
  value := .object (ms.map fun m => (bodyOf m.1, m.2.value))
  spells := by exact spells_object ms
  standFor := by exact standFor_object ms

/-! ### Records -/

/-- The members that are written for fields: those that are present. -/
def present (fields : List (String × Option Document)) : List (String × Document) :=
  fields.filterMap fun f => f.2.map (f.1, ·)

variable {fields : List (String × Option Document)}

theorem mapM_eq_some_map {α β : Type} {l : List α} {f : α → Option β} {g : α → β}
    (h : ∀ a ∈ l, f a = some (g a)) : l.mapM f = some (l.map g) := by
  induction l with
  | nil => rfl
  | cons a l ih =>
    obtain ⟨ha, hl⟩ := List.forall_mem_cons.mp h
    rw [List.mapM_cons, ha, ih hl]
    rfl

theorem named?_ofMembers (ms : List (String × Document)) :
    named? (ms.map fun m => (bodyOf m.1, m.2.value)) = some (ms.map fun m => (m.1, m.2.value)) := by
  rw [named?, List.mapM_map]
  refine mapM_eq_some_map fun m _ => ?_
  simp [text?_bodyOf]

/-- A field is found among the members of its record by its name. -/
theorem member?_present (hdistinct : (fields.map Prod.fst).Nodup) {f : String × Option Document}
    (hf : f ∈ fields) :
    member? ((present fields).map fun m => (m.1, m.2.value)) f.1 = some (f.2.map (·.value)) := by
  have hnone (fs : List (String × Option Document)) (name : String)
      (h : name ∉ fs.map Prod.fst) :
      ((present fs).map fun m => (m.1, m.2.value)).filter (·.1 = name) = [] := by
    simp only [List.filter_eq_nil_iff, present, List.mem_map, List.mem_filterMap]
    rintro _ ⟨m, ⟨g, hg, hm⟩, rfl⟩ heq
    obtain ⟨d, -, rfl⟩ := Option.map_eq_some_iff.mp hm
    exact h (List.mem_map.mpr ⟨g, hg, by simpa using heq⟩)
  have hfilter : ((present fields).map fun m => (m.1, m.2.value)).filter (·.1 = f.1) =
      (f.2.map fun d => (f.1, d.value)).toList := by
    induction fields with
    | nil => contradiction
    | cons g fs ih =>
      rw [List.map_cons, List.nodup_cons] at hdistinct
      rcases List.mem_cons.mp hf with rfl | hmem
      · obtain ⟨name, d⟩ := f
        have hrest := hnone fs name hdistinct.1
        cases d <;> simpa [present] using hrest
      · have hne : g.1 ≠ f.1 := by
          intro heq
          exact hdistinct.1 (List.mem_map.mpr ⟨f, hmem, heq.symm⟩)
        have hrest := ih hdistinct.2 hmem
        obtain ⟨name, d⟩ := g
        cases d <;> simpa [present, hne] using hrest
  rw [member?, hfilter]
  obtain ⟨name, d⟩ := f
  cases d <;> rfl

/-- The fields of a record are read from the members that are present. -/
theorem record?_present (hdistinct : (fields.map Prod.fst).Nodup) (least : Nat) :
    record? (fields.map Prod.fst) least (Document.ofMembers (present fields)).value =
      some (fields.map fun f => f.2.map (·.value)) := by
  show (named? _).bind _ = _
  rw [named?_ofMembers, Option.bind_some, List.mapM_map]
  exact mapM_eq_some_map fun f hf => member?_present hdistinct hf

variable {α : Type} {read : Json → Option α}

theorem asOption?_of_ne_null {j : Json} (h : j ≠ .null) : asOption? read j = (read j).map some := by
  cases j <;> first | rfl | contradiction

/-- A field that may be absent is read from the document of its value, if it has one. -/
theorem optional?_map {write : α → Document} {o : Option α}
    (h : ∀ a ∈ o, read (write a).value = some a ∧ (write a).value ≠ .null) :
    optional? read ((o.map write).map (·.value)) = some o := by
  cases o with
  | none => rfl
  | some a =>
    obtain ⟨hread, hnull⟩ := h a rfl
    show asOption? read (write a).value = _
    rw [asOption?_of_ne_null hnull, hread]
    rfl

end Utxo.Json
