/-
Digest caches, reports and scripts are read as they were written.

Each has a document whose text is what is written of it, and its fields are read from the value of the
document. A digest that a cache lacks is a null, while a site leaves out what it does not know.

* **`DigestCache.document`**, **`Site.document`**, **`Report.document`** — the documents;
* **`Tx.envelopes_areReadBack`** — all of them are read back from JSON, and a cache from the digits of it.
-/
import Utxo.Proofs.Bytes.Hex
import Utxo.Proofs.Json.Documents
import Utxo.Tx.Cache
import Utxo.Tx.Verify

namespace Utxo

open Json

namespace Json

theorem isPlainChar_of_mem_encode {bs : Bytes} {c : Char} (h : c ∈ (Hex.encode bs).toList) :
    IsPlainChar c := by
  refine Hex.of_mem_encode (p := IsPlainChar) (fun n hn => ?_) h
  have hvalue := Hex.digitValue?_digit hn
  refine ⟨Nat.le_trans (by decide) (Hex.toNat_digit hn).1, ?_, ?_⟩
  · intro hquote
    rw [hquote] at hvalue
    cases hvalue
  · intro hslash
    rw [hslash] at hvalue
    cases hvalue

end Json

/-! ### Scripts -/

theorem Script.ofHex_toHex (s : Script) : Script.ofHex s.toHex = .ok s := by
  rw [Script.ofHex, Script.toHex, Hex.decodeLenient_encode]

theorem Script.ofJson?_toJson (s : Script) : Script.ofJson? (Text.utf8 s.toJson) = some s := by
  have hparse : Json.parse (Text.utf8 s.toJson) = some (.string (bodyOf s.toHex)) :=
    (Document.ofText s.toHex).parse_eq rfl
  simp only [Script.ofJson?, hparse, Option.bind_eq_bind, Option.bind_some, Json.asText?,
    text?_bodyOf, Script.ofHex_toHex, Except.toOption]

/-! ### Sites -/

namespace Site

/-- The places of a site are 64-bit words. -/
structure IsAddressed (s : Site) : Prop where
  scriptIndex : ∀ n ∈ s.scriptIndex, n < UInt64.size
  offset : ∀ n ∈ s.offset, n < UInt64.size

/-- What is known of a site, each with its name. -/
def fields (s : Site) : List (String × Option Document) :=
  [("scriptIndex", s.scriptIndex.map .ofNat), ("offset", s.offset.map .ofNat),
    ("opcode", (s.opcode.map UInt8.toNat).map .ofNat), ("executed", s.executed.map .ofBool)]

/-- The document of a site. -/
def document (s : Site) : Document := .ofMembers (present s.fields)

theorem document_text (s : Site) : s.document.text = s.toJson := by
  obtain ⟨_ | _, _ | _, _ | _, _ | _⟩ := s <;> rfl

theorem optional?_ofNat {bound : Nat} {o : Option Nat} (h : ∀ n ∈ o, n < bound) :
    optional? (asNat? bound) ((o.map Document.ofNat).map (·.value)) = some o :=
  optional?_map fun n hn => ⟨(isNumeral_toString n).asNat? (h n hn), nofun⟩

theorem ofJson?_document {s : Site} (h : s.IsAddressed) : ofJson? s.document.value = some s := by
  have hopcode : ∀ n ∈ s.opcode.map UInt8.toNat, n < 256 := by
    intro n hn
    obtain ⟨op, -, rfl⟩ := Option.map_eq_some_iff.mp hn
    exact op.toNat_lt
  have hexecuted : optional? asBool? ((s.executed.map Document.ofBool).map (·.value)) =
      some s.executed := optional?_map fun b _ => ⟨rfl, nofun⟩
  have hdistinct : (s.fields.map Prod.fst).Nodup := by
    show ["scriptIndex", "offset", "opcode", "executed"].Nodup
    decide
  have hrecord : record? ["scriptIndex", "offset", "opcode", "executed"] 0 s.document.value =
      some [(s.scriptIndex.map Document.ofNat).map (·.value),
        (s.offset.map Document.ofNat).map (·.value),
        ((s.opcode.map UInt8.toNat).map Document.ofNat).map (·.value),
        (s.executed.map Document.ofBool).map (·.value)] := record?_present hdistinct 0
  have hback : (s.opcode.map UInt8.toNat).map UInt8.ofNat = s.opcode := by
    have hinverse : UInt8.ofNat ∘ UInt8.toNat = id := funext fun op => UInt8.ofNat_toNat
    rw [Option.map_map, hinverse, Option.map_id, id]
  simp only [ofJson?, hrecord, Option.bind_eq_bind, Option.bind_some,
    optional?_ofNat h.scriptIndex, optional?_ofNat h.offset, optional?_ofNat hopcode, hexecuted,
    hback]
  rfl

end Site

namespace Tx

/-! ### Digest caches -/

namespace DigestCache

/-- The document of a digest: a null if there is none. -/
def digestDocument : Option Hash256 → Document
  | some h => .ofText (Hex.encode h.bytes)
  | none => .null

theorem digestDocument_text (o : Option Hash256) : (digestDocument o).text = printDigest o := by
  cases o <;> rfl

theorem optional?_digestDocument (o : Option Hash256) :
    optional? readDigest (some (digestDocument o).value) = some o := by
  cases o with
  | none => rfl
  | some h =>
    have hread : readDigest (.string (bodyOf (Hex.encode h.bytes))) = some h := by
      simp only [readDigest, asText?, text?_bodyOf, Hex.decode_encode, Except.toOption,
        Option.bind_eq_bind, Option.bind_some]
      exact dif_pos h.length_bytes
    show (readDigest (.string _)).map some = _
    rw [hread]
    rfl

/-- The digests, each with its name. -/
def fields (c : DigestCache) : List (String × Option Document) :=
  [("prevoutsHashBuf", some (digestDocument c.prevouts)),
    ("sequenceHashBuf", some (digestDocument c.sequence)),
    ("outputsHashBuf", some (digestDocument c.outputs))]

/-- The document of a cache. -/
def document (c : DigestCache) : Document := .ofMembers (present c.fields)

theorem document_text (c : DigestCache) : c.document.text = c.toJson := by
  rw [toJson, List.map_cons, List.map_cons, List.map_cons, ← digestDocument_text,
    ← digestDocument_text, ← digestDocument_text]
  rfl

theorem ofJson_toJson (c : DigestCache) : ofJson (Text.utf8 c.toJson) = .ok c := by
  have hdistinct : (c.fields.map Prod.fst).Nodup := by
    show fieldNames.Nodup
    decide
  have hrecord : record? fieldNames 0 c.document.value =
      some [some (digestDocument c.prevouts).value, some (digestDocument c.sequence).value,
        some (digestDocument c.outputs).value] := record?_present hdistinct 0
  simp only [ofJson, c.document.parse_eq c.document_text, hrecord, Option.bind_eq_bind,
    Option.bind_some, optional?_digestDocument]
  rfl

theorem ofHex_toHex (c : DigestCache) : ofHex c.toHex = .ok c := by
  have hdecode : Hex.decode c.toHex = .ok (Text.utf8 c.toJson) := Hex.decode_encode _
  rw [ofHex, hdecode]
  exact c.ofJson_toJson

/-- The value that stands for a digest: its digits, or null if there is none. -/
def digestValue : Option Hash256 → Json
  | some h => .string (Text.utf8 (Hex.encode h.bytes))
  | none => .null

theorem digestDocument_value (o : Option Hash256) : (digestDocument o).value = digestValue o := by
  cases o with
  | none => rfl
  | some h =>
    have hbody := bodyOf_of_plain fun c (hc : c ∈ (Hex.encode h.bytes).toList) =>
      isPlainChar_of_mem_encode hc
    exact congrArg Json.string hbody

theorem parse_toJson (c : DigestCache) : Json.parse (Text.utf8 c.toJson) =
    some (.object [(Text.utf8 "prevoutsHashBuf", digestValue c.prevouts),
      (Text.utf8 "sequenceHashBuf", digestValue c.sequence),
      (Text.utf8 "outputsHashBuf", digestValue c.outputs)]) := by
  have hname : ∀ name ∈ fieldNames, bodyOf name = Text.utf8 name := by
    simp only [Text.utf8_eq]
    decide
  rw [c.document.parse_eq c.document_text, ← digestDocument_value, ← digestDocument_value,
    ← digestDocument_value, ← hname "prevoutsHashBuf" (by decide),
    ← hname "sequenceHashBuf" (by decide), ← hname "outputsHashBuf" (by decide)]
  rfl

end DigestCache

/-! ### Reports -/

namespace Report

/-- The outcome and the site, each with its name. -/
def fields (r : Report) : List (String × Option Document) :=
  [("success", some (.ofBool r.success)), ("error", some (.ofText r.error)),
    ("failedAt", some r.failedAt.document)]

/-- The document of a report. -/
def document (r : Report) : Document := .ofMembers (present r.fields)

theorem document_text (r : Report) : r.document.text = r.toJson := by
  rw [toJson, ← Site.document_text]
  rfl

theorem ofJson?_toJson {r : Report} (h : r.failedAt.IsAddressed) :
    ofJson? (Text.utf8 r.toJson) = some r := by
  have hdistinct : (r.fields.map Prod.fst).Nodup := by
    show ["success", "error", "failedAt"].Nodup
    decide
  have hrecord : record? ["success", "error", "failedAt"] 3 r.document.value =
      some [some (.bool r.success), some (.string (bodyOf r.error)),
        some r.failedAt.document.value] := record?_present hdistinct 3
  simp only [ofJson?, r.document.parse_eq r.document_text, hrecord, Option.bind_eq_bind,
    Option.bind_some, asBool?, asText?, text?_bodyOf, Site.ofJson?_document h]
  rfl

end Report

/-- What is written of a digest cache, of a report and of a script is read back: a cache from its JSON and
from the digits of that, in which a digest that it lacks is a null; a report with any text of an error
and whatever is known of the site. -/
theorem envelopes_areReadBack :
    (∀ c : DigestCache,
      DigestCache.ofJson (Text.utf8 c.toJson) = .ok c ∧ DigestCache.ofHex c.toHex = .ok c ∧
        Json.parse (Text.utf8 c.toJson) =
          some (.object [(Text.utf8 "prevoutsHashBuf", DigestCache.digestValue c.prevouts),
            (Text.utf8 "sequenceHashBuf", DigestCache.digestValue c.sequence),
            (Text.utf8 "outputsHashBuf", DigestCache.digestValue c.outputs)])) ∧
      (∀ r : Report, r.failedAt.IsAddressed →
        Report.ofJson? (Text.utf8 r.toJson) = some r) ∧
      ∀ s : Script, Script.ofJson? (Text.utf8 s.toJson) = some s :=
  ⟨fun c => ⟨c.ofJson_toJson, c.ofHex_toHex, c.parse_toJson⟩, fun _ => Report.ofJson?_toJson,
    Script.ofJson?_toJson⟩

/-- A report with an error text full of escapes and the widest offset, whose script and whether it was
executed are not known. -/
theorem envelopes_areReadBack_escapes :
    let r : Report := ⟨false, "\"\\\n\x01é😀", ⟨none, some 18446744073709551615, some 106, none⟩⟩
    r.failedAt.IsAddressed ∧
      r.toJson = "\x7b\"success\":false,\"error\":\"\\\"\\\\\\n\\u0001é😀\",\"failedAt\":" ++
        "\x7b\"offset\":18446744073709551615,\"opcode\":106\x7d\x7d" ∧
      Report.ofJson? (Text.utf8 r.toJson) = some r := by
  intro r
  have haddressed : r.failedAt.IsAddressed := ⟨nofun, fun n hn => by cases hn; decide⟩
  exact ⟨haddressed, by decide +kernel, envelopes_areReadBack.2.1 r haddressed⟩

end Tx

end Utxo
