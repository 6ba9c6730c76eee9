/-
JSON values and the records read from them.

A record is written as an object, or as an array of its fields in order. Members that the record
does not have are skipped, and a member that it has may occur once. So it is documented of the readers
that `serde` derives for a record; the grammar and the escapes are those of the parser of `serde_json`,
which reads a text to its end.
-/
import Utxo.Json.Token

namespace Utxo

/-- A JSON value, its numbers and strings as written. -/
inductive Json where
  | null
  | bool (b : Bool)
  | number (digits : Bytes)
  | string (body : Bytes)
  | array (items : List Json)
  | object (members : List (Bytes × Json))

namespace Json

/-! ### Grammar -/

mutual

/-- The value that comes first, and the tokens that follow it. -/
def takeValue : Nat → List Token → Option (Json × List Token)
  | 0, _ => none
  | n + 1, tokens =>
    match tokens with
    | .null :: ts => some (null, ts)
    | .bool b :: ts => some (bool b, ts)
    | .number ds :: ts => some (number ds, ts)
    | .string body :: ts => some (string body, ts)
    | .openArray :: .closeArray :: ts => some (array [], ts)
    | .openArray :: ts => (takeItems n ts).map fun (items, ts) => (array items, ts)
    | .openObject :: .closeObject :: ts => some (object [], ts)
    | .openObject :: ts => (takeMembers n ts).map fun (members, ts) => (object members, ts)
    | _ => none

/-- The items of an array, at least one, up to its end. -/
def takeItems : Nat → List Token → Option (List Json × List Token)
  | 0, _ => none
  | n + 1, tokens => do
    let (item, ts) ← takeValue n tokens
    match ts with
    | .closeArray :: ts => return ([item], ts)
    | .comma :: ts =>
      let (items, ts) ← takeItems n ts
      return (item :: items, ts)
    | _ => none

/-- The members of an object, at least one, up to its end. -/
def takeMembers : Nat → List Token → Option (List (Bytes × Json) × List Token)
  | 0, _ => none
  | n + 1, tokens =>
    match tokens with
    | .string key :: .colon :: ts => do
      let (value, ts) ← takeValue n ts
      match ts with
      | .closeObject :: ts => return ([(key, value)], ts)
      | .comma :: ts =>
        let (members, ts) ← takeMembers n ts
        return ((key, value) :: members, ts)
      | _ => none
    | _ => none

end

/-- The value that a text stands for. -/
def parse (text : Bytes) : Option Json := do
  let tokens ← Token.scan text
  match takeValue (2 * tokens.length) tokens with
  | some (value, []) => some value
  | _ => none

/-! ### Strings -/

/-- The code unit that four hexadecimal digits stand for. -/
def codeUnit (a b c d : UInt8) : Nat :=
  [a, b, c, d].foldl (fun n x => 16 * n + (Hex.digitValue? x.toNat).getD 0) 0

/-- What a backslash and another byte stand for. -/
def plainEscape (b : UInt8) : UInt8 :=
  if b = 0x62 then 0x08 else if b = 0x66 then 0x0c else if b = 0x6e then 0x0a
  else if b = 0x72 then 0x0d else if b = 0x74 then 0x09 else b

/-- A character in UTF-8. -/
def utf8 (n : Nat) : Bytes := String.utf8EncodeChar (Char.ofNat n)

/-- The bytes that the body of a string stands for. A surrogate has to be one of a pair. -/
def unescape : Bytes → Option Bytes
  | 0x5c :: 0x75 :: a :: b :: c :: d :: rest =>
    let unit := codeUnit a b c d
    if 0xdc00 ≤ unit ∧ unit < 0xe000 then none
    else if 0xd800 ≤ unit ∧ unit < 0xdc00 then
      match rest with
      | 0x5c :: 0x75 :: a :: b :: c :: d :: rest =>
        let low := codeUnit a b c d
        if 0xdc00 ≤ low ∧ low < 0xe000 then
          (unescape rest).map (utf8 (0x10000 + (unit - 0xd800) * 0x400 + (low - 0xdc00)) ++ ·)
        else none
      | _ => none
    else (unescape rest).map (utf8 unit ++ ·)
  | 0x5c :: b :: rest => (unescape rest).map (plainEscape b :: ·)
  | b :: rest => (unescape rest).map (b :: ·)
  | [] => some []

/-- The text that the body of a string stands for. -/
def text? (body : Bytes) : Option String :=
  (unescape body).bind fun bs => String.fromUTF8? ⟨bs.toArray⟩

/-! ### Reading values -/

/-- The text of a string. -/
def asText? : Json → Option String
  | string body => text? body
  | _ => none

/-- The truth value. -/
def asBool? : Json → Option Bool
  | bool b => some b
  | _ => none

/-- The natural number below `bound`, written in digits alone. -/
def asNat? (bound : Nat) : Json → Option Nat
  | number ds =>
    if ds.all Token.isDigit then
      let n := ds.foldl (fun n d => 10 * n + (d.toNat - 0x30)) 0
      if n < bound then some n else none
    else none
  | _ => none

/-- A value that may be null instead. -/
def asOption? {α : Type} (read : Json → Option α) : Json → Option (Option α)
  | null => some none
  | j => (read j).map some

/-! ### Reading records -/

/-- The members of an object by their names, if each name is a text. -/
def named? (members : List (Bytes × Json)) : Option (List (String × Json)) :=
  members.mapM fun (key, value) => (text? key).map (·, value)

/-- The one member of a name; `some none` if there is no such member. -/
def member? (members : List (String × Json)) (name : String) : Option (Option Json) :=
  match members.filter (·.1 = name) with
  | [] => some none
  | [(_, value)] => some (some value)
  | _ => none

/-- The fields of a record, each of which may be absent from an object. An array has at least
`least` of them. -/
def record? (names : List String) (least : Nat) : Json → Option (List (Option Json))
  | object members => do
    let members ← named? members
    names.mapM (member? members)
  | array items =>
    if least ≤ items.length ∧ items.length ≤ names.length then
      some (items.map some ++ List.replicate (names.length - items.length) none)
    else none
  | _ => none

/-- A field that may be absent or null. -/
def optional? {α : Type} (read : Json → Option α) : Option Json → Option (Option α)
  | none => some none
  | some j => asOption? read j

end Json

end Utxo
