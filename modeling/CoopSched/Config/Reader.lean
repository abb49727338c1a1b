import CoopSched.Config.Number

/-!
# Configurations from text

A configuration is a JSON object with any of its fields, in any order, or a JSON array with the
values of its first fields. What is not given keeps its default.

The text is read once from left to right. A key is judged as soon as it has been read, so an
unknown or repeated field is reported whatever comes after it; and a value of the wrong type is
reported at its first character when it is an array or an object, the inside unread. An object
has at most as many entries as there are fields, which is why the recursion over its entries goes
down the list of the fields that are still free.
-/

namespace CoopSched
namespace Config

/-- Is the character a blank of JSON? -/
def isJsonBlank (c : Char) : Bool := c == ' ' || c == '\n' || c == '\t' || c == '\r'

/-- The text from its next character on that is no blank. -/
def skipBlank (cs : List Char) : List Char := cs.dropWhile isJsonBlank

/-- Reads the letters of a fixed word. -/
def readWord : List Char → List Char → Except ReadFault (List Char)
  | [], cs => .ok cs
  | _ :: _, [] => .error .truncated
  | w :: word, c :: cs => if w = c then readWord word cs else .error .malformed

/-! ## Strings -/

/-- The value of a hexadecimal digit. -/
def hexValue? (c : Char) : Option Nat :=
  if c.isDigit then some (c.toNat - '0'.toNat)
  else if 'a' ≤ c ∧ c ≤ 'f' then some (c.toNat - 'a'.toNat + 10)
  else if 'A' ≤ c ∧ c ≤ 'F' then some (c.toNat - 'A'.toNat + 10)
  else none

/-- The four hexadecimal digits at the front of a text, with a rest that is shorter. The text is
    too short for them if it has fewer than four bytes left. -/
def readHex (cs : List Char) :
    Except ReadFault (Nat × { rest : List Char // rest.length < cs.length }) :=
  match cs with
  | a :: b :: c :: d :: rest =>
      match hexValue? a, hexValue? b, hexValue? c, hexValue? d with
      | some a, some b, some c, some d =>
          .ok (((a * 16 + b) * 16 + c) * 16 + d, ⟨rest, by simp; omega⟩)
      | _, _, _, _ => .error .malformed
  | short =>
      if short.foldl (fun n c => n + c.utf8Size) 0 < 4 then .error .truncated else .error .malformed

/-- The escaped character behind `\u`. A character beyond the first 65536 is written as two
    surrogates, the second of which is escaped as well; a surrogate alone is none. -/
def readCodePoint (cs : List Char) :
    Except ReadFault (Char × { rest : List Char // rest.length < cs.length }) := do
  let (n, ⟨rest, h⟩) ← readHex cs
  if 0xDC00 ≤ n ∧ n ≤ 0xDFFF then .error .malformed
  else if n < 0xD800 ∨ 0xDBFF < n then .ok (Char.ofNat n, ⟨rest, h⟩)
  else
    match rest, h with
    | '\\' :: 'u' :: rest, h =>
        let (m, ⟨rest', h'⟩) ← readHex rest
        if 0xDC00 ≤ m ∧ m ≤ 0xDFFF then
          .ok (Char.ofNat (0x10000 + (n - 0xD800) * 0x400 + (m - 0xDC00)),
            ⟨rest', by simp at h; omega⟩)
        else .error .malformed
    | [], _ | ['\\'], _ => .error .truncated
    | _, _ => .error .malformed

/-- The escaped character behind a backslash. -/
def readEscape (cs : List Char) :
    Except ReadFault (Char × { rest : List Char // rest.length < cs.length }) :=
  match cs with
  | [] => .error .truncated
  | c :: rest =>
      let literal := fun (d : Char) =>
        Except.ok (d, ⟨rest, by simp⟩)
      if c = '"' ∨ c = '\\' ∨ c = '/' then literal c
      else if c = 'b' then literal '\x08'
      else if c = 'f' then literal '\x0c'
      else if c = 'n' then literal '\n'
      else if c = 'r' then literal '\r'
      else if c = 't' then literal '\t'
      else if c = 'u' then
        match readCodePoint rest with
        | .ok (d, ⟨rest', h⟩) => .ok (d, ⟨rest', by simp; omega⟩)
        | .error e => .error e
      else .error .malformed

/-- The characters of a string, its opening quote being read. Control characters must be
    escaped. -/
def readChars (cs : List Char) : Except ReadFault (List Char × List Char) :=
  match cs with
  | [] => .error .truncated
  | '"' :: rest => .ok ([], rest)
  | '\\' :: rest =>
      match readEscape rest with
      | .error e => .error e
      | .ok (c, ⟨rest', _⟩) => (readChars rest').map fun (s, r) => (c :: s, r)
  | c :: rest =>
      if c.toNat < 0x20 then .error .malformed
      else (readChars rest).map fun (s, r) => (c :: s, r)
termination_by cs.length
decreasing_by all_goals simp_wf; try omega

/-- A string, its opening quote being read. -/
def readString (cs : List Char) : Except ReadFault (String × List Char) :=
  (readChars cs).map fun (s, r) => (String.ofList s, r)

/-! ## Values -/

/-- A number in the wrong place. -/
def Number.found : Number → Found
  | .natural n => .integer n
  | .negative i => .integer i
  | .float bits => .float bits

/-- The fault of a text at whose front something else is wanted. -/
def misplaced (wanted : Wanted) (cs : List Char) : ReadFault :=
  let wrong := fun (found : Found) => ReadFault.mismatch (.wrongType found wanted)
  let ofWord := fun (word : String) (found : Found) (rest : List Char) =>
    match readWord word.toList rest with
    | .ok _ => wrong found
    | .error e => e
  let ofNumber := fun (isPositive : Bool) (cs : List Char) =>
    match readNumber isPositive cs with
    | .ok (n, _) => wrong n.found
    | .error e => e
  match cs with
  | [] => .truncated
  | c :: rest =>
      if c = 'n' then ofWord "ull" .null rest
      else if c = 't' then ofWord "rue" (.boolean true) rest
      else if c = 'f' then ofWord "alse" (.boolean false) rest
      else if c = '-' then ofNumber false rest
      else if c.isDigit then ofNumber true cs
      else if c = '"' then
        match readString rest with
        | .ok (s, _) => wrong (.string s)
        | .error e => e
      else if c = '[' then wrong .sequence
      else if c = '{' then wrong .map
      else .malformed

/-- A number as a count. -/
def Number.toCount : Number → Except ReadFault Nat
  | .natural n => .ok n
  | .negative i => .error (.mismatch (.negative i))
  | .float bits => .error (.mismatch (.wrongType (.float bits) .count))

/-- Reads a count. -/
def readCount (cs : List Char) : Except ReadFault (Nat × List Char) :=
  match skipBlank cs with
  | [] => .error .truncated
  | c :: rest =>
      if c = '-' ∨ c.isDigit then do
        let (n, rest) ← if c = '-' then readNumber false rest else readNumber true (c :: rest)
        let n ← n.toCount
        .ok (n, rest)
      else .error (misplaced .count (c :: rest))

/-- Reads a limit: a count, or `null` for none. -/
def readLimit (cs : List Char) : Except ReadFault (Option Nat × List Char) :=
  match skipBlank cs with
  | 'n' :: rest => (readWord "ull".toList rest).map (none, ·)
  | cs => (readCount cs).map fun (n, rest) => (some n, rest)

/-- Reads the value of a field into a configuration. -/
def readField (c : Config) (field : Field) (cs : List Char) :
    Except ReadFault (Config × List Char) :=
  match field with
  | .workers => (readCount cs).map fun (n, rest) => ({ c with workers := n }, rest)
  | .maxPending => (readLimit cs).map fun (n, rest) => ({ c with maxPending := n }, rest)
  | .eventCapacity => (readCount cs).map fun (n, rest) => ({ c with eventCapacity := n }, rest)

/-! ## Objects and arrays -/

/-- What stands next in an object. -/
inductive NextEntry where
  /-- An entry; the text from behind the opening quote of its key on. -/
  | key (rest : List Char)
  /-- The end; the text behind it. -/
  | finished (rest : List Char)
deriving DecidableEq, Repr

/-- Looks for the next entry of an object. -/
def nextEntry (isFirst : Bool) (cs : List Char) : Except ReadFault NextEntry :=
  match skipBlank cs with
  | [] => .error .truncated
  | '}' :: rest => .ok (.finished rest)
  | c :: rest =>
      if isFirst then if c = '"' then .ok (.key rest) else .error .malformed
      else if c = ',' then
        match skipBlank rest with
        | [] => .error .truncated
        | '"' :: rest => .ok (.key rest)
        | _ :: _ => .error .malformed
      else .error .malformed

/-- Reads the colon behind a key. -/
def readColon (cs : List Char) : Except ReadFault (List Char) :=
  match skipBlank cs with
  | [] => .error .truncated
  | ':' :: rest => .ok rest
  | _ :: _ => .error .malformed

/-- Judges a key by its name: it has to name a field that is still free. -/
def judgeKey (free : List Field) (name : String) : Except ReadFault { f : Field // f ∈ free } :=
  match Field.ofName? name with
  | none => .error (.mismatch (.unknownField name))
  | some f => if h : f ∈ free then .ok ⟨f, h⟩ else .error (.mismatch (.duplicateField f))

/-- Reads the entries of an object up to its end, for the fields that are still free. -/
def readEntries (free : List Field) (c : Config) (isFirst : Bool) (cs : List Char) :
    Except ReadFault (Config × List Char) := do
  match ← nextEntry isFirst cs with
  | .finished rest => .ok (c, rest)
  | .key key =>
      let (name, rest) ← readString key
      let ⟨field, _⟩ ← judgeKey free name
      let rest ← readColon rest
      let (c, rest) ← readField c field rest
      readEntries (free.erase field) c false rest
termination_by free.length
decreasing_by
  rename_i h
  have := List.length_pos_of_mem h
  rw [List.length_erase_of_mem h]
  omega

/-- Reads the elements of an array up to its end, for the fields from `fields` on. -/
def readElements (fields : List Field) (c : Config) (isFirst : Bool) (cs : List Char) :
    Except ReadFault (Config × List Char) :=
  match fields, skipBlank cs with
  | _, [] => .error .truncated
  | _, ']' :: rest => .ok (c, rest)
  | [], _ :: _ => .error .malformed
  | field :: fields, d :: rest => do
      let value ←
        if isFirst then .ok (d :: rest)
        else if d = ',' then
          match skipBlank rest with
          | [] => .error .truncated
          | ']' :: _ => .error .malformed
          | value => .ok value
        else .error .malformed
      let (c, rest) ← readField c field value
      readElements fields c false rest

/-- Reads a configuration from the front of a text. -/
def readConfig (cs : List Char) : Except ReadFault (Config × List Char) :=
  match skipBlank cs with
  | [] => .error .truncated
  | '[' :: rest => readElements Field.all {} true rest
  | '{' :: rest => readEntries Field.all {} true rest
  | cs => .error (misplaced .config cs)

/-- The configuration that a text gives, if all of the text is used and a scheduler can be
    started with it. -/
def fromJson (text : String) : Except Fault Config :=
  match readConfig text.toList with
  | .error e => .error (.unreadable e)
  | .ok (c, rest) =>
      if (skipBlank rest).isEmpty then
        match c.invalid? with
        | some cause => .error (.invalid cause)
        | none => .ok c
      else .error (.unreadable .malformed)

end Config
end CoopSched
