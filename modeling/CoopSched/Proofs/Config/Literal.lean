import CoopSched.Config.Reader
import Mathlib.Data.Nat.Init

/-!
# Literals — how a name can be written in JSON

A name stands between two quotes, and it can be written in many ways. Most characters stand for
themselves, a few have an escape of two characters, and each has one by its number in hexadecimal:
a unit of 16 bits, or two of them, a high and a low surrogate, for a character beyond the first
65536. `Glyph` has these four ways, and a `Literal` is the characters of a name in turn, each in one
of them. A surrogate that stands alone is no character, so a string with one in it has no name.

Whichever way a name is written, the reader reads that name, and stops behind the closing quote
(`readString_literal`).
-/

namespace CoopSched
namespace Config

variable {c letter : Char} {n v : Nat} {name text rest : List Char}

/-! ## Writing -/

/-- A hexadecimal digit, with its value. -/
inductive HexDigit : Char → Nat → Prop
  | decimal {d : Nat} (h : d < 10) : HexDigit (Char.ofNat ('0'.toNat + d)) d
  | lower {d : Nat} (h : d < 6) : HexDigit (Char.ofNat ('a'.toNat + d)) (10 + d)
  | upper {d : Nat} (h : d < 6) : HexDigit (Char.ofNat ('A'.toNat + d)) (10 + d)

/-- Four hexadecimal digits write a unit of 16 bits. -/
inductive CodeUnit : Nat → List Char → Prop
  | mk {a b c d : Char} {i j k l : Nat} (ha : HexDigit a i) (hb : HexDigit b j)
      (hc : HexDigit c k) (hd : HexDigit d l) :
      CodeUnit (i * 0x1000 + j * 0x100 + k * 0x10 + l) [a, b, c, d]

/-- The letters that stand behind a backslash for a character. -/
def shortEscapes : List (Char × Char) :=
  [('"', '"'), ('\\', '\\'), ('/', '/'), ('b', '\x08'), ('f', '\x0c'), ('n', '\n'), ('r', '\r'),
    ('t', '\t')]

/-- The ways to write a character. -/
inductive Glyph : Char → List Char → Prop
  | plain {c : Char} (hquote : c ≠ '"') (hslash : c ≠ '\\') (hcontrol : 0x20 ≤ c.toNat) :
      Glyph c [c]
  | short {letter c : Char} (h : (letter, c) ∈ shortEscapes) : Glyph c ['\\', letter]
  | unit {n : Nat} {digits : List Char} (h : CodeUnit n digits) (hchar : n < 0xD800 ∨ 0xDFFF < n) :
      Glyph (Char.ofNat n) ('\\' :: 'u' :: digits)
  | surrogates {high low : Nat} {digits digits' : List Char} (h : CodeUnit (0xD800 + high) digits)
      (h' : CodeUnit (0xDC00 + low) digits') (hhigh : high < 0x400) (hlow : low < 0x400) :
      Glyph (Char.ofNat (0x10000 + high * 0x400 + low))
        ('\\' :: 'u' :: (digits ++ '\\' :: 'u' :: digits'))

/-- What stands between the quotes of a string that is this name. -/
inductive Literal : List Char → List Char → Prop
  | nil : Literal [] []
  | cons {c : Char} {name glyph more : List Char} (h : Glyph c glyph) (hrest : Literal name more) :
      Literal (c :: name) (glyph ++ more)

/-- Where nothing has to be escaped a name may be written as it stands. -/
theorem literal_plain
    (h : (name.all fun d => d != '"' && d != '\\' && (0x20 ≤ d.toNat : Bool)) = true) :
    Literal name name := by
  induction name with
  | nil => exact .nil
  | cons d name ih =>
    simp only [List.all_cons, Bool.and_eq_true, bne_iff_ne, decide_eq_true_eq] at h
    obtain ⟨⟨⟨hquote, hslash⟩, hcontrol⟩, hrest⟩ := h
    exact .cons (.plain hquote hslash hcontrol) (ih hrest)

/-! ## Reading -/

theorem HexDigit.value (h : HexDigit c v) : hexValue? c = some v := by
  have hdecimal : ∀ d < 10, hexValue? (Char.ofNat ('0'.toNat + d)) = some d := by decide
  have hlower : ∀ d < 6, hexValue? (Char.ofNat ('a'.toNat + d)) = some (10 + d) := by decide
  have hupper : ∀ d < 6, hexValue? (Char.ofNat ('A'.toNat + d)) = some (10 + d) := by decide
  cases h with
  | decimal h => exact hdecimal _ h
  | lower h => exact hlower _ h
  | upper h => exact hupper _ h

theorem readHex_unit (h : CodeUnit n text) (rest : List Char) :
    ∃ hlt, readHex (text ++ rest) = .ok (n, ⟨rest, hlt⟩) := by
  obtain ⟨ha, hb, hc, hd⟩ := h
  refine ⟨by simp; omega, ?_⟩
  simp only [List.cons_append, List.nil_append, readHex, ha.value, hb.value, hc.value, hd.value]
  refine congrArg (fun n => Except.ok (n, _)) ?_
  omega

theorem readCodePoint_unit (h : CodeUnit n text) (hchar : n < 0xD800 ∨ 0xDFFF < n)
    (rest : List Char) :
    ∃ hlt, readCodePoint (text ++ rest) = .ok (Char.ofNat n, ⟨rest, hlt⟩) := by
  obtain ⟨hlt, hread⟩ := readHex_unit h rest
  refine ⟨hlt, ?_⟩
  unfold readCodePoint
  simp only [hread, bind, Except.bind]
  rw [if_neg (by omega), if_pos (by omega)]

theorem readCodePoint_surrogates {high low : Nat} {text' : List Char}
    (h : CodeUnit (0xD800 + high) text) (h' : CodeUnit (0xDC00 + low) text')
    (hhigh : high < 0x400) (hlow : low < 0x400) (rest : List Char) :
    ∃ hlt, readCodePoint (text ++ '\\' :: 'u' :: (text' ++ rest)) =
      .ok (Char.ofNat (0x10000 + high * 0x400 + low), ⟨rest, hlt⟩) := by
  obtain ⟨_, hread⟩ := readHex_unit h ('\\' :: 'u' :: (text' ++ rest))
  obtain ⟨_, hread'⟩ := readHex_unit h' rest
  refine ⟨by simp; omega, ?_⟩
  unfold readCodePoint
  simp only [hread, bind, Except.bind]
  rw [if_neg (by omega), if_neg (by omega)]
  simp only [hread']
  rw [if_pos (by omega), Nat.add_sub_cancel_left, Nat.add_sub_cancel_left]

theorem readEscape_short (h : (letter, c) ∈ shortEscapes) (rest : List Char) :
    ∃ hlt, readEscape (letter :: rest) = .ok (c, ⟨rest, hlt⟩) := by
  refine ⟨by simp, ?_⟩
  simp only [shortEscapes, List.mem_cons, Prod.mk.injEq, List.not_mem_nil, or_false] at h
  rcases h with ⟨rfl, rfl⟩ | ⟨rfl, rfl⟩ | ⟨rfl, rfl⟩ | ⟨rfl, rfl⟩ | ⟨rfl, rfl⟩ | ⟨rfl, rfl⟩ |
    ⟨rfl, rfl⟩ | ⟨rfl, rfl⟩ <;> rfl

theorem readEscape_codePoint {hlt : rest.length < text.length}
    (h : readCodePoint text = .ok (c, ⟨rest, hlt⟩)) :
    ∃ hlt, readEscape ('u' :: text) = .ok (c, ⟨rest, hlt⟩) := by
  refine ⟨by simp; omega, ?_⟩
  simp [readEscape, h]

theorem readChars_escape {hlt : rest.length < text.length}
    (h : readEscape text = .ok (c, ⟨rest, hlt⟩)) :
    readChars ('\\' :: text) = (readChars rest).map fun p => (c :: p.1, p.2) := by
  rw [readChars.eq_def]
  simp only [h]

/-- **A character is read, however it is written.** -/
theorem readChars_glyph (h : Glyph c text) (rest : List Char) :
    readChars (text ++ rest) = (readChars rest).map fun p => (c :: p.1, p.2) := by
  cases h with
  | plain hquote hslash hcontrol =>
    rw [List.singleton_append, readChars.eq_def]
    split
    next heq => cases heq
    next heq => exact absurd (List.cons.inj heq).1 hquote
    next heq => exact absurd (List.cons.inj heq).1 hslash
    next heq =>
      obtain ⟨rfl, rfl⟩ := List.cons.inj heq
      rw [if_neg (by omega)]
  | short h =>
    obtain ⟨_, hread⟩ := readEscape_short h rest
    exact readChars_escape hread
  | unit h hchar =>
    obtain ⟨_, hpoint⟩ := readCodePoint_unit h hchar rest
    obtain ⟨_, hread⟩ := readEscape_codePoint hpoint
    exact readChars_escape hread
  | surrogates h h' hhigh hlow =>
    obtain ⟨_, hpoint⟩ := readCodePoint_surrogates h h' hhigh hlow rest
    obtain ⟨_, hread⟩ := readEscape_codePoint hpoint
    rw [List.cons_append, List.cons_append, List.append_assoc, List.cons_append, List.cons_append]
    exact readChars_escape hread

theorem readChars_literal (h : Literal name text) (rest : List Char) :
    readChars (text ++ '"' :: rest) = .ok (name, rest) := by
  induction h with
  | nil => simp [readChars]
  | cons hglyph _ ih =>
    rw [List.append_assoc, readChars_glyph hglyph, ih]
    rfl

/-- **A name is read, however it is written**, up to its closing quote. -/
theorem readString_literal (h : Literal name text) (rest : List Char) :
    readString (text ++ '"' :: rest) = .ok (String.ofList name, rest) := by
  unfold readString
  rw [readChars_literal h rest]
  rfl

end Config
end CoopSched
