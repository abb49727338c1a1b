import CoopSched.Config.Printer
import CoopSched.Config.Reader

/-!
# Renderings — the texts of a configuration

A configuration has many texts. It is written as an object with some of its fields, in any order, or
as an array with the first of them; the fields that are left out have their defaults. Blanks may
stand around every token. `Renders` says of a text that it is one of those, without a word about how
it is read. The compact text is one of them (`renders_toJson`).

An object and an array are both a `Series` of parts with commas between, and they differ in the
parts only: an entry has a key in front of its value, an element has not.
-/

namespace CoopSched
namespace Config

/-- The figure in a field; no limit is none. -/
def figure (c : Config) : Field → Option Nat
  | .workers => some c.workers
  | .maxPending => c.maxPending
  | .eventCapacity => some c.eventCapacity

/-- All figures are numbers of 64 bits. -/
def Fits (c : Config) : Prop := ∀ f n, c.figure f = some n → n < Nat.pow 2 64

/-! ## Tokens -/

/-- Nothing but space, tab and the two ends of a line. -/
def IsBlank (ws : List Char) : Prop := ∀ c ∈ ws, c = ' ' ∨ c = '\t' ∨ c = '\n' ∨ c = '\r'

/-- The digits write the number, and there is no zero in front. -/
structure Decimal (n : Nat) (ds : List Char) : Prop where
  ne_nil : ds ≠ []
  digits : ∀ d ∈ ds, d.isDigit = true
  value : Nat.ofDigitChars 10 ds 0 = n
  leading : ds.head? = some '0' → ds = ['0']

/-- A figure as JSON. -/
inductive Spells : Option Nat → List Char → Prop
  | null : Spells none ['n', 'u', 'l', 'l']
  | number {n : Nat} {ds : List Char} (h : Decimal n ds) (hfits : n < Nat.pow 2 64) :
      Spells (some n) ds

/-! ## Objects and arrays -/

/-- An entry of an object: the name of the field, a colon and the figure. -/
inductive Entry (c : Config) (f : Field) : List Char → Prop
  | mk {b₁ b₂ b₃ b₄ value : List Char} (h₁ : IsBlank b₁) (h₂ : IsBlank b₂) (h₃ : IsBlank b₃)
      (h₄ : IsBlank b₄) (hvalue : Spells (c.figure f) value) :
      Entry c f (b₁ ++ '"' :: (f.name.toList ++ '"' :: (b₂ ++ ':' :: (b₃ ++ (value ++ b₄)))))

/-- An element of an array: the figure alone. -/
inductive Element (c : Config) (f : Field) : List Char → Prop
  | mk {b₁ b₂ value : List Char} (h₁ : IsBlank b₁) (h₂ : IsBlank b₂)
      (hvalue : Spells (c.figure f) value) : Element c f (b₁ ++ (value ++ b₂))

/-- Parts for fields in turn, with commas between. Where there is no part there are blanks. -/
inductive Series (part : Field → List Char → Prop) : List Field → List Char → Prop
  | empty {ws : List Char} (h : IsBlank ws) : Series part [] ws
  | one {f : Field} {text : List Char} (h : part f text) : Series part [f] text
  | more {f g : Field} {fields : List Field} {text rest : List Char} (h : part f text)
      (hrest : Series part (g :: fields) rest) :
      Series part (f :: g :: fields) (text ++ ',' :: rest)

/-- The text gives the configuration. -/
inductive Renders (c : Config) : List Char → Prop
  | object {fields : List Field} {before body behind : List Char} (h₁ : IsBlank before)
      (h₂ : IsBlank behind) (once : fields.Nodup)
      (others : ∀ f, f ∉ fields → c.figure f = ({} : Config).figure f)
      (hbody : Series c.Entry fields body) :
      Renders c (before ++ '\x7b' :: (body ++ '\x7d' :: behind))
  | array {k : Nat} {before body behind : List Char} (h₁ : IsBlank before)
      (h₂ : IsBlank behind) (hk : k ≤ Field.all.length)
      (others : ∀ f, f ∉ Field.all.take k → c.figure f = ({} : Config).figure f)
      (hbody : Series c.Element (Field.all.take k) body) :
      Renders c (before ++ '[' :: (body ++ ']' :: behind))

/-! ## The compact text -/

theorem decimal_toDigits (n : Nat) : Decimal n (Nat.toDigits 10 n) where
  ne_nil := Nat.toDigits_ne_nil
  digits := fun _ hd => Nat.isDigit_of_mem_toDigits (by decide) (by decide) hd
  value := Nat.ofDigitChars_ten_toDigits
  leading := by
    -- On the number: the first digit is that of the number without its last digit.
    induction n using Nat.strongRecOn with
    | ind n ih =>
      intro hzero
      by_cases hlt : n < 10
      · rw [Nat.toDigits_of_lt_base hlt] at hzero ⊢
        exact congrArg (fun d => [d]) (Option.some.inj hzero)
      · rw [Nat.toDigits_of_base_le (by decide) (by omega)] at hzero
        have hsome : Nat.toDigits 10 (n / 10) ≠ [] := Nat.toDigits_ne_nil
        obtain ⟨d, ds, hds⟩ := List.exists_cons_of_ne_nil hsome
        have hfront := ih (n / 10) (by omega) (by rw [hds] at hzero ⊢; exact hzero)
        have hvalue := Nat.ofDigitChars_ten_toDigits (n := n / 10)
        rw [hfront] at hvalue
        have hsmall : n / 10 = 0 := hvalue.symm
        omega

theorem spells_limitText {limit : Option Nat} (h : ∀ n, limit = some n → n < Nat.pow 2 64) :
    Spells limit (limitText limit).toList := by
  cases limit with
  | none => exact .null
  | some n =>
    have hdigits : (limitText (some n)).toList = Nat.toDigits 10 n := Nat.toList_repr
    rw [hdigits]
    exact .number (decimal_toDigits n) (h n rfl)

/-- The value of a field is written as its figure. -/
theorem fieldText_eq (c : Config) (f : Field) : c.fieldText f = limitText (c.figure f) := by
  cases f <;> rfl

theorem isBlank_nil : IsBlank [] := fun _ h => absurd h List.not_mem_nil

theorem entry_text {c : Config} (h : c.Fits) (f : Field) :
    c.Entry f ("\"" ++ f.name ++ "\":" ++ c.fieldText f).toList := by
  have hspells := spells_limitText (h f)
  rw [← fieldText_eq] at hspells
  simpa using Entry.mk isBlank_nil isBlank_nil isBlank_nil isBlank_nil hspells

/-- **The compact text is one of the texts of a configuration.** -/
theorem renders_toJson {c : Config} (h : c.Fits) : c.Renders c.toJson.toList := by
  have hbody : Series c.Entry Field.all _ := .more (entry_text h .workers)
    (.more (entry_text h .maxPending) (.one (entry_text h .eventCapacity)))
  have hothers : ∀ f, f ∉ Field.all → c.figure f = ({} : Config).figure f := fun f hf => by
    cases f <;> simp [Field.all] at hf
  have htext := Renders.object isBlank_nil isBlank_nil (by decide) hothers hbody
  simpa [toJson, Field.all, String.intercalate_cons_cons] using htext

end Config
end CoopSched
