import CoopSched.Config.Environment

/-!
# The environment — which values ask for workers

The value of the variable is bytes, or there is none. `Asks` says which texts ask for how many
workers, character by character and without a word about how they are read: white space, perhaps
one plus sign, digits, white space. The digits may begin with any number of zeros and there may be
any number of them; what counts is the number they write, which has to be positive and to fit
64 bits.

The reader takes the white space off both ends first. Neither a sign nor a digit is white space, so
what is left is the sign and the digits and nothing else (`trimBlank_eq`), and no text can be taken
apart in two ways. A value asks for a number of workers just when its bytes are those of a text that
does (`environment_asks`).
-/

namespace CoopSched

namespace Text

variable {cs before middle behind : List Char}

/-- The characters with the property White_Space. -/
def whiteSpace : List Nat :=
  [0x9, 0xA, 0xB, 0xC, 0xD, 0x20, 0x85, 0xA0, 0x1680, 0x2000, 0x2001, 0x2002, 0x2003, 0x2004,
    0x2005, 0x2006, 0x2007, 0x2008, 0x2009, 0x200A, 0x2028, 0x2029, 0x202F, 0x205F, 0x3000]

/-- Nothing but white space. -/
def IsWhite (cs : List Char) : Prop := ∀ c ∈ cs, c.toNat ∈ whiteSpace

theorem isBlank_iff {c : Char} : isBlank c = true ↔ c.toNat ∈ whiteSpace := by
  simp only [isBlank, whiteSpace, Bool.or_eq_true, Bool.and_eq_true, decide_eq_true_eq, beq_iff_eq,
    List.mem_cons, List.not_mem_nil, or_false]
  omega

theorem dropWhile_white (h : IsWhite before) (cs : List Char) :
    (before ++ cs).dropWhile isBlank = cs.dropWhile isBlank :=
  List.dropWhile_append_of_pos fun c hc => isBlank_iff.mpr (h c hc)

/-- A text that does not begin with white space keeps its beginning. -/
theorem dropWhile_of_head (h : ∀ c ∈ cs.head?, isBlank c = false) :
    cs.dropWhile isBlank = cs := by
  cases cs with
  | nil => rfl
  | cons c cs => exact List.dropWhile_cons_of_neg (by simp [h c rfl])

/-- **What stands between white space is what is left**, if it neither begins nor ends with some. -/
theorem trimBlank_eq (hbefore : IsWhite before) (hbehind : IsWhite behind)
    (hhead : ∀ c ∈ middle.head?, isBlank c = false)
    (hlast : ∀ c ∈ middle.getLast?, isBlank c = false) (hne : middle ≠ []) :
    trimBlank (before ++ (middle ++ behind)) = middle := by
  have hfront : (middle ++ behind).dropWhile isBlank = middle ++ behind := by
    apply dropWhile_of_head
    obtain ⟨c, rest, rfl⟩ := List.exists_cons_of_ne_nil hne
    exact hhead
  have hback : middle.reverse.dropWhile isBlank = middle.reverse := by
    apply dropWhile_of_head
    rwa [List.head?_reverse]
  unfold trimBlank
  rw [dropWhile_white hbefore, hfront, List.reverse_append,
    dropWhile_white fun c hc => hbehind c (List.mem_reverse.mp hc), hback, List.reverse_reverse]

theorem isWhite_takeWhile (cs : List Char) : IsWhite (cs.takeWhile isBlank) := by
  intro c hc
  exact isBlank_iff.mp (List.all_eq_true.mp List.all_takeWhile c hc)

/-- Nothing but white space is taken off. -/
theorem trimBlank_split (cs : List Char) :
    ∃ before behind, IsWhite before ∧ IsWhite behind ∧
      cs = before ++ (trimBlank cs ++ behind) := by
  refine ⟨cs.takeWhile isBlank, ((cs.dropWhile isBlank).reverse.takeWhile isBlank).reverse,
    isWhite_takeWhile cs, ?_, ?_⟩
  · intro c hc
    exact isWhite_takeWhile _ c (List.mem_reverse.mp hc)
  · unfold trimBlank
    rw [← List.reverse_append, List.takeWhile_append_dropWhile, List.reverse_reverse,
      List.takeWhile_append_dropWhile]

end Text

namespace Config

variable {n : Nat} {cs ds : List Char} {text : String} {bytes : ByteArray}

/-! ## What asks for workers -/

/-- The digits write the number; zeros may stand in front. -/
structure Numeral (n : Nat) (ds : List Char) : Prop where
  ne_nil : ds ≠ []
  digits : ∀ d ∈ ds, d.isDigit = true
  value : Nat.ofDigitChars 10 ds 0 = n

/-- The text asks for so many workers. -/
inductive Asks (n : Nat) : List Char → Prop
  | mk {before sign digits behind : List Char} (hbefore : Text.IsWhite before)
      (hsign : sign = [] ∨ sign = ['+']) (hdigits : Numeral n digits)
      (hbehind : Text.IsWhite behind) (hpos : 1 ≤ n) (hfits : n ≤ Nat.pow 2 64 - 1) :
      Asks n (before ++ (sign ++ digits ++ behind))

/-- The value is the bytes of a text that asks for so many workers. -/
def Requests (value : Option ByteArray) (n : Nat) : Prop :=
  ∃ text : String, value = some text.toUTF8 ∧ Asks n text.toList

/-! ## Counts -/

theorem countOfDigits?_eq_some_iff :
    countOfDigits? ds = some n ↔ Numeral n ds ∧ n < Nat.pow 2 64 := by
  have hvalue : ds.foldl (fun n d => n * 10 + (d.toNat - '0'.toNat)) 0 =
      Nat.ofDigitChars 10 ds 0 := by
    simp only [Nat.ofDigitChars, Nat.mul_comm]
  unfold countOfDigits?
  rw [hvalue]
  constructor
  · intro h
    split at h
    next => cases h
    next hdigits =>
      simp only [Bool.or_eq_true, List.isEmpty_iff, Bool.not_eq_true', not_or,
        Bool.not_eq_false, List.all_eq_true] at hdigits
      dsimp only at h
      split at h
      next hfits =>
        obtain rfl := Option.some.inj h
        exact ⟨⟨hdigits.1, hdigits.2, rfl⟩, hfits⟩
      next => cases h
  · rintro ⟨⟨hne, hdigits, rfl⟩, hfits⟩
    rw [if_neg (by simpa [hne] using hdigits)]
    exact if_pos hfits

theorem countOfText?_eq_some_iff :
    countOfText? cs = some n ↔ ∃ sign digits, cs = sign ++ digits ∧ (sign = [] ∨ sign = ['+']) ∧
      Numeral n digits ∧ n < Nat.pow 2 64 := by
  unfold countOfText?
  constructor
  · intro h
    split at h
    next digits => exact ⟨['+'], digits, rfl, Or.inr rfl, countOfDigits?_eq_some_iff.mp h⟩
    next => exact ⟨[], cs, rfl, Or.inl rfl, countOfDigits?_eq_some_iff.mp h⟩
  · rintro ⟨sign, digits, rfl, rfl | rfl, hcount⟩
    · split
      next rest heq =>
        -- A plus sign is no digit.
        have hplus := hcount.1.digits '+' (by rw [← List.nil_append digits, heq]; simp)
        cases hplus
      next => exact countOfDigits?_eq_some_iff.mpr hcount
    · exact countOfDigits?_eq_some_iff.mpr hcount

/-! ## Texts and bytes -/

theorem isBlank_of_isDigit {d : Char} (h : d.isDigit = true) : Text.isBlank d = false := by
  have hrange := Char.isDigit_iff_toNat.mp h
  refine Bool.eq_false_iff.mpr fun hblank => ?_
  rw [Text.isBlank_iff] at hblank
  simp only [Text.whiteSpace, List.mem_cons, List.not_mem_nil, or_false] at hblank
  simp at hrange
  omega

/-- Neither end of a sign with digits is white space. -/
theorem Numeral.bare {sign : List Char} (h : Numeral n ds) (hsign : sign = [] ∨ sign = ['+']) :
    ∀ c ∈ sign ++ ds, Text.isBlank c = false := by
  intro c hc
  rcases List.mem_append.mp hc with hmem | hmem
  · rcases hsign with rfl | rfl
    · cases hmem
    · rw [List.mem_singleton.mp hmem]
      decide
  · exact isBlank_of_isDigit (h.digits c hmem)

/-- **A text gives a number of workers just when it asks for them.** -/
theorem workersOfText?_eq_some_iff : workersOfText? text = some n ↔ Asks n text.toList := by
  have hcount : workersOfText? text = some n ↔
      countOfText? (Text.trimBlank text.toList) = some n ∧ 1 ≤ n := by
    unfold workersOfText?
    cases countOfText? (Text.trimBlank text.toList) with
    | none => simp
    | some k => cases k <;> simp <;> omega
  rw [hcount, countOfText?_eq_some_iff]
  constructor
  · rintro ⟨⟨sign, digits, heq, hsign, hdigits, hfits⟩, hpos⟩
    obtain ⟨before, behind, hbefore, hbehind, hsplit⟩ := Text.trimBlank_split text.toList
    rw [hsplit, heq]
    exact .mk hbefore hsign hdigits hbehind hpos (by omega)
  · intro h
    generalize text.toList = cs at h
    obtain @⟨before, sign, digits, behind, hbefore, hsign, hdigits, hbehind, hpos, hfits⟩ := h
    have hbare := hdigits.bare hsign
    have htrim := Text.trimBlank_eq hbefore hbehind
      (fun c hc => hbare c (List.mem_of_mem_head? hc))
      (fun c hc => hbare c (List.mem_of_getLast? hc)) (by simp [hdigits.ne_nil])
    have hlt : n < Nat.pow 2 64 := by
      have hpow : 0 < Nat.pow 2 64 := by decide
      omega
    exact ⟨⟨sign, digits, htrim, hsign, hdigits, hlt⟩, hpos⟩

/-- Bytes are read as the text whose bytes they are, and as nothing else. -/
theorem fromUTF8?_eq_some_iff : String.fromUTF8? bytes = some text ↔ bytes = text.toUTF8 := by
  unfold String.fromUTF8?
  constructor
  · intro h
    split at h
    next => exact congrArg String.toUTF8 (Option.some.inj h)
    next => cases h
  · rintro rfl
    rw [String.toUTF8_eq_toByteArray, dif_pos text.isValidUTF8]
    rfl

theorem request_iff {value : Option ByteArray} :
    (value.bind String.fromUTF8?).bind workersOfText? = some n ↔ Requests value n := by
  simp only [Option.bind_eq_some_iff, fromUTF8?_eq_some_iff, workersOfText?_eq_some_iff, Requests]
  constructor
  · rintro ⟨text, ⟨bytes, hvalue, rfl⟩, hasks⟩
    exact ⟨text, hvalue, hasks⟩
  · rintro ⟨text, hvalue, hasks⟩
    exact ⟨text, ⟨_, hvalue, rfl⟩, hasks⟩

/-! ## The configuration -/

/-- **The environment sets the number of workers that it asks for**, and it sets nothing else. A
    value that asks for no number, or none at all, leaves that at its default as well. -/
theorem environment_asks (value : Option ByteArray) :
    (∀ n, fromEnvironment value = { workers := n } ∧ n ≠ 0 ↔ Requests value n) ∧
    ((∀ n, ¬ Requests value n) → (fromEnvironment value).workers = 0) ∧
    (fromEnvironment value).maxPending = none ∧ (fromEnvironment value).eventCapacity = 1024 := by
  have hrequest : ∀ n, _ ↔ Requests value n := fun n => request_iff
  have hpositive : ∀ n, Requests value n → n ≠ 0 := by
    rintro n ⟨text, -, hasks⟩
    generalize text.toList = cs at hasks
    obtain ⟨-, -, -, -, hpos, -⟩ := hasks
    omega
  unfold fromEnvironment
  cases hread : (value.bind String.fromUTF8?).bind workersOfText? with
  | none =>
    simp only [hread, reduceCtorEq, false_iff] at hrequest
    refine ⟨fun n => ⟨fun h => ?_, fun h => absurd h (hrequest n)⟩, fun _ => rfl, rfl, rfl⟩
    exact absurd (congrArg Config.workers h.1).symm h.2
  | some k =>
    simp only [hread, Option.some.injEq] at hrequest
    refine ⟨fun n => ⟨fun h => ?_, fun h => ?_⟩, fun h => absurd ((hrequest k).mp rfl) (h k),
      rfl, rfl⟩
    · exact (hrequest n).mp (congrArg Config.workers h.1)
    · obtain rfl := (hrequest n).mpr h
      exact ⟨rfl, hpositive _ h⟩

/-- The largest number with white space around it, a sign and zeros in front; a number that is one
    too large; and bytes that are no text. -/
theorem environment_asks_three :
    fromEnvironment (some "\u3000\u2028+0018446744073709551615\n".toUTF8) =
        { workers := 18446744073709551615 } ∧
      (fromEnvironment (some "18446744073709551616".toUTF8)).workers = 0 ∧
      (fromEnvironment (some ⟨#[0x38, 0xFF]⟩)).workers = 0 := by
  have hasks : Asks 18446744073709551615 "\u3000\u2028+0018446744073709551615\n".toList :=
    @Asks.mk _ ['\u3000', '\u2028'] ['+']
      ['0', '0', '1', '8', '4', '4', '6', '7', '4', '4', '0', '7', '3', '7', '0', '9', '5', '5',
        '1', '6', '1', '5'] ['\n'] (by simp [Text.IsWhite, Text.whiteSpace]) (Or.inr rfl)
      ⟨by decide, by simp, by decide⟩ (by simp [Text.IsWhite, Text.whiteSpace]) (by decide)
      (by decide)
  have hnone : ∀ bytes, (String.fromUTF8? bytes).bind workersOfText? = none →
      ∀ n, ¬ Requests (some bytes) n := fun bytes hbytes n h => by
    have hread := request_iff.mpr h
    rw [Option.bind_some, hbytes] at hread
    cases hread
  exact ⟨((environment_asks _).1 _).mpr ⟨_, rfl, hasks⟩ |>.1,
    (environment_asks _).2.1 (hnone _ (by decide)),
    (environment_asks _).2.1 (hnone _ (by decide))⟩

end Config
end CoopSched
