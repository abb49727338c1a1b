import CoopSched.Proofs.Config.Literal
import CoopSched.Proofs.Config.Rendering

/-!
# Reading — every text of a configuration reads back

The reader takes a text from left to right. In front of what it reads it passes over blanks, and a
token ends where the next one cannot belong to it, so what stands behind a figure is a delimiter
(`Delimited`). A field that has been read is taken over into what has been read so far (`adopt`),
and it does not matter in which order that happens: in the end each field has been taken over or has
its default (`adoptAll_eq`).

Whichever text of a configuration is read, it gives that configuration, or the first thing wrong
with it (`rendering_reads_back`).
-/

namespace CoopSched
namespace Config

variable {c acc : Config} {f : Field} {fields free : List Field} {n : Nat}
  {ws ds cs value text rest : List Char}

/-! ## Blanks and delimiters -/

theorem isJsonBlank_iff {d : Char} :
    isJsonBlank d = true ↔ d = ' ' ∨ d = '\t' ∨ d = '\n' ∨ d = '\r' := by
  simp only [isJsonBlank, Bool.or_eq_true, beq_iff_eq, or_assoc]
  rw [or_left_comm (a := d = '\n')]

theorem skipBlank_append (h : IsBlank ws) (cs : List Char) :
    skipBlank (ws ++ cs) = skipBlank cs := by
  unfold skipBlank
  rw [List.dropWhile_append_of_pos fun d hd => isJsonBlank_iff.mpr (h d hd)]

theorem skipBlank_cons {d : Char} (h : isJsonBlank d = false) (cs : List Char) :
    skipBlank (d :: cs) = d :: cs := by
  unfold skipBlank
  rw [List.dropWhile_cons_of_neg (by simp [h])]

/-- What follows cannot belong to a figure: a blank, a comma, or the end of an object or array. -/
def Delimited (rest : List Char) : Prop :=
  ∃ d tail, rest = d :: tail ∧ (isJsonBlank d = true ∨ d = ',' ∨ d = '\x7d' ∨ d = ']')

theorem Delimited.of_blank (h : IsBlank ws) (hrest : Delimited rest) : Delimited (ws ++ rest) := by
  cases ws with
  | nil => exact hrest
  | cons d tail =>
    exact ⟨d, tail ++ rest, rfl, Or.inl (isJsonBlank_iff.mpr (h d List.mem_cons_self))⟩

/-- A delimiter is neither a digit nor a point nor the letter of an exponent. -/
theorem Delimited.ends (h : Delimited rest) : ∃ d tail, rest = d :: tail ∧ d.isDigit = false ∧
    d ≠ '.' ∧ d ≠ 'e' ∧ d ≠ 'E' := by
  obtain ⟨d, tail, rfl, hd⟩ := h
  rw [isJsonBlank_iff] at hd
  refine ⟨d, tail, rfl, ?_⟩
  rcases hd with (rfl | rfl | rfl | rfl) | rfl | rfl | rfl <;> decide

/-! ## Figures -/

/-- A number is not smaller than what its first digits write. -/
theorem le_ofDigitChars (ds : List Char) (n : Nat) : n ≤ Nat.ofDigitChars 10 ds n := by
  rw [Nat.ofDigitChars_eq_ofDigitChars_zero]
  calc n = 1 * n := (Nat.one_mul n).symm
    _ ≤ 10 ^ ds.length * n := Nat.mul_le_mul_right n (Nat.one_le_pow _ _ (by decide))
    _ ≤ _ := Nat.le_add_right _ _

/-- The digits of a number that fits are all taken. -/
theorem leading_digits (hdigits : ∀ d ∈ ds, d.isDigit = true) (hrest : Delimited rest) (k : Nat)
    (hfits : Nat.ofDigitChars 10 ds n < Nat.pow 2 64) :
    leading n k (ds ++ rest) = ⟨Nat.ofDigitChars 10 ds n, k + ds.length, rest, false⟩ := by
  induction ds generalizing n k with
  | nil =>
    obtain ⟨d, tail, rfl, hd, -⟩ := hrest.ends
    simp [leading, hd]
  | cons d ds ih =>
    have hd := hdigits d List.mem_cons_self
    rw [Nat.ofDigitChars_cons] at hfits ⊢
    have hvalue : n * 10 + digitValue d = 10 * n + (d.toNat - '0'.toNat) := by
      rw [Nat.mul_comm, digitValue]
    have hlt : n * 10 + digitValue d < Nat.pow 2 64 := by
      rw [hvalue]
      exact Nat.lt_of_le_of_lt (le_ofDigitChars ds _) hfits
    rw [← hvalue] at hfits ⊢
    rw [List.cons_append, leading, if_pos hd]
    dsimp only
    rw [if_pos hlt, ih (fun x hx => hdigits x (List.mem_cons_of_mem _ hx)) _ hfits,
      List.length_cons]
    congr 1
    omega

theorem readTail_delimited (hrest : Delimited rest) (n : Nat) :
    readTail true n rest = .ok (.natural n, rest) := by
  obtain ⟨d, tail, rfl, -, hpoint, he, hE⟩ := hrest.ends
  unfold readTail
  split
  next heq => exact absurd (List.cons.inj heq).1 hpoint
  next heq => exact absurd (List.cons.inj heq).1 he
  next heq => exact absurd (List.cons.inj heq).1 hE
  next => rfl

/-- **A number in decimal digits is read as that number.** -/
theorem readNumber_decimal (h : Decimal n ds) (hfits : n < Nat.pow 2 64)
    (hrest : Delimited rest) : readNumber true (ds ++ rest) = .ok (.natural n, rest) := by
  obtain ⟨d, tail, rfl⟩ := List.exists_cons_of_ne_nil h.ne_nil
  have hd := h.digits d List.mem_cons_self
  have hvalue := h.value
  by_cases hzero : d = '0'
  · subst hzero
    obtain rfl : tail = [] := by simpa using h.leading rfl
    obtain rfl : n = 0 := hvalue.symm
    have htail := readTail_delimited hrest 0
    obtain ⟨e, more, rfl, he, -⟩ := hrest.ends
    simp [readNumber, he, htail]
  · rw [Nat.ofDigitChars_cons] at hvalue
    have hdigits : ∀ x ∈ tail, x.isDigit = true := fun x hx =>
      h.digits x (List.mem_cons_of_mem _ hx)
    have hleading := leading_digits (n := digitValue d) hdigits hrest 1
    have hsame : Nat.ofDigitChars 10 tail (digitValue d) = n := by
      simpa [digitValue] using hvalue
    rw [hsame] at hleading
    unfold readNumber
    split
    next heq => cases heq
    next heq => exact absurd (List.cons.inj heq).1 hzero
    next heq =>
      obtain ⟨rfl, rfl⟩ := List.cons.inj heq
      rw [if_pos hd, show tail.append rest = tail ++ rest from rfl, hleading hfits]
      exact readTail_delimited hrest n

theorem isJsonBlank_of_isDigit {d : Char} (h : d.isDigit = true) : isJsonBlank d = false := by
  rw [← Bool.not_eq_true, isJsonBlank_iff]
  rintro (rfl | rfl | rfl | rfl) <;> revert h <;> decide

theorem readCount_decimal (h : Decimal n ds) (hfits : n < Nat.pow 2 64) (hblank : IsBlank ws)
    (hrest : Delimited rest) : readCount (ws ++ (ds ++ rest)) = .ok (n, rest) := by
  have hnumber := readNumber_decimal h hfits hrest
  obtain ⟨d, tail, rfl⟩ := List.exists_cons_of_ne_nil h.ne_nil
  have hd := h.digits d List.mem_cons_self
  have hminus : d ≠ '-' := by
    rintro rfl
    cases hd
  have hskip : skipBlank (ws ++ (d :: tail ++ rest)) = d :: (tail ++ rest) := by
    rw [skipBlank_append hblank, List.cons_append, skipBlank_cons (isJsonBlank_of_isDigit hd)]
  unfold readCount
  rw [hskip]
  dsimp only
  rw [if_pos (Or.inr hd), if_neg hminus, ← List.cons_append, hnumber]
  rfl

theorem readLimit_spells {limit : Option Nat} (hvalue : Spells limit value) (hblank : IsBlank ws)
    (hrest : Delimited rest) : readLimit (ws ++ (value ++ rest)) = .ok (limit, rest) := by
  cases hvalue with
  | null =>
    unfold readLimit
    rw [skipBlank_append hblank, List.cons_append, skipBlank_cons (by decide)]
    rfl
  | @number n ds h hfits =>
    have hcount := readCount_decimal h hfits isBlank_nil hrest
    obtain ⟨d, tail, rfl⟩ := List.exists_cons_of_ne_nil h.ne_nil
    have hd := h.digits d List.mem_cons_self
    have hn : d ≠ 'n' := by
      rintro rfl
      cases hd
    unfold readLimit
    rw [skipBlank_append hblank, List.cons_append, skipBlank_cons (isJsonBlank_of_isDigit hd)]
    rw [List.nil_append, List.cons_append] at hcount
    split
    next heq => exact absurd (List.cons.inj heq).1 hn
    next => rw [hcount]; rfl

/-- Takes over a field of another configuration. -/
def adopt (acc c : Config) : Field → Config
  | .workers => { acc with workers := c.workers }
  | .maxPending => { acc with maxPending := c.maxPending }
  | .eventCapacity => { acc with eventCapacity := c.eventCapacity }

/-- **The figure of a field is read into that field.** -/
theorem readField_spells (acc : Config) (hvalue : Spells (c.figure f) value)
    (hblank : IsBlank ws) (hrest : Delimited rest) :
    readField acc f (ws ++ (value ++ rest)) = .ok (acc.adopt c f, rest) := by
  have hcount : ∀ {n}, Spells (some n) value → readCount (ws ++ (value ++ rest)) = .ok (n, rest) :=
    fun h => by
      cases h with
      | number h hfits => exact readCount_decimal h hfits hblank hrest
  cases f with
  | workers =>
    unfold readField
    rw [hcount hvalue]
    rfl
  | maxPending =>
    unfold readField
    rw [readLimit_spells hvalue hblank hrest]
    rfl
  | eventCapacity =>
    unfold readField
    rw [hcount hvalue]
    rfl

/-! ## Entries of an object -/

/-- Nothing has to be escaped in the name of a field. -/
theorem literal_name (f : Field) : Literal f.name.toList f.name.toList :=
  literal_plain (by cases f <;> decide)

theorem judgeKey_name (hf : f ∈ free) : judgeKey free f.name = .ok ⟨f, hf⟩ := by
  unfold judgeKey
  rw [Field.ofName?_name]
  simp [hf]

theorem readColon_blank (hblank : IsBlank ws) (rest : List Char) :
    readColon (ws ++ ':' :: rest) = .ok rest := by
  unfold readColon
  rw [skipBlank_append hblank, skipBlank_cons (by decide)]
  rfl

/-- What stands between two entries: nothing in front of the first one. -/
def comma (isFirst : Bool) : List Char := if isFirst then [] else [',']

theorem nextEntry_key (isFirst : Bool) (hblank : IsBlank ws) (rest : List Char) :
    nextEntry isFirst (comma isFirst ++ (ws ++ '"' :: rest)) = .ok (.key rest) := by
  unfold nextEntry
  cases isFirst with
  | true => simp [comma, skipBlank_append hblank, skipBlank_cons, isJsonBlank]
  | false => simp [comma, skipBlank_append hblank, skipBlank_cons, isJsonBlank]

theorem nextEntry_finished {isFirst : Bool} (hblank : IsBlank ws) (rest : List Char) :
    nextEntry isFirst (ws ++ '\x7d' :: rest) = .ok (.finished rest) := by
  unfold nextEntry
  rw [skipBlank_append hblank, skipBlank_cons (by decide)]
  rfl

theorem readEntries_blank (hblank : IsBlank ws) (free : List Field) (acc : Config)
    (isFirst : Bool) (cs : List Char) :
    readEntries free acc isFirst (ws ++ cs) = readEntries free acc isFirst cs := by
  have hnext : nextEntry isFirst (ws ++ cs) = nextEntry isFirst cs := by
    unfold nextEntry
    rw [skipBlank_append hblank]
  rw [readEntries.eq_def, readEntries.eq_def, hnext]

/-- **An entry is read**, however its key is written, and what it gives is taken over. -/
theorem readEntries_keyed {isFirst : Bool} {b₁ b₂ b₃ b₄ key : List Char} (hf : f ∈ free)
    (h₁ : IsBlank b₁) (h₂ : IsBlank b₂) (h₃ : IsBlank b₃) (h₄ : IsBlank b₄)
    (hkey : Literal f.name.toList key) (hvalue : Spells (c.figure f) value)
    (hrest : Delimited rest) :
    readEntries free acc isFirst (comma isFirst ++
        (b₁ ++ '"' :: (key ++ '"' :: (b₂ ++ ':' :: (b₃ ++ (value ++ b₄)))) ++ rest)) =
      readEntries (free.erase f) (acc.adopt c f) false rest := by
  have hnext := nextEntry_key isFirst h₁
    (key ++ '"' :: (b₂ ++ ':' :: (b₃ ++ (value ++ (b₄ ++ rest)))))
  have hstring := readString_literal hkey (b₂ ++ ':' :: (b₃ ++ (value ++ (b₄ ++ rest))))
  rw [String.ofList_toList] at hstring
  have hfield := readField_spells acc hvalue h₃ (hrest.of_blank h₄)
  rw [← readEntries_blank h₄ (free.erase f), readEntries.eq_def]
  simp only [List.append_assoc, List.cons_append] at hnext hfield ⊢
  simp only [hnext, hstring, judgeKey_name hf, readColon_blank h₂, hfield, bind, Except.bind]

theorem readEntries_entry {isFirst : Bool} (hf : f ∈ free) (h : c.Entry f text)
    (hrest : Delimited rest) :
    readEntries free acc isFirst (comma isFirst ++ (text ++ rest)) =
      readEntries (free.erase f) (acc.adopt c f) false rest := by
  obtain ⟨h₁, h₂, h₃, h₄, hvalue⟩ := h
  exact readEntries_keyed hf h₁ h₂ h₃ h₄ (literal_name f) hvalue hrest

/-- All entries of an object are read, up to its end. -/
theorem readEntries_series {isFirst : Bool} (h : Series c.Entry fields text)
    (hfirst : fields = [] → isFirst = true) (once : fields.Nodup)
    (hfree : ∀ f ∈ fields, f ∈ free) (rest : List Char) :
    readEntries free acc isFirst (comma isFirst ++ (text ++ '\x7d' :: rest)) =
      .ok (fields.foldl (·.adopt c ·) acc, rest) := by
  have hend : ∀ {free isFirst acc} {ws : List Char}, IsBlank ws →
      readEntries free acc isFirst (ws ++ '\x7d' :: rest) = .ok (acc, rest) := fun hblank => by
    rw [readEntries.eq_def, nextEntry_finished hblank]
    rfl
  have hbrace : Delimited ('\x7d' :: rest) := ⟨_, _, rfl, by simp⟩
  induction h generalizing free isFirst acc with
  | empty hblank =>
    obtain rfl := hfirst rfl
    exact hend hblank
  | one hentry =>
    rw [readEntries_entry (hfree _ List.mem_cons_self) hentry hbrace]
    exact hend isBlank_nil
  | @more f g fields text more hentry hseries ih =>
    have hcomma : Delimited (',' :: (more ++ '\x7d' :: rest)) := ⟨_, _, rfl, by simp⟩
    obtain ⟨hnot, once'⟩ := List.nodup_cons.mp once
    rw [List.append_assoc, List.cons_append,
      readEntries_entry (hfree _ List.mem_cons_self) hentry hcomma]
    refine ih (fun hnil => by cases hnil) once' fun k hk => ?_
    have hne : k ≠ f := by
      rintro rfl
      exact hnot hk
    exact (List.mem_erase_of_ne hne).mpr (hfree k (List.mem_cons_of_mem _ hk))

/-! ## Elements of an array -/

/-- A figure begins neither with a blank nor with the end of an array. -/
theorem Spells.head {figure : Option Nat} (h : Spells figure value) :
    ∃ d tail, value = d :: tail ∧ isJsonBlank d = false ∧ d ≠ ']' := by
  cases h with
  | null => exact ⟨_, _, rfl, by decide⟩
  | number h _ =>
    obtain ⟨d, tail, rfl⟩ := List.exists_cons_of_ne_nil h.ne_nil
    have hd := h.digits d List.mem_cons_self
    refine ⟨d, tail, rfl, isJsonBlank_of_isDigit hd, ?_⟩
    rintro rfl
    cases hd

theorem readElements_first {d : Char} (hskip : skipBlank cs = d :: rest) (hd : d ≠ ']') :
    readElements (f :: fields) acc true cs =
      (readField acc f (d :: rest)).bind fun p => readElements fields p.1 false p.2 := by
  rw [readElements.eq_def, hskip]
  split
  next heq => cases heq
  next heq => exact absurd (List.cons.inj heq).1 hd
  next heq _ => cases heq
  next hfields heq =>
    obtain ⟨rfl, rfl⟩ := List.cons.inj hfields
    obtain ⟨rfl, rfl⟩ := List.cons.inj heq
    rfl

theorem readElements_next {d : Char} {more : List Char} (hcomma : skipBlank cs = ',' :: more)
    (hskip : skipBlank more = d :: rest) (hd : d ≠ ']') :
    readElements (f :: fields) acc false cs =
      (readField acc f (d :: rest)).bind fun p => readElements fields p.1 false p.2 := by
  rw [readElements.eq_def, hcomma]
  split
  next heq => cases heq
  next heq => exact absurd (List.cons.inj heq).1 (by decide)
  next heq _ => cases heq
  next hfields heq =>
    obtain ⟨rfl, rfl⟩ := List.cons.inj hfields
    obtain ⟨rfl, rfl⟩ := List.cons.inj heq
    simp only [Bool.false_eq_true, if_false, if_true, hskip]
    split
    next heq => cases heq
    next heq => exact absurd (List.cons.inj heq).1 hd
    next => rfl

/-- **An element is read** into the field whose turn it is. -/
theorem readElements_element {isFirst : Bool} (h : c.Element f text) (hrest : Delimited rest) :
    readElements (f :: fields) acc isFirst (comma isFirst ++ (text ++ rest)) =
      readElements fields (acc.adopt c f) false rest := by
  obtain ⟨h₁, h₂, hvalue⟩ := h
  rename_i b₁ b₂ value
  have hfield := readField_spells acc hvalue isBlank_nil (hrest.of_blank h₂)
  have hblank : readElements fields (acc.adopt c f) false (b₂ ++ rest) =
      readElements fields (acc.adopt c f) false rest := by
    rw [readElements.eq_def, readElements.eq_def, skipBlank_append h₂]
  obtain ⟨d, tail, rfl, hd, hbracket⟩ := hvalue.head
  rw [List.nil_append, List.cons_append] at hfield
  have hskip : skipBlank (b₁ ++ d :: (tail ++ (b₂ ++ rest))) = d :: (tail ++ (b₂ ++ rest)) := by
    rw [skipBlank_append h₁, skipBlank_cons hd]
  cases isFirst with
  | true =>
    simp only [comma, if_true, List.nil_append, List.append_assoc, List.cons_append]
    rw [readElements_first hskip hbracket, hfield]
    exact hblank
  | false =>
    simp only [comma, Bool.false_eq_true, if_false, List.append_assoc, List.cons_append]
    rw [List.nil_append, readElements_next (skipBlank_cons (by decide) _) hskip hbracket, hfield]
    exact hblank

/-- All elements of an array are read, up to its end. -/
theorem readElements_series {isFirst : Bool} (h : Series c.Element fields text)
    (hfirst : fields = [] → isFirst = true) (others : List Field) (rest : List Char) :
    readElements (fields ++ others) acc isFirst (comma isFirst ++ (text ++ ']' :: rest)) =
      .ok (fields.foldl (·.adopt c ·) acc, rest) := by
  have hend : ∀ {others isFirst acc} {ws : List Char}, IsBlank ws →
      readElements others acc isFirst (ws ++ ']' :: rest) = .ok (acc, rest) := fun hblank => by
    rw [readElements.eq_def, skipBlank_append hblank, skipBlank_cons (by decide)]
    rfl
  have hbracket : Delimited (']' :: rest) := ⟨_, _, rfl, by simp⟩
  induction h generalizing isFirst acc with
  | empty hblank =>
    obtain rfl := hfirst rfl
    exact hend hblank
  | one helement =>
    rw [List.cons_append, readElements_element helement hbracket]
    exact hend isBlank_nil
  | @more f g fields text more helement hseries ih =>
    have hcomma : Delimited (',' :: (more ++ ']' :: rest)) := ⟨_, _, rfl, by simp⟩
    rw [List.append_assoc, show ',' :: more ++ ']' :: rest = ',' :: (more ++ ']' :: rest) from rfl,
      List.cons_append, readElements_element helement hcomma]
    exact ih fun hnil => by cases hnil

/-! ## Whole texts -/

theorem figure_adopt (acc c : Config) (f g : Field) :
    (acc.adopt c f).figure g = if f = g then c.figure g else acc.figure g := by
  cases f <;> cases g <;> rfl

theorem eq_of_figure {c c' : Config} (h : ∀ f, c.figure f = c'.figure f) : c = c' := by
  have hworkers := Option.some.inj (h .workers)
  have hcapacity := Option.some.inj (h .eventCapacity)
  have hlimit := h .maxPending
  cases c
  cases c'
  simp_all [figure]

/-- Each field was taken over, or agreed from the start. -/
theorem foldl_adopt (h : ∀ f, f ∉ fields → c.figure f = acc.figure f) :
    fields.foldl (·.adopt c ·) acc = c := by
  induction fields generalizing acc with
  | nil => exact eq_of_figure fun f => (h f List.not_mem_nil).symm
  | cons f fields ih =>
    refine ih fun g hg => ?_
    rw [figure_adopt]
    split
    next => rfl
    next hne => exact h g (by simp [hg, Ne.symm hne])

/-- **Every text of a configuration is read as that configuration.** -/
theorem readConfig_renders (h : c.Renders text) :
    ∃ rest, readConfig text = .ok (c, rest) ∧ IsBlank rest := by
  cases h with
  | @object fields before body behind h₁ h₂ once others hbody =>
    refine ⟨behind, ?_, h₂⟩
    have hfree : ∀ f ∈ fields, f ∈ Field.all := fun f _ => by cases f <;> decide
    have hread : readEntries Field.all {} true (comma true ++ (body ++ '\x7d' :: behind)) =
        .ok (c, behind) := by
      rw [readEntries_series hbody (fun _ => rfl) once hfree, foldl_adopt others]
    unfold readConfig
    rw [skipBlank_append h₁, skipBlank_cons (by decide)]
    exact hread
  | @array k before body behind h₁ h₂ hk others hbody =>
    refine ⟨behind, ?_, h₂⟩
    have hread : readElements Field.all {} true (comma true ++ (body ++ ']' :: behind)) =
        .ok (c, behind) := by
      rw [← List.take_append_drop k Field.all, readElements_series hbody (fun _ => rfl),
        foldl_adopt others]
    unfold readConfig
    rw [skipBlank_append h₁, skipBlank_cons (by decide)]
    exact hread

theorem fromJson_renders {text : String} (h : c.Renders text.toList) :
    fromJson text =
      match c.invalid? with
      | some cause => .error (.invalid cause)
      | none => .ok c := by
  obtain ⟨rest, hread, hblank⟩ := readConfig_renders h
  have hskip := skipBlank_append hblank []
  rw [List.append_nil] at hskip
  unfold fromJson
  rw [hread]
  dsimp only
  rw [hskip]
  rfl

/-- What is read from a text was found to be a configuration to start with. -/
theorem invalid?_of_ok {text : String} (h : fromJson text = .ok c) : c.invalid? = none := by
  unfold fromJson at h
  split at h
  · cases h
  next c' rest _ =>
    split at h
    · split at h
      · cases h
      next hvalid =>
        obtain rfl : c' = c := by simpa using h
        exact hvalid
    · cases h

/-- **A text of a configuration gives that configuration**, unless something is wrong with it: a
    limit of none comes before a channel without room. The compact text is such a text, and whatever
    is read from any text is a configuration to start with. -/
theorem rendering_reads_back :
    (∀ (c : Config) (text : String), c.Renders text.toList →
      (c.maxPending ≠ some 0 → c.eventCapacity ≠ 0 → fromJson text = .ok c) ∧
      (c.maxPending = some 0 → fromJson text = .error (.invalid .zeroPending)) ∧
      (c.maxPending ≠ some 0 → c.eventCapacity = 0 →
        fromJson text = .error (.invalid .zeroEventCapacity))) ∧
    (∀ c : Config, c.Fits → c.Renders c.toJson.toList) ∧
    ∀ (text : String) (c : Config), fromJson text = .ok c → c.invalid? = none := by
  refine ⟨fun c text h => ?_, fun c h => renders_toJson h, fun text c h => invalid?_of_ok h⟩
  have hread := fromJson_renders h
  refine ⟨fun hlimit hroom => ?_, fun hlimit => ?_, fun hlimit hroom => ?_⟩
  · simpa [invalid?, hlimit, hroom] using hread
  · simpa [invalid?, hlimit] using hread
  · simpa [invalid?, hlimit, hroom] using hread

/-- An object in another order than the declared one with blanks around its tokens, an array that
    leaves the last field out, and a text that is wrong in both ways. -/
theorem rendering_reads_back_three :
    fromJson "\n\x7b \"event_capacity\" : 8,\t\"workers\":18446744073709551615\x7d " =
        .ok ⟨18446744073709551615, none, 8⟩ ∧
      fromJson "[2, 16]" = .ok ⟨2, some 16, 1024⟩ ∧
      fromJson (Config.toJson ⟨0, some 0, 0⟩) = .error (.invalid .zeroPending) ∧
      (⟨2, some 16, 1024⟩ : Config).invalid? = none := by
  have hspells : ∀ n < Nat.pow 2 64, Spells (some n) (Nat.toDigits 10 n) :=
    fun n hn => .number (decimal_toDigits n) hn
  have hspace : IsBlank [' '] := by simp [IsBlank]
  have htab : IsBlank ['\t'] := by simp [IsBlank]
  have hline : IsBlank ['\n'] := by simp [IsBlank]
  let small : Config := ⟨18446744073709551615, none, 8⟩
  have hcapacity : small.Entry .eventCapacity _ :=
    .mk hspace hspace hspace isBlank_nil (hspells 8 (by decide))
  have hworkers : small.Entry .workers _ :=
    .mk htab isBlank_nil isBlank_nil isBlank_nil
      (hspells 18446744073709551615 (by decide))
  have hobject : small.Renders
      "\n\x7b \"event_capacity\" : 8,\t\"workers\":18446744073709551615\x7d ".toList :=
    .object hline hspace (by decide)
      (fun f hf => by cases f <;> first | rfl | exact absurd hf (by decide))
      (.more hcapacity (.one hworkers))
  let pair : Config := ⟨2, some 16, 1024⟩
  have hfirst : pair.Element .workers _ := .mk isBlank_nil isBlank_nil (hspells 2 (by decide))
  have hsecond : pair.Element .maxPending _ := .mk hspace isBlank_nil (hspells 16 (by decide))
  have harray : pair.Renders "[2, 16]".toList :=
    .array isBlank_nil isBlank_nil (k := 2) (by decide)
      (fun f hf => by cases f <;> first | rfl | exact absurd hf (by decide))
      (.more hfirst (.one hsecond))
  obtain ⟨reads, compact, valid⟩ := rendering_reads_back
  have hcompact : Fits ⟨0, some 0, 0⟩ := fun f n hn => by
    cases f <;> cases hn <;> decide
  have hread := (reads _ _ harray).1 (by decide) (by decide)
  exact ⟨(reads _ _ hobject).1 (by decide) (by decide), hread,
    (reads _ _ (compact _ hcompact)).2.1 rfl, valid _ _ hread⟩

end Config
end CoopSched
