import CoopSched.Proofs.Config.Reading

/-!
# Strays — keys that do not belong

A key is judged when its closing quote has been read. By then the entries before it have been read
and nothing behind it has been looked at. So whether a key is refused is settled by the entries
that stand before it: one that names no field, or a field that was given already, ends the reading
at once, whatever the text goes on with, and nothing that is wrong further on, or with the figures
before it, is ever reported (`strays_refused`).

`Members` is what may stand before a key. It says nothing about a configuration: the figures of the
entries are any that their fields can have.
-/

namespace CoopSched
namespace Config

variable {acc : Config} {f : Field} {given free : List Field} {name : String}
  {key text rest : List Char}

/-- An entry for a field: a key that is its name, however it is written, and a figure that the field
    has in some configuration. -/
inductive Member (f : Field) : List Char → Prop
  | mk {c : Config} {b₁ b₂ b₃ b₄ key value : List Char} (h₁ : IsBlank b₁) (h₂ : IsBlank b₂)
      (h₃ : IsBlank b₃) (h₄ : IsBlank b₄) (hkey : Literal f.name.toList key)
      (hvalue : Spells (c.figure f) value) :
      Member f (b₁ ++ '"' :: (key ++ '"' :: (b₂ ++ ':' :: (b₃ ++ (value ++ b₄)))))

/-- Entries for these fields in turn, a comma behind each. -/
inductive Members : List Field → List Char → Prop
  | nil : Members [] []
  | cons {f : Field} {given : List Field} {text more : List Char} (h : Member f text)
      (hrest : Members given more) : Members (f :: given) (text ++ ',' :: more)

/-! ## What stands before the key -/

theorem readEntries_member (acc : Config) (isFirst : Bool) (hf : f ∈ free) (h : Member f text)
    (hrest : Delimited rest) :
    ∃ acc', readEntries free acc isFirst (comma isFirst ++ (text ++ rest)) =
      readEntries (free.erase f) acc' false rest := by
  obtain ⟨h₁, h₂, h₃, h₄, hkey, hvalue⟩ := h
  exact ⟨_, readEntries_keyed hf h₁ h₂ h₃ h₄ hkey hvalue hrest⟩

/-- **Entries are read up to the next key**, and the fields that are then free are those that were
    not given. -/
theorem readEntries_members (acc : Config) (isFirst : Bool) (h : Members given text)
    (once : given.Nodup) (hfree : ∀ f ∈ given, f ∈ free) (hnodup : free.Nodup)
    (rest : List Char) :
    ∃ free' acc' isFirst', (∀ f, f ∈ free' ↔ f ∈ free ∧ f ∉ given) ∧
      readEntries free acc isFirst (comma isFirst ++ (text ++ rest)) =
        readEntries free' acc' isFirst' (comma isFirst' ++ rest) := by
  -- On the entries. Each of them takes its field out of those that are free.
  induction h generalizing free acc isFirst with
  | nil => exact ⟨free, acc, isFirst, by simp, rfl⟩
  | @cons f given text more hmember _ ih =>
    obtain ⟨hnot, once'⟩ := List.nodup_cons.mp once
    have hcomma : Delimited (',' :: (more ++ rest)) := ⟨_, _, rfl, by simp⟩
    obtain ⟨acc₁, hread⟩ := readEntries_member acc isFirst (hfree f List.mem_cons_self) hmember
      hcomma
    have hleft : ∀ k, k ∈ free.erase f ↔ k ≠ f ∧ k ∈ free := fun k => hnodup.mem_erase_iff
    obtain ⟨free', acc', isFirst', hfree', hrest⟩ := ih acc₁ false once'
      (fun k hk => (hleft k).mpr ⟨fun heq => hnot (heq ▸ hk), hfree k (List.mem_cons_of_mem _ hk)⟩)
      (hnodup.erase f)
    refine ⟨free', acc', isFirst', fun k => ?_, ?_⟩
    · rw [hfree', hleft, List.mem_cons, not_or]
      exact ⟨fun h => ⟨h.1.2, h.1.1, h.2⟩, fun h => ⟨⟨h.2.1, h.1⟩, h.2.2⟩⟩
    · rw [List.append_assoc, List.cons_append, hread, ← hrest]
      rfl

/-! ## The key -/

theorem judgeKey_unknown (h : ∀ f : Field, f.name ≠ name) :
    judgeKey free name = .error (.mismatch (.unknownField name)) := by
  have hnone : Field.ofName? name = none := by
    unfold Field.ofName?
    rw [List.find?_eq_none]
    exact fun f _ => by simpa using h f
  unfold judgeKey
  rw [hnone]

theorem judgeKey_duplicate (h : f ∉ free) :
    judgeKey free f.name = .error (.mismatch (.duplicateField f)) := by
  unfold judgeKey
  rw [Field.ofName?_name]
  simp [h]

/-- A key that is not let through is the end of the reading. -/
theorem readEntries_stray (acc : Config) (isFirst : Bool) {blank : List Char} {fault : ReadFault}
    (hblank : IsBlank blank) (hkey : Literal name.toList key)
    (hjudge : judgeKey free name = .error fault) (rest : List Char) :
    readEntries free acc isFirst
      (comma isFirst ++ (blank ++ '"' :: (key ++ '"' :: rest))) = .error fault := by
  have hstring := readString_literal hkey rest
  rw [String.ofList_toList] at hstring
  rw [readEntries.eq_def]
  simp only [nextEntry_key isFirst hblank, hstring, hjudge, bind, Except.bind]

theorem message_unknownField (name : String) :
    (Mismatch.unknownField name).message = "unknown field `" ++ name ++
      "`, expected one of `workers`, `max_pending`, `event_capacity`" := by
  have hlist : "`, expected one of " ++
      String.intercalate ", " (Field.all.map fun f => "`" ++ f.name ++ "`") =
        "`, expected one of `workers`, `max_pending`, `event_capacity`" := by decide
  unfold Mismatch.message
  dsimp only
  rw [String.append_assoc, hlist]

/-! ## The text -/

/-- A text that begins an object, with entries and a key up to its closing quote. -/
def strayText (before entries blank key rest : List Char) : String :=
  String.ofList (before ++ '\x7b' :: (entries ++ (blank ++ '"' :: (key ++ '"' :: rest))))

/-- What judges the key judges the text. -/
theorem fromJson_stray {before entries blank : List Char} (hbefore : IsBlank before)
    (hentries : Members given entries) (once : given.Nodup) (hblank : IsBlank blank)
    (hkey : Literal name.toList key) (rest : List Char) {fault : ReadFault}
    (hjudge : ∀ free, (∀ f, f ∈ free ↔ f ∉ given) → judgeKey free name = .error fault) :
    fromJson (strayText before entries blank key rest) = .error (.unreadable fault) := by
  have hall : ∀ f : Field, f ∈ Field.all := fun f => by cases f <;> decide
  obtain ⟨free, acc, isFirst, hfree, hread⟩ := readEntries_members {} true
    hentries once (fun f _ => hall f) (by decide) (blank ++ '"' :: (key ++ '"' :: rest))
  have hstray := readEntries_stray acc isFirst hblank hkey
    (hjudge free fun f => by simp [hfree, hall]) rest
  have hconfig : readConfig (strayText before entries blank key rest).toList = .error fault := by
    unfold strayText readConfig
    rw [String.toList_ofList, skipBlank_append hbefore, skipBlank_cons (by decide)]
    exact hread.trans hstray
  unfold fromJson
  rw [hconfig]

/-- **A key that names no field, or one that was given already, is refused when it has been read.**
    The entries before it are well formed and may hold any figures; behind its closing quote there
    may be anything. The fault is in the data, and it names the key as it was decoded. -/
theorem strays_refused {before entries blank : List Char} (hbefore : IsBlank before)
    (hentries : Members given entries) (once : given.Nodup) (hblank : IsBlank blank)
    (hkey : Literal name.toList key) (rest : List Char) :
    ((∀ f : Field, f.name ≠ name) →
      fromJson (strayText before entries blank key rest) =
        .error (.unreadable (.mismatch (.unknownField name)))) ∧
    (∀ f ∈ given, f.name = name →
      fromJson (strayText before entries blank key rest) =
        .error (.unreadable (.mismatch (.duplicateField f)))) ∧
    ((∀ f : Field, f.name = name → f ∈ given) →
      ∃ m, fromJson (strayText before entries blank key rest) =
          .error (.unreadable (.mismatch m)) ∧
        (ReadFault.mismatch m).category = "Data" ∧
        (m.message = "unknown field `" ++ name ++
            "`, expected one of `workers`, `max_pending`, `event_capacity`" ∨
          m.message = "duplicate field `" ++ name ++ "`")) := by
  have hunknown := fun hname : ∀ f : Field, f.name ≠ name =>
    fromJson_stray hbefore hentries once hblank hkey rest fun _ _ => judgeKey_unknown hname
  have hduplicate : ∀ f ∈ given, f.name = name →
      fromJson (strayText before entries blank key rest) =
        .error (.unreadable (.mismatch (.duplicateField f))) := by
    rintro f hf rfl
    exact fromJson_stray hbefore hentries once hblank hkey rest fun free hfree =>
      judgeKey_duplicate fun hmem => (hfree f).mp hmem hf
  refine ⟨hunknown, hduplicate, fun hstray => ?_⟩
  by_cases hname : ∃ f : Field, f.name = name
  · obtain ⟨f, rfl⟩ := hname
    exact ⟨_, hduplicate f (hstray f rfl) rfl, rfl, Or.inr rfl⟩
  · exact ⟨_, hunknown fun f hf => hname ⟨f, hf⟩, rfl, Or.inl (message_unknownField name)⟩

/-- A limit is given a second time, the key written with an escape, where the first one was no
    limit to start with and no colon follows; and a text that ends behind a key which is one
    character beyond the first 65536. -/
theorem strays_refused_two :
    fromJson "\x7b\"max_pending\" : 0 ,\"\\u006dax_pending\" ?" =
        .error (.unreadable (.mismatch (.duplicateField .maxPending))) ∧
      ∃ m, fromJson "\x7b\"\\uD83d\\ude00\"" = .error (.unreadable (.mismatch m)) ∧
        (ReadFault.mismatch m).category = "Data" ∧
        (m.message =
            "unknown field `😀`, expected one of `workers`, `max_pending`, `event_capacity`" ∨
          m.message = "duplicate field `😀`") := by
  have hspace : IsBlank [' '] := by simp [IsBlank]
  have hzero : Spells (figure ⟨0, some 0, 0⟩ .maxPending) ['0'] :=
    .number ⟨by decide, by simp, rfl, fun _ => rfl⟩ (by decide)
  have hlimit : Members [.maxPending] _ :=
    .cons (.mk isBlank_nil hspace hspace hspace (literal_name .maxPending) hzero) .nil
  have hm : CodeUnit 0x6D ['0', '0', '6', 'd'] :=
    .mk (.decimal (d := 0) (by decide)) (.decimal (d := 0) (by decide))
      (.decimal (d := 6) (by decide)) (.lower (d := 3) (by decide))
  have hhigh : CodeUnit (0xD800 + 0x3D) ['D', '8', '3', 'd'] :=
    .mk (.upper (d := 3) (by decide)) (.decimal (d := 8) (by decide))
      (.decimal (d := 3) (by decide)) (.lower (d := 3) (by decide))
  have hlow : CodeUnit (0xDC00 + 0x200) ['d', 'e', '0', '0'] :=
    .mk (.lower (d := 3) (by decide)) (.lower (d := 4) (by decide))
      (.decimal (d := 0) (by decide)) (.decimal (d := 0) (by decide))
  have hagain : Literal "max_pending".toList "\\u006dax_pending".toList :=
    .cons (.unit hm (by decide)) (literal_plain (by decide))
  have hface : Literal "😀".toList "\\uD83d\\ude00".toList :=
    .cons (.surrogates hhigh hlow (by decide) (by decide)) .nil
  exact ⟨(strays_refused isBlank_nil hlimit (by decide) isBlank_nil hagain " ?".toList).2.1
      .maxPending (by decide) rfl,
    (strays_refused isBlank_nil .nil (by decide) isBlank_nil hface []).2.2 fun f hf =>
      absurd hf (by cases f <;> decide)⟩

end Config
end CoopSched
