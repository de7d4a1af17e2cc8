/-
  PixelKernels.Proofs.LevelGrammar
  ────────────────────────────────
  **WHICH TEXTS NAME A LEVEL, AND WHAT THE ENVIRONMENT MAKES OF THEM.**

  Reading a text is done in two passes over its characters: one cuts the white
  space at its ends, one makes ASCII capitals small.  What a text says can be
  told without either.

    • `Text.Trims` relates a text to its core: white space stands around the
      core, which itself neither begins nor ends with any.  Every text has one
      core, and cutting finds it (`trims_iff`).
    • `Text.SameLetters` relates texts that differ in the case of ASCII letters
      only, character by character.  They are those that are equal once made
      small (`foldCase_eq_iff`), and what holds of the characters of one
      whatever their case holds of those of the other
      (`SameLetters.forall_mem`).  So a text with a character from elsewhere is
      never the same as a word of ASCII letters (`CpuLevel.NamedBy.lt_128`).
    • Whether the core of a text is one of some words, up to case, is decided
      by the two passes (`contains_word_iff`).  No word names two levels, so
      parsing answers the level that a text names, if there is one
      (`CpuLevel.parse_eq_ok_iff`, `CpuLevel.parse_eq_error_iff`).

  The environment cuts a text before parsing cuts it again.  A core is its own
  core, so the same level comes out, and only what a refusal quotes differs
  (`Environment.asksFor_settings`).
-/
import PixelKernels.Proofs.ForcedScalar

namespace PixelKernels

namespace Text

/-! ## §1. White space. -/

/-- The code points that have the Unicode property `White_Space`. -/
def whiteSpace : List Nat :=
  [0x0009, 0x000A, 0x000B, 0x000C, 0x000D, 0x0020, 0x0085, 0x00A0, 0x1680,
    0x2000, 0x2001, 0x2002, 0x2003, 0x2004, 0x2005, 0x2006, 0x2007, 0x2008, 0x2009, 0x200A,
    0x2028, 0x2029, 0x202F, 0x205F, 0x3000]

theorem isBlank_iff {c : Char} : isBlank c = true ↔ c.toNat ∈ whiteSpace := by
  simp only [isBlank, blankRanges, whiteSpace, List.any_cons, List.any_nil, Bool.or_eq_true,
    Bool.and_eq_true, decide_eq_true_eq, Bool.false_eq_true, List.mem_cons, List.not_mem_nil, or_false]
  constructor
  · intro h
    omega
  · intro h
    omega

/-- A text of white space and nothing else. -/
def AllBlank (text : String) : Prop := ∀ c ∈ text.toList, c.toNat ∈ whiteSpace

theorem allBlank_empty : AllBlank "" := by
  intro c hc
  cases hc

/-- A text that neither begins nor ends with white space. -/
structure Bare (text : String) : Prop where
  first : ∀ c, text.toList.head? = some c → c.toNat ∉ whiteSpace
  last : ∀ c, text.toList.getLast? = some c → c.toNat ∉ whiteSpace

/-- White space stands around the core, and none is left at its ends. -/
structure Trims (text core : String) : Prop where
  around : ∃ front back, AllBlank front ∧ AllBlank back ∧ text = front ++ core ++ back
  bare : Bare core

theorem dropWhile_of_head {chars : List Char}
    (h : ∀ c, chars.head? = some c → c.toNat ∉ whiteSpace) : chars.dropWhile isBlank = chars := by
  cases chars with
  | nil => rfl
  | cons c rest => exact List.dropWhile_cons_of_neg fun hblank => h c rfl (isBlank_iff.mp hblank)

theorem head_dropWhile (chars : List Char) :
    ∀ c, (chars.dropWhile isBlank).head? = some c → c.toNat ∉ whiteSpace := by
  intro c hc hblank
  have hnot := List.head?_dropWhile_not isBlank chars
  rw [hc] at hnot
  exact ne_true_of_eq_false hnot (isBlank_iff.mpr hblank)

/-- **White space is cut around characters that neither begin nor end with any.** -/
theorem trimChars_append {front core back : List Char} (hfront : ∀ c ∈ front, c.toNat ∈ whiteSpace)
    (hback : ∀ c ∈ back, c.toNat ∈ whiteSpace)
    (hfirst : ∀ c, core.head? = some c → c.toNat ∉ whiteSpace)
    (hlast : ∀ c, core.getLast? = some c → c.toNat ∉ whiteSpace) :
    trimChars (front ++ core ++ back) = core := by
  have hreverse : ∀ c ∈ back.reverse, isBlank c = true := fun c hc =>
    isBlank_iff.mpr (hback c (List.mem_reverse.mp hc))
  unfold trimChars
  rw [List.append_assoc, List.dropWhile_append_of_pos fun c hc => isBlank_iff.mpr (hfront c hc)]
  by_cases hcore : core = []
  · -- then nothing but white space is there
    subst hcore
    have hnone : back.dropWhile isBlank = [] :=
      List.dropWhile_eq_nil_iff.mpr fun c hc => isBlank_iff.mpr (hback c hc)
    rw [List.nil_append, hnone]
    rfl
  · obtain ⟨c, rest, rfl⟩ := List.exists_cons_of_ne_nil hcore
    have hkept : (c :: rest ++ back).dropWhile isBlank = c :: rest ++ back :=
      dropWhile_of_head fun d hd => hfirst d hd
    have hends : (c :: rest).reverse.dropWhile isBlank = (c :: rest).reverse :=
      dropWhile_of_head fun d hd => hlast d (by rwa [List.head?_reverse] at hd)
    rw [hkept, List.reverse_append, List.dropWhile_append_of_pos hreverse, hends, List.reverse_reverse]

/-- What is kept, and after it what is cut at the end. -/
theorem trimChars_append_end (chars : List Char) :
    trimChars chars ++ ((chars.dropWhile isBlank).reverse.takeWhile isBlank).reverse
      = chars.dropWhile isBlank := by
  unfold trimChars
  rw [← List.reverse_append, List.takeWhile_append_dropWhile, List.reverse_reverse]

theorem bare_trim (text : String) : Bare (trim text) := by
  have hcore : (trim text).toList = trimChars text.toList := String.toList_ofList
  constructor
  · intro c hc
    rw [hcore] at hc
    -- what is kept begins with the first character that is not white space
    have hbegins : (text.toList.dropWhile isBlank).head? = some c := by
      rw [← trimChars_append_end, List.head?_append, hc]
      rfl
    exact head_dropWhile text.toList c hbegins
  · intro c hc
    rw [hcore] at hc
    have hends : ((text.toList.dropWhile isBlank).reverse.dropWhile isBlank).head? = some c := by
      rw [← List.getLast?_reverse]
      exact hc
    exact head_dropWhile _ c hends

/-- Cutting leaves the core. -/
theorem trims_trim (text : String) : Trims text (trim text) := by
  refine ⟨⟨String.ofList (text.toList.takeWhile isBlank),
    String.ofList ((text.toList.dropWhile isBlank).reverse.takeWhile isBlank).reverse, ?_, ?_, ?_⟩,
    bare_trim text⟩
  · intro c hc
    rw [String.toList_ofList] at hc
    exact isBlank_iff.mp (List.mem_takeWhile_imp hc)
  · intro c hc
    rw [String.toList_ofList, List.mem_reverse] at hc
    exact isBlank_iff.mp (List.mem_takeWhile_imp hc)
  · rw [← String.toList_inj, String.toList_append, String.toList_append, trim, String.toList_ofList,
      String.toList_ofList, String.toList_ofList, List.append_assoc, trimChars_append_end,
      List.takeWhile_append_dropWhile]

/-- **A text has one core, and cutting finds it.** -/
theorem trims_iff {text core : String} : Trims text core ↔ trim text = core := by
  constructor
  · rintro ⟨⟨front, back, hfront, hback, rfl⟩, hfirst, hlast⟩
    rw [trim, String.toList_append, String.toList_append,
      trimChars_append hfront hback hfirst hlast, String.ofList_toList]
  · rintro rfl
    exact trims_trim text

/-- A core is its own core. -/
theorem Bare.trims {core : String} (h : Bare core) : Trims core core := by
  refine ⟨⟨"", "", allBlank_empty, allBlank_empty, ?_⟩, h⟩
  rw [String.append_empty, String.empty_append]

/-- Nothing is left of a text exactly if it is white space throughout. -/
theorem trim_eq_empty_iff {text : String} : trim text = "" ↔ AllBlank text := by
  rw [← trims_iff]
  constructor
  · rintro ⟨⟨front, back, hfront, hback, rfl⟩, -⟩ c hc
    rw [String.append_empty, String.toList_append, List.mem_append] at hc
    rcases hc with hc | hc
    · exact hfront c hc
    · exact hback c hc
  · intro hblank
    refine ⟨⟨text, "", hblank, allBlank_empty, ?_⟩, ?_, ?_⟩
    · rw [String.append_empty, String.append_empty]
    · intro c hc
      cases hc
    · intro c hc
      cases hc

/-! ## §2. The case of ASCII letters. -/

/-- The second character is the ASCII small letter of the first. -/
def HasSmallLetter (capital small : Char) : Prop :=
  65 ≤ capital.toNat ∧ capital.toNat ≤ 90 ∧ small.toNat = capital.toNat + 32

/-- Two characters that are the same up to the case of ASCII letters. -/
def SameLetter (c d : Char) : Prop := c = d ∨ HasSmallLetter c d ∨ HasSmallLetter d c

/-- Two texts that are the same, character by character, up to the case of ASCII letters. -/
def SameLetters (a b : String) : Prop := List.Forall₂ SameLetter a.toList b.toList

theorem toNat_foldChar (c : Char) :
    (foldChar c).toNat = if 65 ≤ c.toNat ∧ c.toNat ≤ 90 then c.toNat + 32 else c.toNat := by
  have hcapital : ('A' ≤ c ∧ c ≤ 'Z') ↔ (65 ≤ c.toNat ∧ c.toNat ≤ 90) := Iff.rfl
  unfold foldChar
  by_cases h : 65 ≤ c.toNat ∧ c.toNat ≤ 90
  · have hvalid : (c.toNat + 32).isValidChar := Or.inl (by omega)
    rw [if_pos (hcapital.mpr h), if_pos h, Char.toNat_ofNat, if_pos hvalid]
  · rw [if_neg fun hletter => h (hcapital.mp hletter), if_neg h]

/-- **Two characters are made small alike exactly if they are the same letter.** -/
theorem foldChar_eq_iff {c d : Char} : foldChar c = foldChar d ↔ SameLetter c d := by
  rw [← Char.toNat_inj, toNat_foldChar, toNat_foldChar]
  unfold SameLetter HasSmallLetter
  rw [← Char.toNat_inj]
  split <;> split <;> omega

theorem foldCase_eq_iff {a b : String} : foldCase a = foldCase b ↔ SameLetters a b := by
  rw [foldCase, foldCase, String.ofList_inj, ← List.forall₂_eq_eq_eq, List.forall₂_map_left_iff,
    List.forall₂_map_right_iff]
  simp only [foldChar_eq_iff]
  rfl

/-- **What holds of every character of a text, whatever the case of letters, holds of the same text in
another case.** -/
theorem SameLetters.forall_mem {p : Char → Prop} (hp : ∀ c d, SameLetter c d → p d → p c)
    {a b : String} (h : SameLetters a b) (hb : ∀ d ∈ b.toList, p d) : ∀ c ∈ a.toList, p c := by
  unfold SameLetters at h
  generalize a.toList = cs at h ⊢
  generalize b.toList = ds at h hb
  induction h with
  | nil =>
    intro c hc
    cases hc
  | cons hsame _ ih =>
    obtain ⟨hfirst, hrest⟩ := List.forall_mem_cons.mp hb
    exact List.forall_mem_cons.mpr ⟨hp _ _ hsame hfirst, ih hrest⟩

theorem SameLetter.lt_128 (c d : Char) (h : SameLetter c d) (hd : d.toNat < 128) : c.toNat < 128 := by
  obtain rfl | ⟨-, hle, -⟩ | ⟨-, hle, hsmall⟩ := h
  · exact hd
  · omega
  · omega

/-- No letter is white space. -/
theorem SameLetter.notMem_whiteSpace (c d : Char) (h : SameLetter c d) (hd : d.toNat ∉ whiteSpace) :
    c.toNat ∉ whiteSpace := by
  have hletter : ∀ n : Nat, 65 ≤ n → n ≤ 122 → n ∉ whiteSpace := by
    intro n hlow hhigh hblank
    simp only [whiteSpace, List.mem_cons, List.not_mem_nil, or_false] at hblank
    omega
  obtain rfl | ⟨hlow, hhigh, -⟩ | ⟨hlow, hhigh, hsmall⟩ := h
  · exact hd
  · exact hletter _ hlow (by omega)
  · exact hletter _ (by omega) (by omega)

/-! ## §3. Words. -/

/-- A text that says one of some words, white space and the case of ASCII letters aside. -/
def Says (words : List String) (text : String) : Prop :=
  ∃ core, Trims text core ∧ ∃ word ∈ words, SameLetters core word

/-- **The two passes decide whether a text says one of some words**, if these are small themselves. -/
theorem contains_word_iff {words : List String} (hsmall : ∀ word ∈ words, foldCase word = word)
    {text : String} : words.contains (foldCase (trim text)) = true ↔ Says words text := by
  rw [List.contains_iff_mem]
  constructor
  · intro hmem
    refine ⟨trim text, trims_trim text, _, hmem, foldCase_eq_iff.mp (hsmall _ hmem).symm⟩
  · rintro ⟨core, hcore, word, hword, hsame⟩
    rw [trims_iff.mp hcore, foldCase_eq_iff.mpr hsame, hsmall word hword]
    exact hword

/-- A text and its core say the same. -/
theorem Trims.says_iff {text core : String} (h : Trims text core) {words : List String} :
    Says words core ↔ Says words text := by
  have hself := h.bare.trims
  constructor
  · rintro ⟨own, hown, hword⟩
    rw [← trims_iff.mp hown, trims_iff.mp hself] at hword
    exact ⟨core, h, hword⟩
  · rintro ⟨own, hown, hword⟩
    rw [← trims_iff.mp hown, trims_iff.mp h] at hword
    exact ⟨core, hself, hword⟩

end Text

open Text

/-! ## §4. Levels by name. -/

namespace CpuLevel

/-- A text that says a spelling of a level. -/
def NamedBy (level : CpuLevel) (text : String) : Prop := Says level.spellings text

theorem foldCase_spelling {level : CpuLevel} : ∀ word ∈ level.spellings, foldCase word = word := by
  cases level <;> decide +kernel

theorem spelling_lt_128 {level : CpuLevel} :
    ∀ word ∈ level.spellings, ∀ c ∈ word.toList, c.toNat < 128 := by
  cases level <;> simp [spellings]

/-- **No word names two levels.** -/
theorem find?_spelling {level : CpuLevel} :
    ∀ word ∈ level.spellings, (all.find? fun l => l.spellings.contains word) = some level := by
  cases level <;> decide +kernel

theorem name_mem_spellings (level : CpuLevel) : level.name ∈ level.spellings := by
  cases level <;> decide

/-- **Parsing answers the level that the text names.** -/
theorem parse_eq_ok_iff {text : String} {level : CpuLevel} :
    parse text = .ok level ↔ level.NamedBy text := by
  unfold NamedBy
  rw [← contains_word_iff foldCase_spelling]
  unfold parse
  constructor
  · intro hparse
    dsimp only at hparse
    split at hparse
    · next found hfound =>
      cases hparse
      have hword := List.find?_some hfound
      exact hword
    · cases hparse
  · intro hword
    simp only [find?_spelling _ (List.contains_iff_mem.mp hword)]

/-- **A text that names no level is refused as it was given.** -/
theorem parse_eq_error_iff {text : String} {cause : Error} :
    parse text = .error cause ↔ (∀ level, ¬ NamedBy level text) ∧ cause = .invalidCpuLevel text := by
  have hrefused : ∀ found, parse text = .error found → found = .invalidCpuLevel text := by
    intro found hfound
    unfold parse at hfound
    dsimp only at hfound
    split at hfound
    · cases hfound
    · cases hfound
      rfl
  constructor
  · intro hparse
    refine ⟨fun level hnamed => ?_, hrefused cause hparse⟩
    rw [parse_eq_ok_iff.mpr hnamed] at hparse
    cases hparse
  · rintro ⟨hnone, rfl⟩
    cases hparse : parse text with
    | ok level => exact absurd (parse_eq_ok_iff.mp hparse) (hnone level)
    | error found => rw [hrefused found hparse]

/-- A character from elsewhere is in no spelling, even if its small letter is. -/
theorem NamedBy.lt_128 {level : CpuLevel} {text core : String} (h : level.NamedBy text)
    (hcore : Trims text core) : ∀ c ∈ core.toList, c.toNat < 128 := by
  obtain ⟨own, hown, word, hword, hsame⟩ := h
  rw [← trims_iff.mp hcore, trims_iff.mp hown]
  exact hsame.forall_mem SameLetter.lt_128 (spelling_lt_128 word hword)

/-- A level is named by its own name, in white space and in letters of any case. -/
theorem namedBy_name {front core back : String} (hfront : AllBlank front) (hback : AllBlank back)
    {level : CpuLevel} (h : SameLetters core level.name) : level.NamedBy (front ++ core ++ back) := by
  have hname : ∀ c ∈ level.name.toList, c.toNat ∉ whiteSpace := by
    cases level <;> simp [name, whiteSpace]
  have hcore := h.forall_mem SameLetter.notMem_whiteSpace hname
  have hbare : Bare core := ⟨fun c hc => hcore c (List.mem_of_mem_head? hc),
    fun c hc => hcore c (List.mem_of_mem_getLast? hc)⟩
  exact ⟨core, ⟨⟨front, back, hfront, hback, rfl⟩, hbare⟩, level.name, level.name_mem_spellings, h⟩

/-- How a text is parsed. -/
structure ParsesByName (text : String) : Prop where
  accepts : ∀ level, parse text = .ok level ↔ level.NamedBy text
  refuses : (∀ level, ¬ NamedBy level text) → parse text = .error (.invalidCpuLevel text)
  /-- One character from elsewhere is enough for a refusal, whatever its small letter is. -/
  ascii : ∀ core, Trims text core → (∃ c ∈ core.toList, 128 ≤ c.toNat) →
    parse text = .error (.invalidCpuLevel text)

theorem parsesByName (text : String) : ParsesByName text where
  accepts := fun _ => parse_eq_ok_iff
  refuses := fun hnone => parse_eq_error_iff.mpr ⟨hnone, rfl⟩
  ascii := by
    rintro core hcore ⟨c, hc, helsewhere⟩
    refine parse_eq_error_iff.mpr ⟨fun level hnamed => ?_, rfl⟩
    have hlt := hnamed.lt_128 hcore c hc
    omega

end CpuLevel

/-! ## §5. The environment. -/

/-- A variable that says a word for yes. -/
def Variable.SwitchedOn (setting : Variable) : Prop :=
  ∃ text, setting = .text text ∧ Says ["1", "true", "yes", "on"] text

/-- What a variable for the level asks of the settings. -/
structure Variable.AsksFor (setting : Variable) (asked : Except Error Settings) : Prop where
  /-- Nothing, bytes that are no text, and white space ask for the standard level. -/
  silent : (∀ text, setting = .text text → AllBlank text) → asked = .ok ⟨.standard⟩
  /-- Any other text asks for the level that it names. -/
  accepted : ∀ text level, setting = .text text → ¬ AllBlank text →
    CpuLevel.parse text = .ok level → asked = .ok ⟨level⟩
  /-- A refusal quotes the core of the text. -/
  refused : ∀ text cause, setting = .text text → ¬ AllBlank text →
    CpuLevel.parse text = .error cause →
      ∃ core, Trims text core ∧ asked = .error (.invalidCpuLevel core)

namespace Environment

variable {environment : Environment} {text : String}

theorem forcesScalar_iff : environment.forcesScalar = true ↔ environment.forceScalar.SwitchedOn := by
  have hsmall : ∀ word ∈ ["1", "true", "yes", "on"], foldCase word = word := by decide +kernel
  unfold forcesScalar Variable.SwitchedOn
  cases environment.forceScalar with
  | unset => simp [Variable.text?]
  | undecodable => simp [Variable.text?]
  | text value =>
    rw [Variable.text?, Option.map_some, Option.getD_some, isTruthy, contains_word_iff hsmall]
    constructor
    · intro hsays
      exact ⟨value, rfl, hsays⟩
    · rintro ⟨text, htext, hsays⟩
      cases htext
      exact hsays

theorem levelText?_of_blank (h : ∀ text, environment.cpuLevel = .text text → AllBlank text) :
    environment.levelText? = none := by
  unfold levelText?
  cases hvariable : environment.cpuLevel with
  | unset => rfl
  | undecodable => rfl
  | text value =>
    have hempty := trim_eq_empty_iff.mpr (h value hvariable)
    simp [Variable.text?, hempty]

theorem levelText?_of_text (h : environment.cpuLevel = .text text) (hblank : ¬ AllBlank text) :
    environment.levelText? = some (trim text) := by
  have hsome : trim text ≠ "" := fun hempty => hblank (trim_eq_empty_iff.mp hempty)
  unfold levelText?
  simp [h, Variable.text?, hsome]

/-- **Where nothing is forced, the settings follow the variable for the level.** -/
theorem asksFor_settings (hforce : environment.forcesScalar = false) :
    environment.cpuLevel.AsksFor environment.settings := by
  have hsettings : environment.settings = (levelNamed environment.levelText?).map Settings.mk := by
    rw [settings, hforce]
    rfl
  -- a text that is not blank is parsed without the white space at its ends
  have hparsed : ∀ text, environment.cpuLevel = .text text → ¬ AllBlank text →
      environment.settings = (CpuLevel.parse (trim text)).map Settings.mk := by
    intro text htext hblank
    rw [hsettings, levelText?_of_text htext hblank, levelNamed_some]
  refine ⟨fun hsilent => ?_, fun text level htext hblank hparse => ?_,
    fun text cause htext hblank hparse => ?_⟩
  · rw [hsettings, levelText?_of_blank hsilent]
    rfl
  · have hnamed : level.NamedBy (trim text) :=
      (trims_trim text).says_iff.mpr (CpuLevel.parse_eq_ok_iff.mp hparse)
    rw [hparsed text htext hblank, CpuLevel.parse_eq_ok_iff.mpr hnamed]
    rfl
  · obtain ⟨hnone, -⟩ := CpuLevel.parse_eq_error_iff.mp hparse
    have hcore : ∀ level, ¬ CpuLevel.NamedBy level (trim text) :=
      fun level hnamed => hnone level ((trims_trim text).says_iff.mp hnamed)
    refine ⟨trim text, trims_trim text, ?_⟩
    rw [hparsed text htext hblank, CpuLevel.parse_eq_error_iff.mpr ⟨hcore, rfl⟩]
    rfl

end Environment

/-! ## §6. Sessions. -/

namespace Session

/-- **A text names a level by its grammar and no other way**, every level is named by what is printed
for it, and a session that forces nothing answers what its variable for the level asks for. -/
theorem levels_are_named_by_grammar :
    (∀ text, CpuLevel.ParsesByName text) ∧
    (∀ (level : CpuLevel) (front core back : String), AllBlank front → AllBlank back →
      SameLetters core level.name → CpuLevel.parse (front ++ core ++ back) = .ok level) ∧
    ∀ processor environment steps,
      ¬ (environmentAtFirstReading environment steps).forceScalar.SwitchedOn →
        ∀ i : Nat, steps[i]? = some .readSettings →
          ∃ asked, ((start processor environment).run steps)[i]? = some (.settings asked) ∧
            (environmentAtFirstReading environment steps).cpuLevel.AsksFor asked := by
  refine ⟨CpuLevel.parsesByName, ?_, ?_⟩
  · intro level front core back hfront hback hsame
    exact CpuLevel.parse_eq_ok_iff.mpr (CpuLevel.namedBy_name hfront hback hsame)
  · intro processor environment steps hoff i hi
    obtain ⟨kernels, hfixes⟩ := exists_fixesOnce processor environment steps
    have hforce : (environmentAtFirstReading environment steps).forcesScalar = false :=
      Bool.eq_false_iff.mpr fun hforced => hoff (Environment.forcesScalar_iff.mp hforced)
    refine ⟨_, ?_, Environment.asksFor_settings hforce⟩
    rw [hfixes.answers, hi]
    rfl

/-- A word that is no level, between white space that is not ASCII. -/
def turboInSpaces : Environment := { cpuLevel := .text "\u00A0turbo\u2003", forceScalar := .text "off" }

/-- Printed names come back from wide spaces and capitals, a capital from elsewhere does not, and what a
session refuses it quotes without the white space. -/
theorem turboInSpaces_refused :
    CpuLevel.parse ("\u3000" ++ "NATIVE" ++ "\n") = .ok .native ∧
    CpuLevel.parse "nat\u0130ve" = .error (.invalidCpuLevel "nat\u0130ve") ∧
    ¬ turboInSpaces.forceScalar.SwitchedOn ∧
    ((start .full turboInSpaces).run [.setMask 7, .readSettings])[1]?
      = some (.settings (.error (.invalidCpuLevel "turbo"))) := by
  obtain ⟨hparses, hprinted, hsettings⟩ := levels_are_named_by_grammar
  have hoff : ¬ turboInSpaces.forceScalar.SwitchedOn := by
    rw [← Environment.forcesScalar_iff]
    decide +kernel
  have hlevel : CpuLevel.parse ("\u3000" ++ "NATIVE" ++ "\n") = .ok .native := by
    refine hprinted .native "\u3000" "NATIVE" "\n" ?_ ?_ (foldCase_eq_iff.mp (by decide +kernel))
    · simp [AllBlank, whiteSpace]
    · simp [AllBlank, whiteSpace]
  have helsewhere : Trims "nat\u0130ve" "nat\u0130ve" := trims_iff.mpr (by decide +kernel)
  obtain ⟨asked, hasked, hasksFor⟩ := hsettings .full turboInSpaces [.setMask 7, .readSettings] hoff 1 rfl
  have hturbo : CpuLevel.parse "\u00A0turbo\u2003" = .error (.invalidCpuLevel "\u00A0turbo\u2003") := by
    decide +kernel
  have hblank : ¬ AllBlank "\u00A0turbo\u2003" := by simp [AllBlank, whiteSpace]
  obtain ⟨core, hcore, rfl⟩ := hasksFor.refused _ _ rfl hblank hturbo
  obtain rfl : core = "turbo" := by
    rw [← trims_iff.mp hcore]
    decide +kernel
  exact ⟨hlevel, (hparses "nat\u0130ve").ascii _ helsewhere (by simp), hoff, hasked⟩

end Session

end PixelKernels
