import RecordQuery.Lexeme
import RecordQuery.Text.Blank
import Mathlib.Data.List.TakeWhile

/-!
# The lexical grammar

`Lexeme.Spells` lists the lexemes and what they mean, without reference to how one is read, together
with the characters that may not stand directly behind each.  Those are the characters that a longer
lexeme would have taken, and the quote behind a string, which is refused.

Reading the front of a text is the same thing: `scan_of_spells` reads any lexeme that something
harmless follows, and `scan_sound` says that nothing else is read without an error.

* `Lexeme.IsWord`, `Lexeme.quoted`: words, and the one way to write a string.
* `Lexeme.Spells`: the lexemes.
* `Spells.exists_cons`: no lexeme starts with a blank, so the blanks before it are found.
* `Spells.not_barred_of_isBlank`, `Spells.not_barred_quote`: what may stand behind a lexeme.
-/

set_option autoImplicit false

namespace RecordQuery
namespace Lexeme

open Text

/-! ## Words and strings -/

/-- What may follow the first character of a word: letters, digits and underscores, and single dots
each with one of these behind it. -/
inductive IsWordTail : List Char → Prop
  | nil : IsWordTail []
  | part {c : Char} {cs : List Char} (hc : isWordPart c = true) (h : IsWordTail cs) :
      IsWordTail (c :: cs)
  | dot {c : Char} {cs : List Char} (hc : isWordPart c = true) (h : IsWordTail cs) :
      IsWordTail ('.' :: c :: cs)

/-- The words. -/
inductive IsWord : List Char → Prop
  | intro {c : Char} {cs : List Char} (hc : isWordStart c = true) (h : IsWordTail cs) :
      IsWord (c :: cs)

/-- `text` with a backslash before each quote and each backslash. -/
def escaped (text : List Char) : List Char :=
  text.flatMap fun c ↦ if c = '"' ∨ c = '\\' then ['\\', c] else [c]

/-- The string literal that denotes `text`. -/
def quoted (text : List Char) : List Char := '"' :: (escaped text ++ ['"'])

/-! ## Lexemes -/

/-- The characters `cs` are a lexeme, it means `kind`, and no character with the property `barred`
may stand directly behind it. -/
inductive Spells : List Char → Token.Kind → (Char → Prop) → Prop
  | operator (op : ArithmeticOp) : Spells op.symbol.toList (.operator op) fun _ ↦ False
  | leftParen : Spells ['('] .leftParen fun _ ↦ False
  | rightParen : Spells [')'] .rightParen fun _ ↦ False
  | comparator {op : Comparator} (h : op ≠ .like) :
      Spells op.symbol.toList (.comparator op)
        fun c ↦ (op = .lessThan ∨ op = .greaterThan) ∧ c = '='
  | number {digits : List Char} {value : Integer} (hne : digits ≠ [])
      (hdigits : ∀ c ∈ digits, c.isDigit = true)
      (hvalue : value.toInt = Nat.ofDigitChars 10 digits 0) :
      Spells digits (.number value) fun c ↦ c.isDigit = true
  | string (text : List Char) : Spells (quoted text) (.string (String.ofList text)) fun c ↦ c = '"'
  | word {cs : List Char} (h : IsWord cs) :
      Spells cs (wordKind (String.ofList cs)) fun c ↦ isWordPart c = true ∨ c = '.'

/-! ## Classes of characters -/

/-- The code points of the blanks. -/
def blankPoints : List Nat :=
  [0x9, 0xA, 0xB, 0xC, 0xD, 0x20, 0x85, 0xA0, 0x1680, 0x2000, 0x2001, 0x2002, 0x2003, 0x2004,
   0x2005, 0x2006, 0x2007, 0x2008, 0x2009, 0x200A, 0x2028, 0x2029, 0x202F, 0x205F, 0x3000]

theorem toNat_mem_blankPoints {c : Char} (h : isBlank c = true) : c.toNat ∈ blankPoints := by
  simp only [isBlank, Ranges.contains, blankRanges, List.any_cons, List.any_nil, Bool.or_false,
    Bool.or_eq_true, Bool.and_eq_true, decide_eq_true_eq] at h
  simp only [blankPoints, List.mem_cons, List.not_mem_nil, or_false]
  rcases h with h | h | h | h | h | h | h | h | h | h <;> omega

/-- No blank is part of a word. -/
theorem isWordPart_of_isBlank {c : Char} (h : isBlank c = true) : isWordPart c = false := by
  have hpoints : ∀ n ∈ blankPoints, isWordPart (Char.ofNat n) = false := by decide +kernel
  have hc := hpoints _ (toNat_mem_blankPoints h)
  rwa [Char.ofNat_toNat] at hc

/-- No blank opens a word. -/
theorem isWordStart_of_isBlank {c : Char} (h : isBlank c = true) : isWordStart c = false := by
  refine eq_false_of_ne_true fun hstart ↦ ?_
  have hpart := isWordPart_of_isBlank h
  rw [isWordPart_of_isWordStart hstart] at hpart
  cases hpart

/-- No digit opens a word. -/
theorem isWordStart_of_isDigit {c : Char} (h : c.isDigit = true) : isWordStart c = false := by
  have hpoints : ∀ n < 0x80, (Char.ofNat n).isDigit = true →
      isWordStart (Char.ofNat n) = false := by decide +kernel
  have hc := hpoints _ (toNat_lt_of_isDigit h)
  rw [Char.ofNat_toNat] at hc
  exact hc h

/-- No blank is a digit. -/
theorem isDigit_of_isBlank {c : Char} (h : isBlank c = true) : c.isDigit = false := by
  have hpoints : ∀ n ∈ blankPoints, (Char.ofNat n).isDigit = false := by decide +kernel
  have hc := hpoints _ (toNat_mem_blankPoints h)
  rwa [Char.ofNat_toNat] at hc

/-! ## Reading a word -/

theorem IsWordTail.of_cons {c : Char} {cs : List Char} (h : IsWordTail (c :: cs))
    (hc : isWordPart c = true) : IsWordTail cs := by
  cases h with
  | part _ h => exact h
  | dot => exact absurd hc (by decide)

/-- A word is read up to a character that cannot go on with it. -/
theorem spanWord_of_isWordTail {cs rest : List Char} (h : IsWordTail cs)
    (hrest : ∀ c ∈ rest.head?, ¬ (isWordPart c = true ∨ c = '.')) :
    spanWord (cs ++ rest) = (cs, rest) := by
  induction h with
  | nil =>
    cases rest with
    | nil => rfl
    | cons c rest =>
      obtain ⟨hpart, hdot⟩ := not_or.mp (hrest c rfl)
      simp [spanWord, hpart, hdot]
  | part hc _ ih => simp [spanWord, hc, ih]
  | dot hc _ ih => simp [spanWord, hc, ih]

/-- The run that is read is a word tail, and no character of a word follows. -/
theorem spanWord_cases (cs : List Char) :
    IsWordTail (spanWord cs).1 ∧ ∀ c ∈ (spanWord cs).2.head?, isWordPart c = false := by
  induction cs with
  | nil => exact ⟨.nil, nofun⟩
  | cons c cs ih =>
    rw [spanWord]
    split
    · rename_i hc
      refine ⟨?_, ih.2⟩
      simp only [Bool.or_eq_true, Bool.and_eq_true, decide_eq_true_eq] at hc
      rcases hc with hc | ⟨rfl, hd⟩
      · exact .part hc ih.1
      · cases cs with
        | nil => cases hd
        | cons d ds =>
          -- a run that starts with the character behind a dot is one with that character in front
          have hd : isWordPart d = true := hd
          have hrun : spanWord (d :: ds) = (d :: (spanWord ds).1, (spanWord ds).2) := by
            rw [spanWord, hd]; rfl
          rw [hrun] at ih ⊢
          exact .dot hd (ih.1.of_cons hd)
    · rename_i hc
      refine ⟨.nil, fun d hd ↦ ?_⟩
      cases hd
      simp only [Bool.or_eq_true, not_or, Bool.not_eq_true] at hc
      exact hc.1

/-! ## Reading a string -/

theorem scanString_quote (cs : List Char) : scanString ('"' :: cs) =
    ⟨[], ['"'], cs, if cs.head? = some '"' then .doubled else .closed⟩ := by
  cases cs <;> simp [scanString]

theorem scanString_escape {c : Char} (hc : c = '"' ∨ c = '\\') (cs : List Char) :
    scanString ('\\' :: c :: cs) = (scanString cs).push c ['\\', c] := by
  simp [scanString, hc]

theorem scanString_plain {c : Char} (hc : ¬ (c = '"' ∨ c = '\\')) (cs : List Char) :
    scanString (c :: cs) = (scanString cs).push c [c] := by
  obtain ⟨hquote, hbackslash⟩ := not_or.mp hc
  rw [scanString.eq_def]
  simp [hquote, hbackslash]

theorem escaped_cons_of_escape {c : Char} (hc : c = '"' ∨ c = '\\') (text : List Char) :
    escaped (c :: text) = '\\' :: c :: escaped text := by
  simp [escaped, hc]

theorem escaped_cons_of_plain {c : Char} (hc : ¬ (c = '"' ∨ c = '\\')) (text : List Char) :
    escaped (c :: text) = c :: escaped text := by
  simp [escaped, hc]

/-- A string is read up to its closing quote. -/
theorem scanString_escaped (text rest : List Char) :
    scanString (escaped text ++ '"' :: rest) =
      ⟨text, escaped text ++ ['"'], rest, if rest.head? = some '"' then .doubled else .closed⟩ := by
  induction text with
  | nil => exact scanString_quote rest
  | cons c text ih =>
    by_cases hc : c = '"' ∨ c = '\\'
    · rw [escaped_cons_of_escape hc, List.cons_append, List.cons_append, scanString_escape hc, ih]
      rfl
    · rw [escaped_cons_of_plain hc, List.cons_append, scanString_plain hc, ih]
      rfl

/-- A string that is read to its closing quote is written in the one way there is. -/
theorem taken_of_closed {cs : List Char} (h : (scanString cs).ending = .closed) :
    (scanString cs).taken = escaped (scanString cs).text ++ ['"'] ∧
      (scanString cs).rest.head? ≠ some '"' := by
  fun_induction scanString cs with
  | case1 => cases h
  | case2 cs =>
    refine ⟨rfl, fun hquote ↦ ?_⟩
    rw [if_pos hquote] at h
    cases h
  | case3 => cases h
  | case4 d ds hd _ ih =>
    obtain ⟨htaken, hrest⟩ := ih h
    refine ⟨?_, hrest⟩
    rw [StringBody.push, htaken, escaped_cons_of_escape hd]
    rfl
  | case5 => cases h
  | case6 c cs hquote hbackslash ih =>
    obtain ⟨htaken, hrest⟩ := ih h
    refine ⟨?_, hrest⟩
    rw [StringBody.push, htaken, escaped_cons_of_plain (not_or.mpr ⟨hquote, hbackslash⟩)]
    rfl

/-! ## Reading a lexeme -/

theorem scan_of_isWordStart {c : Char} (h : isWordStart c = true) (start : Nat) (cs : List Char) :
    scan start (c :: cs) = wordScan start (c :: cs) := by
  rw [scan, if_pos h]
  all_goals intros; subst c; exact absurd h (by decide)

theorem scan_of_isDigit {c : Char} (h : c.isDigit = true) (start : Nat) (cs : List Char) :
    scan start (c :: cs) = numberScan start (c :: cs) := by
  rw [scan, isWordStart_of_isDigit h, if_neg Bool.false_ne_true, if_pos h]
  all_goals intros; subst c; exact absurd h (by decide)

/-- A word is read as a whole. -/
theorem wordScan_of_isWord {cs rest : List Char} (h : IsWord cs)
    (hrest : ∀ c ∈ rest.head?, ¬ (isWordPart c = true ∨ c = '.')) (start : Nat) :
    wordScan start (cs ++ rest) = ⟨.ok (wordKind (String.ofList cs)), cs, rest⟩ := by
  obtain ⟨hc, htail⟩ := h
  have hspan := spanWord_of_isWordTail (.part (isWordPart_of_isWordStart hc) htail) hrest
  have hdot : rest.head? ≠ some '.' := fun hdot ↦ hrest '.' hdot (.inr rfl)
  simp only [wordScan, hspan, if_neg hdot]

/-- A number is read as a whole. -/
theorem numberScan_of_digits {digits rest : List Char} {value : Integer}
    (hdigits : ∀ c ∈ digits, c.isDigit = true)
    (hvalue : value.toInt = Nat.ofDigitChars 10 digits 0)
    (hrest : ∀ c ∈ rest.head?, ¬ c.isDigit = true) (start : Nat) :
    numberScan start (digits ++ rest) = ⟨.ok (.number value), digits, rest⟩ := by
  obtain ⟨htake, hdrop⟩ := takeWhile_append hdigits fun c hc ↦ Bool.not_eq_true _ ▸ hrest c hc
  rw [numberScan, htake, hdrop, Integer.ofInt?_eq_some.mpr hvalue]

/-- The sign that a longer one starts with is read when the longer one does not stand there. -/
theorem scan_of_not_equals {rest : List Char} (h : rest.head? ≠ some '=') (start : Nat) :
    scan start ('<' :: rest) = ⟨.ok (.comparator .lessThan), ['<'], rest⟩ ∧
      scan start ('>' :: rest) = ⟨.ok (.comparator .greaterThan), ['>'], rest⟩ := by
  constructor <;> rw [scan] <;> rintro cs rfl <;> exact h rfl

/-- A lexeme is read as a whole. -/
theorem scan_of_spells {cs rest : List Char} {kind : Token.Kind} {barred : Char → Prop}
    (h : Spells cs kind barred) (hrest : ∀ c ∈ rest.head?, ¬ barred c) (start : Nat) :
    scan start (cs ++ rest) = ⟨.ok kind, cs, rest⟩ := by
  cases h with
  | operator op => cases op <;> rfl
  | leftParen => rfl
  | rightParen => rfl
  | @comparator op hop =>
    cases op with
    | equal | notEqual | lessEqual | greaterEqual => rfl
    | lessThan => exact (scan_of_not_equals (fun h ↦ hrest '=' h ⟨.inl rfl, rfl⟩) start).1
    | greaterThan => exact (scan_of_not_equals (fun h ↦ hrest '=' h ⟨.inr rfl, rfl⟩) start).2
    | like => exact absurd rfl hop
  | @number digits value hne hdigits hvalue =>
    obtain ⟨c, cs, rfl⟩ := List.exists_cons_of_ne_nil hne
    rw [List.cons_append, scan_of_isDigit (hdigits c List.mem_cons_self), ← List.cons_append]
    exact numberScan_of_digits hdigits hvalue hrest start
  | string text =>
    have hclosed : rest.head? ≠ some '"' := fun hquote ↦ hrest '"' hquote rfl
    have hquoted : quoted text ++ rest = '"' :: (escaped text ++ '"' :: rest) := by simp [quoted]
    rw [hquoted, scan, scanString_escaped, if_neg hclosed]
    rfl
  | word hword =>
    have hscan := wordScan_of_isWord hword hrest start
    obtain ⟨hc, htail⟩ := hword
    rw [List.cons_append, scan_of_isWordStart hc, ← List.cons_append]
    exact hscan

/-- What has been read is a lexeme, and what follows is allowed to stand there. -/
def Scan.Sound (s : Scan) : Prop :=
  ∀ kind, s.outcome = .ok kind → ∃ barred, Spells s.taken kind barred ∧
    ∀ c ∈ s.rest.head?, ¬ barred c

theorem Scan.sound_of_spells {cs rest : List Char} {kind : Token.Kind} {barred : Char → Prop}
    (h : Spells cs kind barred) (hrest : ∀ c ∈ rest.head?, ¬ barred c) :
    (Scan.mk (.ok kind) cs rest).Sound := by
  rintro _ ⟨⟩
  exact ⟨barred, h, hrest⟩

theorem stringScan_sound (start : Nat) (cs : List Char) :
    (stringScan start (scanString cs)).Sound := by
  intro kind h
  cases hending : (scanString cs).ending <;> simp only [stringScan, hending] at h <;> cases h
  obtain ⟨htaken, hrest⟩ := taken_of_closed hending
  have htaken : (stringScan start (scanString cs)).taken = quoted (scanString cs).text :=
    congrArg ('"' :: ·) htaken
  rw [htaken]
  refine ⟨_, .string _, ?_⟩
  rintro _ hc rfl
  exact hrest hc

theorem wordScan_sound (start : Nat) {c : Char} (hc : isWordStart c = true) (cs : List Char) :
    (wordScan start (c :: cs)).Sound := by
  intro kind h
  simp only [wordScan] at h ⊢
  split at h
  · cases h
  · rename_i hdot
    cases h
    have hrun : spanWord (c :: cs) = (c :: (spanWord cs).1, (spanWord cs).2) := by
      rw [spanWord, isWordPart_of_isWordStart hc]
      rfl
    obtain ⟨htail, hrest⟩ := spanWord_cases cs
    rw [hrun] at hdot ⊢
    refine ⟨_, .word ⟨hc, htail⟩, fun d hd ↦ ?_⟩
    rintro (hpart | rfl)
    · rw [hrest d hd] at hpart
      cases hpart
    · exact hdot hd

theorem numberScan_sound (start : Nat) {c : Char} (hc : c.isDigit = true) (cs : List Char) :
    (numberScan start (c :: cs)).Sound := by
  intro kind h
  cases hvalue : Integer.ofInt? (Nat.ofDigitChars 10 ((c :: cs).takeWhile Char.isDigit) 0) with
  | none => simp only [numberScan, hvalue] at h; cases h
  | some value =>
    simp only [numberScan, hvalue] at h
    cases h
    have hne : (c :: cs).takeWhile Char.isDigit ≠ [] := by
      rw [List.takeWhile_cons, hc]
      exact List.cons_ne_nil _ _
    refine ⟨_, .number hne (fun d ↦ List.mem_takeWhile_imp) (Integer.ofInt?_eq_some.mp hvalue),
      fun d hd ↦ ?_⟩
    have hhead : ((c :: cs).dropWhile Char.isDigit).head? = some d := hd
    have hrest := List.head?_dropWhile_not Char.isDigit (c :: cs)
    rw [hhead] at hrest
    rw [hrest]
    exact Bool.false_ne_true

theorem not_barred_of_ne {cs : List Char} {op : Comparator} (h : ∀ ds, cs = '=' :: ds → False) :
    ∀ c ∈ cs.head?, ¬ ((op = .lessThan ∨ op = .greaterThan) ∧ c = '=') := by
  rintro _ hc ⟨-, rfl⟩
  obtain ⟨ds, hds⟩ := List.head?_eq_some_iff.mp hc
  exact h ds hds

/-- Whatever is read without an error, before the end, is a lexeme. -/
theorem scan_sound (start : Nat) {cs : List Char} (h : cs ≠ []) : (scan start cs).Sound := by
  fun_cases scan start cs
  case case1 => exact absurd rfl h
  case case2 => exact Scan.sound_of_spells (.operator .add) (by simp)
  case case3 => exact Scan.sound_of_spells (.operator .subtract) (by simp)
  case case4 => exact Scan.sound_of_spells (.operator .multiply) (by simp)
  case case5 => exact Scan.sound_of_spells (.operator .divide) (by simp)
  case case6 => exact Scan.sound_of_spells .leftParen (by simp)
  case case7 => exact Scan.sound_of_spells .rightParen (by simp)
  case case8 => exact Scan.sound_of_spells (@Spells.comparator .equal (by decide)) (by simp)
  case case9 => exact Scan.sound_of_spells (@Spells.comparator .lessEqual (by decide)) (by simp)
  case case10 cs hcs =>
    exact Scan.sound_of_spells (@Spells.comparator .lessThan (by decide)) (not_barred_of_ne hcs)
  case case11 => exact Scan.sound_of_spells (@Spells.comparator .greaterEqual (by decide)) (by simp)
  case case12 cs hcs =>
    exact Scan.sound_of_spells (@Spells.comparator .greaterThan (by decide)) (not_barred_of_ne hcs)
  case case13 => exact Scan.sound_of_spells (@Spells.comparator .notEqual (by decide)) (by simp)
  case case14 => intro kind hkind; cases hkind
  case case15 => exact stringScan_sound start _
  case case16 hc => exact wordScan_sound start hc _
  case case17 _ hc => exact numberScan_sound start hc _
  case case18 => intro kind hkind; cases hkind

/-! ## The front of a lexeme -/

namespace Spells

variable {cs : List Char} {kind : Token.Kind} {barred : Char → Prop}

/-- A lexeme starts with a character that is no blank. -/
theorem exists_cons (h : Spells cs kind barred) : ∃ c ds, cs = c :: ds ∧ isBlank c = false := by
  cases h with
  | operator op => cases op <;> exact ⟨_, _, rfl, by decide⟩
  | leftParen | rightParen | string => exact ⟨_, _, rfl, by decide⟩
  | @comparator op hop => cases op <;> exact ⟨_, _, rfl, by decide⟩
  | number hne hdigits =>
    obtain ⟨c, ds, rfl⟩ := List.exists_cons_of_ne_nil hne
    refine ⟨c, ds, rfl, Bool.not_eq_true _ ▸ fun hblank ↦ ?_⟩
    have hdigit := hdigits c List.mem_cons_self
    rw [isDigit_of_isBlank hblank] at hdigit
    cases hdigit
  | word hword =>
    obtain ⟨hc, -⟩ := hword
    refine ⟨_, _, rfl, Bool.not_eq_true _ ▸ fun hblank ↦ ?_⟩
    rw [isWordStart_of_isBlank hblank] at hc
    cases hc

/-- No lexeme means the end. -/
theorem ne_finish (h : Spells cs kind barred) : kind ≠ .finish := by
  cases h with
  | word =>
    rw [wordKind]
    split_ifs <;> nofun
  | operator | leftParen | rightParen | comparator | number | string => nofun

/-- What starts with a quote is a string. -/
theorem exists_string (h : Spells cs kind barred) (hquote : cs.head? = some '"') :
    ∃ text, kind = .string text := by
  cases h with
  | string text => exact ⟨_, rfl⟩
  | operator op => cases op <;> cases hquote
  | leftParen | rightParen => cases hquote
  | @comparator op hop => cases op <;> cases hquote
  | number _ hdigits =>
    exact absurd (hdigits '"' (List.mem_of_head? hquote)) (by decide)
  | word hword =>
    obtain ⟨hc, -⟩ := hword
    cases hquote
    exact absurd hc (by decide)

/-! ## What may stand behind a lexeme -/

/-- A blank may stand behind every lexeme. -/
theorem not_barred_of_isBlank (h : Spells cs kind barred) {c : Char} (hc : isBlank c = true) :
    ¬ barred c := by
  cases h with
  | operator | leftParen | rightParen => exact id
  | comparator => rintro ⟨-, rfl⟩; exact absurd hc (by decide)
  | number => simp [isDigit_of_isBlank hc]
  | string => rintro rfl; exact absurd hc (by decide)
  | word =>
    rintro (hpart | rfl)
    · rw [isWordPart_of_isBlank hc] at hpart
      cases hpart
    · exact absurd hc (by decide)

/-- A quote may stand behind every lexeme but a string. -/
theorem not_barred_quote (h : Spells cs kind barred) (hkind : ∀ text, kind ≠ .string text) :
    ¬ barred '"' := by
  cases h with
  | string text => exact absurd rfl (hkind _)
  | operator | leftParen | rightParen => exact id
  | comparator => exact fun hbarred ↦ absurd hbarred.2 (by decide)
  | number => decide
  | word => decide

end Spells

end Lexeme
end RecordQuery
