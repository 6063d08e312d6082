import RecordQuery.Proofs.Segmentation

/-!
# Where tokens and errors stand

Reading never leaves the text.  A token stands where there is something to read and the end token
stands behind everything.  An error is never put at the end: the character at fault is one of those
that were there to read.

* `Lexeme.position_of_error`: a lexical error stands inside the text that is left.
* `Lexer.extent_afterNext`: reading leaves the extent as it is.
* `Lexer.offset_of_mem_tokens`, `Lexer.position_of_mem_tokens`: the items of a stream.
-/

set_option autoImplicit false

namespace RecordQuery

/-! ## Errors inside a lexeme -/

namespace Lexeme

/-- A backslash that is refused, or a quote behind a string, has been read up to and not past. -/
theorem length_taken_lt {cs : List Char} (hmissing : (scanString cs).ending ≠ .missing)
    (hclosed : (scanString cs).ending ≠ .closed) : (scanString cs).taken.length < cs.length := by
  fun_induction scanString cs with
  | case1 => exact absurd rfl hmissing
  | case2 cs => cases cs <;> simp_all
  | case3 => exact absurd rfl hmissing
  | case4 d ds _ ih => simp_all [StringBody.push]
  | case5 d ds _ _ => simp
  | case6 c cs _ _ ih => simp_all [StringBody.push]

/-- The error of a string that is not read to its closing quote. -/
theorem position_of_stringScan {start : Nat} {cs : List Char} {e : SyntaxError}
    (h : (stringScan start (scanString cs)).outcome = .error e) :
    start ≤ e.position ∧ e.position ≤ start + cs.length := by
  rw [stringScan] at h
  have hlength : (scanString cs).ending ≠ .missing → (scanString cs).ending ≠ .closed →
      (scanString cs).taken.length < cs.length := length_taken_lt
  revert hlength
  cases hending : (scanString cs).ending <;> simp only [hending] at h <;> cases h <;>
    intro hlength <;> simp at hlength ⊢ <;> omega

/-- The error of a word stands at the dot behind it. -/
theorem position_of_wordScan {start : Nat} {cs : List Char} {e : SyntaxError}
    (h : (wordScan start cs).outcome = .error e) :
    start ≤ e.position ∧ e.position < start + cs.length := by
  rw [wordScan] at h
  simp only at h
  split at h
  · rename_i hdot
    cases h
    have hlength := congrArg List.length (spanWord_append cs)
    have hrest : (spanWord cs).2 ≠ [] := by
      intro hnil
      rw [hnil] at hdot
      cases hdot
    have hpos := List.length_pos_iff.mpr hrest
    rw [List.length_append] at hlength
    simp only
    omega
  · cases h

/-- The error of a number stands at its first digit. -/
theorem position_of_numberScan {start : Nat} {cs : List Char} {e : SyntaxError}
    (h : (numberScan start cs).outcome = .error e) : e.position = start := by
  rw [numberScan] at h
  generalize Integer.ofInt? (Nat.ofDigitChars 10 (cs.takeWhile Char.isDigit) 0) = value at h
  cases value with
  | some value => cases h
  | none => cases h; rfl

/-- A lexical error stands inside the text that is left. -/
theorem position_of_error {start : Nat} {cs : List Char} {e : SyntaxError}
    (h : (scan start cs).outcome = .error e) :
    start ≤ e.position ∧ e.position < start + cs.length := by
  revert h
  fun_cases scan start cs <;> intro h
  case case14 => cases h; simp
  case case15 cs =>
    have hposition := position_of_stringScan h
    rw [List.length_cons]
    omega
  case case16 => exact position_of_wordScan h
  case case17 =>
    have hposition := position_of_numberScan h
    simp [hposition]
  case case18 => cases h; simp
  all_goals cases h

end Lexeme

/-! ## The items of a stream -/

namespace Lexer

/-- Between the next lexeme and the end of the text there is what is left behind the blanks. -/
theorem start_add_length (l : Lexer) :
    l.start + (l.rest.dropWhile Text.isBlank).length = l.extent := by
  have h := congrArg List.length (List.takeWhile_append_dropWhile (p := Text.isBlank) (l := l.rest))
  rw [List.length_append] at h
  rw [start, blanks, extent]
  omega

/-- Reading leaves the extent as it is. -/
theorem extent_afterNext (l : Lexer) : l.afterNext.extent = l.extent := by
  have h := congrArg List.length l.read_rest
  simp only [List.length_append] at h
  rw [extent, extent, ← h]
  simp only [afterNext, start]
  omega

/-- The end token stands at the end of the text, every other token before it. -/
theorem offset_of_read {l l' : Lexer} {t : Token} (h : l.read = (.ok t, l')) :
    t.offset ≤ l.extent ∧ (t.offset = l.extent ↔ t.isEnd = true) := by
  rcases cases_of_read h with ⟨rfl, -⟩ | ⟨s, barred, rfl, -, hspells, -, hl⟩
  · exact ⟨le_rfl, iff_of_true rfl rfl⟩
  · obtain ⟨c, cs, hlexeme, -⟩ := hspells.exists_cons
    have hlt : (s.token l.position).offset < l.extent := by
      rw [extent, hl, Segment.token, Segment.chars, hlexeme]
      simp only [List.length_append, List.length_cons]
      omega
    rw [Segment.isEnd_token hspells]
    exact ⟨hlt.le, iff_of_false hlt.ne Bool.false_ne_true⟩

/-- A lexical error stands in what is left to read. -/
theorem position_of_read {l l' : Lexer} {e : SyntaxError} (h : l.read = (.error e, l')) :
    l.position ≤ e.position ∧ e.position < l.extent := by
  cases hk : l.scan.outcome with
  | ok kind => rw [read, hk] at h; cases h
  | error e' =>
    rw [read, hk] at h
    cases h
    obtain ⟨hlow, hhigh⟩ := Lexeme.position_of_error hk
    rw [← l.start_add_length]
    exact ⟨(Nat.le_add_right _ _).trans hlow, hhigh⟩

/-- The tokens of a text stand inside it, the end token at its end and no other there. -/
theorem offset_of_mem_tokens {l : Lexer} {t : Token} (h : .ok t ∈ l.tokens) :
    t.offset ≤ l.extent ∧ (t.offset = l.extent ↔ t.isEnd = true) := by
  fun_induction tokens l with
  | case1 l e l' hread => cases List.mem_singleton.mp h
  | case2 l t' l' hread hend => cases List.mem_singleton.mp h; exact offset_of_read hread
  | case3 l t' l' hread hend hlt ih =>
    rcases List.mem_cons.mp h with h | h
    · cases h; exact offset_of_read hread
    · have hextent : l'.extent = l.extent := by
        rw [← l.extent_afterNext]; exact congrArg (fun r ↦ r.2.extent) hread.symm
      rw [← hextent]
      exact ih h

/-- The lexical error of a text stands inside it. -/
theorem position_of_mem_tokens {l : Lexer} {e : SyntaxError} (h : .error e ∈ l.tokens) :
    e.position < l.extent := by
  fun_induction tokens l with
  | case1 l e' l' hread => cases List.mem_singleton.mp h; exact (position_of_read hread).2
  | case2 l t' l' hread hend => cases List.mem_singleton.mp h
  | case3 l t' l' hread hend hlt ih =>
    rcases List.mem_cons.mp h with h | h
    · cases h
    · have hextent : l'.extent = l.extent := by
        rw [← l.extent_afterNext]; exact congrArg (fun r ↦ r.2.extent) hread.symm
      rw [← hextent]
      exact ih h

end Lexer
end RecordQuery
