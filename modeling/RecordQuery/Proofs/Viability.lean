import RecordQuery.Proofs.Offsets
import RecordQuery.Proofs.Recognition
import Mathlib.Logic.Basic

/-!
# Where a text stops being a sentence

A sequence of tokens is *viable* when more tokens can make a sentence of it.  The parser takes a
token in exactly as long as what it has taken in stays viable, so it stops at the first token that
no sentence goes on with, and it has not looked behind that token.

Both directions go through runs of moves.  Every state can be brought to the end of a sentence
(`exists_moves_to_end`), so what has been taken in is viable; and every sentence is read by moves,
so a token that is refused begins no sentence.

* `IsSentence`, `Viable`: sentences and what begins one.
* `viable_iff`, `isSentence_iff`: the two in terms of moves.
* `StopsAtToken`, `StopsAtLexeme`: the two ways in which a text ends too early.
* `parse_stops`: every error is of one of the two kinds.
-/

set_option autoImplicit false

namespace RecordQuery
namespace Grammar

variable {g : Grammar}

/-! ## Sentences and their beginnings -/

/-- The tokens are those of a tree of the grammar. -/
def IsSentence (g : Grammar) (tokens : List Token) : Prop :=
  ∃ e, g.Admits e ∧ tokens.map Token.symbol = e.symbols

/-- Some tokens behind these make a sentence. -/
def Viable (g : Grammar) (tokens : List Token) : Prop := ∃ more, g.IsSentence (tokens ++ more)

/-! ## Runs of moves -/

theorem Moves.unique {s s₁ s₂ : State} {tokens : List Token} (h₁ : Moves g s tokens s₁)
    (h₂ : Moves g s tokens s₂) : s₂ = s₁ := by
  induction h₁ with
  | nil => cases h₂; rfl
  | cons hmove₁ _ ih =>
    cases h₂ with
    | cons hmove₂ h₂ =>
      have hstep := (step_of_move hmove₂).symm.trans (step_of_move hmove₁)
      cases hstep
      exact ih h₂

theorem Moves.of_append {s s' : State} {tokens more : List Token}
    (h : Moves g s (tokens ++ more) s') :
    ∃ s'', Moves g s tokens s'' ∧ Moves g s'' more s' := by
  induction tokens generalizing s with
  | nil => exact ⟨s, .nil, h⟩
  | cons t tokens ih =>
    cases h with
    | cons hmove h =>
      obtain ⟨s'', hmoves, hmore⟩ := ih h
      exact ⟨s'', .cons hmove hmoves, hmore⟩

/-- The tokens of a sentence are read to its end. -/
theorem isSentence_iff {tokens : List Token} :
    g.IsSentence tokens ↔ ∃ operand l, Moves g .initial tokens ⟨.operator operand, l, []⟩ := by
  constructor
  · rintro ⟨e, hadmits, htokens⟩
    obtain ⟨operand, l, hmoves, -⟩ :=
      readable_of_admits hadmits .empty [] tokens (Level.hasRoom_empty e) htokens
    exact ⟨operand, l, hmoves⟩
  · rintro ⟨operand, l, hmoves⟩
    exact ⟨_, admits_of_moves hmoves⟩

/-! ## Every state can be brought to an end -/

/-- A token of the given kind. -/
def anyToken (kind : Token.Kind) : Token := ⟨kind, "", 0⟩

/-- Behind an operand, closing the open parentheses ends the sentence. -/
theorem exists_moves_of_operand (operand : Expr) (l : Level) (enclosing : List (Nat × Level)) :
    ∃ tokens operand' l', Moves g ⟨.operator operand, l, enclosing⟩ tokens
      ⟨.operator operand', l', []⟩ := by
  induction enclosing generalizing operand l with
  | nil => exact ⟨[], operand, l, .nil⟩
  | cons outer enclosing ih =>
    obtain ⟨tokens, operand', l', hmoves⟩ := ih (.grouping (l.close operand)) outer.2
    have hclosing : Move g ⟨.operator operand, l, outer :: enclosing⟩ (anyToken .rightParen)
        ⟨.operator (.grouping (l.close operand)), outer.2, enclosing⟩ := .closing rfl
    exact ⟨_, operand', l', .cons hclosing hmoves⟩

/-- Behind a comparator, a string ends the comparison. -/
theorem exists_moves_of_literal (path : FieldPath) (op : Comparator) (l : Level)
    (enclosing : List (Nat × Level)) :
    ∃ tokens operand' l', Moves g ⟨.literal path op, l, enclosing⟩ tokens
      ⟨.operator operand', l', []⟩ := by
  obtain ⟨tokens, operand', l', hmoves⟩ :=
    exists_moves_of_operand (g := g) (.comparison path op (.string "")) l enclosing
  have hliteral : Move g ⟨.literal path op, l, enclosing⟩ (anyToken (.string ""))
      ⟨.operator (.comparison path op (.string "")), l, enclosing⟩ := .literal rfl fun _ ↦ ⟨"", rfl⟩
  exact ⟨_, operand', l', .cons hliteral hmoves⟩

theorem exists_moves_of_comparator (path : FieldPath) (l : Level)
    (enclosing : List (Nat × Level)) :
    ∃ tokens operand' l', Moves g ⟨.comparator path, l, enclosing⟩ tokens
      ⟨.operator operand', l', []⟩ := by
  obtain ⟨tokens, operand', l', hmoves⟩ :=
    exists_moves_of_literal (g := g) path .equal l enclosing
  exact ⟨anyToken (.comparator .equal) :: tokens, operand', l', .cons (.comparator rfl) hmoves⟩

/-- Whatever has been read, some tokens end the sentence. -/
theorem exists_moves_to_end (s : State) :
    ∃ tokens operand l, Moves g s tokens ⟨.operator operand, l, []⟩ := by
  obtain ⟨awaiting, l, enclosing⟩ := s
  cases awaiting with
  | operator operand => exact exists_moves_of_operand operand l enclosing
  | literal path op => exact exists_moves_of_literal path op l enclosing
  | comparator path => exact exists_moves_of_comparator path l enclosing
  | operand =>
    cases g with
    | arithmetic =>
      obtain ⟨tokens, operand', l', hmoves⟩ :=
        exists_moves_of_operand (g := arithmetic) (.number 0) l enclosing
      exact ⟨anyToken (.number 0) :: tokens, operand', l', .cons (.number rfl rfl) hmoves⟩
    | query =>
      obtain ⟨path, hpath⟩ : ∃ path, FieldPath.ofName? "a" = some path := ⟨_, rfl⟩
      obtain ⟨tokens, operand', l', hmoves⟩ :=
        exists_moves_of_comparator (g := query) path l enclosing
      exact ⟨anyToken (.identifier "a") :: tokens, operand', l',
        .cons (.field rfl rfl hpath) hmoves⟩

/-- What is viable is what the parser takes in. -/
theorem viable_iff {tokens : List Token} : g.Viable tokens ↔ ∃ s, Moves g .initial tokens s := by
  constructor
  · rintro ⟨more, hsentence⟩
    obtain ⟨operand, l, hmoves⟩ := isSentence_iff.mp hsentence
    obtain ⟨s, hmoves, -⟩ := hmoves.of_append
    exact ⟨s, hmoves⟩
  · rintro ⟨s, hmoves⟩
    obtain ⟨more, operand, l, hmore⟩ := exists_moves_to_end (g := g) s
    exact ⟨more, isSentence_iff.mpr ⟨operand, l, hmoves.append hmore⟩⟩

/-! ## Refused tokens -/

/-- A refusal stands where the refused token does. -/
theorem position_of_reject {s : State} {t : Token} {err : SyntaxError}
    (h : g.step s t = .reject err) : err.position = t.offset := by
  obtain ⟨awaiting, l, enclosing⟩ := s
  cases awaiting with
  | operand =>
    simp only [step, stepOperand] at h
    split at h
    · cases h
    · cases h
    · split at h <;> cases h
      rfl
    · cases h; rfl
    · cases h; rfl
  | comparator path =>
    simp only [step, stepComparator] at h
    split at h <;> cases h
    rfl
  | literal path op =>
    simp only [step, stepLiteral] at h
    split at h
    · cases h
    · split at h <;> cases h
      rfl
    · cases h; rfl
  | operator operand =>
    simp only [step] at h
    split at h
    · cases h
    · cases enclosing <;> rw [stepClosing] at h <;> simp only at h <;> split at h <;> cases h <;>
        rfl

/-- A stream that no tree is read from ends in a lexical error or holds a token that is refused. -/
theorem cases_of_read_error {s : State} {items : List (Except SyntaxError Token)}
    {err : SyntaxError} (h : g.read s items = some (.error err)) :
    ∃ before s', Moves g s before s' ∧
      ((∃ rest, items = before.map .ok ++ .error err :: rest) ∨
        ∃ t rest, items = before.map .ok ++ .ok t :: rest ∧ g.step s' t = .reject err) := by
  induction items generalizing s with
  | nil => cases h
  | cons item items ih =>
    cases item with
    | error e => cases h; exact ⟨[], s, .nil, .inl ⟨items, rfl⟩⟩
    | ok t =>
      rw [read] at h
      split at h
      · cases h
      · rename_i hstep
        cases h
        exact ⟨[], s, .nil, .inr ⟨t, items, rfl, hstep⟩⟩
      · rename_i next hstep
        obtain ⟨before, s', hmoves, hcases⟩ := ih h
        refine ⟨t :: before, s', .cons (move_of_step hstep) hmoves, ?_⟩
        rcases hcases with ⟨rest, rfl⟩ | ⟨t', rest, rfl, hreject⟩
        · exact .inl ⟨rest, rfl⟩
        · exact .inr ⟨t', rest, rfl, hreject⟩

/-- A token that is refused begins no sentence. -/
theorem not_viable_of_reject {before : List Token} {s : State} {t : Token} {err : SyntaxError}
    (hmoves : Moves g .initial before s) (h : g.step s t = .reject err) :
    ¬ g.Viable (before ++ [t]) := by
  intro hviable
  obtain ⟨s', hmoves'⟩ := viable_iff.mp hviable
  obtain ⟨s'', hbefore, htoken⟩ := hmoves'.of_append
  cases hbefore.unique hmoves
  cases htoken with
  | cons hmove _ => rw [step_of_move hmove] at h; cases h

/-- When the end is refused, the sentence is not complete. -/
theorem not_isSentence_of_reject {before : List Token} {s : State} {t : Token} {err : SyntaxError}
    (hmoves : Moves g .initial before s) (h : g.step s t = .reject err) (ht : t.isEnd = true) :
    ¬ g.IsSentence before := by
  intro hsentence
  obtain ⟨operand, l, hmoves'⟩ := isSentence_iff.mp hsentence
  cases hmoves'.unique hmoves
  rw [step_eq_accept_iff.mpr ⟨ht, operand, l, rfl, rfl⟩] at h
  cases h

/-! ## The two ways to stop -/

/-- The lexer has no token behind these, for the error `err`, and they are viable. -/
def StopsAtLexeme (g : Grammar) (text : String) (err : SyntaxError) : Prop :=
  ∃ before, (Lexer.ofText text).tokens = before.map .ok ++ [.error err] ∧ g.Viable before

/-- The error `err` stands at a token that no sentence goes on with, or at the end of a text that is
no sentence, and the tokens before are viable.  What follows may be anything. -/
def StopsAtToken (g : Grammar) (text : String) (err : SyntaxError) : Prop :=
  ∃ before t rest, (Lexer.ofText text).tokens = before.map .ok ++ .ok t :: rest ∧
    err.position = t.offset ∧ g.Viable before ∧
      if t.isEnd then ¬ g.IsSentence before else ¬ g.Viable (before ++ [t])

theorem Viable.of_append {tokens more : List Token} (h : g.Viable (tokens ++ more)) :
    g.Viable tokens := by
  obtain ⟨others, hsentence⟩ := h
  exact ⟨more ++ others, by rwa [← List.append_assoc]⟩

/-- The tokens up to `t` are the first ones of a stream that has `item` at its end, or they are all
of it. -/
theorem append_or_last {tokens before : List Token} {t : Token}
    {item : Except SyntaxError Token} {rest : List (Except SyntaxError Token)}
    (h : tokens.map .ok ++ [item] = before.map .ok ++ .ok t :: rest) :
    (∃ more, tokens = before ++ [t] ++ more) ∨ item = .ok t ∧ tokens = before := by
  induction before generalizing tokens with
  | nil =>
    cases tokens with
    | nil => exact .inr ⟨(List.cons.inj h).1, rfl⟩
    | cons t' tokens => cases (List.cons.inj h).1; exact .inl ⟨tokens, rfl⟩
  | cons b before ih =>
    cases tokens with
    | nil => exact absurd (List.cons.inj h).2 (by simp)
    | cons t' tokens =>
      obtain ⟨hhead, htail⟩ := List.cons.inj h
      cases hhead
      rcases ih htail with ⟨more, rfl⟩ | ⟨hitem, rfl⟩
      · exact .inl ⟨more, rfl⟩
      · exact .inr ⟨hitem, rfl⟩

/-- A token that no sentence goes on with is not among viable tokens. -/
theorem eq_of_stopsAtToken {text : String} {err : SyntaxError} (h : g.StopsAtToken text err)
    {tokens : List Token} {item : Except SyntaxError Token} (hviable : g.Viable tokens)
    (hitems : (Lexer.ofText text).tokens = tokens.map .ok ++ [item]) :
    ∃ t, item = .ok t ∧ err.position = t.offset := by
  obtain ⟨before, t, rest, hstream, hposition, -, hstop⟩ := h
  cases hend : t.isEnd with
  | true =>
    rw [Lexer.eq_nil_of_isEnd hstream hend, hitems] at hstream
    obtain ⟨-, hlast⟩ := List.append_inj' hstream rfl
    exact ⟨t, (List.cons.inj hlast).1, hposition⟩
  | false =>
    rw [hend] at hstop
    rcases append_or_last (hitems.symm.trans hstream) with ⟨more, rfl⟩ | ⟨hitem, -⟩
    · exact absurd hviable.of_append hstop
    · exact ⟨t, hitem, hposition⟩

/-- A text that is refused stops in one of the two ways. -/
theorem stops_of_parse_error {text : String} {err : SyntaxError}
    (h : (g.parse text).result = .error err) :
    g.StopsAtLexeme text err ∨ g.StopsAtToken text err := by
  have hread := g.read_initial_tokens text
  rw [h] at hread
  obtain ⟨before, s, hmoves, ⟨rest, hitems⟩ | ⟨t, rest, hitems, hreject⟩⟩ :=
    cases_of_read_error hread
  · rw [Lexer.eq_nil_of_error hitems] at hitems
    exact .inl ⟨before, hitems, viable_iff.mpr ⟨s, hmoves⟩⟩
  · refine .inr ⟨before, t, rest, hitems, position_of_reject hreject,
      viable_iff.mpr ⟨s, hmoves⟩, ?_⟩
    split
    · rename_i hend; exact not_isSentence_of_reject hmoves hreject hend
    · exact not_viable_of_reject hmoves hreject

/-- A text stops in one way only. -/
theorem not_stopsAtLexeme {text : String} {err err' : SyntaxError} (h : g.StopsAtToken text err) :
    ¬ g.StopsAtLexeme text err' := by
  rintro ⟨before, hitems, hviable⟩
  obtain ⟨t, ht, -⟩ := eq_of_stopsAtToken h hviable hitems
  cases ht

/-! ## Where a text stops -/

/-- A lexical error stands before the end of the text, which has an error in its stream then. -/
theorem position_of_stopsAtLexeme {text : String} {err : SyntaxError}
    (h : g.StopsAtLexeme text err) :
    err.position < text.length ∧ ∀ tokens, ¬ (Lexer.ofText text).Yields tokens := by
  obtain ⟨before, hitems, -⟩ := h
  constructor
  · rw [← Lexer.extent_ofText]
    exact Lexer.position_of_mem_tokens (by rw [hitems]; exact List.mem_concat_self)
  · rintro tokens ⟨last, -, hyields⟩
    obtain ⟨-, hlast⟩ := List.append_inj' (hitems.symm.trans hyields) rfl
    cases hlast

/-- A token is refused at the end of the text exactly when the text breaks off. -/
theorem position_of_stopsAtToken {text : String} {err : SyntaxError} (h : g.StopsAtToken text err) :
    err.position ≤ text.length ∧ (err.position = text.length ↔
      ∃ tokens, (Lexer.ofText text).Yields tokens ∧ g.Viable tokens) := by
  have hplace : ∀ t, .ok t ∈ (Lexer.ofText text).tokens →
      t.offset ≤ text.length ∧ (t.offset = text.length ↔ t.isEnd = true) := fun t ht ↦ by
    rw [← Lexer.extent_ofText]
    exact Lexer.offset_of_mem_tokens ht
  obtain ⟨before, t, rest, hitems, hposition, hviable, -⟩ := id h
  obtain ⟨hle, hend⟩ := hplace t (by rw [hitems]; simp)
  rw [hposition]
  refine ⟨hle, fun hoffset ↦ ?_, ?_⟩
  · have ht := hend.mp hoffset
    rw [Lexer.eq_nil_of_isEnd hitems ht] at hitems
    exact ⟨before, ⟨t, ht, hitems⟩, hviable⟩
  · rintro ⟨tokens, ⟨last, hlast, hyields⟩, htokens⟩
    obtain ⟨t', ht', hposition'⟩ := eq_of_stopsAtToken h htokens hyields
    cases ht'
    rw [← hposition, hposition']
    exact (hplace last (by rw [hyields]; simp)).2.mpr hlast

/-- **Errors stand at the first obstacle**: a text that is refused is refused for its first lexical
error, behind tokens that a sentence may begin with, or for the first token that no sentence goes on
with.  It is refused at its end only when it breaks off. -/
theorem parse_stops {text : String} {err : SyntaxError}
    (h : (g.parse text).result = .error err) :
    Xor (g.StopsAtLexeme text err) (g.StopsAtToken text err) ∧ err.position ≤ text.length ∧
      (err.position = text.length ↔
        ∃ tokens, (Lexer.ofText text).Yields tokens ∧ g.Viable tokens) := by
  rcases stops_of_parse_error h with hstop | hstop
  · obtain ⟨hlt, hyields⟩ := position_of_stopsAtLexeme hstop
    exact ⟨.inl ⟨hstop, fun hstop' ↦ not_stopsAtLexeme hstop' hstop⟩, hlt.le,
      iff_of_false hlt.ne fun ⟨tokens, h, _⟩ ↦ hyields tokens h⟩
  · exact ⟨.inr ⟨hstop, not_stopsAtLexeme hstop⟩, position_of_stopsAtToken hstop⟩

/-- The second field of `a = 1 b #` is refused, and the character behind it is never looked at. -/
theorem parse_stops_at_second_field :
    (query.parse "a = 1 b #").result = .error ⟨.trailing ⟨.identifier "b", "b", 6⟩, 6⟩ ∧
      Xor (query.StopsAtLexeme "a = 1 b #" ⟨.trailing ⟨.identifier "b", "b", 6⟩, 6⟩)
        (query.StopsAtToken "a = 1 b #" ⟨.trailing ⟨.identifier "b", "b", 6⟩, 6⟩) := by
  have h : (query.parse "a = 1 b #").result =
      .error ⟨.trailing ⟨.identifier "b", "b", 6⟩, 6⟩ := by decide +kernel
  exact ⟨h, (parse_stops h).1⟩

end Grammar
end RecordQuery
