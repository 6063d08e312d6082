import RecordQuery.Proofs.Offsets

/-!
# A lexer that is asked on and on

A lexer may be asked for the items of its stream and for single tokens, in any order, and it may be
asked again after an error, with half a string or half a number behind it.  Wherever it has stopped,
it is at a place of its text (`Lexer.IsAt`), and a call takes it from there to a later place.

What this means for a host is said call by call.  `Lexer.turns` is a run with all that can be seen
of it: the lexer before and after each call, and the answer.

* `Lexer.Turn.Within`: a single call.  Tokens and errors stand where the lexer has been reading.
* `Lexer.Turn.Precedes`: one call and a later one.  Tokens do not overlap, and whatever has ended
  stays at its end.
* `Lexer.call_cases`: a call reads, unless the stream has ended.
* `Lexer.turns_of_finished`, `Lexer.turns_of_rest_nil`: a stream and a text at their ends.
* `Lexer.turns_within`: every run.
-/

set_option autoImplicit false

namespace RecordQuery
namespace Lexer

/-! ## Calls -/

/-- What a lexer may be asked for. -/
inductive Call where
  /-- the next item of the stream -/
  | pull
  /-- the next token, whether the stream has ended or not -/
  | read
deriving DecidableEq, Repr

/-- The answer to a call, if there is one, and the lexer behind it. -/
def call (l : Lexer) : Call → Option (Except SyntaxError Token) × Lexer
  | .pull => l.pull
  | .read => (some l.read.1, l.read.2)

/-- One call of a run. -/
structure Turn where
  before : Lexer
  call : Call
  answer : Option (Except SyntaxError Token)
  after : Lexer

/-- The run that a sequence of calls makes. -/
def turns (l : Lexer) : List Call → List Turn
  | [] => []
  | c :: calls => ⟨l, c, (l.call c).1, (l.call c).2⟩ :: (l.call c).2.turns calls

/-- The lexer has read the characters of `text` before its position, and the others are left. -/
structure IsAt (l : Lexer) (text : String) : Prop where
  extent : l.extent = text.length
  rest : l.rest = text.toList.drop l.position

/-- What a call does at a place of `text`. -/
structure Turn.Within (t : Turn) (text : String) : Prop where
  /-- The lexer moves forward, and not past the end. -/
  position : t.before.position ≤ t.after.position ∧ t.after.position ≤ text.length
  /-- A token is what the text has between the two places, short of blanks in front. -/
  token : ∀ token, t.answer = some (.ok token) → token.isEnd = false →
    token.lexeme ≠ "" ∧ t.before.position ≤ token.offset ∧
      token.offset + token.lexeme.length = t.after.position ∧
      token.lexeme.toList = (text.toList.drop token.offset).take token.lexeme.length
  /-- The end token stands at the end, and so does the lexer then. -/
  isEnd : ∀ token, t.answer = some (.ok token) → token.isEnd = true →
    token = .atEnd text.length ∧ t.after.position = text.length
  /-- An error stands at a character that was left to read. -/
  error : ∀ e, t.answer = some (.error e) →
    t.before.position ≤ e.position ∧ e.position < text.length

/-- What a call means for a later one. -/
structure Turn.Precedes (t later : Turn) : Prop where
  position : t.after.position ≤ later.before.position
  /-- Tokens do not overlap. -/
  disjoint : ∀ token token', t.answer = some (.ok token) → later.answer = some (.ok token') →
    token.offset + token.lexeme.length ≤ token'.offset
  /-- Behind the end token there are only more of it. -/
  isEnd : ∀ token, t.answer = some (.ok token) → token.isEnd = true → later.call = .read →
    later.answer = some (.ok token)
  /-- A stream that has yielded the end or an error yields nothing more. -/
  finished : t.call = .pull → (∀ token, t.answer = some (.ok token) → token.isEnd = true) →
    later.call = .pull → later.answer = none

/-! ## Places of a text -/

namespace IsAt

variable {l : Lexer} {text : String}

theorem ofText (text : String) : (ofText text).IsAt text :=
  ⟨extent_ofText text, rfl⟩

theorem position_le (h : l.IsAt text) : l.position ≤ text.length := by
  rw [← h.extent]
  exact Nat.le_add_right _ _

/-- At the end of a text nothing is left. -/
theorem rest_eq_nil (h : l.IsAt text) (hend : l.position = text.length) : l.rest = [] := by
  rw [h.rest, hend, ← String.length_toList, List.drop_length]

/-- Reading leads from a place of the text to another one, whatever is read. -/
theorem afterNext (h : l.IsAt text) : l.afterNext.IsAt text := by
  refine ⟨l.extent_afterNext.trans h.extent, ?_⟩
  have hposition : l.afterNext.position = l.position + (l.blanks ++ l.scan.taken).length := by
    rw [List.length_append, ← Nat.add_assoc]
    rfl
  rw [hposition, ← List.drop_drop, ← h.rest, ← l.read_rest, List.drop_left]

/-- A token is what stands behind the blanks, up to where the lexer is then. -/
theorem token_of_read {l' : Lexer} {t : Token} (h : l.IsAt text) (hread : l.read = (.ok t, l'))
    (ht : t.isEnd = false) :
    t.lexeme ≠ "" ∧ l.position ≤ t.offset ∧ t.offset + t.lexeme.length = l'.position ∧
      t.lexeme.toList = (text.toList.drop t.offset).take t.lexeme.length := by
  have hextent : l'.extent = l.extent := by
    rw [← l.extent_afterNext]
    exact congrArg (·.2.extent) hread.symm
  rcases cases_of_read hread with ⟨rfl, -⟩ | ⟨s, barred, rfl, -, hspells, -, hl⟩
  · cases ht
  have hlength : (s.token l.position).lexeme.length = s.lexeme.length := String.length_ofList
  obtain ⟨c, cs, hlexeme, -⟩ := hspells.exists_cons
  refine ⟨fun hnil ↦ ?_, Nat.le_add_right _ _, ?_, ?_⟩
  · rw [hnil, hlexeme] at hlength
    cases hlength
  · rw [Lexer.extent, Lexer.extent, hl, Segment.chars, List.length_append, List.length_append]
      at hextent
    rw [hlength, Segment.token]
    simp only
    omega
  · have hdrop : text.toList.drop (s.token l.position).offset = s.lexeme ++ l'.rest := by
      rw [Segment.token, ← List.drop_drop, ← h.rest, hl, Segment.chars, List.append_assoc,
        List.drop_left]
    rw [hdrop, hlength, List.take_left, Segment.token, String.toList_ofList]

/-- The end token is found at the end, and nothing is left then. -/
theorem isEnd_of_read {l' : Lexer} {t : Token} (h : l.IsAt text) (hread : l.read = (.ok t, l'))
    (ht : t.isEnd = true) : t = .atEnd text.length ∧ l'.position = text.length := by
  rcases cases_of_read hread with ⟨rfl, hblanks⟩ | ⟨s, barred, rfl, -, hspells, -⟩
  · refine ⟨by rw [h.extent], ?_⟩
    have hrest : l.afterNext.rest = [] := by
      rw [Lexer.afterNext, scan, (dropWhile_of_blank hblanks).2, Lexeme.scan]
    have hextent : l.afterNext.extent = text.length := h.afterNext.extent
    rw [Lexer.extent, hrest] at hextent
    rw [← hextent]
    exact congrArg (·.2.position) hread.symm
  · rw [Segment.isEnd_token hspells] at ht
    cases ht

end IsAt

theorem position_le_afterNext (l : Lexer) : l.position ≤ l.afterNext.position := by
  rw [afterNext, start, Nat.add_assoc]
  exact Nat.le_add_right _ _

/-! ## One call -/

/-- A call has no answer when the stream has ended.  Otherwise it answers what is read, and it may
end the stream: always when it has ended before, and from then on the end token or an error is
behind it. -/
theorem call_cases (l : Lexer) (c : Call) :
    (l.call c = (none, l) ∧ c = .pull ∧ l.finished = true) ∨
      ∃ finished, l.call c = (some l.read.1, { l.afterNext with finished }) ∧
        (l.finished = true → finished = true ∧ c = .read) ∧
        (c = .pull → finished = false → ∃ t, l.read.1 = .ok t ∧ t.isEnd = false) := by
  cases c with
  | read => exact .inr ⟨l.finished, rfl, fun h ↦ ⟨h, rfl⟩, by rintro ⟨⟩⟩
  | pull =>
    rw [call, pull]
    cases hfinished : l.finished with
    | true => exact .inl ⟨rfl, rfl, rfl⟩
    | false =>
      right
      have hafter : l.read.2 = l.afterNext := rfl
      rcases hread : l.read with ⟨e | t, l'⟩
      · rw [hread] at hafter
        cases hafter
        exact ⟨true, rfl, by rintro ⟨⟩, fun _ hfalse ↦ absurd hfalse (by decide)⟩
      · rw [hread] at hafter
        cases hafter
        exact ⟨t.isEnd, rfl, by rintro ⟨⟩, fun _ ht ↦ ⟨t, rfl, ht⟩⟩

/-- A call leads from a place of a text to another one. -/
theorem IsAt.call {l : Lexer} {text : String} (h : l.IsAt text) (c : Call) :
    (l.call c).2.IsAt text ∧ Turn.Within ⟨l, c, (l.call c).1, (l.call c).2⟩ text := by
  rcases l.call_cases c with ⟨hcall, -⟩ | ⟨finished, hcall, -⟩
  · rw [hcall]
    refine ⟨h, ⟨le_rfl, h.position_le⟩, ?_, ?_, ?_⟩ <;> intro _ hnone <;> cases hnone
  · rw [hcall]
    have hread : ∀ r, some l.read.1 = some r → l.read = (r, l.afterNext) :=
      fun r hr ↦ Prod.ext (Option.some.inj hr) rfl
    refine ⟨⟨h.afterNext.extent, h.afterNext.rest⟩,
      ⟨l.position_le_afterNext, h.afterNext.position_le⟩, fun t ht hend ↦ ?_,
      fun t ht hend ↦ ?_, fun e he ↦ ?_⟩
    · have htoken := h.token_of_read (hread _ ht) hend
      exact htoken
    · have hatEnd := h.isEnd_of_read (hread _ ht) hend
      exact hatEnd
    · rw [← h.extent]
      exact position_of_read (hread _ he)

/-! ## Runs -/

/-- Every call of a run is made at a place of the text, and not before the place of the first. -/
theorem IsAt.turns {l : Lexer} {text : String} (h : l.IsAt text) (calls : List Call) :
    ∀ t ∈ l.turns calls, l.position ≤ t.before.position ∧ t.Within text := by
  induction calls generalizing l with
  | nil => exact fun _ ht ↦ nomatch ht
  | cons c calls ih =>
    obtain ⟨hafter, hwithin⟩ := h.call c
    intro t ht
    rcases List.mem_cons.mp ht with rfl | ht
    · exact ⟨le_rfl, hwithin⟩
    · obtain ⟨hposition, ht⟩ := ih hafter t ht
      exact ⟨hwithin.position.1.trans hposition, ht⟩

/-- A stream that has ended has no more items, whatever is read in between. -/
theorem turns_of_finished {l : Lexer} (h : l.finished = true) (calls : List Call) :
    ∀ t ∈ l.turns calls, t.call = .pull → t.answer = none := by
  induction calls generalizing l with
  | nil => exact fun _ ht ↦ nomatch ht
  | cons c calls ih =>
    have hcall : (l.call c).2.finished = true ∧ (c = .pull → (l.call c).1 = none) := by
      rcases l.call_cases c with ⟨hcall, -⟩ | ⟨finished, hcall, hfinished, -⟩
      · rw [hcall]
        exact ⟨h, fun _ ↦ rfl⟩
      · obtain ⟨rfl, rfl⟩ := hfinished h
        rw [hcall]
        exact ⟨rfl, nofun⟩
    intro t ht hpull
    rcases List.mem_cons.mp ht with rfl | ht
    · exact hcall.2 hpull
    · exact ih hcall.1 t ht hpull

/-- Where nothing is left, only the end can be read. -/
theorem turns_of_rest_nil {l : Lexer} (h : l.rest = []) (calls : List Call) :
    ∀ t ∈ l.turns calls, t.call = .read → t.answer = some (.ok (.atEnd l.extent)) := by
  induction calls generalizing l with
  | nil => exact fun _ ht ↦ nomatch ht
  | cons c calls ih =>
    have hcall : (l.call c).2.rest = [] ∧ (l.call c).2.extent = l.extent := by
      rcases l.call_cases c with ⟨hcall, -⟩ | ⟨finished, hcall, -⟩
      · rw [hcall]
        exact ⟨h, rfl⟩
      · rw [hcall]
        have hrest := l.read_rest
        rw [h] at hrest
        exact ⟨(List.append_eq_nil_iff.mp hrest).2, l.extent_afterNext⟩
    intro t ht hread
    rcases List.mem_cons.mp ht with rfl | ht
    · cases hread
      exact congrArg some (read_blanks (by rw [h]; nofun))
    · rw [← hcall.2]
      exact ih hcall.1 t ht hread

namespace Turn.Within

variable {t : Turn} {text : String} {token : Token}

/-- The end token counts as a token without characters here. -/
theorem ends (h : t.Within text) (ht : t.answer = some (.ok token)) :
    token.offset + token.lexeme.length = t.after.position := by
  cases hend : token.isEnd with
  | true =>
    obtain ⟨rfl, hposition⟩ := h.isEnd token ht hend
    exact hposition.symm
  | false => exact (h.token token ht hend).2.2.1

theorem starts (h : t.Within text) (ht : t.answer = some (.ok token)) :
    t.before.position ≤ token.offset := by
  cases hend : token.isEnd with
  | true =>
    obtain ⟨rfl, -⟩ := h.isEnd token ht hend
    exact h.position.1.trans h.position.2
  | false => exact (h.token token ht hend).2.1

end Turn.Within

/-- The first call of a run comes before the others. -/
theorem IsAt.precedes {l : Lexer} {text : String} (h : l.IsAt text) (c : Call)
    (calls : List Call) : ∀ later ∈ (l.call c).2.turns calls,
      Turn.Precedes ⟨l, c, (l.call c).1, (l.call c).2⟩ later := by
  obtain ⟨hafter, hwithin⟩ := h.call c
  intro later hlater
  obtain ⟨hposition, hlaterWithin⟩ := hafter.turns calls later hlater
  refine ⟨hposition, fun token token' ht ht' ↦ ?_, fun token ht hend hread ↦ ?_,
    fun hpull hlast hlaterPull ↦ ?_⟩
  · rw [hwithin.ends ht]
    exact hposition.trans (hlaterWithin.starts ht')
  · obtain ⟨rfl, hatEnd⟩ := hwithin.isEnd token ht hend
    rw [← hafter.extent]
    exact turns_of_rest_nil (hafter.rest_eq_nil hatEnd) calls later hlater hread
  · refine turns_of_finished ?_ calls later hlater hlaterPull
    rcases l.call_cases c with ⟨hcall, -, hfinished⟩ | ⟨finished, hcall, -, hgoesOn⟩
    · rw [hcall]
      exact hfinished
    · rw [hcall] at hlast ⊢
      cases finished with
      | true => rfl
      | false =>
        obtain ⟨t, ht, hend⟩ := hgoesOn hpull rfl
        rw [hlast t (congrArg some ht)] at hend
        cases hend

/-- **A lexer over all its calls**: however a lexer is asked and whatever it has failed at, every
call leads from a place of the text to a later one, and what it yields is found there.  No token is
found twice, and what has ended stays at its end. -/
theorem turns_within (text : String) (calls : List Call) :
    (∀ t ∈ (ofText text).turns calls, t.Within text) ∧
      ((ofText text).turns calls).Pairwise Turn.Precedes := by
  have hruns : ∀ l : Lexer, l.IsAt text → (l.turns calls).Pairwise Turn.Precedes := by
    induction calls with
    | nil => exact fun _ _ ↦ .nil
    | cons c calls ih =>
      exact fun l h ↦ .cons (h.precedes c calls) (ih _ (h.call c).1)
  exact ⟨fun t ht ↦ ((IsAt.ofText text).turns calls t ht).2, hruns _ (.ofText text)⟩

end Lexer
end RecordQuery
