import RecordQuery.Json.Token
import RecordQuery.Json.Writer
import RecordQuery.Proofs.Json.Numerals

/-!
# The tokens of a written value

A written value is split into the tokens it was meant to have, whatever its strings hold and however
it is laid out, as long as only spaces stand between its parts.

`Splits cs ts rest` says that `cs`, in front of `rest`, is read as the tokens `ts`.  What follows
matters for numbers only.

* `Quoted.decode_encode`: a written string is read back.
* `Json.tokens`: the tokens of a value.
* `splits_write`: a written value is split into them.
* `ofText?_text`: the same of a whole text.
-/

set_option autoImplicit false

namespace RecordQuery
namespace Json

/-! ## Strings -/

namespace Quoted

theorem decode_escape {cs rest : List Char} {d : Char} (h : escape? cs = some (d, rest)) :
    decode ('\\' :: cs) = (decode rest).map fun r ↦ (d :: r.1, r.2) := by
  rw [decode, if_neg (by decide), if_pos rfl]
  split
  · rename_i hnone
    rw [h] at hnone
    cases hnone
  · rename_i hsome
    rw [h] at hsome
    cases hsome
    rfl

theorem decode_plain {c : Char} (hquote : c ≠ '"') (hbackslash : c ≠ '\\')
    (hcontrol : ¬ c.toNat < 0x20) (cs : List Char) :
    decode (c :: cs) = (decode cs).map fun r ↦ (c :: r.1, r.2) := by
  rw [decode, if_neg hquote, if_neg hbackslash, if_neg hcontrol]

theorem hexValue?_hexDigit : ∀ n < 16, hexValue? (hexDigit n) = some n := by decide

/-- A control character is written as one unit. -/
theorem escape?_control {c : Char} (h : c.toNat < 0x20) (cs : List Char) :
    escape? ('u' :: '0' :: '0' :: hexDigit (c.toNat / 16) :: hexDigit (c.toNat % 16) :: cs) =
      some (c, cs) := by
  have hzero : hexValue? '0' = some 0 := by decide
  have hunit : unit? ('0' :: '0' :: hexDigit (c.toNat / 16) :: hexDigit (c.toNat % 16) :: cs) =
      some (c.toNat, cs) := by
    rw [unit?, hzero, hexValue?_hexDigit _ (by omega), hexValue?_hexDigit _ (by omega)]
    simp only [Option.bind_eq_bind, Option.bind_some, Option.pure_def, Option.some.injEq,
      Prod.mk.injEq, and_true]
    omega
  rw [escape?, unicode?, hunit]
  dsimp only
  rw [if_neg (by omega), if_neg (by omega), Char.ofNat_toNat]

/-- A character is read back from however it is written. -/
theorem decode_encodeChar (c : Char) (cs : List Char) :
    decode (encodeChar c ++ cs) = (decode cs).map fun r ↦ (c :: r.1, r.2) := by
  rw [encodeChar]
  split_ifs with h₁ h₂ h₃ h₄ h₅ h₆ h₇ h₈
  any_goals subst c; exact decode_escape rfl
  · exact decode_escape (escape?_control h₈ cs)
  · exact decode_plain h₁ h₂ h₈ cs

theorem decode_encode (cs rest : List Char) :
    decode (cs.flatMap encodeChar ++ '"' :: rest) = some (cs, rest) := by
  induction cs with
  | nil => rw [List.flatMap_nil, List.nil_append, decode, if_pos rfl]
  | cons c cs ih =>
    rw [List.flatMap_cons, List.append_assoc, decode_encodeChar, ih, Option.map_some]

end Quoted

namespace Token

/-! ## One token -/

section

variable {cs rest rest' : List Char} {c : Char} {t : Token}

theorem ofChars?_of_nil (h : cs.dropWhile isSpace = []) : ofChars? cs = some [] := by
  rw [ofChars?]
  split
  · rfl
  · rename_i hcons
    rw [h] at hcons
    cases hcons

theorem ofChars?_of_none (h : cs.dropWhile isSpace = c :: rest) (hscan : scan c rest = none) :
    ofChars? cs = none := by
  rw [ofChars?]
  split
  · rename_i hnil
    rw [h] at hnil
    cases hnil
  · rename_i hcons
    rw [h] at hcons
    cases hcons
    split
    · rfl
    · rename_i hsome
      rw [hscan] at hsome
      cases hsome

theorem ofChars?_of_some (h : cs.dropWhile isSpace = c :: rest)
    (hscan : scan c rest = some (t, rest')) :
    ofChars? cs = (ofChars? rest').map (t :: ·) := by
  rw [ofChars?]
  split
  · rename_i hnil
    rw [h] at hnil
    cases hnil
  · rename_i hcons
    rw [h] at hcons
    cases hcons
    split
    · rename_i hnone
      rw [hscan] at hnone
      cases hnone
    · rename_i hsome
      rw [hscan] at hsome
      cases hsome
      rfl

/-- Spaces at the front are passed over. -/
theorem ofChars?_spaces {blanks : List Char} (h : ∀ c ∈ blanks, isSpace c = true)
    (rest : List Char) : ofChars? (blanks ++ rest) = ofChars? rest := by
  have hdrop : (blanks ++ rest).dropWhile isSpace = rest.dropWhile isSpace :=
    List.dropWhile_append_of_pos h
  cases hrest : rest.dropWhile isSpace with
  | nil => rw [ofChars?_of_nil hrest, ofChars?_of_nil (hdrop.trans hrest)]
  | cons c cs =>
    cases hscan : scan c cs with
    | none => rw [ofChars?_of_none hrest hscan, ofChars?_of_none (hdrop.trans hrest) hscan]
    | some r => rw [ofChars?_of_some hrest hscan, ofChars?_of_some (hdrop.trans hrest) hscan]

end

/-- `cs` in front of `rest` is read as `ts`. -/
def Splits (cs : List Char) (ts : List Token) (rest : List Char) : Prop :=
  ofChars? (cs ++ rest) = (ofChars? rest).map (ts ++ ·)

namespace Splits

variable {cs cs' rest : List Char} {ts ts' : List Token}

theorem nil (rest : List Char) : Splits [] [] rest := by
  rw [Splits]
  cases h : ofChars? rest <;> simp [h]

/-- One text behind another is read as the tokens of both. -/
theorem append (h : Splits cs ts (cs' ++ rest)) (h' : Splits cs' ts' rest) :
    Splits (cs ++ cs') (ts ++ ts') rest := by
  rw [Splits] at h h' ⊢
  rw [List.append_assoc, h, h', Option.map_map]
  refine congrArg (Option.map · _) (funext fun us ↦ ?_)
  exact (List.append_assoc _ _ _).symm

theorem spaces {blanks : List Char} (h : ∀ c ∈ blanks, isSpace c = true) (rest : List Char) :
    Splits blanks [] rest := by
  rw [Splits, ofChars?_spaces h]
  cases ofChars? rest <;> rfl

/-- Spaces behind a text are no tokens either. -/
theorem pad {blanks : List Char} (h : Splits cs ts (blanks ++ rest))
    (hblanks : ∀ c ∈ blanks, isSpace c = true) : Splits (cs ++ blanks) ts rest := by
  have happend := h.append (spaces hblanks rest)
  rwa [List.append_nil] at happend

theorem of_scan {c : Char} {t : Token} (hc : isSpace c = false)
    (h : scan c (cs ++ rest) = some (t, rest)) : Splits (c :: cs) [t] rest := by
  have hdrop : (c :: (cs ++ rest)).dropWhile isSpace = c :: (cs ++ rest) :=
    List.dropWhile_cons_of_neg (by rw [hc]; exact Bool.false_ne_true)
  exact ofChars?_of_some hdrop h

/-- A mark is a token, whatever stands behind it. -/
theorem mark {c : Char} {t : Token} (hc : isSpace c = false)
    (h : ∀ rest, scan c rest = some (t, rest)) (rest : List Char) : Splits [c] [t] rest :=
  of_scan hc (h rest)

theorem string (s : String) (rest : List Char) : Splits (Quoted.encode s) [.string s] rest := by
  refine of_scan (by decide) ?_
  rw [List.append_eq, List.append_assoc, List.singleton_append, scan, Quoted.decode_encode,
    Option.map_some, String.ofList_toList]

end Splits

/-- A number starts with a minus sign or a digit. -/
theorem head_of_scan {c : Char} {cs rest : List Char} {n : Numeral}
    (h : Numeral.scan (c :: cs) = some (n, rest)) : c = '-' ∨ c.isDigit = true := by
  by_contra hc
  rw [not_or, Bool.not_eq_true] at hc
  obtain ⟨hminus, hdigit⟩ := hc
  have hdigits : Numeral.digits? (c :: cs) = none := by
    rw [Numeral.digits?, List.takeWhile_cons_of_neg (by rw [hdigit]; exact Bool.false_ne_true)]
  rw [Numeral.scan, Numeral.unsigned?, Numeral.whole?, hdigits] at h
  · cases h
  · rintro cs' ⟨rfl, -⟩
    exact hminus rfl

theorem scan_numeral {c : Char} {cs rest : List Char} {n : Numeral}
    (h : Numeral.scan (c :: cs) = some (n, rest)) :
    scan c cs = n.toNumber?.map fun m ↦ (.scalar (.number m), rest) := by
  have hc := head_of_scan h
  rw [scan]
  · rw [h]
  all_goals
    rintro rfl
    revert hc
    decide

theorem Splits.number (m : Number) {rest : List Char} (h : Numeral.Ends rest) :
    Splits m.text [.scalar (.number m)] rest := by
  obtain ⟨n, hn, hm⟩ := m.scan_text h
  cases htext : m.text with
  | nil =>
    rw [htext, List.nil_append] at hn
    exact absurd (Numeral.length_of_scan hn) (lt_irrefl _)
  | cons c cs =>
    rw [htext, List.cons_append] at hn
    have hspace : isSpace c = false := by
      refine Bool.eq_false_iff.mpr fun hspace ↦ ?_
      have hc := head_of_scan hn
      simp only [isSpace, Bool.or_eq_true, decide_eq_true_eq] at hspace
      rcases hspace with ((rfl | rfl) | rfl) | rfl <;> revert hc <;> decide
    refine of_scan hspace ?_
    rw [scan_numeral hn, hm, Option.map_some]

/-! ## Values -/

end Token

open Token

mutual

/-- The tokens of a value. -/
def tokens : Json → List Token
  | .null => [.scalar .null]
  | .bool b => [.scalar (.bool b)]
  | .number n => [.scalar (.number n)]
  | .string s => [.string s]
  | .array [] => [.openArray, .closeArray]
  | .array (item :: items) => .openArray :: item.tokens ++ itemTokens items ++ [.closeArray]
  | .object [] => [.openObject, .closeObject]
  | .object ((name, value) :: members) =>
    .openObject :: .string name :: .colon :: value.tokens ++ memberTokens members ++ [.closeObject]

/-- The tokens of the items behind the first one. -/
def itemTokens : List Json → List Token
  | [] => []
  | item :: items => .comma :: item.tokens ++ itemTokens items

/-- The tokens of the members behind the first one. -/
def memberTokens : List (String × Json) → List Token
  | [] => []
  | (name, value) :: members =>
    .comma :: .string name :: .colon :: value.tokens ++ memberTokens members

end

/-- Only spaces stand between the parts of a value. -/
structure Layout.IsBlank (l : Layout) : Prop where
  gap : ∀ depth, ∀ c ∈ l.gap depth, isSpace c = true
  colon : ∃ blanks, l.colon = ':' :: blanks ∧ ∀ c ∈ blanks, isSpace c = true

theorem Layout.isBlank_compact : compact.IsBlank :=
  ⟨fun _ _ h ↦ (nomatch h), [], rfl, fun _ h ↦ (nomatch h)⟩

theorem Layout.isBlank_pretty : pretty.IsBlank := by
  refine ⟨fun depth c hc ↦ ?_, [' '], rfl, fun c hc ↦ ?_⟩
  · rcases List.mem_cons.mp hc with rfl | hc
    · decide
    · rw [List.eq_of_mem_replicate hc]
      decide
  · rw [List.mem_singleton.mp hc]
    decide

/-- Each of the two layouts that there are to choose from. -/
theorem Layout.isBlank_ite (isPretty : Bool) : (if isPretty then pretty else compact).IsBlank := by
  cases isPretty with
  | true => exact isBlank_pretty
  | false => exact isBlank_compact

namespace Layout.IsBlank

variable {l : Layout}

theorem splits_colon (hl : l.IsBlank) (rest : List Char) : Splits l.colon [.colon] rest := by
  obtain ⟨blanks, hcolon, hblanks⟩ := hl.colon
  rw [hcolon]
  exact (Splits.mark (c := ':') (by decide) (fun _ ↦ rfl) _).pad hblanks

/-- A mark with the space behind it. -/
theorem splits_mark (hl : l.IsBlank) (depth : Nat) {c : Char} {t : Token} (hc : isSpace c = false)
    (h : ∀ rest, scan c rest = some (t, rest)) (rest : List Char) :
    Splits (c :: l.gap depth) [t] rest :=
  (Splits.mark hc h _).pad (hl.gap depth)

end Layout.IsBlank

/-! ## Values are split -/

/-- A number ends at a space, or at what stands behind the spaces. -/
theorem ends_spaces {blanks rest : List Char} (h : ∀ c ∈ blanks, isSpace c = true)
    (hrest : Numeral.Ends rest) : Numeral.Ends (blanks ++ rest) := by
  cases blanks with
  | nil => exact hrest
  | cons c blanks =>
    have hc := h c List.mem_cons_self
    rintro _ ⟨⟩
    simp only [isSpace, Bool.or_eq_true, decide_eq_true_eq] at hc
    rcases hc with ((rfl | rfl) | rfl) | rfl <;> decide

theorem ends_cons {c : Char} (hc : c.isDigit = false ∧ c ≠ '.' ∧ c ≠ 'e' ∧ c ≠ 'E')
    (rest : List Char) : Numeral.Ends (c :: rest) := by
  rintro _ ⟨⟩
  exact hc

theorem ends_writeItems (l : Layout) (depth : Nat) (items : List Json) {rest : List Char}
    (h : Numeral.Ends rest) : Numeral.Ends (writeItems l depth items ++ rest) := by
  cases items with
  | nil => exact h
  | cons item items => exact ends_cons (by decide) _

theorem ends_writeMembers (l : Layout) (depth : Nat) (members : List (String × Json))
    {rest : List Char} (h : Numeral.Ends rest) :
    Numeral.Ends (writeMembers l depth members ++ rest) := by
  cases members with
  | nil => exact h
  | cons member members => exact ends_cons (by decide) _

mutual

/-- A written value is split into its tokens. -/
theorem splits_write {l : Layout} (hl : l.IsBlank) (depth : Nat) :
    (v : Json) → (rest : List Char) → Numeral.Ends rest → Splits (write l depth v) v.tokens rest
  | .null, _, _ => Splits.of_scan (by decide) rfl
  | .bool true, _, _ => Splits.of_scan (by decide) rfl
  | .bool false, _, _ => Splits.of_scan (by decide) rfl
  | .number m, _, h => Splits.number m h
  | .string s, rest, _ => Splits.string s rest
  | .array [], rest, _ =>
    (Splits.mark (c := '[') (by decide) (fun _ ↦ rfl) _).append
      (Splits.mark (by decide) (fun _ ↦ rfl) rest)
  | .array (item :: items), rest, _ => by
    have hclose := ends_spaces (hl.gap depth) (ends_cons (c := ']') (by decide) rest)
    have hopen := hl.splits_mark (depth + 1) (c := '[') (by decide) fun _ ↦ rfl
    have hitem := splits_write hl (depth + 1) item _ (ends_writeItems l (depth + 1) items hclose)
    have hitems := splits_writeItems hl (depth + 1) items _ hclose
    exact ((((hopen _).append hitem).append hitems).pad (hl.gap depth)).append
      (Splits.mark (by decide) (fun _ ↦ rfl) rest)
  | .object [], rest, _ =>
    (Splits.mark (c := '\x7b') (by decide) (fun _ ↦ rfl) _).append
      (Splits.mark (by decide) (fun _ ↦ rfl) rest)
  | .object ((name, value) :: members), rest, _ => by
    have hclose := ends_spaces (hl.gap depth) (ends_cons (c := '\x7d') (by decide) rest)
    have hopen := hl.splits_mark (depth + 1) (c := '\x7b') (by decide) fun _ ↦ rfl
    have hvalue := splits_write hl (depth + 1) value _
      (ends_writeMembers l (depth + 1) members hclose)
    have hmembers := splits_writeMembers hl (depth + 1) members _ hclose
    exact ((((((hopen _).append (Splits.string name _)).append (hl.splits_colon _)).append
      hvalue).append hmembers).pad (hl.gap depth)).append
        (Splits.mark (by decide) (fun _ ↦ rfl) rest)

theorem splits_writeItems {l : Layout} (hl : l.IsBlank) (depth : Nat) :
    (items : List Json) → (rest : List Char) → Numeral.Ends rest →
      Splits (writeItems l depth items) (itemTokens items) rest
  | [], rest, _ => Splits.nil rest
  | item :: items, rest, h => by
    have hcomma := hl.splits_mark depth (c := ',') (by decide) fun _ ↦ rfl
    have hitem := splits_write hl depth item _ (ends_writeItems l depth items h)
    exact ((hcomma _).append hitem).append (splits_writeItems hl depth items rest h)

theorem splits_writeMembers {l : Layout} (hl : l.IsBlank) (depth : Nat) :
    (members : List (String × Json)) → (rest : List Char) → Numeral.Ends rest →
      Splits (writeMembers l depth members) (memberTokens members) rest
  | [], rest, _ => Splits.nil rest
  | (name, value) :: members, rest, h => by
    have hcomma := hl.splits_mark depth (c := ',') (by decide) fun _ ↦ rfl
    have hvalue := splits_write hl depth value _ (ends_writeMembers l depth members h)
    exact ((((hcomma _).append (Splits.string name _)).append (hl.splits_colon _)).append
      hvalue).append (splits_writeMembers hl depth members rest h)

end

theorem isSpace_newline : ∀ c ∈ "\n".toList, isSpace c = true := by
  intro c hc
  rw [List.mem_singleton.mp hc]
  decide

/-- **Written values have the tokens that were meant**, also when spaces stand behind them. -/
theorem ofText?_text {l : Layout} (hl : l.IsBlank) (v : Json) (blanks : String)
    (hblanks : ∀ c ∈ blanks.toList, isSpace c = true) :
    Token.ofText? (v.text l ++ blanks) = some v.tokens := by
  have hends : Numeral.Ends blanks.toList :=
    List.append_nil blanks.toList ▸ ends_spaces hblanks fun _ h ↦ (nomatch h)
  have hspaces := ofChars?_spaces hblanks []
  rw [List.append_nil] at hspaces
  rw [Token.ofText?, text, String.toList_append, String.toList_ofList,
    splits_write hl 0 v _ hends, hspaces, ofChars?_of_nil rfl, Option.map_some, List.append_nil]

end Json
end RecordQuery
