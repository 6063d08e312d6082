import RecordQuery.Proofs.Sql.Reader
import RecordQuery.Text.Ranges

/-!
# The tokens of a clause

A clause is put together from strings, and whatever a segment of a path holds ends up between
quotes.  Here the text of a condition is split into the tokens it was meant to have, so that nothing
after this file looks at characters.

`Splits cs ts rest` says that `cs`, in front of `rest`, is read as the tokens `ts`.  What follows
matters because the longest token is taken: a quoted name must not be followed by another quote, and
a parameter not by a digit.

* `Dialect.condition`, `sql_clause`: the condition of a predicate, which looks at no literal.
* `splits_reference`: a field is read as its tokens, whatever its segments hold.
* `splits_condition`: the tokens of a whole condition.
-/

set_option autoImplicit false

namespace RecordQuery
namespace Sql

/-! ## Quoted text -/

theorem unquote_cons_of_ne {quote c : Char} (h : c ≠ quote) (cs : List Char) :
    unquote quote (c :: cs) = (unquote quote cs).map fun r ↦ (c :: r.1, r.2) := by
  cases cs <;> rw [unquote] <;> simp [h, unquote]

/-- Quoted text is read back, whatever it holds. -/
theorem unquote_doubled {quote : Char} {rest : List Char} (h : rest.head? ≠ some quote)
    (cs : List Char) : unquote quote (doubled quote cs ++ quote :: rest) = some (cs, rest) := by
  induction cs with
  | nil =>
    cases rest with
    | nil => simp [doubled, unquote]
    | cons d rest =>
      have hd : d ≠ quote := fun hd ↦ h (congrArg some hd)
      simp [doubled, unquote, hd]
  | cons c cs ih =>
    rw [doubled, List.flatMap_cons, ← doubled]
    split
    · rename_i hc
      rw [List.append_assoc, List.cons_append, List.singleton_append, unquote, if_pos rfl,
        if_pos rfl, ih, hc, Option.map_some]
    · rename_i hc
      rw [List.append_assoc, List.singleton_append, unquote_cons_of_ne hc, ih, Option.map_some]

namespace Token

/-! ## One token -/

theorem ofChars?_cons {c : Char} {cs rest : List Char} {t : Token} (hc : c.isWhitespace = false)
    (h : scan c cs = some (t, rest)) : ofChars? (c :: cs) = (ofChars? rest).map (t :: ·) := by
  rw [ofChars?, if_neg (by simp [hc])]
  split
  · rename_i h'; rw [h] at h'; cases h'
  · rename_i t' rest' h'; rw [h] at h'; cases h'; rfl

/-- `cs` in front of `rest` is read as `ts`. -/
def Splits (cs : List Char) (ts : List Token) (rest : List Char) : Prop :=
  ofChars? (cs ++ rest) = (ofChars? rest).map (ts ++ ·)

namespace Splits

variable {cs cs' rest : List Char} {ts ts' : List Token}

theorem nil (rest : List Char) : Splits [] [] rest := by
  rw [Splits]
  cases h : ofChars? rest <;> simp [h]

/-- One text behind another is read as the tokens of both. -/
theorem append (h : Splits cs ts (cs' ++ rest)) (h' : Splits cs' ts' rest) :
    Splits (cs ++ cs') (ts ++ ts') rest := by
  rw [Splits] at h h' ⊢
  rw [List.append_assoc, h, h', Option.map_map]
  refine congrArg (Option.map · _) (funext fun us ↦ ?_)
  exact (List.append_assoc _ _ _).symm

theorem of_scan {c : Char} {t : Token} (hc : c.isWhitespace = false)
    (h : scan c (cs ++ rest) = some (t, rest)) : Splits (c :: cs) [t] rest :=
  ofChars?_cons hc h

theorem space (rest : List Char) : Splits [' '] [] rest := by
  have hspace : ofChars? (' ' :: rest) = ofChars? rest := by
    rw [ofChars?, if_pos (by decide)]
  rw [Splits, List.singleton_append, hspace]
  cases h : ofChars? rest <;> simp

theorem opening (rest : List Char) : Splits ['('] [.opening] rest := of_scan (by decide) rfl

theorem closing (rest : List Char) : Splits [')'] [.closing] rest := of_scan (by decide) rfl

theorem comma (rest : List Char) : Splits [','] [.comma] rest := of_scan (by decide) rfl

theorem mark (rest : List Char) : Splits ['?'] [.parameter none] rest := of_scan (by decide) rfl

theorem name (s : String) (h : rest.head? ≠ some '"') :
    Splits (identifier s).toList [.name s] rest := by
  rw [identifier, quoted, String.toList_ofList]
  refine of_scan (by decide) ?_
  rw [List.append_eq, List.append_assoc, List.singleton_append, scan, unquote_doubled h,
    Option.map_some, String.ofList_toList]

theorem text (s : String) (h : rest.head? ≠ some '\'') :
    Splits (Sql.text s).toList [.text s] rest := by
  rw [Sql.text, quoted, String.toList_ofList]
  refine of_scan (by decide) ?_
  rw [List.append_eq, List.append_assoc, List.singleton_append, scan, unquote_doubled h,
    Option.map_some, String.ofList_toList]

/-- A numbered parameter is read up to the last digit. -/
theorem parameter (n : Nat) (h : ∀ c ∈ rest.head?, c.isDigit = false) :
    Splits ('$' :: (toString n).toList) [.parameter (some n)] rest := by
  have hdigits : (toString n).toList = Nat.toDigits 10 n := by
    rw [Nat.toString_eq_repr, Nat.repr_eq_ofList_toDigits, String.toList_ofList]
  have hall : ∀ c ∈ Nat.toDigits 10 n, c.isDigit = true := fun c hc ↦
    Nat.isDigit_of_mem_toDigits (by decide) (by decide) hc
  obtain ⟨htake, hdrop⟩ := Text.takeWhile_append hall h
  refine of_scan (by decide) ?_
  rw [hdigits, scan, htake, hdrop, if_neg Nat.toDigits_ne_nil, Nat.ofDigitChars_ten_toDigits]

/-- A run of operator characters is one operator. -/
theorem operator (c : Char) (run : List Char) (hc : isOperatorChar c = true)
    (hrun : run.all isOperatorChar = true) (h : ∀ d ∈ rest.head?, isOperatorChar d = false) :
    Splits (c :: run) [.operator (String.ofList (c :: run))] rest := by
  obtain ⟨htake, hdrop⟩ := Text.takeWhile_append (List.all_eq_true.mp hrun) h
  have hspace : c.isWhitespace = false := by
    simp only [isOperatorChar, Bool.or_eq_true, decide_eq_true_eq] at hc
    rcases hc with (((rfl | rfl) | rfl) | rfl) | rfl <;> decide
  refine of_scan hspace ?_
  have hscan : ∀ cs, scan c cs = some (.operator (String.ofList (c :: cs.takeWhile isOperatorChar)),
      cs.dropWhile isOperatorChar) := by
    intro cs
    simp only [isOperatorChar, Bool.or_eq_true, decide_eq_true_eq] at hc
    rcases hc with (((rfl | rfl) | rfl) | rfl) | rfl <;> rfl
  rw [hscan, htake, hdrop]

/-- A run of letters, digits and underscores behind a letter is one word. -/
theorem word (c : Char) (run : List Char) (hc : c.isAlpha = true)
    (hrun : run.all isWordChar = true) (h : ∀ d ∈ rest.head?, isWordChar d = false) :
    Splits (c :: run) [.word (String.ofList (c :: run))] rest := by
  obtain ⟨htake, hdrop⟩ := Text.takeWhile_append (List.all_eq_true.mp hrun) h
  have hword : isWordChar c = true := by simp [isWordChar, Char.isAlphanum, hc]
  have hne : ∀ d : Char, d.isAlpha = false → c ≠ d := fun d hd hcd ↦ by
    rw [hcd, hd] at hc; cases hc
  have hoperator : isOperatorChar c = false := by
    simp only [isOperatorChar, Bool.or_eq_false_iff, decide_eq_false_iff_not]
    exact ⟨⟨⟨⟨hne _ rfl, hne _ rfl⟩, hne _ rfl⟩, hne _ rfl⟩, hne _ rfl⟩
  have hspace : c.isWhitespace = false := by
    simp only [Char.isWhitespace, Bool.or_eq_false_iff, decide_eq_false_iff_not]
    exact ⟨⟨⟨hne _ rfl, hne _ rfl⟩, hne _ rfl⟩, hne _ rfl⟩
  refine of_scan hspace ?_
  rw [scan]
  · rw [if_neg (by simp [hoperator]), if_pos hword, htake, hdrop]
  all_goals exact hne _ rfl

end Splits
end Token

/-! ## The pieces of a condition -/

open Token

/-- The tokens of the arrows to the keys below a column. -/
def arrowTokens : List String → List Token
  | [] => []
  | [key] => [.operator "->>", .text key]
  | key :: keys => .operator "->" :: .text key :: arrowTokens keys

/-- The tokens of a field. -/
def Dialect.referenceTokens (d : Dialect) (path : FieldPath) : List Token :=
  match d, path.nested with
  | .sqlite, [] => [.name path.root]
  | .sqlite, keys =>
    [.word "json_extract", .opening, .name path.root, .comma, .text (jsonPath keys), .closing]
  | .postgres, keys => .name path.root :: arrowTokens keys

/-- The token of the mark for binding `i`. -/
def Dialect.markToken (d : Dialect) (i : Nat) : Token :=
  match d with
  | .sqlite => .parameter none
  | .postgres => .parameter (some (i + 1))

/-- The token of a comparator. -/
def comparatorToken : Comparator → Token
  | .like => .word "like"
  | op => .operator op.symbol

theorem splits_arrow {key : String} {rest : List Char} (last : Bool)
    (h : rest.head? ≠ some '\'') :
    Splits ((if last then "->>" else "->") ++ text key).toList
      [.operator (if last then "->>" else "->"), .text key] rest := by
  have hquote : ((text key).toList ++ rest).head? = some '\'' := by
    rw [text, quoted, String.toList_ofList]; rfl
  have hstop : ∀ d ∈ ((text key).toList ++ rest).head?, isOperatorChar d = false := by
    intro d hd
    rw [hquote] at hd
    cases hd
    rfl
  have harrow : Splits (if last then "->>" else "->").toList
      [.operator (if last then "->>" else "->")] ((text key).toList ++ rest) := by
    cases last with
    | true => exact .operator '-' ['>', '>'] rfl rfl hstop
    | false => exact .operator '-' ['>'] rfl rfl hstop
  rw [String.toList_append]
  exact harrow.append (.text key h)

theorem head?_arrows (keys : List String) (rest : List Char) :
    ((arrows keys).toList ++ ' ' :: rest).head? = some '-' ∨
      ((arrows keys).toList ++ ' ' :: rest).head? = some ' ' := by
  match keys with
  | [] => exact .inr rfl
  | [key] => exact .inl (by simp [arrows, String.toList_append])
  | key :: key' :: keys => exact .inl (by simp [arrows, String.toList_append])

/-- The arrows are read as their tokens, up to a blank. -/
theorem splits_arrows (keys : List String) (rest : List Char) :
    Splits (arrows keys).toList (arrowTokens keys) (' ' :: rest) := by
  induction keys with
  | nil => exact .nil _
  | cons key keys ih =>
    cases keys with
    | nil => exact splits_arrow true (by simp)
    | cons key' keys =>
      have harrows : arrows (key :: key' :: keys) = "->" ++ text key ++ arrows (key' :: keys) := rfl
      rw [harrows, String.toList_append]
      refine (splits_arrow false ?_).append ih
      rcases head?_arrows (key' :: keys) rest with h | h <;> rw [h] <;> decide

/-- A field inside a JSON column is read as a call, up to its closing parenthesis. -/
theorem splits_extract {path : FieldPath} (h : path.nested ≠ []) (rest : List Char) :
    Splits (Dialect.sqlite.reference path).toList
      [.word "json_extract", .opening, .name path.root, .comma, .text (jsonPath path.nested),
        .closing] rest := by
  obtain ⟨key, keys, hkeys⟩ := List.exists_cons_of_ne_nil h
  have hcall (cs : List Char) : Splits "json_extract(".toList [.word "json_extract", .opening]
      cs := by
    have hword : Splits "json_extract".toList [.word "json_extract"] ('(' :: cs) :=
      .word 'j' "son_extract".toList rfl rfl (by simp [isWordChar])
    exact hword.append (.opening cs)
  have hcomma (cs : List Char) : Splits ", ".toList [.comma] cs :=
    (Splits.comma (' ' :: cs)).append (.space cs)
  simp only [Dialect.reference, hkeys, String.toList_append]
  exact ((((hcall _).append (.name path.root (by simp))).append (hcomma _)).append
    (.text _ (by simp))).append (.closing _)

/-- A field is read as its tokens, up to a blank, whatever its segments hold. -/
theorem splits_reference (d : Dialect) (path : FieldPath) (rest : List Char) :
    Splits (d.reference path).toList (d.referenceTokens path) (' ' :: rest) := by
  cases d with
  | sqlite =>
    cases h : path.nested with
    | nil =>
      simp only [Dialect.reference, Dialect.referenceTokens, h]
      exact .name _ (by simp)
    | cons key keys =>
      have hnested : path.nested ≠ [] := by simp [h]
      have hextract := splits_extract hnested (' ' :: rest)
      rw [h] at hextract
      simpa only [Dialect.referenceTokens, h] using hextract
  | postgres =>
    have hname : Splits (identifier path.root).toList [.name path.root]
        ((arrows path.nested).toList ++ ' ' :: rest) := by
      refine .name path.root ?_
      rcases head?_arrows path.nested rest with h | h <;> rw [h] <;> decide
    simp only [Dialect.reference, Dialect.referenceTokens, String.toList_append]
    exact hname.append (splits_arrows path.nested rest)

theorem splits_comparator (op : Comparator) (rest : List Char) :
    Splits op.symbol.toList [comparatorToken op] (' ' :: rest) := by
  cases op with
  | like =>
    exact .word 'l' "ike".toList rfl rfl (by simp [isWordChar])
  | equal => exact .operator '=' [] rfl rfl (by simp [isOperatorChar])
  | notEqual => exact .operator '!' ['='] rfl rfl (by simp [isOperatorChar])
  | lessThan => exact .operator '<' [] rfl rfl (by simp [isOperatorChar])
  | lessEqual =>
    exact .operator '<' ['='] rfl rfl (by simp [isOperatorChar])
  | greaterThan => exact .operator '>' [] rfl rfl (by simp [isOperatorChar])
  | greaterEqual =>
    exact .operator '>' ['='] rfl rfl (by simp [isOperatorChar])

theorem splits_mark (d : Dialect) (i : Nat) {rest : List Char}
    (h : ∀ c ∈ rest.head?, c.isDigit = false) :
    Splits (d.mark i).toList [d.markToken i] rest := by
  cases d with
  | sqlite =>
    have hmark : (Dialect.sqlite.mark i).toList = ['?'] := by rw [Dialect.mark]; rfl
    rw [hmark]
    exact .mark rest
  | postgres =>
    rw [Dialect.mark, String.toList_append]
    exact .parameter (i + 1) h

/-! ## Conditions -/

/-- The condition of a predicate. -/
def Dialect.condition (d : Dialect) : Predicate → Condition
  | .comparison path op i => d.comparison path op i
  | .logical connective left right =>
    Condition.connect connective (d.condition left) (d.condition right)

/-- The SQL of a query does not depend on its literals. -/
theorem run_foldM_backend (d : Dialect) (bindings : List Literal) (p : Predicate)
    (h : ∀ i ∈ p.placeholders, i < bindings.length) :
    (p.foldM d.backend bindings h).run = d.condition p := by
  induction p with
  | comparison path op i => rfl
  | logical connective left right ihl ihr =>
    have hl := ihl fun i hi ↦ h i (List.mem_append_left _ hi)
    have hr := ihr fun i hi ↦ h i (List.mem_append_right _ hi)
    rw [Dialect.condition, ← hl, ← hr]
    rfl

theorem sql_clause (d : Dialect) (q : PreparedQuery) :
    (d.clause q).sql = parenthesized (d.condition q.predicate).sql := by
  rw [← run_foldM_backend d q.bindings q.predicate q.lt_length_of_mem]
  rfl

/-- The connective at the top of a predicate. -/
def topConnective? : Predicate → Option Connective
  | .comparison .. => none
  | .logical connective .. => some connective

theorem connective_condition (d : Dialect) (p : Predicate) :
    (d.condition p).connective = topConnective? p := by
  cases p <;> rfl

/-- The tokens of an operand, in parentheses unless it may stand bare. -/
def grouped (bare : Bool) (ts : List Token) : List Token :=
  if bare then ts else .opening :: ts ++ [.closing]

/-- Whether a predicate stands bare to the left of a connective. -/
def isBareLeft (connective : Connective) (p : Predicate) : Bool :=
  (topConnective? p).all (· = connective)

/-- Whether a predicate stands bare to the right of a connective. -/
def isBareRight (p : Predicate) : Bool := (topConnective? p).isNone

/-- The tokens of the condition of a predicate, given those of its fields and of its marks. -/
def predicateTokens (reference : FieldPath → List Token) (mark : Nat → Token) :
    Predicate → List Token
  | .comparison path op i => reference path ++ [comparatorToken op, mark i]
  | .logical connective left right =>
    grouped (isBareLeft connective left) (predicateTokens reference mark left) ++
      .word connective.keyword ::
        grouped (isBareRight right) (predicateTokens reference mark right)

theorem asLeft_condition (d : Dialect) (p : Predicate) (connective : Connective) :
    (d.condition p).asLeft connective =
      if isBareLeft connective p then (d.condition p).sql
      else parenthesized (d.condition p).sql := by
  rw [Condition.asLeft, connective_condition]
  cases p with
  | comparison => rfl
  | logical top left right => simp only [isBareLeft, topConnective?, Option.all_some,
      decide_eq_true_eq]

theorem asRight_condition (d : Dialect) (p : Predicate) :
    (d.condition p).asRight =
      if isBareRight p then (d.condition p).sql else parenthesized (d.condition p).sql := by
  rw [Condition.asRight, connective_condition]
  cases p <;> rfl

theorem splits_parenthesized {s : String} {ts : List Token} {rest : List Char}
    (h : Splits s.toList ts (')' :: rest)) :
    Splits (parenthesized s).toList (.opening :: ts ++ [.closing]) rest := by
  rw [parenthesized, String.toList_append, String.toList_append]
  exact ((Splits.opening _).append h).append (.closing rest)

/-- An operand is read as its tokens when it is read so bare and in front of a parenthesis. -/
theorem splits_grouped {s : String} {ts : List Token} {rest : List Char} (bare : Bool)
    (h : Splits s.toList ts rest) (h' : Splits s.toList ts (')' :: rest)) :
    Splits (if bare then s else parenthesized s).toList (grouped bare ts) rest := by
  cases bare with
  | true => exact h
  | false => exact splits_parenthesized h'

theorem splits_keyword (connective : Connective) (rest : List Char) :
    Splits (' ' :: connective.keyword.toList ++ [' ']) [.word connective.keyword] rest := by
  have hword (cs : List Char) :
      Splits connective.keyword.toList [.word connective.keyword] (' ' :: cs) := by
    cases connective with
    | and => exact .word 'a' ['n', 'd'] rfl rfl (by simp [isWordChar])
    | or => exact .word 'o' ['r'] rfl rfl (by simp [isWordChar])
  exact ((Splits.space _).append (hword rest)).append (.space rest)

/-- The condition of a predicate is read as its tokens, wherever no digit follows. -/
theorem splits_condition (d : Dialect) (p : Predicate) {rest : List Char}
    (h : ∀ c ∈ rest.head?, c.isDigit = false) :
    Splits (d.condition p).sql.toList (predicateTokens d.referenceTokens d.markToken p) rest := by
  induction p generalizing rest with
  | comparison path op i =>
    have hsql : (d.condition (.comparison path op i)).sql.toList =
        (d.reference path).toList ++
          ([' '] ++ (op.symbol.toList ++ ([' '] ++ (d.mark i).toList))) := by
      simp only [Dialect.condition, Dialect.comparison, String.toList_append, List.append_assoc]
      rfl
    rw [hsql]
    exact (splits_reference d path _).append ((Splits.space _).append
      ((splits_comparator op _).append ((Splits.space _).append (splits_mark d i h))))
  | logical connective left right ihl ihr =>
    have hleft {cs : List Char} : Splits ((d.condition left).asLeft connective).toList
        (grouped (isBareLeft connective left)
          (predicateTokens d.referenceTokens d.markToken left)) (' ' :: cs) := by
      rw [asLeft_condition]
      exact splits_grouped _ (ihl (by simp)) (ihl (by simp))
    have hright : Splits (d.condition right).asRight.toList
        (grouped (isBareRight right)
          (predicateTokens d.referenceTokens d.markToken right)) rest := by
      rw [asRight_condition]
      exact splits_grouped _ (ihr h) (ihr (by simp))
    have hsql : (d.condition (.logical connective left right)).sql.toList =
        ((d.condition left).asLeft connective).toList ++
          (' ' :: connective.keyword.toList ++ [' '] ++ (d.condition right).asRight.toList) := by
      simp only [Dialect.condition, Condition.connect, String.toList_append, List.append_assoc]
      rfl
    rw [hsql]
    exact hleft.append ((splits_keyword connective _).append hright)

end Sql
end RecordQuery
