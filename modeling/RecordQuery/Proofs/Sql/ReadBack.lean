import RecordQuery.Proofs.Sql.Lexing

/-!
# Clauses are read back

A clause that has been written for a query is read by `Sql.read?` as that very query: the same
connectives around the same comparisons, each with its field, its comparator and the number of its
binding.  Parentheses are written only where they are needed, so this is where the rule for them is
compared with how SQL groups `and` and `or`.

The tokens of a clause are known (`splits_condition`), and two things are left to show.

* `numbers_predicateTokens`: numbering the marks gives each comparison its own placeholder.  For
  `?` this rests on placeholders being consecutive from left to right.
* `readable`: the condition of a predicate is read at every level that has room for it, as in a left
  operand of the same connective, and a condition in parentheses at every level.

The result is `clause_reads_back`.
-/

set_option autoImplicit false

namespace RecordQuery
namespace Sql

/-! ## What is to be read -/

/-- The steps to the keys below a column; only the last one takes the value as text. -/
def steps (keys : List String) : List (Arrow × String) :=
  keys.dropLast.map (Arrow.value, ·) ++ (keys.getLast?.map (Arrow.text, ·)).toList

/-- What a field refers to. -/
def Dialect.target (d : Dialect) (path : FieldPath) : Reference :=
  match d, path.nested with
  | .sqlite, [] => .column path.root []
  | .sqlite, keys => .extract path.root (jsonPath keys)
  | .postgres, keys => .column path.root (steps keys)

/-- The condition that a predicate is, parameters numbered from one. -/
def Dialect.tree (d : Dialect) : Predicate → Tree
  | .comparison path op i => .comparison (d.target path) op (i + 1)
  | .logical connective left right => .logical connective (d.tree left) (d.tree right)

/-! ## Numbering -/

open Token

/-- Behind `seen` unnumbered marks `ts` is numbered as `ts'`, and there are `seen'` then. -/
def Numbers (seen : Nat) (ts ts' : List Token) (seen' : Nat) : Prop :=
  ∀ rest, number seen (ts ++ rest) = ts' ++ number seen' rest

namespace Numbers

variable {seen seen' seen'' : Nat} {ts ts' us us' : List Token}

theorem append (h : Numbers seen ts ts' seen') (h' : Numbers seen' us us' seen'') :
    Numbers seen (ts ++ us) (ts' ++ us') seen'' := by
  intro rest
  rw [List.append_assoc, h, h', List.append_assoc]

/-- Tokens other than `?` stay as they are. -/
theorem of_forall_ne (h : ∀ t ∈ ts, t ≠ .parameter none) : Numbers seen ts ts seen := by
  intro rest
  induction ts with
  | nil => rfl
  | cons t ts ih =>
    have ht := h t List.mem_cons_self
    have hts := ih fun t' ht' ↦ h t' (List.mem_cons_of_mem _ ht')
    rw [List.cons_append, List.cons_append, number, hts]
    exact ht

theorem grouped (bare : Bool) (h : Numbers seen ts ts' seen') :
    Numbers seen (grouped bare ts) (grouped bare ts') seen' := by
  cases bare with
  | true => exact h
  | false =>
    have hopening : Numbers seen [.opening] [.opening] seen := of_forall_ne (by simp)
    have hclosing : Numbers seen' [.closing] [.closing] seen' := of_forall_ne (by simp)
    exact (hopening.append h).append hclosing

end Numbers

theorem ne_parameter_of_mem_arrowTokens {keys : List String} {t : Token}
    (h : t ∈ arrowTokens keys) : t ≠ .parameter none := by
  fun_induction arrowTokens keys with
  | case1 => cases h
  | case2 key => rcases List.mem_cons.mp h with rfl | h <;> simp_all
  | case3 key keys hkeys ih =>
    rcases List.mem_cons.mp h with rfl | h
    · simp
    · rcases List.mem_cons.mp h with rfl | h
      · simp
      · exact ih h

theorem numbers_referenceTokens (d : Dialect) (path : FieldPath) (seen : Nat) :
    Numbers seen (d.referenceTokens path) (d.referenceTokens path) seen := by
  refine .of_forall_ne fun t ht ↦ ?_
  cases d with
  | sqlite =>
    cases h : path.nested with
    | nil =>
      simp only [Dialect.referenceTokens, h, List.mem_singleton] at ht
      rw [ht]
      exact Token.noConfusion
    | cons key keys =>
      simp only [Dialect.referenceTokens, h] at ht
      rintro rfl
      simp at ht
  | postgres =>
    rcases List.mem_cons.mp ht with rfl | ht
    · exact Token.noConfusion
    · exact ne_parameter_of_mem_arrowTokens ht

/-- The mark that says the number of its binding. -/
def numberedMark (i : Nat) : Token := .parameter (some (i + 1))

theorem numbers_markToken (d : Dialect) {i seen : Nat} (h : d = .sqlite → seen = i) :
    ∃ seen', (d = .sqlite → seen' = i + 1) ∧
      Numbers seen [d.markToken i] [numberedMark i] seen' := by
  cases d with
  | sqlite =>
    obtain rfl := h rfl
    exact ⟨seen + 1, fun _ ↦ rfl, fun _ ↦ rfl⟩
  | postgres => exact ⟨seen, nofun, fun _ ↦ rfl⟩

theorem placeholders_append_eq {left right : Predicate} {first : Nat}
    (h : left.placeholders ++ right.placeholders = List.range' first (left.size + right.size)) :
    left.placeholders = List.range' first left.size ∧
      right.placeholders = List.range' (first + left.size) right.size := by
  rw [← List.range'_append_1] at h
  exact List.append_inj h (by rw [left.length_placeholders, List.length_range'])

/-- Numbering gives each comparison the number of its binding. -/
theorem numbers_predicateTokens (d : Dialect) (p : Predicate) {first seen : Nat}
    (hp : p.placeholders = List.range' first p.size) (hseen : d = .sqlite → seen = first) :
    ∃ seen', (d = .sqlite → seen' = first + p.size) ∧
      Numbers seen (predicateTokens d.referenceTokens d.markToken p)
        (predicateTokens d.referenceTokens numberedMark p) seen' := by
  induction p generalizing first seen with
  | comparison path op i =>
    obtain rfl : i = first := by simpa [Predicate.placeholders, Predicate.size] using hp
    obtain ⟨seen', hseen', hmark⟩ := numbers_markToken d hseen
    have hop : Numbers seen [comparatorToken op] [comparatorToken op] seen :=
      .of_forall_ne (by cases op <;> simp [comparatorToken])
    exact ⟨seen', hseen', (numbers_referenceTokens d path seen).append (hop.append hmark)⟩
  | logical connective left right ihl ihr =>
    obtain ⟨hl, hr⟩ := placeholders_append_eq hp
    obtain ⟨middle, hmiddle, hleft⟩ := ihl hl hseen
    obtain ⟨seen', hseen', hright⟩ := ihr hr hmiddle
    have hword : Numbers middle [.word connective.keyword] [.word connective.keyword] middle :=
      .of_forall_ne (by simp)
    refine ⟨seen', fun hd ↦ (hseen' hd).trans (Nat.add_assoc _ _ _), ?_⟩
    exact (hleft.grouped _).append (hword.append (hright.grouped _))

/-! ## Reading -/

/-- The tokens take the reader from `r` to `r'`. -/
def Reads (r : Reading) (ts : List Token) (r' : Reading) : Prop :=
  ts.foldlM Reading.step r = some r'

namespace Reads

variable {r r' r'' : Reading} {t : Token} {ts us : List Token}

theorem nil : Reads r [] r := rfl

theorem cons (h : r.step t = some r') (hs : Reads r' ts r'') : Reads r (t :: ts) r'' := by
  rw [Reads, List.foldlM_cons, h]
  exact hs

theorem append (h : Reads r ts r') (h' : Reads r' us r'') : Reads r (ts ++ us) r'' := by
  rw [Reads, List.foldlM_append, h]
  exact h'

end Reads

theorem steps_cons_cons (key key' : String) (keys : List String) :
    steps (key :: key' :: keys) = (.value, key) :: steps (key' :: keys) := by
  rw [steps, List.dropLast_cons_cons, List.getLast?_cons_cons]
  rfl

/-- The arrows to the keys are read one behind the other. -/
theorem reads_arrowTokens (name : String) (keys : List String) (before : List (Arrow × String))
    (l : Level) (enclosing : List Level) :
    Reads ⟨.arrow name before, l, enclosing⟩ (arrowTokens keys)
      ⟨.arrow name (before ++ steps keys), l, enclosing⟩ := by
  fun_induction arrowTokens keys generalizing before with
  | case1 => rw [steps]; simp [Reads.nil]
  | case2 key => exact .cons rfl (.cons rfl .nil)
  | case3 key keys hkeys ih =>
    obtain ⟨key', keys', rfl⟩ := List.exists_cons_of_ne_nil fun h ↦ hkeys h
    have hread := ih (before ++ [(.value, key)])
    rw [List.append_assoc, List.singleton_append, ← steps_cons_cons] at hread
    exact .cons rfl (.cons rfl hread)

theorem step_arrow_comparatorToken (name : String) (before : List (Arrow × String)) (l : Level)
    (enclosing : List Level) (op : Comparator) :
    Reading.step ⟨.arrow name before, l, enclosing⟩ (comparatorToken op) =
      some ⟨.parameter (.column name before) op, l, enclosing⟩ := by
  cases op <;> rfl

theorem step_comparator_comparatorToken (reference : Reference) (l : Level)
    (enclosing : List Level) (op : Comparator) :
    Reading.step ⟨.comparator reference, l, enclosing⟩ (comparatorToken op) =
      some ⟨.parameter reference op, l, enclosing⟩ := by
  cases op <;> rfl

/-- A comparison is read wherever an operand may stand. -/
theorem reads_comparison (d : Dialect) (path : FieldPath) (op : Comparator) (i : Nat) (l : Level)
    (enclosing : List Level) :
    Reads ⟨.operand, l, enclosing⟩ (d.referenceTokens path ++ [comparatorToken op, numberedMark i])
      ⟨.connective (.comparison (d.target path) op (i + 1)), l, enclosing⟩ := by
  cases d with
  | sqlite =>
    cases h : path.nested with
    | nil =>
      simp only [Dialect.referenceTokens, Dialect.target, h]
      exact .cons rfl (.cons (step_arrow_comparatorToken ..) (.cons rfl .nil))
    | cons key keys =>
      simp only [Dialect.referenceTokens, Dialect.target, h]
      have hcall : Reads ⟨.operand, l, enclosing⟩ [.word "json_extract", .opening, .name path.root,
          .comma, .text (jsonPath (key :: keys)), .closing]
          ⟨.comparator (.extract path.root (jsonPath (key :: keys))), l, enclosing⟩ := rfl
      exact hcall.append (.cons (step_comparator_comparatorToken ..) (.cons rfl .nil))
  | postgres =>
    have harrows := reads_arrowTokens path.root path.nested [] l enclosing
    have hcolumn : Reads ⟨.operand, l, enclosing⟩ (.name path.root :: arrowTokens path.nested)
        ⟨.arrow path.root (steps path.nested), l, enclosing⟩ := .cons rfl harrows
    exact hcolumn.append (.cons (step_arrow_comparatorToken ..) (.cons rfl .nil))

/-! ## Grouping -/

namespace Level

/-- No connective that waits at `l` takes apart what `connective` joins. -/
def HasRoom (l : Level) : Connective → Prop
  | .and => l.conjunct = none
  | .or => l = empty

theorem hasRoom_empty (connective : Connective) : empty.HasRoom connective := by
  cases connective <;> rfl

/-- Where there is room, a connective groups to the left. -/
theorem push_push {l : Level} {connective : Connective} (h : l.HasRoom connective) (t u : Tree) :
    (l.push t connective).push u connective = l.push (.logical connective t u) connective := by
  cases connective with
  | and =>
    have hconjunct : l.conjunct = none := h
    simp only [push, conjoin, hconjunct]
  | or =>
    obtain rfl : l = empty := h
    rfl

theorem close_push_empty (connective : Connective) (t u : Tree) :
    (empty.push t connective).close u = .logical connective t u := by
  cases connective <;> rfl

end Level

/-- Where the reader is behind the condition of a predicate: its last operand has been read, and its
last connective waits. -/
def Dialect.behind (d : Dialect) (l : Level) (enclosing : List Level) : Predicate → Reading
  | .comparison path op i => ⟨.connective (d.tree (.comparison path op i)), l, enclosing⟩
  | .logical connective left right =>
    ⟨.connective (d.tree right), l.push (d.tree left) connective, enclosing⟩

/-- The condition of a predicate is read wherever there is room for its last connective. -/
def Dialect.Readable (d : Dialect) (p : Predicate) : Prop :=
  ∀ (l : Level) (enclosing : List Level),
    (∀ connective ∈ topConnective? p, l.HasRoom connective) →
      Reads ⟨.operand, l, enclosing⟩ (predicateTokens d.referenceTokens numberedMark p)
        (d.behind l enclosing p)

theorem step_closing_behind (d : Dialect) (p : Predicate) (l : Level) (enclosing : List Level) :
    (d.behind .empty (l :: enclosing) p).step .closing =
      some ⟨.connective (d.tree p), l, enclosing⟩ := by
  cases p with
  | comparison path op i => rfl
  | logical connective left right =>
    have hclose := Level.close_push_empty connective (d.tree left) (d.tree right)
    exact congrArg (fun t ↦ some (Reading.mk (.connective t) l enclosing)) hclose

/-- In parentheses there is always room. -/
theorem Dialect.Readable.parenthesized {d : Dialect} {p : Predicate} (h : d.Readable p) (l : Level)
    (enclosing : List Level) :
    Reads ⟨.operand, l, enclosing⟩
      (grouped false (predicateTokens d.referenceTokens numberedMark p))
      ⟨.connective (d.tree p), l, enclosing⟩ := by
  have hinner := h .empty (l :: enclosing) fun connective _ ↦ Level.hasRoom_empty connective
  have hopening : Reads ⟨.operand, l, enclosing⟩ [.opening]
      ⟨.operand, .empty, l :: enclosing⟩ := rfl
  exact hopening.append (hinner.append (.cons (step_closing_behind d p l enclosing) .nil))

theorem step_keyword (t : Tree) (l : Level) (enclosing : List Level) (connective : Connective) :
    Reading.step ⟨.connective t, l, enclosing⟩ (.word connective.keyword) =
      some ⟨.operand, l.push t connective, enclosing⟩ := by
  cases connective <;> rfl

/-- A left operand and its connective are read.  Without parentheses the operand is a comparison or
has the same connective, which grouping to the left takes first. -/
theorem reads_left {d : Dialect} {connective : Connective} {left : Predicate} (h : d.Readable left)
    {l : Level} (hroom : l.HasRoom connective) (enclosing : List Level) :
    Reads ⟨.operand, l, enclosing⟩
      (grouped (isBareLeft connective left) (predicateTokens d.referenceTokens numberedMark left) ++
        [.word connective.keyword])
      ⟨.operand, l.push (d.tree left) connective, enclosing⟩ := by
  cases left with
  | comparison path op i =>
    exact (h l enclosing nofun).append (.cons (step_keyword ..) .nil)
  | logical top left right =>
    by_cases htop : top = connective
    · subst htop
      have hbare : isBareLeft top (.logical top left right) = true := by
        simp [isBareLeft, topConnective?]
      have hroom' : ∀ c ∈ topConnective? (.logical top left right), l.HasRoom c := by
        rintro c ⟨⟩
        exact hroom
      rw [hbare, Dialect.tree, ← Level.push_push hroom]
      exact (h l enclosing hroom').append (.cons (step_keyword ..) .nil)
    · have hbare : isBareLeft connective (.logical top left right) = false := by
        simp [isBareLeft, topConnective?, htop]
      rw [hbare]
      exact (h.parenthesized l enclosing).append (.cons (step_keyword ..) .nil)

/-- A right operand is read at every level, being a comparison when it has no parentheses. -/
theorem reads_right {d : Dialect} {right : Predicate} (h : d.Readable right) (l : Level)
    (enclosing : List Level) :
    Reads ⟨.operand, l, enclosing⟩
      (grouped (isBareRight right) (predicateTokens d.referenceTokens numberedMark right))
      ⟨.connective (d.tree right), l, enclosing⟩ := by
  cases right with
  | comparison path op i => exact h l enclosing nofun
  | logical top left right => exact h.parenthesized l enclosing

theorem readable (d : Dialect) (p : Predicate) : d.Readable p := by
  induction p with
  | comparison path op i => exact fun l enclosing _ ↦ reads_comparison d path op i l enclosing
  | logical connective left right ihl ihr =>
    intro l enclosing hroom
    have hleft := reads_left ihl (hroom connective rfl) enclosing
    have hright := reads_right ihr (l.push (d.tree left) connective) enclosing
    rw [predicateTokens, ← List.singleton_append, ← List.append_assoc]
    exact hleft.append hright

/-! ## Clauses -/

/-- The tokens of a clause are those of its condition in parentheses. -/
theorem ofChars?_clause (d : Dialect) (q : PreparedQuery) :
    ofChars? (d.clause q).sql.toList =
      some (grouped false (predicateTokens d.referenceTokens d.markToken q.predicate)) := by
  have hcondition : Splits (d.condition q.predicate).sql.toList
      (predicateTokens d.referenceTokens d.markToken q.predicate) [')'] :=
    splits_condition d q.predicate (by simp)
  have hsplits := splits_parenthesized hcondition
  rw [Splits, List.append_nil, ofChars?] at hsplits
  rw [sql_clause, hsplits]
  exact congrArg some (List.append_nil _)

/-- Placeholders are marked with the numbers of their bindings, in order. -/
theorem number_clause (d : Dialect) (q : PreparedQuery) :
    number 0 (grouped false (predicateTokens d.referenceTokens d.markToken q.predicate)) =
      grouped false (predicateTokens d.referenceTokens numberedMark q.predicate) := by
  have hplaceholders : q.predicate.placeholders = List.range' 0 q.predicate.size := by
    rw [← Predicate.length_placeholders, q.placeholders_eq, List.length_range, List.range_eq_range']
  obtain ⟨seen, -, hnumbers⟩ := numbers_predicateTokens d q.predicate hplaceholders fun _ ↦ rfl
  have hgrouped := hnumbers.grouped false []
  rw [number, List.append_nil, List.append_nil] at hgrouped
  exact hgrouped

/-- **Clauses mean their queries**: whatever a query holds, SQL reads the text of its clause as the
connectives and comparisons of the query, each with its own field and the number of its binding. -/
theorem clause_reads_back (d : Dialect) (q : PreparedQuery) :
    read? (d.clause q).sql = some (d.tree q.predicate) := by
  have hreads := (readable d q.predicate).parenthesized .empty []
  rw [Reads] at hreads
  rw [read?, ofChars?_clause, Option.bind_eq_bind, Option.bind_some, number_clause,
    Reading.initial, hreads]
  rfl

example : read? "\"a\" = ? or \"b\" < ? and \"c\" like ?" =
    some (.logical .or (.comparison (.column "a" []) .equal 1)
      (.logical .and (.comparison (.column "b" []) .lessThan 2)
        (.comparison (.column "c" []) .like 3))) := by decide +kernel

end Sql
end RecordQuery
