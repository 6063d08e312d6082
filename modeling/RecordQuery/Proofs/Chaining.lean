import RecordQuery.Command.Answer
import RecordQuery.Proofs.Composition
import RecordQuery.Proofs.Json.RoundTrip
import RecordQuery.Proofs.Selection
import RecordQuery.Proofs.Stages

/-!
# Filters in a row

What one filter prints is JSON again and can be the input of the next one.  Two filters in a row
find what one filter finds that asks for both conditions at once.

* *The records.*  A filter prints an array of records that it has read, so they fit, and a reader
  that can be relied on reads them back (`readRecords_outcomeLine`).  Only a single record gets one
  container deeper this way.
* *The query.*  Two texts in parentheses with `AND` between them accept what both accept
  (`run_filter_both`), and a pattern that is refused in one of them is refused in both together.

`filter_filter` puts these together.
-/

set_option autoImplicit false

namespace RecordQuery

/-! ## The records -/

section

variable {reader : Json.Reader} (hreader : reader.Lawful)

include hreader

/-- The records of an input fit into the array they are printed in.  Those of an array fitted into
one before; an object needs room for one container more. -/
theorem fits_of_readRecords {input : String} {records : List Json}
    (h : readRecords reader input = .ok records) (p : Json → Bool) :
    (Json.array (records.filter p)).Ordered ∧
      ((∀ members, reader.read input = .ok (.object members) →
        (Json.object members).depth < Json.maxDepth) →
          (Json.array (records.filter p)).depth ≤ Json.maxDepth) := by
  rw [readRecords] at h
  split at h
  · cases h
  rename_i v hread
  have hfits := hreader.fits hread
  cases v with
  | array items =>
    cases h
    obtain ⟨hlevel, hitems⟩ := Json.fits_array_iff.mp hfits
    have hfits' : (Json.array (records.filter p)).Fits 0 :=
      Json.fits_array_iff.mpr ⟨hlevel, fun item hitem ↦ hitems item (List.mem_of_mem_filter hitem)⟩
    exact ⟨hfits'.1, fun _ ↦ hfits'.2⟩
  | object members =>
    cases h
    have hitem : ∀ item ∈ [Json.object members].filter p, item = Json.object members :=
      fun item hitem ↦ List.mem_singleton.mp (List.mem_of_mem_filter hitem)
    refine ⟨.array fun item h ↦ hitem item h ▸ hfits.1, fun hdepth ↦ ?_⟩
    have hroom : (Json.object members).Fits 1 := ⟨hfits.1, hdepth members hread⟩
    exact (Json.fits_array_iff.mpr ⟨by decide, fun item h ↦ hitem item h ▸ hroom⟩).2
  | null | bool | number | string => cases h

/-- What is printed is read back. -/
theorem readRecords_outcomeLine {records : List Json} (h : (Json.array records).Fits 0)
    (pretty : Bool) :
    readRecords reader (Command.outcomeLine pretty (.json (.array records))) = .ok records := by
  rw [readRecords, Command.outcomeLine, hreader.read_line h]
  rfl

end

/-! ## The query -/

section

variable {engine : Regex.Engine} {made made' : Except SelectionError (Selector engine)}

/-- How a filter ends that has read the records, by what comes of its query. -/
def Task.found (records : List Json) :
    Except SelectionError (Selector engine) → Except Failure Outcome
  | .error err => .error (.selection err)
  | .ok s => .ok (.json (.array (records.filter s.accepts)))

/-- A filter ends as its tree says, however the selector is made. -/
theorem Task.found_congr {e : Expr} (h : e.Makes made) (h' : e.Makes made') (records : List Json) :
    found records made = found records made' := by
  cases made with
  | error err =>
    cases made' with
    | error err' => rw [Option.some.inj (h.symm.trans h')]
    | ok s' => cases h.symm.trans h'.1
  | ok s =>
    cases made' with
    | error err' => cases h'.symm.trans h.1
    | ok s' =>
      have haccepts : ∀ record, s.accepts record = s'.accepts record := fun record ↦
        Bool.eq_iff_iff.mpr ((h.2 record).trans (h'.2 record).symm)
      rw [found, found, funext haccepts]

variable (s : Selector engine) (records : List Json)

/-- What passes `s` is searched on as if both had been asked for, `s` first. -/
theorem Task.found_filter_left (made : Except SelectionError (Selector engine)) :
    found (records.filter s.accepts) made = found records (do
      let t ← made
      .ok (.logical .and s t)) := by
  cases made with
  | error err => rfl
  | ok t =>
    have hfilter : (records.filter s.accepts).filter t.accepts =
        records.filter (Selector.logical .and s t).accepts := by
      rw [List.filter_filter]
      exact List.filter_congr fun record _ ↦ Bool.and_comm _ _
    exact congrArg (fun found ↦ Except.ok (Outcome.json (.array found))) hfilter

/-- It makes no difference which of two selectors is asked first. -/
theorem Task.found_filter_right (made : Except SelectionError (Selector engine)) :
    found (records.filter s.accepts) made = found records (do
      let t ← made
      .ok (.logical .and t s)) := by
  cases made with
  | error err => rfl
  | ok t =>
    have hfilter : (records.filter s.accepts).filter t.accepts =
        records.filter (Selector.logical .and t s).accepts := List.filter_filter
    exact congrArg (fun found ↦ Except.ok (Outcome.json (.array found))) hfilter

end

section

variable {libs : Libraries} {text input : String} {q : PreparedQuery} {records : List Json}

/-- A filter keeps the records that its query accepts. -/
theorem run_filter (hq : (prepareText text).result = .ok q)
    (h : readRecords libs.json input = .ok records) :
    ((Task.filter (some input)).run libs text).result =
      Task.found records (q.selector libs.regex) := by
  have hprepared : prepareText text = ⟨.ok q, (prepareText text).events⟩ := Logged.ext hq rfl
  cases hselector : q.selector libs.regex with
  | error err => rw [Task.run_filter_of_refused hprepared h hselector, Task.found]
  | ok s => rw [Task.run_filter_of_ok hprepared h hselector, Task.found]

/-- A filter can work on what another filter has printed. -/
theorem run_filter_outcomeLine (hreader : libs.json.Lawful) (hq : (prepareText text).result = .ok q)
    (h : (Json.array records).Fits 0) (pretty : Bool) :
    ((Task.filter (some (Command.outcomeLine pretty (.json (.array records))))).run libs
      text).result = Task.found records (q.selector libs.regex) :=
  run_filter hq (readRecords_outcomeLine hreader h pretty)

/-- Two queries in parentheses with `AND` between them are both made ready, the first one first, and
accept what both accept. -/
theorem run_filter_both {text₁ text₂ : String} {q₁ q₂ : PreparedQuery}
    (h₁ : (prepareText text₁).result = .ok q₁) (h₂ : (prepareText text₂).result = .ok q₂)
    (h : readRecords libs.json input = .ok records) :
    ((Task.filter (some input)).run libs ("(" ++ text₁ ++ ") AND (" ++ text₂ ++ ")")).result =
      Task.found records (do
        let s ← q₁.selector libs.regex
        let t ← q₂.selector libs.regex
        .ok (.logical .and s t)) := by
  obtain ⟨e₁, hparse₁, hprepare₁⟩ := prepareText_eq_ok_iff.mp h₁
  obtain ⟨e₂, hparse₂, hprepare₂⟩ := prepareText_eq_ok_iff.mp h₂
  obtain ⟨q, hprepare, -⟩ := Expr.prepare_logical_grouping .and hprepare₁ hprepare₂
  have hparse := Grammar.parse_connected .and hparse₁ hparse₂
  have htext : "(" ++ text₁ ++ ") AND (" ++ text₂ ++ ")" =
      "(" ++ text₁ ++ ") " ++ Connective.and.written ++ " (" ++ text₂ ++ ")" := by
    simp [Connective.written, String.append_assoc]
  rw [← htext] at hparse
  rw [run_filter (prepareText_eq_ok_iff.mpr ⟨_, hparse, hprepare⟩) h]
  have hmakes₁ : e₁.grouping.Makes (q₁.selector libs.regex) := makes_of_prepare hprepare₁
  have hmakes₂ : e₂.grouping.Makes (q₂.selector libs.regex) := makes_of_prepare hprepare₂
  exact Task.found_congr (makes_of_prepare hprepare)
    (Selector.makes_logical .and hmakes₁ hmakes₂) records

end

/-! ## Filters in a row -/

/-- What a filter has printed can be searched on, by itself and by another one. -/
theorem filter_outcomeLine {libs : Libraries} (hreader : libs.json.Lawful)
    {text next input : String} {q r : PreparedQuery} {records : List Json}
    (hq : (prepareText text).result = .ok q) (hr : (prepareText next).result = .ok r)
    (hinput : readRecords libs.json input = .ok records) {s : Selector libs.regex}
    (hs : q.selector libs.regex = .ok s) :
    let filter (text input : String) := ((Task.filter (some input)).run libs text).result
    let found := Json.array (records.filter s.accepts)
    filter text input = .ok (.json found) ∧
      ((∀ members, libs.json.read input = .ok (.object members) →
          (Json.object members).depth < Json.maxDepth) → found.depth ≤ Json.maxDepth) ∧
      (found.depth ≤ Json.maxDepth → ∀ pretty,
        filter next (Command.outcomeLine pretty (.json found)) =
            Task.found (records.filter s.accepts) (r.selector libs.regex) ∧
          filter text (Command.outcomeLine pretty (.json found)) = .ok (.json found)) := by
  intro filter found
  obtain ⟨hordered, hdepth⟩ := fits_of_readRecords hreader hinput s.accepts
  refine ⟨?_, hdepth, fun hroom pretty ↦ ⟨?_, ?_⟩⟩
  · dsimp only [filter]
    rw [run_filter hq hinput, hs]
    rfl
  · exact run_filter_outcomeLine hreader hr ⟨hordered, hroom⟩ pretty
  · have hagain : (records.filter s.accepts).filter s.accepts = records.filter s.accepts := by
      rw [List.filter_filter]
      simp only [Bool.and_self]
    dsimp only [filter, found]
    rw [run_filter_outcomeLine hreader hq ⟨hordered, hroom⟩ pretty, hs, Task.found, hagain]

/-- **Filters in a row ask for both conditions**: what the second one finds in the output of the
first is what a single filter finds with both texts in parentheses and `AND` between them.  It does
not matter which of the two comes first or how the output is laid out, records keep their order and
are kept as often as they are there, and a filter finds everything in its own output.  The output
must not nest too deep to be read again, and it does so only for a single object that nests as deep
as can be read.  If a pattern of one of the texts is refused, neither way has a result. -/
theorem filter_filter {libs : Libraries} (hreader : libs.json.Lawful)
    {text₁ text₂ input : String} {q₁ q₂ : PreparedQuery} {records : List Json}
    (h₁ : (prepareText text₁).result = .ok q₁) (h₂ : (prepareText text₂).result = .ok q₂)
    (hinput : readRecords libs.json input = .ok records) :
    let filter (text input : String) := ((Task.filter (some input)).run libs text).result
    let both := "(" ++ text₁ ++ ") AND (" ++ text₂ ++ ")"
    (∀ s₁, q₁.selector libs.regex = .ok s₁ →
      let first := Json.array (records.filter s₁.accepts)
      filter text₁ input = .ok (.json first) ∧
        ((∀ members, libs.json.read input = .ok (.object members) →
            (Json.object members).depth < Json.maxDepth) → first.depth ≤ Json.maxDepth) ∧
        (first.depth ≤ Json.maxDepth → ∀ pretty,
          filter text₂ (Command.outcomeLine pretty (.json first)) = filter both input ∧
            filter text₁ (Command.outcomeLine pretty (.json first)) = .ok (.json first))) ∧
      (∀ s₂, q₂.selector libs.regex = .ok s₂ →
        let second := Json.array (records.filter s₂.accepts)
        filter text₂ input = .ok (.json second) ∧
          ((∀ members, libs.json.read input = .ok (.object members) →
              (Json.object members).depth < Json.maxDepth) → second.depth ≤ Json.maxDepth) ∧
          (second.depth ≤ Json.maxDepth → ∀ pretty,
            filter text₁ (Command.outcomeLine pretty (.json second)) = filter both input ∧
              filter text₂ (Command.outcomeLine pretty (.json second)) = .ok (.json second))) ∧
      match q₁.selector libs.regex, q₂.selector libs.regex with
      | .ok s₁, .ok s₂ =>
        filter both input = .ok (.json (.array
          (records.filter fun record ↦ s₁.accepts record && s₂.accepts record)))
      | .ok _, .error err =>
        filter text₂ input = .error (.selection err) ∧ filter both input = .error (.selection err)
      | .error err, _ =>
        filter text₁ input = .error (.selection err) ∧
          filter both input = .error (.selection err) := by
  intro filter both
  have hboth : filter both input = _ := run_filter_both h₁ h₂ hinput
  refine ⟨fun s₁ hs₁ ↦ ?_, fun s₂ hs₂ ↦ ?_, ?_⟩
  · obtain ⟨hfirst, hdepth, hnext⟩ := filter_outcomeLine hreader h₁ h₂ hinput hs₁
    refine ⟨hfirst, hdepth, fun hroom pretty ↦ ⟨(hnext hroom pretty).1.trans ?_,
      (hnext hroom pretty).2⟩⟩
    rw [hboth, hs₁]
    exact Task.found_filter_left s₁ records _
  · obtain ⟨hsecond, hdepth, hnext⟩ := filter_outcomeLine hreader h₂ h₁ hinput hs₂
    refine ⟨hsecond, hdepth, fun hroom pretty ↦ ⟨(hnext hroom pretty).1.trans ?_,
      (hnext hroom pretty).2⟩⟩
    rw [hboth, hs₂]
    exact Task.found_filter_right s₂ records _
  · have hfilter₁ : filter text₁ input = _ := run_filter h₁ hinput
    have hfilter₂ : filter text₂ input = _ := run_filter h₂ hinput
    rw [hboth, hfilter₁, hfilter₂]
    cases q₁.selector libs.regex with
    | error err => exact ⟨rfl, rfl⟩
    | ok s₁ =>
      cases q₂.selector libs.regex with
      | error err => exact ⟨rfl, rfl⟩
      | ok s₂ => rfl

/-- Of three records the first filter prints two that are the same, and the second one keeps
both. -/
theorem filter_filter_taylor :
    let filter (text input : String) := ((Task.filter (some input)).run .builtIn text).result
    filter "age < 40"
        "[\x7b\"age\":30,\"name\":\"Taylor\"\x7d,\x7b\"age\":30,\"name\":\"Taylor\"\x7d]\n" =
        .ok (.json (.array [sampleRecord "Taylor", sampleRecord "Taylor"])) ∧
      filter "(name != \"Troy\") AND (age < 40)" (Command.outcomeLine true (.json (.array
          [sampleRecord "Taylor", sampleRecord "Troy", sampleRecord "Taylor"]))) =
        .ok (.json (.array [sampleRecord "Taylor", sampleRecord "Taylor"])) := by
  intro filter
  let q₁ : PreparedQuery :=
    ⟨.comparison ⟨["name"], by decide, by decide⟩ .notEqual 0, [.string "Troy"], by decide⟩
  let q₂ : PreparedQuery :=
    ⟨.comparison ⟨["age"], by decide, by decide⟩ .lessThan 0, [.integer 40], by decide⟩
  have h₁ : (prepareText "name != \"Troy\"").result = .ok q₁ := by decide +kernel
  have h₂ : (prepareText "age < 40").result = .ok q₂ := by decide +kernel
  let s₁ : Selector Libraries.builtIn.regex :=
    .compare ⟨["name"], by decide, by decide⟩ .notEqual (.string "Troy")
  let s₂ : Selector Libraries.builtIn.regex :=
    .compare ⟨["age"], by decide, by decide⟩ .lessThan (.integer 40)
  have hs₁ : q₁.selector Libraries.builtIn.regex = .ok s₁ := rfl
  have hs₂ : q₂.selector Libraries.builtIn.regex = .ok s₂ := rfl
  have hsample : ∀ name, (sampleRecord name).Fits 1 := by
    intro name
    have hnames : "age" < "name" := String.lt_iff_toList_lt.mpr (by decide)
    have hdepth : 0 + 2 ≤ Json.maxDepth := by decide
    refine Json.fits_object_iff.mpr ⟨by decide, List.pairwise_pair.mpr hnames, ?_⟩
    simp only [List.forall_mem_cons]
    exact ⟨⟨.number _, hdepth⟩, ⟨.string _, hdepth⟩, fun _ h ↦ (nomatch h)⟩
  have hfits : (Json.array
      [sampleRecord "Taylor", sampleRecord "Troy", sampleRecord "Taylor"]).Fits 0 :=
    Json.fits_array_iff.mpr ⟨by decide, by simp [hsample]⟩
  have htaylor : s₁.accepts (sampleRecord "Taylor") = true ∧
      s₂.accepts (sampleRecord "Taylor") = true := by decide +kernel
  have htroy : s₁.accepts (sampleRecord "Troy") = false := by decide +kernel
  have hreader : Libraries.builtIn.json.Lawful := Json.Reader.exact_lawful
  obtain ⟨hchain, -, hand⟩ :=
    filter_filter hreader h₁ h₂ (readRecords_outcomeLine hreader hfits true)
  have hfirst := hchain s₁ hs₁
  rw [hs₁, hs₂] at hand
  simp only [List.filter_cons, List.filter_nil, htaylor, htroy] at hfirst hand
  have hprinted : Command.outcomeLine false
      (.json (.array [sampleRecord "Taylor", sampleRecord "Taylor"])) =
        "[\x7b\"age\":30,\"name\":\"Taylor\"\x7d,\x7b\"age\":30,\"name\":\"Taylor\"\x7d]\n" := by
    decide +kernel
  rw [← hprinted]
  exact ⟨((hfirst.2.2 (by decide) false).1).trans hand, hand⟩

end RecordQuery
