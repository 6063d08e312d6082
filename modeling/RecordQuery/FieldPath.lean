/-!
# Field paths

A `FieldPath` names a field of a record, possibly a nested one: its first segment is a column or
top-level key and each further segment goes one level deeper.  No path is empty and no segment is,
and the type carries both facts.

The name of a path has a dot between segments.  `FieldPath.name` writes it and `FieldPath.ofName?`
reads it.

* `name_of_ofName?`: a path has the name it was read from.
* `ofName?_name`: a path without dots inside its segments is read back from its name.
* `ofName?_eq_some_iff`: these are the only paths read from a name.
-/

set_option autoImplicit false

namespace RecordQuery

/-- A non-empty sequence of non-empty segments. -/
structure FieldPath where
  segments : List String
  ne_nil : segments ≠ []
  filled : ∀ s ∈ segments, s ≠ ""
deriving DecidableEq, Repr

namespace FieldPath

@[ext] theorem ext {p q : FieldPath} (h : p.segments = q.segments) : p = q := by
  cases p; cases q; simp_all

/-- The path with these segments, unless there are none or one of them is empty. -/
def ofSegments? (segments : List String) : Option FieldPath :=
  if h : segments ≠ [] ∧ ∀ s ∈ segments, s ≠ "" then some ⟨segments, h.1, h.2⟩ else none

/-- The path whose segments are the pieces of `name` between its dots. -/
def ofName? (name : String) : Option FieldPath :=
  ofSegments? ((name.toList.splitOn '.').map String.ofList)

/-- The column or top-level key. -/
def root (p : FieldPath) : String := p.segments.head p.ne_nil

/-- The segments below the root. -/
def nested (p : FieldPath) : List String := p.segments.tail

/-- The segments with dots between them. -/
def name (p : FieldPath) : String := ".".intercalate p.segments

theorem ofSegments?_eq_some {segments : List String} {p : FieldPath} :
    ofSegments? segments = some p ↔ p.segments = segments := by
  unfold ofSegments?
  split
  · rename_i h
    rw [Option.some.injEq]
    constructor
    · rintro rfl; rfl
    · rintro rfl; rfl
  · rename_i h
    refine ⟨nofun, ?_⟩
    rintro rfl
    exact absurd ⟨p.ne_nil, p.filled⟩ h

theorem root_cons_nested (p : FieldPath) : p.root :: p.nested = p.segments :=
  List.cons_head_tail p.ne_nil

private theorem map_toList_map_ofList (ls : List (List Char)) :
    (ls.map String.ofList).map String.toList = ls := by
  simp [List.map_map, Function.comp_def]

/-- A path has the name it was read from. -/
theorem name_of_ofName? {name : String} {p : FieldPath} (h : ofName? name = some p) :
    p.name = name := by
  rw [← String.toList_inj, FieldPath.name, String.toList_intercalate, ofSegments?_eq_some.1 h,
    map_toList_map_ofList]
  exact List.intercalate_splitOn '.'

/-- A path is read back from its name as long as no segment holds a dot. -/
theorem ofName?_name {p : FieldPath} (h : ∀ s ∈ p.segments, '.' ∉ s.toList) :
    ofName? p.name = some p := by
  rw [ofName?, ofSegments?_eq_some, name, String.toList_intercalate]
  have dot : ".".toList = ['.'] := rfl
  rw [dot, List.splitOn_intercalate]
  · simp [List.map_map, Function.comp_def]
  · simpa using h
  · simpa using p.ne_nil

/-- No piece between two dots holds a dot. -/
theorem dot_notMem_of_mem_splitOn {cs piece : List Char} (h : piece ∈ cs.splitOn '.') :
    '.' ∉ piece := by
  induction cs generalizing piece with
  | nil =>
    rw [List.splitOn_nil, List.mem_singleton] at h
    rw [h]
    exact List.not_mem_nil
  | cons c cs ih =>
    rw [List.splitOn_cons_eq_if_modifyHead] at h
    split at h
    · rcases List.mem_cons.mp h with rfl | h
      · exact List.not_mem_nil
      · exact ih h
    · rename_i hc
      obtain ⟨first, others, hsplit⟩ := List.exists_cons_of_ne_nil (List.splitOn_ne_nil '.' cs)
      rw [hsplit, List.modifyHead_cons, List.mem_cons] at h
      rcases h with rfl | h
      · have hfirst : '.' ∉ first := ih (hsplit ▸ List.mem_cons_self)
        have hdot : '.' ≠ c := fun e ↦ hc (by rw [e]; exact BEq.refl c)
        exact List.not_mem_cons_of_ne_of_not_mem hdot hfirst
      · exact ih (hsplit ▸ List.mem_cons_of_mem _ h)

/-- The paths that are read from a name are those without a dot inside a segment, each from its own
name. -/
theorem ofName?_eq_some_iff {name : String} {p : FieldPath} :
    ofName? name = some p ↔ p.name = name ∧ ∀ s ∈ p.segments, '.' ∉ s.toList := by
  constructor
  · intro h
    refine ⟨name_of_ofName? h, fun s hs ↦ ?_⟩
    rw [ofSegments?_eq_some.1 h] at hs
    obtain ⟨piece, hpiece, rfl⟩ := List.mem_map.mp hs
    rw [String.toList_ofList]
    exact dot_notMem_of_mem_splitOn hpiece
  · rintro ⟨rfl, hdots⟩
    exact ofName?_name hdots

end FieldPath
end RecordQuery
