import RecordQuery.Backend
import Mathlib.Data.List.Forall2
import Mathlib.Data.List.Nodup

/-!
# The order of the calls

`PreparedQuery.foldM` drives a backend, which may keep a state and may fail at any call.  What it is
asked for can be said in advance: the calls are listed by `Predicate.steps`, where a call that
connects two filters names them by the positions of the calls that made them.  A build goes through
this list from the front and stops behind the first call that fails.

* `Step`, `Predicate.steps`: the calls that a predicate asks for, before any is answered.
* `Backend.recording`: a backend that notes each call and what came back, and is the same otherwise.
* `Follows`: the calls made are the first ones of the list, each with the results it names.
* `follows_foldM`: the step of the induction.  A predicate is built behind calls that have been made
  for others, so positions are counted from any number on.
* `build_follows`: a build from its first call to its last.
-/

set_option autoImplicit false

namespace RecordQuery

universe u

/-! ## Calls in advance -/

/-- A call, before it is known what the earlier ones return. -/
inductive Step where
  /-- the filter of a comparison, with the literal bound to the placeholder -/
  | comparison (path : FieldPath) (op : Comparator) (placeholder : Nat)
  /-- what connects the results of two earlier calls, given by their positions -/
  | connect (connective : Connective) (left right : Nat)
deriving DecidableEq, Repr

namespace Step

/-- The placeholder of a comparison. -/
def placeholder? : Step → Option Nat
  | comparison _ _ i => some i
  | connect .. => none

/-- The positions of the calls whose results are taken. -/
def operands : Step → List Nat
  | comparison .. => []
  | connect _ left right => [left, right]

/-- Whether the step is the one for a node of a predicate and its position: a comparison is asked
for as it is, and a connective with the positions of its two operands, which come before. -/
def IsFor (nodes : List Predicate) (step : Step) (node : Predicate × Nat) : Prop :=
  match node.1 with
  | .comparison path op i => step = comparison path op i
  | .logical connective left right =>
    ∃ l r, step = connect connective l r ∧ l < node.2 ∧ r < node.2 ∧
      nodes[l]? = some left ∧ nodes[r]? = some right

end Step

namespace Predicate

/-- The predicate and all that it is made of, operands before their connective and left ones before
right ones. -/
def nodes : Predicate → List Predicate
  | comparison path op i => [comparison path op i]
  | logical connective left right => left.nodes ++ right.nodes ++ [logical connective left right]

/-- The calls for a predicate, when its first one has position `first`. -/
def steps (first : Nat) : Predicate → List Step
  | comparison path op i => [.comparison path op i]
  | logical connective left right =>
    let ls := left.steps first
    let rs := right.steps (first + ls.length)
    ls ++ rs ++ [.connect connective (first + ls.length - 1) (first + ls.length + rs.length - 1)]

/-- There is one call for each comparison, and one less for what connects them. -/
theorem length_steps (p : Predicate) (first : Nat) : (p.steps first).length + 1 = 2 * p.size := by
  induction p generalizing first with
  | comparison path op i => rfl
  | logical connective left right ihl ihr =>
    have hl := ihl first
    have hr := ihr (first + (left.steps first).length)
    simp only [steps, size, List.length_append, List.length_singleton]
    omega

theorem length_nodes (p : Predicate) (first : Nat) : p.nodes.length = (p.steps first).length := by
  induction p generalizing first with
  | comparison path op i => rfl
  | logical connective left right ihl ihr =>
    simp only [nodes, steps, List.length_append, List.length_singleton]
    rw [ihl first, ihr (first + (left.steps first).length)]

/-- The predicate itself comes last. -/
theorem getLast?_nodes (p : Predicate) : p.nodes.getLast? = some p := by
  cases p <;> simp [nodes]

theorem length_steps_pos (p : Predicate) (first : Nat) : 0 < (p.steps first).length := by
  rw [← p.length_nodes first]
  refine List.length_pos_iff.mpr fun h ↦ ?_
  simpa [h] using p.getLast?_nodes

/-- Wherever the nodes of a predicate stand, its own node is the last one of them. -/
theorem getElem?_nodes (p : Predicate) (before after : List Predicate) (first : Nat) :
    (before ++ p.nodes ++ after)[before.length + (p.steps first).length - 1]? = some p := by
  have hpos := p.length_steps_pos first
  have hlast : p.nodes[(p.steps first).length - 1]? = some p := by
    rw [← p.length_nodes first, ← List.getLast?_eq_getElem?]
    exact p.getLast?_nodes
  rw [List.append_assoc, List.getElem?_append_right (by omega), Nat.add_sub_assoc hpos,
    Nat.add_sub_cancel_left, List.getElem?_append_left (by rw [p.length_nodes first]; omega)]
  exact hlast

theorem filterMap_placeholder?_steps (p : Predicate) (first : Nat) :
    (p.steps first).filterMap Step.placeholder? = p.placeholders := by
  induction p generalizing first with
  | comparison path op i => rfl
  | logical connective left right ihl ihr =>
    simp [steps, placeholders, Step.placeholder?, ihl, ihr]

theorem range'_eq_concat {first n : Nat} (h : 0 < n) :
    List.range' first n = List.range' first (n - 1) ++ [first + n - 1] := by
  obtain ⟨m, rfl⟩ := Nat.exists_eq_succ_of_ne_zero (Nat.ne_of_gt h)
  exact List.range'_1_concat

/-- Every result but the last one is taken once, by the connective above it. -/
theorem perm_operands_steps (p : Predicate) (first : Nat) :
    ((p.steps first).flatMap Step.operands).Perm
      (List.range' first ((p.steps first).length - 1)) := by
  induction p generalizing first with
  | comparison path op i => exact .rfl
  | logical connective left right ihl ihr =>
    have hl := ihl first
    have hr := ihr (first + (left.steps first).length)
    have hlpos := left.length_steps_pos first
    have hrpos := right.length_steps_pos (first + (left.steps first).length)
    simp only [steps, List.flatMap_append, List.length_append, List.length_singleton,
      List.flatMap_singleton, Step.operands, Nat.add_sub_cancel]
    rw [← List.range'_append_1, range'_eq_concat hlpos, range'_eq_concat hrpos, List.append_assoc,
      List.append_assoc]
    -- the two results that are left over are those of the operands
    exact hl.append ((hr.append_right _).trans List.perm_middle)

/-- The steps are those for the nodes, in their order. -/
theorem steps_isFor (p : Predicate) (before after : List Predicate) :
    List.Forall₂ (Step.IsFor (before ++ p.nodes ++ after)) (p.steps before.length)
      (p.nodes.zipIdx before.length) := by
  induction p generalizing before after with
  | comparison path op i => exact .cons rfl .nil
  | logical connective left right ihl ihr =>
    have hlength := left.length_nodes before.length
    have hlpos := left.length_steps_pos before.length
    have hrpos := right.length_steps_pos (before.length + (left.steps before.length).length)
    have hl := ihl before (right.nodes ++ [logical connective left right] ++ after)
    have hr := ihr (before ++ left.nodes) ([logical connective left right] ++ after)
    have hleft := left.getElem?_nodes before
      (right.nodes ++ [logical connective left right] ++ after) before.length
    have hright := right.getElem?_nodes (before ++ left.nodes)
      ([logical connective left right] ++ after)
      (before.length + (left.steps before.length).length)
    have hall : before ++ (logical connective left right).nodes ++ after =
        before ++ left.nodes ++ (right.nodes ++ [logical connective left right] ++ after) := by
      simp [nodes]
    have hall' : before ++ (logical connective left right).nodes ++ after =
        before ++ left.nodes ++ right.nodes ++ ([logical connective left right] ++ after) := by
      simp [nodes]
    rw [← hall] at hl hleft
    rw [← hall', List.length_append, hlength] at hr hright
    simp only [steps]
    rw [nodes, List.zipIdx_append, List.zipIdx_append, hlength, List.length_append, hlength,
      right.length_nodes (before.length + (left.steps before.length).length)]
    refine List.rel_append (List.rel_append hl hr) (.cons ?_ .nil)
    exact ⟨_, _, rfl, by dsimp only; omega, by dsimp only; omega, hleft, hright⟩

/-- What is connected comes before what connects it, however far before. -/
example (a b c : FieldPath) :
    (logical .or (logical .and (comparison a .equal 0) (comparison b .equal 1))
      (comparison c .equal 2)).steps 0 =
    [.comparison a .equal 0, .comparison b .equal 1, .connect .and 0 1, .comparison c .equal 2,
      .connect .or 2 3] := rfl

theorem placeholders_ne_nil (p : Predicate) : p.placeholders ≠ [] := by
  induction p with
  | comparison path op i => exact List.cons_ne_nil _ _
  | logical connective left right ihl ihr => exact List.append_ne_nil_of_left_ne_nil ihl _

theorem size_pos (p : Predicate) : 0 < p.size := by
  rw [← p.length_placeholders]
  exact List.length_pos_iff.mpr p.placeholders_ne_nil

variable {p node : Predicate}

theorem placeholders_subset_of_mem_nodes (h : node ∈ p.nodes) :
    node.placeholders ⊆ p.placeholders := by
  induction p with
  | comparison path op i =>
    rw [List.mem_singleton.mp h]
    exact List.Subset.refl _
  | logical connective left right ihl ihr =>
    simp only [nodes, List.mem_append, List.mem_singleton] at h
    rcases h with (h | h) | rfl
    · exact List.subset_append_of_subset_left _ (ihl h)
    · exact List.subset_append_of_subset_right _ (ihr h)
    · exact List.Subset.refl _

theorem size_le_of_mem_nodes (h : node ∈ p.nodes) : node.size ≤ p.size := by
  induction p with
  | comparison path op i => exact Nat.le_of_eq (congrArg size (List.mem_singleton.mp h))
  | logical connective left right ihl ihr =>
    simp only [nodes, List.mem_append, List.mem_singleton] at h
    rcases h with (h | h) | rfl
    · exact Nat.le_trans (ihl h) (Nat.le_add_right _ _)
    · exact Nat.le_trans (ihr h) (Nat.le_add_left _ _)
    · exact Nat.le_refl _

/-- No node stands at two positions, because no placeholder does. -/
theorem nodup_nodes (h : p.placeholders.Nodup) : p.nodes.Nodup := by
  induction p with
  | comparison path op i => exact List.nodup_singleton _
  | logical connective left right ihl ihr =>
    obtain ⟨hl, hr, hdisjoint⟩ := List.nodup_append'.mp h
    have hroot : logical connective left right ∉ left.nodes ++ right.nodes := by
      have hlpos := left.size_pos
      have hrpos := right.size_pos
      intro hmem
      rcases List.mem_append.mp hmem with hmem | hmem
      · have hle := size_le_of_mem_nodes hmem
        simp only [size] at hle
        omega
      · have hle := size_le_of_mem_nodes hmem
        simp only [size] at hle
        omega
    have hnodes : left.nodes.Disjoint right.nodes := by
      intro node hleft hright
      obtain ⟨i, hi⟩ := List.exists_mem_of_ne_nil _ node.placeholders_ne_nil
      exact hdisjoint (placeholders_subset_of_mem_nodes hleft hi)
        (placeholders_subset_of_mem_nodes hright hi)
    rw [nodes, List.nodup_append']
    refine ⟨List.nodup_append'.mpr ⟨ihl hl, ihr hr, hnodes⟩, List.nodup_singleton _, ?_⟩
    exact List.disjoint_singleton.mpr hroot

end Predicate

/-! ## Backends with a state -/

/-- Computations with a state that may fail and keep the state even then. -/
abbrev Build (σ ε : Type u) : Type u → Type u := ExceptT ε (StateM σ)

variable {σ ε φ α β : Type u}

/-- How a computation ends that starts in the state `s`. -/
def outcomeFrom (s : σ) (x : Build σ ε α) : Except ε α × σ := (ExceptT.run x).run s

theorem outcomeFrom_bind (s : σ) (x : Build σ ε α) (f : α → Build σ ε β) :
    outcomeFrom s (x >>= f) =
      match outcomeFrom s x with
      | (.ok a, s') => outcomeFrom s' (f a)
      | (.error e, s') => (.error e, s') := by
  simp only [outcomeFrom, ExceptT.run_bind, StateT.run_bind]
  change (match (ExceptT.run x).run s with | (r, s') => _) = _
  rcases (ExceptT.run x).run s with ⟨_ | _, s'⟩ <;> rfl

theorem outcomeFrom_bind_of_ok {s s' : σ} {x : Build σ ε α} {a : α} (f : α → Build σ ε β)
    (h : outcomeFrom s x = (.ok a, s')) : outcomeFrom s (x >>= f) = outcomeFrom s' (f a) := by
  rw [outcomeFrom_bind, h]

theorem outcomeFrom_bind_of_error {s s' : σ} {x : Build σ ε α} {e : ε} (f : α → Build σ ε β)
    (h : outcomeFrom s x = (.error e, s')) : outcomeFrom s (x >>= f) = (.error e, s') := by
  rw [outcomeFrom_bind, h]

/-- What a backend is asked for. -/
inductive Call (φ : Type u) where
  | comparison (path : FieldPath) (op : Comparator) (placeholder : Nat) (value : Literal)
  | connect (connective : Connective) (left right : φ)

/-- A call that has been made, and what came back. -/
structure Exchange (ε φ : Type u) where
  call : Call φ
  answer : Except ε φ

namespace Backend

/-- Makes a call. -/
def make {m : Type u → Type u} (b : Backend m φ) : Call φ → m φ
  | .comparison path op i value => b.comparison path op i value
  | .connect connective left right => b.connect connective left right

/-- Makes a call and notes it behind those that have been made. -/
def note (b : Backend (Build σ ε) φ) (call : Call φ) : Build (σ × List (Exchange ε φ)) ε φ :=
  .mk fun s ↦
    let r := outcomeFrom s.1 (b.make call)
    (r.1, r.2, s.2 ++ [⟨call, r.1⟩])

/-- The backend that makes the same filters and notes each call. -/
def recording (b : Backend (Build σ ε) φ) : Backend (Build (σ × List (Exchange ε φ)) ε) φ where
  comparison path op i value := b.note (.comparison path op i value)
  connect connective left right := b.note (.connect connective left right)

theorem outcomeFrom_note (b : Backend (Build σ ε) φ) (call : Call φ) (s : σ)
    (made : List (Exchange ε φ)) :
    outcomeFrom (s, made) (b.note call) =
      ((outcomeFrom s (b.make call)).1, (outcomeFrom s (b.make call)).2,
        made ++ [⟨call, (outcomeFrom s (b.make call)).1⟩]) :=
  rfl

end Backend

/-! ## Following the steps -/

/-- The result of the call at a position, when it has been made and has not failed. -/
def resultAt (made : List (Exchange ε φ)) (i : Nat) : Option φ :=
  made[i]?.bind fun x ↦ x.answer.toOption

/-- The call that a step asks for, given the results of the earlier ones. -/
def Step.call? (bindings : List Literal) (results : Nat → Option φ) : Step → Option (Call φ)
  | comparison path op i => bindings[i]?.map (.comparison path op i)
  | connect connective l r => do
    let left ← results l
    let right ← results r
    return .connect connective left right

/-- The calls `made` behind the ones `before` are those of `steps`, up to the first that fails, and
the last of them decides the result. -/
structure Follows (bindings : List Literal) (steps : List Step) (before made : List (Exchange ε φ))
    (result : Except ε φ) : Prop where
  /-- The calls are the first ones of the steps, each with the results that its step names. -/
  calls : List.Forall₂
    (fun step x ↦ step.call? bindings (resultAt (before ++ made)) = some x.call)
    (steps.take made.length) made
  /-- Nothing is called behind a failure. -/
  succeeds : ∀ x ∈ made.dropLast, ∃ y, x.answer = .ok y
  /-- The last answer is passed on as it is. -/
  last : made.getLast?.map Exchange.answer = some result
  /-- Without a failure no step is left out. -/
  complete : ∀ y, result = .ok y → made.length = steps.length

theorem resultAt_append {before made : List (Exchange ε φ)} {i : Nat} {y : φ}
    (h : resultAt before i = some y) : resultAt (before ++ made) i = some y := by
  obtain ⟨x, hx, hy⟩ := Option.bind_eq_some_iff.mp h
  have hlt := (List.getElem?_eq_some_iff.mp hx).1
  rw [resultAt, List.getElem?_append_left hlt, hx]
  exact hy

/-- What a step asks for does not change when more calls are made. -/
theorem Step.call?_append {bindings : List Literal} {before made : List (Exchange ε φ)}
    {step : Step} {call : Call φ} (h : step.call? bindings (resultAt before) = some call) :
    step.call? bindings (resultAt (before ++ made)) = some call := by
  cases step with
  | comparison path op i => exact h
  | connect connective l r =>
    obtain ⟨left, hleft, h⟩ := Option.bind_eq_some_iff.mp h
    obtain ⟨right, hright, h⟩ := Option.bind_eq_some_iff.mp h
    rw [call?, resultAt_append hleft, resultAt_append hright]
    exact h

namespace Follows

variable {bindings : List Literal} {steps steps' : List Step}
  {before made made' : List (Exchange ε φ)} {result : Except ε φ} {y : φ}

/-- One call. -/
theorem single {step : Step} {x : Exchange ε φ}
    (h : step.call? bindings (resultAt before) = some x.call) :
    Follows bindings [step] before [x] x.answer :=
  ⟨.cons (Step.call?_append h) .nil, by simp, rfl, fun _ _ ↦ rfl⟩

/-- Behind a failure the other steps are not looked at. -/
theorem of_error {e : ε} (h : Follows bindings steps before made (.error e)) (more : List Step) :
    Follows bindings (steps ++ more) before made (.error e) := by
  have hlength : made.length ≤ steps.length := by
    have hlength := h.calls.length_eq
    rw [List.length_take] at hlength
    omega
  refine ⟨?_, h.succeeds, h.last, nofun⟩
  rw [List.take_append_of_le_length hlength]
  exact h.calls

theorem ne_nil (h : Follows bindings steps before made result) : made ≠ [] := by
  intro hnil
  have hlast := h.last
  rw [hnil] at hlast
  cases hlast

/-- Without a failure no answer is one. -/
theorem answers (h : Follows bindings steps before made (.ok y)) :
    ∀ x ∈ made, ∃ y, x.answer = .ok y := by
  intro x hx
  rw [← List.dropLast_append_getLast h.ne_nil, List.mem_append, List.mem_singleton] at hx
  rcases hx with hx | rfl
  · exact h.succeeds x hx
  · have hlast := h.last
    rw [List.getLast?_eq_some_getLast h.ne_nil] at hlast
    exact ⟨y, Option.some.inj hlast⟩

/-- Without a failure the next steps are followed from there. -/
theorem append (h : Follows bindings steps before made (.ok y))
    (h' : Follows bindings steps' (before ++ made) made' result) :
    Follows bindings (steps ++ steps') before (made ++ made') result := by
  have hlength := h.complete y rfl
  refine ⟨?_, ?_, ?_, ?_⟩
  · have hcalls := h.calls
    rw [hlength, List.take_length] at hcalls
    rw [List.length_append, hlength, List.take_length_add_append, ← List.append_assoc]
    exact List.rel_append (hcalls.imp fun step x ↦ Step.call?_append) h'.calls
  · intro x hx
    rw [List.dropLast_append_of_ne_nil h'.ne_nil, List.mem_append] at hx
    rcases hx with hx | hx
    · exact h.answers x hx
    · exact h'.succeeds x hx
  · rw [List.getLast?_append_of_ne_nil _ h'.ne_nil]
    exact h'.last
  · intro z hz
    rw [List.length_append, List.length_append, hlength, h'.complete z hz]

/-- The result stands at the position of the last call. -/
theorem resultAt_last (h : Follows bindings steps before made (.ok y)) :
    resultAt (before ++ made) (before.length + made.length - 1) = some y := by
  have hpos := List.length_pos_iff.mpr h.ne_nil
  have hlast := h.last
  rw [List.getLast?_eq_getElem?] at hlast
  obtain ⟨x, hx, hanswer⟩ := Option.map_eq_some_iff.mp hlast
  rw [resultAt, List.getElem?_append_right (by omega), Nat.add_sub_assoc hpos,
    Nat.add_sub_cancel_left, hx, Option.bind_some, hanswer]
  rfl

/-- Behind both of its operands a connective is called with their results. -/
theorem connect {left right : φ} (h : Follows bindings steps before made (.ok left))
    (h' : Follows bindings steps' (before ++ made) made' (.ok right)) (connective : Connective)
    (answer : Except ε φ) :
    Follows bindings
      (steps ++ steps' ++ [.connect connective (before.length + steps.length - 1)
        (before.length + steps.length + steps'.length - 1)])
      before (made ++ made' ++ [⟨.connect connective left right, answer⟩]) answer := by
  -- both results stand where the last step looks for them
  have hleft : resultAt (before ++ made ++ made') (before.length + made.length - 1) = some left :=
    resultAt_append h.resultAt_last
  have hright := (h.append h').resultAt_last
  rw [h.complete left rfl, List.append_assoc] at hleft
  rw [List.length_append, h.complete left rfl, h'.complete right rfl, ← Nat.add_assoc] at hright
  refine (h.append h').append (.single ?_)
  rw [Step.call?, hleft, hright]
  rfl

end Follows

/-- Building behind calls that have been made: the backend that notes the calls ends as the other
one does, and the calls it notes follow the steps. -/
theorem follows_foldM (b : Backend (Build σ ε) φ) (p : Predicate) (bindings : List Literal)
    (hp : ∀ i ∈ p.placeholders, i < bindings.length) (s : σ) (before : List (Exchange ε φ)) :
    ∃ made result s', outcomeFrom s (p.foldM b bindings hp) = (result, s') ∧
      outcomeFrom (s, before) (p.foldM b.recording bindings hp) = (result, s', before ++ made) ∧
      Follows bindings (p.steps before.length) before made result := by
  induction p generalizing s before with
  | comparison path op i =>
    have hi := hp i List.mem_cons_self
    refine ⟨[⟨.comparison path op i (bindings.get ⟨i, hi⟩), _⟩], _, _, rfl, rfl, .single ?_⟩
    rw [Step.call?, List.getElem?_eq_getElem hi]
    rfl
  | logical connective left right ihl ihr =>
    have hl : ∀ i ∈ left.placeholders, i < bindings.length :=
      fun i hi ↦ hp i (List.mem_append_left _ hi)
    have hr : ∀ i ∈ right.placeholders, i < bindings.length :=
      fun i hi ↦ hp i (List.mem_append_right _ hi)
    obtain ⟨madeLeft, resultLeft, s₁, hleft, hleft', hls⟩ := ihl hl s before
    rw [Predicate.foldM, Predicate.foldM, Predicate.steps]
    cases resultLeft with
    | error e =>
      refine ⟨madeLeft, _, s₁, outcomeFrom_bind_of_error _ hleft,
        outcomeFrom_bind_of_error _ hleft', ?_⟩
      rw [List.append_assoc]
      exact hls.of_error _
    | ok x =>
      obtain ⟨madeRight, resultRight, s₂, hright, hright', hrs⟩ := ihr hr s₁ (before ++ madeLeft)
      rw [List.length_append, hls.complete x rfl] at hrs
      rw [outcomeFrom_bind_of_ok _ hleft, outcomeFrom_bind_of_ok _ hleft']
      cases resultRight with
      | error e =>
        refine ⟨madeLeft ++ madeRight, _, s₂, outcomeFrom_bind_of_error _ hright, ?_, ?_⟩
        · rw [outcomeFrom_bind_of_error _ hright', List.append_assoc]
        · exact (hls.append hrs).of_error _
      | ok y =>
        rw [outcomeFrom_bind_of_ok _ hright, outcomeFrom_bind_of_ok _ hright']
        refine ⟨madeLeft ++ madeRight ++ [⟨.connect connective x y, _⟩], _, _, rfl, ?_,
          hls.connect hrs connective _⟩
        rw [← List.append_assoc, ← List.append_assoc]
        exact b.outcomeFrom_note _ s₂ _

/-! ## Builds -/

namespace PreparedQuery

/-- The calls of a build. -/
def steps (q : PreparedQuery) : List Step := q.predicate.steps 0

/-- What the calls of a build are, and in which order. -/
structure Schedule (q : PreparedQuery) (steps : List Step) : Prop where
  /-- There are `2 * n - 1` of them for `n` comparisons. -/
  length : steps.length = 2 * q.bindings.length - 1
  /-- They go through the predicate with operands before their connective, left ones first. -/
  nodes : List.Forall₂ (Step.IsFor q.predicate.nodes) steps q.predicate.nodes.zipIdx
  /-- A node has one position. -/
  nodup : q.predicate.nodes.Nodup
  /-- Comparisons are met in the order of their placeholders. -/
  placeholders : steps.filterMap Step.placeholder? = List.range q.bindings.length
  /-- Every result but the last one is taken once. -/
  operands : (steps.flatMap Step.operands).Perm (List.range (steps.length - 1))

theorem schedule (q : PreparedQuery) : q.Schedule q.steps where
  length := by
    have hlength := q.predicate.length_steps 0
    have hsize := congrArg List.length q.placeholders_eq
    rw [Predicate.length_placeholders, List.length_range] at hsize
    rw [steps]
    omega
  nodes := by
    have hnodes := q.predicate.steps_isFor [] []
    rw [List.nil_append, List.append_nil] at hnodes
    exact hnodes
  nodup := Predicate.nodup_nodes (q.placeholders_eq ▸ List.nodup_range)
  placeholders := (q.predicate.filterMap_placeholder?_steps 0).trans q.placeholders_eq
  operands := List.range_eq_range' ▸ q.predicate.perm_operands_steps 0

/-- **Builds make their calls in order**: whatever the backend, the calls are listed before the
first one is made, and a build makes them one after the other until one fails.  The result is what
the last call returns, be it a filter or a failure. -/
theorem build_follows {σ ε φ : Type u} (q : PreparedQuery) (b : Backend (Build σ ε) φ) (s : σ) :
    q.Schedule q.steps ∧
      ∃ made result s', outcomeFrom s (q.foldM b) = (result, s') ∧
        outcomeFrom (s, []) (q.foldM b.recording) = (result, s', made) ∧
        Follows q.bindings q.steps [] made result :=
  ⟨q.schedule, follows_foldM b q.predicate q.bindings q.lt_length_of_mem s []⟩

end PreparedQuery
end RecordQuery
