import RecordQuery.Proofs.Json.Tokens

/-!
# Different values are written differently

The reader refuses values that are nested too deep, so it cannot tell in general what a text was
written for.  The tokens can.  The first token of a value says of which kind it is, and a container
ends at the mark that is not a comma; so the tokens of a value end where they end, whatever follows
them, and nothing else has these tokens.

* `Json.lead`: the first token of a value.
* `tokens_append_inj`: a value is known from its tokens, and so is where they end.
* `text_inj`: a value is known from its text, however this is laid out.
-/

set_option autoImplicit false

namespace RecordQuery
namespace Json

open Token

/-! ## The first token -/

/-- The first token of a value. -/
def lead : Json → Token
  | null => .scalar .null
  | bool b => .scalar (.bool b)
  | number n => .scalar (.number n)
  | string s => .string s
  | array _ => .openArray
  | object _ => .openObject

theorem exists_tokens_eq (v : Json) : ∃ ts, v.tokens = v.lead :: ts := by
  rcases v with _ | b | n | s | (_ | ⟨item, items⟩) | (_ | ⟨⟨name, value⟩, members⟩) <;>
    exact ⟨_, rfl⟩

section

variable {v w : Json} {r s : List Token}

theorem lead_eq (h : v.tokens ++ r = w.tokens ++ s) : v.lead = w.lead := by
  obtain ⟨ts, hv⟩ := v.exists_tokens_eq
  obtain ⟨us, hw⟩ := w.exists_tokens_eq
  rw [hv, hw] at h
  exact (List.cons.inj h).1

/-- No value starts with the mark that ends an array. -/
theorem tokens_append_ne_closeArray : v.tokens ++ r ≠ .closeArray :: s := by
  obtain ⟨ts, hv⟩ := v.exists_tokens_eq
  rw [hv]
  intro h
  have hlead : v.lead = .closeArray := (List.cons.inj h).1
  cases v <;> cases hlead

end

/-! ## Containers -/

section

variable {r s : List Token}

theorem tokens_array_cons (item : Json) (items : List Json) (r : List Token) :
    (array (item :: items)).tokens ++ r =
      .openArray :: (item.tokens ++ (itemTokens items ++ .closeArray :: r)) := by
  simp [tokens]

theorem tokens_object_cons (name : String) (value : Json) (members : List (String × Json))
    (r : List Token) : (object ((name, value) :: members)).tokens ++ r =
      .openObject :: .string name :: .colon ::
        (value.tokens ++ (memberTokens members ++ .closeObject :: r)) := by
  simp [tokens]

/-- With a comma in front, the first item is like the others. -/
theorem itemTokens_eq_of_tokens_eq {items items' : List Json}
    (h : (array items).tokens ++ r = (array items').tokens ++ s) :
    itemTokens items ++ .closeArray :: r = itemTokens items' ++ .closeArray :: s := by
  match items, items' with
  | [], [] => exact congrArg List.tail h
  | [], item :: items =>
    rw [tokens_array_cons] at h
    exact absurd (List.cons.inj h).2.symm tokens_append_ne_closeArray
  | item :: items, [] =>
    rw [tokens_array_cons] at h
    exact absurd (List.cons.inj h).2 tokens_append_ne_closeArray
  | item :: items, item' :: items' =>
    rw [tokens_array_cons, tokens_array_cons] at h
    rw [itemTokens, itemTokens, List.append_assoc, List.append_assoc]
    exact congrArg (Token.comma :: ·) (List.cons.inj h).2

/-- With a comma in front, the first member is like the others. -/
theorem memberTokens_eq_of_tokens_eq {members members' : List (String × Json)}
    (h : (object members).tokens ++ r = (object members').tokens ++ s) :
    memberTokens members ++ .closeObject :: r = memberTokens members' ++ .closeObject :: s := by
  match members, members' with
  | [], [] => exact congrArg List.tail h
  | [], (name, value) :: members =>
    rw [tokens_object_cons] at h
    cases h
  | (name, value) :: members, [] =>
    rw [tokens_object_cons] at h
    cases h
  | (name, value) :: members, (name', value') :: members' =>
    rw [tokens_object_cons, tokens_object_cons] at h
    rw [memberTokens, memberTokens, List.append_assoc, List.append_assoc]
    exact congrArg (Token.comma :: ·) (List.cons.inj h).2

end

/-! ## Values -/

mutual

/-- The tokens of a value end where they end, and no other value has them. -/
theorem tokens_append_inj : (v w : Json) → {r s : List Token} →
    v.tokens ++ r = w.tokens ++ s → v = w ∧ r = s
  | .null, w, _, _, h => by
    cases w with
    | null => exact ⟨rfl, congrArg List.tail h⟩
    | _ => cases lead_eq h
  | .bool b, w, _, _, h => by
    cases w with
    | bool b' =>
      cases lead_eq h
      exact ⟨rfl, congrArg List.tail h⟩
    | _ => cases lead_eq h
  | .number n, w, _, _, h => by
    cases w with
    | number n' =>
      cases lead_eq h
      exact ⟨rfl, congrArg List.tail h⟩
    | _ => cases lead_eq h
  | .string s, w, _, _, h => by
    cases w with
    | string s' =>
      cases lead_eq h
      exact ⟨rfl, congrArg List.tail h⟩
    | _ => cases lead_eq h
  | .array items, w, _, _, h => by
    cases w with
    | array items' =>
      obtain ⟨rfl, hrest⟩ := itemTokens_append_inj items items' (itemTokens_eq_of_tokens_eq h)
      exact ⟨rfl, hrest⟩
    | _ => cases lead_eq h
  | .object members, w, _, _, h => by
    cases w with
    | object members' =>
      obtain ⟨rfl, hrest⟩ :=
        memberTokens_append_inj members members' (memberTokens_eq_of_tokens_eq h)
      exact ⟨rfl, hrest⟩
    | _ => cases lead_eq h

theorem itemTokens_append_inj : (items items' : List Json) → {r s : List Token} →
    itemTokens items ++ .closeArray :: r = itemTokens items' ++ .closeArray :: s →
      items = items' ∧ r = s
  | [], [], _, _, h => ⟨rfl, congrArg List.tail h⟩
  | [], _ :: _, _, _, h => nomatch h
  | _ :: _, [], _, _, h => nomatch h
  | item :: items, item' :: items', _, _, h => by
    rw [itemTokens, itemTokens, List.append_assoc, List.append_assoc] at h
    obtain ⟨rfl, hitems⟩ := tokens_append_inj item item' (List.cons.inj h).2
    obtain ⟨rfl, hrest⟩ := itemTokens_append_inj items items' hitems
    exact ⟨rfl, hrest⟩

theorem memberTokens_append_inj : (members members' : List (String × Json)) →
    {r s : List Token} →
    memberTokens members ++ .closeObject :: r = memberTokens members' ++ .closeObject :: s →
      members = members' ∧ r = s
  | [], [], _, _, h => ⟨rfl, congrArg List.tail h⟩
  | [], _ :: _, _, _, h => nomatch h
  | _ :: _, [], _, _, h => nomatch h
  | (name, value) :: members, (name', value') :: members', _, _, h => by
    rw [memberTokens, memberTokens, List.append_assoc, List.append_assoc] at h
    obtain ⟨hname, hbehind⟩ := List.cons.inj (List.cons.inj h).2
    obtain rfl : name = name' := Token.string.inj hname
    obtain ⟨rfl, hmembers⟩ := tokens_append_inj value value' (List.cons.inj hbehind).2
    obtain ⟨rfl, hrest⟩ := memberTokens_append_inj members members' hmembers
    exact ⟨rfl, hrest⟩

end

/-- A written value is known from its text, spaces behind it or not. -/
theorem text_inj {l l' : Layout} (hl : l.IsBlank) (hl' : l'.IsBlank) {v w : Json} {blanks : String}
    (hblanks : ∀ c ∈ blanks.toList, isSpace c = true)
    (h : v.text l ++ blanks = w.text l' ++ blanks) : v = w := by
  have htokens : v.tokens = w.tokens := by
    rw [← Option.some.injEq, ← ofText?_text hl v blanks hblanks, h,
      ofText?_text hl' w blanks hblanks]
  have happend : v.tokens ++ [] = w.tokens ++ [] := by rw [htokens]
  exact (tokens_append_inj v w happend).1

end Json
end RecordQuery
