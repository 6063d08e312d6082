/-!
# JSON strings

A string stands in double quotes.  Written strings escape the quote, the backslash and the
characters below U+0020, and leave every other character as it is; `Json.Quoted.encode` writes them.
Strings that are read may escape any character, by a letter or by UTF-16 units in hexadecimal
digits; `Json.Quoted.decode` reads them and refuses raw control characters and surrogates without a
partner.
-/

set_option autoImplicit false

namespace RecordQuery
namespace Json
namespace Quoted

/-! ## Writing -/

/-- The lower-case hexadecimal digit of `n < 16`. -/
def hexDigit (n : Nat) : Char := Nat.digitChar n

/-- A character inside a string. -/
def encodeChar (c : Char) : List Char :=
  if c = '"' then ['\\', '"']
  else if c = '\\' then ['\\', '\\']
  else if c = '\x08' then ['\\', 'b']
  else if c = '\t' then ['\\', 't']
  else if c = '\n' then ['\\', 'n']
  else if c = '\x0c' then ['\\', 'f']
  else if c = '\r' then ['\\', 'r']
  else if c.toNat < 0x20 then
    ['\\', 'u', '0', '0', hexDigit (c.toNat / 16), hexDigit (c.toNat % 16)]
  else [c]

/-- A string with its quotes. -/
def encode (s : String) : List Char := '"' :: s.toList.flatMap encodeChar ++ ['"']

/-! ## Reading -/

/-- The value of a hexadecimal digit. -/
def hexValue? (c : Char) : Option Nat :=
  if '0' ≤ c ∧ c ≤ '9' then some (c.toNat - '0'.toNat)
  else if 'a' ≤ c ∧ c ≤ 'f' then some (c.toNat - 'a'.toNat + 10)
  else if 'A' ≤ c ∧ c ≤ 'F' then some (c.toNat - 'A'.toNat + 10)
  else none

/-- The UTF-16 unit written in the next four digits, and the rest. -/
def unit? : List Char → Option (Nat × List Char)
  | a :: b :: c :: d :: cs => do
    let a ← hexValue? a
    let b ← hexValue? b
    let c ← hexValue? c
    let d ← hexValue? d
    return (((a * 16 + b) * 16 + c) * 16 + d, cs)
  | _ => none

/-- The character whose first UTF-16 unit is written in the next four digits, and the rest; a high
surrogate needs a low one in an escape of its own. -/
def unicode? (cs : List Char) : Option (Char × List Char) :=
  match unit? cs with
  | none => none
  | some (u, rest) =>
    if 0xD800 ≤ u ∧ u < 0xDC00 then
      match rest with
      | '\\' :: 'u' :: rest' =>
        match unit? rest' with
        | none => none
        | some (v, rest'') =>
          if 0xDC00 ≤ v ∧ v < 0xE000 then
            some (Char.ofNat (0x10000 + (u - 0xD800) * 0x400 + (v - 0xDC00)), rest'')
          else none
      | _ => none
    else if 0xDC00 ≤ u ∧ u < 0xE000 then none
    else some (Char.ofNat u, rest)

/-- The character written behind a backslash, and the rest. -/
def escape? : List Char → Option (Char × List Char)
  | [] => none
  | c :: cs =>
    match c with
    | '"' | '\\' | '/' => some (c, cs)
    | 'b' => some ('\x08', cs)
    | 't' => some ('\t', cs)
    | 'n' => some ('\n', cs)
    | 'f' => some ('\x0c', cs)
    | 'r' => some ('\r', cs)
    | 'u' => unicode? cs
    | _ => none

theorem length_of_unit? {cs rest : List Char} {u : Nat} (h : unit? cs = some (u, rest)) :
    rest.length < cs.length := by
  unfold unit? at h
  split at h
  · rename_i a b c d cs
    simp only [Option.bind_eq_bind, Option.bind_eq_some_iff, Option.pure_def, Option.some.injEq,
      Prod.mk.injEq] at h
    obtain ⟨_, _, _, _, _, _, _, _, _, rfl⟩ := h
    simp only [List.length_cons]
    omega
  · cases h

theorem length_of_unicode? {cs rest : List Char} {c : Char} (h : unicode? cs = some (c, rest)) :
    rest.length < cs.length := by
  unfold unicode? at h
  split at h
  · cases h
  · rename_i u rest' hu
    have := length_of_unit? hu
    split at h
    · split at h
      · split at h
        · cases h
        · rename_i v rest'' hv
          have := length_of_unit? hv
          simp only [List.length_cons] at *
          split at h
          · rw [Option.some.injEq, Prod.mk.injEq] at h
            rw [← h.2]
            omega
          · cases h
      · cases h
    · split at h
      · cases h
      · rw [Option.some.injEq, Prod.mk.injEq] at h
        rw [← h.2]
        exact this

theorem length_of_escape? {cs rest : List Char} {c : Char} (h : escape? cs = some (c, rest)) :
    rest.length < cs.length := by
  unfold escape? at h
  split at h
  · cases h
  · split at h
    case h_9 => exact Nat.lt_succ_of_lt (length_of_unicode? h)
    case h_10 => cases h
    all_goals cases h; exact Nat.lt_succ_self _

/-- The string behind an opening quote, up to its closing quote, and the rest. -/
def decode (cs : List Char) : Option (List Char × List Char) :=
  match cs with
  | [] => none
  | c :: rest =>
    if c = '"' then some ([], rest)
    else if c = '\\' then
      match h : escape? rest with
      | none => none
      | some (d, rest') =>
        have := length_of_escape? h
        (decode rest').map fun r ↦ (d :: r.1, r.2)
    else if c.toNat < 0x20 then none
    else (decode rest).map fun r ↦ (c :: r.1, r.2)
termination_by cs.length

theorem length_of_decode {cs text rest : List Char} (h : decode cs = some (text, rest)) :
    rest.length < cs.length := by
  fun_induction decode cs generalizing text rest with
  | case1 => cases h
  | case2 rest' => cases h; exact Nat.lt_succ_self _
  | case3 => cases h
  | case4 rest' c rest'' hc _ hlt ih =>
    obtain ⟨r, hr, he⟩ := Option.map_eq_some_iff.mp h
    cases he
    have h1 := ih hr
    simp only [List.length_cons]
    omega
  | case5 => cases h
  | case6 c rest' _ _ _ ih =>
    obtain ⟨r, hr, he⟩ := Option.map_eq_some_iff.mp h
    cases he
    have h1 := ih hr
    simp only [List.length_cons]
    omega

end Quoted
end Json
end RecordQuery
