/-!
# Ranges of code points

A character class of Unicode is kept as a list of closed ranges of code points.  The classes
themselves are in the sibling modules; each decides ASCII by a test of its own and looks only the
other characters up.

* `Ranges.contains`: membership of a code point.
* `takeWhile_append`: the run of a class at the front of a text.
* `toNat_lt_of_isDigit`: core's digits are ASCII.
-/

set_option autoImplicit false

namespace RecordQuery
namespace Text

/-- Closed ranges of code points, each with its first and last member. -/
abbrev Ranges := List (Nat × Nat)

/-- Whether the code point `n` lies in one of the ranges. -/
def Ranges.contains (rs : Ranges) (n : Nat) : Bool :=
  rs.any fun r ↦ r.1 ≤ n && n ≤ r.2

/-- The longest run at the front of a text is `run` when the rest does not go on with it. -/
theorem takeWhile_append {ok : Char → Bool} {run rest : List Char} (hrun : ∀ c ∈ run, ok c = true)
    (hrest : ∀ c ∈ rest.head?, ok c = false) : (run ++ rest).takeWhile ok = run ∧
      (run ++ rest).dropWhile ok = rest := by
  rw [List.takeWhile_append_of_pos hrun, List.dropWhile_append_of_pos hrun]
  cases rest with
  | nil => exact ⟨List.append_nil _, rfl⟩
  | cons c rest =>
    have hc : ok c = false := hrest c rfl
    rw [List.takeWhile_cons, List.dropWhile_cons, hc]
    exact ⟨List.append_nil _, rfl⟩

theorem toNat_lt_of_isDigit {c : Char} (h : c.isDigit = true) : c.toNat < 0x80 := by
  simp only [Char.isDigit, Bool.and_eq_true, decide_eq_true_eq, UInt32.le_iff_toNat_le] at h
  have : c.val.toNat ≤ 57 := h.2
  simp only [Char.toNat]
  omega

end Text
end RecordQuery
