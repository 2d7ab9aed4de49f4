/-!
# Sets of code points

A property of characters is kept as the ascending list of its maximal intervals of code points.
`CodeRanges.contains` decides membership by one walk, which stops at the first interval that lies
above the code point. `CodeRanges.Ascending` says that the walk may stop there, and
`CodeRanges.contains_iff` says what the walk decides.
-/

namespace JackSyntax

/-- A set of code points: closed intervals, each of its least and its greatest member, ascending. -/
abbrev CodeRanges := List (Nat × Nat)

namespace CodeRanges

/-- Whether the code point lies in one of the intervals. -/
def contains : CodeRanges → Nat → Bool
  | [], _ => false
  | (lo, hi) :: rest, n => if n < lo then false else if n ≤ hi then true else contains rest n

/-- Every interval starts above the end of the one before it, and none is reversed. -/
def Ascending : CodeRanges → Bool
  | [] => true
  | (lo, hi) :: rest => lo ≤ hi && rest.all (fun r ↦ hi < r.1) && Ascending rest

/-- On ascending intervals, stopping early loses nothing. -/
theorem contains_iff {rs : CodeRanges} (h : rs.Ascending = true) {n : Nat} :
    rs.contains n = true ↔ ∃ r ∈ rs, r.1 ≤ n ∧ n ≤ r.2 := by
  induction rs with
  | nil => simp [contains]
  | cons r rest ih =>
    obtain ⟨lo, hi⟩ := r
    simp only [Ascending, Bool.and_eq_true, decide_eq_true_eq, List.all_eq_true] at h
    simp only [contains, List.mem_cons, exists_eq_or_imp]
    split
    · have hrest : ¬ ∃ r ∈ rest, r.1 ≤ n ∧ n ≤ r.2 := by
        rintro ⟨r, hr, h₁, -⟩
        have := h.1.2 r hr
        omega
      simp only [Bool.false_eq_true, hrest, or_false, false_iff]
      omega
    · split
      · simp only [true_iff]
        exact .inl ⟨by omega, by omega⟩
      · rw [ih h.2]
        constructor
        · exact .inr
        · rintro (⟨-, h₂⟩ | h₂)
          · omega
          · exact h₂

end CodeRanges

end JackSyntax
