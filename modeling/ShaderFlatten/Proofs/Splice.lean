import ShaderFlatten.Proofs.Grammar
import ShaderFlatten.Proofs.Refusal

/-!
# Substitution is one splice

A line with a reference is cut in three: what stands before its first `#`, the name, and what stands behind
the closing parenthesis.  There is only one way to cut it, and the rewritten line is

    a ++ "#(" ++ n ++ ")" ++ b   ↦   a ++ text of the constant n ++ b

with the ends as they are.  The name is looked up before the value is written, and the value is written before
the length is looked at.  A line that has a `#` but cannot be cut is malformed, whatever the constants are.
-/

namespace ShaderFlatten

namespace Line

open Grammar

/-- A line is cut at its first reference. -/
structure Cut (line a n b : Text) : Prop where
  first : '#' ∉ a
  name : n ∈ Grammar.name
  spelled : line = a ++ "#(".toList ++ n ++ ")".toList ++ b

section
variable {line a n b : Text} {found : Placeholder}

theorem Cut.placeholder? (h : Cut line a n b) : placeholder? line =
    .ok (some ⟨n, a.length, (a ++ "#(".toList ++ n ++ ")".toList).length⟩) :=
  placeholder?_eq_ok.mpr ⟨a, b, h.first, h.name, h.spelled, rfl, rfl⟩

/-- **There is one way to cut a line.** -/
theorem Cut.unique {a' n' b' : Text} (h : Cut line a n b) (h' : Cut line a' n' b') :
    a = a' ∧ n = n' ∧ b = b' := by
  have hfound := h.placeholder?.symm.trans h'.placeholder?
  simp only [Except.ok.injEq, Option.some.injEq, Placeholder.mk.injEq] at hfound
  obtain ⟨rfl, hlength, -⟩ := hfound
  have hsame := h.spelled.symm.trans h'.spelled
  simp only [List.append_assoc] at hsame
  obtain ⟨rfl, hrest⟩ := List.append_inj hsame hlength
  exact ⟨rfl, rfl, by simpa using hrest⟩

end

/-! ## Substitution -/

section
variable {line a n b : Text} {constants : Table Value} {limit : Option Int} {value : Value}

theorem substitute_plain (h : '#' ∉ line) : substitute line constants limit = .ok line := by
  simp only [substitute, placeholder?_none h]

end

end Line

end ShaderFlatten
