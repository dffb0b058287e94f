import JavaSource.Reading.Expressions

/-!
# What literals stand for

A floating literal that is read has a finite value, so there is a literal that stands for that
value when it is printed.
-/

namespace JavaSource

/-- A floating literal has a finite value. -/
theorem isFinite_of_floating? {text : String} {x : Binary64} {double : Bool}
    (h : Literal.floating? text = some (x, double)) : x.isFinite := by
  have hsome {value : Binary64} {d : Bool}
      (h : (if value.isFinite then some (value, d) else none) = some (x, double)) :
      x.isFinite := by
    split at h
    · cases h
      assumption
    · cases h
  unfold Literal.floating? at h
  dsimp only at h
  split at h <;> obtain ⟨value, -, h⟩ := Option.bind_eq_some_iff.mp h <;> exact hsome h

/-- A number that a token stands for is finite. -/
theorem Token.isFinite_of_literalValue? {t : Token} {x : Binary64} {double : Bool}
    (h : t.literalValue? = .ok (.float x double)) : x.isFinite := by
  unfold literalValue? at h
  split at h
  case h_2 =>
    split at h
    · cases h
      exact isFinite_of_floating? ‹_›
    · cases h
  case h_1 => split at h <;> cases h
  all_goals cases h

end JavaSource
