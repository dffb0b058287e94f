import JavaSource.Proofs.Layout.Alike

/-!
# Trees that are the same

`AnyNode.same` compares trees by their views, and numbers as numbers.  It is symmetric and
transitive, so a tree may stand for all trees that are the same (`AnyNode.same_congr`).  It is not
reflexive, as what is no number equals nothing.  Nodes that are alike node by node are the same, and
being alike is transitive too (`Node.Alike.trans`).
-/

namespace JavaSource

namespace Binary64

variable {x y z : Binary64}

theorem equals_iff : x.equals y = true ↔
    x.isNaN = false ∧ y.isNaN = false ∧ (x = y ∨ x.isZero = true ∧ y.isZero = true) := by
  simp [equals, and_assoc]

theorem equals_symm (h : x.equals y = true) : y.equals x = true := by
  obtain ⟨hx, hy, heq | ⟨hx₀, hy₀⟩⟩ := equals_iff.mp h
  · exact equals_iff.mpr ⟨hy, hx, .inl heq.symm⟩
  · exact equals_iff.mpr ⟨hy, hx, .inr ⟨hy₀, hx₀⟩⟩

theorem equals_trans (h : x.equals y = true) (h' : y.equals z = true) : x.equals z = true := by
  obtain ⟨hx, -, hxy⟩ := equals_iff.mp h
  obtain ⟨-, hz, hyz⟩ := equals_iff.mp h'
  refine equals_iff.mpr ⟨hx, hz, ?_⟩
  rcases hxy with rfl | ⟨hx₀, hy₀⟩
  · exact hyz
  · rcases hyz with rfl | ⟨-, hz₀⟩
    · exact .inr ⟨hx₀, hy₀⟩
    · exact .inr ⟨hx₀, hz₀⟩

end Binary64

namespace Attribute

variable {a b c : Attribute}

/-- Only numbers are the same without being equal. -/
theorem same_iff : a.same b = true ↔
    (∃ x y, a = .real x ∧ b = .real y ∧ x.equals y = true) ∨ (∀ x, a ≠ .real x) ∧ a = b := by
  cases a <;> cases b <;> simp [same]

theorem same_symm (h : a.same b = true) : b.same a = true := by
  rcases same_iff.mp h with ⟨x, y, rfl, rfl, hxy⟩ | ⟨-, rfl⟩
  · exact Binary64.equals_symm hxy
  · exact h

theorem same_trans (h : a.same b = true) (h' : b.same c = true) : a.same c = true := by
  rcases same_iff.mp h with ⟨x, y, rfl, rfl, hxy⟩ | ⟨-, rfl⟩
  · rcases same_iff.mp h' with ⟨y', z, hy, rfl, hyz⟩ | ⟨hno, -⟩
    · cases hy
      exact Binary64.equals_trans hxy hyz
    · exact absurd rfl (hno y)
  · exact h'

end Attribute

section sameAttributes

variable {m n : String} {a b : Attribute} {as bs cs : List (String × Attribute)}

theorem sameAttributes_cons : sameAttributes ((m, a) :: as) ((n, b) :: bs) = true ↔
    m = n ∧ a.same b = true ∧ sameAttributes as bs = true := by
  simp [sameAttributes, and_assoc]

theorem sameAttributes_symm (h : sameAttributes as bs = true) : sameAttributes bs as = true := by
  induction as generalizing bs with
  | nil =>
    cases bs with
    | nil => rfl
    | cons => cases h
  | cons a as ih =>
    cases bs with
    | nil => cases h
    | cons b bs =>
      obtain ⟨hname, hvalue, hothers⟩ := sameAttributes_cons.mp h
      exact sameAttributes_cons.mpr ⟨hname.symm, Attribute.same_symm hvalue, ih hothers⟩

theorem sameAttributes_trans (h : sameAttributes as bs = true) (h' : sameAttributes bs cs = true) :
    sameAttributes as cs = true := by
  induction as generalizing bs cs with
  | nil =>
    cases bs with
    | nil => exact h'
    | cons => cases h
  | cons a as ih =>
    cases bs with
    | nil => cases h
    | cons b bs =>
      cases cs with
      | nil => cases h'
      | cons c cs =>
        obtain ⟨hname, hvalue, hothers⟩ := sameAttributes_cons.mp h
        obtain ⟨hname', hvalue', hothers'⟩ := sameAttributes_cons.mp h'
        exact sameAttributes_cons.mpr
          ⟨hname.trans hname', Attribute.same_trans hvalue hvalue', ih hothers hothers'⟩

end sameAttributes

namespace View

variable {s t : Slot} {c d : Category} {m : Node c} {n : Node d} {ps qs : List View}

theorem same_iff : (mk s m ps).same (mk t n qs) = true ↔ s = t ∧ m.kindName = n.kindName ∧
    sameAttributes m.attributes n.attributes = true ∧ sameViews ps qs = true := by
  simp [same, and_assoc]

theorem sameViews_cons {v w : View} {vs ws : List View} :
    sameViews (v :: vs) (w :: ws) = true ↔ v.same w = true ∧ sameViews vs ws = true := by
  simp [sameViews]

mutual

theorem same_symm : (v w : View) → v.same w = true → w.same v = true
  | .mk .., .mk .., h =>
    have ⟨hslot, hkind, hattributes, hparts⟩ := same_iff.mp h
    same_iff.mpr
      ⟨hslot.symm, hkind.symm, sameAttributes_symm hattributes, sameViews_symm _ _ hparts⟩

theorem sameViews_symm : (vs ws : List View) → sameViews vs ws = true → sameViews ws vs = true
  | [],     [],     _ => rfl
  | v :: vs, w :: ws, h =>
    have ⟨hhead, htail⟩ := sameViews_cons.mp h
    sameViews_cons.mpr ⟨same_symm v w hhead, sameViews_symm vs ws htail⟩

end

mutual

theorem same_trans : (u v w : View) → u.same v = true → v.same w = true → u.same w = true
  | .mk .., .mk .., .mk .., h, h' =>
    have ⟨hslot, hkind, hattributes, hparts⟩ := same_iff.mp h
    have ⟨hslot', hkind', hattributes', hparts'⟩ := same_iff.mp h'
    same_iff.mpr ⟨hslot.trans hslot', hkind.trans hkind',
      sameAttributes_trans hattributes hattributes', sameViews_trans _ _ _ hparts hparts'⟩

theorem sameViews_trans : (us vs ws : List View) → sameViews us vs = true →
    sameViews vs ws = true → sameViews us ws = true
  | [],      [],      [],      _, _  => rfl
  | u :: us, v :: vs, w :: ws, h, h' =>
    have ⟨hhead, htail⟩ := sameViews_cons.mp h
    have ⟨hhead', htail'⟩ := sameViews_cons.mp h'
    sameViews_cons.mpr
      ⟨same_trans u v w hhead hhead', sameViews_trans us vs ws htail htail'⟩

end

end View

namespace AnyNode

variable {m n k : AnyNode}

theorem same_symm (h : m.same n = true) : n.same m = true := View.sameViews_symm _ _ h

theorem same_trans (h : m.same n = true) (h' : n.same k = true) : m.same k = true :=
  View.sameViews_trans _ _ _ h h'

/-- Trees that are the same may stand for each other. -/
theorem same_congr {m' n' : AnyNode} (hm : m.same m' = true) (hn : n.same n' = true) :
    m.same n = m'.same n' :=
  Bool.eq_iff_iff.mpr ⟨fun h => same_trans (same_symm hm) (same_trans h hn),
    fun h => same_trans hm (same_trans h (same_symm hn))⟩

end AnyNode

/-- A node alike to one that is alike to a third is alike to that. -/
theorem Node.Alike.trans {c : Category} {a b d : Node c} (h : a.Alike b) (h' : b.Alike d) :
    a.Alike d := by
  induction h <;> cases h'
  case literal.literal hvalue _ _ hvalue' =>
    exact .literal ⟨hvalue.1.trans hvalue'.1, sameAttributes_trans hvalue.2 hvalue'.2⟩
  all_goals
    constructor
    all_goals solve_by_elim

end JavaSource
