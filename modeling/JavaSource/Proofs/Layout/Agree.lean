import JavaSource.Proofs.Layout.Alike

/-!
# Readings that agree

Two readings agree if they come to related values, or to errors that differ in nothing but spans.
`Agree R x y` composes as readings do: `Agree.bind`, `Agree.map`, `Agree.mapM`, `Agree.foldlM`.
-/

namespace JavaSource

open List (Forall₂)

/-! ### Agreement -/

/-- Errors that differ in nothing but spans. -/
structure NodeError.Alike (e f : NodeError) : Prop where
  node : e.node = f.node
  field : e.field = f.field
  problem : e.problem = f.problem

/-- Related values, or alike errors. -/
inductive Agree {α β : Type} (R : α → β → Prop) :
    Except NodeError α → Except NodeError β → Prop where
  | ok {a : α} {b : β} (h : R a b) : Agree R (.ok a) (.ok b)
  | error {e f : NodeError} (h : e.Alike f) : Agree R (.error e) (.error f)

namespace Agree

variable {α β γ δ : Type} {R : α → β → Prop} {S : γ → δ → Prop} {x : Except NodeError α}
  {y : Except NodeError β}

theorem bind {f : α → Except NodeError γ} {g : β → Except NodeError δ} (h : Agree R x y)
    (hf : ∀ a b, R a b → Agree S (f a) (g b)) : Agree S (x >>= f) (y >>= g) := by
  cases h with
  | ok h => exact hf _ _ h
  | error h => exact .error h

theorem map {f : α → γ} {g : β → δ} (h : Agree R x y) (hf : ∀ a b, R a b → S (f a) (g b)) :
    Agree S (f <$> x) (g <$> y) := by
  cases h with
  | ok h => exact .ok (hf _ _ h)
  | error h => exact .error h

theorem mapM {f : α → Except NodeError γ} {g : β → Except NodeError δ} {as : List α} {bs : List β}
    (h : Forall₂ R as bs) (hf : ∀ a b, R a b → Agree S (f a) (g b)) :
    Agree (Forall₂ S) (as.mapM f) (bs.mapM g) := by
  induction h with
  | nil => exact .ok .nil
  | cons hhead _ ih =>
    rw [List.mapM_cons, List.mapM_cons]
    exact (hf _ _ hhead).bind fun c d hc => ih.bind fun cs ds hcs => .ok (.cons hc hcs)

theorem foldlM {f : γ → α → Except NodeError γ} {g : δ → β → Except NodeError δ} {as : List α}
    {bs : List β} {c : γ} {d : δ} (h : Forall₂ R as bs) (hc : S c d)
    (hf : ∀ c d a b, S c d → R a b → Agree S (f c a) (g d b)) :
    Agree S (as.foldlM f c) (bs.foldlM g d) := by
  induction h generalizing c d with
  | nil => exact .ok hc
  | cons hhead _ ih =>
    rw [List.foldlM_cons, List.foldlM_cons]
    exact (hf _ _ _ _ hc hhead).bind fun c d hc => ih hc

theorem filterMapM {f : α → Except NodeError (Option γ)} {g : β → Except NodeError (Option δ)}
    {as : List α} {bs : List β} (h : Forall₂ R as bs)
    (hf : ∀ a b, R a b → Agree (Option.Rel S) (f a) (g b)) :
    Agree (Forall₂ S) (as.filterMapM f) (bs.filterMapM g) := by
  induction h with
  | nil => exact .ok .nil
  | cons hhead _ ih =>
    rw [List.filterMapM_cons, List.filterMapM_cons]
    refine (hf _ _ hhead).bind fun c d hc => ?_
    cases hc with
    | none => exact ih
    | some hc => exact ih.bind fun cs ds hcs => .ok (.cons hc hcs)

end Agree

/-! ### What is found in related lists -/

section Lists

variable {α β : Type} {R : α → β → Prop} {as : List α} {bs : List β}

theorem getElem?_rel (h : Forall₂ R as bs) (i : Nat) : Option.Rel R as[i]? bs[i]? := by
  induction h generalizing i with
  | nil => exact .none
  | cons hhead _ ih =>
    cases i with
    | zero => exact .some hhead
    | succ i => exact ih i

theorem head?_rel (h : Forall₂ R as bs) : Option.Rel R as.head? bs.head? := by
  rw [List.head?_eq_getElem?, List.head?_eq_getElem?]
  exact getElem?_rel h 0

theorem getLast?_rel (h : Forall₂ R as bs) : Option.Rel R as.getLast? bs.getLast? := by
  rw [List.getLast?_eq_getElem?, List.getLast?_eq_getElem?, h.length_eq]
  exact getElem?_rel h _

variable {p : α → Bool} {q : β → Bool}

theorem filter_rel (hpq : ∀ a b, R a b → p a = q b) (h : Forall₂ R as bs) :
    Forall₂ R (as.filter p) (bs.filter q) :=
  List.rel_filter (fun a b hab => iff_of_eq (congrArg (· = true) (hpq a b hab))) h

theorem find?_rel (hpq : ∀ a b, R a b → p a = q b) (h : Forall₂ R as bs) :
    Option.Rel R (as.find? p) (bs.find? q) := by
  rw [← List.head?_filter, ← List.head?_filter]
  exact head?_rel (filter_rel hpq h)

theorem dropWhile_rel (hpq : ∀ a b, R a b → p a = q b) (h : Forall₂ R as bs) :
    Forall₂ R (as.dropWhile p) (bs.dropWhile q) := by
  induction h with
  | nil => exact .nil
  | cons hhead htail ih =>
    rw [List.dropWhile_cons, List.dropWhile_cons, hpq _ _ hhead]
    split
    · exact ih
    · exact .cons hhead htail

theorem any_eq_of_rel (hpq : ∀ a b, R a b → p a = q b) (h : Forall₂ R as bs) :
    as.any p = bs.any q := by
  induction h with
  | nil => rfl
  | cons hhead _ ih => rw [List.any_cons, List.any_cons, hpq _ _ hhead, ih]

theorem isEmpty_eq_of_rel (h : Forall₂ R as bs) : as.isEmpty = bs.isEmpty := by
  cases h <;> rfl

theorem isSome_eq_of_rel {a? : Option α} {b? : Option β} (h : Option.Rel R a? b?) :
    a?.isSome = b?.isSome := by
  cases h <;> rfl

end Lists

/-! ### Nodes that are checked -/

namespace Node.Alike

variable {c : Category} {m n : Node c}

theorem checked (h : Alike m n) : Agree Alike m.checked n.checked := by
  unfold Node.checked
  rw [h.flaw?_eq]
  split
  · exact .error ⟨rfl, rfl, rfl⟩
  · exact .ok h

theorem check (h : Alike m n) : Agree (fun _ _ => True) m.check n.check := by
  unfold Node.check
  rw [h.flaw?_eq]
  split
  · exact .error ⟨rfl, rfl, rfl⟩
  · exact .ok trivial

end Node.Alike

end JavaSource
