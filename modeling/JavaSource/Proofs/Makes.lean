import JavaSource.Syntax.Check
import Mathlib.Data.List.Forall2

/-!
# What a reading comes to

`Makes P x` says of a reading `x` that whatever it comes to has `P`; an error is no matter.  It
composes as readings do.
-/

namespace JavaSource

/-- Whatever it comes to has a property. -/
def Makes {ε α : Type} (P : α → Prop) (x : Except ε α) : Prop := ∀ a, x = .ok a → P a

namespace Makes

variable {ε α β : Type} {P P' : α → Prop} {Q : β → Prop} {x : Except ε α}

theorem ok {a : α} (h : P a) : Makes P (.ok a : Except ε α) := fun _ ha => Except.ok.inj ha ▸ h

theorem error (e : ε) : Makes P (.error e : Except ε α) := nofun

theorem mono (h : Makes P x) (hP : ∀ a, P a → P' a) : Makes P' x := fun a ha => hP a (h a ha)

theorem and (h : Makes P x) (h' : Makes P' x) : Makes (fun a => P a ∧ P' a) x :=
  fun a ha => ⟨h a ha, h' a ha⟩

theorem any : Makes (fun _ => True) x := fun _ _ => trivial

theorem bind {f : α → Except ε β} (h : Makes P x) (hf : ∀ a, P a → Makes Q (f a)) :
    Makes Q (x >>= f) := by
  cases x with
  | error e => exact error e
  | ok a => exact hf a (h a rfl)

theorem map {f : α → β} (h : Makes P x) (hf : ∀ a, P a → Q (f a)) : Makes Q (f <$> x) := by
  cases x with
  | error e => exact error e
  | ok a => exact ok (hf a (h a rfl))

/-- What it comes to is known where it is asked for. -/
theorem self : Makes (x = .ok ·) x := fun _ ha => ha

theorem mapM {γ : Type} {R : γ → α → Prop} {f : γ → Except ε α} {cs : List γ}
    (h : ∀ c ∈ cs, Makes (R c) (f c)) : Makes (List.Forall₂ R cs) (cs.mapM f) := by
  induction cs with
  | nil => exact ok .nil
  | cons c cs ih =>
    obtain ⟨hc, hcs⟩ := List.forall_mem_cons.mp h
    rw [List.mapM_cons]
    exact hc.bind fun a ha => (ih hcs).bind fun as has => ok (.cons ha has)

/-- What each of them comes to has a property, and there are as many. -/
theorem forall_mapM {γ : Type} {f : γ → Except ε α} {cs : List γ} (h : ∀ c ∈ cs, Makes P (f c)) :
    Makes (fun as => as.length = cs.length ∧ ∀ a ∈ as, P a) (cs.mapM f) := by
  induction cs with
  | nil => exact ok ⟨rfl, List.forall_mem_nil _⟩
  | cons c cs ih =>
    obtain ⟨hc, hcs⟩ := List.forall_mem_cons.mp h
    rw [List.mapM_cons]
    exact hc.bind fun a ha => (ih hcs).bind fun as has =>
      ok ⟨congrArg (· + 1) has.1, List.forall_mem_cons.mpr ⟨ha, has.2⟩⟩

theorem filterMapM {γ : Type} {f : γ → Except ε (Option α)} {cs : List γ}
    (h : ∀ c ∈ cs, Makes (fun a? => ∀ a, a? = some a → P a) (f c)) :
    Makes (fun as => ∀ a ∈ as, P a) (cs.filterMapM f) := by
  induction cs with
  | nil => exact ok (List.forall_mem_nil _)
  | cons c cs ih =>
    obtain ⟨hc, hcs⟩ := List.forall_mem_cons.mp h
    rw [List.filterMapM_cons]
    refine hc.bind fun a? ha => ?_
    cases a? with
    | none => exact ih hcs
    | some a => exact (ih hcs).bind fun _ has => ok (List.forall_mem_cons.mpr ⟨ha a rfl, has⟩)

/-- An invariant of a fold. -/
theorem foldlM {γ : Type} {f : α → γ → Except ε α} {cs : List γ} {a : α} (ha : P a)
    (h : ∀ a, P a → ∀ c ∈ cs, Makes P (f a c)) : Makes P (cs.foldlM f a) := by
  induction cs generalizing a with
  | nil => exact ok ha
  | cons c cs ih =>
    rw [List.foldlM_cons]
    exact (h a ha c List.mem_cons_self).bind fun a' ha' =>
      ih ha' fun a ha c hc => h a ha c (List.mem_cons_of_mem _ hc)

end Makes

/-- What a result is asked for is true of what it comes to. -/
theorem exists_of_toOption_any {ε α : Type} {x : Except ε α} {p : α → Bool}
    (h : x.toOption.any p = true) : ∃ a, x = .ok a ∧ p a = true := by
  cases x with
  | error e => cases h
  | ok a => exact ⟨a, rfl, h⟩

/-- A node that is checked stays what it is. -/
theorem Node.checked_makes {c : Category} {P : Node c → Prop} {n : Node c}
    (h : n.flaw? = none → P n) : Makes P n.checked := by
  rw [checked]
  split
  · exact .error _
  · exact .ok (h ‹_›)

end JavaSource
