import JavaSource.Syntax.Check

/-!
# Errors that are legalities

A source can follow the grammar and still make no sense: a number that is too large, rules beside
groups in a switch, a package in front of a module, a word among the modifiers of a receiver.
These four are the *legal* errors of a reading; any other one says that a tree has not the shape
that the grammar gives.

`Yields P x` says of a reading `x` that it comes to a value with `P`, or else to a legal error.
It composes as readings do: `Yields.bind`, `Yields.map`, `Yields.mapM`, `Yields.foldlM`.
-/

namespace JavaSource

/-- An error that a tree of the grammar can have. -/
inductive NodeError.Legal : NodeError → Prop where
  | outOfRange (text : String) (span : Option Text.Span) :
    Legal ⟨"Literal", "value", .outOfRange text, span⟩
  | mixedSwitch (span : Option Text.Span) : Legal ⟨"SwitchBlock", "rules", .mixedSwitch, span⟩
  | modularPackage (span : Option Text.Span) :
    Legal ⟨"ModularCompilationUnit", "package", .modularPackage, span⟩
  | receiverKeyword (span : Option Text.Span) :
    Legal ⟨"ReceiverParameter", "modifiers", .receiverKeyword, span⟩

/-- A value with a property, or a legal error. -/
def Yields {α : Type} (P : α → Prop) : Except NodeError α → Prop
  | .ok a    => P a
  | .error e => e.Legal

namespace Yields

variable {α β : Type} {P P' : α → Prop} {Q : β → Prop} {x : Except NodeError α}

theorem mono (h : Yields P x) (hP : ∀ a, P a → P' a) : Yields P' x := by
  cases x with
  | error e => exact h
  | ok a => exact hP a h

theorem any (h : Yields P x) : Yields (fun _ => True) x := h.mono fun _ _ => trivial

theorem bind {f : α → Except NodeError β} (h : Yields P x) (hf : ∀ a, P a → Yields Q (f a)) :
    Yields Q (x >>= f) := by
  cases x with
  | error e => exact h
  | ok a => exact hf a h

theorem map {f : α → β} (h : Yields P x) (hf : ∀ a, P a → Q (f a)) : Yields Q (f <$> x) := by
  cases x with
  | error e => exact h
  | ok a => exact hf a h

/-- As many values as there are things to read. -/
theorem mapM {γ : Type} {f : γ → Except NodeError α} {cs : List γ}
    (h : ∀ c ∈ cs, Yields P (f c)) :
    Yields (fun as => as.length = cs.length ∧ ∀ a ∈ as, P a) (cs.mapM f) := by
  induction cs with
  | nil => exact ⟨rfl, nofun⟩
  | cons c cs ih =>
    obtain ⟨hc, hcs⟩ := List.forall_mem_cons.mp h
    rw [List.mapM_cons]
    refine hc.bind fun a ha => (ih hcs).bind fun as ⟨hlen, has⟩ => ?_
    exact ⟨congrArg (· + 1) hlen, List.forall_mem_cons.mpr ⟨ha, has⟩⟩

/-- An invariant of a fold. -/
theorem foldlM {γ : Type} {f : α → γ → Except NodeError α} {cs : List γ} {a : α} (ha : P a)
    (h : ∀ a, P a → ∀ c ∈ cs, Yields P (f a c)) : Yields P (cs.foldlM f a) := by
  induction cs generalizing a with
  | nil => exact ha
  | cons c cs ih =>
    rw [List.foldlM_cons]
    exact (h a ha c List.mem_cons_self).bind fun a' ha' =>
      ih ha' fun a ha c hc => h a ha c (List.mem_cons_of_mem _ hc)

/-- A fold in which one of the things has an effect that stays. -/
theorem foldlM_any {γ : Type} {f : α → γ → Except NodeError α} {Q : γ → Prop} {cs : List γ}
    (h : ∀ a, ∀ c ∈ cs, Yields (fun a' => P a ∨ Q c → P a') (f a c)) (a : α) :
    Yields (fun a' => (P a ∨ ∃ c ∈ cs, Q c) → P a') (cs.foldlM f a) := by
  induction cs generalizing a with
  | nil =>
    rintro (ha | ⟨c, hc, -⟩)
    · exact ha
    · cases hc
  | cons c cs ih =>
    rw [List.foldlM_cons]
    refine (h a c List.mem_cons_self).bind fun a' ha' => ?_
    refine (ih (fun a c hc => h a c (List.mem_cons_of_mem _ hc)) a').mono fun a'' ha'' hor => ?_
    rcases hor with ha | ⟨d, hd, hQ⟩
    · exact ha'' (.inl (ha' (.inl ha)))
    rcases List.mem_cons.mp hd with rfl | hd
    · exact ha'' (.inl (ha' (.inr hQ)))
    · exact ha'' (.inr ⟨d, hd, hQ⟩)

/-- Where one of the things read has a value there is one. -/
theorem filterMapM {γ : Type} {f : γ → Except NodeError (Option α)} {Q : γ → Prop} {cs : List γ}
    (h : ∀ c ∈ cs, Yields (fun a => Q c → a.isSome) (f c)) :
    Yields (fun as => (∃ c ∈ cs, Q c) → as ≠ []) (cs.filterMapM f) := by
  induction cs with
  | nil =>
    rintro ⟨c, hc, -⟩
    cases hc
  | cons c cs ih =>
    obtain ⟨hc, hcs⟩ := List.forall_mem_cons.mp h
    rw [List.filterMapM_cons]
    refine hc.bind fun a ha => ?_
    cases a with
    | none =>
      refine (ih hcs).mono fun as has => ?_
      rintro ⟨c', hc', hQ⟩
      rcases List.mem_cons.mp hc' with rfl | hc'
      · exact absurd (ha hQ) nofun
      · exact has ⟨c', hc', hQ⟩
    | some a => exact (ih hcs).bind fun as _ _ => List.cons_ne_nil _ _

end Yields

/-! ### Lists of nodes -/

namespace Node

variable {c : Category}

theorem isEmpty_ofList (ns : List (Node c)) : (ofList ns).isEmpty = ns.isEmpty := by
  cases ns <;> rfl

theorem lacking?_eq_none {node field : String} {ns : Nodes c} (h : ns.isEmpty = false) :
    lacking? node field ns = none := by
  rw [lacking?, h]
  rfl

/-- A node without a flaw is itself. -/
theorem checked_yields {n : Node c} (h : n.flaw? = none) : Yields (· = n) n.checked := by
  rw [checked, h]
  exact rfl

theorem check_yields {n : Node c} (h : n.flaw? = none) : Yields (fun _ => True) n.check := by
  rw [check, h]
  trivial

end Node

end JavaSource
