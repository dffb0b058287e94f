import JavaSource.Proofs.Editing.Change

/-!
# Removing statements

`Transformer.remover K` deletes every statement of a kind in `K`, with all that is in it, and goes
on into everything else.  Statements stand in three sorts of places: a list loses what is deleted, a
place that may stay empty becomes empty, and where there has to be a statement, or one of several in
a group of a switch, there is an error (`Node.isEmptied`).

`Transformer.transform_remover` says that there is no other error, and that what is left are the
statements outside the deleted ones, with their kinds and in their order.
-/

namespace JavaSource

/-- Whether a statement is of one of the kinds. -/
def Node.isOf (K : Kind → Bool) (s : Stmt) : Bool := s.kind?.any K

/-- The statement that stands in a place for statements, if the node is one. -/
def AnyNode.stmt? : AnyNode → Option Stmt
  | ⟨.stmt, s⟩ => some s
  | _          => none

/-- The statements in a tree in pre-order, without those that are passed over and those in them. -/
def Node.statements (skip : Stmt → Bool) {c : Category} (n : Node c) : List Stmt :=
  (n.within skip).filterMap AnyNode.stmt?

/-- Leaves out the statements of some kinds, and changes no name. -/
def Edit.remover (K : Kind → Bool) : Edit where
  drops := Node.isOf K
  name := id

/-- Deletes statements of some kinds, and leaves everything else to the change of what is in it. -/
def Transformer.remover (K : Kind → Bool) : Transformer (Except NodeError) where
  family n inner := if n.isIn (Node.isOf K) then .ok .delete else inner
  kind _ inner := inner

namespace Node

variable {K : Kind → Bool} {edit : Edit} {skip : Stmt → Bool} {c : Category}

/-! ### Statements of edited trees -/

theorem stmt?_edited (x : AnyNode) : (x.edited edit).stmt? = x.stmt?.map (edited edit) := by
  obtain ⟨c, n⟩ := x
  cases c <;> rfl

theorem statements_edited {n : Node c} (hin : n.isIn edit.drops = false) (h : edit.Spares n) :
    (n.edited edit).statements (fun _ => false) = (n.statements edit.drops).map (edited edit) := by
  rw [statements, within_edited hin h, List.filterMap_map, statements, List.map_filterMap]
  exact congrArg (List.filterMap · _) (funext stmt?_edited)

/-- The statements of a tree without those that are passed over are none that are passed over. -/
theorem not_skip_of_mem_statements {n : Node c} {s : Stmt} (h : s ∈ n.statements skip) :
    skip s = false := by
  obtain ⟨x, hx, hs⟩ := List.mem_filterMap.mp h
  obtain ⟨c, m⟩ := x
  have hin := isIn_of_mem_within _ hx
  cases c with
  | stmt => cases hs; exact hin
  | _ => cases hs

theorem isOf_edited (s : Stmt) : isOf K (s.edited edit) = isOf K s := by
  rw [isOf, kind?_edited, isOf]

end Node

/-! ### The transformer that removes -/

namespace Transformer

open Node

variable (K : Kind → Bool) {c : Category} {n n' : Node c}

theorem carriedOutBy_remover : (Edit.remover K).CarriedOutBy (remover K) where
  family _ _ := rfl
  identifier n := by
    cases n with
    | identifier span name => exact ⟨.keep, rfl, rfl⟩
  kind _ _ _ := rfl

theorem not_spares_remover_iff :
    ¬ (Edit.remover K).Spares n ↔ ∃ x ∈ n.within (isOf K), x.node.isEmptied (isOf K) = true := by
  rw [Edit.Spares, Classical.not_forall]
  exact exists_congr fun x => by rw [Classical.not_imp, Bool.not_eq_false]; rfl

/-- **Statements are removed completely, unless something has to stand in their place.**  On a valid
tree there is an error just if a statement of one of the kinds, in no other, is the tree itself or
stands where there has to be a statement, or if all statements of a group of a switch are of these
kinds.  Else nothing of these kinds is left, and everything outside it is, in its order. -/
theorem transform_remover (h : n.Valid) :
    ((∃ e, (remover K).transform n = .error e) ↔
      n.isIn (isOf K) = true ∨ ∃ x ∈ n.within (isOf K), x.node.isEmptied (isOf K) = true) ∧
    ∀ n', (remover K).transform n = .ok n' →
      (∀ s ∈ n'.statements fun _ => false, isOf K s = false) ∧
      (n'.statements fun _ => false).map kind? = (n.statements (isOf K)).map kind? := by
  have herror := (carriedOutBy_remover K).transform_error_iff h
  refine ⟨herror.trans (or_congr_right (not_spares_remover_iff K)), fun n' hn' => ?_⟩
  have hfine : ¬ (n.isIn (isOf K) = true ∨ ¬ (Edit.remover K).Spares n) := by
    intro hbad
    obtain ⟨e, he⟩ := herror.mpr hbad
    cases he.symm.trans hn'
  obtain ⟨hin, hspares⟩ := not_or.mp hfine
  have hin := eq_false_of_ne_true hin
  have hspares := Classical.not_not.mp hspares
  cases ((carriedOutBy_remover K).transform_eq h hin hspares).symm.trans hn'
  rw [statements_edited hin hspares]
  constructor
  · intro s hs
    obtain ⟨r, hr, rfl⟩ := List.mem_map.mp hs
    rw [isOf_edited]
    exact not_skip_of_mem_statements hr
  · rw [List.map_map]
    exact List.map_congr_left fun s _ => kind?_edited _ s

end Transformer

/-- A test with a branch that returns, and a return behind it:
`{ if (a) ; else return; return; \x7d`. -/
def Node.returning : Node .block :=
  .block none <|
    .cons (.ifStmt none (.name none (.identifier none "a")) (.emptyStmt none)
      (.present (.returnStmt none .absent))) <|
    .cons (.returnStmt none .absent) .nil

/-- What is left of it without returns: `{ if (a) ; \x7d`. -/
def Node.returnless : Node .block :=
  .block none <|
    .cons (.ifStmt none (.name none (.identifier none "a")) (.emptyStmt none) .absent) .nil

theorem Transformer.transform_remover_returning :
    Node.returning.Valid ∧
      (remover (· == .returnStmt)).transform Node.returning = .ok Node.returnless ∧
      (∀ s ∈ Node.returnless.statements fun _ => false,
        Node.isOf (· == .returnStmt) s = false) ∧
      (Node.returnless.statements fun _ => false).map Node.kind? =
        (Node.returning.statements (Node.isOf (· == .returnStmt))).map Node.kind? :=
  have hvalid : Node.returning.Valid := by decide
  have hresult : (remover (· == .returnStmt)).transform Node.returning = .ok Node.returnless := rfl
  ⟨hvalid, hresult, (transform_remover (· == .returnStmt) hvalid).2 _ hresult⟩

end JavaSource
