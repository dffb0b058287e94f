import JavaSource.Proofs.Reading
import JavaSource.Proofs.Sound.Declarations

/-!
# What is parsed is sound

The readers make nothing but sound nodes of regular trees, and the recognizer makes nothing but
regular trees.  So what is parsed obeys every rule about its kind (`parse_sound`), and all of it
can be printed:

* **`parse_prints`**: every node of what is parsed has a text, whatever the indent.
-/

namespace JavaSource

open Phrase

namespace Opened.Sound

variable {c : Category} {goal : Goal c} {o : Opened} (ho : o.Sound)

include ho

/-! ### All goals -/

/-- An opened tree gives nothing but sound nodes. -/
theorem read (goal : Goal c) : Makes Node.Sound (o.read goal) := by
  cases goal with
  | qualifiedName => exact qualifiedName
  | qualifiedNames => exact ho.readAll _ _
  | modifiers => exact ho.modifierList
  | annotationUse => exact ho.annotationUse
  | annotationElement => exact ho.annotationElement
  | elementValue => exact ho.elementValue
  | elementValueArray => exact ho.elementValueArray
  | type => exact ho.type
  | classType => exact ho.classType
  | typeArgument => exact ho.typeArgument
  | types => exact ho.types
  | coit => exact ho.coit
  | typeArguments => exact ho.typeArguments
  | dim => exact ho.dim
  | typeParameter => exact ho.typeParameter
  | typeParameters => exact ho.typeParameters
  | typeBound => exact ho.typeBound
  | pattern => exact ho.pattern
  | expr => exact ho.expr
  | exprs => exact Part.Sound.readAll ho.phrases _
  | lambdaParams => exact ho.lambdaParams
  | dimExpr => exact ho.dimExpr
  | arrayInitializer => exact ho.arrayInitializer
  | caseItem => exact ho.caseItem ho.expr
  | caseItems => exact Part.Sound.readAll ho.phrases _
  | conditions =>
    change Makes _ (if _ then o.conditions else (.cons · .nil) <$> o.expr)
    split
    · exact ho.conditions
    · exact ho.expr.map fun _ h => Node.Each.cons h Node.Each.nil
  | switchRules => exact ho.switchRules
  | stmt => exact ho.stmt
  | block => exact ho.block
  | localVariables => exact ho.localVariables
  | forInit => exact ho.forInit
  | catchClause => exact ho.catchClause
  | tryResource => exact ho.tryResource
  | switchBlock => exact ho.switchBlock
  | decl => exact ho.decl
  | decls => exact Part.Sound.readAll ho.phrases _
  | member => exact ho.member
  | enumConstant => exact ho.enumConstant
  | recordComponent => exact ho.recordComponent
  | variableDeclarator => exact ho.variableDeclarator
  | variableDeclarators => exact ho.readAll _ _
  | variableDeclaratorId => exact ho.variableDeclaratorId
  | receiverParameter => exact ho.receiverParameter
  | formalParameter => exact ho.formalParameter
  | formalParameters => exact ho.formalParameters
  | packageDecl => exact ho.packageDecl
  | importDecl => exact ho.importDecl
  | directive => exact ho.directive
  | moduleDecl => exact ho.moduleDecl
  | compilationUnit => exact ho.compilationUnit

end Opened.Sound

/-! ### Trees -/

/-- A label without `default` is read as one item at least. -/
theorem Opened.Readable.caseItems_isEmpty {o : Opened} (ho : o.Readable .switchLabel)
    (hdefault : o.tree.hasToken .defaultKw = false) :
    Makes (·.isEmpty = false) (o.read .caseItems) := by
  have hne := ho.phrases_of_label (Bool.not_eq_true _ ▸ hdefault)
  refine Makes.map (Makes.forall_mapM fun _ _ => Makes.any) fun items h => ?_
  rw [Node.isEmpty_ofList]
  cases items with
  | nil => exact absurd (List.length_eq_zero_iff.mp h.1.symm) hne
  | cons => rfl

/-- What a regular tree is read as is sound. -/
theorem Part.sound_ofTree {t : Tree} (h : t.Regular) : (ofTree t).Sound := by
  induction h with
  | @leaf t spelled =>
    refine .mk nofun (List.forall_mem_nil _) fun goal => ?_
    exact Opened.Sound.read (o := ⟨.leaf t, []⟩) (List.forall_mem_nil _) goal
  | @node kind parts start stop holds regular starts stops ih =>
    have hbelow : ∀ p ∈ ofTrees parts, p.Sound := by
      intro p hp
      rw [ofTrees_eq_map] at hp
      obtain ⟨t, ht, rfl⟩ := List.mem_map.mp hp
      exact ih t ht
    have hreadable : (ofTree (.node kind parts start stop)).Readable :=
      readable_ofTree (.node holds regular starts stops)
    refine .mk (fun hkind hdefault => ?_) hbelow fun goal => ?_
    · exact (hreadable.opened hkind).caseItems_isEmpty hdefault
    · exact Opened.Sound.read (o := ⟨.node kind parts start stop, ofTrees parts⟩) hbelow goal

namespace Tree.Regular

variable {t : Tree}

theorem readAny_sound (h : t.Regular) {c : Category} (goal : Goal c) :
    Makes (fun n : AnyNode => n.node.Sound) (t.readAny goal) :=
  ((Part.sound_ofTree h).read goal).map fun _ hn => hn

theorem readOnly_sound (h : t.Regular) {rule : Tree → Except NodeError AnyNode}
    (hrule : ∀ t : Tree, t.Regular → Makes (fun n : AnyNode => n.node.Sound) (rule t)) :
    Makes (fun n : AnyNode => n.node.Sound) (t.readOnly rule) := by
  unfold Tree.readOnly
  split
  · rename_i inner hinner
    have hmem : inner ∈ t.parts := (List.mem_filter.mp (List.mem_of_head? hinner)).1
    cases h with
    | leaf => cases hmem
    | node _ regular => exact hrule inner (regular inner hmem)
  · exact .error _

theorem readDeclared_sound (h : t.Regular) :
    Makes (fun n : AnyNode => n.node.Sound) t.readDeclared := by
  unfold Tree.readDeclared
  split <;> exact h.readAny_sound _

/-- A regular tree is read as a sound node, if it is read at all. -/
theorem readWhole_sound (h : t.Regular) : Makes (fun n : AnyNode => n.node.Sound) t.readWhole := by
  unfold Tree.readWhole
  split
  · exact h.readAny_sound _
  · exact h.readOnly_sound fun t ht => ht.readDeclared_sound
  · exact h.readOnly_sound fun t ht => ht.readAny_sound _
  · exact h.readOnly_sound fun t ht => ht.readAny_sound _
  all_goals first
    | exact h.readDeclared_sound
    | exact h.readAny_sound _
    | (split <;> exact h.readAny_sound _)

end Tree.Regular

/-- **What is parsed obeys every rule about its kind and has a text.** -/
theorem parse_sound {mode : Mode} {limit : Nat} {source : String} {n : AnyNode}
    (h : parse mode limit source = .ok n) : n.node.Sound := by
  rw [parse] at h
  cases htree : parseTree mode limit source with
  | error e => rw [htree] at h; cases h
  | ok tree =>
    rw [htree] at h
    obtain ⟨_, _, hregular, -⟩ := parseTree_regular htree
    have hread : tree.readWhole = .ok n := by
      change (tree.readWhole.mapError Failure.node) = .ok n at h
      cases hwhole : tree.readWhole with
      | error e => rw [hwhole] at h; cases h
      | ok m => rw [hwhole] at h; cases h; rfl
    exact hregular.readWhole_sound n hread

/-- **Every node of what is parsed has a text, whatever the indent.** -/
theorem parse_prints {mode : Mode} {limit : Nat} {source : String} {n : AnyNode}
    (h : parse mode limit source = .ok n) {x : AnyNode} (hx : x ∈ n.node.preorder true)
    (indent : Nat) : ∃ text, x.print indent = .ok text := by
  have hprintable : n.node.Printable := (parse_sound h).mono fun _ hx => hx.2
  have hbelow : x.node.Printable := hprintable.below x hx
  exact hbelow.print indent

/-- A switch with an arrow, a default and a number. -/
theorem parse_prints_switch :
    ∃ n, parse .stmt 20 "switch (a) { case A -> b = 1.5; default -> c(D::new); }" = .ok n ∧
      (n.node.preorder true).length = 22 ∧
      ∀ x ∈ n.node.preorder true, ∀ indent, ∃ text, x.print indent = .ok text := by
  have heval : (parse .stmt 20 "switch (a) { case A -> b = 1.5; default -> c(D::new); }").toOption.map
      (fun n => (n.node.preorder true).length) = some 22 := by decide +kernel
  cases hparse : parse .stmt 20 "switch (a) { case A -> b = 1.5; default -> c(D::new); }" with
  | error e =>
    rw [hparse] at heval
    cases heval
  | ok n =>
    rw [hparse] at heval
    exact ⟨n, rfl, Option.some.inj heval, fun x hx indent => parse_prints hparse hx indent⟩

end JavaSource
