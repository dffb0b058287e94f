import JavaSource.Proofs.Operators.Meaning
import JavaSource.Proofs.Types.Tree

/-!
# What the parse tree of a type means

The parse tree of a type stands nowhere, as the one of an expression.  Reading it gives the node of
the type, if its class types are classes (`TypeTree.read_tree`).
-/

namespace JavaSource

/-! ### No places -/

theorem unplaced_dimTrees (dims : Nat) : (dimTrees dims).map Tree.unplaced = dimTrees dims := by
  induction dims with
  | zero => rfl
  | succ dims ih =>
    rw [dimTrees, List.map_cons, ih]
    rfl

mutual

theorem TypeTree.unplaced_tree (t : TypeTree) : t.tree.unplaced = t.tree := by
  cases t with
  | mk base dims =>
    simp only [TypeTree.tree, Phrase.unplaced_over, List.map_cons, base.unplaced_tree,
      unplaced_dimTrees]

theorem BaseTree.unplaced_tree (base : BaseTree) : base.tree.unplaced = base.tree := by
  cases base with
  | word word => rfl
  | named parts => simp only [BaseTree.tree, Phrase.unplaced_over, parts.unplaced_trees]

theorem CoitTree.unplaced_tree (part : CoitTree) : part.tree.unplaced = part.tree := by
  cases part with
  | plain name => rfl
  | generic name args =>
    have hargs := args.unplaced_trees [] rfl
    simp only [CoitTree.tree, Phrase.unplaced_over, List.map_cons, List.map_append, List.map_nil,
      TokenKind.unplaced_leaf, LegalName.unplaced_leaf, hargs]

theorem CoitTrees.unplaced_trees (parts : CoitTrees) :
    parts.trees.map Tree.unplaced = parts.trees := by
  cases parts with
  | last part => simp only [CoitTrees.trees, List.map_cons, List.map_nil, part.unplaced_tree]
  | dot first others =>
    simp only [CoitTrees.trees, List.map_cons, TokenKind.unplaced_leaf, first.unplaced_tree,
      others.unplaced_trees]

theorem ArgTree.unplaced_tree (arg : ArgTree) : arg.tree.unplaced = arg.tree := by
  cases arg with
  | type type => exact type.unplaced_tree
  | wildcard => rfl
  | bounded bound type =>
    simp only [ArgTree.tree, Bound.tree, Phrase.unplaced_over, List.map_cons, List.map_nil,
      TokenKind.unplaced_leaf, type.unplaced_tree]

theorem ArgTrees.unplaced_trees (args : ArgTrees) (lead : List Tree)
    (hlead : lead.map Tree.unplaced = lead) :
    (args.trees lead).map Tree.unplaced = args.trees lead := by
  cases args with
  | nil => rfl
  | cons first others =>
    have hothers := others.unplaced_trees [TokenKind.comma.leaf] rfl
    simp only [ArgTrees.trees, List.map_append, List.map_cons, hlead, first.unplaced_tree, hothers]

end

/-! ### Wherever it stands -/

theorem LegalName.alike_identifier (n : LegalName) (spans spans' : Spans) {i : Node .identifier}
    (h : i.Alike (n.identifier spans)) : i.Alike (n.identifier spans') := by
  cases h
  exact .identifier

theorem alike_dimNodes (spans spans' : Spans) : (dims : Nat) → {ns : Nodes .dim} →
    ns.Alike (dimNodes spans dims) → ns.Alike (dimNodes spans' dims)
  | 0, _, h => by
    cases h
    exact .nil
  | dims + 1, _, h => by
    cases h with
    | cons hfirst hothers =>
      cases hfirst with
      | dim hannotations => exact .cons (.dim hannotations) (alike_dimNodes _ _ dims hothers)

theorem Bound.alike_node (bound : Bound) (spans spans' : Spans) {ty ty' n : TypeNode}
    (htype : ∀ {n : TypeNode}, n.Alike ty → n.Alike ty') (h : n.Alike (bound.node spans ty)) :
    n.Alike (bound.node spans' ty') := by
  cases bound
  all_goals
    cases h with
    | wildcardType hannotations hsome =>
      cases hsome with
      | present hbound =>
        cases hbound with
        | wildcardBound hbound =>
          exact .wildcardType hannotations (.present (.wildcardBound (htype hbound)))

mutual

/-- What is alike the node of a type is so wherever the node stands. -/
theorem TypeTree.alike_node (spans spans' : Spans) : (t : TypeTree) → {ty : TypeNode} →
    ty.Alike (t.node spans) → ty.Alike (t.node spans')
  | .mk base 0, _, h => base.alike_node spans spans' h
  | .mk base (dims + 1), _, h => by
    cases h with
    | arrayType hannotations hbase hdims =>
      exact .arrayType hannotations (base.alike_node _ _ hbase) (alike_dimNodes _ _ (dims + 1) hdims)

theorem BaseTree.alike_node (spans spans' : Spans) : (base : BaseTree) → {ty : TypeNode} →
    ty.Alike (base.node spans) → ty.Alike (base.node spans')
  | .word _, _, h => by
    cases h with
    | wordType hannotations => exact .wordType hannotations
  | .named parts, _, h => by
    cases h with
    | classType hannotations hparts =>
      exact .classType hannotations (parts.alike_node _ _ hparts)

theorem CoitTree.alike_node (spans spans' : Spans) : (part : CoitTree) → {p : Node .coit} →
    p.Alike (part.node spans) → p.Alike (part.node spans')
  | .plain name, _, h => by
    cases h with
    | coit hannotations hid hargs =>
      exact .coit hannotations (name.alike_identifier _ _ hid) hargs
  | .generic name args, _, h => by
    cases h with
    | coit hannotations hid hsome =>
      cases hsome with
      | present hargs =>
        cases hargs with
        | typeArguments hargs =>
          exact .coit hannotations (name.alike_identifier _ _ hid)
            (.present (.typeArguments (args.alike_node _ _ hargs)))

theorem CoitTrees.alike_node (spans spans' : Spans) : (parts : CoitTrees) → {ps : Nodes .coit} →
    ps.Alike (parts.node spans) → ps.Alike (parts.node spans')
  | .last part, _, h => by
    cases h with
    | cons hpart hnone => exact .cons (part.alike_node _ _ hpart) hnone
  | .dot first others, _, h => by
    cases h with
    | cons hfirst hothers =>
      exact .cons (first.alike_node _ _ hfirst) (others.alike_node _ _ hothers)

theorem ArgTree.alike_node (spans spans' : Spans) : (arg : ArgTree) → {ty : TypeNode} →
    ty.Alike (arg.node spans) → ty.Alike (arg.node spans')
  | .type type, _, h => type.alike_node _ _ h
  | .wildcard, _, h => by
    cases h with
    | wildcardType hannotations hnone => exact .wildcardType hannotations hnone
  | .bounded bound type, _, h => bound.alike_node _ _ (type.alike_node _ _ ·) h

theorem ArgTrees.alike_node (spans spans' : Spans) : (args : ArgTrees) → {as : Nodes .type} →
    as.Alike (args.node spans) → as.Alike (args.node spans')
  | .nil, _, h => by
    cases h
    exact .nil
  | .cons first others, _, h => by
    cases h with
    | cons hfirst hothers =>
      exact .cons (first.alike_node _ _ hfirst) (others.alike_node _ _ hothers)

end

/-! ### Parts -/

theorem phrase?_dimTrees (dims : Nat) : ∀ p ∈ dimTrees dims, p.phrase? = some .dim := by
  induction dims with
  | zero => exact List.forall_mem_nil _
  | succ dims ih => exact List.forall_mem_cons.mpr ⟨rfl, ih⟩

theorem TypeTree.phrase?_tree (t : TypeTree) : t.tree.phrase? = some .type := by
  cases t with
  | mk base dims => rfl

@[simp] theorem ArgTree.isSome_phrase? (arg : ArgTree) : arg.tree.phrase?.isSome = true := by
  cases arg with
  | type type => exact type.phrase?_tree ▸ rfl
  | wildcard => rfl
  | bounded bound type => rfl

/-! ### Reading -/

theorem TypeTree.span_opened (t : TypeTree) : t.tree.opened.span = some noSpan :=
  Tree.span_opened t.unplaced_tree

theorem Tree.read_dim :
    (Phrase.dim.over [TokenKind.lbrack.leaf, TokenKind.rbrack.leaf]).read .dim =
      .ok (.dim (some noSpan) .nil) := rfl

/-- The dimensions of a type. -/
theorem read_dimTrees (dims : Nat) : ∃ nodes,
    ((dimTrees dims).filter (·.phrase? == some .dim)).mapM (Tree.read · .dim) = .ok nodes ∧
      Node.ofList nodes = dimNodes .nowhere dims := by
  induction dims with
  | zero => exact ⟨[], rfl, rfl⟩
  | succ dims ih =>
    obtain ⟨nodes, hread, hnodes⟩ := ih
    refine ⟨.dim (some noSpan) .nil :: nodes, ?_, congrArg (Node.cons _) hnodes⟩
    change (_ :: (dimTrees dims).filter (·.phrase? == some .dim)).mapM (Tree.read · .dim) = _
    rw [List.mapM_cons, Tree.read_dim, hread]
    rfl

theorem baseOf_dimTrees (dims : Nat) :
    ((dimTrees dims).map Part.ofTree).filterMapM Opened.baseOf = .ok [] := by
  induction dims with
  | zero => rfl
  | succ dims ih =>
    change (_ :: (dimTrees dims).map Part.ofTree).filterMapM Opened.baseOf = _
    rw [List.filterMapM_cons, ih]
    rfl

/-- A class type is read as its node. -/
def BaseTree.IsRead : BaseTree → Prop
  | .word _ => True
  | .named parts => (Phrase.classType.over parts.trees).read .classType =
      .ok ((BaseTree.named parts).node .nowhere)

/-- What the first part of a type offers. -/
theorem BaseTree.baseOf_tree (base : BaseTree) (hread : base.IsRead) :
    ∃ node, Opened.baseOf (Part.ofTree base.tree) = .ok (some (node, noSpan.stop)) ∧
      node.annotatedWith (some noSpan) .nil = base.node .nowhere := by
  cases base with
  | word word => cases word <;> exact ⟨_, rfl, rfl⟩
  | named parts =>
    let inner := Phrase.classType.over parts.trees
    have hstop : inner.span.stop = noSpan.stop :=
      congrArg Text.Span.stop (Tree.span_of_unplaced (BaseTree.named parts).unplaced_tree)
    refine ⟨(BaseTree.named parts).node .nowhere, ?_, rfl⟩
    change (do return some (← inner.read .classType, inner.span.stop)) = _
    rw [hread, hstop]
    rfl

/-- The annotations of a type are none. -/
theorem TypeTree.annotations_opened (base : BaseTree) (dims : Nat) :
    (TypeTree.mk base dims).tree.opened.annotations = .ok .nil := by
  refine Tree.readAll_none (List.filter_eq_nil_iff.mpr (List.forall_mem_cons.mpr ⟨?_, ?_⟩))
  · cases base with
    | word word => exact Bool.false_ne_true
    | named parts => exact Bool.false_ne_true
  · intro p hp
    rw [phrase?_dimTrees dims p hp]
    exact Bool.false_ne_true

/-- The dimensions of a type. -/
theorem TypeTree.dims_opened (base : BaseTree) (dims : Nat) :
    (TypeTree.mk base dims).tree.opened.dims = .ok (dimNodes .nowhere dims) := by
  have hbase : (base.tree.phrase? == some .dim) = false := by
    cases base with
    | word word => rfl
    | named parts => rfl
  obtain ⟨nodes, hread, hnodes⟩ := read_dimTrees dims
  rw [Opened.dims, Tree.readAll_opened]
  change Node.ofList <$> ((base.tree :: dimTrees dims).filter _).mapM _ = _
  rw [List.filter_cons, hbase, if_neg Bool.false_ne_true, hread, ← hnodes]
  rfl

/-- A type is read as its node, if its base is. -/
theorem TypeTree.type_opened {base : BaseTree} (dims : Nat) (hread : base.IsRead) :
    (TypeTree.mk base dims).tree.opened.type = .ok ((TypeTree.mk base dims).node .nowhere) := by
  let outer := (TypeTree.mk base dims).tree
  obtain ⟨node, hbase, hnode⟩ := base.baseOf_tree hread
  have hbases : outer.opened.parts.filterMapM Opened.baseOf = .ok [(node, noSpan.stop)] := by
    rw [Tree.parts_opened]
    change (_ :: (dimTrees dims).map Part.ofTree).filterMapM Opened.baseOf = _
    rw [List.filterMapM_cons, hbase, baseOf_dimTrees]
    rfl
  have hstart : outer.opened.tree.start.place = noSpan.start := by
    rw [Tree.tree_opened]
    exact congrArg Text.Span.start (Tree.span_of_unplaced (TypeTree.mk base dims).unplaced_tree)
  have hspan : outer.opened.span = some noSpan := TypeTree.span_opened _
  rw [Opened.type, hbases, annotations_opened, dims_opened, hspan, hstart]
  cases dims with
  | zero => exact congrArg Except.ok hnode
  | succ dims =>
    change (Node.arrayType (some noSpan) .nil (node.annotatedWith (some noSpan) .nil)
      (dimNodes .nowhere (dims + 1))).checked = _
    rw [hnode]
    rfl

/-! ### Class types -/

theorem CoitTree.isVar_node (part : CoitTree) (h : (CoitTrees.last part).IsClass) :
    Opened.isVar (part.node .nowhere) = false := by
  cases part with
  | plain n =>
    have hne : n.text ≠ "var" := h
    simp [CoitTree.node, Opened.isVar, LegalName.identifier, hne]
  | generic n args =>
    exact Bool.and_false _

/-- Parts that are read make a class type. -/
theorem CoitTrees.read_classType {parts : CoitTrees} (h : parts.IsClass)
    (hread : ∃ nodes, (parts.trees.filter (·.phrase? == some .coit)).mapM (Tree.read · .coit) =
      .ok nodes ∧ Node.ofList nodes = parts.node .nowhere) :
    (Phrase.classType.over parts.trees).read .classType =
      .ok ((BaseTree.named parts).node .nowhere) := by
  let outer := Phrase.classType.over parts.trees
  obtain ⟨nodes, hread, hnodes⟩ := hread
  have hcoits : outer.opened.readAll .coit .coit = .ok (parts.node .nowhere) := by
    rw [Tree.readAll_opened]
    change Node.ofList <$> (parts.trees.filter _).mapM _ = _
    rw [hread, ← hnodes]
    rfl
  have hspan : outer.opened.span = some noSpan := by
    rw [Opened.span, Tree.tree_opened]
    exact congrArg some (Tree.span_of_unplaced (BaseTree.named parts).unplaced_tree)
  rw [Tree.read_eq]
  change outer.opened.classType = _
  rw [Opened.classType, hcoits, hspan]
  cases parts with
  | last part =>
    change (if Opened.isVar (part.node .nowhere) = true then _ else _) = _
    rw [part.isVar_node h]
    rfl
  | dot first others =>
    cases others <;> rfl

/-- A wildcard with a bound is read if the type is. -/
theorem Bound.read_tree (bound : Bound) {type : TypeTree}
    (hread : type.tree.read .type = .ok (type.node .nowhere)) :
    (bound.tree type.tree).read .typeArgument = .ok (bound.node .nowhere (type.node .nowhere)) := by
  let outer := bound.tree type.tree
  have hunplaced : outer.unplaced = outer := (ArgTree.bounded bound type).unplaced_tree
  have hspan : outer.opened.span = some noSpan := by
    rw [Opened.span, Tree.tree_opened, Tree.span_of_unplaced hunplaced]
  have hinner : type.tree.span = noSpan := Tree.span_of_unplaced type.unplaced_tree
  have hfirst : outer.opened.first? .type = some (Part.ofTree type.tree) := by
    rw [Tree.first?_opened]
    change Option.map _ ([_, _, type.tree].find? _) = _
    simp [type.phrase?_tree]
  have hannotations : outer.opened.annotations = .ok .nil := Tree.readAll_none (by
    change [_, _, type.tree].filter _ = _
    simp [type.phrase?_tree])
  have htype : (Part.ofTree type.tree).read .type = .ok (type.node .nowhere) := hread
  rw [Tree.read_eq]
  change outer.opened.wildcard = _
  rw [Opened.wildcard, hfirst, hannotations, hspan]
  dsimp only
  rw [htype, Part.tree_ofTree, hinner]
  cases type with
  | mk base dims => cases bound <;> rfl

/-- A part of a class type with type arguments is read if they are. -/
theorem CoitTree.read_generic {name : LegalName} {args : ArgTrees}
    (hread : ∃ nodes, ((args.trees []).filter (·.phrase?.isSome)).mapM
      (Tree.read · .typeArgument) = .ok nodes ∧ Node.ofList nodes = args.node .nowhere) :
    (CoitTree.generic name args).tree.read .coit =
      .ok ((CoitTree.generic name args).node .nowhere) := by
  let outer := (CoitTree.generic name args).tree
  let inner := Phrase.typeArguments.over
    (TokenKind.lt.leaf :: args.trees [] ++ [TokenKind.gt.leaf])
  obtain ⟨nodes, hread, hnodes⟩ := hread
  have hunplaced : inner.unplaced = inner := by
    have hargs := args.unplaced_trees [] rfl
    simp only [inner, Phrase.unplaced_over, List.map_cons, List.map_append, List.map_nil,
      TokenKind.unplaced_leaf, hargs]
  have hinner : inner.read .typeArguments =
      .ok (.typeArguments (some noSpan) (args.node .nowhere)) := by
    have hspan : inner.opened.span = some noSpan := by
      rw [Opened.span, Tree.tree_opened, Tree.span_of_unplaced hunplaced]
    have hphrases : inner.phrases = (args.trees []).filter (·.phrase?.isSome) := by
      simp [inner]
    rw [Tree.read_eq]
    change Node.typeArguments inner.opened.span <$> Part.readAll .typeArgument inner.opened.phrases
      = _
    rw [Tree.readAll_phrases, hphrases, hread, hspan, ← hnodes]
    rfl
  have hspan : outer.opened.span = some noSpan := by
    rw [Opened.span, Tree.tree_opened, Tree.span_of_unplaced (unplaced_tree _)]
  rw [Tree.read_eq]
  change (do
    let id ← outer.opened.identifier
    let annotations ← outer.opened.annotations
    return Node.coit outer.opened.span annotations id
      (← outer.opened.readFirst? .typeArguments .typeArguments) : Reading .coit) = _
  have hargs : outer.opened.readFirst? .typeArguments .typeArguments =
      Node.present <$> inner.read .typeArguments := rfl
  rw [hargs, hinner, hspan]
  rfl

/-! ### All types -/

mutual

/-- **The parse tree of a type is read as its node.** -/
theorem TypeTree.read_tree (t : TypeTree) (h : t.HasClasses) :
    t.tree.read .type = .ok (t.node .nowhere) := by
  cases t with
  | mk base dims => exact (Tree.read_eq ..).trans (TypeTree.type_opened dims (base.isRead h))

theorem BaseTree.isRead (base : BaseTree) (h : base.HasClasses) : base.IsRead := by
  cases base with
  | word word => trivial
  | named parts => exact parts.read_classType h.1 (parts.read_trees h.2)

theorem CoitTree.read_tree (part : CoitTree) (h : part.HasClasses) :
    part.tree.read .coit = .ok (part.node .nowhere) := by
  cases part with
  | plain name => rfl
  | generic name args => exact CoitTree.read_generic (args.read_trees h [] rfl)

theorem CoitTrees.read_trees (parts : CoitTrees) (h : parts.HasClasses) : ∃ nodes,
    (parts.trees.filter (·.phrase? == some .coit)).mapM (Tree.read · .coit) = .ok nodes ∧
      Node.ofList nodes = parts.node .nowhere := by
  cases parts with
  | last part =>
    have hpart : (part.tree.phrase? == some .coit) = true := by cases part <;> rfl
    refine ⟨[part.node .nowhere], ?_, rfl⟩
    rw [CoitTrees.trees, List.filter_cons, if_pos hpart, List.filter_nil, List.mapM_cons,
      part.read_tree h]
    rfl
  | dot first others =>
    have hfirst : (first.tree.phrase? == some .coit) = true := by cases first <;> rfl
    obtain ⟨nodes, hread, hnodes⟩ := others.read_trees h.2
    refine ⟨first.node .nowhere :: nodes, ?_, congrArg (Node.cons _) hnodes⟩
    have hdot : (TokenKind.dot.leaf :: others.trees).filter (·.phrase? == some .coit) =
        others.trees.filter (·.phrase? == some .coit) := rfl
    rw [CoitTrees.trees, List.filter_cons, if_pos hfirst, hdot, List.mapM_cons,
      first.read_tree h.1, hread]
    rfl

theorem ArgTree.read_tree (arg : ArgTree) (h : arg.HasClasses) :
    arg.tree.read .typeArgument = .ok (arg.node .nowhere) := by
  cases arg with
  | type type =>
    cases type with
    | mk base dims =>
      exact (Tree.read_eq ..).trans (TypeTree.type_opened dims (base.isRead h))
  | wildcard => rfl
  | bounded bound type => exact bound.read_tree (type.read_tree h)

theorem ArgTrees.read_trees (args : ArgTrees) (h : args.HasClasses) (lead : List Tree)
    (hlead : lead.filter (·.phrase?.isSome) = []) : ∃ nodes,
    ((args.trees lead).filter (·.phrase?.isSome)).mapM (Tree.read · .typeArgument) = .ok nodes ∧
      Node.ofList nodes = args.node .nowhere := by
  cases args with
  | nil => exact ⟨[], rfl, rfl⟩
  | cons first others =>
    obtain ⟨nodes, hread, hnodes⟩ := others.read_trees h.2 [TokenKind.comma.leaf] rfl
    refine ⟨first.node .nowhere :: nodes, ?_, congrArg (Node.cons _) hnodes⟩
    rw [ArgTrees.trees, List.filter_append, hlead, List.nil_append, List.filter_cons,
      if_pos first.isSome_phrase?, List.mapM_cons, first.read_tree h.1, hread]
    rfl

end

end JavaSource
