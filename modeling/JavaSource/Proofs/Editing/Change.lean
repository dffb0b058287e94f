import JavaSource.Proofs.Editing
import JavaSource.Proofs.Traversal

/-!
# Edits carried out

A transformer carries out an edit if it deletes the statements that the edit leaves out, gives new
names to identifiers, and goes on into everything else.  `Edit.Gives.change` tells what becomes of
a node of a valid tree then: it is deleted, it becomes the edited node, or there is an error, and
the last of these only where a node loses a statement that it cannot do without.

Work on a node (`Edit.Works`) goes from part to part, so there is one lemma for each way to come to
a part.  Besides what is made it keeps track of whether anything changed: a node is left as it is
if all its parts are.
-/

namespace JavaSource

/-- The node that a change leaves in place of a node, if it is one. -/
def Change.result? {c : Category} (old : Node c) : Change c → Option (Node c)
  | keep              => some old
  | replace n         => some n
  | delete | splice _ => none

/-- A transformer deletes what an edit leaves out, gives an identifier its new name, and leaves
everything else to the change of what is in it. -/
structure Edit.CarriedOutBy (edit : Edit) (t : Transformer (Except NodeError)) : Prop where
  family {c : Category} (n : Node c) (inner : Except NodeError (Change c)) :
    t.family n inner = if n.isIn edit.drops then .ok .delete else inner
  identifier (n : Node .identifier) :
    ∃ change, t.kind n (.ok .keep) = .ok change ∧ change.result? n = some (n.edited edit)
  kind {c : Category} (n : Node c) (inner : Except NodeError (Change c)) (hc : c ≠ .identifier) :
    t.kind n inner = inner

namespace Edit

open Node Transformer

variable {edit : Edit} {t : Transformer (Except NodeError)} {c d : Category}

/-- The edited node comes in place of a node, unless there is no doing without what is left out. -/
def Yields (edit : Edit) (n : Node c) (r : Except NodeError (Change c)) : Prop :=
  (edit.Spares n → ∃ change, r = .ok change ∧ change.result? n = some (n.edited edit)) ∧
    (¬ edit.Spares n → ∃ e, r = .error e)

/-- A node is deleted if it is left out, or else becomes the edited node. -/
def Gives (edit : Edit) (n : Node c) (r : Except NodeError (Change c)) : Prop :=
  if n.isIn edit.drops then r = .ok .delete else edit.Yields n r

/-- Work on a node comes to a node, and if nothing changed on the way, `unchanged` holds. -/
def Makes (x : StateT Bool (Except NodeError) (Node c)) (n : Node c) (unchanged : Prop) : Prop :=
  ∀ b, ∃ b', x b = .ok (n, b') ∧ (b' = false → b = false ∧ unchanged)

/-- Work on a node comes to an error. -/
def Fails (x : StateT Bool (Except NodeError) (Node c)) : Prop := ∀ b, ∃ e, x b = .error e

/-- Every node in each of the lists obeys the rules about its kind. -/
abbrev AllValid (olds : List (List AnyNode)) : Prop :=
  EachPart (fun x => x.node.flaw? = none) olds

/-- If the old parts are valid, work on a node comes to a node where what is left out can be spared,
and to an error elsewhere. -/
def Works (olds : List (List AnyNode)) (spares : Prop)
    (x : StateT Bool (Except NodeError) (Node c)) (n : Node c) (unchanged : Prop) : Prop :=
  AllValid olds → (spares → Makes x n unchanged) ∧ (¬ spares → Fails x)

variable {n : Node c} {inner : Except NodeError (Change c)} {olds : List (List AnyNode)}
  {spares : Prop} {node field : String}

/-! ### What becomes of a node -/

theorem Gives.of_yields (hin : n.isIn edit.drops = false) (h : edit.Yields n inner) :
    edit.Gives n inner := by
  rw [Gives, hin]
  exact h

theorem Gives.yields (h : edit.Gives n inner) (hin : n.isIn edit.drops = false) :
    edit.Yields n inner := by
  rw [Gives, hin] at h
  exact h

/-- A node stays as it is. -/
theorem Yields.keep (hspares : edit.Spares n) (hn : n.edited edit = n) :
    edit.Yields n (.ok .keep) :=
  ⟨fun _ => ⟨.keep, rfl, congrArg some hn.symm⟩, fun h => absurd hspares h⟩

theorem Gives.kind (ht : edit.CarriedOutBy t) (hc : c ≠ .identifier) (hstmt : c ≠ .stmt)
    (h : n.isIn edit.drops = false → edit.Yields n inner) : edit.Gives n (t.kind n inner) := by
  have hin := isIn_eq_false edit.drops hstmt n
  rw [ht.kind n inner hc]
  exact .of_yields hin (h hin)

theorem Gives.family (ht : edit.CarriedOutBy t)
    (h : n.isIn edit.drops = false → edit.Yields n inner) : edit.Gives n (t.family n inner) := by
  rw [Gives, ht.family]
  split
  · rfl
  · exact h (eq_false_of_ne_true ‹_›)

theorem Gives.member (ht : edit.CarriedOutBy t) (hc : c ≠ .identifier)
    (h : n.isIn edit.drops = false → edit.Yields n inner) : edit.Gives n (t.member n inner) := by
  refine .family ht fun hin => ?_
  rw [ht.kind n inner hc]
  exact h hin

/-- A node is made anew if something in it changed. -/
theorem Yields.rebuilt {work : StateT Bool (Except NodeError) (Node c)} {n' : Node c}
    (hvalid : ∀ x ∈ (⟨c, n⟩ : AnyNode) :: olds.flatten, x.node.flaw? = none)
    (hspares : edit.Spares n ↔ spares) (h : n.flaw? = none → Works olds spares work n' (n' = n))
    (hn' : n.edited edit = n' := by rfl) : edit.Yields n (rebuilt work) := by
  obtain ⟨hflaw, holds⟩ := Each.parts hvalid
  obtain ⟨hmakes, hfails⟩ := h hflaw holds
  constructor
  · intro hn
    obtain ⟨b, hwork, hb⟩ := hmakes (hspares.mp hn) false
    change ∃ change, (work false >>= _) = .ok change ∧ _
    rw [hwork, hn']
    cases b with
    | true => exact ⟨.replace _, rfl, rfl⟩
    | false => exact ⟨.keep, rfl, congrArg some (hb rfl).2.symm⟩
  · intro hn
    obtain ⟨e, hwork⟩ := hfails (mt hspares.mpr hn) false
    refine ⟨e, ?_⟩
    change (work false >>= _) = _
    rw [hwork]
    rfl

theorem Yields.map {f : Change c → Change d} {m : Node d} (h : edit.Yields n inner)
    (hspares : edit.Spares m ↔ edit.Spares n)
    (hf : ∀ change : Change c, change.result? n = some (n.edited edit) →
      (f change).result? m = some (m.edited edit)) : edit.Yields m (f <$> inner) := by
  constructor
  · intro hm
    obtain ⟨change, rfl, hchange⟩ := h.1 (hspares.mp hm)
    exact ⟨f change, rfl, hf change hchange⟩
  · intro hm
    obtain ⟨e, rfl⟩ := h.2 (mt hspares.mpr hm)
    exact ⟨e, rfl⟩

/-- A node that stands for another. -/
theorem Yields.lift {f : Node c → Node d} (h : edit.Gives n inner) (hin : n.isIn edit.drops = false)
    (hspares : edit.Spares (f n) ↔ EachPart (fun x => x.node.isEmptied edit.drops = false)
      [n.within edit.drops]) (hf : (f n).edited edit = f (n.edited edit)) :
    edit.Yields (f n) (Change.lift f <$> inner) := by
  refine (h.yields hin).map (hspares.trans (and_iff_left trivial)) fun change hchange => ?_
  cases change with
  | keep => exact congrArg some (hf ▸ congrArg f (Option.some.inj hchange))
  | replace _ => exact congrArg some (hf ▸ congrArg f (Option.some.inj hchange))
  | delete | splice => cases hchange

theorem Yields.optional (h : edit.Gives n inner) :
    edit.Yields (.present n) (Change.optional <$> inner) := by
  cases hin : n.isIn edit.drops with
  | true =>
    rw [Gives, hin] at h
    refine ⟨fun _ => ⟨.replace .absent, congrArg (Change.optional <$> ·) h, ?_⟩, fun hn => ?_⟩
    · rw [edited_present, hin]
      rfl
    · rw [Spares, within_present, within_of_isIn hin] at hn
      exact absurd (List.forall_mem_nil _) hn
  | false =>
    refine (h.yields hin).map .rfl fun change hchange => ?_
    rw [edited_present, hin]
    cases change with
    | keep => exact congrArg (fun n' => some (present n')) (Option.some.inj hchange)
    | replace _ => exact congrArg (fun n' => some (present n')) (Option.some.inj hchange)
    | delete | splice => cases hchange

/-- Nothing comes in place of the head of a list. -/
theorem result?_list_delete {head : Node c} {tail tail' : Nodes c} {rest : Change (.list c)}
    (h : rest.result? tail = some tail') :
    (Change.delete.list head tail rest).result? (.cons head tail) = some tail' := by
  cases rest with
  | keep => exact h
  | replace _ => exact h
  | delete | splice => cases h

/-- A node comes in place of the head of a list. -/
theorem result?_list {head head' : Node c} {tail tail' : Nodes c} {change : Change c}
    {rest : Change (.list c)} (hhead : change.result? head = some head')
    (h : rest.result? tail = some tail') :
    (change.list head tail rest).result? (.cons head tail) = some (.cons head' tail') := by
  cases change with
  | delete | splice => cases hhead
  | keep | replace =>
    cases hhead
    cases rest with
    | delete | splice => cases h
    | keep | replace => cases h; rfl

theorem Yields.cons {head : Node c} {tail : Nodes c} {rest : Except NodeError (Change (.list c))}
    (hhead : edit.Gives head inner) (htail : edit.Yields tail rest) :
    edit.Yields (.cons head tail) (do
      let change ← inner
      return change.list head tail (← rest)) := by
  have hspares : edit.Spares (.cons head tail) ↔ edit.Spares head ∧ edit.Spares tail :=
    List.forall_mem_append
  rw [Yields, hspares, edited_cons]
  cases hin : head.isIn edit.drops with
  | true =>
    have hfree : edit.Spares head := by
      rw [Spares, within_of_isIn hin]
      exact List.forall_mem_nil _
    rw [Gives, hin] at hhead
    cases hhead
    constructor
    · rintro ⟨-, ht⟩
      obtain ⟨change, rfl, hchange⟩ := htail.1 ht
      exact ⟨_, rfl, result?_list_delete hchange⟩
    · intro h
      obtain ⟨e, rfl⟩ := htail.2 fun ht => h ⟨hfree, ht⟩
      exact ⟨e, rfl⟩
  | false =>
    have hhead := hhead.yields hin
    constructor
    · rintro ⟨hh, ht⟩
      obtain ⟨change, rfl, hchange⟩ := hhead.1 hh
      obtain ⟨other, rfl, hother⟩ := htail.1 ht
      exact ⟨_, rfl, result?_list hchange hother⟩
    · intro h
      by_cases hh : edit.Spares head
      · obtain ⟨change, rfl, -⟩ := hhead.1 hh
        obtain ⟨e, rfl⟩ := htail.2 fun ht => h ⟨hh, ht⟩
        exact ⟨e, rfl⟩
      · obtain ⟨e, rfl⟩ := hhead.2 hh
        exact ⟨e, rfl⟩

/-! ### Work on a node -/

variable {m : Node d} {unchanged : Prop} {f : Node c → StateT Bool (Except NodeError) (Node d)}

theorem Works.made (h : unchanged := by intros; congr) :
    Works [] True (Pure.pure m : StateT Bool (Except NodeError) (Node d)) m unchanged :=
  fun _ => ⟨fun _ b => ⟨b, rfl, fun hb => ⟨hb, h⟩⟩, fun hfalse => absurd trivial hfalse⟩

theorem Works.rechecked (hm : m.flaw? = none) (h : unchanged := by intros; congr) :
    Works [] True (recheck m : StateT Bool (Except NodeError) (Node d)) m unchanged := by
  rw [recheck, hm]
  exact .made h

/-- Work goes on behind a part. -/
theorem Works.bind {x : StateT Bool (Except NodeError) (Node c)} {a a' : Node c}
    {part : List AnyNode} {free : Prop}
    (hx : (∀ y ∈ part, y.node.flaw? = none) → (free → Makes x a' (a' = a)) ∧ (¬ free → Fails x))
    (hf : Works olds spares (f a') m (a' = a → unchanged)) :
    Works (part :: olds) (free ∧ spares) (x >>= f) m unchanged := by
  intro hvalid
  obtain ⟨hmakes, hfails⟩ := hx hvalid.1
  obtain ⟨hmakes', hfails'⟩ := hf hvalid.2
  constructor
  · rintro ⟨hfree, hspares⟩ b
    obtain ⟨b₁, hx, hb₁⟩ := hmakes hfree b
    obtain ⟨b₂, hf, hb₂⟩ := hmakes' hspares b₁
    refine ⟨b₂, ?_, fun hb => ?_⟩
    · change (x b >>= _) = _
      rw [hx]
      exact hf
    · obtain ⟨hb, hrest⟩ := hb₂ hb
      exact (hb₁ hb).imp_right hrest
  · intro h b
    by_cases hfree : free
    · obtain ⟨b₁, hx, -⟩ := hmakes hfree b
      obtain ⟨e, hf⟩ := hfails' (fun hspares => h ⟨hfree, hspares⟩) b₁
      refine ⟨e, ?_⟩
      change (x b >>= _) = _
      rw [hx]
      exact hf
    · obtain ⟨e, hx⟩ := hfails hfree b
      refine ⟨e, ?_⟩
      change (x b >>= _) = _
      rw [hx]
      rfl

/-- A part becomes what comes in its place. -/
theorem makes_part (node field : String) {a : Node c} (h : edit.Gives a inner)
    (hin : a.isIn edit.drops = false) (hspares : edit.Spares a) :
    Makes (part node field a inner) (a.edited edit) (a.edited edit = a) := by
  intro b
  obtain ⟨change, rfl, hchange⟩ := (h.yields hin).1 hspares
  cases change with
  | keep =>
    rw [← Option.some.inj hchange]
    exact ⟨b, rfl, fun hb => ⟨hb, rfl⟩⟩
  | replace a' =>
    rw [← Option.some.inj hchange]
    exact ⟨true, rfl, nofun⟩
  | delete | splice => cases hchange

/-- There is no doing without a part. -/
theorem fails_part (node field : String) {a : Node c} (h : edit.Gives a inner)
    (hfree : ¬ (a.isIn edit.drops = false ∧ edit.Spares a)) : Fails (part node field a inner) := by
  intro b
  cases hin : a.isIn edit.drops with
  | true =>
    rw [Gives, hin] at h
    cases h
    exact ⟨_, rfl⟩
  | false =>
    obtain ⟨e, rfl⟩ := (h.yields hin).2 fun hspares => hfree ⟨hin, hspares⟩
    exact ⟨e, rfl⟩

/-- Work that starts with a part that may be left out. -/
theorem Works.branch {a : Node c} (h : a.Valid → edit.Gives a inner)
    (hf : Works olds spares (f (a.edited edit)) m (a.edited edit = a → unchanged)) :
    Works (a.preorder true :: olds) ((a.isIn edit.drops = false ∧ edit.Spares a) ∧ spares)
      (part node field a inner >>= f) m unchanged :=
  .bind (fun ha => ⟨fun hfree => makes_part node field (h ha) hfree.1 hfree.2,
    fails_part node field (h ha)⟩) hf

/-- Work that starts with a part that is not left out. -/
theorem Works.part {a : Node c} (h : a.Valid → edit.Gives a inner)
    (hin : a.isIn edit.drops = false)
    (hf : Works olds spares (f (a.edited edit)) m (a.edited edit = a → unchanged)) :
    Works (a.preorder true :: olds) (edit.Spares a ∧ spares)
      (part node field a inner >>= f) m unchanged :=
  .bind (fun ha => ⟨makes_part node field (h ha) hin,
    fun hfree => fails_part node field (h ha) fun hs => hfree hs.2⟩) hf

/-- Parts of which one is left. -/
theorem makes_parts (node field : String) {as : Nodes c}
    {inner : Except NodeError (Change (.list c))} (h : edit.Gives as inner)
    (hspares : edit.Spares as) (hne : (as.edited edit).isEmpty = false) :
    Makes (Transformer.parts node field as inner) (as.edited edit) (as.edited edit = as) := by
  intro b
  obtain ⟨b', hpart, hb⟩ := makes_part node field h rfl hspares b
  refine ⟨b', ?_, hb⟩
  change (Transformer.part node field as inner b >>= _) = _
  rw [hpart]
  change (if (as.edited edit).isEmpty then throw _ else Pure.pure _ :
    StateT Bool (Except NodeError) _) b' = _
  rw [hne]
  rfl

/-- Parts of which none is left. -/
theorem fails_parts (node field : String) {as : Nodes c}
    {inner : Except NodeError (Change (.list c))} (h : edit.Gives as inner)
    (hfree : ¬ ((as.edited edit).isEmpty = false ∧ edit.Spares as)) :
    Fails (Transformer.parts node field as inner) := by
  intro b
  by_cases hspares : edit.Spares as
  · obtain ⟨b', hpart, -⟩ := makes_part node field h rfl hspares b
    have hempty : (as.edited edit).isEmpty = true :=
      eq_true_of_ne_false fun hne => hfree ⟨hne, hspares⟩
    refine ⟨.of node field .noElement, ?_⟩
    change (Transformer.part node field as inner b >>= _) = _
    rw [hpart]
    change (if (as.edited edit).isEmpty then throw _ else Pure.pure _ :
      StateT Bool (Except NodeError) _) b' = _
    rw [hempty]
    rfl
  · obtain ⟨e, hpart⟩ := fails_part node field h
      (fun hs => hspares hs.2) b
    refine ⟨e, ?_⟩
    change (Transformer.part node field as inner b >>= _) = _
    rw [hpart]
    rfl

/-- Work that starts with statements of which one has to be left. -/
theorem Works.body {body : Nodes .stmt} {f : Nodes .stmt → StateT Bool (Except NodeError) (Node d)}
    {inner : Except NodeError (Change (.list .stmt))} (h : body.Valid → edit.Gives body inner)
    (hf : Works olds spares (f (body.edited edit)) m (body.edited edit = body → unchanged)) :
    Works (body.preorder true :: olds)
      ((body.toList.all edit.drops = false ∧ edit.Spares body) ∧ spares)
      (Transformer.parts node field body inner >>= f) m unchanged := by
  rw [← isEmpty_edited_stmts]
  exact .bind (fun hbody => ⟨fun hfree => makes_parts node field (h hbody) hfree.2 hfree.1,
    fails_parts node field (h hbody)⟩) hf

variable {as : Nodes c} {f : Nodes c → StateT Bool (Except NodeError) (Node d)}
  {inner : Except NodeError (Change (.list c))}

/-- Work that starts with parts of which none is left out, though one has to be left. -/
theorem Works.parts (hc : c ≠ .stmt) (hne : as.isEmpty = false) (h : as.Valid → edit.Gives as inner)
    (hf : Works olds spares (f (as.edited edit)) m (as.edited edit = as → unchanged)) :
    Works (as.preorder true :: olds) (edit.Spares as ∧ spares)
      (Transformer.parts node field as inner >>= f) m unchanged := by
  have hne : (as.edited edit).isEmpty = false := (isEmpty_edited hc as).trans hne
  exact .bind (fun has => ⟨fun hspares => makes_parts node field (h has) hspares hne,
    fun hfree => fails_parts node field (h has) fun hs => hfree hs.2⟩) hf

/-! ### Parts that nothing is left out of -/

theorem spares_parts (hin : n.isIn edit.drops = false) (hn : n.isEmptied edit.drops = false) :
    (∀ x ∈ n.passing edit.drops olds, x.node.isEmptied edit.drops = false) ↔
      EachPart (fun x => x.node.isEmptied edit.drops = false) olds :=
  (spares_passing_iff hin).trans (and_iff_right hn)

theorem spares_leaf (hin : n.isIn edit.drops = false) (hn : n.isEmptied edit.drops = false) :
    ∀ x ∈ n.passing edit.drops [], x.node.isEmptied edit.drops = false :=
  (spares_parts hin hn).mpr trivial

theorem flaw?_edited_tryStmt {span : Option Text.Span} {body : Node .block}
    {catches : Nodes .catchClause} {final : OptNode .block}
    (h : (Node.tryStmt span body catches final).flaw? = none) :
    (Node.tryStmt span (body.edited edit) (catches.edited edit) (final.edited edit)).flaw? =
      none := by
  cases catches <;> cases final <;> first | rfl | cases h

/-- What comes of a statement that is not left out, with the other parts of the node in front. -/
theorem and_behind {p q r r' : Prop} (h : p ∧ r ↔ r') : p ∧ q ∧ r ↔ q ∧ r' :=
  and_left_comm.trans (and_congr_right' h)

end Edit

open Edit Node in
/-- **What an edit makes of a node is what becomes of it when the edit is carried out.** -/
theorem Edit.Gives.change {edit : Edit} {t : Transformer (Except NodeError)}
    (ht : edit.CarriedOutBy t) {c : Category} (n : Node c) :
    n.Valid → edit.Gives n (t.change n) := by
  induction n with
  | nil | absent => exact fun _ => .of_yields rfl (.keep (List.forall_mem_nil _) rfl)
  | noInit => exact fun _ => .of_yields rfl (.keep (spares_leaf rfl rfl) rfl)
  | cons head tail hhead htail =>
    intro h
    obtain ⟨hh, ht⟩ := List.forall_mem_append.mp h
    exact .of_yields rfl (.cons (hhead hh) ((htail ht).yields rfl))
  | present _ ih => exact fun h => .of_yields rfl (.optional (ih h))
  | annotationModifier _ ih | valueElement _ ih | exprValue _ ih | annotationValue _ ih
  | exprItem _ ih | singleParam _ ih | nameParams _ ih | formalParams _ ih | exprBody _ ih
  | blockBody _ ih | typeTarget _ ih | patternTarget _ ih | exprReference _ ih
  | typeReference _ ih | exprCase _ ih | exprsInit _ ih | variablesInit _ ih | nameResource _ ih =>
    exact fun h => .of_yields rfl (.lift (ih h) rfl (spares_parts rfl rfl) rfl)
  | arrayInit _ ih | blockStmt _ ih | localVariableStmt _ ih =>
    exact fun h => .family ht fun hin => .lift (ih h) rfl (spares_parts hin rfl) rfl
  | identifier span name =>
    intro _
    obtain ⟨change, hchange, hresult⟩ := ht.identifier (.identifier span name)
    have hfree : edit.Spares (.identifier span name) := spares_leaf rfl rfl
    exact .of_yields rfl ⟨fun _ => ⟨change, hchange, hresult⟩, fun h => absurd hfree h⟩
  | literal _ _ | keywordModifier _ _ | binaryOperator _ | unaryOperator _ | postOperator _
  | assignOperator _ | defaultLabel _ =>
    exact fun _ => .kind ht nofun nofun fun hin => .keep (spares_leaf hin rfl) rfl
  | emptyStmt _ | emptyDecl _ =>
    exact fun _ => .member ht nofun fun hin => .keep (spares_leaf hin rfl) rfl
  | qualifiedName _ _ ha | typeParameters _ _ ha =>
    exact fun h => .kind ht nofun nofun fun hin => .rebuilt h (spares_parts hin rfl) fun hn =>
      .parts nofun (isEmpty_of_lacking? hn) ha .made
  | annotationUse _ _ _ ha hb | elementValuePair _ _ _ ha hb | wildcardType _ _ _ ha hb
  | guardedPattern _ _ _ ha hb | dimExpr _ _ _ ha hb | switchRule _ _ _ _ _ ha hb
  | matchValue _ _ _ ha hb | variableDeclaratorId _ _ _ ha hb | variableDeclarator _ _ _ ha hb
  | receiverParameter _ _ _ ha hb | formalParameters _ _ _ ha hb | packageDecl _ _ _ ha hb
  | requiresDirective _ _ _ ha hb | exportsDirective _ _ _ ha hb | opensDirective _ _ _ ha hb
  | modularUnit _ _ _ ha hb =>
    exact fun h => .kind ht nofun nofun fun hin => .rebuilt h (spares_parts hin rfl) fun _ =>
      .part ha rfl <| .part hb rfl .made
  | elementValueArray _ _ ha | wordType _ _ _ ha | wildcardBound _ _ _ _ ha | dim _ _ ha
  | arrayInitializer _ _ ha | block _ _ ha | caseLabel _ _ ha | importDecl _ _ _ _ ha
  | usesDirective _ _ ha =>
    exact fun h => .kind ht nofun nofun fun hin => .rebuilt h (spares_parts hin rfl) fun _ =>
      .part ha rfl .made
  | classType _ _ _ ha hb | typeBound _ _ _ ha hb | providesDirective _ _ _ ha hb =>
    exact fun h => .kind ht nofun nofun fun hin => .rebuilt h (spares_parts hin rfl) fun hn =>
      .part ha rfl <| .parts nofun (isEmpty_of_lacking? hn) hb .made
  | arrayType _ _ _ _ ha hb hd | localVariables _ _ _ _ ha hb hd =>
    exact fun h => .kind ht nofun nofun fun hin => .rebuilt h (spares_parts hin rfl) fun hn =>
      .part ha rfl <| .part hb rfl <| .parts nofun (isEmpty_of_lacking? hn) hd .made
  | coit _ _ _ _ ha hb hd | typeParameter _ _ _ _ ha hb hd | switchBlock _ _ _ _ ha hb hd
  | resource _ _ _ _ ha hb hd | parameter _ _ _ _ ha hb hd | recordComponent _ _ _ _ _ ha hb hd
  | moduleDecl _ _ _ _ _ ha hb hd | ordinaryUnit _ _ _ _ ha hb hd =>
    exact fun h => .kind ht nofun nofun fun hin => .rebuilt h (spares_parts hin rfl) fun _ =>
      .part ha rfl <| .part hb rfl <| .part hd rfl .made
  | pattern _ _ _ _ _ ha hb hd he | variableArityParameter _ _ _ _ _ ha hb hd he
  | enumConstant _ _ _ _ _ ha hb hd he =>
    exact fun h => .kind ht nofun nofun fun hin => .rebuilt h (spares_parts hin rfl) fun _ =>
      .part ha rfl <| .part hb rfl <| .part hd rfl <| .part he rfl .made
  | name _ _ ha | constant _ _ ha | thisExpr _ _ ha | classExpr _ _ ha | localTypeStmt _ _ ha
  | exprStmt _ _ ha | breakStmt _ _ ha | continueStmt _ _ ha | returnStmt _ _ ha
  | throwStmt _ _ ha | yieldStmt _ _ ha | initializerDecl _ _ _ ha =>
    exact fun h => .member ht nofun fun hin => .rebuilt h (spares_parts hin rfl) fun _ =>
      .part ha rfl .made
  | superExpr _ _ _ _ ha hb hd | assignment _ _ _ _ ha hb hd | conditional _ _ _ _ ha hb hd
  | binary _ _ _ _ ha hb hd | cast _ _ _ _ ha hb hd | reference _ _ _ _ _ ha hb hd
  | compactConstructorDecl _ _ _ _ ha hb hd | annotationDecl _ _ _ _ ha hb hd =>
    exact fun h => .member ht nofun fun hin => .rebuilt h (spares_parts hin rfl) fun _ =>
      .part ha rfl <| .part hb rfl <| .part hd rfl .made
  | lambda _ _ _ ha hb | instanceOf _ _ _ ha hb | unary _ _ _ ha hb | post _ _ _ ha hb
  | switchExpr _ _ _ ha hb | call _ _ _ ha hb | member _ _ _ ha hb | index _ _ _ ha hb
  | genericCall _ _ _ ha hb | assertStmt _ _ _ ha hb | switchStmt _ _ _ ha hb
  | synchronizedStmt _ _ _ ha hb =>
    exact fun h => .member ht nofun fun hin => .rebuilt h (spares_parts hin rfl) fun _ =>
      .part ha rfl <| .part hb rfl .made
  | newObject _ _ _ _ _ ha hb hd he | newArray _ _ _ _ _ ha hb hd he
  | elementDecl _ _ _ _ _ ha hb hd he =>
    exact fun h => .member ht nofun fun hin => .rebuilt h (spares_parts hin rfl) fun _ =>
      .part ha rfl <| .part hb rfl <| .part hd rfl <| .part he rfl .made
  | newInner _ _ _ _ _ _ ha hb hd he hf | enumDecl _ _ _ _ _ _ ha hb hd he hf =>
    exact fun h => .member ht nofun fun hin => .rebuilt h (spares_parts hin rfl) fun _ =>
      .part ha rfl <| .part hb rfl <| .part hd rfl <| .part he rfl <| .part hf rfl .made
  | tryResourcesStmt _ _ _ _ _ ha hb hd he =>
    exact fun h => .member ht nofun fun hin => .rebuilt h (spares_parts hin rfl) fun hn =>
      .parts nofun (isEmpty_of_lacking? hn) ha <| .part hb rfl <| .part hd rfl <|
      .part he rfl .made
  | catchClause _ _ _ _ _ ha hb hd he =>
    exact fun h => .kind ht nofun nofun fun hin => .rebuilt h (spares_parts hin rfl) fun hn =>
      .part ha rfl <| .parts nofun (isEmpty_of_lacking? hn) hb <| .part hd rfl <|
      .part he rfl .made
  | fieldDecl _ _ _ _ ha hb hd =>
    exact fun h => .member ht nofun fun hin => .rebuilt h (spares_parts hin rfl) fun hn =>
      .part ha rfl <| .part hb rfl <| .parts nofun (isEmpty_of_orElse_right hn) hd .made
  | methodDecl _ _ _ _ _ _ _ _ _ _ ha hb hd he hf hg hh hi hj =>
    exact fun h => .member ht nofun fun hin => .rebuilt h (spares_parts hin rfl) fun _ =>
      .part ha rfl <| .part hb rfl <| .part hd rfl <| .part he rfl <| .part hf rfl <|
      .part hg rfl <| .part hh rfl <| .part hi rfl <| .part hj rfl .made
  | constructorDecl _ _ _ _ _ _ _ ha hb hd he hf hg
  | interfaceDecl _ _ _ _ _ _ _ ha hb hd he hf hg | recordDecl _ _ _ _ _ _ _ ha hb hd he hf hg =>
    exact fun h => .member ht nofun fun hin => .rebuilt h (spares_parts hin rfl) fun _ =>
      .part ha rfl <| .part hb rfl <| .part hd rfl <| .part he rfl <| .part hf rfl <|
      .part hg rfl .made
  | classDecl _ _ _ _ _ _ _ _ ha hb hd he hf hg hh =>
    exact fun h => .member ht nofun fun hin => .rebuilt h (spares_parts hin rfl) fun _ =>
      .part ha rfl <| .part hb rfl <| .part hd rfl <| .part he rfl <| .part hf rfl <|
      .part hg rfl <| .part hh rfl .made
  | typeArguments _ types ha =>
    cases types with
    | nil =>
      exact fun _ => .kind ht nofun nofun fun hin => .keep ((spares_parts hin rfl).mpr
        ⟨List.forall_mem_nil _, trivial⟩) rfl
    | cons =>
      exact fun h => .kind ht nofun nofun fun hin => .rebuilt h (spares_parts hin rfl) fun _ =>
        .parts nofun rfl ha .made
  | tryStmt _ _ _ _ ha hb hd =>
    exact fun h => .member ht nofun fun hin => .rebuilt h (spares_parts hin rfl) fun hn =>
      .part ha rfl <| .part hb rfl <| .part hd rfl <| .rechecked (flaw?_edited_tryStmt hn)
  -- A statement that the node cannot do without.
  | labeledStmt _ _ _ ha hb | whileStmt _ _ _ ha hb =>
    exact fun h => .member ht nofun fun hin =>
      .rebuilt h ((spares_passing_iff hin).trans (and_behind and_assoc.symm)) fun _ =>
        .part ha rfl <| .branch hb .made
  | doWhileStmt _ _ _ ha hb =>
    exact fun h => .member ht nofun fun hin =>
      .rebuilt h ((spares_passing_iff hin).trans and_assoc.symm) fun _ =>
        .branch ha <| .part hb rfl .made
  | ifStmt _ _ _ _ ha hb hd =>
    exact fun h => .member ht nofun fun hin =>
      .rebuilt h ((spares_passing_iff hin).trans (and_behind and_assoc.symm)) fun _ =>
        .part ha rfl <| .branch hb <| .part hd rfl .made
  | forStmt _ _ _ _ _ ha hb hd he =>
    exact fun h => .member ht nofun fun hin =>
      .rebuilt h ((spares_passing_iff hin).trans
        (and_behind (and_behind (and_behind and_assoc.symm)))) fun _ =>
        .part ha rfl <| .part hb rfl <| .part hd rfl <| .branch he .made
  | forEachStmt _ _ _ _ _ _ ha hb hd he hf =>
    exact fun h => .member ht nofun fun hin =>
      .rebuilt h ((spares_passing_iff hin).trans
        (and_behind (and_behind (and_behind (and_behind and_assoc.symm))))) fun _ =>
        .part ha rfl <| .part hb rfl <| .part hd rfl <| .part he rfl <| .branch hf .made
  | switchGroup _ _ _ ha hb =>
    exact fun h => .kind ht nofun nofun fun hin =>
      .rebuilt h ((spares_passing_iff hin).trans (and_behind and_assoc.symm)) fun hn =>
        .parts nofun (isEmpty_of_orElse_left hn) ha <| .body hb .made

namespace Edit

variable {edit : Edit} {t : Transformer (Except NodeError)} {c : Category} {n : Node c}

/-- A valid tree becomes the edited tree if it can spare what is left out. -/
theorem CarriedOutBy.transform_eq (ht : edit.CarriedOutBy t) (hn : n.Valid)
    (hin : n.isIn edit.drops = false) (hspares : edit.Spares n) :
    t.transform n = .ok (n.edited edit) := by
  obtain ⟨change, hchange, hresult⟩ := ((Gives.change ht n hn).yields hin).1 hspares
  rw [Transformer.transform, hchange]
  cases change with
  | keep => exact congrArg Except.ok (Option.some.inj hresult)
  | replace _ => exact congrArg Except.ok (Option.some.inj hresult)
  | delete | splice => cases hresult

/-- There is an error where a valid tree, or a node in it, cannot do without what is left out. -/
theorem CarriedOutBy.transform_error_iff (ht : edit.CarriedOutBy t) (hn : n.Valid) :
    (∃ e, t.transform n = .error e) ↔ n.isIn edit.drops = true ∨ ¬ edit.Spares n := by
  cases hin : n.isIn edit.drops with
  | true =>
    have hchange : t.change n = .ok .delete := by
      have h := Gives.change ht n hn
      rw [Gives, hin] at h
      exact h
    rw [Transformer.transform, hchange]
    exact iff_of_true ⟨_, rfl⟩ (.inl rfl)
  | false =>
    by_cases hspares : edit.Spares n
    · rw [ht.transform_eq hn hin hspares]
      exact iff_of_false nofun (by simp [hspares])
    · obtain ⟨e, hchange⟩ := ((Gives.change ht n hn).yields hin).2 hspares
      rw [Transformer.transform, hchange]
      exact iff_of_true ⟨e, rfl⟩ (.inr hspares)

end Edit

end JavaSource
