import JavaSource.Printing.Printer
import JavaSource.Proofs.Preorder

/-!
# Nodes that have a text

A document has a text if there is no refusal in it (`Doc.Plain`), and every way to build documents
from others keeps it so.  Refusals come from five kinds of nodes only; `Node.refusal?` says when.

* **`Node.Printable.print`**: a tree in which no node is refused has a text, whatever the indent.
-/

namespace JavaSource

/-! ### Documents -/

namespace Doc

/-- There is no refusal in a document. -/
def Plain : Doc → Prop
  | append a b => a.Plain ∧ b.Plain
  | nest d     => d.Plain
  | refuse _   => False
  | _          => True

/-- There is no refusal in any of the documents. -/
def PlainAll (ds : List Doc) : Prop := ∀ d ∈ ds, d.Plain

variable {a b d : Doc} {ds es : List Doc}

/-- A document without a refusal has a text. -/
theorem Plain.write (h : d.Plain) (indent depth : Nat) (written : String) :
    ∃ text, d.write indent depth written = .ok text := by
  induction d generalizing depth written with
  | append a b iha ihb =>
    obtain ⟨first, hfirst⟩ := iha h.1 depth written
    obtain ⟨text, htext⟩ := ihb h.2 depth first
    refine ⟨text, ?_⟩
    rw [Doc.write, hfirst]
    exact htext
  | nest d ih => exact ih h (depth + 1) written
  | refuse e => exact h.elim
  | _ => exact ⟨_, rfl⟩

@[simp] theorem plain_nil : Plain nil := trivial

@[simp] theorem plain_text (s : String) : Plain (text s) := trivial

@[simp] theorem plain_line : Plain line := trivial

@[simp] theorem plain_blankLine : Plain blankLine := trivial

@[simp] theorem plain_textBlock (lines : List String) : Plain (textBlock lines) := trivial

@[simp] theorem plain_append : (a ++ b).Plain ↔ a.Plain ∧ b.Plain := Iff.rfl

@[simp] theorem plain_nest : (nest d).Plain ↔ d.Plain := Iff.rfl

@[simp] theorem plainAll_nil : PlainAll [] := List.forall_mem_nil _

@[simp] theorem plainAll_cons : PlainAll (d :: ds) ↔ d.Plain ∧ PlainAll ds := List.forall_mem_cons

theorem plainAll_one (h : d.Plain) : PlainAll [d] := List.forall_mem_singleton.mpr h

@[simp] theorem plainAll_append : PlainAll (ds ++ es) ↔ PlainAll ds ∧ PlainAll es :=
  List.forall_mem_append

theorem plainAll_map {f : Doc → Doc} (hf : ∀ d : Doc, d.Plain → (f d).Plain) (h : PlainAll ds) :
    PlainAll (ds.map f) := List.forall_mem_map.mpr fun d hd => hf d (h d hd)

@[simp] theorem plain_concat (h : PlainAll ds) : (concat ds).Plain := by
  induction ds with
  | nil => trivial
  | cons d ds ih => exact ⟨h d List.mem_cons_self, ih (List.forall_mem_cons.mp h).2⟩

@[simp] theorem plain_sepBy (ha : a.Plain) (h : PlainAll ds) : (sepBy a ds).Plain := by
  induction ds with
  | nil => trivial
  | cons d ds ih =>
    obtain ⟨hd, hds⟩ := plainAll_cons.mp h
    cases ds with
    | nil => exact hd
    | cons e ds => exact ⟨⟨hd, ha⟩, ih hds⟩

@[simp] theorem plain_sep (s : String) (h : PlainAll ds) : (sep s ds).Plain :=
  plain_sepBy (plain_text s) h

@[simp] theorem plain_each (s : String) (h : PlainAll ds) : (each s ds).Plain :=
  plain_concat (plainAll_map (fun _ hd => ⟨hd, trivial⟩) h)

@[simp] theorem plain_lead (s : String) (h : PlainAll ds) : (lead s ds).Plain := by
  rw [lead]
  split
  · trivial
  · exact ⟨trivial, plain_concat h⟩

@[simp] theorem plain_clause (s t : String) (h : PlainAll ds) : (clause s t ds).Plain := by
  rw [clause]
  split
  · trivial
  · exact ⟨trivial, plain_sep t h⟩

@[simp] theorem plain_tuple (h : PlainAll ds) : (tuple ds).Plain := by simp [tuple, h]

@[simp] theorem plain_indented (h : PlainAll ds) : (indented ds).Plain :=
  plain_concat (plainAll_map (fun _ hd => ⟨trivial, hd⟩) h)

@[simp] theorem plain_braces (h : PlainAll ds) : (braces ds).Plain := by
  rw [braces]
  split <;> simp [h]

@[simp] theorem plain_parens (needed : Bool) (h : d.Plain) : (parens needed d).Plain := by
  cases needed <;> simp [parens, h]

@[simp] theorem plain_ite {p : Prop} [Decidable p] (ha : a.Plain) (hb : b.Plain) :
    (if p then a else b).Plain := by
  split
  · exact ha
  · exact hb

/-! ### What stands around operands and statements -/

@[simp] theorem plain_operand (context : Context) (e : Expr) (h : d.Plain) :
    (operand context e d).Plain := plain_parens _ h

@[simp] theorem plainAll_operands (context : Context) (es : Nodes .expr) (h : PlainAll ds) :
    PlainAll (operands context es ds) := by
  rw [operands]
  induction es.toList generalizing ds with
  | nil => simp
  | cons e es ih =>
    cases ds with
    | nil => simp
    | cons d ds =>
      obtain ⟨hd, hds⟩ := plainAll_cons.mp h
      simp [hd, ih hds]

@[simp] theorem plain_castOperand (signs : Bool) (e : Expr) (h : d.Plain) :
    (castOperand signs e d).Plain := by
  rw [castOperand]
  split
  · exact h
  · split
    · exact plain_parens true h
    · exact plain_operand _ e h

@[simp] theorem plain_body (s : Stmt) (h : d.Plain) : (body s d).Plain := by
  rw [body]
  split <;> simp [h]

@[simp] theorem plain_thenBranch (s : Stmt) (h : d.Plain) : (thenBranch s d).Plain := by
  rw [thenBranch]
  split
  · simp [h]
  · split <;> simp [h]

@[simp] theorem plain_elseBranch (s : Stmt) (h : d.Plain) : (elseBranch s d).Plain := by
  rw [elseBranch]
  split <;> simp [h]

@[simp] theorem plain_beforeBrackets (h : PlainAll ds) : (beforeBrackets ds).Plain := by
  rw [beforeBrackets]
  split <;> simp [h]

@[simp] theorem plain_arguments (args : OptNode (.list .expr)) (h : PlainAll ds) :
    (arguments args ds).Plain := by
  rw [arguments]
  split <;> simp [h]

@[simp] theorem plain_classBody (members : OptNode (.list .decl)) (h : PlainAll ds) :
    (classBody members ds).Plain := by
  rw [classBody]
  split <;> simp [h]

@[simp] theorem plain_prefixed (op : UnaryOp) (e : Expr) (h : d.Plain) :
    (prefixed op e d).Plain := by
  have hsigned : (op.text ++ (if e.startsWithSign op then " " else "") ++
      operand ⟨.unary, true⟩ e d : Doc).Plain := by
    split <;> simp [h]
  cases op with
  | minus =>
    rw [prefixed.eq_def]
    cases e.integer? with
    | none => exact hsigned
    | some literal => exact ⟨trivial, trivial⟩
  | _ => exact hsigned

@[simp] theorem plain_handlers (hds : PlainAll ds) (hes : PlainAll es) :
    (handlers ds es).Plain := by
  have hcatches : PlainAll (ds.map (text " " ++ ·)) :=
    plainAll_map (fun _ hd => plain_append.mpr ⟨trivial, hd⟩) hds
  simp [handlers, hcatches, hes]

@[simp] theorem plain_constants (hasMembers : Bool) (h : PlainAll ds) :
    (constants hasMembers ds).Plain := by
  induction ds with
  | nil => cases hasMembers <;> simp [constants]
  | cons d ds ih =>
    obtain ⟨hd, hds⟩ := plainAll_cons.mp h
    cases ds with
    | nil => cases hasMembers <;> simp [constants, hd]
    | cons e ds => simp [constants, hd, ih hds]

@[simp] theorem plain_enumBody (hds : PlainAll ds) (hes : PlainAll es) :
    (enumBody ds es).Plain := by
  rw [enumBody]
  split <;> simp [hds, hes]

@[simp] theorem plain_sections {fs : List Doc} (hds : PlainAll ds) (hes : PlainAll es)
    (hfs : PlainAll fs) : (sections ds es fs).Plain := by
  rw [sections]
  split <;> simp [hds, hes, hfs]

end Doc

/-! ### Nodes -/

namespace Node

variable {c : Category}

/-- Why a node is refused, whatever its parts are. -/
def refusal? : {c : Category} → Node c → Option PrintError
  | _, .literal _ (.float value _) => if value.isFinite then none else some (.noLiteral value)
  | _, .wildcardBound _ _ up down  => if up == down then some .boundDirection else none
  | _, .reference _ _ _ id isNew   => if isNew || id.isSome then none else some .noReferenceName
  | _, .switchRule _ isDefault cases isArrow body =>
    if !isDefault && cases.isEmpty then some .noCaseItem
    else if isArrow && body.toList.length != 1 then some (.arrowBody body.toList.length)
    else none
  | _, .switchBlock _ groups labels rules =>
    if !rules.isEmpty && (!groups.isEmpty || !labels.isEmpty) then some .mixedSwitch else none
  | _, _ => none

/-- No node in the tree is refused. -/
def Printable (n : Node c) : Prop := n.Each fun x => x.node.refusal? = none

theorem length_docs : (ns : Nodes c) → ns.docs.length = ns.toList.length
  | .nil => rfl
  | .cons _ ns => congrArg (· + 1) (length_docs ns)

theorem isEmpty_docs (ns : Nodes c) : ns.docs.isEmpty = ns.isEmpty := by
  cases ns <;> rfl

open Doc

/-! ### Nodes that may be refused -/

variable {span : Option Text.Span}

theorem plain_literal {value : LiteralValue} (h : (literal span value).refusal? = none) :
    value.doc.Plain := by
  cases value with
  | float value double =>
    change (if value.isFinite then none else _) = none at h
    cases hfinite : value.isFinite with
    | true => simp [LiteralValue.doc, hfinite]
    | false => rw [hfinite] at h; cases h
  | _ => simp [LiteralValue.doc]

theorem plain_bound {ty : TypeNode} {up down : Bool} {d : Doc}
    (h : (wildcardBound span ty up down).refusal? = none) (hd : d.Plain) :
    (Doc.bound up down d).Plain := by
  cases up <;> cases down <;> first
    | (cases h; done)
    | exact ⟨trivial, hd⟩

theorem plain_referred {target : Node .referenceTarget} {targs : OptNode .typeArguments}
    {id : OptNode .identifier} {isNew : Bool}
    (h : (reference span target targs id isNew).refusal? = none) (hid : PlainAll id.docs) :
    (Doc.referred isNew id.docs).Plain := by
  cases isNew with
  | true => exact trivial
  | false =>
    cases id with
    | absent => cases h
    | present id =>
      cases id with
      | identifier => exact ⟨trivial, trivial⟩

/-- A reference with a name or `new` is not refused. -/
theorem refusal?_reference {target : Node .referenceTarget} {targs : OptNode .typeArguments}
    {id : OptNode .identifier} {isNew : Bool}
    (h : (reference span target targs id isNew).flaw? = none) :
    (reference span target targs id isNew).refusal? = none := by
  change (if id.isSome == isNew then _ else none) = none at h
  change (if isNew || id.isSome then none else _) = none
  cases isNew <;> cases hid : id.isSome <;> rw [hid] at h <;> first
    | (cases h; done)
    | rfl

theorem plain_rule {isDefault isArrow : Bool} {cases : Nodes .caseItem} {body : Nodes .stmt}
    (h : (switchRule span isDefault cases isArrow body).refusal? = none)
    (hcases : PlainAll cases.docs) (hbody : PlainAll body.docs) :
    (Doc.ruleHead isDefault cases.docs ++ Doc.ruleBody isArrow body.docs).Plain := by
  change (if !isDefault && cases.isEmpty then _
    else if isArrow && body.toList.length != 1 then _ else none) = none at h
  split at h
  · cases h
  rename_i hitems
  split at h
  · cases h
  rename_i harrow
  constructor
  · cases isDefault with
    | true => trivial
    | false =>
      rw [Doc.ruleHead, isEmpty_docs]
      cases hempty : cases.isEmpty with
      | true => exact absurd hempty hitems
      | false => exact ⟨trivial, plain_sep _ hcases⟩
  · cases isArrow with
    | false => exact ⟨trivial, plain_indented hbody⟩
    | true =>
      have hone : body.docs.length = 1 := by
        rw [length_docs]
        simpa using harrow
      obtain ⟨d, hd⟩ := List.length_eq_one_iff.mp hone
      rw [hd] at hbody ⊢
      exact ⟨trivial, (plainAll_cons.mp hbody).1⟩

theorem plain_switchBody {groups : Nodes .switchGroup} {labels : Nodes .switchLabel}
    {rules : Nodes .switchRule} (h : (switchBlock span groups labels rules).refusal? = none)
    (hgroups : PlainAll groups.docs) (hlabels : PlainAll labels.docs)
    (hrules : PlainAll rules.docs) :
    (Doc.switchBody groups.docs labels.docs rules.docs).Plain := by
  change (if !rules.isEmpty && (!groups.isEmpty || !labels.isEmpty) then _ else none) = none at h
  rw [Doc.switchBody, isEmpty_docs, isEmpty_docs, isEmpty_docs]
  cases hrules' : rules.isEmpty with
  | true => simp [hgroups, hlabels]
  | false =>
    rw [hrules'] at h
    cases hgroups' : groups.isEmpty <;> cases hlabels' : labels.isEmpty <;>
      rw [hgroups', hlabels'] at h <;> first
        | (cases h; done)
        | simp [hrules]

/-- There is no refusal in the documents of a tree in which no node is refused. -/
theorem Printable.plainAll {n : Node c} (h : n.Printable) : PlainAll n.docs := by
  induction n with
  | nil | absent | noInit => exact plainAll_nil
  | cons _ _ hhead htail =>
    obtain ⟨hhead', htail'⟩ := List.forall_mem_append.mp h
    exact plainAll_cons.mpr ⟨plain_concat (hhead hhead'), htail htail'⟩
  | present _ ih | annotationModifier _ ih | valueElement _ ih | exprValue _ ih
  | annotationValue _ ih | exprItem _ ih | arrayInit _ ih | singleParam _ ih
  | formalParams _ ih | exprBody _ ih | blockBody _ ih | typeTarget _ ih | patternTarget _ ih
  | typeReference _ ih | blockStmt _ ih | exprCase _ ih | variablesInit _ ih
  | nameResource _ ih => exact ih h
  | nameParams _ ih | exprReference _ ih | localVariableStmt _ ih | exprsInit _ ih =>
    exact plainAll_one (by simp [ih h])
  | identifier _ _ | keywordModifier _ _ | binaryOperator _ | unaryOperator _ | postOperator _
  | assignOperator _ | emptyStmt _ | defaultLabel _ | emptyDecl _ =>
    exact plainAll_one trivial
  | qualifiedName _ _ ha | elementValueArray _ _ ha | wordType _ _ _ ha | typeArguments _ _ ha
  | dim _ _ ha | typeParameters _ _ ha | thisExpr _ _ ha
  | classExpr _ _ ha | arrayInitializer _ _ ha | exprStmt _ _ ha
  | breakStmt _ _ ha | continueStmt _ _ ha | returnStmt _ _ ha | throwStmt _ _ ha
  | yieldStmt _ _ ha | block _ _ ha | caseLabel _ _ ha | initializerDecl _ _ _ ha
  | importDecl _ _ _ _ ha | usesDirective _ _ ha =>
    obtain ⟨-, ha', -⟩ := Each.parts h
    exact plainAll_one (by simp [ha ha'])
  | annotationUse _ _ _ ha hb | elementValuePair _ _ _ ha hb | classType _ _ _ ha hb
  | wildcardType _ _ _ ha hb | typeBound _ _ _ ha hb | guardedPattern _ _ _ ha hb
  | lambda _ _ _ ha hb | instanceOf _ _ _ ha hb | switchExpr _ _ _ ha hb | call _ _ _ ha hb
  | member _ _ _ ha hb | index _ _ _ ha hb | genericCall _ _ _ ha hb | dimExpr _ _ _ ha hb
  | labeledStmt _ _ _ ha hb | assertStmt _ _ _ ha hb | switchStmt _ _ _ ha hb
  | whileStmt _ _ _ ha hb | doWhileStmt _ _ _ ha hb | synchronizedStmt _ _ _ ha hb
  | matchValue _ _ _ ha hb | switchGroup _ _ _ ha hb | variableDeclaratorId _ _ _ ha hb
  | variableDeclarator _ _ _ ha hb | receiverParameter _ _ _ ha hb
  | formalParameters _ _ _ ha hb | packageDecl _ _ _ ha hb | requiresDirective _ _ _ ha hb
  | exportsDirective _ _ _ ha hb | opensDirective _ _ _ ha hb | providesDirective _ _ _ ha hb
  | modularUnit _ _ _ ha hb =>
    obtain ⟨-, ha', hb', -⟩ := Each.parts h
    exact plainAll_one (by simp [ha ha', hb hb'])
  | arrayType _ _ _ _ ha hb hd | coit _ _ _ _ ha hb hd | typeParameter _ _ _ _ ha hb hd
  | superExpr _ _ _ _ ha hb hd | assignment _ _ _ _ ha hb hd | conditional _ _ _ _ ha hb hd
  | cast _ _ _ _ ha hb hd | tryStmt _ _ _ _ ha hb hd | localVariables _ _ _ _ ha hb hd
  | resource _ _ _ _ ha hb hd | parameter _ _ _ _ ha hb hd | fieldDecl _ _ _ _ ha hb hd
  | compactConstructorDecl _ _ _ _ ha hb hd | annotationDecl _ _ _ _ ha hb hd
  | recordComponent _ _ _ _ _ ha hb hd | moduleDecl _ _ _ _ _ ha hb hd
  | ordinaryUnit _ _ _ _ ha hb hd =>
    obtain ⟨-, ha', hb', hd', -⟩ := Each.parts h
    exact plainAll_one (by simp [ha ha', hb hb', hd hd'])
  | pattern _ _ _ _ _ ha hb hd he | newObject _ _ _ _ _ ha hb hd he
  | newArray _ _ _ _ _ ha hb hd he | forStmt _ _ _ _ _ ha hb hd he
  | tryResourcesStmt _ _ _ _ _ ha hb hd he | catchClause _ _ _ _ _ ha hb hd he
  | variableArityParameter _ _ _ _ _ ha hb hd he | elementDecl _ _ _ _ _ ha hb hd he
  | enumConstant _ _ _ _ _ ha hb hd he =>
    obtain ⟨-, ha', hb', hd', he', -⟩ := Each.parts h
    exact plainAll_one (by simp [ha ha', hb hb', hd hd', he he'])
  | newInner _ _ _ _ _ _ ha hb hd he hf | forEachStmt _ _ _ _ _ _ ha hb hd he hf
  | enumDecl _ _ _ _ _ _ ha hb hd he hf =>
    obtain ⟨-, ha', hb', hd', he', hf', -⟩ := Each.parts h
    exact plainAll_one (by simp [ha ha', hb hb', hd hd', he he', hf hf'])
  | constructorDecl _ _ _ _ _ _ _ ha hb hd he hf hg
  | interfaceDecl _ _ _ _ _ _ _ ha hb hd he hf hg | recordDecl _ _ _ _ _ _ _ ha hb hd he hf hg =>
    obtain ⟨-, ha', hb', hd', he', hf', hg', -⟩ := Each.parts h
    exact plainAll_one (by simp [ha ha', hb hb', hd hd', he he', hf hf', hg hg'])
  | classDecl _ _ _ _ _ _ _ _ ha hb hd he hf hg hh =>
    obtain ⟨-, ha', hb', hd', he', hf', hg', hh', -⟩ := Each.parts h
    exact plainAll_one (by simp [ha ha', hb hb', hd hd', he he', hf hf', hg hg', hh hh'])
  | methodDecl _ _ _ _ _ _ _ _ _ _ ha hb hd he hf hg hh hi hj =>
    obtain ⟨-, ha', hb', hd', he', hf', hg', hh', hi', hj', -⟩ := Each.parts h
    exact plainAll_one (by
      simp [ha ha', hb hb', hd hd', he he', hf hf', hg hg', hh hh', hi hi', hj hj'])
  | name _ _ ha | constant _ _ ha | localTypeStmt _ _ ha =>
    obtain ⟨-, ha', -⟩ := Each.parts h
    exact ha ha'
  | ifStmt _ _ _ orelse ha hb hd =>
    obtain ⟨-, ha', hb', hd', -⟩ := Each.parts h
    cases orelse with
    | absent => exact plainAll_one (by simp [ha ha', hb hb'])
    | present orelse =>
      have horelse : PlainAll orelse.docs := hd hd'
      exact plainAll_one (by simp [ha ha', hb hb', horelse])
  | binary _ _ op _ ha _ hd =>
    obtain ⟨-, ha', -, hd', -⟩ := Each.parts h
    cases op with
    | binaryOperator => exact plainAll_one (by simp [ha ha', hd hd'])
  | unary _ op _ _ hb =>
    obtain ⟨-, -, hb', -⟩ := Each.parts h
    cases op with
    | unaryOperator => exact plainAll_one (by simp [hb hb'])
  | post _ _ op ha =>
    obtain ⟨-, ha', -⟩ := Each.parts h
    cases op with
    | postOperator => exact plainAll_one (by simp [ha ha'])
  -- The nodes that may be refused.
  | literal _ value => exact plainAll_one (plain_literal (h _ List.mem_cons_self))
  | wildcardBound _ _ up down ha =>
    obtain ⟨hnone, ha', -⟩ := Each.parts h
    exact plainAll_one (plain_bound hnone (plain_concat (ha ha')))
  | reference _ _ _ id isNew ha hb hd =>
    obtain ⟨hnone, ha', hb', hd', -⟩ := Each.parts h
    exact plainAll_one (by simp [ha ha', hb hb', plain_referred hnone (hd hd')])
  | switchRule _ isDefault cases isArrow body ha hb =>
    obtain ⟨hnone, ha', hb', -⟩ := Each.parts h
    exact plainAll_one (plain_rule hnone (ha ha') (hb hb'))
  | switchBlock _ groups labels rules ha hb hd =>
    obtain ⟨hnone, ha', hb', hd', -⟩ := Each.parts h
    exact plainAll_one (plain_switchBody hnone (ha ha') (hb hb') (hd hd'))

/-- **A tree in which no node is refused has a text, whatever the indent.** -/
theorem Printable.print {n : Node c} (h : n.Printable) (indent : Nat) :
    ∃ text, n.print indent = .ok text := by
  refine Plain.write (d := n.doc) ?_ indent 0 ""
  have hdocs := plain_concat h.plainAll
  unfold doc
  split
  · exact ⟨hdocs, trivial⟩
  · exact hdocs

end Node

end JavaSource
