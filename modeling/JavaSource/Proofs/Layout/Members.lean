import JavaSource.Proofs.Layout.Terms
import JavaSource.Reading.Reader

/-!
# Statements and declarations of alike trees

Each reader comes to alike nodes, or to alike errors, on alike trees; by induction on the tree,
alike trees are read alike as anything (`Part.alike_ofTree`).
-/

namespace JavaSource

open List (Forall₂)

namespace Opened.Alike

variable {o o' : Opened}

theorem block (h : o.Alike o') : Agree Node.Alike o.block o'.block :=
  (Part.readAll_agree h.phrases _).map fun _ _ => .block

theorem localVariables (h : o.Alike o') : Agree Node.Alike o.localVariables o'.localVariables :=
  (h.readFirst _ _).bind fun _ _ hty => (h.readFirst _ _).bind fun _ _ hds =>
    (Node.Alike.localVariables .nil hty hds).check.bind fun _ _ _ =>
    h.modifiers.bind fun _ _ hms => .ok (.localVariables hms hty hds)

theorem label? (h : o.Alike o') : Node.Alike o.label? o'.label? := .ofOption h.identifier?

/-! ### Loops -/

/-- A token is told by its kind. -/
theorem kind_marks (kind : TokenKind) (t u : Token) (h : t.Alike u) :
    (t.kind == kind) = (u.kind == kind) := by rw [h.kind]

/-- A word is told by its text. -/
theorem word_marks (word : String) (t u : Token) (h : t.Alike u) :
    t.isWord word = u.isWord word := h.isWord_eq word

/-- Heads of loops that hold alike nodes behind as many semicolons. -/
structure LoopsAlike (a b : ForHead) : Prop where
  semicolons : a.semicolons = b.semicolons
  init : a.init.Alike b.init
  test : a.test.Alike b.test
  update : a.update.Alike b.update

theorem forHead_push {a b : ForHead} (h : LoopsAlike a b) {p q : Part} (hp : p.Alike q) :
    Agree LoopsAlike (a.push p) (b.push q) := by
  have htree := hp.tree
  unfold ForHead.push
  generalize p.tree = t, q.tree = u at htree
  cases t <;> cases u <;>
    simp only [Tree.unplaced, reduceCtorEq, Tree.leaf.injEq, Tree.node.injEq] at htree
  · dsimp only
    rw [(Token.alike_of_unplaced htree).kind]
    split
    · exact .ok { h with semicolons := congrArg (· + 1) h.semicolons }
    · exact .ok h
  · dsimp only
    rw [htree.1, h.semicolons]
    split
    · exact (hp.read _).bind fun _ _ hinit => .ok ⟨rfl, hinit, h.test, h.update⟩
    · exact (hp.read _).bind fun _ _ hupdate => .ok ⟨rfl, h.init, h.test, hupdate⟩
    · split
      · exact (hp.read _).bind fun _ _ htest => .ok ⟨rfl, h.init, .present htest, h.update⟩
      · exact .ok h

theorem forInit (h : o.Alike o') : Agree Node.Alike o.forInit o'.forInit := by
  have hfirst := h.first? .localVariableDeclaration
  unfold Opened.forInit
  generalize o.first? .localVariableDeclaration = p?,
    o'.first? .localVariableDeclaration = q? at hfirst
  cases hfirst with
  | some hp => exact (hp.read _).map fun _ _ => .variablesInit
  | none => exact (Part.readAll_agree h.phrases _).map fun _ _ => .exprsInit

theorem forStmt (h : o.Alike o') : Agree Node.Alike o.forStmt o'.forStmt := by
  refine h.last.bind fun _ _ hp => (hp.read _).bind fun _ _ hbody => ?_
  have hstart : LoopsAlike ⟨0, .noInit, .absent, .nil⟩ ⟨0, .noInit, .absent, .nil⟩ :=
    ⟨rfl, .noInit, .absent, .nil⟩
  exact (Agree.foldlM h.parts hstart fun _ _ _ _ hhead hp => forHead_push hhead hp).bind
    fun _ _ hhead => .ok (.forStmt hhead.init hhead.test hhead.update hbody)

theorem forEachStmt (h : o.Alike o') : Agree Node.Alike o.forEachStmt o'.forEachStmt := by
  refine (h.readFirst _ _).bind fun _ _ hty => (h.readFirst _ _).bind fun _ _ hid => ?_
  have hbehind := h.behind? (kind_marks .colon)
  generalize o.behind? _ = p?, o'.behind? _ = q? at hbehind
  cases hbehind with
  | none => exact h.lacks _
  | some hp =>
    exact (hp.read _).bind fun _ _ hiter => h.last.bind fun _ _ hp => (hp.read _).bind
      fun _ _ hbody => h.modifiers.bind fun _ _ hms => .ok (.forEachStmt hms hty hid hiter hbody)

/-! ### Exceptions -/

theorem finalBlock (h : o.Alike o') : Agree Node.Alike o.finalBlock o'.finalBlock := by
  have hfirst := h.first? .finallyClause
  unfold Opened.finalBlock
  generalize o.first? .finallyClause = p?, o'.first? .finallyClause = q? at hfirst
  cases hfirst with
  | none => exact .ok .absent
  | some hp => exact (hp.opened.readFirst _ _).map fun _ _ => .present

theorem tryStmt (h : o.Alike o') : Agree Node.Alike o.tryStmt o'.tryStmt :=
  (h.readFirst _ _).bind fun _ _ hbody => (h.readAll _ _).bind fun _ _ hcatches =>
    h.finalBlock.bind fun _ _ hfinal => (Node.Alike.tryStmt hbody hcatches hfinal).checked

theorem tryResourcesStmt (h : o.Alike o') :
    Agree Node.Alike o.tryResourcesStmt o'.tryResourcesStmt :=
  (h.first _).bind fun _ _ hp => (hp.opened.readAll _ _).bind fun _ _ hresources =>
    (h.readFirst _ _).bind fun _ _ hbody => (h.readAll _ _).bind fun _ _ hcatches =>
    h.finalBlock.bind fun _ _ hfinal =>
    (Node.Alike.tryResourcesStmt hresources hbody hcatches hfinal).checked

theorem catchClause (h : o.Alike o') : Agree Node.Alike o.catchClause o'.catchClause :=
  (h.readFirst _ _).bind fun _ _ hexceptions => (h.identifierAs _).bind fun _ _ hid =>
    (h.readFirst _ _).bind fun _ _ hbody =>
    (Node.Alike.catchClause .nil hexceptions hid hbody).check.bind fun _ _ _ =>
    h.modifiers.bind fun _ _ hms => .ok (.catchClause hms hexceptions hid hbody)

theorem tryResource (h : o.Alike o') : Agree Node.Alike o.tryResource o'.tryResource := by
  have hfirst := h.first? .qualifiedName
  unfold Opened.tryResource
  generalize o.first? .qualifiedName = p?, o'.first? .qualifiedName = q? at hfirst
  cases hfirst with
  | some hp => exact (hp.read _).map fun _ _ => .nameResource
  | none =>
    exact (h.readFirst _ _).bind fun _ _ hty => (h.readFirst _ _).bind fun _ _ hdeclarator =>
      h.modifiers.bind fun _ _ hms => .ok (.resource hms hty hdeclarator)

/-! ### Switch blocks -/

theorem isRichItem_eq {p q : Part} (hp : p.Alike q) : isRichItem p = isRichItem q := by
  rw [isRichItem, isRichItem, hp.isA_eq, hp.isA_eq, isSome_eq_of_rel (hp.opened.first? .modifiers)]

theorem isRichGroup_eq {p q : Part} (hp : p.Alike q) : isRichGroup p = isRichGroup q :=
  any_eq_of_rel (fun _ _ hlabel => any_eq_of_rel (fun _ _ => isRichItem_eq) hlabel.opened.phrases)
    (hp.opened.phrasesOf _)

theorem caseValue {m n : Node .caseItem} (h : m.Alike n) :
    (caseValue m).Alike (caseValue n) := by
  cases h with
  | exprItem h => exact .exprCase h
  | guardedPattern pattern _ =>
    cases pattern with
    | pattern _ ty _ id => exact .matchValue ty id

theorem switchLabels (h : o.Alike o') :
    Agree (Forall₂ Node.Alike) o.switchLabels o'.switchLabels := by
  unfold Opened.switchLabels
  rw [h.hasToken_eq]
  split
  · exact .ok (.cons .defaultLabel .nil)
  · refine (Agree.mapM h.phrases fun _ _ hp => hp.read .caseItem).bind fun is is' his => .ok ?_
    have hphrases := h.phrases
    generalize o.phrases = ps, o'.phrases = qs at hphrases
    induction his generalizing ps qs with
    | nil => cases hphrases <;> exact .nil
    | cons hi _ ih =>
      cases hphrases with
      | nil => exact .nil
      | cons _ hphrases => exact .cons (.caseLabel (caseValue hi)) (ih _ _ hphrases)

theorem groupLabels (h : o.Alike o') :
    Agree (Forall₂ Node.Alike) o.groupLabels o'.groupLabels :=
  (Agree.mapM (h.phrasesOf _) fun _ _ hlabel => hlabel.opened.switchLabels).bind
    fun _ _ hlabels => .ok (List.rel_flatten hlabels)

/-- Alike groups, and alike labels behind them. -/
def GroupsAlike (x y : Nodes .switchGroup × Nodes .switchLabel) : Prop :=
  x.1.Alike y.1 ∧ x.2.Alike y.2

theorem groupsAndLabels {ps qs : List Part} (h : Forall₂ Part.Alike ps qs)
    {labels labels' : List (Node .switchLabel)} (hlabels : Forall₂ Node.Alike labels labels') :
    Agree GroupsAlike (groupsAndLabels labels ps) (groupsAndLabels labels' qs) := by
  induction h generalizing labels labels' with
  | nil => exact .ok ⟨.nil, .ofList hlabels⟩
  | cons hp _ ih =>
    refine hp.opened.groupLabels.bind fun own own' hown => hp.opened.groupBody.bind
      fun body body' hbody => ?_
    cases hbody with
    | nil => exact ih (List.rel_append hlabels hown)
    | cons hstmt hstmts =>
      dsimp only
      rw [isEmpty_eq_of_rel hlabels]
      split
      · exact .error (Tree.error_alike hp.opened.tree _)
      · exact (Node.Alike.switchGroup (.ofList hown) (.cons hstmt hstmts)).checked.bind
          fun _ _ hgroup => (ih .nil).bind fun _ _ ⟨hgroups, hlabels⟩ =>
          .ok ⟨.cons hgroup hgroups, hlabels⟩

theorem switchBlock (h : o.Alike o') : Agree Node.Alike o.switchBlock o'.switchBlock := by
  have hgroups := h.phrasesOf .switchGroup
  unfold Opened.switchBlock
  dsimp only
  have hrich : (o.phrasesOf .switchGroup).any isRichGroup =
      (o'.phrasesOf .switchGroup).any isRichGroup :=
    any_eq_of_rel (fun _ _ => isRichGroup_eq) hgroups
  rw [isSome_eq_of_rel (h.first? .switchRule), isEmpty_eq_of_rel hgroups, hrich]
  split
  · exact .error ⟨rfl, rfl, rfl⟩
  · split
    · exact h.allRules.bind fun _ _ hrules => .ok (.switchBlock .nil .nil hrules)
    · exact (groupsAndLabels hgroups .nil).bind fun _ _ ⟨hgroups, hlabels⟩ =>
        .ok (.switchBlock hgroups hlabels .nil)

/-! ### All statements -/

theorem stmt (h : o.Alike o') : Agree Node.Alike o.stmt o'.stmt := by
  have hoption (i : Nat) : Option.Rel Part.Alike o.phrases[i]? o'.phrases[i]? :=
    getElem?_rel h.phrases i
  unfold Opened.stmt
  rw [h.phrase?]
  split
  · exact h.block.map fun _ _ => .blockStmt
  · exact (h.readFirst _ _).bind fun _ _ hlocals =>
      .ok (.localVariableStmt hlocals.localVariablesAt)
  · exact h.localVariables.map fun _ _ => .localVariableStmt
  · exact (h.readFirst _ _).bind fun _ _ hdecl => (Node.Alike.localTypeStmt hdecl).checked
  · exact .ok .emptyStmt
  · exact (h.identifierAs _).bind fun _ _ hlabel => (h.readNth _ _).bind fun _ _ hbody =>
      .ok (.labeledStmt hlabel hbody)
  · exact (h.readNth _ _).map fun _ _ => .exprStmt
  · exact (h.readNth _ _).bind fun _ _ htest => (h.readNth _ _).bind fun _ _ hbody =>
      (Part.readOption_agree (hoption _) _).bind fun _ _ horelse =>
          .ok (.ifStmt htest hbody horelse)
  · exact (h.readNth _ _).bind fun _ _ htest => (Part.readOption_agree (hoption _) _).bind
      fun _ _ hmsg => .ok (.assertStmt htest hmsg)
  · exact (h.readNth _ _).bind fun _ _ hvalue => (h.readFirst _ _).bind fun _ _ hbody =>
      (Node.Alike.switchStmt hvalue hbody).checked
  · exact (h.readNth _ _).bind fun _ _ htest => (h.readNth _ _).bind fun _ _ hbody =>
      .ok (.whileStmt htest hbody)
  · exact (h.readNth _ _).bind fun _ _ hbody => (h.readNth _ _).bind fun _ _ htest =>
      .ok (.doWhileStmt hbody htest)
  · exact h.forStmt
  · exact h.forEachStmt
  · exact .ok (.breakStmt h.label?)
  · exact .ok (.continueStmt h.label?)
  · exact (Part.readOption_agree (hoption _) _).map fun _ _ => .returnStmt
  · exact (h.readNth _ _).map fun _ _ => .throwStmt
  · exact (h.readNth _ _).bind fun _ _ hlock => (h.readFirst _ _).bind fun _ _ hbody =>
      .ok (.synchronizedStmt hlock hbody)
  · exact h.tryStmt
  · exact h.tryResourcesStmt
  · exact (h.readNth _ _).map fun _ _ => .yieldStmt
  · exact h.error _

/-! ### Variables and parameters -/

theorem variableDeclaratorId (h : o.Alike o') :
    Agree Node.Alike o.variableDeclaratorId o'.variableDeclaratorId :=
  h.identifier.bind fun _ _ hid => h.dims.bind fun _ _ hdims =>
    .ok (.variableDeclaratorId hid hdims)

theorem variableDeclarator (h : o.Alike o') :
    Agree Node.Alike o.variableDeclarator o'.variableDeclarator :=
  (h.readFirst _ _).bind fun _ _ hid =>
    (Part.readOption_agree (getElem?_rel h.phrases _) _).bind fun _ _ hinit =>
    .ok (.variableDeclarator hid hinit)

theorem annotationOf {m n : Node .modifier} (h : m.Alike n) :
    Agree Node.Alike (annotationOf m) (annotationOf n) := by
  cases h with
  | annotationModifier h => exact .ok h
  | keywordModifier => exact .error ⟨rfl, rfl, rfl⟩

theorem receiverParameter (h : o.Alike o') :
    Agree Node.Alike o.receiverParameter o'.receiverParameter := by
  refine h.modifiers.bind fun ms ms' hms => ?_
  have hannotations : Agree Node.Alike (Node.ofList <$> ms.toList.mapM Opened.annotationOf)
      (Node.ofList <$> ms'.toList.mapM Opened.annotationOf) :=
    (Agree.mapM hms.toList fun _ _ => annotationOf).map fun _ _ => .ofList
  refine hannotations.bind fun _ _ has => (h.readFirst _ _).bind fun _ _ hty => ?_
  exact .ok (.receiverParameter (hty.annotatedWith (has.append hty.typeAnnotations))
    (.ofList h.identifiers))

theorem formalParameter (h : o.Alike o') :
    Agree Node.Alike o.formalParameter o'.formalParameter := by
  refine (h.readFirst _ _).bind fun _ _ hty => ?_
  rw [h.phrase?]
  split
  · exact h.identifier.bind fun _ _ hid => h.modifiers.bind fun _ _ hms =>
      h.annotations.bind fun _ _ has => .ok (.variableArityParameter hms hty has hid)
  · exact (h.readFirst _ _).bind fun _ _ hid => h.modifiers.bind fun _ _ hms =>
      .ok (.parameter hms hty hid)

/-- Alike receivers and parameters. -/
def ParametersAlike (x y : OptNode .receiverParameter × List (Node .formalParameter)) : Prop :=
  x.1.Alike y.1 ∧ Forall₂ Node.Alike x.2 y.2

theorem pushParameter {x y : OptNode .receiverParameter × List (Node .formalParameter)}
    (h : ParametersAlike x y) {p q : Part} (hp : p.Alike q) :
    Agree ParametersAlike (pushParameter x p) (pushParameter y q) := by
  unfold Opened.pushParameter
  rw [hp.phrase?]
  split
  · exact (hp.read _).bind fun _ _ hreceiver => .ok ⟨.present hreceiver, h.2⟩
  · exact (hp.read _).bind fun _ _ hparam => .ok ⟨h.1, .cons hparam h.2⟩
  · exact (hp.read _).bind fun _ _ hparam => .ok ⟨h.1, .cons hparam h.2⟩
  · exact .error (Tree.error_alike hp.tree _)

theorem formalParameters (h : o.Alike o') :
    Agree Node.Alike o.formalParameters o'.formalParameters := by
  have hstart : ParametersAlike (.absent, []) (.absent, []) := ⟨.absent, .nil⟩
  exact (Agree.foldlM h.phrases hstart fun _ _ _ _ hread hp => pushParameter hread hp).bind
    fun _ _ ⟨hreceiver, hparams⟩ =>
    .ok (.formalParameters hreceiver (.ofList (List.rel_reverse hparams)))

/-! ### Members -/

theorem nameList (h : o.Alike o') : Agree Node.Alike o.nameList o'.nameList := h.readList _ _

theorem typesBehind (h : o.Alike o') {isMarker : Token → Bool}
    (hmarker : ∀ t u, Token.Alike t u → isMarker t = isMarker u) :
    Agree Node.Alike (o.typesBehind isMarker) (o'.typesBehind isMarker) := by
  have hbehind := h.behind? hmarker
  unfold Opened.typesBehind
  generalize o.behind? isMarker = p?, o'.behind? isMarker = q? at hbehind
  cases hbehind with
  | none => exact .ok .nil
  | some hp =>
    dsimp only
    rw [hp.isA_eq]
    split
    · exact hp.read _
    · exact .ok .nil

theorem classBody (h : o.Alike o') : Agree Node.Alike o.classBody o'.classBody := h.readFirst _ _

theorem typeParams (h : o.Alike o') : Agree Node.Alike o.typeParams o'.typeParams :=
  h.readFirst? _ _

theorem classDecl (h : o.Alike o') : Agree Node.Alike o.classDecl o'.classDecl :=
  h.identifier.bind fun _ _ hid => h.classBody.bind fun _ _ hbody =>
    (h.typesBehind (kind_marks _)).bind fun _ _ himplement =>
    (h.typesBehind (word_marks _)).bind fun _ _ hpermit => h.typeParams.bind fun _ _ hparams =>
    (Part.readOption_agree (h.behind? (kind_marks _)) _).bind fun _ _ hextend =>
    .ok (.classDecl .nil hid hparams hextend himplement hpermit hbody)

theorem interfaceDecl (h : o.Alike o') : Agree Node.Alike o.interfaceDecl o'.interfaceDecl :=
  h.identifier.bind fun _ _ hid => h.classBody.bind fun _ _ hbody =>
    (h.typesBehind (kind_marks _)).bind fun _ _ hextend =>
    (h.typesBehind (word_marks _)).bind fun _ _ hpermit => h.typeParams.bind fun _ _ hparams =>
    .ok (.interfaceDecl .nil hid hparams hextend hpermit hbody)

theorem enumConstant (h : o.Alike o') : Agree Node.Alike o.enumConstant o'.enumConstant :=
  h.identifier.bind fun _ _ hid => h.annotations.bind fun _ _ has =>
    (h.readFirst? _ _).bind fun _ _ hargs => (h.readFirst? _ _).bind fun _ _ hbody =>
    .ok (.enumConstant has hid hargs hbody)

theorem enumDecl (h : o.Alike o') : Agree Node.Alike o.enumDecl o'.enumDecl :=
  h.identifier.bind fun _ _ hid => (h.first _).bind fun _ _ hinner =>
    (hinner.opened.readAll _ _).bind fun _ _ hconstants =>
    (Part.readAll_agree (hinner.opened.phrasesBut _) _).bind fun _ _ hbody =>
    (h.typesBehind (kind_marks _)).bind fun _ _ himplement =>
    .ok (.enumDecl .nil hid himplement hconstants hbody)

theorem recordComponent (h : o.Alike o') :
    Agree Node.Alike o.recordComponent o'.recordComponent := by
  refine (h.readFirst _ _).bind fun _ _ hty => h.identifier.bind fun _ _ hid =>
    h.annotations.bind fun _ _ has => ?_
  rw [h.hasToken_eq]
  exact .ok (.recordComponent has hty hid)

theorem recordDecl (h : o.Alike o') : Agree Node.Alike o.recordDecl o'.recordDecl := by
  have hid := getElem?_rel h.identifiers 1
  unfold Opened.recordDecl
  generalize o.identifiers[1]? = id?, o'.identifiers[1]? = id'? at hid
  cases hid with
  | none => exact h.lacks _
  | some hid =>
    exact (h.first _).bind fun _ _ hheader => (hheader.opened.readAll _ _).bind
      fun _ _ hcomponents => h.classBody.bind fun _ _ hbody =>
      (h.typesBehind (kind_marks _)).bind fun _ _ himplement => h.typeParams.bind
      fun _ _ hparams => .ok (.recordDecl .nil hid hparams hcomponents himplement hbody)

theorem annotationDecl (h : o.Alike o') : Agree Node.Alike o.annotationDecl o'.annotationDecl :=
  h.identifier.bind fun _ _ hid => h.classBody.bind fun _ _ hbody =>
    .ok (.annotationDecl .nil hid hbody)

theorem fieldDecl (h : o.Alike o') : Agree Node.Alike o.fieldDecl o'.fieldDecl :=
  (h.readFirst _ _).bind fun _ _ hty => (h.readFirst _ _).bind fun _ _ hds =>
    (Node.Alike.fieldDecl .nil hty hds).checked

theorem methodDecl (h : o.Alike o') : Agree Node.Alike o.methodDecl o'.methodDecl :=
  (h.readFirst _ _).bind fun _ _ hty => h.identifier.bind fun _ _ hid =>
    (h.readFirst _ _).bind fun _ _ hparams => h.annotations.bind fun _ _ has =>
    h.dims.bind fun _ _ hdims => h.nameList.bind fun _ _ hthrows =>
    h.typeParams.bind fun _ _ htypeParams => (h.readFirst? _ _).bind fun _ _ hbody =>
    .ok (.methodDecl .nil htypeParams has hty hid hparams hdims hthrows hbody)

theorem constructorDecl (h : o.Alike o') :
    Agree Node.Alike o.constructorDecl o'.constructorDecl :=
  h.identifier.bind fun _ _ hid => (h.readFirst _ _).bind fun _ _ hparams =>
    (h.readFirst _ _).bind fun _ _ hbody => h.nameList.bind fun _ _ hthrows =>
    h.typeParams.bind fun _ _ htypeParams =>
    .ok (.constructorDecl .nil htypeParams hid hparams hthrows hbody)

theorem compactConstructorDecl (h : o.Alike o') :
    Agree Node.Alike o.compactConstructorDecl o'.compactConstructorDecl :=
  h.identifier.bind fun _ _ hid => (h.readFirst _ _).bind fun _ _ hbody =>
    .ok (.compactConstructorDecl .nil hid hbody)

theorem elementDecl (h : o.Alike o') : Agree Node.Alike o.elementDecl o'.elementDecl := by
  have hrest {ty ty' : TypeNode} (hty : ty.Alike ty') : Agree Node.Alike
      (do
        let id ← o.identifier
        (Node.elementDecl none .nil ty id .absent).check
        return .elementDecl o.span .nil ty id (← o.readFirst? .elementValue .elementValue))
      (do
        let id ← o'.identifier
        (Node.elementDecl none .nil ty' id .absent).check
        return .elementDecl o'.span .nil ty' id (← o'.readFirst? .elementValue .elementValue)) :=
    h.identifier.bind fun _ _ hid =>
      (Node.Alike.elementDecl .nil hty hid .absent).check.bind fun _ _ _ =>
      (h.readFirst? _ _).bind fun _ _ hvalue => .ok (.elementDecl .nil hty hid hvalue)
  refine (h.readFirst _ _).bind fun ty ty' hty => h.dims.bind fun dims dims' hdims => ?_
  cases hdims with
  | nil => exact hrest hty
  | cons hdim hdims =>
    exact (Node.Alike.arrayType .nil hty (.cons hdim hdims)).checked.bind fun _ _ => hrest

theorem member (h : o.Alike o') : Agree Node.Alike o.member o'.member := by
  unfold Opened.member
  rw [h.phrase?]
  split
  · exact h.classDecl
  · exact h.interfaceDecl
  · exact h.enumDecl
  · exact h.recordDecl
  · exact h.annotationDecl
  · exact h.fieldDecl
  · exact h.methodDecl
  · exact h.constructorDecl
  · exact h.compactConstructorDecl
  · exact h.elementDecl
  · exact h.error _

theorem memberDecl (h : o.Alike o') : Agree Node.Alike o.memberDecl o'.memberDecl := by
  have hinner := head?_rel (h.phrasesBut .modifiers)
  unfold Opened.memberDecl
  generalize (o.phrasesBut .modifiers).head? = p?, (o'.phrasesBut .modifiers).head? = q? at hinner
  cases hinner with
  | none => exact h.lacks _
  | some hp =>
    refine (hp.read .member).bind fun d d' hd => h.modifiers.bind fun ms ms' hms => ?_
    have hwith := hd.withModifiers? hms
    cases hms with
    | nil => exact .ok hd.declAt
    | cons hm hms =>
      dsimp only
      generalize d.withModifiers? _ = d?, d'.withModifiers? _ = d'? at hwith
      cases hwith with
      | none => exact .error ⟨hd.kindName_eq, rfl, rfl⟩
      | some hd => exact .ok hd.declAt

theorem decl (h : o.Alike o') : Agree Node.Alike o.decl o'.decl := by
  unfold Opened.decl
  rw [h.phrase?, h.hasToken_eq]
  split
  · exact .ok .emptyDecl
  · exact (h.readFirst _ _).bind fun _ _ hbody => .ok (.initializerDecl hbody)
  · exact h.memberDecl
  · exact h.error _

/-! ### Compilation units and modules -/

theorem packageDecl (h : o.Alike o') : Agree Node.Alike o.packageDecl o'.packageDecl :=
  (h.readFirst _ _).bind fun _ _ hname => h.annotations.bind fun _ _ has =>
    .ok (.packageDecl has hname)

theorem importDecl (h : o.Alike o') : Agree Node.Alike o.importDecl o'.importDecl := by
  refine (h.readFirst _ _).bind fun _ _ hname => ?_
  rw [h.hasToken_eq, h.hasToken_eq]
  exact .ok (.importDecl hname)

theorem directive (h : o.Alike o') : Agree Node.Alike o.directive o'.directive := by
  refine (h.readFirst _ _).bind fun _ _ hname => ?_
  rw [h.phrase?]
  split
  · have hwords : Forall₂ Token.Alike ((o.tree.tokens.drop 1).filter (·.kind != .semi))
        ((o'.tree.tokens.drop 1).filter (·.kind != .semi)) :=
      filter_rel (fun _ _ ht => by rw [ht.kind]) (List.forall₂_drop 1 (Tree.tokens_rel h.tree))
    exact (Agree.mapM hwords fun _ _ ht => h.keywordModifier ht).bind fun _ _ hms =>
      .ok (.requiresDirective (.ofList hms) hname)
  · exact h.nameList.map fun _ _ => .exportsDirective hname
  · exact h.nameList.map fun _ _ => .opensDirective hname
  · exact .ok (.usesDirective hname)
  · exact h.nameList.bind fun _ _ hnames => (Node.Alike.providesDirective hname hnames).checked
  · exact h.error _

theorem moduleDecl (h : o.Alike o') : Agree Node.Alike o.moduleDecl o'.moduleDecl := by
  refine (h.readFirst _ _).bind fun _ _ hname => ?_
  refine (Part.readAll_agree (filter_rel (fun _ _ hp => ?_) h.phrases) _).bind
    fun _ _ hdirectives => h.annotations.bind fun _ _ has => ?_
  · rw [hp.isA_eq, hp.isA_eq]
  · rw [Tree.hasWord_eq h.tree]
    exact .ok (.moduleDecl has hname hdirectives)

theorem compilationUnit (h : o.Alike o') :
    Agree Node.Alike o.compilationUnit o'.compilationUnit := by
  refine (h.readFirst? _ _).bind fun _ _ hpackage => (h.readAll _ _).bind
    fun imports imports' himports => ?_
  have hfirst := h.first? .moduleDeclaration
  generalize o.first? .moduleDeclaration = p?, o'.first? .moduleDeclaration = q? at hfirst
  cases hfirst with
  | some hp =>
    cases hpackage with
    | present => exact .error ⟨rfl, rfl, rfl⟩
    | absent => exact (hp.read _).map fun _ _ => .modularUnit himports
  | none =>
    have hrest {package package' : OptNode .packageDecl} (hpackage : package.Alike package') :
        Agree Node.Alike
          (do
            let inner := o.phrases.filter fun p =>
              !p.isA .packageDeclaration && !p.isA .importDeclaration
            return .ordinaryUnit o.span package imports (← Part.readAll .decl inner))
          (do
            let inner := o'.phrases.filter fun p =>
              !p.isA .packageDeclaration && !p.isA .importDeclaration
            return .ordinaryUnit o'.span package' imports' (← Part.readAll .decl inner)) := by
      refine (Part.readAll_agree (filter_rel (fun _ _ hp => ?_) h.phrases) _).bind
        fun _ _ hdecls => .ok (.ordinaryUnit hpackage himports hdecls)
      rw [hp.isA_eq, hp.isA_eq]
    cases hpackage with
    | absent => exact hrest .absent
    | present hpackage => exact hrest (.present hpackage)

/-! ### All goals -/

theorem read (h : o.Alike o') {c : Category} (goal : Goal c) :
    Agree Node.Alike (o.read goal) (o'.read goal) := by
  cases goal with
  | qualifiedName => exact h.qualifiedName
  | qualifiedNames => exact h.readAll _ _
  | modifiers => exact h.modifierList
  | annotationUse => exact h.annotationUse
  | annotationElement => exact h.annotationElement
  | elementValue => exact h.elementValue
  | elementValueArray => exact h.elementValueArray
  | type => exact h.type
  | classType => exact h.classType
  | typeArgument => exact h.typeArgument
  | types => exact h.types
  | coit => exact h.coit
  | typeArguments => exact h.typeArguments
  | dim => exact h.dim
  | typeParameter => exact h.typeParameter
  | typeParameters => exact h.typeParameters
  | typeBound => exact h.typeBound
  | pattern => exact h.pattern
  | expr => exact h.expr
  | exprs => exact Part.readAll_agree h.phrases _
  | lambdaParams => exact h.lambdaParams
  | dimExpr => exact h.dimExpr
  | arrayInitializer => exact h.arrayInitializer
  | caseItem => exact h.caseItem h.expr
  | caseItems => exact Part.readAll_agree h.phrases _
  | conditions =>
    unfold Opened.read
    rw [h.phrase?]
    split
    · exact h.conditions
    · exact h.expr.map fun _ _ hexpr => .cons hexpr .nil
  | switchRules => exact h.switchRules
  | stmt => exact h.stmt
  | block => exact h.block
  | localVariables => exact h.localVariables
  | forInit => exact h.forInit
  | catchClause => exact h.catchClause
  | tryResource => exact h.tryResource
  | switchBlock => exact h.switchBlock
  | decl => exact h.decl
  | decls => exact Part.readAll_agree h.phrases _
  | member => exact h.member
  | enumConstant => exact h.enumConstant
  | recordComponent => exact h.recordComponent
  | variableDeclarator => exact h.variableDeclarator
  | variableDeclarators => exact h.readAll _ _
  | variableDeclaratorId => exact h.variableDeclaratorId
  | receiverParameter => exact h.receiverParameter
  | formalParameter => exact h.formalParameter
  | formalParameters => exact h.formalParameters
  | packageDecl => exact h.packageDecl
  | importDecl => exact h.importDecl
  | directive => exact h.directive
  | moduleDecl => exact h.moduleDecl
  | compilationUnit => exact h.compilationUnit

end Opened.Alike

/-! ### Whole trees -/

mutual

/-- Trees that are the same without places are read alike. -/
theorem Part.alike_ofTree : {t u : Tree} → t.unplaced = u.unplaced → (ofTree t).Alike (ofTree u)
  | .leaf t, .leaf u, h => by
    have hopened : Opened.Alike ⟨.leaf t, []⟩ ⟨.leaf u, []⟩ := ⟨h, .nil⟩
    exact .mk h .nil hopened.read
  | .node k ps a b, .node l qs a' b', h => by
    have hparts : Tree.unplacedAll ps = Tree.unplacedAll qs := (Tree.node.inj h).2.1
    have hopened : Opened.Alike ⟨.node k ps a b, ofTrees ps⟩ ⟨.node l qs a' b', ofTrees qs⟩ :=
      ⟨h, alike_ofTrees hparts⟩
    exact .mk h hopened.parts hopened.read

theorem Part.alike_ofTrees : {ts us : List Tree} → Tree.unplacedAll ts = Tree.unplacedAll us →
    Forall₂ Part.Alike (ofTrees ts) (ofTrees us)
  | [], [], _ => .nil
  | _ :: _, _ :: _, h =>
    .cons (alike_ofTree (List.cons.inj h).1) (alike_ofTrees (List.cons.inj h).2)

end

/-- Nodes of one category that are alike. -/
inductive AnyNode.Alike : AnyNode → AnyNode → Prop where
  | mk {c : Category} {m n : Node c} (h : m.Alike n) : Alike ⟨c, m⟩ ⟨c, n⟩

theorem AnyNode.Alike.same {m n : AnyNode} (h : m.Alike n) : m.same n = true := by
  cases h with
  | mk h => exact h.same

namespace Tree

variable {t u : Tree}

theorem readAny_agree (h : t.unplaced = u.unplaced) {c : Category} (goal : Goal c) :
    Agree AnyNode.Alike (t.readAny goal) (u.readAny goal) :=
  ((Part.alike_ofTree h).read goal).map fun _ _ => .mk

theorem readDeclared_agree (h : t.unplaced = u.unplaced) :
    Agree AnyNode.Alike t.readDeclared u.readDeclared := by
  unfold readDeclared
  rw [phrase?_eq h]
  split <;> exact readAny_agree h _

theorem readOnly_agree (h : t.unplaced = u.unplaced) {rule : Tree → Except NodeError AnyNode}
    (hrule : ∀ t u : Tree, t.unplaced = u.unplaced → Agree AnyNode.Alike (rule t) (rule u)) :
    Agree AnyNode.Alike (t.readOnly rule) (u.readOnly rule) := by
  have hphrases : Forall₂ (fun t u : Tree => t.unplaced = u.unplaced) t.phrases u.phrases :=
    filter_rel (fun _ _ h => by rw [phrase?_eq h]) (parts_rel h)
  have hfirst := head?_rel hphrases
  unfold readOnly
  generalize t.phrases.head? = t?, u.phrases.head? = u? at hfirst
  cases hfirst with
  | none => exact .error (error_alike h _)
  | some hinner => exact hrule _ _ hinner

/-- **Trees that are the same without places are read as alike nodes, or with alike errors.** -/
theorem readWhole_agree (h : t.unplaced = u.unplaced) :
    Agree AnyNode.Alike t.readWhole u.readWhole := by
  unfold readWhole
  rw [phrase?_eq h]
  split
  · exact readAny_agree h _
  · exact readOnly_agree h fun _ _ => readDeclared_agree
  · exact readOnly_agree h fun _ _ h => readAny_agree h _
  · exact readOnly_agree h fun _ _ h => readAny_agree h _
  iterate 6 exact readDeclared_agree h
  · split <;> exact readAny_agree h _
  · exact readAny_agree h _

end Tree

end JavaSource
