import JavaSource.Proofs.Layout.Parts
import JavaSource.Proofs.Literals

/-!
# Names, types and expressions of alike trees

Each reader comes to alike nodes, or to alike errors, on alike trees.  What it builds may carry
other spans; what it decides, it decides by tokens, phrases and what the parts are read as.
-/

namespace JavaSource

open List (Forall₂)

namespace Opened.Alike

variable {o o' : Opened}

/-! ### Names, modifiers and annotations -/

theorem qualifiedName (h : o.Alike o') : Agree Node.Alike o.qualifiedName o'.qualifiedName :=
  (Node.Alike.qualifiedName (.ofList h.identifiers)).checked

theorem keywordModifier (h : o.Alike o') {t u : Token} (ht : t.Alike u) :
    Agree Node.Alike (o.keywordModifier t) (o'.keywordModifier u) := by
  unfold Opened.keywordModifier
  rw [ht.text]
  split
  · exact .ok .keywordModifier
  · exact h.error _

theorem modifierOf (h : o.Alike o') {p q : Part} (hp : p.Alike q) :
    Agree Node.Alike (o.modifierOf p) (o'.modifierOf q) := by
  have htoken := Tree.token?_rel hp.tree
  unfold Opened.modifierOf
  generalize p.tree.token? = t?, q.tree.token? = u? at htoken
  cases htoken with
  | none => exact (hp.read _).map fun _ _ => .annotationModifier
  | some ht => exact h.keywordModifier ht

theorem modifierList (h : o.Alike o') : Agree Node.Alike o.modifierList o'.modifierList :=
  (Agree.mapM h.parts fun _ _ hp => h.modifierOf hp).map fun _ _ => .ofList

theorem annotationUse (h : o.Alike o') : Agree Node.Alike o.annotationUse o'.annotationUse :=
  (h.readFirst _ _).bind fun _ _ hname =>
    (Part.readAll_agree (h.filter fun _ _ hp => by rw [hp.isA_eq, hp.isA_eq]) _).bind
      fun _ _ helements => .ok (.annotationUse hname helements)

theorem elementValue (h : o.Alike o') : Agree Node.Alike o.elementValue o'.elementValue := by
  refine (h.nth 0).bind fun p q hp => ?_
  rw [hp.phrase?]
  split
  · exact (hp.read _).map fun _ _ => .annotationValue
  · exact hp.read _
  · exact (hp.read _).map fun _ _ => .exprValue

theorem elementValueArray (h : o.Alike o') :
    Agree Node.Alike o.elementValueArray o'.elementValueArray :=
  (h.readAll _ _).map fun _ _ => .elementValueArray

theorem annotationElement (h : o.Alike o') :
    Agree Node.Alike o.annotationElement o'.annotationElement := by
  unfold Opened.annotationElement
  rw [h.phrase?]
  split
  · exact h.identifier.bind fun _ _ hid => (h.readFirst _ _).bind fun _ _ hvalue =>
      .ok (.elementValuePair hid hvalue)
  · exact h.elementValue.map fun _ _ => .valueElement

/-! ### Types -/

/-- A type and where it ends, which is not compared. -/
theorem baseOf {p q : Part} (hp : p.Alike q) :
    Agree (Option.Rel fun a b => Node.Alike a.1 b.1) (baseOf p) (baseOf q) := by
  have htoken := Tree.token?_rel hp.tree
  unfold Opened.baseOf
  generalize p.tree.token? = t?, q.tree.token? = u? at htoken
  cases htoken with
  | @some t u ht =>
    refine .ok ?_
    rw [ht.kind]
    cases u.kind.typeWord? with
    | none => exact .none
    | some word => exact .some (.wordType .nil)
  | none =>
    dsimp only
    rw [hp.isA_eq]
    split
    · exact (hp.read _).bind fun _ _ hty => .ok (.some hty)
    · exact .ok .none

theorem type (h : o.Alike o') : Agree Node.Alike o.type o'.type := by
  refine (Agree.filterMapM h.parts fun _ _ hp => baseOf hp).bind fun bases bases' hbases => ?_
  have hlast := getLast?_rel hbases
  generalize bases.getLast? = base?, bases'.getLast? = base'? at hlast
  cases hlast with
  | none => exact h.lacks _
  | some hbase =>
    refine h.annotations.bind fun as bs has => h.dims.bind fun dims dims' hdims => ?_
    cases hdims with
    | nil => exact .ok (hbase.annotatedWith has)
    | cons hdim hdims =>
      exact (Node.Alike.arrayType .nil (hbase.annotatedWith has) (.cons hdim hdims)).checked

theorem isVar_eq {m n : Node .coit} (h : m.Alike n) : isVar m = isVar n := by
  cases h with
  | coit annotations id typeArgs =>
    cases id
    simp only [isVar, annotations.isEmpty_eq, typeArgs.isSome_eq]

theorem classType (h : o.Alike o') : Agree Node.Alike o.classType o'.classType := by
  refine (h.readAll _ _).bind fun coits coits' hcoits => ?_
  have hchecked : Agree Node.Alike (Node.classType o.span .nil coits).checked
      (Node.classType o'.span .nil coits').checked := (Node.Alike.classType .nil hcoits).checked
  have hlist := hcoits.toList
  generalize coits.toList = cs, coits'.toList = ds at hlist
  cases hlist with
  | nil => exact hchecked
  | cons honly htail =>
    cases htail with
    | cons => exact hchecked
    | nil =>
      dsimp only
      rw [isVar_eq honly]
      split
      · exact .ok (.wordType .nil)
      · exact hchecked

theorem coit (h : o.Alike o') : Agree Node.Alike o.coit o'.coit :=
  h.identifier.bind fun _ _ hid => h.annotations.bind fun _ _ has =>
    (h.readFirst? _ _).bind fun _ _ hargs => .ok (.coit has hid hargs)

theorem typeArguments (h : o.Alike o') : Agree Node.Alike o.typeArguments o'.typeArguments :=
  (Part.readAll_agree h.phrases _).map fun _ _ => .typeArguments

theorem wildcard (h : o.Alike o') : Agree Node.Alike o.wildcard o'.wildcard := by
  have hfirst := h.first? .type
  unfold Opened.wildcard
  rw [h.hasToken_eq]
  generalize o.first? .type = p?, o'.first? .type = q? at hfirst
  cases hfirst with
  | none => exact h.annotations.bind fun _ _ has => .ok (.wildcardType has .absent)
  | some hp =>
    refine (hp.read _).bind fun _ _ hty => h.annotations.bind fun _ _ has => ?_
    exact .ok (.wildcardType has (.present (.wildcardBound hty)))

theorem typeArgument (h : o.Alike o') : Agree Node.Alike o.typeArgument o'.typeArgument := by
  unfold Opened.typeArgument
  rw [h.phrase?]
  split
  · exact h.wildcard
  · exact h.type

theorem dim (h : o.Alike o') : Agree Node.Alike o.dim o'.dim := h.annotations.map fun _ _ => .dim

theorem types (h : o.Alike o') : Agree Node.Alike o.types o'.types := h.readAll _ _

theorem typeParameter (h : o.Alike o') : Agree Node.Alike o.typeParameter o'.typeParameter :=
  h.identifier.bind fun _ _ hid => h.annotations.bind fun _ _ has =>
    (h.readFirst? _ _).bind fun _ _ hbound => .ok (.typeParameter has hid hbound)

theorem typeParameters (h : o.Alike o') : Agree Node.Alike o.typeParameters o'.typeParameters :=
  (h.readAll _ _).bind fun _ _ hps => (Node.Alike.typeParameters hps).checked

theorem typeBound (h : o.Alike o') : Agree Node.Alike o.typeBound o'.typeBound :=
  h.types.bind fun _ _ htypes => (Node.Alike.typeBound .nil htypes).checked

theorem castBound (h : o.Alike o') : Agree Node.Alike o.castBound o'.castBound := by
  have hheads := h.phrasesOf .type
  have hfirst := head?_rel hheads
  have hlast := getLast?_rel hheads
  unfold Opened.castBound
  dsimp only
  generalize (o.phrasesOf .type).head? = a?, (o'.phrasesOf .type).head? = a'? at hfirst
  generalize (o.phrasesOf .type).getLast? = b?, (o'.phrasesOf .type).getLast? = b'? at hlast
  cases hfirst <;> cases hlast
  case some.some =>
    exact (Part.readAll_agree hheads _).bind fun _ _ htypes =>
      (Node.Alike.typeBound .nil htypes).checked
  all_goals exact h.lacks _

theorem pattern (h : o.Alike o') : Agree Node.Alike o.pattern o'.pattern := by
  refine (h.readFirst _ _).bind fun _ _ hty => ?_
  have hid := h.identifier?
  generalize o.identifier? = id?, o'.identifier? = id'? at hid
  cases hid with
  | none => exact .error ⟨rfl, rfl, rfl⟩
  | some hid => exact h.modifiers.bind fun _ _ hms => .ok (.pattern hms hty .nil hid)

end Opened.Alike

/-! ### Literals -/

/-- A finite number is equal to itself. -/
theorem Binary64.equals_self {x : Binary64} (h : x.isFinite) : x.equals x = true := by
  have hnumber : x.isNaN = false := by
    rw [isNaN, (Bool.not_eq_true' _).mp h, Bool.false_and]
  simp only [equals, hnumber, beq_self_eq_true, Bool.not_false, Bool.true_or, Bool.and_self]

/-- A value is the same as itself, unless it is no number. -/
theorem LiteralValue.same_self {v : LiteralValue}
    (h : ∀ x double, v = .float x double → x.isFinite) : v.Same v := by
  refine ⟨rfl, ?_⟩
  cases v with
  | float x double =>
    have hreal : (Attribute.real x).same (.real x) = true := Binary64.equals_self (h x double rfl)
    simp only [attributes, sameAttributes, hreal, Attribute.same_flag, beq_self_eq_true,
      Bool.and_self]
  | _ => simp [attributes, sameAttributes, Attribute.same]

/-- What a literal token stands for is the same as itself. -/
theorem Token.same_literalValue {t : Token} {v : LiteralValue} (h : t.literalValue? = .ok v) :
    v.Same v := by
  refine LiteralValue.same_self ?_
  rintro x double rfl
  exact Token.isFinite_of_literalValue? h

namespace Opened.Alike

variable {o o' : Opened}

theorem literal (h : o.Alike o') : Agree Node.Alike o.literal o'.literal := by
  refine h.token.bind fun t u ht => ?_
  have hvalue : t.literalValue? = u.literalValue? := by
    rw [Token.literalValue?, Token.literalValue?, ht.kind, ht.text]
  rw [hvalue]
  cases hread : u.literalValue? with
  | ok value => exact .ok (.literal (Token.same_literalValue hread))
  | error problem =>
    cases problem with
    | outOfRange text => exact .error ⟨rfl, rfl, rfl⟩
    | _ => exact h.error _

/-! ### Left chains -/

theorem operator (h : o.Alike o') {α : Type} (place : OperatorPlace)
    (ofText? : String → Option α) :
    Agree Eq (o.operator place ofText?) (o'.operator place ofText?) := by
  refine h.token.bind fun t u ht => ?_
  rw [ht.text]
  cases ofText? u.text with
  | some op => exact .ok rfl
  | none => exact h.error _

theorem extend (h : o.Alike o') {left left' : Expr} (hleft : left.Alike left') :
    Agree Node.Alike (o.extend left) (o'.extend left') := by
  refine (h.readNth _ _).bind fun _ _ hright => ?_
  rw [h.phrase?]
  split
  · exact .ok (.member hleft hright)
  · exact .ok (.index hleft hright)
  · refine (h.operator _ _).bind fun op _ hop => ?_
    rw [← hop]
    exact .ok (.binary hleft .binaryOperator hright)

end Opened.Alike

/-- Alike links, and alike starts of a chain. -/
def ChainsAlike (x y : List Opened × Part) : Prop :=
  Forall₂ Opened.Alike x.1 y.1 ∧ x.2.Alike y.2

mutual

theorem Part.chainStart_agree : {p q : Part} → {links links' : List Opened} → p.Alike q →
    Forall₂ Opened.Alike links links' →
    Agree ChainsAlike (p.chainStart links) (q.chainStart links')
  | .mk t ps r, .mk u qs r', _, _, h, hlinks => by
    have hopened : Opened.Alike ⟨t, ps⟩ ⟨u, qs⟩ := h.opened
    have hphrase : t.phrase? = u.phrase? := hopened.phrase?
    unfold Part.chainStart
    rw [hphrase]
    split
    · exact Part.firstStart_agree hopened.parts (.cons hopened hlinks) hopened
    · exact .ok ⟨hlinks, h⟩

theorem Part.firstStart_agree : {ps qs : List Part} → {links links' : List Opened} →
    {o o' : Opened} → Forall₂ Part.Alike ps qs → Forall₂ Opened.Alike links links' →
    o.Alike o' → Agree ChainsAlike (firstStart links o ps) (firstStart links' o' qs)
  | [], [], _, _, _, _, _, _, ho => ho.lacks _
  | p :: ps, q :: qs, _, _, _, _, .cons hp hps, hlinks, ho => by
    unfold Part.firstStart
    rw [hp.isPhrase_eq]
    split
    · exact Part.chainStart_agree hp hlinks
    · exact Part.firstStart_agree hps hlinks ho

end

namespace Opened.Alike

variable {o o' : Opened}

theorem chain (h : o.Alike o') : Agree Node.Alike o.chain o'.chain := by
  refine (Part.firstStart_agree h.parts (.cons h .nil) h).bind fun x y ⟨hlinks, hstart⟩ => ?_
  refine (hstart.read _).bind fun left left' hleft => ?_
  exact Agree.foldlM hlinks hleft fun _ _ _ _ hleft hlink => hlink.extend hleft

/-! ### Operators and lambdas -/

theorem assignment (h : o.Alike o') : Agree Node.Alike o.assignment o'.assignment := by
  have hrest {op op' : OptNode .assignOperator} (hop : op.Alike op') : Agree Node.Alike
      (do
        let target ← o.readNth 0 .expr
        return .assignment o.span target op (← o.readNth 1 .expr))
      (do
        let target ← o'.readNth 0 .expr
        return .assignment o'.span target op' (← o'.readNth 1 .expr)) :=
    (h.readNth _ _).bind fun _ _ htarget => (h.readNth _ _).bind fun _ _ hvalue =>
      .ok (.assignment htarget hop hvalue)
  refine h.token.bind fun t u ht => ?_
  rw [ht.kind]
  split
  · exact hrest .absent
  · refine (h.operator _ _).bind fun op _ hop => ?_
    rw [← hop]
    exact hrest (.present .assignOperator)

theorem instanceOf (h : o.Alike o') : Agree Node.Alike o.instanceOf o'.instanceOf := by
  refine (h.readNth _ _).bind fun _ _ hvalue => (h.nth _).bind fun p q hp => ?_
  rw [hp.isA_eq]
  split
  · exact (hp.read _).bind fun _ _ hpattern => .ok (.instanceOf hvalue (.patternTarget hpattern))
  · exact (hp.read _).bind fun _ _ hty => .ok (.instanceOf hvalue (.typeTarget hty))

theorem lambdaParams (h : o.Alike o') : Agree Node.Alike o.lambdaParams o'.lambdaParams := by
  have hfirst := h.first? .formalParameters
  unfold Opened.lambdaParams
  rw [h.hasToken_eq]
  generalize o.first? .formalParameters = p?, o'.first? .formalParameters = q? at hfirst
  cases hfirst with
  | some hp => exact (hp.read _).map fun _ _ => .formalParams
  | none =>
    dsimp only
    split
    · exact .ok (.nameParams (.ofList h.identifiers))
    · exact (h.identifierAs _).map fun _ _ => .singleParam

theorem lambda (h : o.Alike o') : Agree Node.Alike o.lambda o'.lambda := by
  refine (h.readFirst _ _).bind fun params params' hparams => (h.nth _).bind fun p q hp => ?_
  have hrest {body body' : Node .lambdaBody} (hbody : body.Alike body') : Agree Node.Alike
      (Node.lambda o.span params body).checked (Node.lambda o'.span params' body').checked :=
    (Node.Alike.lambda hparams hbody).checked
  rw [hp.isA_eq]
  split
  · exact ((hp.read _).map fun _ _ => .blockBody).bind fun _ _ => hrest
  · exact ((hp.read _).map fun _ _ => .exprBody).bind fun _ _ => hrest

/-! ### Calls and references -/

theorem methodCall (h : o.Alike o') : Agree Node.Alike o.methodCall o'.methodCall := by
  refine h.token.bind fun t u ht => (h.readFirst _ _).bind fun _ _ hargs => .ok (.call ?_ hargs)
  rw [ht.kind]
  split
  · exact .thisExpr .absent
  · exact .superExpr .absent .absent .absent
  · exact .name ht.identifier

theorem superAccess (h : o.Alike o') : Agree Node.Alike o.superAccess o'.superAccess :=
  h.identifier.bind fun _ _ hid => (h.readFirst? _ _).bind fun _ _ htypeArgs =>
    (h.readFirst? _ _).bind fun _ _ hargs => .ok (.superExpr htypeArgs (.present hid) hargs)

theorem methodReference (h : o.Alike o') :
    Agree Node.Alike o.methodReference o'.methodReference := by
  refine (h.nth _).bind fun p q hp => ?_
  have hrest {target target' : Node .referenceTarget} (htarget : target.Alike target') :
      Agree Node.Alike
        (do
          let typeArgs ← o.readFirst? .typeArguments .typeArguments
          (Node.reference o.span target typeArgs (.ofOption o.identifier?)
            (o.hasToken .newKw)).checked)
        (do
          let typeArgs ← o'.readFirst? .typeArguments .typeArguments
          (Node.reference o'.span target' typeArgs (.ofOption o'.identifier?)
            (o'.hasToken .newKw)).checked) := by
    refine (h.readFirst? _ _).bind fun _ _ htypeArgs => ?_
    rw [h.hasToken_eq]
    exact (Node.Alike.reference htarget htypeArgs (.ofOption h.identifier?)).checked
  rw [hp.isA_eq]
  split
  · exact ((hp.read _).map fun _ _ => .typeReference).bind fun _ _ => hrest
  · exact ((hp.read _).map fun _ _ => .exprReference).bind fun _ _ => hrest

theorem genericCall (h : o.Alike o') : Agree Node.Alike o.genericCall o'.genericCall :=
  (h.readFirst _ _).bind fun _ _ htypeArgs => (h.readNth _ _).bind fun _ _ hvalue =>
    .ok (.genericCall htypeArgs hvalue)

/-! ### Creation -/

theorem objectCreation (h : o.Alike o') : Agree Node.Alike o.objectCreation o'.objectCreation :=
  (h.readFirst _ _).bind fun _ _ hty => (h.readFirst _ _).bind fun _ _ hargs =>
    (h.readFirst? _ _).bind fun _ _ htypeArgs => (h.readFirst? _ _).bind fun _ _ hbody =>
    .ok (.newObject htypeArgs hty hargs hbody)

/-- Heads of inner creations that hold alike nodes. -/
structure HeadsAlike (a b : InnerHead) : Prop where
  typeArgs : a.typeArgs.Alike b.typeArgs
  id : Option.Rel Node.Alike a.id b.id
  classTypeArgs : a.classTypeArgs.Alike b.classTypeArgs

theorem innerHead_push {a b : InnerHead} (h : HeadsAlike a b) {p q : Part} (hp : p.Alike q) :
    Agree HeadsAlike (a.push p) (b.push q) := by
  have htoken := Tree.token?_rel hp.tree
  unfold InnerHead.push
  rw [hp.isA_eq]
  generalize p.tree.token? = t?, q.tree.token? = u? at htoken
  cases htoken with
  | @some t u ht =>
    refine .ok ?_
    rw [ht.kind]
    split
    · exact { h with id := .some ht.identifier }
    · exact h
  | none =>
    dsimp only
    split
    · exact .ok h
    · refine (hp.read _).bind fun _ _ hargs => .ok ?_
      have hid : a.id.isNone = b.id.isNone := by
        rw [← Option.not_isSome, ← Option.not_isSome, isSome_eq_of_rel h.id]
      rw [hid]
      split
      · exact { h with typeArgs := .present hargs }
      · exact { h with classTypeArgs := .present hargs }

theorem innerCreation (h : o.Alike o') : Agree Node.Alike o.innerCreation o'.innerCreation := by
  have hstart : HeadsAlike ⟨.absent, none, .absent⟩ ⟨.absent, none, .absent⟩ :=
    ⟨.absent, .none, .absent⟩
  refine (Agree.foldlM h.parts hstart fun _ _ _ _ hhead hp => innerHead_push hhead hp).bind
    fun a b hhead => ?_
  have hid := hhead.id
  generalize a.id = id?, b.id = id'? at hid
  cases hid with
  | none => exact h.lacks _
  | some hid =>
    exact (h.readFirst _ _).bind fun _ _ hargs => (h.readFirst? _ _).bind fun _ _ hbody =>
      .ok (.newInner hhead.typeArgs hid hhead.classTypeArgs hargs hbody)

theorem dimExpr (h : o.Alike o') : Agree Node.Alike o.dimExpr o'.dimExpr :=
  (h.readNth _ _).map fun _ _ => .dimExpr .nil

theorem arrayInitializer (h : o.Alike o') :
    Agree Node.Alike o.arrayInitializer o'.arrayInitializer :=
  (Part.readAll_agree h.phrases _).map fun _ _ => .arrayInitializer

theorem arrayCreation (h : o.Alike o') : Agree Node.Alike o.arrayCreation o'.arrayCreation :=
  (h.readFirst _ _).bind fun _ _ hty => (h.readAll _ _).bind fun _ _ hsized =>
    (h.readFirst? _ _).bind fun _ _ hinit => h.dims.bind fun _ _ hdims =>
    (Node.Alike.newArray hty hsized hdims hinit).checked

/-! ### Switch rules -/

theorem conditions (h : o.Alike o') : Agree Node.Alike o.conditions o'.conditions :=
  (h.readNth _ _).bind fun _ _ hleft => (h.readNth _ _).bind fun _ _ hright =>
    .ok (hleft.append hright)

theorem caseItem (h : o.Alike o') {self self' : Reading .expr}
    (hself : Agree Node.Alike self self') :
    Agree Node.Alike (o.caseItem self) (o'.caseItem self') := by
  unfold Opened.caseItem
  rw [h.phrase?]
  split
  · exact h.pattern.bind fun _ _ hpattern => .ok (.guardedPattern hpattern .nil)
  · exact (h.readFirst _ _).bind fun _ _ hpattern => (h.readNth _ _).bind fun _ _ hconditions =>
      .ok (.guardedPattern hpattern hconditions)
  · exact hself.map fun _ _ => .exprItem

theorem switchRule {s t : Option Text.Span} {p q : Part} (hp : p.Alike q) {isArrow : Bool}
    {body body' : Nodes .stmt} (hbody : body.Alike body') :
    Agree Node.Alike (switchRule s p isArrow body) (switchRule t q isArrow body') := by
  unfold Opened.switchRule
  rw [Tree.hasToken_eq hp.tree]
  split
  · exact .ok (.switchRule .nil hbody)
  · exact (hp.read _).bind fun _ _ hcases => .ok (.switchRule hcases hbody)

theorem groupRules {ps qs : List Part} (h : Forall₂ Part.Alike ps qs) {body body' : Nodes .stmt}
    (hbody : body.Alike body') : Agree Node.Alike (groupRules body ps) (groupRules body' qs) := by
  induction h with
  | nil => exact .ok .nil
  | cons hp htail ih =>
    cases htail with
    | nil => exact (switchRule hp hbody).bind fun _ _ hrule => .ok (.cons hrule .nil)
    | cons =>
      exact (switchRule hp .nil).bind fun _ _ hrule => ih.bind fun _ _ hrules =>
        .ok (.cons hrule hrules)

theorem groupBody (h : o.Alike o') : Agree Node.Alike o.groupBody o'.groupBody :=
  Part.readAll_agree (h.phrasesBut _) _

theorem switchRules (h : o.Alike o') : Agree Node.Alike o.switchRules o'.switchRules := by
  unfold Opened.switchRules
  rw [h.phrase?]
  split
  · exact (h.first _).bind fun _ _ hlabel => (h.readNth _ _).bind fun _ _ hbody =>
      (switchRule hlabel (.cons hbody .nil)).bind fun _ _ hrule => .ok (.cons hrule .nil)
  · exact h.groupBody.bind fun _ _ hbody => groupRules (h.phrasesOf _) hbody
  · exact h.lacks _

theorem allRules (h : o.Alike o') : Agree Node.Alike o.allRules o'.allRules := by
  refine (Agree.mapM h.phrases fun _ _ hp => hp.read _).bind fun rules rules' hrules => .ok ?_
  induction hrules with
  | nil => exact .nil
  | cons hhead _ ih => exact hhead.append ih

theorem switchExpr (h : o.Alike o') : Agree Node.Alike o.switchExpr o'.switchExpr :=
  (h.readNth _ _).bind fun _ _ hvalue => (h.first _).bind fun _ _ hblock =>
    hblock.opened.allRules.bind fun _ _ hrules => .ok (.switchExpr hvalue hrules)

/-! ### All expressions -/

theorem expr (h : o.Alike o') : Agree Node.Alike o.expr o'.expr := by
  unfold Opened.expr
  rw [h.phrase?]
  split
  · exact h.readNth _ _
  · exact h.lambda
  · exact h.assignment
  · exact (h.readNth _ _).bind fun _ _ htest => (h.readNth _ _).bind fun _ _ hbody =>
      (h.readNth _ _).bind fun _ _ horelse => .ok (.conditional htest hbody horelse)
  · exact h.instanceOf
  · exact h.castBound.bind fun _ _ hbound => h.last.bind fun _ _ hp =>
      (hp.read _).bind fun _ _ hvalue => .ok (.cast .nil hbound hvalue)
  · refine (h.operator _ _).bind fun op _ hop => (h.readNth _ _).bind fun _ _ hoperand => ?_
    rw [← hop]
    exact .ok (.unary .unaryOperator hoperand)
  · refine (h.operator _ _).bind fun op _ hop => (h.readNth _ _).bind fun _ _ hoperand => ?_
    rw [← hop]
    exact .ok (.post hoperand .postOperator)
  · exact h.literal.map fun _ _ => .constant
  · exact h.token.bind fun _ _ ht => .ok (.name ht.identifier)
  · exact .ok (.thisExpr .absent)
  · exact .ok (.superExpr .absent .absent .absent)
  · exact h.superAccess
  · exact h.methodCall
  · exact (h.readFirst _ _).map fun _ _ => .classExpr
  · exact h.methodReference
  · exact h.objectCreation
  · exact h.innerCreation
  · exact h.arrayCreation
  · exact h.arrayInitializer.map fun _ _ => .arrayInit
  · exact h.switchExpr
  · exact h.genericCall
  · split
    · exact h.chain
    · exact h.error _
  · exact h.error _

end Opened.Alike

end JavaSource
