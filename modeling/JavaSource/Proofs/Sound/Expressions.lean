import JavaSource.Proofs.Literals
import JavaSource.Proofs.Reading.Expressions
import JavaSource.Proofs.Sound.Types

/-!
# What is read is sound — expressions

Every link of a chain is sound, so what extends its left side is.  A rule of a switch has an item
because its label has one, and the statement behind its arrow is the one that is read there.
-/

namespace JavaSource

open Phrase

namespace Opened.Sound

variable {c : Category} {goal : Goal c} {o : Opened} (ho : o.Sound)

include ho

/-! ### Literals and chains -/

omit ho in
theorem literal : Makes Node.Sound o.literal := by
  refine Makes.any.bind fun t _ => ?_
  split
  · rename_i value hvalue
    refine .ok (Node.Each.leaf ⟨rfl, ?_⟩)
    cases value with
    | float x double =>
      have hfinite := Token.isFinite_of_literalValue? hvalue
      exact if_pos hfinite
    | _ => rfl
  · exact .error _
  · exact .error _

omit ho in
theorem operator {α : Type} {place : OperatorPlace} {ofText? : String → Option α} :
    Makes (fun _ => True) (o.operator place ofText?) := .any

theorem extend {left : Expr} (hleft : left.Sound) : Makes Node.Sound (o.extend left) := by
  refine (ho.readNth _ _).bind fun right hright => ?_
  split
  · exact .ok (.tree ⟨rfl, rfl⟩ ⟨hleft, hright, trivial⟩)
  · exact .ok (.tree ⟨rfl, rfl⟩ ⟨hleft, hright, trivial⟩)
  · exact operator.bind fun _ _ =>
      .ok (.tree ⟨rfl, rfl⟩ ⟨hleft, Node.Each.leaf ⟨rfl, rfl⟩, hright, trivial⟩)

omit ho in
theorem chainStart {p : Part} (hp : p.Sound) {links : List Opened}
    (hlinks : ∀ link ∈ links, link.Sound) :
    Makes (fun found => (∀ link ∈ found.1, Opened.Sound link) ∧ found.2.Sound)
      (p.chainStart links) := by
  induction hp generalizing links with
  | @mk tree parts read items below reads ih =>
    rw [Part.chainStart]
    split
    · rw [Readable.firstStart_eq]
      cases hfind : parts.find? Part.isPhrase with
      | none => exact .error _
      | some p => exact ih p (List.mem_of_find?_eq_some hfind) (List.forall_mem_cons.mpr ⟨below, hlinks⟩)
    · exact .ok ⟨hlinks, .mk items below reads⟩

theorem chain : Makes Node.Sound o.chain := by
  have hstart : Makes (fun found => (∀ link ∈ found.1, Opened.Sound link) ∧ found.2.Sound)
      (Part.firstStart [o] o o.parts) := by
    rw [Readable.firstStart_eq]
    cases hfind : o.parts.find? Part.isPhrase with
    | none => exact .error _
    | some p => exact chainStart (ho p (List.mem_of_find?_eq_some hfind)) (List.forall_mem_singleton.mpr ho)
  exact hstart.bind fun found hfound => (hfound.2.read _).bind fun _ hleft =>
    Makes.foldlM hleft fun _ hleft link hlink => (hfound.1 link hlink).extend hleft

/-! ### Operators and lambdas -/

theorem assignment : Makes Node.Sound o.assignment := by
  have hrest {op : OptNode .assignOperator} (hop : op.Sound) : Makes Node.Sound (do
      let target ← o.readNth 0 .expr
      return Node.assignment o.span target op (← o.readNth 1 .expr)) :=
    (ho.readNth _ _).bind fun _ ha => (ho.readNth _ _).bind fun _ hd =>
      .ok (.tree ⟨rfl, rfl⟩ ⟨ha, hop, hd, trivial⟩)
  refine Makes.any.bind fun t _ => ?_
  split
  · exact hrest (List.forall_mem_nil _)
  · exact operator.bind fun _ _ => hrest (Node.Each.leaf ⟨rfl, rfl⟩)

theorem instanceOf : Makes Node.Sound o.instanceOf := by
  refine (ho.readNth _ _).bind fun _ ha => (ho.nth _).bind fun target htarget => ?_
  split
  · exact (htarget.read _).bind fun _ hb => .ok (.tree ⟨rfl, rfl⟩ ⟨ha, hb, trivial⟩)
  · exact (htarget.read _).bind fun _ hb => .ok (.tree ⟨rfl, rfl⟩ ⟨ha, hb, trivial⟩)

theorem lambdaParams : Makes Node.Sound o.lambdaParams := by
  rw [Opened.lambdaParams]
  split
  · exact ((ho.first? ‹_›).read _).map fun _ h => h
  · split
    · exact .ok identifiers
    · exact (identifierAs _).map fun _ h => h

theorem lambda : Makes Node.Sound o.lambda := by
  refine (ho.readFirst _ _).bind fun params ha => (ho.nth _).bind fun body hbody => ?_
  have hrest {inner : Node .lambdaBody} (hb : inner.Sound) :
      Makes Node.Sound (Node.lambda o.span params inner).checked :=
    Node.checked_makes fun h => .tree ⟨h, rfl⟩ ⟨ha, hb, trivial⟩
  split
  · exact Makes.bind ((hbody.read _).map fun _ h => h) fun _ hb => hrest hb
  · exact Makes.bind ((hbody.read _).map fun _ h => h) fun _ hb => hrest hb

/-! ### Calls and references -/

theorem methodCall : Makes Node.Sound o.methodCall := by
  refine Makes.any.bind fun callee _ => (ho.readFirst _ _).bind fun _ hb => .ok ?_
  refine .tree ⟨rfl, rfl⟩ ⟨?_, hb, trivial⟩
  split
  · exact Node.Each.tree ⟨rfl, rfl⟩ ⟨List.forall_mem_nil _, trivial⟩
  · exact Node.Each.tree ⟨rfl, rfl⟩
      ⟨List.forall_mem_nil _, List.forall_mem_nil _, List.forall_mem_nil _, trivial⟩
  · exact Node.Each.tree ⟨rfl, rfl⟩ ⟨identifier_sound callee, trivial⟩

theorem superAccess : Makes Node.Sound o.superAccess :=
  identifier.bind fun _ hb => (ho.readFirst? _ _).bind fun _ ha =>
    (ho.readFirst? _ _).bind fun _ hd => .ok (.tree ⟨rfl, rfl⟩ ⟨ha, hb, hd, trivial⟩)

omit ho in
theorem ofOption_identifier? : (Node.ofOption o.identifier?).Sound := by
  cases h : o.identifier? with
  | none => exact List.forall_mem_nil _
  | some id => exact identifier? h

theorem methodReference : Makes Node.Sound o.methodReference := by
  refine (ho.nth _).bind fun target htarget => ?_
  have hrest {inner : Node .referenceTarget} (ha : inner.Sound) : Makes Node.Sound (do
      let typeArgs ← o.readFirst? .typeArguments .typeArguments
      (Node.reference o.span inner typeArgs (.ofOption o.identifier?) (o.hasToken .newKw)).checked) :=
    (ho.readFirst? _ _).bind fun _ hb => Node.checked_makes fun h =>
      .tree ⟨h, Node.refusal?_reference h⟩ ⟨ha, hb, ofOption_identifier?, trivial⟩
  split
  · exact Makes.bind ((htarget.read _).map fun _ h => h) fun _ ha => hrest ha
  · exact Makes.bind ((htarget.read _).map fun _ h => h) fun _ ha => hrest ha

theorem genericCall : Makes Node.Sound o.genericCall :=
  (ho.readFirst _ _).bind fun _ ha => (ho.readNth _ _).bind fun _ hb =>
    .ok (.tree ⟨rfl, rfl⟩ ⟨ha, hb, trivial⟩)

/-! ### Creation -/

theorem objectCreation : Makes Node.Sound o.objectCreation :=
  (ho.readFirst _ _).bind fun _ hb => (ho.readFirst _ _).bind fun _ hd =>
    (ho.readFirst? _ _).bind fun _ ha => (ho.readFirst? _ _).bind fun _ he =>
      .ok (.tree ⟨rfl, rfl⟩ ⟨ha, hb, hd, he, trivial⟩)

omit ho in
/-- What has been read of the head of an inner creation is sound. -/
theorem push {head : InnerHead} {p : Part} (hp : p.Sound)
    (h : head.typeArgs.Sound ∧ (∀ id, head.id = some id → id.Sound) ∧ head.classTypeArgs.Sound) :
    Makes (fun head => head.typeArgs.Sound ∧ (∀ id, head.id = some id → id.Sound) ∧
      head.classTypeArgs.Sound) (head.push p) := by
  obtain ⟨hargs, hid, hclass⟩ := h
  rw [InnerHead.push]
  split
  · split
    · exact .ok ⟨hargs, fun id h => Option.some.inj h ▸ identifier_sound _, hclass⟩
    · exact .ok ⟨hargs, hid, hclass⟩
  · split
    · exact .ok ⟨hargs, hid, hclass⟩
    · refine (hp.read _).bind fun args h => ?_
      split
      · exact .ok ⟨h, hid, hclass⟩
      · exact .ok ⟨hargs, hid, h⟩

theorem innerCreation : Makes Node.Sound o.innerCreation := by
  refine (Makes.foldlM ⟨List.forall_mem_nil _, nofun, List.forall_mem_nil _⟩
    fun _ hhead p hp => push (ho p hp) hhead).bind fun head ⟨ha, hid, hd⟩ => ?_
  split
  · exact (ho.readFirst _ _).bind fun _ he => (ho.readFirst? _ _).bind fun _ hf =>
      .ok (.tree ⟨rfl, rfl⟩ ⟨ha, hid _ ‹_›, hd, he, hf, trivial⟩)
  · exact .error _

theorem dimExpr : Makes Node.Sound o.dimExpr :=
  (ho.readNth _ _).map fun _ hb => .tree ⟨rfl, rfl⟩ ⟨List.forall_mem_nil _, hb, trivial⟩

theorem arrayInitializer : Makes Node.Sound o.arrayInitializer :=
  (Part.Sound.readAll ho.phrases _).map fun _ ha => .tree ⟨rfl, rfl⟩ ⟨ha, trivial⟩

theorem arrayCreation : Makes Node.Sound o.arrayCreation :=
  (ho.readFirst _ _).bind fun _ ha => (ho.readAll _ _).bind fun _ hb =>
    (ho.readFirst? _ _).bind fun _ he => ho.dims.bind fun _ hd => Node.checked_makes fun h =>
      .tree ⟨h, rfl⟩ ⟨ha, hb, hd, he, trivial⟩

/-! ### Switch rules -/

theorem conditions : Makes Node.Sound o.conditions :=
  (ho.readNth _ _).bind fun _ hleft => (ho.readNth _ _).bind fun _ hright =>
    .ok (hleft.append hright)

theorem caseItem {readSelf : Reading .expr} (hself : Makes Node.Sound readSelf) :
    Makes Node.Sound (o.caseItem readSelf) := by
  rw [Opened.caseItem]
  split
  · exact ho.pattern.bind fun _ ha =>
      .ok (.tree ⟨rfl, rfl⟩ ⟨ha, List.forall_mem_nil _, trivial⟩)
  · exact (ho.readFirst _ _).bind fun _ ha => (ho.readNth _ _).bind fun _ hb =>
      .ok (.tree ⟨rfl, rfl⟩ ⟨ha, hb, trivial⟩)
  · exact hself.map fun _ h => h

omit ho in
/-- A rule has an item, and behind an arrow it has one statement. -/
theorem switchRule {label : Part} (hlabel : label.Sound) (hkind : label.isA .switchLabel)
    (span : Option Text.Span) (isArrow : Bool) {body : Nodes .stmt} (hbody : body.Sound)
    (hone : isArrow = true → body.toList.length = 1) :
    Makes Node.Sound (switchRule span label isArrow body) := by
  have hbodies : (isArrow && body.toList.length != 1) = false := by
    cases isArrow with
    | false => rfl
    | true => rw [hone rfl]; rfl
  rw [Opened.switchRule]
  cases hdefault : label.tree.hasToken .defaultKw with
  | true =>
    refine .ok (.tree ⟨rfl, ?_⟩ ⟨Node.Each.nil, hbody, trivial⟩)
    exact if_neg (by rw [hbodies]; exact Bool.false_ne_true)
  | false =>
    refine ((hlabel.read .caseItems).and (hlabel.items hkind hdefault)).bind fun items h => .ok ?_
    refine .tree ⟨rfl, ?_⟩ ⟨h.1, hbody, trivial⟩
    change (if true && items.isEmpty then _ else if isArrow && _ then _ else none) = none
    rw [h.2, hbodies]
    rfl

omit ho in
theorem groupRules {body : Nodes .stmt} (hbody : body.Sound) {labels : List Part}
    (h : ∀ label ∈ labels, label.Sound ∧ label.isA .switchLabel) :
    Makes Node.Sound (groupRules body labels) := by
  induction labels with
  | nil => exact .ok Node.Each.nil
  | cons label labels ih =>
    obtain ⟨⟨hlabel, hkind⟩, hlabels⟩ := List.forall_mem_cons.mp h
    have hrule {body : Nodes .stmt} (hbody : body.Sound) :=
      switchRule hlabel hkind (some label.tree.span) false hbody (fun h => by cases h)
    cases labels with
    | nil => exact (hrule hbody).bind fun _ hrule => .ok (Node.Each.cons hrule Node.Each.nil)
    | cons next labels =>
      exact (hrule Node.Each.nil).bind fun _ hrule => (ih hlabels).bind fun _ hrules =>
        .ok (Node.Each.cons hrule hrules)

theorem groupBody : Makes Node.Sound o.groupBody := Part.Sound.readAll (ho.phrasesBut _) _

theorem switchRules : Makes Node.Sound o.switchRules := by
  rw [Opened.switchRules]
  split
  · refine (ho.first _).bind fun label ⟨hlabel, hkind⟩ => (ho.readNth _ _).bind fun body hbody => ?_
    exact (switchRule hlabel hkind _ true (Node.Each.cons hbody Node.Each.nil) fun _ => rfl).bind
      fun _ hrule => .ok (Node.Each.cons hrule Node.Each.nil)
  · refine ho.groupBody.bind fun body hbody => groupRules hbody fun label hlabel => ?_
    exact ⟨ho.phrasesOf _ label hlabel, (List.mem_filter.mp hlabel).2⟩
  · exact .error _

theorem allRules : Makes Node.Sound o.allRules := by
  refine (Makes.forall_mapM fun p hp => (ho.phrases p hp).read .switchRules).bind
    fun rules h => .ok ?_
  obtain ⟨-, hrules⟩ := h
  induction rules with
  | nil => exact Node.Each.nil
  | cons rule rules ih =>
    obtain ⟨hrule, hrest⟩ := List.forall_mem_cons.mp hrules
    exact hrule.append (ih hrest)

theorem switchExpr : Makes Node.Sound o.switchExpr :=
  (ho.readNth _ _).bind fun _ ha => (ho.first _).bind fun _ hblock =>
    hblock.1.opened.allRules.bind fun _ hb => .ok (.tree ⟨rfl, rfl⟩ ⟨ha, hb, trivial⟩)

/-! ### All expressions -/

theorem expr : Makes Node.Sound o.expr := by
  unfold Opened.expr
  split
  case h_1 => exact ho.readNth _ _
  case h_2 => exact ho.lambda
  case h_3 => exact ho.assignment
  case h_4 =>
    exact (ho.readNth _ _).bind fun _ ha => (ho.readNth _ _).bind fun _ hb =>
      (ho.readNth _ _).bind fun _ hd => .ok (.tree ⟨rfl, rfl⟩ ⟨ha, hb, hd, trivial⟩)
  case h_5 => exact ho.instanceOf
  case h_6 =>
    exact ho.castBound.bind fun _ hb => ho.last.bind fun _ hp => (hp.read _).bind fun _ hd =>
      .ok (.tree ⟨rfl, rfl⟩ ⟨Node.Each.nil, hb, hd, trivial⟩)
  case h_7 =>
    exact operator.bind fun _ _ => (ho.readNth _ _).bind fun _ hb =>
      .ok (.tree ⟨rfl, rfl⟩ ⟨Node.Each.leaf ⟨rfl, rfl⟩, hb, trivial⟩)
  case h_8 =>
    exact operator.bind fun _ _ => (ho.readNth _ _).bind fun _ ha =>
      .ok (.tree ⟨rfl, rfl⟩ ⟨ha, Node.Each.leaf ⟨rfl, rfl⟩, trivial⟩)
  case h_9 => exact literal.map fun _ ha => .tree ⟨rfl, rfl⟩ ⟨ha, trivial⟩
  case h_10 =>
    exact Makes.any.bind fun t _ => .ok (.tree ⟨rfl, rfl⟩ ⟨identifier_sound t, trivial⟩)
  case h_11 => exact .ok (.tree ⟨rfl, rfl⟩ ⟨Node.Each.absent, trivial⟩)
  case h_12 =>
    exact .ok (.tree ⟨rfl, rfl⟩ ⟨Node.Each.absent, Node.Each.absent, Node.Each.absent, trivial⟩)
  case h_13 => exact ho.superAccess
  case h_14 => exact ho.methodCall
  case h_15 => exact (ho.readFirst _ _).map fun _ ha => .tree ⟨rfl, rfl⟩ ⟨ha, trivial⟩
  case h_16 => exact ho.methodReference
  case h_17 => exact ho.objectCreation
  case h_18 => exact ho.innerCreation
  case h_19 => exact ho.arrayCreation
  case h_20 => exact ho.arrayInitializer.map fun _ h => h
  case h_21 => exact ho.switchExpr
  case h_22 => exact ho.genericCall
  case h_23 =>
    split
    · exact ho.chain
    · exact .error _
  case h_24 => exact .error _

end Opened.Sound

end JavaSource
