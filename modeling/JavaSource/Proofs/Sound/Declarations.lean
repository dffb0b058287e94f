import JavaSource.Proofs.Sound.Statements

/-!
# What is read is sound — declarations

The modifiers of a declaration and its span are put in place after the rules about it have been
looked at; neither matters to them.
-/

namespace JavaSource

open Phrase

namespace Opened.Sound

variable {c : Category} {goal : Goal c} {o : Opened} (ho : o.Sound)

include ho

/-! ### Variables and parameters -/

theorem variableDeclaratorId : Makes Node.Sound o.variableDeclaratorId :=
  identifier.bind fun _ ha => ho.dims.bind fun _ hb => .ok (.tree ⟨rfl, rfl⟩ ⟨ha, hb, trivial⟩)

theorem variableDeclarator : Makes Node.Sound o.variableDeclarator :=
  (ho.readFirst _ _).bind fun _ ha =>
    (Part.Sound.readOption (fun _ => ho.getElem?) _).bind fun _ hb =>
      .ok (.tree ⟨rfl, rfl⟩ ⟨ha, hb, trivial⟩)

omit ho in
theorem annotationOf {m : Node .modifier} (h : m.Sound) : Makes Node.Sound (annotationOf m) := by
  cases m with
  | annotationModifier => exact .ok h
  | keywordModifier => exact .error _

omit ho in
theorem typeAnnotations {ty : TypeNode} (h : ty.Sound) : ty.typeAnnotations.Sound := by
  cases ty <;> exact (Node.Each.parts h).2.1

theorem receiverParameter : Makes Node.Sound o.receiverParameter :=
  ho.modifiers.bind fun _ hmods =>
    Makes.bind ((Makes.forall_mapM fun m hm => annotationOf (Node.each_iff_toList.mp hmods m hm)).map
      fun _ h => Node.each_ofList h.2) fun _ hanns => (ho.readFirst _ _).bind fun _ hty =>
        .ok (.tree ⟨rfl, rfl⟩
          ⟨annotatedWith hty (hanns.append (typeAnnotations hty)) _, identifiers, trivial⟩)

theorem formalParameter : Makes Node.Sound o.formalParameter := by
  refine (ho.readFirst _ _).bind fun _ hb => ?_
  split
  · exact identifier.bind fun _ he => ho.modifiers.bind fun _ ha => ho.annotations.bind fun _ hd =>
      .ok (.tree ⟨rfl, rfl⟩ ⟨ha, hb, hd, he, trivial⟩)
  · exact (ho.readFirst _ _).bind fun _ hd => ho.modifiers.bind fun _ ha =>
      .ok (.tree ⟨rfl, rfl⟩ ⟨ha, hb, hd, trivial⟩)

omit ho in
/-- What has been read of a list of parameters is sound. -/
theorem pushParameter {found : OptNode .receiverParameter × List (Node .formalParameter)} {p : Part}
    (hp : p.Sound) (h : found.1.Sound ∧ ∀ n ∈ found.2, n.Sound) :
    Makes (fun found => found.1.Sound ∧ ∀ n ∈ found.2, Node.Sound n) (pushParameter found p) := by
  rw [Opened.pushParameter]
  split
  · exact (hp.read _).bind fun _ hn => .ok ⟨hn, h.2⟩
  · exact (hp.read _).bind fun _ hn => .ok ⟨h.1, List.forall_mem_cons.mpr ⟨hn, h.2⟩⟩
  · exact (hp.read _).bind fun _ hn => .ok ⟨h.1, List.forall_mem_cons.mpr ⟨hn, h.2⟩⟩
  · exact .error _

theorem formalParameters : Makes Node.Sound o.formalParameters :=
  (Makes.foldlM ⟨Node.Each.absent, List.forall_mem_nil _⟩
    fun _ hfound p hp => pushParameter (ho.phrases p hp) hfound).bind fun _ h =>
      .ok (.tree ⟨rfl, rfl⟩
        ⟨h.1, Node.each_ofList fun n hn => h.2 n (List.mem_reverse.mp hn), trivial⟩)

/-! ### Members -/

theorem nameList : Makes Node.Sound o.nameList := ho.readList _ _

theorem typesBehind (isMarker : Token → Bool) : Makes Node.Sound (o.typesBehind isMarker) := by
  rw [Opened.typesBehind]
  split
  · split
    · exact (ho.behind? ‹_›).read _
    · exact .ok Node.Each.nil
  · exact .ok Node.Each.nil

theorem classBody : Makes Node.Sound o.classBody := ho.readFirst _ _

theorem typeParams : Makes Node.Sound o.typeParams := ho.readFirst? _ _

theorem classDecl : Makes Node.Sound o.classDecl :=
  identifier.bind fun _ hb => ho.classBody.bind fun _ hh => (ho.typesBehind _).bind fun _ hf =>
    (ho.typesBehind _).bind fun _ hg => ho.typeParams.bind fun _ hd =>
      (Part.Sound.readOption (fun _ => ho.behind?) _).bind fun _ he =>
        .ok (.tree ⟨rfl, rfl⟩ ⟨Node.Each.nil, hb, hd, he, hf, hg, hh, trivial⟩)

theorem interfaceDecl : Makes Node.Sound o.interfaceDecl :=
  identifier.bind fun _ hb => ho.classBody.bind fun _ hg => (ho.typesBehind _).bind fun _ he =>
    (ho.typesBehind _).bind fun _ hf => ho.typeParams.bind fun _ hd =>
      .ok (.tree ⟨rfl, rfl⟩ ⟨Node.Each.nil, hb, hd, he, hf, hg, trivial⟩)

theorem enumConstant : Makes Node.Sound o.enumConstant :=
  identifier.bind fun _ hb => ho.annotations.bind fun _ ha => (ho.readFirst? _ _).bind fun _ hd =>
    (ho.readFirst? _ _).bind fun _ he => .ok (.tree ⟨rfl, rfl⟩ ⟨ha, hb, hd, he, trivial⟩)

theorem enumDecl : Makes Node.Sound o.enumDecl :=
  identifier.bind fun _ hb => (ho.first _).bind fun _ hinner =>
    (hinner.1.opened.readAll _ _).bind fun _ he =>
      (Part.Sound.readAll (hinner.1.opened.phrasesBut _) _).bind fun _ hf =>
        (ho.typesBehind _).bind fun _ hd =>
          .ok (.tree ⟨rfl, rfl⟩ ⟨Node.Each.nil, hb, hd, he, hf, trivial⟩)

theorem recordComponent : Makes Node.Sound o.recordComponent :=
  (ho.readFirst _ _).bind fun _ hb => identifier.bind fun _ hd => ho.annotations.bind fun _ ha =>
    .ok (.tree ⟨rfl, rfl⟩ ⟨ha, hb, hd, trivial⟩)

theorem recordDecl : Makes Node.Sound o.recordDecl := by
  rw [Opened.recordDecl]
  split
  · exact (ho.first _).bind fun _ hheader => (hheader.1.opened.readAll _ _).bind fun _ he =>
      ho.classBody.bind fun _ hg => (ho.typesBehind _).bind fun _ hf => ho.typeParams.bind fun _ hd =>
        .ok (.tree ⟨rfl, rfl⟩ ⟨Node.Each.nil, mem_identifiers (List.mem_of_getElem? ‹_›), hd, he, hf,
          hg, trivial⟩)
  · exact .error _

theorem annotationDecl : Makes Node.Sound o.annotationDecl :=
  identifier.bind fun _ hb => ho.classBody.bind fun _ hd =>
    .ok (.tree ⟨rfl, rfl⟩ ⟨Node.Each.nil, hb, hd, trivial⟩)

theorem fieldDecl : Makes Node.Sound o.fieldDecl :=
  (ho.readFirst _ _).bind fun _ hb => (ho.readFirst _ _).bind fun _ hd => Node.checked_makes fun h =>
    .tree ⟨h, rfl⟩ ⟨Node.Each.nil, hb, hd, trivial⟩

theorem methodDecl : Makes Node.Sound o.methodDecl :=
  (ho.readFirst _ _).bind fun _ he => identifier.bind fun _ hf => (ho.readFirst _ _).bind fun _ hg =>
    ho.annotations.bind fun _ hd => ho.dims.bind fun _ hh => ho.nameList.bind fun _ hi =>
      ho.typeParams.bind fun _ hb => (ho.readFirst? _ _).bind fun _ hj =>
        .ok (.tree ⟨rfl, rfl⟩ ⟨Node.Each.nil, hb, hd, he, hf, hg, hh, hi, hj, trivial⟩)

theorem constructorDecl : Makes Node.Sound o.constructorDecl :=
  identifier.bind fun _ hd => (ho.readFirst _ _).bind fun _ he => (ho.readFirst _ _).bind fun _ hg =>
    ho.nameList.bind fun _ hf => ho.typeParams.bind fun _ hb =>
      .ok (.tree ⟨rfl, rfl⟩ ⟨Node.Each.nil, hb, hd, he, hf, hg, trivial⟩)

theorem compactConstructorDecl : Makes Node.Sound o.compactConstructorDecl :=
  identifier.bind fun _ hb => (ho.readFirst _ _).bind fun _ hd =>
    .ok (.tree ⟨rfl, rfl⟩ ⟨Node.Each.nil, hb, hd, trivial⟩)

theorem elementDecl : Makes Node.Sound o.elementDecl := by
  have hrest {ty : TypeNode} (hty : ty.Sound) : Makes Node.Sound (do
      let id ← o.identifier
      (Node.elementDecl none .nil ty id .absent).check
      return Node.elementDecl o.span .nil ty id (← o.readFirst? .elementValue .elementValue)) :=
    identifier.bind fun _ hd => (Node.check_makes _).bind fun _ h => (ho.readFirst? _ _).bind
      fun _ he => .ok (.tree ⟨h, rfl⟩ ⟨Node.Each.nil, hty, hd, he, trivial⟩)
  refine (ho.readFirst _ _).bind fun ty hty => ho.dims.bind fun dims hdims => ?_
  split
  · exact hrest hty
  · exact Makes.bind (Node.checked_makes (P := Node.Sound) fun h =>
      .tree ⟨h, rfl⟩ ⟨Node.Each.nil, hty, hdims, trivial⟩) fun _ hty => hrest hty

theorem member : Makes Node.Sound o.member := by
  rw [Opened.member]
  split
  · exact ho.classDecl
  · exact ho.interfaceDecl
  · exact ho.enumDecl
  · exact ho.recordDecl
  · exact ho.annotationDecl
  · exact ho.fieldDecl
  · exact ho.methodDecl
  · exact ho.constructorDecl
  · exact ho.compactConstructorDecl
  · exact ho.elementDecl
  · exact .error _

omit ho in
theorem declAt {d : Decl} (h : d.Sound) (span : Option Text.Span) : (d.declAt span).Sound := by
  cases d with
  | emptyDecl => exact Node.Each.leaf ⟨rfl, rfl⟩
  | _ =>
    obtain ⟨hd, hparts⟩ := Node.Each.parts h
    exact .tree hd hparts

omit ho in
theorem withModifiers? {d d' : Decl} (h : d.Sound) {ms : Nodes .modifier} (hms : ms.Sound)
    (hd : d.withModifiers? ms = some d') : d'.Sound := by
  cases d with
  | emptyDecl | initializerDecl => cases hd
  | _ =>
    cases hd
    obtain ⟨hown, -, hparts⟩ := Node.Each.parts h
    exact .tree hown ⟨hms, hparts⟩

theorem memberDecl : Makes Node.Sound o.memberDecl := by
  rw [Opened.memberDecl]
  split
  · rename_i inner hinner
    refine ((ho.phrasesBut _ inner (List.mem_of_head? hinner)).read _).bind fun decl hdecl =>
      ho.modifiers.bind fun ms hms => ?_
    split
    · exact .ok (declAt hdecl _)
    · split
      · exact .ok (declAt (withModifiers? hdecl hms ‹_›) _)
      · exact .error _
  · exact .error _

theorem decl : Makes Node.Sound o.decl := by
  rw [Opened.decl]
  split
  · exact .ok (Node.Each.leaf ⟨rfl, rfl⟩)
  · exact (ho.readFirst _ _).bind fun _ ha => .ok (.tree ⟨rfl, rfl⟩ ⟨ha, trivial⟩)
  · exact ho.memberDecl
  · exact .error _

/-! ### Compilation units and modules -/

theorem packageDecl : Makes Node.Sound o.packageDecl :=
  (ho.readFirst _ _).bind fun _ hb => ho.annotations.bind fun _ ha =>
    .ok (.tree ⟨rfl, rfl⟩ ⟨ha, hb, trivial⟩)

theorem importDecl : Makes Node.Sound o.importDecl :=
  (ho.readFirst _ _).bind fun _ ha => .ok (.tree ⟨rfl, rfl⟩ ⟨ha, trivial⟩)

theorem directive : Makes Node.Sound o.directive := by
  refine (ho.readFirst _ _).bind fun _ hname => ?_
  split
  · refine Makes.bind (Makes.forall_mapM (P := Node.Sound) fun t _ => keywordModifier t) fun _ h => ?_
    exact .ok (.tree ⟨rfl, rfl⟩ ⟨Node.each_ofList h.2, hname, trivial⟩)
  · exact ho.nameList.map fun _ h => .tree ⟨rfl, rfl⟩ ⟨hname, h, trivial⟩
  · exact ho.nameList.map fun _ h => .tree ⟨rfl, rfl⟩ ⟨hname, h, trivial⟩
  · exact .ok (.tree ⟨rfl, rfl⟩ ⟨hname, trivial⟩)
  · exact ho.nameList.bind fun _ hb => Node.checked_makes fun h =>
      .tree ⟨h, rfl⟩ ⟨hname, hb, trivial⟩
  · exact .error _

theorem moduleDecl : Makes Node.Sound o.moduleDecl :=
  (ho.readFirst _ _).bind fun _ hb =>
    (Part.Sound.readAll (fun p hp => ho.phrases p (List.mem_filter.mp hp).1) _).bind fun _ hd =>
      ho.annotations.bind fun _ ha => .ok (.tree ⟨rfl, rfl⟩ ⟨ha, hb, hd, trivial⟩)

theorem compilationUnit : Makes Node.Sound o.compilationUnit := by
  refine (ho.readFirst? _ _).bind fun package ha => (ho.readAll _ _).bind fun _ hb => ?_
  split
  · exact .error _
  · exact ((ho.first? ‹_›).read _).map fun _ hd => .tree ⟨rfl, rfl⟩ ⟨hb, hd, trivial⟩
  · exact (Part.Sound.readAll (fun p hp => ho.phrases p (List.mem_filter.mp hp).1) _).bind
      fun _ hd => .ok (.tree ⟨rfl, rfl⟩ ⟨ha, hb, hd, trivial⟩)

end Opened.Sound

end JavaSource
