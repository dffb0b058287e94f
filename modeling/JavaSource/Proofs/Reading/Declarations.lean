import JavaSource.Proofs.Reading.Statements

/-!
# Reading declarations

Each reader yields what its goal gives.  A member is read without its modifiers and gets them from
the tree above it, so a reader of a member yields a declaration that can have some.
-/

namespace JavaSource

open Phrase

namespace Opened.Readable

variable {o : Opened} {kind : Phrase}

/-! ### Variables and parameters -/

theorem variableDeclaratorId (ho : o.Readable .variableDeclaratorId) :
    Yields (fun _ => True) o.variableDeclaratorId :=
  (ho.identifier rfl).bind fun _ _ => ho.dims.bind fun _ _ => trivial

theorem variableDeclarator (ho : o.Readable .variableDeclarator) :
    Yields (fun _ => True) o.variableDeclarator :=
  (ho.readFirst rfl rfl).bind fun _ _ => (ho.readOption rfl).bind fun _ _ => trivial

/-- A word among the modifiers of a receiver is a legal error. -/
theorem annotationOf_yields (m : Node .modifier) :
    Yields (fun _ => True) (annotationOf m) := by
  cases m with
  | annotationModifier a => trivial
  | keywordModifier span word => exact .receiverKeyword span

theorem receiverParameter (ho : o.Readable .receiverParameter) :
    Yields (fun _ => True) o.receiverParameter := by
  refine ho.modifiers.bind fun ms _ => ?_
  have hannotations := Yields.mapM fun m (_ : m ∈ ms.toList) => annotationOf_yields m
  exact (hannotations.map fun _ _ => trivial).bind fun as (_ : True) =>
    (ho.readFirst rfl rfl).bind fun _ _ => trivial

theorem formalParameter (ho : o.Readable kind) (hk : kind ∈ Goal.formalParameter.kinds) :
    Yields (fun _ => True) o.formalParameter := by
  unfold Opened.formalParameter
  rw [ho.kind]
  rcases List.mem_cons.mp hk with rfl | hk
  · exact (ho.readFirst rfl rfl).bind fun _ _ => (ho.readFirst rfl rfl).bind fun _ _ =>
      ho.modifiers.bind fun _ _ => trivial
  · obtain rfl := List.mem_singleton.mp hk
    exact (ho.readFirst rfl rfl).bind fun _ _ => (ho.identifier rfl).bind fun _ _ =>
      ho.modifiers.bind fun _ _ => ho.annotations.bind fun _ _ => trivial

/-- One more parameter.  A receiver is there only where a tree is one. -/
theorem pushParameter_yields {p : Part} (hp : p.Readable) {k : Phrase}
    (hphrase : p.tree.phrase? = some k) (hk : k ∈ parameters)
    (read : OptNode .receiverParameter × List (Node .formalParameter)) :
    Yields (fun read' => k ∈ Phrase.lambdaParams → read'.1 = read.1) (pushParameter read p) := by
  unfold pushParameter
  rw [hphrase]
  simp only [parameters, List.mem_cons, List.not_mem_nil, or_false] at hk
  rcases hk with rfl | rfl | rfl
  · exact (hp.reads_as hphrase rfl).bind fun _ _ _ => rfl
  · exact (hp.reads_as hphrase rfl).bind fun _ _ _ => rfl
  · exact (hp.reads_as hphrase rfl).bind fun _ _ hk => absurd hk (by decide)

theorem formalParameters (ho : o.Readable .formalParameters) :
    Yields (Goal.formalParameters.Gives o.tree) o.formalParameters := by
  let only := (Item.only .formalParameters Phrase.lambdaParams).fits o.tree
  refine (Yields.foldlM (P := fun read => only → read.1 = .absent) (fun _ => rfl)
    fun read hread p hp => ?_).bind fun read hread honly => ?_
  · obtain ⟨hmem, hphrase⟩ := List.mem_filter.mp hp
    obtain ⟨k, hk⟩ := Option.isSome_iff_exists.mp hphrase
    have hkinds : ∀ k ∈ Phrase.formalParameters.shape.kinds, k ∈ parameters := by decide
    refine (pushParameter_yields (ho.below p hmem) hk (hkinds k (ho.kind_mem hmem hk)) read).mono
      fun read' hread' honly => ?_
    exact (hread' (ho.mem_of_only honly hmem hk)).trans (hread honly)
  · rw [Node.withoutReceiver, hread honly]
    rfl

/-! ### Members -/

theorem nameList (ho : o.Readable kind) :
    Yields (fun n => o.first? .qualifiedNameList ≠ none → n.isEmpty = false) o.nameList :=
  (ho.readList rfl).mono fun _ hn hfirst => by
    obtain ⟨_, hne⟩ := hn hfirst
    exact hne

theorem typesBehind (ho : o.Readable kind) {isMarker : Token → Bool} :
    Yields (fun _ => True) (o.typesBehind isMarker) := by
  unfold Opened.typesBehind
  split
  · rename_i list hlist
    split
    · rename_i hphrase
      exact (ho.below list (mem_of_behind? hlist)).reads_as (beq_iff_eq.mp hphrase) rfl
    · trivial
  · trivial

theorem classBody (ho : o.Readable kind) (h : kind.shape.needs (·.isAnyOf [.classBody])) :
    Yields (fun _ => True) o.classBody := (ho.readFirst h rfl).any

theorem typeParams (ho : o.Readable kind) : Yields (fun _ => True) o.typeParams :=
  (ho.readFirst? rfl).any

/-- A declaration that can have modifiers, and one of a type where that is asked for. -/
def IsMember (ofType : Bool) (n : Decl) : Prop :=
  n.modifiers?.isSome ∧ (ofType → n.isTypeDeclaration)

theorem classDecl (ho : o.Readable .classDeclaration) : Yields (IsMember true) o.classDecl :=
  (ho.identifier rfl).bind fun _ _ => (ho.classBody rfl).bind fun _ _ =>
    ho.typesBehind.bind fun _ _ => ho.typesBehind.bind fun _ _ => ho.typeParams.bind fun _ _ =>
    (ho.readBehind rfl).bind fun _ _ => ⟨rfl, fun _ => rfl⟩

theorem interfaceDecl (ho : o.Readable .interfaceDeclaration) :
    Yields (IsMember true) o.interfaceDecl :=
  (ho.identifier rfl).bind fun _ _ => (ho.classBody rfl).bind fun _ _ =>
    ho.typesBehind.bind fun _ _ => ho.typesBehind.bind fun _ _ => ho.typeParams.bind fun _ _ =>
    ⟨rfl, fun _ => rfl⟩

theorem enumConstant (ho : o.Readable .enumConstant) : Yields (fun _ => True) o.enumConstant :=
  (ho.identifier rfl).bind fun _ _ => ho.annotations.bind fun _ _ =>
    (ho.readFirst? rfl).bind fun _ _ => (ho.readFirst? rfl).bind fun _ _ => trivial

theorem enumDecl (ho : o.Readable .enumDeclaration) : Yields (IsMember true) o.enumDecl := by
  refine (ho.identifier rfl).bind fun _ _ => (ho.first rfl).bind fun inner ⟨_, hread, hphrase⟩ => ?_
  have hinner : inner.opened.Readable .enumBody := hread.opened hphrase
  exact (hinner.readAll rfl).bind fun _ _ => (hinner.readBut rfl).bind fun _ _ =>
    ho.typesBehind.bind fun _ _ => ⟨rfl, fun _ => rfl⟩

theorem recordComponent (ho : o.Readable .recordComponent) :
    Yields (fun _ => True) o.recordComponent :=
  (ho.readFirst rfl rfl).bind fun _ _ => (ho.identifier rfl).bind fun _ _ =>
    ho.annotations.bind fun _ _ => trivial

/-- Behind the word in front there is a name. -/
theorem recordName (ho : o.Readable .recordDeclaration) : ∃ id, o.identifiers[1]? = some id := by
  have hleast : 2 ≤ o.identifiers.length := ho.length_identifiers
  exact ⟨o.identifiers[1], List.getElem?_eq_getElem hleast⟩

theorem recordDecl (ho : o.Readable .recordDeclaration) : Yields (IsMember true) o.recordDecl := by
  obtain ⟨id, hid⟩ := ho.recordName
  unfold Opened.recordDecl
  rw [hid]
  refine (ho.first rfl).bind fun header ⟨_, hread, hphrase⟩ => ?_
  refine ((hread.opened hphrase).readAll rfl).bind fun _ _ => (ho.classBody rfl).bind fun _ _ => ?_
  exact ho.typesBehind.bind fun _ _ => ho.typeParams.bind fun _ _ => ⟨rfl, fun _ => rfl⟩

theorem annotationDecl (ho : o.Readable .annotationTypeDeclaration) :
    Yields (IsMember true) o.annotationDecl :=
  (ho.identifier rfl).bind fun _ _ => (ho.classBody rfl).bind fun _ _ => ⟨rfl, fun _ => rfl⟩

theorem annotated?_eq_none {node : String} {ty : TypeNode} (h : ty.typeAnnotations.isEmpty) :
    Node.annotated? node ty = none := if_pos h

theorem fieldDecl (ho : o.Readable .fieldDeclaration) : Yields (IsMember false) o.fieldDecl := by
  refine (ho.readFirstAs (.only .type [.classType, .dim]) rfl rfl rfl).bind
    fun ty ⟨_, hfits, hplain⟩ => ?_
  refine (ho.readFirst rfl rfl).bind fun ds ⟨_, _, hds⟩ => ?_
  refine (Node.checked_yields ?_).mono fun n hn => hn ▸ ⟨rfl, nofun⟩
  simp only [Node.flaw?, annotated?_eq_none (hplain hfits), Node.lacking?_eq_none hds]
  rfl

theorem methodDecl (ho : o.Readable .methodDeclaration) : Yields (IsMember false) o.methodDecl :=
  (ho.readFirst rfl rfl).bind fun _ _ => (ho.identifier rfl).bind fun _ _ =>
    (ho.readFirst rfl rfl).bind fun _ _ => ho.annotations.bind fun _ _ => ho.dims.bind fun _ _ =>
    ho.nameList.bind fun _ _ => ho.typeParams.bind fun _ _ => (ho.readFirst? rfl).bind fun _ _ =>
    ⟨rfl, nofun⟩

theorem constructorDecl (ho : o.Readable .constructorDeclaration) :
    Yields (IsMember false) o.constructorDecl :=
  (ho.identifier rfl).bind fun _ _ => (ho.readFirst rfl rfl).bind fun _ _ =>
    (ho.readFirst rfl rfl).bind fun _ _ => ho.nameList.bind fun _ _ => ho.typeParams.bind fun _ _ =>
    ⟨rfl, nofun⟩

theorem compactConstructorDecl (ho : o.Readable .compactConstructorDeclaration) :
    Yields (IsMember false) o.compactConstructorDecl :=
  (ho.identifier rfl).bind fun _ _ => (ho.readFirst rfl rfl).bind fun _ _ => ⟨rfl, nofun⟩

theorem elementDecl (ho : o.Readable .annotationMethodDeclaration) :
    Yields (IsMember false) o.elementDecl := by
  refine (ho.readFirstAs (.only .type [.classType, .dim]) rfl rfl rfl).bind
    fun ty ⟨_, hfits, hplain⟩ => ?_
  refine ho.dims.bind fun dims _ => ?_
  have hrest : ∀ ty : TypeNode, ty.typeAnnotations.isEmpty → Yields (IsMember false) (do
      let id ← o.identifier
      (Node.elementDecl none .nil ty id .absent).check
      return .elementDecl o.span .nil ty id (← o.readFirst? .elementValue .elementValue)) := by
    intro ty hty
    refine (ho.identifier rfl).bind fun id _ => (Node.check_yields ?_).bind fun _ _ => ?_
    · exact annotated?_eq_none hty
    · exact (ho.readFirst? rfl).bind fun _ _ => ⟨rfl, nofun⟩
  cases dims with
  | nil => exact hrest ty (hplain hfits)
  | cons d ds =>
    have hchecked : Yields (fun n => n.typeAnnotations.isEmpty)
        (Node.arrayType ty.span .nil ty (.cons d ds)).checked :=
      (Node.checked_yields rfl).mono fun n hn => hn ▸ rfl
    exact hchecked.bind fun ty hty => hrest ty hty

theorem member (ho : o.Readable kind) (hk : kind ∈ Goal.member.kinds) :
    Yields (Goal.member.Gives o.tree) o.member := by
  have hmember : Yields (IsMember (typeDeclarations.contains kind)) o.member := by
    unfold Opened.member
    rw [ho.kind]
    simp only [Goal.kinds, members, typeDeclarations, List.mem_append, List.mem_cons,
      List.not_mem_nil, or_false] at hk
    rcases hk with (rfl | rfl | rfl | rfl | rfl) | rfl | rfl | rfl | rfl | rfl
    · exact ho.classDecl
    · exact ho.interfaceDecl
    · exact ho.enumDecl
    · exact ho.recordDecl
    · exact ho.annotationDecl
    · exact ho.fieldDecl
    · exact ho.methodDecl
    · exact ho.constructorDecl
    · exact ho.compactConstructorDecl
    · exact ho.elementDecl
  refine hmember.mono fun n hn => ?_
  obtain ⟨hmodifiers, htype⟩ := hn
  refine ⟨hmodifiers, ?_⟩
  rwa [ho.kind]

theorem isTypeDeclaration_declAt (d : Decl) (span : Option Text.Span) :
    (d.declAt span).isTypeDeclaration = d.isTypeDeclaration := by
  cases d <;> rfl

/-- A declaration that can have modifiers takes them. -/
theorem withModifiers?_isSome {d : Decl} (h : d.modifiers?.isSome) (ms : Nodes .modifier) :
    ∃ d', d.withModifiers? ms = some d' ∧ d'.isTypeDeclaration = d.isTypeDeclaration := by
  cases d <;> first | exact ⟨_, rfl, rfl⟩ | cases h

/-- What is a member behind its modifiers. -/
theorem exists_member (ho : o.Readable .memberDeclaration) :
    ∃ p, (o.phrasesBut .modifiers).head? = some p ∧ p ∈ o.parts ∧
      ∃ k ∈ members, p.tree.phrase? = some k := by
  obtain ⟨p, hp, k, hk, hphrase⟩ := ho.exists_phrase members rfl
  have hmem : p ∈ o.phrasesBut .modifiers := by
    refine List.mem_filter.mpr ⟨List.mem_filter.mpr ⟨hp, by rw [Part.isPhrase, hphrase]; rfl⟩, ?_⟩
    have hne : k ≠ .modifiers := fun he => absurd (he ▸ hk) (by decide)
    simpa [Part.isA, hphrase] using hne
  obtain ⟨q, hq⟩ := Option.isSome_iff_exists.mp (List.isSome_head?.mpr (List.ne_nil_of_mem hmem))
  obtain ⟨hq', hbut⟩ := List.mem_filter.mp (List.mem_of_head? hq)
  obtain ⟨hmem, hphrase⟩ := List.mem_filter.mp hq'
  obtain ⟨k, hk⟩ := Option.isSome_iff_exists.mp hphrase
  refine ⟨q, hq, hmem, k, ?_, hk⟩
  rcases List.mem_cons.mp (ho.kind_mem hmem hk) with rfl | hmembers
  · rw [Part.isA, hk] at hbut
    cases hbut
  · exact hmembers

theorem memberDecl (ho : o.Readable .memberDeclaration) :
    Yields (fun n => (Item.only .memberDeclaration (.modifiers :: typeDeclarations)).fits o.tree →
      n.isTypeDeclaration) o.memberDecl := by
  obtain ⟨p, hp, hmem, k, hk, hphrase⟩ := ho.exists_member
  unfold Opened.memberDecl
  rw [hp]
  have hgoal : k ∈ Goal.member.kinds := hk
  refine ((ho.below p hmem).reads_kind hphrase hgoal).bind fun d ⟨hmodifiers, htype⟩ => ?_
  have htype : (Item.only .memberDeclaration (.modifiers :: typeDeclarations)).fits o.tree →
      d.isTypeDeclaration := fun honly => by
    refine htype ?_
    rw [hphrase]
    rcases List.mem_cons.mp (ho.mem_of_only honly hmem hphrase) with rfl | htypes
    · exact absurd hk (by decide)
    · exact List.contains_iff_mem.mpr htypes
  refine ho.modifiers.bind fun ms _ => ?_
  cases ms with
  | nil => exact fun honly => (isTypeDeclaration_declAt d _).trans (htype honly)
  | cons m ms =>
    obtain ⟨d', hd', htype'⟩ := withModifiers?_isSome hmodifiers (.cons m ms)
    simp only [hd']
    exact fun honly => (isTypeDeclaration_declAt d' _).trans (htype'.trans (htype honly))

theorem decl (ho : o.Readable kind) (hk : kind ∈ Goal.decl.kinds) :
    Yields (Goal.decl.Gives o.tree) o.decl := by
  have hother : kind ≠ .memberDeclaration → ∀ n : Decl, Goal.decl.Gives o.tree n :=
    fun hne n hfits => absurd (Option.some.inj (ho.kind.symm.trans (phrase?_of_fits hfits rfl))) hne
  unfold Opened.decl
  rw [ho.kind]
  rcases List.mem_cons.mp hk with rfl | hk
  · exact ho.memberDecl
  rcases List.mem_cons.mp hk with rfl | hk
  · exact hother (by decide) _
  · obtain rfl := List.mem_singleton.mp hk
    exact (ho.readFirst rfl rfl).bind fun _ _ => hother (by decide) _

/-! ### Compilation units and modules -/

theorem packageDecl (ho : o.Readable .packageDeclaration) : Yields (fun _ => True) o.packageDecl :=
  (ho.readFirst rfl rfl).bind fun _ _ => ho.annotations.bind fun _ _ => trivial

theorem importDecl (ho : o.Readable .importDeclaration) : Yields (fun _ => True) o.importDecl :=
  (ho.readFirst rfl rfl).bind fun _ _ => trivial

/-- What stands behind the word `requires`. -/
def requirement : Shape :=
  ((Shape.many ((Shape.tok .staticKw).alt (.word "transitive"))).seq (.phr .qualifiedName)).seq
    (.tok .semi)

theorem requirement_holds (ho : o.Readable .requiresDirective) :
    ∃ t ts, o.parts.map Part.tree = t :: ts ∧ t.token?.isSome ∧ requirement.Holds ts := by
  obtain ⟨_, ws, htrees, ⟨_, vs, rfl, ⟨_, us, rfl, ⟨t, rfl, ht⟩, hwords⟩, hname⟩, hend⟩ := ho.holds
  refine ⟨t, us ++ vs ++ ws, htrees, ?_, us ++ vs, ws, rfl, ⟨us, vs, rfl, hwords, hname⟩, hend⟩
  cases t with
  | leaf => rfl
  | node => cases ht

/-- Each word between `requires` and the name is a modifier. -/
theorem requiresWords (ho : o.Readable .requiresDirective) {t : Token}
    (ht : t ∈ o.tree.tokens.drop 1) (hsemi : t.kind ≠ .semi) :
    ∃ word, ModifierWord.ofText? t.text = some word := by
  have hitems : ∀ i ∈ requirement.items, i = .token [.staticKw] ∨ i = .word "transitive" ∨
      i = .phrase [.qualifiedName] ∨ i = .token [.semi] := by decide
  obtain ⟨first, ts, htrees, hfirst, hrest⟩ := ho.requirement_holds
  obtain ⟨u, hu⟩ := Option.isSome_iff_exists.mp hfirst
  have htokens : o.tree.tokens = u :: ts.filterMap Tree.token? := by
    rw [Tree.tokens, ← ho.trees, htrees, List.filterMap_cons, hu]
  rw [htokens] at ht
  obtain ⟨t', ht', htoken⟩ := List.mem_filterMap.mp ht
  obtain ⟨i, hi, hfits⟩ := hrest.item ht'
  obtain rfl : t' = .leaf t := by
    cases t' with
    | leaf => exact congrArg Tree.leaf (Option.some.inj htoken)
    | node => cases htoken
  have hspelled : t.Spelled := ho.spelled (htokens ▸ List.mem_cons_of_mem u ht)
  rcases hitems i hi with rfl | rfl | rfl | rfl
  · exact known_of_spelled (List.contains_iff_mem.mp hfits) hspelled rfl
  · have htext : t.text = "transitive" := beq_iff_eq.mp ((Bool.and_eq_true ..).mp hfits).2
    exact htext ▸ ⟨_, rfl⟩
  · cases hfits
  · exact absurd (List.mem_singleton.mp (List.contains_iff_mem.mp hfits)) hsemi

theorem directive (ho : o.Readable kind) (hk : kind ∈ Goal.directive.kinds) :
    Yields (fun _ => True) o.directive := by
  have hname : kind.shape.needs (·.isAnyOf [.qualifiedName]) := by
    have hall : ∀ k ∈ directives, k.shape.needs (·.isAnyOf [.qualifiedName]) := by decide
    exact hall kind hk
  refine (ho.readFirst hname rfl).bind fun name _ => ?_
  rw [ho.kind]
  simp only [Goal.kinds, directives, List.mem_cons, List.not_mem_nil, or_false] at hk
  rcases hk with rfl | rfl | rfl | rfl | rfl
  · refine (Yields.mapM (P := fun _ => True) fun t ht => ?_).bind fun _ _ => trivial
    obtain ⟨hmem, hsemi⟩ := List.mem_filter.mp ht
    exact keywordModifier (ho.requiresWords hmem (bne_iff_ne.mp hsemi))
  · exact ho.nameList.map fun _ _ => trivial
  · exact ho.nameList.map fun _ _ => trivial
  · trivial
  · refine ho.nameList.bind fun names hnames => (Node.checked_yields ?_).any
    obtain ⟨p, hp, k, hk, hphrase⟩ := ho.exists_phrase [.qualifiedNameList] rfl
    obtain rfl := List.mem_singleton.mp hk
    refine Node.lacking?_eq_none (hnames fun hnone => ?_)
    exact List.find?_eq_none.mp hnone p hp (beq_iff_eq.mpr hphrase)

theorem moduleDecl (ho : o.Readable .moduleDeclaration) : Yields (fun _ => True) o.moduleDecl := by
  have hkinds : ∀ k ∈ Phrase.moduleDeclaration.shape.kinds,
      k = .annotationUse ∨ k = .qualifiedName ∨ k ∈ Goal.directive.kinds := by decide
  refine (ho.readFirst rfl rfl).bind fun name _ => (ho.readFilter fun k hk =>
    ?_).bind fun directives _ => ?_
  · rcases hkinds k hk with rfl | rfl | hk
    · exact .inr fun p hp => by rw [Part.isA, hp]; rfl
    · exact .inr fun p hp => by rw [Part.isA, Part.isA, hp]; rfl
    · exact .inl hk
  · exact ho.annotations.bind fun _ _ => trivial

theorem compilationUnit (ho : o.Readable .compilationUnit) :
    Yields (fun _ => True) o.compilationUnit := by
  refine (ho.readFirst? rfl).bind fun package _ => (ho.readAll rfl).bind fun imports _ => ?_
  cases hmodule : o.first? .moduleDeclaration with
  | some m =>
    obtain ⟨hmem, hphrase⟩ := mem_of_first? hmodule
    cases package with
    | absent => exact ((ho.below m hmem).reads_as hphrase rfl).map fun _ _ => trivial
    | present package => exact .modularPackage _
  | none =>
    have hkinds : ∀ k ∈ Phrase.compilationUnit.shape.kinds, k = .packageDeclaration ∨
        k = .importDeclaration ∨ k = .moduleDeclaration ∨ k ∈ Goal.decl.kinds := by decide
    refine (Part.readAll_yields fun p hp => ?_).bind fun decls _ => ?_
    · obtain ⟨hmem, hother⟩ := List.mem_filter.mp hp
      obtain ⟨hmem, hphrase⟩ := List.mem_filter.mp hmem
      obtain ⟨k, hk⟩ := Option.isSome_iff_exists.mp hphrase
      refine ⟨ho.below p hmem, k, hk, ?_⟩
      rcases hkinds k (ho.kind_mem hmem hk) with rfl | rfl | rfl | hk'
      · rw [Part.isA, hk] at hother
        cases hother
      · rw [Part.isA, Part.isA, hk] at hother
        cases hother
      · exact absurd (beq_iff_eq.mpr hk) (List.find?_eq_none.mp hmodule p hmem)
      · exact hk'
    · trivial

end Opened.Readable

end JavaSource
