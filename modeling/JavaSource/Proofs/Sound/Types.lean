import JavaSource.Proofs.Makes
import JavaSource.Proofs.Printable
import JavaSource.Reading.Reader

/-!
# What is read is sound — names and types

A node is *sound* when every node in its tree obeys the rules about its kind and has a text.  A
part is sound when all that is below it is, when it gives nothing but sound nodes whatever it is
read as, and when a label without `default` gives an item; so it is a matter of what the readers
make of sound parts, and the shape of the tree is asked about for labels only.

Each way to find a part comes to a sound one, and each reader of names, modifiers, annotations,
types and patterns to a sound node.
-/

namespace JavaSource

open Phrase

/-- Every node in the tree obeys the rules about its kind and has a text. -/
def Node.Sound {c : Category} (n : Node c) : Prop :=
  n.Each fun x => x.node.flaw? = none ∧ x.node.refusal? = none

theorem Node.check_makes {c : Category} (n : Node c) : Makes (fun _ => n.flaw? = none) n.check := by
  rw [check]
  split
  · exact .error _
  · exact .ok ‹_›

/-- A part gives nothing but sound nodes, and a label without `default` has items. -/
inductive Part.Sound : Part → Prop where
  | mk {tree : Tree} {parts : List Part} {read : {c : Category} → Goal c → Reading c}
      (items : tree.phrase? = some .switchLabel → tree.hasToken .defaultKw = false →
        Makes (·.isEmpty = false) (read .caseItems))
      (below : ∀ p ∈ parts, Part.Sound p)
      (reads : ∀ {c : Category} (goal : Goal c), Makes Node.Sound (read goal)) :
    Part.Sound (.mk tree parts read)

/-- The parts of an opened tree give nothing but sound nodes. -/
def Opened.Sound (o : Opened) : Prop := ∀ p ∈ o.parts, p.Sound

variable {c : Category} {goal : Goal c}

/-! ### Parts -/

namespace Part.Sound

variable {p : Part}

theorem read (h : p.Sound) (goal : Goal c) : Makes Node.Sound (p.read goal) := by
  cases h with
  | mk _ _ reads => exact reads goal

theorem opened (h : p.Sound) : p.opened.Sound := by
  cases h with
  | mk _ below => exact below

theorem items (h : p.Sound) (hlabel : p.isA .switchLabel) (hdefault : p.tree.hasToken .defaultKw = false) :
    Makes (·.isEmpty = false) (p.read .caseItems) := by
  cases h with
  | mk items => exact items (beq_iff_eq.mp hlabel) hdefault

theorem readAll {ps : List Part} (h : ∀ p ∈ ps, p.Sound) (goal : Goal c) :
    Makes Node.Sound (Part.readAll goal ps) :=
  (Makes.forall_mapM fun p hp => (h p hp).read goal).map fun _ hns => Node.each_ofList hns.2

theorem readOption {p? : Option Part} (h : ∀ p, p? = some p → p.Sound) (goal : Goal c) :
    Makes Node.Sound (Part.readOption goal p?) := by
  cases p? with
  | none => exact .ok (List.forall_mem_nil _)
  | some p => exact ((h p rfl).read goal).map fun _ hn => hn

end Part.Sound

namespace Opened.Sound

variable {o : Opened} (ho : o.Sound)

include ho

theorem phrases : ∀ p ∈ o.phrases, p.Sound := fun p hp => ho p (List.mem_filter.mp hp).1

theorem phrasesOf (kind : Phrase) : ∀ p ∈ o.phrasesOf kind, p.Sound :=
  fun p hp => ho p (List.mem_filter.mp hp).1

theorem phrasesBut (kind : Phrase) : ∀ p ∈ o.phrasesBut kind, p.Sound :=
  fun p hp => ho.phrases p (List.mem_filter.mp hp).1

theorem first? {kind : Phrase} {p : Part} (h : o.first? kind = some p) : p.Sound :=
  ho p (List.mem_of_find?_eq_some h)

theorem first (kind : Phrase) : Makes (fun p => p.Sound ∧ p.isA kind) (o.first kind) := by
  rw [Opened.first]
  cases h : o.first? kind with
  | none => exact .error _
  | some p => exact .ok ⟨ho.first? h, List.find?_some (p := Part.isA kind) h⟩

theorem getElem? {i : Nat} {p : Part} (h : o.phrases[i]? = some p) : p.Sound :=
  ho.phrases p (List.mem_of_getElem? h)

theorem nth (i : Nat) : Makes Part.Sound (o.nth i) := by
  rw [Opened.nth]
  cases h : o.phrases[i]? with
  | none => exact .error _
  | some p => exact .ok (ho.getElem? h)

theorem last : Makes Part.Sound o.last := by
  rw [Opened.last]
  cases h : o.phrases.getLast? with
  | none => exact .error _
  | some p => exact .ok (ho.phrases p (List.mem_of_getLast? h))

theorem behind? {isMarker : Token → Bool} {p : Part} (h : o.behind? isMarker = some p) :
    p.Sound :=
  ho p ((List.dropWhile_suffix _).subset (List.mem_of_find?_eq_some h))

theorem readNth (i : Nat) (goal : Goal c) : Makes Node.Sound (o.readNth i goal) :=
  (ho.nth i).bind fun _ hp => hp.read goal

theorem readFirst (kind : Phrase) (goal : Goal c) : Makes Node.Sound (o.readFirst kind goal) :=
  (ho.first kind).bind fun _ hp => hp.1.read goal

theorem readFirst? (kind : Phrase) (goal : Goal c) : Makes Node.Sound (o.readFirst? kind goal) :=
  Part.Sound.readOption (fun _ => ho.first?) goal

theorem readList (kind : Phrase) (goal : Goal (.list c)) :
    Makes Node.Sound (o.readList kind goal) := by
  rw [Opened.readList]
  cases h : o.first? kind with
  | none => exact .ok (List.forall_mem_nil _)
  | some p => exact (ho.first? h).read goal

theorem readAll (kind : Phrase) (goal : Goal c) : Makes Node.Sound (o.readAll kind goal) :=
  Part.Sound.readAll (ho.phrasesOf kind) goal

theorem annotations : Makes Node.Sound o.annotations := ho.readAll _ _

theorem modifiers : Makes Node.Sound o.modifiers := ho.readList _ _

theorem dims : Makes Node.Sound o.dims := ho.readAll _ _

/-! ### Names, modifiers and annotations -/

omit ho in
theorem identifier_sound (t : Token) : t.identifier.Sound := Node.Each.leaf ⟨rfl, rfl⟩

omit ho in
theorem identifiers : (Node.ofList o.identifiers).Sound :=
  Node.each_ofList (List.forall_mem_map.mpr fun t _ => identifier_sound t)

omit ho in
theorem mem_identifiers {id : Node .identifier} (h : id ∈ o.identifiers) : id.Sound := by
  obtain ⟨t, -, rfl⟩ := List.mem_map.mp h
  exact identifier_sound t

omit ho in
theorem identifier? {id : Node .identifier} (h : o.identifier? = some id) : id.Sound :=
  mem_identifiers (List.mem_of_head? h)

omit ho in
theorem identifierAs (what : String) : Makes Node.Sound (o.identifierAs what) := by
  rw [Opened.identifierAs]
  cases h : o.identifier? with
  | none => exact .error _
  | some id => exact .ok (identifier? h)

omit ho in
theorem identifier : Makes Node.Sound o.identifier := identifierAs _

omit ho in
theorem qualifiedName : Makes Node.Sound o.qualifiedName :=
  Node.checked_makes fun h => .tree ⟨h, rfl⟩ ⟨identifiers, trivial⟩

omit ho in
theorem keywordModifier (t : Token) : Makes Node.Sound (o.keywordModifier t) := by
  rw [Opened.keywordModifier]
  split
  · exact .ok (.leaf ⟨rfl, rfl⟩)
  · exact .error _

theorem modifierList : Makes Node.Sound o.modifierList := by
  refine (Makes.forall_mapM (P := Node.Sound) fun p hp => ?_).map fun _ h => Node.each_ofList h.2
  rw [modifierOf]
  split
  · exact keywordModifier _
  · exact ((ho p hp).read _).map fun _ h => h

theorem annotationUse : Makes Node.Sound o.annotationUse :=
  (ho.readFirst _ _).bind fun _ ha =>
    (Part.Sound.readAll (fun p hp => ho p (List.mem_filter.mp hp).1) _).bind fun _ hb =>
      .ok (.tree ⟨rfl, rfl⟩ ⟨ha, hb, trivial⟩)

theorem elementValue : Makes Node.Sound o.elementValue := by
  refine (ho.nth 0).bind fun p hp => ?_
  split
  · exact (hp.read _).map fun _ h => h
  · exact hp.read _
  · exact (hp.read _).map fun _ h => h

theorem elementValueArray : Makes Node.Sound o.elementValueArray :=
  (ho.readAll _ _).map fun _ ha => .tree ⟨rfl, rfl⟩ ⟨ha, trivial⟩

theorem annotationElement : Makes Node.Sound o.annotationElement := by
  rw [Opened.annotationElement]
  split
  · exact identifier.bind fun _ ha => (ho.readFirst _ _).bind fun _ hb =>
      .ok (.tree ⟨rfl, rfl⟩ ⟨ha, hb, trivial⟩)
  · exact ho.elementValue.map fun _ h => h

/-! ### Types -/

omit ho in
theorem annotatedWith {ty : TypeNode} {anns : Nodes .annotationUse} (h : ty.Sound)
    (hanns : anns.Sound) (span : Option Text.Span) : (ty.annotatedWith span anns).Sound := by
  cases ty with
  | wordType | classType | arrayType | wildcardType =>
    obtain ⟨hn, -, hrest⟩ := Node.Each.parts h
    exact .tree hn ⟨hanns, hrest⟩

theorem baseOf {p : Part} (hp : p ∈ o.parts) :
    Makes (fun found => ∀ base, found = some base → base.1.Sound) (baseOf p) := by
  rw [Opened.baseOf]
  split
  · refine .ok fun base h => ?_
    obtain ⟨word, -, rfl⟩ := Option.map_eq_some_iff.mp h
    exact .tree ⟨rfl, rfl⟩ ⟨List.forall_mem_nil _, trivial⟩
  · split
    · exact ((ho p hp).read _).bind fun _ hbase => .ok fun _ h => by cases h; exact hbase
    · exact .ok fun _ h => by cases h

theorem type : Makes Node.Sound o.type := by
  refine (Makes.filterMapM fun p hp => ho.baseOf hp).bind fun bases hbases => ?_
  cases hlast : bases.getLast? with
  | none => exact .error _
  | some base =>
    have hbase := hbases base (List.mem_of_getLast? hlast)
    refine ho.annotations.bind fun _ hanns => ho.dims.bind fun dims hdims => ?_
    have hannotated := annotatedWith hbase hanns (some ⟨o.tree.start.place, base.2⟩)
    cases dims with
    | nil => exact .ok hannotated
    | cons =>
      exact Node.checked_makes fun h =>
        .tree ⟨h, rfl⟩ ⟨List.forall_mem_nil _, hannotated, hdims, trivial⟩

theorem classType : Makes Node.Sound o.classType := by
  refine (ho.readAll _ _).bind fun coits hcoits => ?_
  have hclass : Makes Node.Sound (Node.classType o.span .nil coits).checked :=
    Node.checked_makes fun h => .tree ⟨h, rfl⟩ ⟨List.forall_mem_nil _, hcoits, trivial⟩
  split
  · split
    · exact .ok (.tree ⟨rfl, rfl⟩ ⟨List.forall_mem_nil _, trivial⟩)
    · exact hclass
  · exact hclass

theorem coit : Makes Node.Sound o.coit :=
  identifier.bind fun _ hb => ho.annotations.bind fun _ ha => (ho.readFirst? _ _).bind fun _ hd =>
    .ok (.tree ⟨rfl, rfl⟩ ⟨ha, hb, hd, trivial⟩)

theorem typeArguments : Makes Node.Sound o.typeArguments :=
  (Part.Sound.readAll ho.phrases _).map fun _ ha => .tree ⟨rfl, rfl⟩ ⟨ha, trivial⟩

theorem wildcard : Makes Node.Sound o.wildcard := by
  have hbound : ∀ bound : OptNode .wildcardBound, bound.Sound → Makes Node.Sound (do
      return Node.wildcardType o.span (← o.annotations) bound) := fun _ hb =>
    ho.annotations.bind fun _ ha => .ok (.tree ⟨rfl, rfl⟩ ⟨ha, hb, trivial⟩)
  rw [Opened.wildcard]
  split
  · refine ((ho.first? ‹_›).read _).bind fun ty hty => hbound _ ?_
    refine .tree ?_ ⟨hty, trivial⟩
    cases o.hasToken .extendsKw <;> exact ⟨rfl, rfl⟩
  · exact hbound .absent (List.forall_mem_nil _)

theorem typeArgument : Makes Node.Sound o.typeArgument := by
  rw [Opened.typeArgument]
  split
  · exact ho.wildcard
  · exact ho.type

theorem dim : Makes Node.Sound o.dim := ho.annotations.map fun _ ha =>
  .tree ⟨rfl, rfl⟩ ⟨ha, trivial⟩

theorem types : Makes Node.Sound o.types := ho.readAll _ _

theorem typeParameter : Makes Node.Sound o.typeParameter :=
  identifier.bind fun _ hb => ho.annotations.bind fun _ ha => (ho.readFirst? _ _).bind fun _ hd =>
    .ok (.tree ⟨rfl, rfl⟩ ⟨ha, hb, hd, trivial⟩)

theorem typeParameters : Makes Node.Sound o.typeParameters :=
  (ho.readAll _ _).bind fun _ ha => Node.checked_makes fun h => .tree ⟨h, rfl⟩ ⟨ha, trivial⟩

theorem typeBound : Makes Node.Sound o.typeBound :=
  ho.types.bind fun _ hb => Node.checked_makes fun h =>
    .tree ⟨h, rfl⟩ ⟨List.forall_mem_nil _, hb, trivial⟩

theorem castBound : Makes Node.Sound o.castBound := by
  rw [Opened.castBound]
  split
  · exact (Part.Sound.readAll (ho.phrasesOf _) _).bind fun _ hb => Node.checked_makes fun h =>
      .tree ⟨h, rfl⟩ ⟨List.forall_mem_nil _, hb, trivial⟩
  · exact .error _

theorem pattern : Makes Node.Sound o.pattern := by
  refine (ho.readFirst _ _).bind fun _ hb => ?_
  split
  · exact ho.modifiers.bind fun _ ha =>
      .ok (.tree ⟨rfl, rfl⟩ ⟨ha, hb, List.forall_mem_nil _, identifier? ‹_›, trivial⟩)
  · exact .error _

end Opened.Sound

end JavaSource
