import JavaSource.Proofs.Reading.Readable

/-!
# Reading names, annotations and types

Each reader yields what its goal gives.
-/

namespace JavaSource

open Phrase

namespace Opened.Readable

variable {o : Opened} {kind : Phrase}

/-! ### Names, modifiers and annotations -/

theorem qualifiedName (ho : o.Readable .qualifiedName) :
    Yields (fun _ => True) o.qualifiedName := by
  have hne : (Node.ofList o.identifiers).isEmpty = false := by
    obtain ⟨id, hid⟩ := ho.identifier?_isSome rfl
    obtain ⟨ids, hids⟩ := List.head?_eq_some_iff.mp hid
    rw [hids]
    rfl
  refine (Node.checked_yields ?_).any
  exact Node.lacking?_eq_none hne

/-- A token that is written as its kind is spelled, where all those spellings are known. -/
theorem known_of_spelled {α : Type} {f : String → Option α} {kinds : List TokenKind} {t : Token}
    (ht : t.kind ∈ kinds) (hspelled : t.Spelled)
    (h : (kinds.all fun k => (k.text?.bind f).isSome)) : ∃ a, f t.text = some a := by
  obtain ⟨a, ha⟩ := Option.isSome_iff_exists.mp (List.all_eq_true.mp h _ ht)
  obtain ⟨text, htext, ha⟩ := Option.bind_eq_some_iff.mp ha
  exact ⟨a, (hspelled text htext) ▸ ha⟩

theorem keywordModifier {t : Token} (h : ∃ word, ModifierWord.ofText? t.text = some word) :
    Yields (fun _ => True) (o.keywordModifier t) := by
  obtain ⟨word, hword⟩ := h
  rw [Opened.keywordModifier, hword]
  trivial

theorem modifierOf (ho : o.Readable .modifiers) {p : Part} (hp : p ∈ o.parts) :
    Yields (fun _ => True) (o.modifierOf p) := by
  have hitems : ∀ i ∈ Phrase.modifiers.shape.items, i = .token modifierWords ∨
      i = .word "sealed" ∨ i = .phrase [.annotationUse] := by decide
  obtain ⟨i, hi, hfits⟩ := ho.item hp
  have hread := ho.below p hp
  have hregular := hread.regular
  unfold Opened.modifierOf
  cases htree : p.tree with
  | leaf t =>
    rw [htree] at hfits hregular
    refine keywordModifier ?_
    rcases hitems i hi with rfl | rfl | rfl
    · cases hregular with
      | leaf spelled => exact known_of_spelled (List.contains_iff_mem.mp hfits) spelled rfl
    · have htext : t.text = "sealed" := beq_iff_eq.mp ((Bool.and_eq_true ..).mp hfits).2
      exact htext ▸ ⟨_, rfl⟩
    · cases hfits
  | node k ps a b =>
    have hphrase : p.tree.phrase? = some k := by rw [htree]; rfl
    rcases hitems i hi with rfl | rfl | rfl
    · rw [htree] at hfits
      cases hfits
    · rw [htree] at hfits
      cases hfits
    · obtain rfl := List.mem_singleton.mp (Item.mem_kinds_of_fits hfits hphrase)
      exact (hread.reads_as hphrase rfl).map fun _ _ => trivial

theorem modifierList (ho : o.Readable .modifiers) : Yields (fun _ => True) o.modifierList :=
  (Yields.mapM fun _ hp => ho.modifierOf hp).map fun _ _ => trivial

theorem annotationUse (ho : o.Readable .annotationUse) :
    Yields (fun _ => True) o.annotationUse := by
  refine (ho.readFirst rfl rfl).bind fun name _ => (Part.readAll_yields fun p hp =>
    ?_).bind fun _ _ => trivial
  obtain ⟨hmem, htest⟩ := List.mem_filter.mp hp
  rcases (Bool.or_eq_true ..).mp htest with h | h
  · exact ⟨ho.below p hmem, _, beq_iff_eq.mp h, by decide⟩
  · exact ⟨ho.below p hmem, _, beq_iff_eq.mp h, by decide⟩

theorem elementValue (ho : o.Readable .elementValue) : Yields (fun _ => True) o.elementValue := by
  refine (ho.nth (.annotationUse :: .elementValueArrayInitializer :: expressions) rfl).bind
    fun inner ⟨hread, k, hk, hphrase⟩ => ?_
  split
  · exact (hread.reads_as ‹_› rfl).map fun _ _ => trivial
  · exact (hread.reads_as ‹_› rfl).any
  · rename_i hne hne'
    have hk : k ∈ expressions := by
      rcases List.mem_cons.mp hk with rfl | hk
      · exact absurd hphrase hne
      rcases List.mem_cons.mp hk with rfl | hk
      · exact absurd hphrase hne'
      · exact hk
    have hk : k ∈ Goal.expr.kinds := List.mem_cons_of_mem _ hk
    exact (hread.reads_kind hphrase hk).map fun _ _ => trivial

theorem elementValueArray (ho : o.Readable .elementValueArrayInitializer) :
    Yields (fun _ => True) o.elementValueArray := (ho.readAll rfl).map fun _ _ => trivial

theorem annotationElement (ho : o.Readable kind)
    (hk : kind ∈ Goal.annotationElement.kinds) : Yields (fun _ => True) o.annotationElement := by
  unfold Opened.annotationElement
  rw [ho.kind]
  rcases List.mem_cons.mp hk with rfl | hk
  · exact (ho.identifier rfl).bind fun _ _ => (ho.readFirst rfl rfl).bind fun _ _ => trivial
  · obtain rfl := List.mem_singleton.mp hk
    exact ho.elementValue.map fun _ _ => trivial

/-! ### Types -/

/-- A part that says what a type is. -/
def IsBase (p : Part) : Prop :=
  p.tree.phrase? = some .classType ∨ ∃ t, p.tree = .leaf t ∧ t.kind ∈ .voidKw :: primitives

theorem baseOf_yields {p : Part} (hp : p.Readable) :
    Yields (fun base => IsBase p → base.isSome) (baseOf p) := by
  have hwords : ∀ k ∈ TokenKind.voidKw :: primitives, k.typeWord?.isSome := by decide
  unfold baseOf
  cases htree : p.tree with
  | leaf t =>
    rintro (hphrase | ⟨u, hu, hkind⟩)
    · rw [htree] at hphrase
      cases hphrase
    · obtain rfl := Tree.leaf.inj (htree.symm.trans hu)
      rw [Option.isSome_map]
      exact hwords _ hkind
  | node k ps a b =>
    dsimp only [Tree.token?]
    split
    · refine (hp.reads_as (beq_iff_eq.mp ‹_›) rfl).bind fun _ _ => ?_
      exact fun _ => rfl
    · rename_i hkind
      rintro (hphrase | ⟨u, hu, -⟩)
      · exact absurd (beq_iff_eq.mpr hphrase) hkind
      · rw [htree] at hu
        cases hu

theorem typeAnnotations_annotatedWith (ty : TypeNode) (span : Option Text.Span)
    (as : Nodes .annotationUse) : (ty.annotatedWith span as).typeAnnotations = as := by
  cases ty <;> rfl

theorem type (ho : o.Readable .type) : Yields (Goal.type.Gives o.tree) o.type := by
  have hbase : ∃ p ∈ o.parts, IsBase p := by
    obtain ⟨t, ht, i, hi, hfits⟩ := ho.holds.needs
      (f := fun i => i.isAnyOf [.classType] || i.isTokenOf (.voidKw :: primitives)) rfl
    obtain ⟨p, hp, rfl⟩ := List.mem_map.mp ht
    refine ⟨p, hp, ?_⟩
    rcases (Bool.or_eq_true ..).mp hi with hi | hi
    · obtain ⟨k, hk, hphrase⟩ := Item.exists_phrase hfits hi
      exact .inl (List.mem_singleton.mp hk ▸ hphrase)
    · exact .inr (Item.exists_token hfits hi)
  refine (Yields.filterMapM fun p hp => baseOf_yields (ho.below p hp)).bind fun bases hbases => ?_
  split
  · refine ho.annotations.bind fun as has => ho.dims.bind fun dims hdims => ?_
    split
    · intro honly
      rw [typeAnnotations_annotatedWith, has]
      exact ho.phrasesOf_only honly (by decide)
    · rename_i hne
      have hdims : dims.isEmpty = false := by
        cases dims with
        | nil => exact absurd rfl hne
        | cons => rfl
      refine (Node.checked_yields ?_).mono fun n hn _ => hn ▸ rfl
      exact Node.lacking?_eq_none hdims
  · rename_i hnone
    exact absurd (List.getLast?_eq_some_getLast (hbases hbase)) (hnone _ _)

theorem classType (ho : o.Readable .classType) : Yields (fun _ => True) o.classType := by
  refine (ho.readAll_ne rfl rfl).bind fun coits hcoits => ?_
  have hchecked : Yields (fun _ => True) (Node.classType o.span .nil coits).checked := by
    refine (Node.checked_yields ?_).any
    exact Node.lacking?_eq_none hcoits
  split
  · split
    · trivial
    · exact hchecked
  · exact hchecked

theorem coit (ho : o.Readable .coit) : Yields (fun _ => True) o.coit :=
  (ho.identifier rfl).bind fun _ _ => ho.annotations.bind fun _ _ =>
    (ho.readFirst? rfl).bind fun _ _ => trivial

theorem typeArguments (ho : o.Readable .typeArguments) : Yields (fun _ => True) o.typeArguments :=
  (ho.readPhrases rfl).map fun _ _ => trivial

theorem wildcard (ho : o.Readable .wildcard) : Yields (fun _ => True) o.wildcard := by
  unfold Opened.wildcard
  dsimp only
  split
  · obtain ⟨hmem, hphrase⟩ := mem_of_first? ‹_›
    refine ((ho.below _ hmem).reads_as hphrase rfl).bind fun _ _ => ?_
    exact ho.annotations.bind fun _ _ => trivial
  · exact ho.annotations.bind fun _ _ => trivial

theorem typeArgument (ho : o.Readable kind) (hk : kind ∈ Goal.typeArgument.kinds) :
    Yields (fun _ => True) o.typeArgument := by
  unfold Opened.typeArgument
  rw [ho.kind]
  rcases List.mem_cons.mp hk with rfl | hk
  · exact ho.type.any
  · obtain rfl := List.mem_singleton.mp hk
    exact ho.wildcard

theorem dim (ho : o.Readable .dim) : Yields (fun _ => True) o.dim :=
  ho.annotations.map fun _ _ => trivial

theorem types (ho : o.Readable .typeList) : Yields (fun _ => True) o.types := (ho.readAll rfl).any

theorem typeParameter (ho : o.Readable .typeParameter) : Yields (fun _ => True) o.typeParameter :=
  (ho.identifier rfl).bind fun _ _ => ho.annotations.bind fun _ _ =>
    (ho.readFirst? rfl).bind fun _ _ => trivial

theorem typeParameters (ho : o.Readable .typeParameters) :
    Yields (fun _ => True) o.typeParameters := by
  refine (ho.readAll_ne rfl rfl).bind fun ps hps => (Node.checked_yields ?_).any
  exact Node.lacking?_eq_none hps

theorem typeBound (ho : o.Readable .typeBound) : Yields (fun _ => True) o.typeBound := by
  refine (ho.readAll_ne rfl rfl).bind fun types htypes => (Node.checked_yields ?_).any
  exact Node.lacking?_eq_none htypes

theorem castBound (ho : o.Readable .cast) : Yields (fun _ => True) o.castBound := by
  have hne : (o.phrasesOf .type).isEmpty = false := ho.phrasesOf_ne rfl
  unfold Opened.castBound
  dsimp only
  split
  · refine (ho.readAll_ne rfl rfl).bind fun types htypes => (Node.checked_yields ?_).any
    exact Node.lacking?_eq_none htypes
  · rename_i hnone
    cases hheads : o.phrasesOf .type with
    | nil =>
      rw [hheads] at hne
      cases hne
    | cons p ps =>
      rw [hheads, List.getLast?_eq_some_getLast (List.cons_ne_nil p ps)] at hnone
      exact (hnone _ _ rfl).elim

theorem pattern (ho : o.Readable .pattern) : Yields (fun _ => True) o.pattern := by
  obtain ⟨id, hid⟩ := ho.identifier?_isSome rfl
  refine (ho.readFirst rfl rfl).bind fun ty _ => ?_
  rw [hid]
  exact ho.modifiers.bind fun _ _ => trivial

end Opened.Readable

end JavaSource
