import JavaSource.Proofs.Operators.Printed
import JavaSource.Proofs.Types.Tree

/-!
# The document of a type

The document of a type has no line breaks, and its text is that of the type tree
(`TypeTree.flat`).
-/

namespace JavaSource

/-- The document of a name that is no expression. -/
theorem LegalName.flat_identifier (n : LegalName) (spans : Spans) :
    (Doc.concat (n.identifier spans).docs).Flat n.chars :=
  (Doc.Flat.text n.text).concat.of_eq String.toList_ofList

/-- The documents of dimensions. -/
theorem flat_dimNodes : (n : Nat) → (spans : Spans) →
    (Doc.concat (dimNodes spans n).docs).Flat (dimChars n)
  | 0, _ => .nil
  | n + 1, spans => by
    have hfirst : (Doc.concat (Node.dim (spans [0]) .nil).docs).Flat "[]".toList :=
      (Doc.Flat.append .nil (.text "[]")).concat
    exact hfirst.append (flat_dimNodes n _)

mutual

/-- The document of a type, and its text. -/
theorem TypeTree.flat :
    (t : TypeTree) → (spans : Spans) → ∃ d, (t.node spans).docs = [d] ∧ d.Flat t.chars
  | .mk base 0, spans => by
    obtain ⟨d, hd, hbase⟩ := base.flat spans
    exact ⟨d, hd, hbase.of_eq (List.append_nil _).symm⟩
  | .mk base (dims + 1), spans => by
    obtain ⟨d, hd, hbase⟩ := base.flat (spans.below 0)
    refine ⟨_, rfl, ?_⟩
    rw [hd]
    exact (Doc.Flat.nil.append hbase.concat).append (flat_dimNodes (dims + 1) _)

theorem BaseTree.flat :
    (b : BaseTree) → (spans : Spans) → ∃ d, (b.node spans).docs = [d] ∧ d.Flat b.chars
  | .word word, _ => ⟨_, rfl, Doc.Flat.nil.append (.text word.word.text)⟩
  | .named parts, _ => ⟨_, rfl, Doc.Flat.nil.append (parts.flat _)⟩

theorem CoitTree.flat :
    (part : CoitTree) → (spans : Spans) → ∃ d, (part.node spans).docs = [d] ∧ d.Flat part.chars
  | .plain name, _ => by
    refine ⟨_, rfl, ?_⟩
    exact ((Doc.Flat.nil.append (name.flat_identifier _)).append .nil).of_eq (by simp [CoitTree.chars])
  | .generic name .nil, _ => by
    refine ⟨_, rfl, ?_⟩
    have hargs := (((Doc.Flat.text "<").append .nil).append (.text ">")).concat
    exact ((Doc.Flat.nil.append (name.flat_identifier _)).append hargs).of_eq
      (by simp [CoitTree.chars, ArgTrees.chars])
  | .generic name (.cons first others), spans => by
    obtain ⟨d, hd, hfirst⟩ := first.flat ((spans.below 2).below 0)
    refine ⟨_, rfl, ?_⟩
    have hargs := (((Doc.Flat.text "<").append (others.flat ((spans.below 2).below 1)
      hfirst.concat)).append (.text ">")).concat
    rw [← hd] at hargs
    exact ((Doc.Flat.nil.append (name.flat_identifier _)).append hargs).of_eq
      (by simp [CoitTree.chars, ArgTrees.chars])

theorem CoitTrees.flat : (parts : CoitTrees) → (spans : Spans) →
    (Doc.sep "." (parts.node spans).docs).Flat parts.chars
  | .last part, spans => by
    obtain ⟨d, hd, hpart⟩ := part.flat (spans.below 0)
    rw [CoitTrees.node, Node.docs_cons, hd]
    exact hpart.concat
  | .dot first others, spans => by
    obtain ⟨d, hd, hfirst⟩ := first.flat (spans.below 0)
    have hothers := others.flat (spans.below 1)
    rw [CoitTrees.node, Node.docs_cons, hd]
    have hlist := (hfirst.concat.append (.text ".")).append hothers
    cases others <;> exact hlist.of_eq (by simp [CoitTrees.chars])

theorem ArgTree.flat :
    (arg : ArgTree) → (spans : Spans) → ∃ d, (arg.node spans).docs = [d] ∧ d.Flat arg.chars
  | .type type, spans => type.flat spans
  | .wildcard, _ => ⟨_, rfl, (Doc.Flat.nil.append (.text "?")).append .nil⟩
  | .bounded bound type, spans => by
    obtain ⟨d, hd, htype⟩ := type.flat (spans.below 1)
    cases bound with
    | «extends» =>
      refine ⟨_, rfl, ?_⟩
      have hbound := ((Doc.Flat.text " extends ").append htype.concat).concat
      rw [← hd] at hbound
      exact ((Doc.Flat.nil.append (.text "?")).append hbound).of_eq rfl
    | super =>
      refine ⟨_, rfl, ?_⟩
      have hbound := ((Doc.Flat.text " super ").append htype.concat).concat
      rw [← hd] at hbound
      exact ((Doc.Flat.nil.append (.text "?")).append hbound).of_eq rfl

/-- The documents of several type arguments behind one more. -/
theorem ArgTrees.flat :
    (args : ArgTrees) → (spans : Spans) → ∀ {d : Doc} {cs : List Char}, d.Flat cs →
      (Doc.sep ", " (d :: (args.node spans).docs)).Flat (cs ++ args.chars [',', ' '])
  | .nil, _, d, cs, h => h.of_eq (List.append_nil cs).symm
  | .cons first others, spans, d, cs, h => by
    obtain ⟨e, he, hfirst⟩ := first.flat _
    rw [ArgTrees.node, Node.docs_cons, he]
    refine ((h.append (.text ", ")).append (others.flat _ hfirst.concat)).of_eq ?_
    simp [ArgTrees.chars]

end

end JavaSource
