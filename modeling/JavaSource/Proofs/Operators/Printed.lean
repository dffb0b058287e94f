import JavaSource.Proofs.Operators.Grouping

/-!
# Operator trees as they are printed

A document without line breaks is written in the same way whatever the indent (`Doc.Flat`).  The
document of an expression is one, and its text is that of the grouped tree (`OpTree.print_node`).
-/

namespace JavaSource

open Text (Span)

/-- A document without line breaks, and its text. -/
inductive Doc.Flat : Doc → List Char → Prop where
  | nil : Flat .nil []
  | text (s : String) : Flat (.text s) s.toList
  | append {a b : Doc} {as bs : List Char} (first : Flat a as) (second : Flat b bs) :
    Flat (a ++ b) (as ++ bs)

namespace Doc.Flat

variable {d : Doc} {cs : List Char}

theorem write (h : Flat d cs) (indent depth : Nat) (written : String) :
    d.write indent depth written = .ok (written ++ String.ofList cs) := by
  induction h generalizing written with
  | nil => rw [Doc.write, String.ofList_nil, String.append_empty]
  | text s => rw [Doc.write, String.ofList_toList]
  | append _ _ ih₁ ih₂ =>
    rw [show ∀ a b : Doc, a ++ b = .append a b from fun _ _ => rfl, Doc.write, ih₁]
    simp only [bind, Except.bind, ih₂, String.ofList_append, String.append_assoc]

theorem render (h : Flat d cs) (indent : Nat) : d.render indent = .ok (String.ofList cs) := by
  rw [Doc.render, h.write, String.empty_append]

theorem of_eq {cs' : List Char} (h : Flat d cs) (hcs : cs = cs') : Flat d cs' := hcs ▸ h

theorem concat (h : Flat d cs) : Flat (Doc.concat [d]) cs :=
  (h.append .nil).of_eq (List.append_nil cs)

theorem parens (h : Flat d cs) : Flat (Doc.parens true d) ('(' :: cs ++ [')']) :=
  ((Flat.text "(").append h).append (.text ")")

end Doc.Flat

/-- An expression is no literal. -/
theorem OpTree.integer?_node (spans : Spans) : (t : OpTree) → (t.node spans).integer? = none
  | .paren inner => inner.integer?_node spans
  | .head (.name _) | .head (.call ..) | .binary .. | .unary .. | .post .. | .conditional ..
  | .assignment .. | .index .. | .member .. => rfl

/-- Signs run together where the grouped operand starts with one. -/
theorem OpTree.startsWithSign_node (op : UnaryOp) (spans : Spans) :
    (t : OpTree) → (t.node spans).startsWithSign op = t.grouped.clashes op
  | .paren inner => inner.startsWithSign_node op spans
  | .head (.name _) | .head (.call ..) | .binary .. | .unary .. | .post .. | .conditional ..
  | .assignment .. | .index .. | .member .. => rfl

/-- Parentheses keep signs apart. -/
theorem OpTree.clashes_within (op : UnaryOp) (t : OpTree) :
    (t.within ⟨.unary, true⟩).clashes op = t.clashes op := by
  cases t with
  | binary inner => cases inner <;> rfl
  | _ => rfl

namespace Doc.Flat

variable {d : Doc} {cs : List Char}

theorem operand {t : OpTree} (h : Flat d t.grouped.chars) (spans : Spans)
    (context : Context) :
    Flat (Doc.operand context (t.node spans) d) (t.grouped.within context).chars := by
  rw [Doc.operand, OpTree.within, t.level_grouped]
  cases context.needsParens t.grouped.level with
  | true => exact h.parens
  | false => exact h

theorem prefixed {t : OpTree} (h : Flat d t.grouped.chars) (spans : Spans)
    (op : UnaryOp) :
    Flat (Doc.prefixed op (t.node spans) d) (OpTree.unary op t).grouped.chars := by
  have hprefixed : Doc.prefixed op (t.node spans) d =
      op.text ++ (if (t.node spans).startsWithSign op then " " else "")
        ++ Doc.operand ⟨.unary, true⟩ (t.node spans) d := by
    unfold Doc.prefixed
    rw [t.integer?_node spans]
    cases op <;> rfl
  rw [hprefixed, OpTree.grouped, OpTree.chars, OpTree.clashes_within,
    ← t.startsWithSign_node op spans]
  refine ((Flat.text _).append ?_).append (h.operand _ _)
  split
  · exact .text " "
  · exact .text ""

end Doc.Flat

theorem Node.docs_cons {c : Category} (head : Node c) (tail : Nodes c) :
    (Node.cons head tail).docs = Doc.concat head.docs :: tail.docs := rfl

/-- The document of a name that is called. -/
theorem LegalName.flat (name : LegalName) (spans : Spans) :
    (Doc.operand .primary (name.node spans)
      (Doc.concat [.text name.text])).Flat name.chars :=
  (Doc.Flat.text name.text).concat.of_eq String.toList_ofList

mutual

/-- The document of an expression, and its text. -/
theorem OpTree.flat :
    (t : OpTree) → (spans : Spans) → ∃ d, (t.node spans).docs = [d] ∧ d.Flat t.grouped.chars
  | .head h, spans => h.flat spans
  | .paren inner, spans => inner.flat spans
  | .binary op left right, spans => by
    obtain ⟨l, hl, hleft⟩ := left.flat _
    obtain ⟨r, hr, hright⟩ := right.flat _
    refine ⟨_, rfl, ?_⟩
    rw [hl, hr]
    refine (((((hleft.concat.operand _ _).append (.text " ")).append (.text op.text)).append
      (.text " ")).append (hright.concat.operand _ _)).of_eq ?_
    simp [OpTree.grouped, OpTree.chars]
  | .unary op operand, spans => by
    obtain ⟨d, hd, hoperand⟩ := operand.flat _
    refine ⟨_, rfl, ?_⟩
    rw [hd]
    exact hoperand.concat.prefixed _ op
  | .post op operand, spans => by
    obtain ⟨d, hd, hoperand⟩ := operand.flat _
    refine ⟨_, rfl, ?_⟩
    rw [hd]
    exact (hoperand.concat.operand _ _).append (.text op.text)
  | .conditional test body orelse, spans => by
    obtain ⟨t, ht, htest⟩ := test.flat _
    obtain ⟨b, hb, hbody⟩ := body.flat _
    obtain ⟨o, ho, horelse⟩ := orelse.flat _
    refine ⟨_, rfl, ?_⟩
    rw [ht, hb, ho]
    exact ((((htest.concat.operand _ _).append (.text " ? ")).append hbody.concat).append
      (.text " : ")).append (horelse.concat.operand _ _)
  | .assignment op target value, spans => by
    obtain ⟨t, ht, htarget⟩ := target.flat _
    obtain ⟨v, hv, hvalue⟩ := value.flat _
    refine ⟨_, rfl, ?_⟩
    rw [ht, hv]
    cases op with
    | none =>
      refine (((((htarget.concat.operand _ _).append (.text " ")).append (.text "=")).append
        (.text " ")).append (hvalue.concat.operand _ _)).of_eq ?_
      simp [OpTree.grouped, OpTree.chars]
    | some op =>
      refine (((((htarget.concat.operand _ _).append (.text " ")).append
        (Doc.Flat.text op.text).concat).append (.text " ")).append
        (hvalue.concat.operand _ _)).of_eq ?_
      simp [OpTree.grouped, OpTree.chars]
  | .index receiver inner, spans => by
    obtain ⟨r, hr, hreceiver⟩ := receiver.flat _
    obtain ⟨i, hi, hinner⟩ := inner.flat _
    refine ⟨_, rfl, ?_⟩
    rw [hr, hi]
    refine ((((hreceiver.concat.operand _ _).append (.text "[")).append hinner.concat).append
      (.text "]")).of_eq ?_
    simp [OpTree.grouped, OpTree.chars]
  | .member receiver selected, spans => by
    obtain ⟨r, hr, hreceiver⟩ := receiver.flat _
    obtain ⟨s, hs, hselected⟩ := selected.flat _
    refine ⟨_, rfl, ?_⟩
    have hprimary : Doc.operand .primary (selected.node (spans.below 1)) (Doc.concat [s]) =
        Doc.concat [s] := by cases selected <;> rfl
    rw [hr, hs, hprimary]
    refine (((hreceiver.concat.operand _ _).append (.text ".")).append
      hselected.concat).of_eq ?_
    simp [OpTree.grouped, OpTree.chars]

theorem OpHead.flat :
    (h : OpHead) → (spans : Spans) → ∃ d, (h.node spans).docs = [d] ∧ d.Flat h.grouped.chars
  | .name name, _ => ⟨name.text, rfl, (Doc.Flat.text _).of_eq String.toList_ofList⟩
  | .call name .nil, _ =>
    ⟨_, rfl, ((name.flat _).append (((Doc.Flat.text "(").append .nil).append
      (.text ")"))).of_eq (by simp [OpHead.grouped, OpHead.chars, OpTrees.grouped, OpTrees.chars])⟩
  | .call name (.cons first others), spans => by
    obtain ⟨d, hd, hfirst⟩ := first.flat _
    refine ⟨_, rfl, ?_⟩
    change (Doc.operand .primary _ (Doc.concat [.text name.text]) ++
      Doc.tuple ((OpTrees.cons first others).node (spans.below 1)).docs).Flat _
    rw [OpTrees.node, Node.docs_cons, hd]
    refine ((name.flat _).append (((Doc.Flat.text "(").append
      (others.flat _ hfirst.concat)).append (.text ")"))).of_eq ?_
    simp [OpHead.grouped, OpHead.chars, OpTrees.grouped, OpTrees.chars]

/-- The documents of several expressions behind one more. -/
theorem OpTrees.flat :
    (ts : OpTrees) → (spans : Spans) → ∀ {d : Doc} {cs : List Char}, d.Flat cs →
      (Doc.sep ", " (d :: (ts.node spans).docs)).Flat (cs ++ ts.grouped.chars [',', ' '])
  | .nil, _, d, cs, h => h.of_eq (List.append_nil cs).symm
  | .cons first others, spans, d, cs, h => by
    obtain ⟨e, he, hfirst⟩ := first.flat _
    rw [OpTrees.node, Node.docs_cons, he]
    refine ((h.append (.text ", ")).append (others.flat _ hfirst.concat)).of_eq ?_
    simp [OpTrees.grouped, OpTrees.chars]

end

/-- **An expression is printed as the grouped tree is written, whatever the indent.** -/
theorem OpTree.print_node (t : OpTree) (spans : Spans) (indent : Nat) :
    (t.node spans).print indent = .ok (String.ofList t.grouped.chars) := by
  obtain ⟨d, hd, hflat⟩ := t.flat spans
  rw [Node.print, Node.doc, hd]
  · exact hflat.concat.render indent
  · exact nofun

end JavaSource
