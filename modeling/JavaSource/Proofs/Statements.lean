import JavaSource.Proofs.Operators.Parsed
import JavaSource.Proofs.Parsing
import JavaSource.Proofs.Statements.Matched
import JavaSource.Proofs.Statements.Meaning
import JavaSource.Proofs.Statements.Printed
import JavaSource.Proofs.Statements.Structured

/-!
# Statements

Structured statements are printed with braces around the branches that dangle, and what is printed
is parsed to just that (`Node.Structured.parse_print`).
-/

namespace JavaSource

open Grammar (Symbol)
open Node (Alike)

theorem LegalName.alike_typeNode (n : LegalName) (spans spans' : Spans) {ty : TypeNode}
    (h : ty.Alike (n.typeNode spans)) : ty.Alike (n.typeNode spans') := by
  cases h with
  | classType hannotations hcoits =>
    cases hcoits with
    | cons hfirst hothers =>
      cases hfirst with
      | coit hnone hid hargs =>
        exact .classType hannotations (.cons (.coit hnone (n.alike_identifier _ _ hid) hargs) hothers)

theorem LegalName.alike_label (label : Option LegalName) (spans spans' : Spans)
    {i : OptNode .identifier} (h : i.Alike (.ofOption (label.map (·.identifier spans)))) :
    i.Alike (.ofOption (label.map (·.identifier spans'))) := by
  cases label with
  | none => exact h
  | some n =>
    cases h with
    | present hid => exact .present (n.alike_identifier _ _ hid)

theorem StmtTree.endsOpen_node (s : StmtTree) (spans : Spans) :
    (s.node spans).EndsOpen ↔ s.isOpen = true := by
  rw [← Node.endsInOpenIf_iff, s.endsInOpenIf_node]

mutual

/-- What is alike the meaning of a braced tree is alike what the tree means, in braces. -/
theorem StmtTree.alike_braced (spans spans' : Spans) : (s : StmtTree) → {n : Stmt} →
    n.Alike (s.braced.node spans) → n.Alike (s.node spans').braced
  | .empty, _, h => by
    cases h
    exact .emptyStmt
  | .block body, _, h => by
    cases h with
    | blockStmt hblock =>
      cases hblock with
      | block hbody => exact .blockStmt (.block (body.alike_braced _ _ hbody))
  | .ifThen test body, _, h => by
    cases h with
    | ifStmt htest hbody hnone =>
      exact .ifStmt (test.alike_node _ _ htest) (body.alike_braced _ _ hbody) hnone
  | .ifElse test body orelse, _, h => by
    cases h with
    | ifStmt htest hbody hsome =>
      cases hsome with
      | present horelse =>
        refine .ifStmt (test.alike_node _ _ htest) ?_ (.present (orelse.alike_braced _ _ horelse))
        cases hopen : body.isOpen with
        | false =>
          have hclosed : ¬ (body.node (spans'.below 1)).EndsOpen := by
            rw [body.endsOpen_node, hopen]
            exact Bool.false_ne_true
          rw [hopen] at hbody
          rw [if_neg hclosed]
          exact body.alike_braced _ _ hbody
        | true =>
          rw [hopen] at hbody
          rw [if_pos ((body.endsOpen_node _).mpr hopen)]
          cases hbody with
          | blockStmt hblock =>
            cases hblock with
            | block hall =>
              cases hall with
              | cons hfirst hnone =>
                cases hnone
                exact .blockStmt (.block (.cons (body.alike_braced _ _ hfirst) .nil))
  | .whileLoop test body, _, h => by
    cases h with
    | whileStmt htest hbody =>
      exact .whileStmt (test.alike_node _ _ htest) (body.alike_braced _ _ hbody)
  | .doWhile body test, _, h => by
    cases h with
    | doWhileStmt hbody htest =>
      exact .doWhileStmt (body.alike_braced _ _ hbody) (test.alike_node _ _ htest)
  | .forLoop test update body, _, h => by
    cases h with
    | forStmt hinit htest hupdate hbody =>
      refine .forStmt hinit ?_ (update.alike_node _ _ hupdate) (body.alike_braced _ _ hbody)
      cases test with
      | none => exact htest
      | some test =>
        cases htest with
        | present htest => exact .present (test.alike_node _ _ htest)
  | .forEach ty id _ iter body, _, h => by
    cases h with
    | forEachStmt hmodifiers hty hid hiter hbody =>
      cases hid with
      | variableDeclaratorId hid hdims =>
        exact .forEachStmt hmodifiers (ty.alike_typeNode _ _ hty)
          (.variableDeclaratorId (id.alike_identifier _ _ hid) hdims) (iter.alike_node _ _ hiter)
          (body.alike_braced _ _ hbody)
  | .labeled label body, _, h => by
    cases h with
    | labeledStmt hlabel hbody =>
      exact .labeledStmt (label.alike_identifier _ _ hlabel) (body.alike_braced _ _ hbody)
  | .jump kind label, _, h => by
    cases kind with
    | «break» =>
      cases h with
      | breakStmt hlabel => exact .breakStmt (LegalName.alike_label label _ _ hlabel)
    | «continue» =>
      cases h with
      | continueStmt hlabel => exact .continueStmt (LegalName.alike_label label _ _ hlabel)
  | .call func _ args, _, h => by
    cases h with
    | exprStmt hcall => exact .exprStmt ((OpHead.call func args).alike_node _ _ hcall)

theorem StmtTrees.alike_braced (spans spans' : Spans) : (ss : StmtTrees) → {ns : Nodes .stmt} →
    ns.Alike (ss.braced.node spans) → ns.Alike (ss.node spans').braced
  | .nil, _, .nil => .nil
  | .cons first others, _, .cons hfirst hothers =>
    .cons (first.alike_braced _ _ hfirst) (others.alike_braced _ _ hothers)

end

/-- **A structured statement is printed with braces around the branches that dangle, and parsed to
just that, whatever the indent.**  So each `else` belongs to the same `if` as before; and where no
branch dangles, the statement is parsed to itself.  The limit is not met where it is large
(`isOk_parseTreeWithin`). -/
theorem Node.Structured.parse_print {s : Stmt} (h : s.Structured) (indent : Nat) :
    ∃ text, s.print indent = .ok text ∧
      (∀ limit, (parseTreeWithin .stmt limit text).isOk →
        ∃ n, parse .stmt limit text = .ok n ∧ n.Alike ⟨.stmt, s.braced⟩) ∧
      s.braced.branches = s.branches ∧ (s.Each (¬ ·.Dangles) → s.braced = s) := by
  obtain ⟨t, spans, rfl⟩ := h.exists_node
  obtain ⟨d, hd, hdoc⟩ := t.lexes spans
  obtain ⟨text, htext, hlexes⟩ := hdoc.concat.render trivial indent
  refine ⟨text, ?_, fun limit hlimit => ?_, h.branches_braced, h.braced_eq⟩
  · change (Doc.concat (t.node spans).docs).render indent = _
    rw [hd, htext]
  · have htakes : Mode.stmt.start.Takes _ 0 _ _ :=
      t.braced.matches_statementStart hlexes.scanned t.settled_braced 0 rfl
    rw [← t.braced.unplaced_over] at htakes
    obtain ⟨n, hparse, hn⟩ := parse_of_takes hlexes htakes t.braced.readWhole_over hlimit
    cases hn with
    | mk hn => exact ⟨_, hparse, .mk (t.alike_braced _ _ hn)⟩

/-- A branch that ends in a loop over an open `if`. -/
theorem Node.Structured.parse_print_loop : ∃ s : Stmt, s.Structured ∧ ¬ s.Each (¬ ·.Dangles) ∧
    s.print 0 = .ok "if (a) { while (b) if (c) f(); } else ;" ∧
    ∃ n, parse .stmt 30 "if (a) { while (b) if (c) f(); } else ;" = .ok n ∧
      n.Alike ⟨.stmt, s.braced⟩ := by
  let s : Stmt := .ifStmt none (.letter 'a')
    (.whileStmt none (.letter 'b') (.ifStmt none (.letter 'c')
      (.exprStmt none (.call none (.letter 'f') .nil)) .absent))
    (.present (.emptyStmt none))
  have hs : s.Structured :=
    .ifElse (.letter 'a' rfl (by decide)) (.whileLoop (.letter 'b' rfl (by decide))
      (.ifThen (.letter 'c' rfl (by decide))
        (.call (.letter 'f' rfl (by decide)) (by decide) .nil))) .empty
  have hprint : s.print 0 = .ok "if (a) { while (b) if (c) f(); } else ;" := by rfl
  obtain ⟨text, htext, hparse, -⟩ := hs.parse_print 0
  obtain rfl := Except.ok.inj (htext.symm.trans hprint)
  refine ⟨s, hs, fun h => ?_, hprint, hparse 30 (by decide +kernel)⟩
  exact (Each.parts h).1 (.mk (.whileLoop .ifThen))

end JavaSource
