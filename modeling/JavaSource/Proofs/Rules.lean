import JavaSource.Proofs.Rules.Expressions
import JavaSource.Source

/-!
# What is recognized

Every rule keeps its contract (`Rule.keeps`), so carrying out a rule adds its shape
(`Rule.run_adds`).  A source that is recognized is read up to its end.

* **`parseTree_regular`**: the tree of a source is regular, is of the kind that its mode says, and
  its tokens, joined shifts taken apart, are those of the source.
-/

namespace JavaSource

namespace Grammar

variable {scan : Scan} {limit : Nat}

theorem Rule.keeps : ∀ r : Rule, Keeps scan limit r
  | .compilationUnit              => compilationUnit_keeps
  | .declarationStart             => declarationStart_keeps
  | .statementStart               => statementStart_keeps
  | .expressionStart              => expressionStart_keeps
  | .qualifiedName                => qualifiedName_keeps
  | .qualifiedNames               => qualifiedNames_keeps
  | .modifiers                    => modifiers_keeps
  | .annotations                  => annotations_keeps
  | .annotationUse                => annotationUse_keeps
  | .elementValuePair             => elementValuePair_keeps
  | .elementValue                 => elementValue_keeps
  | .type                         => type_keeps
  | .bareType                     => bareType_keeps
  | .resultType                   => resultType_keeps
  | .classType                    => classType_keeps
  | .coit                         => coit_keeps
  | .typeArguments                => typeArguments_keeps
  | .typeArgument                 => typeArgument_keeps
  | .dim                          => dim_keeps
  | .typeList                     => typeList_keeps
  | .typeParameters               => typeParameters_keeps
  | .typeParameter                => typeParameter_keeps
  | .typeBound                    => typeBound_keeps
  | .modifiedType                 => modifiedType_keeps
  | .packageDeclaration           => packageDeclaration_keeps
  | .importDeclaration            => importDeclaration_keeps
  | .moduleDeclaration            => moduleDeclaration_keeps
  | .moduleDirective              => moduleDirective_keeps
  | .classBodyDeclaration setting => classBodyDeclaration_keeps setting
  | .memberDeclaration setting    => memberDeclaration_keeps setting
  | .memberBody setting           => memberBody_keeps setting
  | .classBody setting            => classBody_keeps setting
  | .enumBody                     => enumBody_keeps
  | .enumConstant                 => enumConstant_keeps
  | .recordHeader                 => recordHeader_keeps
  | .recordComponent              => recordComponent_keeps
  | .formalParameters ofLambda    => formalParameters_keeps ofLambda
  | .formalParameter              => formalParameter_keeps
  | .variableDeclarators          => variableDeclarators_keeps
  | .variableDeclarator           => variableDeclarator_keeps
  | .variableDeclaratorId         => variableDeclaratorId_keeps
  | .variableInitializer          => variableInitializer_keeps
  | .arrayInitializer             => arrayInitializer_keeps
  | .block                        => block_keeps
  | .blockStatement               => blockStatement_keeps
  | .localVariableDeclaration     => localVariableDeclaration_keeps
  | .statement                    => statement_keeps
  | .expressionStatement          => expressionStatement_keeps
  | .forInit                      => forInit_keeps
  | .forUpdate                    => forUpdate_keeps
  | .finallyClause                => finallyClause_keeps
  | .resourceSpecification        => resourceSpecification_keeps
  | .resource                     => resource_keeps
  | .resourceVariable             => resourceVariable_keeps
  | .catchClause                  => catchClause_keeps
  | .catchType                    => catchType_keeps
  | .switchBlock                  => switchBlock_keeps
  | .switchEntry                  => switchEntry_keeps
  | .switchLabel                  => switchLabel_keeps
  | .caseItem                     => caseItem_keeps
  | .pattern                      => pattern_keeps
  | .expression                   => expression_keeps
  | .lambda                       => lambda_keeps
  | .lambdaParameters             => lambdaParameters_keeps
  | .ternary                      => ternary_keeps
  | .binary loosest               => binary_keeps loosest
  | .unary                        => unary_keeps
  | .castHead                     => castHead_keeps
  | .postfixed                    => postfixed_keeps
  | .primary                      => primary_keeps
  | .selected                     => selected_keeps
  | .methodCall                   => methodCall_keeps
  | .arguments                    => arguments_keeps
  | .superAccess                  => superAccess_keeps
  | .genericInvocation            => genericInvocation_keeps
  | .dimExpr                      => dimExpr_keeps

/-- Carrying out a rule adds its shape. -/
theorem Rule.run_adds {r : Rule} {s s' : State} (hs : s.read < scan.tokens.length)
    (hparts : s.parts = []) (hneeds : r.Needs scan s)
    (hrun : r.run scan.source limit s = .done () s') :
    Adds scan s r.shape s' ∧ r.Gives scan s s' ∧ s'.read < scan.tokens.length := by
  rw [← scan.size_tokens] at hs ⊢
  have hkept : (contract scan).after r s s' ∧ scan.source.Forward s s' :=
    Rule.keeps_contract Scan.source_ended (fun r s hparts hneeds => r.keeps s hparts hneeds) r hs
      hparts hneeds hrun
  obtain ⟨⟨hadds, hgives⟩, -, hread⟩ := hkept
  exact ⟨hadds, hgives, hread⟩

end Grammar

open Grammar

/-- What is read up to the end of a source is all of it. -/
theorem Scan.take_of_eof {scan : Scan} {s : State} (hs : s.read < scan.tokens.length)
    (hkind : (scan.source.ahead s).kind = .eof) :
    scan.tokens.take s.read = scan.tokens.dropLast := by
  obtain ⟨init, last, heq, -, hinit⟩ := scan.ended
  obtain ⟨t, ht⟩ : ∃ t, scan.tokens[s.read]? = some t := ⟨_, List.getElem?_eq_getElem hs⟩
  have heof : t.kind = .eof := (kindAt_eq (n := 0) ht).symm.trans hkind
  have hlen := congrArg List.length heq
  rw [List.length_append, List.length_singleton] at hlen
  have hread : s.read = init.length := by
    rcases Nat.lt_or_ge s.read init.length with hlt | hge
    · rw [heq, List.getElem?_append_left hlt] at ht
      exact absurd heof (hinit _ (List.mem_of_getElem? ht))
    · omega
  rw [hread, heq, List.take_left', List.dropLast_concat]
  rfl

/-- The phrase that a source is. -/
def Mode.phrase : Mode → Phrase
  | unit => .compilationUnit
  | decl => .declarationStart
  | stmt => .statementStart
  | expr => .expressionStart

theorem Mode.start_shape (mode : Mode) : mode.start.shape = Shape.phr mode.phrase := by
  cases mode <;> rfl

theorem Mode.start_needs (mode : Mode) (scan : Scan) (s : State) :
    mode.start.Needs scan s := by
  cases mode <;> trivial

theorem Mode.eof_of_gives {mode : Mode} {scan : Scan} {s s' : State}
    (h : mode.start.Gives scan s s') : (scan.source.ahead s').kind = .eof := by
  cases mode <;> exact h

/-- The tree that a mode's rule gives over a scan. -/
theorem Scan.recognize_regular (scan : Scan) {mode : Mode} {limit : Nat} {tree : Tree}
    (h : recognize limit mode.start scan.tokens = .ok tree) :
    tree.Regular ∧ tree.phrase? = some mode.phrase ∧
      tree.leaves.flatMap Token.split = scan.tokens.dropLast := by
  simp only [recognize] at h
  cases hrun : mode.start.run (.ofTokens scan.tokens) limit ⟨0, 0, [], []⟩ with
  | refused place why memo => simp only [hrun, reduceCtorEq] at h
  | done value s =>
    simp only [hrun, Except.ok.injEq] at h
    have hpos : 0 < scan.tokens.length := by
      obtain ⟨init, last, heq, -⟩ := scan.ended
      rw [heq, List.length_append]
      exact Nat.lt_add_left _ Nat.one_pos
    obtain ⟨hadds, hgives, hread⟩ := Rule.run_adds hpos rfl (mode.start_needs scan _) hrun
    rw [mode.start_shape] at hadds
    obtain ⟨_, hparts, ⟨t, rfl, ht⟩, hregular, hleaves⟩ := hadds
    rw [hparts] at h
    obtain rfl : t = tree := h
    refine ⟨hregular t (List.mem_singleton_self t), ?_, ?_⟩
    · cases t with
      | leaf t => cases ht
      | node kind ps a b =>
        exact congrArg some (List.mem_singleton.mp (List.contains_iff_mem.mp ht))
    · rw [Scan.take_of_eof hread (mode.eof_of_gives hgives), Tree.leavesAll, Tree.leavesAll,
        List.append_nil] at hleaves
      exact hleaves.symm

/-- **The tree of a source is regular, and its tokens are those of the source.** -/
theorem parseTree_regular {mode : Mode} {limit : Nat} {source : String} {tree : Tree}
    (h : parseTree mode limit source = .ok tree) :
    ∃ tokens, tokenize source = .ok tokens ∧ tree.Regular ∧ tree.phrase? = some mode.phrase ∧
      tree.leaves.flatMap Token.split = tokens.dropLast := by
  cases htokens : tokenize source with
  | error fault => simp [parseTree, htokens, bind, Except.bind] at h
  | ok tokens =>
    have h : recognize limit mode.start tokens = .ok tree := by
      simpa [parseTree, htokens, bind, Except.bind] using h
    let scan : Scan := .ofTokenize htokens
    exact ⟨tokens, rfl, scan.recognize_regular h⟩

end JavaSource
