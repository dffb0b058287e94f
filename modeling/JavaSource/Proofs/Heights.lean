import JavaSource.Proofs.Heights.Rules
import JavaSource.Proofs.Heights.Towers
import JavaSource.Proofs.Rules
import Mathlib.Algebra.Ring.Nat

/-!
# How high parse trees are

No rule builds beyond its ceiling (`Rule.climbs`), so neither does one that is carried out
(`Rule.run_below`).

* **`parseTree_height_le`**: the height of a tree is bounded by the square of the limit and by the
  uncounted phrases one below the other in it.
* `heights_unbounded`: without these phrases nothing bounds it.
-/

namespace JavaSource

namespace Grammar

variable {scan : Scan} {limit : Nat}

theorem Rule.climbs : ∀ r : Rule, r.Climbs scan.source limit
  | .compilationUnit              => compilationUnit_climbs
  | .declarationStart             => declarationStart_climbs
  | .statementStart               => statementStart_climbs
  | .expressionStart              => expressionStart_climbs
  | .qualifiedName                => qualifiedName_climbs
  | .qualifiedNames               => qualifiedNames_climbs
  | .modifiers                    => modifiers_climbs
  | .annotations                  => annotations_climbs
  | .annotationUse                => annotationUse_climbs
  | .elementValuePair             => elementValuePair_climbs
  | .elementValue                 => elementValue_climbs
  | .type                         => type_climbs
  | .bareType                     => bareType_climbs
  | .resultType                   => resultType_climbs
  | .classType                    => classType_climbs
  | .coit                         => coit_climbs
  | .typeArguments                => typeArguments_climbs
  | .typeArgument                 => typeArgument_climbs
  | .dim                          => dim_climbs
  | .typeList                     => typeList_climbs
  | .typeParameters               => typeParameters_climbs
  | .typeParameter                => typeParameter_climbs
  | .typeBound                    => typeBound_climbs
  | .modifiedType                 => modifiedType_climbs
  | .packageDeclaration           => packageDeclaration_climbs
  | .importDeclaration            => importDeclaration_climbs
  | .moduleDeclaration            => moduleDeclaration_climbs
  | .moduleDirective              => moduleDirective_climbs
  | .classBodyDeclaration setting => classBodyDeclaration_climbs setting
  | .memberDeclaration setting    => memberDeclaration_climbs setting
  | .memberBody setting           => memberBody_climbs setting
  | .classBody setting            => classBody_climbs setting
  | .enumBody                     => enumBody_climbs
  | .enumConstant                 => enumConstant_climbs
  | .recordHeader                 => recordHeader_climbs
  | .recordComponent              => recordComponent_climbs
  | .formalParameters ofLambda    => formalParameters_climbs ofLambda
  | .formalParameter              => formalParameter_climbs
  | .variableDeclarators          => variableDeclarators_climbs
  | .variableDeclarator           => variableDeclarator_climbs
  | .variableDeclaratorId         => variableDeclaratorId_climbs
  | .variableInitializer          => variableInitializer_climbs
  | .arrayInitializer             => arrayInitializer_climbs
  | .block                        => block_climbs
  | .blockStatement               => blockStatement_climbs
  | .localVariableDeclaration     => localVariableDeclaration_climbs
  | .statement                    => statement_climbs
  | .expressionStatement          => expressionStatement_climbs
  | .forInit                      => forInit_climbs
  | .forUpdate                    => forUpdate_climbs
  | .finallyClause                => finallyClause_climbs
  | .resourceSpecification        => resourceSpecification_climbs
  | .resource                     => resource_climbs
  | .resourceVariable             => resourceVariable_climbs
  | .catchClause                  => catchClause_climbs
  | .catchType                    => catchType_climbs
  | .switchBlock                  => switchBlock_climbs
  | .switchEntry                  => switchEntry_climbs
  | .switchLabel                  => switchLabel_climbs
  | .caseItem                     => caseItem_climbs
  | .pattern                      => pattern_climbs
  | .expression                   => expression_climbs
  | .lambda                       => lambda_climbs
  | .lambdaParameters             => lambdaParameters_climbs
  | .ternary                      => ternary_climbs
  | .binary loosest               => binary_climbs loosest
  | .unary                        => unary_climbs
  | .castHead                     => castHead_climbs
  | .postfixed                    => postfixed_climbs
  | .primary                      => primary_climbs
  | .selected                     => selected_climbs
  | .methodCall                   => methodCall_climbs
  | .arguments                    => arguments_climbs
  | .superAccess                  => superAccess_climbs
  | .genericInvocation            => genericInvocation_climbs
  | .dimExpr                      => dimExpr_climbs

/-- Carrying out a rule makes nothing that is higher than the rule builds. -/
theorem Rule.run_below {r : Rule} {s s' : State} (hs : s.read < scan.source.tokens.size)
    (hparts : s.parts = []) (hdepth : s.depth ≤ limit)
    (hrun : r.run scan.source limit s = .done () s') :
    ∀ t ∈ s'.parts, t.Below (r.ceiling limit s.depth) :=
  have hkept := @Rule.keeps_contract scan.source limit (heights limit) Scan.source_ended
    (fun r s hparts hbefore => r.climbs s hparts hbefore) r s s' hs hparts hdepth hrun
  hkept.1

/-- With all levels to be had, no rule builds beyond the square of the limit. -/
theorem Rule.ceiling_start (r : Rule) (limit : Nat) :
    r.ceiling limit 0 ≤ 36 * (limit + 1) ^ 2 := by
  have hceiling := r.ceiling_le limit 0
  have hlevels : (limit + 1) * (2 * limit + 20) ≤ (limit + 1) * (20 * (limit + 1)) :=
    Nat.mul_le_mul_left _ (by omega)
  have hrest : 1 * (limit + 1) ≤ (limit + 1) * (limit + 1) :=
    Nat.mul_le_mul_right _ (Nat.succ_pos limit)
  rw [room, Nat.sub_zero] at hceiling
  rw [pow_two]
  have hsquare : (limit + 1) * (20 * (limit + 1)) = 20 * ((limit + 1) * (limit + 1)) :=
    Nat.mul_left_comm ..
  omega

end Grammar

open Grammar

/-- **The height of a tree is bounded by the square of the limit and by the uncounted phrases one
below the other in it.** -/
theorem parseTree_height_le {mode : Mode} {limit : Nat} {source : String} {tree : Tree}
    (h : parseTree mode limit source = .ok tree) :
    tree.height ≤ 36 * ((limit + 1) ^ 2 + tree.uncounted) := by
  cases htokens : tokenize source with
  | error fault => simp [parseTree, htokens, bind, Except.bind] at h
  | ok tokens =>
    let scan : Scan := .ofTokenize htokens
    rw [parseTree_of_tokenize htokens] at h
    cases hrun : mode.start.run (.ofTokens tokens) limit ⟨0, 0, [], []⟩ with
    | refused place why memo =>
      rw [hrun] at h
      cases h
    | done value s =>
      rw [hrun, Outcome.verdict] at h
      have hpos : 0 < scan.source.tokens.size := by
        obtain ⟨init, last, heq, -⟩ := scan.ended
        rw [scan.size_tokens, heq, List.length_append]
        exact Nat.lt_add_left _ Nat.one_pos
      have hbelow : ∀ t ∈ s.parts, t.Below (mode.start.ceiling limit 0) :=
        @Rule.run_below scan limit mode.start _ s hpos rfl (Nat.zero_le limit) hrun
      have hceiling := mode.start.ceiling_start limit
      cases hparts : s.parts with
      | nil =>
        rw [hparts] at h
        obtain rfl : Tree.ofParts .compilationUnit [] default = tree := Except.ok.inj h
        have hsquare : 1 ≤ (limit + 1) ^ 2 := Nat.one_le_pow _ _ (Nat.succ_pos limit)
        change 1 ≤ _
        omega
      | cons t ts =>
        rw [hparts] at h
        obtain rfl : t = tree := Except.ok.inj h
        have ht : t.height ≤ mode.start.ceiling limit 0 + 20 * t.uncounted :=
          hbelow t (hparts ▸ List.mem_cons_self)
        omega

/-- Annotations and braces in an annotation need no level. -/
theorem parseTree_height_le_braces : ∃ tree,
    parseTree .decl 0 "@A(\x7b@B, @C(\x7b\x7d)\x7d) package p;" = .ok tree ∧ tree.uncounted = 3 ∧
      tree.height = 9 ∧ tree.height ≤ 36 * ((0 + 1) ^ 2 + tree.uncounted) := by
  have heval : (match parseTree .decl 0 "@A(\x7b@B, @C(\x7b\x7d)\x7d) package p;" with
    | .ok tree => tree.uncounted == 3 && tree.height == 9
    | .error _ => false) = true := by decide +kernel
  split at heval
  · rename_i tree h
    obtain ⟨huncounted, hheight⟩ := (Bool.and_eq_true ..).mp heval
    exact ⟨tree, h, beq_iff_eq.mp huncounted, beq_iff_eq.mp hheight, parseTree_height_le h⟩
  · cases heval

/-- **No multiple of the limit bounds the height of all trees.** -/
theorem heights_unbounded : ¬ ∃ C, ∀ mode limit source tree,
    parseTree mode limit source = .ok tree → tree.height ≤ C * (limit + 1) := by
  rintro ⟨C, hbound⟩
  obtain ⟨source, tree, hparse, hheight⟩ := exists_higher 0 C
  have hle := hbound .decl 0 source tree hparse
  omega

end JavaSource
