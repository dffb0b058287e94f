import JavaSource.Proofs.Windows.Expressions

/-!
# What rules take in a window

* `Window.agrees`: what a rule takes in a window of one source it takes in the same window of
  another source, if it leaves some symbols of it (`Window.margin`).
-/

namespace JavaSource.Grammar.Window

variable {W : Window} {e : Entry} {i : Nat} {r : Rule}

/-- The moves of every rule lead to the same in both sources. -/
theorem production_carries (r : Rule) (hroom : i + r.least ≤ W.size)
    (hmargin : i + r.least + W.margin i r ≤ W.size) :
    W.Carries e (W.margin i r) i r.production r.production := by
  cases r with
  | compilationUnit => exact compilationUnit_carries
  | declarationStart => exact declarationStart_carries
  | statementStart => exact statementStart_carries
  | expressionStart => exact expressionStart_carries
  | qualifiedName => exact qualifiedName_carries
  | qualifiedNames => exact qualifiedNames_carries
  | modifiers => exact modifiers_carries
  | annotations => exact annotations_carries
  | annotationUse => exact annotationUse_carries
  | elementValuePair => exact elementValuePair_carries
  | elementValue => exact elementValue_carries
  | type => exact type_carries
  | bareType => exact bareType_carries
  | resultType => exact resultType_carries
  | classType => exact classType_carries
  | coit => exact coit_carries
  | typeArguments => exact typeArguments_carries
  | typeArgument => exact typeArgument_carries
  | dim => exact dim_carries
  | typeList => exact typeList_carries
  | typeParameters => exact typeParameters_carries
  | typeParameter => exact typeParameter_carries
  | typeBound => exact typeBound_carries
  | modifiedType => exact modifiedType_carries
  | packageDeclaration => exact packageDeclaration_carries
  | importDeclaration => exact importDeclaration_carries
  | moduleDeclaration => exact moduleDeclaration_carries
  | moduleDirective => exact moduleDirective_carries
  | classBodyDeclaration _ => exact classBodyDeclaration_carries
  | memberDeclaration _ => exact memberDeclaration_carries
  | memberBody _ => exact memberBody_carries
  | classBody _ => exact classBody_carries
  | enumBody => exact enumBody_carries
  | enumConstant => exact enumConstant_carries
  | recordHeader => exact recordHeader_carries
  | recordComponent => exact recordComponent_carries
  | formalParameters _ => exact formalParameters_carries
  | formalParameter => exact formalParameter_carries
  | variableDeclarators => exact variableDeclarators_carries
  | variableDeclarator => exact variableDeclarator_carries
  | variableDeclaratorId => exact variableDeclaratorId_carries
  | variableInitializer => exact variableInitializer_carries
  | arrayInitializer => exact arrayInitializer_carries
  | block => exact block_carries
  | blockStatement => exact blockStatement_carries hmargin
  | localVariableDeclaration => exact localVariableDeclaration_carries
  | statement => exact statement_carries hmargin
  | expressionStatement => exact expressionStatement_carries
  | forInit => exact forInit_carries
  | forUpdate => exact forUpdate_carries
  | finallyClause => exact finallyClause_carries
  | resourceSpecification => exact resourceSpecification_carries
  | resource => exact resource_carries
  | resourceVariable => exact resourceVariable_carries
  | catchClause => exact catchClause_carries
  | catchType => exact catchType_carries
  | switchBlock => exact switchBlock_carries
  | switchEntry => exact switchEntry_carries
  | switchLabel => exact switchLabel_carries (Nat.le_refl _)
  | caseItem => exact caseItem_carries (Nat.le_refl _)
  | pattern => exact pattern_carries
  | expression => exact expression_carries (Nat.le_refl _)
  | lambda => exact lambda_carries (Nat.le_refl _)
  | lambdaParameters => exact lambdaParameters_carries
  | ternary => exact ternary_carries (Nat.le_refl _)
  | binary _ => exact binary_carries (Nat.le_refl _)
  | unary => exact unary_carries (Nat.le_refl _) hroom
  | castHead => exact castHead_carries
  | postfixed => exact postfixed_carries
  | primary => exact primary_carries hroom
  | selected => exact selected_carries hroom
  | methodCall => exact methodCall_carries
  | arguments => exact arguments_carries
  | superAccess => exact superAccess_carries hroom
  | genericInvocation => exact genericInvocation_carries
  | dimExpr => exact dimExpr_carries

/-- A rule agrees if all that it may have read or tried do. -/
theorem agrees_of_below (hW : W.Proper) (hB : W.Below (r, i)) (hi : i ≤ W.size) :
    W.Agrees r i := by
  intro parts j hj htakes
  have hclear := clear hW hi
  have hleast : i + r.least ≤ j := by
    rcases Nat.lt_or_ge 0 r.least with hpos | hzero
    · have hone : r.least = 1 := by cases r <;> first | rfl | cases hpos
      have hlt := htakes.lt (whole hW) hclear hone
      omega
    · have hle := htakes.le
      omega
  have hleads := (Rule.takes_iff (whole hW) hclear).mp htakes
  exact (Rule.takes_iff (W.swap.whole hW.swap) (W.swap.clear hW.swap hi)).mpr
    (production_carries r (by omega) (by omega) hW hB [] () j parts hj hleads)

/-- **What a rule takes in a window of one source it takes in that of the other one**, if it leaves
some symbols of the window. -/
theorem agrees (hW : W.Proper) (r : Rule) (i : Nat) (hi : i ≤ W.size) :
    W.Agrees r i ∧ W.swap.Agrees r i := by
  -- Either less of the window is left, or the rank is lower.
  induction hwork : (W.size - i) * Rule.ranks + r.rank using Nat.strongRecOn generalizing r i with
  | ind work ih =>
    subst hwork
    have hB : W.Below (r, i) := fun r' i' hallows hi' => by
      refine ih _ ?_ r' i' hi' rfl
      have hrank := r'.rank_lt_ranks
      rcases hallows with hlt | ⟨heq, hlt⟩
      · have hlt : i < i' := hlt
        obtain ⟨d, hd⟩ := Nat.exists_eq_add_of_le (show W.size - i' + 1 ≤ W.size - i by omega)
        rw [hd, Nat.add_mul, Nat.add_mul]
        omega
      · have heq : i = i' := heq
        have hlt : r'.rank < r.rank := hlt
        subst heq
        omega
    exact ⟨agrees_of_below hW hB hi,
      agrees_of_below hW.swap (fun r' i' hallows hi' => (hB r' i' hallows hi').symm) hi⟩

/-- What a rule takes to the end of a window holds its parentheses in pairs. -/
theorem nested_of_takes (hscan : Scanned W.symbols) (hbehind : W.behind ≠ []) (hfree : r.isFree)
    {parts : List Tree} (h : r.Takes W.source W.start parts (W.start + W.size)) :
    parensBehind false 0 (W.inside.map Symbol.kind) = some 0 := by
  have hclear : W.source.Clear W.start :=
    Scanned.clear hscan (List.append_ne_nil_of_right_ne_nil _ hbehind)
  have hnested := hscan.nested h hfree hclear
  have hkinds := kindsBetween_symbols (W := W) (i := 0) (Nat.le_of_eq (Nat.zero_add _))
  rw [Nat.zero_add, Nat.add_zero, List.drop_zero, size, List.take_length] at hkinds
  exact hkinds ▸ hnested

variable (hscan : Scanned W.symbols) (hscan' : Scanned W.swap.symbols)
  (hstops : W.behind.head?.any (·.kind.isStopper) = true)
  (hstops' : W.behind'.head?.any (·.kind.isStopper) = true) (hfree : r.isFree)
  (hmargin : W.margin 0 r = 0)

include hscan hscan' hstops hstops' hfree hmargin

theorem takes_swap {parts : List Tree} (h : r.Takes W.source W.start parts (W.start + W.size)) :
    r.Takes W.swap.source W.swap.start parts (W.swap.start + W.size) := by
  have hbehind : W.behind ≠ [] := fun hnil => by
    rw [hnil] at hstops
    cases hstops
  have hW : W.Proper :=
    ⟨hscan, hscan', hstops, hstops', nested_of_takes hscan hbehind hfree h⟩
  exact (agrees hW r 0 (Nat.zero_le _)).1 parts W.size (by rw [hmargin]; exact Nat.le_refl _) h

/-- **What a rule takes to the end of a window it takes in both sources**, if it need not leave any
of it. -/
theorem takes_iff {parts : List Tree} :
    r.Takes W.source W.start parts (W.start + W.size) ↔
      r.Takes W.swap.source W.swap.start parts (W.swap.start + W.size) :=
  ⟨takes_swap hscan hscan' hstops hstops' hfree hmargin,
    takes_swap (W := W.swap) hscan' hscan hstops' hstops hfree ((W.margin_swap 0 r).trans hmargin)⟩

end JavaSource.Grammar.Window
