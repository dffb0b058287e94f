import JavaSource.Printing.Printer

/-!
# Chains in print

Binary operations chain to the left as far as a source goes on, and so do calls, member accesses
and array accesses.  Such a chain can be printed by plain recursion, each link writing what is on
its left; and it can be printed in a loop that follows the chain down to where it starts, writes
that, and then goes back over the links and writes the rest of each.  The loops decide by
themselves where a chain starts: the one over operators where a left operand would need
parentheses, the one over selectors where a receiver is no selection itself.

Both are stated for any way to write expressions (`ExprWriter`), with which a link writes what is
not on the chain.  A writer is `Looped` if it writes every chain in a loop, and `Direct` if every
link writes what is on its left as it writes any expression.

* `operation_cons`, `selection_cons`: where a chain goes on, a loop writes what is on the left as a
  chain of its own and then what the outermost link writes behind it.
* `looped_iff_direct`: a writer is looped exactly if it is direct.
* `direct_printer`: the printer is direct.
* `eq_of_agreeElsewhere`: direct writers that agree on what is no chain write the same.
* **`chains_written_directly`**: the printer is looped and direct, and whatever writes chains in
  loops and agrees with the printer elsewhere writes every expression as the printer does.
-/

namespace JavaSource

/-- Writes at the end of what has been written. -/
abbrev Writing := String → Except PrintError String

/-- A way to write expressions where they stand. -/
abbrev ExprWriter := Expr → Context → Writing

/-- Where any expression may stand. -/
def Context.top : Context := ⟨.lambda, true⟩

theorem Context.needsParens_top (level : Level) : top.needsParens level = false := by
  cases level <;> rfl

/-- Something in parentheses if need be. -/
def Writing.enclosed (needed : Bool) (writing : Writing) : Writing := fun written =>
  if needed then do return (← writing (written ++ "(")) ++ ")" else writing written

namespace ExprWriter

variable (write : ExprWriter)

/-- Expressions with commas between them. -/
def list : List Expr → Writing
  | [],            written => .ok written
  | [e],           written => write e .top written
  | e :: e' :: es, written => do list (e' :: es) ((← write e .top written) ++ ", ")

/-! ### Operators -/

/-- An operator and its right operand. -/
structure Link where
  op : BinaryOp
  right : Expr

/-- What a link writes behind its left operand. -/
def linkRest (link : Link) : Writing := fun written =>
  write link.right ⟨link.op.level, false⟩ (written ++ " " ++ link.op.text ++ " ")

/-- Follows left operands down, from that of a link with the operator `op`, as long as they need no
parentheses.  Links that are found come before those so far; the result is the links from the
innermost one outwards, the operator of the innermost one and its left operand. -/
def spine (links : List Link) (op : BinaryOp) : Expr → List Link × BinaryOp × Expr
  | .binary span left (.binaryOperator op') right =>
    if op'.level.rank < op.level.rank then
      (links, op, .binary span left (.binaryOperator op') right)
    else spine (⟨op', right⟩ :: links) op' left
  | e => (links, op, e)

/-- A chain of operations in a loop: the left operand of the innermost link, and then what each
link writes behind its own. -/
def operation (left : Expr) (link : Link) : Writing := fun written => do
  let (links, op, start) := spine [link] link.op left
  links.foldlM (fun written link => linkRest write link written)
    (← write start ⟨op.level, true⟩ written)

/-! ### Selections -/

/-- What extends a receiver. -/
inductive Selector where
  | call (args : Nodes .expr)
  | member (mem : Expr)
  | index (idx : Expr)

/-- The expression of a receiver and what extends it. -/
def Selector.expr (span : Option Text.Span) (receiver : Expr) : Selector → Expr
  | call args  => .call span receiver args
  | member mem => .member span receiver mem
  | index idx  => .index span receiver idx

/-- What a selector writes behind its receiver. -/
def selectorRest : Selector → Writing
  | .call args,  written => do return (← list write args.toList (written ++ "(")) ++ ")"
  | .member mem, written => write mem .primary (written ++ ".")
  | .index idx,  written => do return (← write idx .top (written ++ "[")) ++ "]"

/-- Follows receivers down as long as they are selections.  Selectors that are found come before
those so far; the result is the selectors from the innermost one outwards, and its receiver. -/
def selectors (links : List Selector) : Expr → List Selector × Expr
  | .call _ receiver args   => selectors (.call args :: links) receiver
  | .member _ receiver mem  => selectors (.member mem :: links) receiver
  | .index _ receiver idx   => selectors (.index idx :: links) receiver
  | e                       => (links, e)

/-- A chain of selections in a loop: the innermost receiver, and then what each selector writes
behind its own. -/
def selection (receiver : Expr) (selector : Selector) : Writing := fun written => do
  let (links, start) := selectors [selector] receiver
  links.foldlM (fun written selector => selectorRest write selector written)
    (← write start .primary written)

/-! ### In loops and directly -/

/-- All chains are written in loops. -/
structure Looped : Prop where
  operation : ∀ span left op right context,
    write (.binary span left (.binaryOperator op) right) context =
      .enclosed (context.needsParens op.level) (operation write left ⟨op, right⟩)
  selection : ∀ span receiver selector context,
    write (Selector.expr span receiver selector) context =
      .enclosed (context.needsParens .primary) (selection write receiver selector)

/-- Every link of a chain writes what is on its left: a left operand where operands of the same
level need no parentheses, a right operand where they do, and a receiver where it has to hold
tightest. -/
structure Direct : Prop where
  operation : ∀ span left op right context,
    write (.binary span left (.binaryOperator op) right) context =
      .enclosed (context.needsParens op.level) fun written => do
        let written ← write left ⟨op.level, true⟩ written
        write right ⟨op.level, false⟩ (written ++ " " ++ op.text ++ " ")
  selection : ∀ span receiver selector context,
    write (Selector.expr span receiver selector) context =
      .enclosed (context.needsParens .primary) fun written => do
        selectorRest write selector (← write receiver .primary written)

variable {write : ExprWriter} {link : Link} {op : BinaryOp} {left right receiver e : Expr}
variable {selector : Selector} {span : Option Text.Span}

/-! ### One link more -/

/-- Links that are given stay behind those that are found. -/
theorem spine_append (front links : List Link) (op : BinaryOp) (left : Expr) :
    spine (front ++ links) op left =
      ((spine front op left).1 ++ links, (spine front op left).2) := by
  fun_induction spine front op left with
  | case1 front op span left op' right h => rw [spine, if_pos h]
  | case2 front op span left op' right h ih => rw [spine, if_neg h, ← List.cons_append, ih]
  | case3 front op e h =>
    rw [spine]
    assumption

/-- A chain goes on to the left, or it starts there. -/
theorem spine_cases (op : BinaryOp) (left : Expr) :
    (∃ span left' op' right, left = .binary span left' (.binaryOperator op') right ∧
      ¬ op'.level.rank < op.level.rank) ∨ ∀ links, spine links op left = (links, op, left) := by
  fun_cases spine [] op left with
  | case1 span left op' right h => exact .inr fun links => by rw [spine, if_pos h]
  | case2 span left op' right h => exact .inl ⟨span, left, op', right, rfl, h⟩
  | case3 h =>
    refine .inr fun links => ?_
    rw [spine]
    assumption

/-- Where a chain goes on, the loop writes what is on the left as a chain of its own. -/
theorem operation_cons (op' : BinaryOp) (right' : Expr)
    (h : ¬ op'.level.rank < link.op.level.rank) (written : String) :
    operation write (.binary span left (.binaryOperator op') right') link written = (do
      linkRest write link (← operation write left ⟨op', right'⟩ written)) := by
  have hspine : spine [link] link.op (.binary span left (.binaryOperator op') right') =
      ((spine [⟨op', right'⟩] op' left).1 ++ [link], (spine [⟨op', right'⟩] op' left).2) := by
    rw [spine, if_neg h, ← spine_append, List.singleton_append]
  unfold operation
  rw [hspine]
  simp only [List.foldlM_append, List.foldlM_cons, List.foldlM_nil, bind_assoc, bind_pure]

/-- Where a chain starts, the loop writes what is there. -/
theorem operation_start (h : ∀ links, spine links link.op left = (links, link.op, left))
    (written : String) : operation write left link written = (do
      linkRest write link (← write left ⟨link.op.level, true⟩ written)) := by
  unfold operation
  rw [h]
  simp only [List.foldlM_cons, List.foldlM_nil, bind_pure]

theorem selectors_append (front links : List Selector) (receiver : Expr) :
    selectors (front ++ links) receiver =
      ((selectors front receiver).1 ++ links, (selectors front receiver).2) := by
  fun_induction selectors front receiver with
  | case1 front _ receiver args ih => rw [selectors, ← List.cons_append, ih]
  | case2 front _ receiver mem ih => rw [selectors, ← List.cons_append, ih]
  | case3 front _ receiver idx ih => rw [selectors, ← List.cons_append, ih]
  | case4 front e hcall hmember hindex => rw [selectors] <;> assumption

theorem selectors_expr (links : List Selector) (span : Option Text.Span) (receiver : Expr)
    (selector : Selector) :
    selectors links (selector.expr span receiver) = selectors (selector :: links) receiver := by
  cases selector <;> rw [Selector.expr, selectors]

/-- A receiver is a part of what extends it. -/
theorem sizeOf_receiver_lt (span : Option Text.Span) (receiver : Expr) (selector : Selector) :
    sizeOf receiver < sizeOf (selector.expr span receiver) := by
  cases selector <;> simp [Selector.expr] <;> omega

/-- A receiver is a selection itself, or a chain starts there. -/
theorem selectors_cases (receiver : Expr) :
    (∃ span receiver' selector, receiver = Selector.expr span receiver' selector) ∨
      ∀ links, selectors links receiver = (links, receiver) := by
  fun_cases selectors [] receiver with
  | case1 span receiver args => exact .inl ⟨span, receiver, .call args, rfl⟩
  | case2 span receiver mem => exact .inl ⟨span, receiver, .member mem, rfl⟩
  | case3 span receiver idx => exact .inl ⟨span, receiver, .index idx, rfl⟩
  | case4 hcall hmember hindex => exact .inr fun links => by rw [selectors] <;> assumption

theorem selection_cons (selector' : Selector) (written : String) :
    selection write (selector'.expr span receiver) selector written = (do
      selectorRest write selector (← selection write receiver selector' written)) := by
  have hselectors : selectors [selector] (selector'.expr span receiver) =
      ((selectors [selector'] receiver).1 ++ [selector], (selectors [selector'] receiver).2) := by
    rw [selectors_expr, ← selectors_append, List.singleton_append]
  unfold selection
  rw [hselectors]
  simp only [List.foldlM_append, List.foldlM_cons, List.foldlM_nil, bind_assoc, bind_pure]

theorem selection_start (h : ∀ links, selectors links receiver = (links, receiver))
    (written : String) : selection write receiver selector written = (do
      selectorRest write selector (← write receiver .primary written)) := by
  unfold selection
  rw [h]
  simp only [List.foldlM_cons, List.foldlM_nil, bind_pure]

/-! ### The same text -/

/-- A left operand of the chain needs no parentheses. -/
theorem needsParens_of_not_lt {op' : BinaryOp} (h : ¬ op'.level.rank < op.level.rank) :
    Context.needsParens ⟨op.level, true⟩ op'.level = false := by
  rw [Context.needsParens, decide_eq_false h, Bool.not_true, Bool.and_false, Bool.or_false]

theorem Looped.direct (h : Looped write) : Direct write where
  operation span left op right context := by
    rw [h.operation]
    congr 1
    funext written
    rcases spine_cases op left with ⟨span, left, op', right', rfl, hlt⟩ | hstart
    · rw [operation_cons op' right' hlt, h.operation, needsParens_of_not_lt hlt]
      rfl
    · rw [operation_start hstart]
      rfl
  selection span receiver selector context := by
    rw [h.selection]
    congr 1
    funext written
    rcases selectors_cases receiver with ⟨span, receiver, selector', rfl⟩ | hstart
    · rw [selection_cons, h.selection]
      rfl
    · rw [selection_start hstart]

/-- What a direct writer writes for a chain, by induction on what is on the left of it. -/
theorem Direct.operation_eq (h : Direct write) (left : Expr) (link : Link) (written : String) :
    ExprWriter.operation write left link written = (do
      linkRest write link (← write left ⟨link.op.level, true⟩ written)) := by
  rcases spine_cases link.op left with ⟨span, left, op', right, rfl, hlt⟩ | hstart
  · rw [operation_cons op' right hlt, h.operation_eq left, h.operation, needsParens_of_not_lt hlt]
    rfl
  · exact operation_start hstart written

theorem Direct.selection_eq (h : Direct write) (receiver : Expr) (selector : Selector)
    (written : String) : ExprWriter.selection write receiver selector written = (do
      selectorRest write selector (← write receiver .primary written)) := by
  rcases selectors_cases receiver with ⟨span, inner, selector', rfl⟩ | hstart
  · have := sizeOf_receiver_lt span inner selector'
    rw [selection_cons, h.selection_eq inner, h.selection]
    rfl
  · exact selection_start hstart written
termination_by sizeOf receiver

theorem Direct.looped (h : Direct write) : Looped write where
  operation span left op right context := by
    rw [h.operation]
    congr 1
    exact (funext (h.operation_eq left ⟨op, right⟩)).symm
  selection span receiver selector context := by
    rw [h.selection]
    congr 1
    exact (funext (h.selection_eq receiver selector)).symm

theorem looped_iff_direct : Looped write ↔ Direct write := ⟨Looped.direct, Direct.looped⟩

/-! ### The printer -/

/-- The printer, writing at some depth. -/
def printer (indent depth : Nat) : ExprWriter := fun e context written =>
  (Doc.operand context e (.concat e.docs)).write indent depth written

variable (indent depth : Nat)

theorem printer_eq (e : Expr) (context : Context) :
    printer indent depth e context = .enclosed (context.needsParens e.level) fun written =>
      (Doc.concat e.docs).write indent depth written := by
  funext written
  unfold printer Writing.enclosed Doc.operand Doc.parens
  split <;> rfl

theorem print_eq (e : Expr) : e.print indent = printer indent 0 e .top "" := by
  rw [printer_eq, Context.needsParens_top]
  rfl

theorem write_append (a b : Doc) (written : String) :
    (a ++ b).write indent depth written = (do
      b.write indent depth (← a.write indent depth written)) := rfl

theorem write_text (text written : String) :
    (Doc.text text).write indent depth written = pure (written ++ text) := rfl

theorem write_concat_one (d : Doc) (written : String) :
    (Doc.concat [d]).write indent depth written = d.write indent depth written :=
  bind_pure (d.write indent depth written)

/-- The document of an operand, as the printer writes it. -/
theorem write_operand (context : Context) (e : Expr) (written : String) :
    (Doc.operand context e (.concat e.docs)).write indent depth written =
      printer indent depth e context written := rfl

theorem write_docs (e : Expr) (written : String) :
    (Doc.concat e.docs).write indent depth written = printer indent depth e .top written := by
  rw [printer_eq, Context.needsParens_top]
  rfl

theorem docs_eq_map : (es : Nodes .expr) → es.docs = es.toList.map fun e => .concat e.docs
  | .nil => rfl
  | .cons _ es => congrArg _ (docs_eq_map es)

/-- Documents of expressions with commas between them. -/
theorem write_sep_map : (es : List Expr) → (written : String) →
    (Doc.sep ", " (es.map fun e => .concat e.docs)).write indent depth written =
      list (printer indent depth) es written
  | [], _ => rfl
  | [e], written => write_docs indent depth e written
  | e :: e' :: es, written => by
    have hsep : Doc.sep ", " ((e :: e' :: es).map fun e => .concat e.docs) =
        Doc.concat e.docs ++ Doc.text ", " ++
          Doc.sep ", " ((e' :: es).map fun e => .concat e.docs) := rfl
    rw [hsep]
    simp only [write_append, write_text, write_docs, write_sep_map (e' :: es), bind_assoc,
      pure_bind]
    rfl

theorem direct_printer : Direct (printer indent depth) where
  operation span left op right context := by
    have hdocs : (Node.binary span left (.binaryOperator op) right).docs =
        [Doc.operand ⟨op.level, true⟩ left (.concat left.docs) ++ Doc.text " " ++
          Doc.text op.text ++ Doc.text " " ++
          Doc.operand ⟨op.level, false⟩ right (.concat right.docs)] := rfl
    rw [printer_eq, hdocs]
    congr 1
    funext written
    simp only [write_concat_one, write_append, write_text, write_operand, bind_assoc, pure_bind]
  selection span receiver selector context := by
    rw [printer_eq]
    cases selector with
    | call args =>
      have hdocs : (Node.call span receiver args).docs =
          [Doc.operand .primary receiver (.concat receiver.docs) ++
            (Doc.text "(" ++ Doc.sep ", " args.docs ++ Doc.text ")")] := rfl
      rw [Selector.expr, hdocs]
      congr 1
      funext written
      simp only [write_concat_one, write_append, write_text, write_operand, docs_eq_map,
        write_sep_map, selectorRest]
      rfl
    | member mem =>
      have hdocs : (Node.member span receiver mem).docs =
          [Doc.operand .primary receiver (.concat receiver.docs) ++ Doc.text "." ++
            Doc.operand .primary mem (.concat mem.docs)] := rfl
      rw [Selector.expr, hdocs]
      congr 1
      funext written
      simp only [write_concat_one, write_append, write_text, write_operand, bind_assoc,
        pure_bind, selectorRest]
    | index idx =>
      have hdocs : (Node.index span receiver idx).docs =
          [Doc.operand .primary receiver (.concat receiver.docs) ++ Doc.text "[" ++
            Doc.concat idx.docs ++ Doc.text "]"] := rfl
      rw [Selector.expr, hdocs]
      congr 1
      funext written
      simp only [write_concat_one, write_append, write_text, write_operand, write_docs,
        bind_assoc, pure_bind, selectorRest]

/-! ### What is not on a chain -/

/-- Whether an expression is a link of a chain. -/
def isLink : Expr → Bool
  | .binary .. | .call .. | .member .. | .index .. => true
  | _                                              => false

theorem isLink_cases (e : Expr) :
    (∃ span left op right, e = .binary span left (.binaryOperator op) right) ∨
      (∃ span receiver selector, e = Selector.expr span receiver selector) ∨ isLink e = false := by
  match e with
  | .binary span left (.binaryOperator op) right => exact .inl ⟨span, left, op, right, rfl⟩
  | .call span receiver args => exact .inr (.inl ⟨span, receiver, .call args, rfl⟩)
  | .member span receiver mem => exact .inr (.inl ⟨span, receiver, .member mem, rfl⟩)
  | .index span receiver idx => exact .inr (.inl ⟨span, receiver, .index idx, rfl⟩)
  | .name .. | .constant .. | .thisExpr .. | .superExpr .. | .classExpr .. | .lambda ..
  | .assignment .. | .conditional .. | .instanceOf .. | .unary .. | .post .. | .cast ..
  | .newObject .. | .newInner .. | .newArray .. | .switchExpr .. | .reference ..
  | .genericCall .. | .arrayInit .. => exact .inr (.inr rfl)

/-- At every depth, two writers agree on expressions that are no links, as far as they agree on
smaller ones. -/
def AgreeElsewhere (write other : Nat → ExprWriter) : Prop :=
  ∀ e, isLink e = false → (∀ e' depth, sizeOf e' < sizeOf e → write depth e' = other depth e') →
    ∀ depth, write depth e = other depth e

theorem sizeOf_lt_of_mem : {es : Nodes .expr} → e ∈ es.toList → sizeOf e < sizeOf es
  | .cons head tail, h => by
    have hsize : sizeOf (Node.cons head tail) = 2 + sizeOf head + sizeOf tail := by simp
    rcases List.mem_cons.mp h with rfl | h
    · omega
    · have := sizeOf_lt_of_mem h
      omega

variable {other : ExprWriter}

theorem list_congr : {es : List Expr} → (∀ e ∈ es, write e = other e) →
    list write es = list other es
  | [], _ => rfl
  | [e], h => by
    funext written
    rw [list, list, h e List.mem_cons_self]
  | e :: e' :: es, h => by
    funext written
    rw [list, list, h e List.mem_cons_self, list_congr fun e'' he => h e'' (.tail _ he)]

theorem selectorRest_congr
    (h : ∀ e, sizeOf e < sizeOf (selector.expr span receiver) → write e = other e) :
    selectorRest write selector = selectorRest other selector := by
  funext written
  cases selector with
  | call args =>
    rw [selectorRest, selectorRest, list_congr fun e he => h e ?_]
    have := sizeOf_lt_of_mem he
    simp only [Selector.expr, Node.call.sizeOf_spec]
    omega
  | member mem =>
    rw [selectorRest, selectorRest, h mem]
    simp only [Selector.expr, Node.member.sizeOf_spec]
    omega
  | index idx =>
    rw [selectorRest, selectorRest, h idx]
    simp only [Selector.expr, Node.index.sizeOf_spec]
    omega

/-- Direct writers that agree elsewhere write the same, by induction on the expression. -/
theorem eq_of_agreeElsewhere {write other : Nat → ExprWriter} (h : ∀ depth, Direct (write depth))
    (h' : ∀ depth, Direct (other depth)) (hagree : AgreeElsewhere write other) (e : Expr)
    (depth : Nat) : write depth e = other depth e := by
  induction hn : sizeOf e using Nat.strongRecOn generalizing e depth with
  | ind n ih =>
    subst hn
    replace ih := fun e' depth hlt => ih (sizeOf e') hlt e' depth rfl
    rcases isLink_cases e with ⟨span, left, op, right, rfl⟩ | ⟨span, receiver, selector, rfl⟩ |
      helse
    · funext context
      rw [(h depth).operation, (h' depth).operation, ih left, ih right] <;>
        simp only [Node.binary.sizeOf_spec] <;> omega
    · funext context
      rw [(h depth).selection, (h' depth).selection,
        ih receiver depth (sizeOf_receiver_lt span receiver selector),
        selectorRest_congr fun e => ih e depth]
    · exact hagree e helse ih depth

/-- **Loops write what recursion writes.**  A writer that writes every chain of operators and of
selectors in a loop is one whose links write what is on their left as any expression, and the
other way round.  The printer is such a writer at every depth; and what loops over chains and
agrees with the printer elsewhere writes every expression as the printer does. -/
theorem chains_written_directly (indent : Nat) :
    (∀ write, Looped write ↔ Direct write) ∧
      (∀ depth, Looped (printer indent depth) ∧ Direct (printer indent depth)) ∧
      (∀ write : Nat → ExprWriter, (∀ depth, Looped (write depth)) →
        AgreeElsewhere write (printer indent) → write = printer indent) ∧
      ∀ e : Expr, e.print indent = printer indent 0 e .top "" :=
  ⟨fun _ => looped_iff_direct,
    fun depth => ⟨(direct_printer indent depth).looped, direct_printer indent depth⟩,
    fun _ h hagree => funext fun depth => funext fun e =>
      eq_of_agreeElsewhere (fun depth => (h depth).direct) (direct_printer indent) hagree e depth,
    print_eq indent⟩

end ExprWriter

end JavaSource
