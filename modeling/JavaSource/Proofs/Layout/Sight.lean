import JavaSource.Grammar.Production

/-!
# What the grammar sees of the layout

The grammar sees symbols, and of the layout only whether a symbol touches the next one.  It asks
that of `>` before `>` alone.  `Ahead.settled` is a view in which nothing else touches.

Every question that the rules ask of a view has the same answer for the settled view (the lemmas
`…_settled`).  `Move.IgnoresLayout` says so of moves: wherever they go on by what they see, they
go on in the same way by the settled view.  The rules below it combine such moves.
-/

namespace JavaSource.Grammar

/-- A symbol that touches the next one only if some condition holds too. -/
def Symbol.touchingIf (s : Symbol) (condition : Bool) : Symbol :=
  { s with touches := s.touches && condition }

/-- The symbols, of which only `>` touch, and only `>`. -/
def settle : List Symbol → List Symbol
  | []           => []
  | [s]          => [s.touchingIf false]
  | s :: t :: ss => s.touchingIf (s.kind == .gt && t.kind == .gt) :: settle (t :: ss)

theorem map_kind_settle (ss : List Symbol) :
    (settle ss).map Symbol.kind = ss.map Symbol.kind := by
  fun_induction settle ss with
  | case1 => rfl
  | case2 s => rfl
  | case3 s t ss ih => rw [List.map_cons, ih]; rfl

theorem getElem?_settle (ss : List Symbol) (i : Nat) :
    (settle ss)[i]? = ss[i]?.map fun s =>
      s.touchingIf (s.kind == .gt && ss[i + 1]?.any fun t => t.kind == .gt) := by
  fun_induction settle ss generalizing i with
  | case1 => rfl
  | case2 s =>
    cases i with
    | zero => simp
    | succ i => rfl
  | case3 s t ss ih =>
    cases i with
    | zero => rfl
    | succ i => exact ih i

/-- The parenthesis that closes is found by the kinds of the symbols. -/
theorem closing_congr {ss ts : List Symbol} (h : ss.map Symbol.kind = ts.map Symbol.kind)
    (opened : Nat) : Ahead.closing opened ss = Ahead.closing opened ts := by
  induction ss generalizing ts opened with
  | nil =>
    cases ts with
    | nil => rfl
    | cons t ts => cases h
  | cons s ss ih =>
    cases ts with
    | nil => cases h
    | cons t ts =>
      obtain ⟨hkind, hrest⟩ := List.cons.inj h
      simp only [Ahead.closing, hkind, ih hrest]

theorem dimsWidth_congr {ss ts : List Symbol} (h : ss.map Symbol.kind = ts.map Symbol.kind) :
    Ahead.dimsWidth ss = Ahead.dimsWidth ts := by
  fun_induction Ahead.dimsWidth ss generalizing ts with
  | case1 text touches text' touches' ss ih =>
    obtain ⟨t, us, rfl, ht, hus⟩ := List.map_eq_cons_iff.mp h.symm
    obtain ⟨u, vs, rfl, hu, hvs⟩ := List.map_eq_cons_iff.mp hus
    obtain ⟨kind, text, touches⟩ := t
    obtain ⟨kind', text', touches'⟩ := u
    cases ht
    cases hu
    rw [Ahead.dimsWidth, ih hvs.symm]
  | case2 ss hss =>
    unfold Ahead.dimsWidth
    split
    · -- Symbols of these kinds would have been of the first form.
      obtain ⟨s, us, rfl, hs, hus⟩ := List.map_eq_cons_iff.mp h
      obtain ⟨t, vs, rfl, ht, hvs⟩ := List.map_eq_cons_iff.mp hus
      obtain ⟨kind, text, touches⟩ := s
      obtain ⟨kind', text', touches'⟩ := t
      cases hs
      cases ht
      exact (hss _ _ _ _ _ rfl).elim
    · rfl

namespace Ahead

variable (a : Ahead) (n : Nat)

/-- The view in which nothing touches but `>` and `>`. -/
def settled : Ahead := { a with symbols := (settle a.symbols.toList).toArray }

@[simp] theorem read_settled : a.settled.read = a.read := rfl

@[simp] theorem last_settled : a.settled.last = a.last := rfl

theorem at_settled : a.settled.at_ n =
    (a.at_ n).touchingIf ((a.at_ n).kind == .gt && (a.at_ (n + 1)).kind == .gt) := by
  simp only [at_, settled, List.getElem?_toArray, getElem?_settle, Array.getElem?_toList]
  cases hs : a.symbols[a.read + n]? with
  | none => rfl
  | some s =>
    rw [← Nat.add_assoc]
    cases a.symbols[a.read + n + 1]? with
    | none => rfl
    | some t => rfl

@[simp] theorem kind_at_settled : (a.settled.at_ n).kind = (a.at_ n).kind := by
  rw [at_settled, Symbol.touchingIf]

@[simp] theorem text_at_settled : (a.settled.at_ n).text = (a.at_ n).text := by
  rw [at_settled, Symbol.touchingIf]

@[simp] theorem isWord_at_settled (word : String) :
    (a.settled.at_ n).isWord word = (a.at_ n).isWord word := by
  rw [at_settled, Symbol.touchingIf]
  rfl

@[simp] theorem kindAt_settled : a.settled.kindAt n = a.kindAt n := by
  rw [kindAt, kind_at_settled, kindAt]

@[simp] theorem kind_settled : a.settled.kind = a.kind := by
  rw [kind, kindAt_settled, kind]

@[simp] theorem isAt_settled (kind : TokenKind) : a.settled.isAt kind = a.isAt kind := by
  rw [isAt, kind_settled, isAt]

@[simp] theorem isAtWord_settled (word : String) : a.settled.isAtWord word = a.isAtWord word := by
  rw [isAtWord, isWord_at_settled, isAtWord]

@[simp] theorem skip_settled : a.settled.skip n = (a.skip n).settled := rfl

@[simp] theorem behind_settled : a.settled.behind = a.behind := by
  simp only [behind, settled, List.getElem?_toArray, getElem?_settle,
    Array.getElem?_toList, Option.map_map]
  rfl

/-- The kinds of the symbols ahead. -/
theorem map_kind_settled : (a.settled.symbols.toList.drop a.read).map Symbol.kind =
    (a.symbols.toList.drop a.read).map Symbol.kind := by
  rw [settled, List.map_drop, List.map_drop, map_kind_settle]

@[simp] theorem closingParen_settled : a.settled.closingParen = a.closingParen :=
  closing_congr a.map_kind_settled 0

@[simp] theorem skipDims_settled : a.settled.skipDims = a.skipDims.settled := by
  simp only [skipDims, read_settled, dimsWidth_congr a.map_kind_settled, skip_settled]

@[simp] theorem startsLambda_settled : a.settled.startsLambda = a.startsLambda := by
  simp only [startsLambda, kind_settled, kindAt_settled, closingParen_settled]

@[simp] theorem startsAnnotation_settled : a.settled.startsAnnotation = a.startsAnnotation := by
  simp only [ startsAnnotation, isAt_settled, kindAt_settled]

@[simp] theorem isAtModifierWord_settled : a.settled.isAtModifierWord = a.isAtModifierWord := by
  simp only [isAtModifierWord, isSealed, kind_settled, isAtWord_settled, kindAt_settled,
    isWord_at_settled]

@[simp] theorem startsModifier_settled : a.settled.startsModifier = a.startsModifier := by
  simp only [startsModifier, isAtModifierWord_settled, startsAnnotation_settled]

@[simp] theorem startsRecord_settled : a.settled.startsRecord = a.startsRecord := by
  simp only [startsRecord, isAtWord_settled, kindAt_settled]

@[simp] theorem startsTypeDeclaration_settled :
    a.settled.startsTypeDeclaration = a.startsTypeDeclaration := by
  simp only [startsTypeDeclaration, kind_settled, kindAt_settled, startsRecord_settled]

@[simp] theorem startsYield_settled : a.settled.startsYield = a.startsYield := by
  simp only [startsYield, isAtWord_settled, kindAt_settled]

@[simp] theorem mayStartType_settled : a.settled.mayStartType = a.mayStartType := by
  simp only [mayStartType, kind_settled]

@[simp] theorem startsDim_settled : a.settled.startsDim = a.startsDim := by
  simp only [startsDim, isAt_settled, kindAt_settled]

@[simp] theorem isPlainName_settled : a.settled.isPlainName n = a.isPlainName n := by
  simp only [isPlainName, kindAt_settled]

/-- An operator is told by the `>` that touch. -/
@[simp] theorem operator_settled : a.settled.operator = a.operator := by
  have htouches (n : Nat) (hn : (a.at_ n).kind = .gt) :
      ((a.settled.at_ n).touches && a.settled.kindAt (n + 1) == .gt) =
        ((a.at_ n).touches && a.kindAt (n + 1) == .gt) := by
    rw [at_settled, Symbol.touchingIf, hn, kindAt_settled, kindAt]
    cases (a.at_ n).touches <;> cases (a.at_ (n + 1)).kind <;> rfl
  unfold operator
  rw [kind_settled]
  split
  · rfl
  · rename_i hkind
    have hfirst : (a.at_ 0).kind = .gt := by
      rwa [Bool.not_eq_true, bne_eq_false_iff_eq] at hkind
    rw [htouches 0 hfirst]
    split
    · rfl
    · rename_i hnext
      have hsecond : (a.at_ 1).kind = .gt := by
        simp only [Bool.not_eq_true, Bool.not_eq_false', Bool.and_eq_true, beq_iff_eq] at hnext
        exact hnext.2
      rw [htouches 1 hsecond]

end Ahead

/-! ### Moves -/

/-- Wherever moves go on by what they see, they see no layout but the `>` that touch. -/
def Move.IgnoresLayout {α : Type} : Move α → Prop
  | .done _            => True
  | .look next         => ∀ a, next a.settled = next a ∧ (next a).IgnoresLayout
  | .shift next        => next.IgnoresLayout
  | .join _ _ next     => next.IgnoresLayout
  | .call _ next       => next.IgnoresLayout
  | .probe _ next      => ∀ width, (next width).IgnoresLayout
  | .wrap _ next       => next.IgnoresLayout
  | .deepen next       => next.IgnoresLayout
  | .iterate body next => body.IgnoresLayout ∧ next.IgnoresLayout
  | .refuse _ _        => True

namespace Move.IgnoresLayout

variable {α β : Type}

theorem bind {m : Move α} {f : α → Move β} (h : m.IgnoresLayout)
    (hf : ∀ a, (f a).IgnoresLayout) : (m >>= f).IgnoresLayout := by
  induction m with
  | done value => exact hf value
  | look next ih => exact fun a => ⟨congrArg (·.bind f) (h a).1, ih a (h a).2 hf⟩
  | shift next ih => exact ih h hf
  | join kind width next ih => exact ih h hf
  | call rule next ih => exact ih h hf
  | probe what next ih => exact fun width => ih width (h width) hf
  | wrap kind next ih => exact ih h hf
  | deepen next ih => exact ih h hf
  | iterate body next _ ih => exact ⟨h.1, ih h.2 hf⟩
  | refuse place why => trivial

/-- Going on by what lies ahead. -/
theorem ahead {f : Ahead → Move α} (h : ∀ a : Ahead, f a.settled = f a)
    (hf : ∀ a, (f a).IgnoresLayout) : (Move.ahead >>= f).IgnoresLayout :=
  fun a => ⟨h a, hf a⟩

theorem pure (a : α) : (Pure.pure a : Move α).IgnoresLayout := trivial

theorem ite {c : Prop} [Decidable c] {m n : Move α} (hm : m.IgnoresLayout)
    (hn : n.IgnoresLayout) : (if c then m else n).IgnoresLayout := by
  split
  · exact hm
  · exact hn

theorem take : Move.take.IgnoresLayout := trivial

theorem takeTwo : Move.takeTwo.IgnoresLayout := trivial

theorem joined (kind : TokenKind) (width : Nat) : (Move.joined kind width).IgnoresLayout := trivial

theorem read (rule : Rule) : (Move.read rule).IgnoresLayout := trivial

theorem attempt (what : Probe) : (Move.attempt what).IgnoresLayout := fun _ => trivial

theorem close (kind : Phrase) : (Move.close kind).IgnoresLayout := trivial

theorem nest : Move.nest.IgnoresLayout := trivial

theorem loop {body : Move Bool} (h : body.IgnoresLayout) : (Move.loop body).IgnoresLayout :=
  ⟨h, trivial⟩

theorem fail (why : Refusal) : (Move.fail why : Move α).IgnoresLayout := fun _ => ⟨rfl, trivial⟩

theorem mismatch (expecting : String) : (Move.mismatch expecting : Move α).IgnoresLayout := .fail _

theorem isAt (kind : TokenKind) : (Move.isAt kind).IgnoresLayout :=
  .ahead (fun a => by rw [Ahead.isAt_settled]) fun _ => .pure _

theorem expect (kind : TokenKind) : (Move.expect kind).IgnoresLayout :=
  .bind (.isAt kind) fun _ => .ite .take (.mismatch _)

theorem expectWord (word : String) : (Move.expectWord word).IgnoresLayout :=
  .ahead (fun a => by rw [Ahead.isAtWord_settled]) fun _ => .ite .take (.mismatch _)

theorem provided {allows : Ahead → Bool} {moves : Move Unit}
    (h : ∀ a : Ahead, allows a.settled = allows a) (hm : moves.IgnoresLayout) :
    (Move.provided allows moves).IgnoresLayout :=
  .ahead (fun a => by rw [h]) fun _ => .ite hm (.pure _)

theorem eat (kind : TokenKind) : (Move.eat kind).IgnoresLayout :=
  .bind (.isAt kind) fun _ => .ite (.bind .take fun _ => .pure _) (.pure _)

theorem readAt (kind : TokenKind) (rule : Rule) : (Move.readAt kind rule).IgnoresLayout :=
  .bind (.isAt kind) fun _ => .ite (.read rule) (.pure _)

theorem readAfter (kind : TokenKind) (rule : Rule) : (Move.readAfter kind rule).IgnoresLayout :=
  .bind (.eat kind) fun _ => .ite (.read rule) (.pure _)

theorem separated (separator : TokenKind) (rule : Rule) :
    (Move.separated separator rule).IgnoresLayout :=
  .bind (.read rule) fun _ => .loop <| .bind (.eat separator) fun _ =>
    .ite (.bind (.read rule) fun _ => .pure _) (.pure _)

theorem readWhile {more : Ahead → Bool} {rule : Rule}
    (h : ∀ a : Ahead, more a.settled = more a) : (Move.readWhile more rule).IgnoresLayout :=
  .loop <| .ahead (fun a => by rw [h]) fun _ =>
    .ite (.bind (.read rule) fun _ => .pure _) (.pure _)

theorem commasUpTo {closer : Ahead → Bool} {rule : Rule}
    (h : ∀ a : Ahead, closer a.settled = closer a) :
    (Move.commasUpTo closer rule).IgnoresLayout :=
  .loop <| .ahead (fun a => by rw [h]) fun _ =>
    .ite (.pure _) (.bind (.read rule) fun _ => .eat _)

end Move.IgnoresLayout

end JavaSource.Grammar
