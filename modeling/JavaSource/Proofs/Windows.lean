import JavaSource.Proofs.Balance

/-!
# A piece of two sources

A `Window` is a row of symbols that stands in two sources, with a stopper behind it in both.  What
a rule sees from within does not go beyond the stopper, but for the arrow of a lambda: every
question that the rules ask has the same answer in both sources.

* `Window.isAt_eq`, `Window.startsModifier_eq` and so on: one lemma for each question.
-/

namespace JavaSource.Grammar

/-- Two kinds are the same, or both are stoppers. -/
def SameKind (k k' : TokenKind) : Prop := k = k' ∨ k.isStopper = true ∧ k'.isStopper = true

theorem isStopper_of_isInner (kind : TokenKind) [h : Settled kind.isInner] :
    kind.isStopper = false := by
  cases kind <;> first | rfl | cases h.eq

/-- The kinds of stoppers. -/
def stoppers : List TokenKind := [.eof, .semi, .colon, .arrow, .rparen, .rbrace]

theorem mem_stoppers {kind : TokenKind} (h : kind.isStopper = true) : kind ∈ stoppers := by
  cases kind <;> first | decide | cases h

/-- A test that no stopper passes does not tell such kinds apart. -/
theorem SameKind.test {k k' : TokenKind} (h : SameKind k k') (test : TokenKind → Bool)
    (htest : stoppers.any test = false) : test k = test k' := by
  rcases h with rfl | ⟨h, h'⟩
  · rfl
  · rw [List.any_eq_false] at htest
    rw [Bool.eq_false_iff.mpr (htest k (mem_stoppers h)),
      Bool.eq_false_iff.mpr (htest k' (mem_stoppers h'))]

theorem ne_of_isStopper {k kind : TokenKind} [Settled kind.isInner] (h : k.isStopper = true) :
    k ≠ kind := fun heq => by
  rw [heq, isStopper_of_isInner] at h
  cases h

theorem and_eq_and {p p' q q' : Bool} (hp : p = p') (hq : p = true → q = q') :
    (p && q) = (p' && q') := by
  subst hp
  cases p with
  | false => rfl
  | true => exact hq rfl

/-- Whether symbols may stand in front of the arrow of a lambda: a lone name, or what one pair of
parentheses holds. -/
def isHead : List Symbol → Bool
  | []      => false
  | x :: xs =>
    match x.kind with
    | .identifier => xs.isEmpty
    | .lparen     => Ahead.closing 0 (x :: xs) == some xs.length
    | _           => false

/-- The symbols in front of the last part of a conditional, a lambda, a cast or an assignment. -/
def leadsLast : TokenKind → Bool
  | .colon | .arrow | .rparen => true
  | kind => kind.isAssignment

/-- Whether symbols end in the last part of a conditional, a lambda, a cast or an assignment, and
this part may stand in front of an arrow. -/
def endsInHead : List Symbol → Bool
  | []      => false
  | x :: xs => (leadsLast x.kind && isHead xs) || endsInHead xs

theorem isHead_eq_false {xs ys : List Symbol} {x : Symbol} (h : endsInHead (xs ++ x :: ys) = false)
    (hx : leadsLast x.kind = true) : isHead ys = false := by
  induction xs with
  | nil =>
    rw [List.nil_append, endsInHead, hx, Bool.true_and, Bool.or_eq_false_iff] at h
    exact h.1
  | cons y xs ih =>
    rw [List.cons_append, endsInHead, Bool.or_eq_false_iff] at h
    exact ih h.2

/-- Some symbols, and what stands around them in two sources. -/
structure Window where
  inside : List Symbol
  before : List Symbol
  behind : List Symbol
  before' : List Symbol
  behind' : List Symbol

namespace Window

variable (W : Window)

/-- The window of the two sources in the other order. -/
def swap : Window := ⟨W.inside, W.before', W.behind', W.before, W.behind⟩

/-- The symbols of the first source. -/
def symbols : List Symbol := W.before ++ (W.inside ++ W.behind)

/-- The first source. -/
def source : Source := .ofSymbols W.symbols

/-- Where the window starts in the first source. -/
def start : Nat := W.before.length

/-- How many symbols stand in the window. -/
def size : Nat := W.inside.length

/-- What is seen in the first source from a place in the window, or right behind it. -/
def view (i : Nat) (p : Option Phrase) : Ahead := ⟨W.symbols.toArray, W.start + i, p⟩

/-- Whether an arrow stands right behind the window in either source. -/
def hasArrow : Bool :=
  W.behind.head?.any (·.kind == .arrow) || W.behind'.head?.any (·.kind == .arrow)

@[simp] theorem hasArrow_swap : W.swap.hasArrow = W.hasArrow := Bool.or_comm ..

/-- Both sources were scanned, a stopper stands behind the window in both, and in the window
parentheses come in pairs. -/
structure Proper : Prop where
  scanned : Scanned W.symbols
  scanned' : Scanned W.swap.symbols
  stops : W.behind.head?.any (·.kind.isStopper) = true
  stops' : W.behind'.head?.any (·.kind.isStopper) = true
  nested : parensBehind false 0 (W.inside.map Symbol.kind) = some 0

variable {W}

theorem Proper.swap (h : W.Proper) : W.swap.Proper :=
  ⟨h.scanned', h.scanned, h.stops', h.stops, h.nested⟩

/-- Something stands behind the window. -/
theorem Proper.exists_behind (hW : W.Proper) :
    ∃ x behind, W.behind = x :: behind ∧ x.kind.isStopper = true := by
  have hstops := hW.stops
  cases hbehind : W.behind with
  | nil =>
    rw [hbehind] at hstops
    cases hstops
  | cons x behind =>
    rw [hbehind] at hstops
    exact ⟨x, behind, rfl, hstops⟩

variable {i n w : Nat} {p q : Option Phrase} {kind : TokenKind}

/-! ### Symbols ahead -/

theorem at_view (i n : Nat) (p : Option Phrase) :
    (W.view i p).at_ n = ((W.inside ++ W.behind)[i + n]?).getD .final := by
  rw [Ahead.at_, view, List.getElem?_toArray, symbols, start, Nat.add_assoc,
    List.getElem?_append_right (Nat.le_add_right ..), Nat.add_sub_cancel_left]

/-- Within the window, the same symbols are seen in both sources. -/
theorem at_eq (h : i + n < W.size) : (W.view i p).at_ n = (W.swap.view i q).at_ n := by
  rw [at_view, at_view, List.getElem?_append_left h]
  exact congrArg (·.getD .final) (List.getElem?_append_left h).symm

theorem kindAt_eq (h : i + n < W.size) :
    (W.view i p).kindAt n = (W.swap.view i q).kindAt n :=
  congrArg Symbol.kind (at_eq h)

/-- Right behind the window stands a stopper. -/
theorem isStopper_kindAt (hW : W.Proper) (h : i + n = W.size) :
    ((W.view i p).kindAt n).isStopper = true := by
  rw [Ahead.kindAt, at_view, h, size, List.getElem?_append_right (Nat.le_refl _), Nat.sub_self,
    ← List.head?_eq_getElem?]
  obtain ⟨x, behind, hbehind, hstopper⟩ := hW.exists_behind
  rw [hbehind]
  exact hstopper

theorem kindAt_same (hW : W.Proper) (h : i + n ≤ W.size) :
    SameKind ((W.view i p).kindAt n) ((W.swap.view i q).kindAt n) := by
  rcases Nat.lt_or_eq_of_le h with h | h
  · exact .inl (kindAt_eq h)
  · exact .inr ⟨isStopper_kindAt hW h, isStopper_kindAt hW.swap h⟩

/-- What is no stopper stands in the window. -/
theorem lt_of_kindAt (hW : W.Proper) (h : i + n ≤ W.size)
    (hkind : ((W.view i p).kindAt n).isStopper = false) : i + n < W.size := by
  rcases Nat.lt_or_eq_of_le h with h | h
  · exact h
  · rw [isStopper_kindAt hW h] at hkind
    cases hkind

theorem lt_of_eq [Settled kind.isInner] (hW : W.Proper) (h : i + n ≤ W.size)
    (hkind : (W.view i p).kindAt n = kind) : i + n < W.size :=
  lt_of_kindAt hW h (hkind.symm ▸ isStopper_of_isInner kind)

theorem lt_of_beq [Settled kind.isInner] (hW : W.Proper) (h : i + n ≤ W.size)
    (hkind : ((W.view i p).kindAt n == kind) = true) : i + n < W.size :=
  lt_of_eq hW h (beq_iff_eq.mp hkind)

/-! ### Questions of one symbol -/

theorem beq_eq [Settled kind.isInner] (hW : W.Proper) (h : i + n ≤ W.size) :
    ((W.view i p).kindAt n == kind) = ((W.swap.view i q).kindAt n == kind) := by
  rcases kindAt_same hW h (p := p) (q := q) with heq | ⟨hstop, hstop'⟩
  · rw [heq]
  · rw [beq_eq_false_iff_ne.mpr (ne_of_isStopper hstop),
      beq_eq_false_iff_ne.mpr (ne_of_isStopper hstop')]

theorem isAt_eq [Settled kind.isInner] (hW : W.Proper) (h : i ≤ W.size) :
    (W.view i p).isAt kind = (W.swap.view i q).isAt kind := beq_eq hW h

theorem isAt_inside (h : i < W.size) :
    (W.view i p).isAt kind = (W.swap.view i q).isAt kind :=
  congrArg (· == kind) (kindAt_eq h)

theorem isWord_eq (hW : W.Proper) (h : i + n ≤ W.size) (word : String) :
    ((W.view i p).at_ n).isWord word = ((W.swap.view i q).at_ n).isWord word := by
  rcases Nat.lt_or_eq_of_le h with h | h
  · rw [at_eq h]
  · have hno {V : Window} (hV : V.Proper) (h : i + n = V.size) (p : Option Phrase) :
        ((V.view i p).at_ n).isWord word = false := by
      have hstop := isStopper_kindAt hV h (p := p)
      rw [Symbol.isWord, beq_eq_false_iff_ne.mpr, Bool.false_and]
      intro heq
      rw [Ahead.kindAt, heq] at hstop
      cases hstop
    rw [hno hW h, hno hW.swap h]

theorem isAtWord_eq (hW : W.Proper) (h : i ≤ W.size) (word : String) :
    (W.view i p).isAtWord word = (W.swap.view i q).isAtWord word := isWord_eq hW h word

theorem lt_of_isAtWord (hW : W.Proper) (h : i ≤ W.size) {word : String}
    (hword : (W.view i p).isAtWord word = true) : i < W.size :=
  lt_of_beq (n := 0) hW h ((Bool.and_eq_true ..).mp hword).1

/-! ### Questions of several symbols -/

theorem isSealed_eq (hW : W.Proper) (h : i ≤ W.size) :
    (W.view i p).isSealed = (W.swap.view i q).isSealed := by
  refine and_eq_and (isAtWord_eq hW h _) fun hword => ?_
  have hnext : i + 1 ≤ W.size := lt_of_isAtWord hW h hword
  rw [(kindAt_same hW hnext).test Ahead.isModifierWord rfl, beq_eq hW hnext (q := q),
    beq_eq hW hnext (q := q), beq_eq hW hnext (q := q),
    beq_eq hW hnext (q := q), isWord_eq hW hnext, isWord_eq hW hnext]

theorem isAtModifierWord_eq (hW : W.Proper) (h : i ≤ W.size) :
    (W.view i p).isAtModifierWord = (W.swap.view i q).isAtModifierWord := by
  rw [Ahead.isAtModifierWord, isSealed_eq hW h (q := q)]
  exact congrArg (· || _) ((kindAt_same (n := 0) hW h).test Ahead.isModifierWord rfl)

theorem startsAnnotation_eq (hW : W.Proper) (h : i ≤ W.size) :
    Ahead.startsAnnotation (W.view i p) = Ahead.startsAnnotation (W.swap.view i q) :=
  and_eq_and (isAt_eq hW h) fun hat =>
    congrArg (!·) (beq_eq hW (lt_of_beq (n := 0) hW h hat))

theorem startsModifier_eq (hW : W.Proper) (h : i ≤ W.size) :
    (W.view i p).startsModifier = (W.swap.view i q).startsModifier := by
  rw [Ahead.startsModifier, isAtModifierWord_eq hW h (q := q),
    startsAnnotation_eq hW h (q := q)]
  rfl

theorem startsRecord_eq (hW : W.Proper) (h : i ≤ W.size) :
    (W.view i p).startsRecord = (W.swap.view i q).startsRecord := by
  refine and_eq_and (and_eq_and (isAtWord_eq hW h _) fun hword => ?_) fun hboth => ?_
  · exact beq_eq hW (lt_of_isAtWord hW h hword)
  · obtain ⟨hword, hname⟩ := (Bool.and_eq_true ..).mp hboth
    have hnext : i + 1 < W.size := lt_of_beq hW (lt_of_isAtWord hW h hword) hname
    rw [beq_eq hW hnext (q := q), beq_eq hW hnext (q := q)]

theorem startsDim_eq (hW : W.Proper) (h : i ≤ W.size) :
    (W.view i p).startsDim = (W.swap.view i q).startsDim :=
  and_eq_and (isAt_eq hW h) fun hat => beq_eq hW (lt_of_beq (n := 0) hW h hat)

theorem startsTypeDeclaration_eq (hW : W.Proper) (h : i ≤ W.size) :
    (W.view i p).startsTypeDeclaration = (W.swap.view i q).startsTypeDeclaration := by
  rcases Nat.lt_or_eq_of_le h with hlt | heq
  · have hkind : (W.view i p).kind = (W.swap.view i q).kind := kindAt_eq (n := 0) hlt
    unfold Ahead.startsTypeDeclaration
    rw [hkind, startsRecord_eq hW h (q := q), beq_eq hW hlt (q := q)]
  · have hno {V : Window} (hV : V.Proper) (h : i = V.size) (p : Option Phrase) :
        (V.view i p).startsTypeDeclaration = false := by
      have hstop := isStopper_kindAt (n := 0) hV h (p := p)
      unfold Ahead.startsTypeDeclaration Ahead.kind
      generalize (V.view i p).kindAt 0 = kind at hstop
      cases kind <;> first | rfl | cases hstop
    rw [hno hW heq, hno hW.swap heq]

theorem mayStartType_eq (hW : W.Proper) (h : i ≤ W.size) :
    (W.view i p).mayStartType = (W.swap.view i q).mayStartType := by
  rcases kindAt_same (n := 0) (p := p) (q := q) hW h with heq | ⟨hstop, hstop'⟩
  · unfold Ahead.mayStartType Ahead.kind
    rw [heq]
  · have hno {a : Ahead} (ha : a.kind.isStopper = true) : a.mayStartType = false := by
      unfold Ahead.mayStartType
      generalize a.kind = kind at ha
      cases kind <;> first | rfl | cases ha
    rw [hno hstop, hno hstop']

theorem isPlainName_eq (h : i + w ≤ W.size) :
    (W.view i p).isPlainName w = (W.swap.view i q).isPlainName w := by
  unfold Ahead.isPlainName
  rw [Bool.eq_iff_iff, List.all_eq_true, List.all_eq_true]
  refine forall₂_congr fun n hn => ?_
  have hlt : i + n < W.size := Nat.lt_of_lt_of_le (Nat.add_lt_add_left (List.mem_range.mp hn) i) h
  rw [kindAt_eq hlt]

/-- Up to three `>` that touch make one operator. -/
theorem operator_eq (hW : W.Proper) (h : i < W.size) :
    (W.view i p).operator = (W.swap.view i q).operator := by
  have hkind : (W.view i p).kind = (W.swap.view i q).kind := kindAt_eq (n := 0) h
  have hfirst : (W.view i p).at_ 0 = (W.swap.view i q).at_ 0 := at_eq h
  have hsecond : ((W.view i p).kindAt 1 == .gt) = ((W.swap.view i q).kindAt 1 == .gt) :=
    beq_eq hW h
  unfold Ahead.operator
  rw [hkind, hfirst, hsecond]
  by_cases hgt : (W.swap.view i q).kindAt 1 == .gt
  · have hlt : i + 1 < W.size := lt_of_beq hW h (hsecond.trans hgt)
    have hnext : (W.view i p).at_ 1 = (W.swap.view i q).at_ 1 := at_eq hlt
    rw [hnext, beq_eq hW hlt (q := q)]
  · rw [Bool.not_eq_true] at hgt
    simp only [hgt, Bool.and_false, Bool.not_false, if_true]

/-- A stopper is no operator. -/
theorem ofOperator_stop (hW : W.Proper) (h : i = W.size) :
    Layer.ofOperator (W.view i p).operator.1 = none := by
  have hstop := isStopper_kindAt (n := 0) hW h (p := p)
  have hgt : ((W.view i p).kind != .gt) = true := bne_iff_ne.mpr fun heq => by
    rw [show (W.view i p).kindAt 0 = _ from heq] at hstop
    cases hstop
  unfold Ahead.operator
  rw [if_pos hgt]
  unfold Ahead.kind
  generalize (W.view i p).kindAt 0 = kind at hstop
  cases kind <;> first | rfl | cases hstop

theorem skip_view (i w : Nat) (p : Option Phrase) :
    (W.view i p).skip w = W.view (i + w) p := by
  rw [Ahead.skip, view, view, Nat.add_assoc]

/-- What was just read is the same if it stands in the window. -/
theorem behind_eq (hpos : 0 < i) (h : i ≤ W.size) :
    (W.view i p).behind = (W.swap.view i q).behind := by
  have hbehind (V : Window) (p : Option Phrase) (hV : i ≤ V.size) :
      (V.view i p).behind = (V.inside[i - 1]?).map (·.kind) := by
    have hlt : i - 1 < V.inside.length := Nat.lt_of_lt_of_le (Nat.sub_one_lt_of_lt hpos) hV
    have hread : V.start + i - 1 = V.start + (i - 1) := Nat.add_sub_assoc hpos _
    change (if V.start + i = 0 then none else
      (V.symbols.toArray[V.start + i - 1]?).map (·.kind)) = _
    rw [if_neg (Nat.ne_of_gt (Nat.add_pos_right _ hpos)), hread, List.getElem?_toArray, symbols,
      start, List.getElem?_append_right (Nat.le_add_right ..), Nat.add_sub_cancel_left,
      List.getElem?_append_left hlt]
  rw [hbehind W p h, hbehind W.swap q h]
  rfl

/-! ### Dimensions -/

theorem drop_view (h : i ≤ W.size) : (W.view i p).symbols.toList.drop (W.view i p).read =
    W.inside.drop i ++ W.behind := by
  change W.symbols.drop (W.start + i) = _
  rw [symbols, start, ← List.drop_drop, List.drop_left, List.drop_append_of_le_length h]

theorem dimsWidth_append {xs ys : List Symbol} (hys : ys.head?.any (·.kind.isStopper) = true) :
    Ahead.dimsWidth (xs ++ ys) = Ahead.dimsWidth xs := by
  have hhead : ∀ y ∈ ys.head?, y.kind.isStopper = true := fun y hy => by
    rw [Option.mem_def.mp hy] at hys
    exact hys
  fun_induction Ahead.dimsWidth xs with
  | case1 _ _ _ _ ss ih => exact congrArg (· + 2) ih
  | case2 xs hxs =>
    unfold Ahead.dimsWidth
    split
    · rename_i text touches text' touches' ss heq
      match xs with
      | [] => cases hhead ⟨.lbrack, text, touches⟩ (by rw [show ys = _ from heq]; rfl)
      | [x] =>
        obtain ⟨rfl, hys⟩ := List.cons.inj heq
        cases hhead ⟨.rbrack, text', touches'⟩ (by rw [show ys = _ from hys]; rfl)
      | x :: y :: xs =>
        obtain ⟨rfl, hrest⟩ := List.cons.inj heq
        obtain ⟨rfl, hrest⟩ := List.cons.inj hrest
        exact absurd rfl (hxs _ _ _ _ _)
    · rfl

/-- How many symbols the dimensions take that stand at a place in the window. -/
def dimsAt (W : Window) (i : Nat) : Nat := Ahead.dimsWidth (W.inside.drop i)

theorem skipDims_view (hW : W.Proper) (h : i ≤ W.size) :
    (W.view i p).skipDims = W.view (i + W.dimsAt i) p := by
  rw [Ahead.skipDims, drop_view h, dimsWidth_append hW.stops, skip_view]
  rfl

/-! ### Parentheses -/

theorem closing_append {opened n : Nat} {xs ys : List Symbol}
    (h : Ahead.closing opened xs = some n) :
    Ahead.closing opened (xs ++ ys) = some n ∧ n < xs.length := by
  induction xs generalizing opened n with
  | nil => cases h
  | cons x xs ih =>
    have hmap {opened' : Nat} (h : (Ahead.closing opened' xs).map (· + 1) = some n) :
        (Ahead.closing opened' (xs ++ ys)).map (· + 1) = some n ∧ n < xs.length + 1 := by
      obtain ⟨m, hm, rfl⟩ := Option.map_eq_some_iff.mp h
      obtain ⟨heq, hlt⟩ := ih hm
      rw [heq]
      exact ⟨rfl, Nat.succ_lt_succ hlt⟩
    simp only [Ahead.closing, List.cons_append, List.length_cons] at h ⊢
    split at h
    · cases h
    · exact hmap h
    · split at h
      · cases h
        rw [if_pos ‹_›]
        exact ⟨rfl, Nat.zero_lt_succ _⟩
      · rw [if_neg ‹_›]
        exact hmap h
    · exact hmap h

/-- Parentheses that are open at first and not in the end are closed. -/
theorem exists_closing {opened less final : Nat} {xs : List Symbol} (hopened : 0 < opened)
    (hclear : ∀ x ∈ xs, x.kind ≠ .eof) (hfinal : final ≤ less)
    (h : parensBehind false (less + opened) (xs.map Symbol.kind) = some final) :
    ∃ n, Ahead.closing opened xs = some n := by
  induction xs generalizing opened with
  | nil =>
    cases h
    omega
  | cons x xs ih =>
    obtain ⟨hx, hxs⟩ := List.forall_mem_cons.mp hclear
    obtain ⟨next, hnext, hrest⟩ := Option.bind_eq_some_iff.mp h
    have hgo {opened' : Nat} (hpos : 0 < opened') (heq : next = less + opened') :
        ∃ n, (Ahead.closing opened' xs).map (· + 1) = some n := by
      obtain ⟨n, hn⟩ := ih hpos hxs (heq ▸ hrest)
      exact ⟨n + 1, by rw [hn]; rfl⟩
    simp only [Ahead.closing]
    split
    · exact absurd ‹_› hx
    · rename_i hkind
      rw [hkind] at hnext
      cases hnext
      exact hgo (Nat.succ_pos _) rfl
    · rename_i hkind
      rw [hkind] at hnext
      simp only [TokenKind.parens] at hnext
      rw [if_neg (by omega)] at hnext
      cases hnext
      split
      · exact ⟨0, rfl⟩
      · exact hgo (by omega) (by omega)
    · rename_i hlparen hrparen
      refine hgo hopened ?_
      unfold TokenKind.parens at hnext
      split at hnext
      · exact absurd ‹_› hlparen
      · exact absurd ‹_› hrparen
      · simpa using hnext.symm

/-- Where a symbol stands in the window, and what stands behind it there. -/
theorem drop_inside (h : i < W.size) (p : Option Phrase) :
    W.inside.drop i = (W.view i p).at_ 0 :: W.inside.drop (i + 1) := by
  rw [at_view, Nat.add_zero, List.getElem?_append_left h, List.drop_eq_getElem_cons h,
    List.getElem?_eq_getElem h]
  rfl

theorem Proper.behind_ne_nil (hW : W.Proper) : W.behind ≠ [] := by
  obtain ⟨x, behind, hbehind, -⟩ := hW.exists_behind
  exact hbehind ▸ List.cons_ne_nil x behind

theorem Proper.inside_ne_eof (hW : W.Proper) : ∀ x ∈ W.before ++ W.inside, x.kind ≠ .eof :=
  have hscan : Scanned ((W.before ++ W.inside) ++ W.behind) := by
    rw [List.append_assoc]
    exact hW.scanned
  hscan.ne_eof hW.behind_ne_nil

/-- A parenthesis that opens in the window closes there. -/
theorem exists_closingParen (hW : W.Proper) (h : i < W.size)
    (hkind : (W.view i p).kindAt 0 = .lparen) :
    ∃ n, Ahead.closing 0 (W.inside.drop i) = some (n + 1) ∧ i + (n + 1) < W.size := by
  have hsplit : W.inside = W.inside.take i ++ (W.view i p).at_ 0 :: W.inside.drop (i + 1) := by
    rw [← drop_inside h, List.take_append_drop]
  have hnested := hW.nested
  rw [hsplit, List.map_append, parensBehind_append, List.map_cons] at hnested
  obtain ⟨opened, -, hrest⟩ := Option.bind_eq_some_iff.mp hnested
  obtain ⟨next, hnext, hrest⟩ := Option.bind_eq_some_iff.mp hrest
  rw [show ((W.view i p).at_ 0).kind = .lparen from hkind] at hnext
  cases hnext
  have hclear : ∀ x ∈ W.inside.drop (i + 1), x.kind ≠ .eof := fun x hx =>
    hW.inside_ne_eof x (List.mem_append_right _ (List.mem_of_mem_drop hx))
  obtain ⟨n, hn⟩ := exists_closing Nat.one_pos hclear (Nat.zero_le opened) hrest
  have hclosing : Ahead.closing 0 (W.inside.drop i) = some (n + 1) := by
    rw [drop_inside h p, Ahead.closing, show ((W.view i p).at_ 0).kind = .lparen from hkind]
    exact congrArg (Option.map (· + 1)) hn
  have hlt := (@closing_append _ _ _ [] hclosing).2
  rw [List.length_drop] at hlt
  refine ⟨n, hclosing, ?_⟩
  unfold size at h ⊢
  omega

theorem closingParen_view (h : i ≤ W.size) (hclosing : Ahead.closing 0 (W.inside.drop i) = some n) :
    (W.view i p).closingParen = some n := by
  rw [Ahead.closingParen, drop_view h]
  exact (closing_append hclosing).1

/-- Symbols up to the parenthesis that closes one in front of them are those that close none. -/
theorem le_closing_iff {opened : Nat} {xs : List Symbol}
    (hclosing : Ahead.closing (opened + 1) xs = some n) :
    w ≤ n ↔ ∃ final, parensBehind false opened ((xs.take w).map Symbol.kind) = some final := by
  induction xs generalizing opened n w with
  | nil => cases hclosing
  | cons x xs ih =>
    cases w with
    | zero => exact ⟨fun _ => ⟨opened, rfl⟩, fun _ => Nat.zero_le n⟩
    | succ w =>
      have hgo {opened' : Nat} (hmap : (Ahead.closing (opened' + 1) xs).map (· + 1) = some n)
          (hx : x.kind.parens false opened = some opened') : w + 1 ≤ n ↔ ∃ final,
            parensBehind false opened (((x :: xs).take (w + 1)).map Symbol.kind) = some final := by
        obtain ⟨m, hm, rfl⟩ := Option.map_eq_some_iff.mp hmap
        rw [List.take_succ_cons, List.map_cons, parensBehind, List.foldlM_cons, hx]
        exact Nat.succ_le_succ_iff.trans (ih hm)
      simp only [Ahead.closing] at hclosing
      split at hclosing
      · cases hclosing
      · rename_i hkind
        exact hgo hclosing (hkind ▸ rfl)
      · rename_i hkind
        split at hclosing
        · cases hclosing
          obtain rfl : opened = 0 := by omega
          refine ⟨fun hle => by omega, fun h => ?_⟩
          obtain ⟨final, h⟩ := h
          obtain ⟨next, hnext, -⟩ := Option.bind_eq_some_iff.mp h
          rw [hkind] at hnext
          cases hnext
        · rw [show opened + 1 - 1 = opened - 1 + 1 by omega] at hclosing
          refine hgo hclosing ?_
          rw [hkind]
          exact if_neg (by omega)
      · rename_i hlparen hrparen
        refine hgo hclosing ?_
        unfold TokenKind.parens
        split
        · exact absurd ‹_› hlparen
        · exact absurd ‹_› hrparen
        · rfl

/-- Behind a parenthesis that opens in the window, symbols that hold theirs in pairs leave some of
the window. -/
theorem lt_of_opened {final : Nat} (hW : W.Proper) (h : i < W.size)
    (hkind : (W.view i p).kindAt 0 = .lparen)
    (hnested : parensBehind false 0 (((W.inside.drop (i + 1)).take w).map Symbol.kind) =
      some final) : i + 1 + w < W.size := by
  obtain ⟨m, hm, hlt⟩ := exists_closingParen hW h hkind
  rw [drop_inside h p, Ahead.closing,
    show ((W.view i p).at_ 0).kind = .lparen from hkind] at hm
  obtain ⟨m', hm', heq⟩ := Option.map_eq_some_iff.mp hm
  have hle := (le_closing_iff hm').mpr ⟨final, hnested⟩
  omega

/-- From a parenthesis that opens in the window, symbols that hold theirs in pairs go on behind the
one that closes it. -/
theorem closing_lt (hW : W.Proper) (h : i < W.size) (hkind : (W.view i p).kind = .lparen)
    (hclosing : (W.view i p).closingParen = some n) (hw : 0 < w)
    (hnested : parensBehind false 0 (((W.inside.drop i).take w).map Symbol.kind) = some 0) :
    n < w := by
  obtain ⟨m, hm, -⟩ := exists_closingParen hW h hkind
  rw [closingParen_view (Nat.le_of_lt h) hm] at hclosing
  cases hclosing
  obtain ⟨w, rfl⟩ := Nat.exists_eq_succ_of_ne_zero (Nat.ne_of_gt hw)
  have hx : ((W.view i p).at_ 0).kind = .lparen := hkind
  rw [drop_inside h p] at hm hnested
  rw [Ahead.closing, hx] at hm
  obtain ⟨m', hm', heq⟩ := Option.map_eq_some_iff.mp hm
  obtain rfl : m' = m := Nat.succ.inj heq
  rw [List.take_succ_cons, List.map_cons] at hnested
  obtain ⟨next, hnext, hrest⟩ := Option.bind_eq_some_iff.mp hnested
  rw [hx] at hnext
  cases hnext
  refine Nat.succ_lt_succ_iff.mpr (Nat.lt_of_not_le fun hle => ?_)
  obtain ⟨final, hfinal⟩ := (le_closing_iff hm').mp hle
  have hshift := parensBehind_add hfinal 1
  rw [Nat.zero_add] at hshift
  exact Nat.succ_ne_zero final (Option.some.inj (hshift.symm.trans hrest))

theorem parensBehind_dims {strict : Bool} {opened : Nat} (xs : List Symbol) :
    parensBehind strict opened ((xs.take (Ahead.dimsWidth xs)).map Symbol.kind) = some opened := by
  fun_induction Ahead.dimsWidth xs with
  | case1 _ _ _ _ ss ih =>
    have hlbrack : TokenKind.lbrack.parens strict opened = some opened := by
      simp [TokenKind.parens, TokenKind.isStopper]
    have hrbrack : TokenKind.rbrack.parens strict opened = some opened := by
      simp [TokenKind.parens, TokenKind.isStopper]
    exact Option.bind_eq_some_iff.mpr
      ⟨_, hlbrack, Option.bind_eq_some_iff.mpr ⟨_, hrbrack, ih⟩⟩
  | case2 xs hxs => rfl

/-- The kinds of symbols in the window. -/
theorem kindsBetween_symbols (h : i + w ≤ W.size) :
    kindsBetween W.symbols (W.start + i) (W.start + (i + w)) =
      ((W.inside.drop i).take w).map Symbol.kind := by
  rw [kindsBetween, symbols, start, List.take_length_add_append,
    List.take_append_of_le_length h, ← List.drop_drop, List.drop_left, List.drop_take,
    Nat.add_sub_cancel_left]

/-- Behind a parenthesis that opens in the window there is more of it. -/
theorem lt_of_lparen (hW : W.Proper) (h : i + n ≤ W.size)
    (hkind : (W.view i p).kindAt n = .lparen) : i + n + 1 < W.size := by
  have hlt : i + n < W.size := lt_of_eq hW h hkind
  have hkind' : (W.view (i + n) p).kindAt 0 = .lparen := by
    rwa [Ahead.kindAt, at_view, Nat.add_zero, ← at_view]
  obtain ⟨m, -, hm⟩ := exists_closingParen hW hlt hkind'
  omega

/-- Whether what is left of the window may stand in front of the arrow of a lambda. -/
theorem isHead_drop (hW : W.Proper) (h : i < W.size) : isHead (W.inside.drop i) = true ↔
    (W.view i p).kind = .identifier ∧ i + 1 = W.size ∨
    (W.view i p).kind = .lparen ∧
      ∃ n, (W.view i p).closingParen = some n ∧ i + n + 1 = W.size := by
  have hlength : (W.inside.drop (i + 1)).length = W.size - (i + 1) := List.length_drop
  have hkind : ((W.view i p).at_ 0).kind = (W.view i p).kind := rfl
  rw [drop_inside h p, isHead, ← drop_inside h p, hkind]
  split
  · rename_i hname
    rw [hname, List.isEmpty_iff_length_eq_zero, hlength]
    refine ⟨fun hnil => .inl ⟨rfl, by omega⟩, ?_⟩
    rintro (⟨-, hend⟩ | ⟨hparen, -⟩)
    · omega
    · cases hparen
  · rename_i hparen
    obtain ⟨n, hn, -⟩ := exists_closingParen hW h hparen
    rw [hparen, closingParen_view (Nat.le_of_lt h) hn, hn, hlength, beq_iff_eq, Option.some.injEq]
    refine ⟨fun hend => .inr ⟨rfl, n + 1, rfl, by omega⟩, ?_⟩
    rintro (⟨hname, -⟩ | ⟨-, m, hm, hend⟩)
    · cases hname
    · cases hm
      omega
  · rename_i hname hparen
    exact ⟨nofun, fun h => (h.elim (fun h => hname h.1) fun h => hparen h.1).elim⟩

/-- Lambdas start in one source where they start in the other, unless all that is left of the
window may stand in front of an arrow that stands right behind it. -/
theorem startsLambda_eq (hW : W.Proper) (h : i ≤ W.size)
    (harrow : W.hasArrow = true → isHead (W.inside.drop i) = false) :
    (W.view i p).startsLambda = (W.swap.view i q).startsLambda := by
  -- Behind a symbol of the window, an arrow stands in both sources or in none.
  have hnext (m : Nat) (hm : i + m ≤ W.size) (hlt : W.hasArrow = true → i + m ≠ W.size) :
      ((W.view i p).kindAt m == .arrow) = ((W.swap.view i q).kindAt m == .arrow) := by
    rcases Nat.lt_or_eq_of_le hm with hm | hm
    · rw [kindAt_eq hm]
    · have hno : W.hasArrow = false := Bool.eq_false_iff.mpr fun harrow => hlt harrow hm
      have hstop {V : Window} (hno : V.hasArrow = false) (hm : i + m = V.size)
          (p : Option Phrase) : ((V.view i p).kindAt m == .arrow) = false := by
        rw [hasArrow, Bool.or_eq_false_iff] at hno
        rw [Ahead.kindAt, at_view, hm, size, List.getElem?_append_right (Nat.le_refl _),
          Nat.sub_self, ← List.head?_eq_getElem?]
        cases hbehind : V.behind.head? with
        | none => rfl
        | some x =>
          rw [hbehind] at hno
          exact hno.1
      rw [hstop hno hm, hstop ((hasArrow_swap W).trans hno) hm]
  rcases Nat.lt_or_eq_of_le h with hlt | heq
  · have hkind : (W.swap.view i q).kind = (W.view i p).kind := (kindAt_eq (n := 0) hlt).symm
    have hhead (ha : W.hasArrow = true) := mt (isHead_drop hW hlt (p := p)).mpr
      (Bool.eq_false_iff.mp (harrow ha))
    unfold Ahead.startsLambda
    rw [hkind]
    split
    · exact hnext 1 hlt fun ha hend => hhead ha (.inl ⟨‹_›, hend⟩)
    · obtain ⟨n, hn, hn'⟩ := exists_closingParen hW hlt ‹_›
      have hclosing := closingParen_view h hn (p := p)
      rw [hclosing, closingParen_view (W := W.swap) h hn]
      exact hnext (n + 1 + 1) hn' fun ha hend => hhead ha (.inr ⟨‹_›, n + 1, hclosing, hend⟩)
    · rfl
  · have hno {V : Window} (hV : V.Proper) (h : i = V.size) (p : Option Phrase) :
        (V.view i p).startsLambda = false := by
      have hstop := isStopper_kindAt (n := 0) hV h (p := p)
      unfold Ahead.startsLambda Ahead.kind
      generalize (V.view i p).kindAt 0 = kind at hstop
      cases kind <;> first | rfl | cases hstop
    rw [hno hW heq, hno hW.swap heq]

/-- Where two symbols are left in the window, a `yield` is told in the same way. -/
theorem startsYield_eq (h : i + 1 < W.size) :
    (W.view i p).startsYield = (W.swap.view i q).startsYield := by
  have hnow : (W.view i p).at_ 0 = (W.swap.view i q).at_ 0 := at_eq (Nat.lt_of_succ_lt h)
  have hnext : (W.view i p).kindAt 1 = (W.swap.view i q).kindAt 1 := kindAt_eq h
  rw [Ahead.startsYield, Ahead.startsYield, Ahead.isAtWord, Ahead.isAtWord, hnow, hnext]

/-! ### Tokens -/

theorem whole (hW : W.Proper) : W.source.Whole := hW.scanned.whole

theorem tokenAt_start (h : i < W.size) :
    W.source.tokenAt (W.start + i) = W.inside[i].token := by
  have hget : W.source.tokens[W.start + i]? = some W.inside[i].token := by
    rw [source, Source.getElem?_ofSymbols, symbols, start,
      List.getElem?_append_right (Nat.le_add_right ..), Nat.add_sub_cancel_left,
      List.getElem?_append_left h, List.getElem?_eq_getElem h]
    rfl
  rw [Source.tokenAt, hget]
  rfl

/-- Up to the stopper no source ends. -/
theorem clear (hW : W.Proper) (h : i ≤ W.size) : W.source.Clear (W.start + i) := by
  have hsplit : W.symbols = (W.before ++ W.inside.take i) ++ (W.inside.drop i ++ W.behind) := by
    rw [symbols, List.append_assoc, ← List.append_assoc (W.inside.take i), List.take_append_drop]
  have hlength : (W.before ++ W.inside.take i).length = W.start + i := by
    rw [List.length_append, List.length_take_of_le h, start]
  rw [source, hsplit, ← hlength]
  exact Scanned.clear (hsplit ▸ hW.scanned)
    (List.append_ne_nil_of_right_ne_nil _ hW.behind_ne_nil)

theorem getElem?_tokens (h : i < W.size) :
    W.source.tokens[W.start + i]? = W.swap.source.tokens[W.swap.start + i]? := by
  have hget (V : Window) (h : i < V.size) :
      V.source.tokens[V.start + i]? = V.inside[i]?.map Symbol.token := by
    rw [source, Source.getElem?_ofSymbols, symbols, start,
      List.getElem?_append_right (Nat.le_add_right ..), Nat.add_sub_cancel_left,
      List.getElem?_append_left h]
  rw [hget W h, hget W.swap h]
  rfl

theorem mapM_congr {α β : Type} {f g : α → Option β} {as : List α} (h : ∀ a ∈ as, f a = g a) :
    as.mapM f = as.mapM g := by
  induction as with
  | nil => rfl
  | cons a as ih =>
    obtain ⟨ha, has⟩ := List.forall_mem_cons.mp h
    rw [List.mapM_cons, List.mapM_cons, ha, ih has]

theorem joined_eq (h : i + w ≤ W.size) :
    W.source.joined kind (W.start + i) w = W.swap.source.joined kind (W.swap.start + i) w := by
  have hmap : (List.range w).mapM (fun n => W.source.tokens[W.start + i + n]?) =
      (List.range w).mapM fun n => W.swap.source.tokens[W.swap.start + i + n]? := by
    refine mapM_congr fun n hn => ?_
    rw [Nat.add_assoc, Nat.add_assoc]
    exact getElem?_tokens (Nat.lt_of_lt_of_le (Nat.add_lt_add_left (List.mem_range.mp hn) i) h)
  rw [Source.joined, Source.joined, hmap]

end Window

end JavaSource.Grammar
