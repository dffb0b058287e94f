import JavaSource.Proofs.Rules
import JavaSource.Proofs.Spelling
import JavaSource.Proofs.Taking

/-!
# How parentheses stand

What a rule takes holds its parentheses in pairs, and between those of a type, of modifiers or of a
pattern there is no symbol that may stand behind an expression.  Both can be read from the shapes
of phrases: an automaton goes along the parts of every phrase and counts the parentheses that are
open.

* `Scanned.nested`, `Scanned.barren`: so it is for what rules take in a source that was scanned.
-/

namespace JavaSource

open Grammar

/-- Whether a symbol may stand behind an expression that is not part of a larger one. -/
def TokenKind.isStopper : TokenKind → Bool
  | .eof | .semi | .colon | .arrow | .rparen | .rbrace => true
  | _ => false

/-- Whether a symbol is no stopper. -/
abbrev TokenKind.isInner : TokenKind → Bool
  | .eof | .semi | .colon | .arrow | .rparen | .rbrace => false
  | _ => true

/-- How many parentheses are open behind a symbol.  None may close that is not open, and where none
is open no stopper may stand, if that is asked. -/
def TokenKind.parens (strict : Bool) (opened : Nat) : TokenKind → Option Nat
  | .lparen => some (opened + 1)
  | .rparen => if opened = 0 then none else some (opened - 1)
  | kind    => if strict && opened == 0 && kind.isStopper then none else some opened

/-- How many parentheses are open behind some symbols. -/
def parensBehind (strict : Bool) (opened : Nat) (kinds : List TokenKind) : Option Nat :=
  kinds.foldlM (TokenKind.parens strict) opened

/-- The phrases that hold no stopper outside of parentheses. -/
def Phrase.isBarren : Phrase → Bool
  | .type | .classType | .coit | .typeArguments | .wildcard | .dim | .annotationUse
  | .qualifiedName | .modifiers | .pattern => true
  | _ => false

/-- How many parentheses are open behind one part of a phrase. -/
def Item.parens (strict : Bool) (opened : Nat) : Item → Option Nat
  | token [kind]  => kind.parens strict opened
  | token kinds   => if kinds.all (·.parens strict opened == some opened) then some opened else none
  | word _        => some opened
  | phrase kinds  =>
    if strict && opened == 0 && !kinds.all Phrase.isBarren then none else some opened
  | only kind _ | holding kind _ =>
    if strict && opened == 0 && !kind.isBarren then none else some opened

theorem Phrase.shape_nested (kind : Phrase) :
    kind.shape.reads (Item.parens false) 0 (· == 0) = true := by
  cases kind <;> decide

theorem Phrase.shape_barren (kind : Phrase) (h : kind.isBarren) :
    kind.shape.reads (Item.parens true) 0 (· == 0) = true := by
  cases kind <;> first | decide | cases h

/-! ### Counting -/

variable {strict : Bool} {opened opened' : Nat} {ks ks' : List TokenKind}

theorem parensBehind_append : parensBehind strict opened (ks ++ ks') =
    (parensBehind strict opened ks).bind (parensBehind strict · ks') :=
  List.foldlM_append ..

theorem TokenKind.parens_split (t : Token) :
    parensBehind strict opened (t.split.map Token.kind) = t.kind.parens strict opened := by
  by_cases hshift : t.kind = .rshift ∨ t.kind = .urshift
  · have hgt : TokenKind.gt.parens strict opened = some opened := by
      simp [TokenKind.parens, TokenKind.isStopper]
    rcases hshift with h | h
    · rw [Token.split, h]
      simp only [parensBehind, List.map_cons, List.map_nil, Token.angle, List.foldlM_cons,
        List.foldlM_nil, hgt]
      simp [TokenKind.parens, TokenKind.isStopper]
    · rw [Token.split, h]
      simp only [parensBehind, List.map_cons, List.map_nil, Token.angle, List.foldlM_cons,
        List.foldlM_nil, hgt]
      simp [TokenKind.parens, TokenKind.isStopper]
  · rw [not_or] at hshift
    rw [Token.split_eq_self hshift.1 hshift.2]
    simp [parensBehind]

/-- Within parentheses nothing is asked, and no more than those that are open can close. -/
theorem TokenKind.parens_within {kind : TokenKind} (h : kind.parens false opened = some opened')
    (more : Nat) : kind.parens strict (opened + (more + 1)) = some (opened' + (more + 1)) := by
  cases kind with
  | lparen => cases h; simp [TokenKind.parens]; omega
  | rparen =>
    simp only [TokenKind.parens] at h ⊢
    split at h
    · cases h
    · cases h
      rw [if_neg (by omega)]
      congr 1
      omega
  | _ => cases h; simp [TokenKind.parens]

theorem parensBehind_within (h : parensBehind false opened ks = some opened') (more : Nat) :
    parensBehind strict (opened + (more + 1)) ks = some (opened' + (more + 1)) := by
  induction ks generalizing opened with
  | nil => cases h; rfl
  | cons kind ks ih =>
    obtain ⟨between, hkind, hks⟩ := Option.bind_eq_some_iff.mp h
    exact Option.bind_eq_some_iff.mpr ⟨_, kind.parens_within hkind more, ih hks⟩

theorem parensBehind_add (h : parensBehind false opened ks = some opened') (more : Nat) :
    parensBehind false (opened + more) ks = some (opened' + more) := by
  cases more with
  | zero => exact h
  | succ more => exact parensBehind_within h more

/-- What is asked besides may be left out. -/
theorem parensBehind_lax (h : parensBehind strict opened ks = some opened') :
    parensBehind false opened ks = some opened' := by
  induction ks generalizing opened with
  | nil => exact h
  | cons kind ks ih =>
    obtain ⟨between, hkind, hks⟩ := Option.bind_eq_some_iff.mp h
    refine Option.bind_eq_some_iff.mpr ⟨between, ?_, ih hks⟩
    unfold TokenKind.parens at hkind ⊢
    split at hkind
    · exact hkind
    · exact hkind
    · split at hkind
      · cases hkind
      · simpa using hkind

/-- No stopper stands where no parenthesis is open. -/
theorem TokenKind.parens_stopper {kind : TokenKind} (h : kind.isStopper = true) :
    kind.parens true 0 = none := by
  cases kind <;> first | rfl | cases h

/-! ### Trees -/

namespace Tree

/-- The kinds of the symbols that a tree was made of. -/
def kinds (t : Tree) : List TokenKind := t.leaves.flatMap fun l => l.split.map Token.kind

theorem kinds_leaf (t : Token) : (leaf t).kinds = t.split.map Token.kind := by
  rw [kinds, leaves, List.flatMap_singleton]

theorem kinds_node {kind : Phrase} {parts : List Tree} {start stop : Location} :
    (node kind parts start stop).kinds = parts.flatMap kinds := by
  rw [kinds, leaves, leavesAll_eq_flatMap, List.flatMap_assoc]
  rfl

/-- Parentheses come in pairs, between which there is no stopper if that is asked. -/
def Paired (strict : Bool) (t : Tree) : Prop := parensBehind strict 0 t.kinds = some 0

/-- A part of a phrase leaves as many parentheses open as the automaton says. -/
theorem parensBehind_of_fits {t : Tree} {i : Item} (hfits : i.fits t)
    (hmoves : i.parens strict opened = some opened')
    (hnested : ∀ kind, t.phrase? = some kind → t.Paired false)
    (hstrict : strict = true → ∀ kind, t.phrase? = some kind → kind.isBarren → t.Paired true) :
    parensBehind strict opened t.kinds = some opened' := by
  -- A phrase leaves them as they were.
  have hphrase (kind : Phrase) (hkind : t.phrase? = some kind) (heq : opened' = opened)
      (hbarren : (strict && opened == 0) = true → kind.isBarren = true) :
      parensBehind strict opened t.kinds = some opened' := by
    subst heq
    cases opened' with
    | succ n => simpa using @parensBehind_within strict _ _ _ (hnested kind hkind) n
    | zero =>
      cases strict with
      | true => exact hstrict rfl kind hkind (hbarren rfl)
      | false => exact hnested kind hkind
  cases i with
  | token ks =>
    cases t with
    | node => cases hfits
    | leaf t =>
      rw [kinds_leaf, TokenKind.parens_split]
      have hmem : t.kind ∈ ks := List.contains_iff_mem.mp hfits
      unfold Item.parens at hmoves
      split at hmoves
      · rename_i heq
        cases heq
        exact List.mem_singleton.mp hmem ▸ hmoves
      · rename_i heq
        cases heq
        split at hmoves
        · cases hmoves
          rename_i hall
          exact beq_iff_eq.mp (List.all_eq_true.mp hall _ hmem)
        · cases hmoves
      all_goals rename_i heq; cases heq
  | word text =>
    cases t with
    | node => cases hfits
    | leaf t =>
      cases hmoves
      have hkind : t.kind = .identifier := beq_iff_eq.mp ((Bool.and_eq_true ..).mp hfits).1
      rw [kinds_leaf, TokenKind.parens_split, hkind]
      simp [TokenKind.parens, TokenKind.isStopper]
  | phrase ks =>
    cases t with
    | leaf => cases hfits
    | node kind ps a b =>
      simp only [Item.parens] at hmoves
      split at hmoves
      · cases hmoves
      · cases hmoves
        refine hphrase kind rfl rfl fun h => ?_
        have hall : ks.all Phrase.isBarren = true := by simp_all
        exact List.all_eq_true.mp hall kind (List.contains_iff_mem.mp hfits)
  | only kind' inner | holding kind' inner =>
    cases t with
    | leaf => cases hfits
    | node kind ps a b =>
      simp only [Item.parens] at hmoves
      rw [Item.fits, Bool.and_eq_true, beq_iff_eq] at hfits
      split at hmoves
      · cases hmoves
      · cases hmoves
        refine hphrase kind rfl rfl fun h => ?_
        rw [hfits.1]
        simp_all

/-- A row of parts leaves as many parentheses open as the automaton says. -/
theorem parensBehind_of_walk {ts : List Tree}
    (hwalk : Shape.Walk (Item.parens strict) opened ts opened')
    (hnested : ∀ t ∈ ts, ∀ kind, t.phrase? = some kind → t.Paired false)
    (hstrict : strict = true → ∀ t ∈ ts, ∀ kind, t.phrase? = some kind → kind.isBarren →
      t.Paired true) :
    parensBehind strict opened (ts.flatMap kinds) = some opened' := by
  induction hwalk with
  | nil => rfl
  | cons fits moves _ ih =>
    rw [List.flatMap_cons, parensBehind_append,
      parensBehind_of_fits fits moves (hnested _ List.mem_cons_self)
        (fun h => hstrict h _ List.mem_cons_self)]
    exact ih (fun t ht => hnested t (List.mem_cons_of_mem _ ht))
      (fun h t ht => hstrict h t (List.mem_cons_of_mem _ ht))

/-- **In a phrase, parentheses come in pairs.** -/
theorem Regular.paired {t : Tree} (h : t.Regular) {kind : Phrase} (hkind : t.phrase? = some kind) :
    t.Paired false := by
  induction h generalizing kind with
  | leaf => cases hkind
  | node holds regular starts stops ih =>
    obtain ⟨opened', hzero, hwalk⟩ := holds.walk (Phrase.shape_nested _)
    obtain rfl := beq_iff_eq.mp hzero
    rw [Paired, kinds_node]
    exact parensBehind_of_walk hwalk (fun t ht kind hkind => ih t ht hkind) nofun

/-- **In a type, in modifiers and in a pattern, no stopper stands outside of parentheses.** -/
theorem Regular.barren {t : Tree} (h : t.Regular) {kind : Phrase} (hkind : t.phrase? = some kind)
    (hbarren : kind.isBarren) : t.Paired true := by
  induction h generalizing kind with
  | leaf => cases hkind
  | node holds regular starts stops ih =>
    cases hkind
    obtain ⟨opened', hzero, hwalk⟩ := holds.walk (Phrase.shape_barren _ hbarren)
    obtain rfl := beq_iff_eq.mp hzero
    rw [Paired, kinds_node]
    exact parensBehind_of_walk hwalk (fun t ht kind hkind => (regular t ht).paired hkind)
      (fun _ t ht kind hkind hbarren => ih t ht hkind hbarren)

end Tree

/-- A row of regular trees leaves as many parentheses open as the automaton says. -/
theorem Shape.Holds.paired {row : Shape} {ts : List Tree} (h : row.Holds ts)
    (hregular : ∀ t ∈ ts, t.Regular)
    (hreads : row.reads (Item.parens strict) 0 (· == 0) = true) :
    parensBehind strict 0 (ts.flatMap Tree.kinds) = .some 0 := by
  obtain ⟨opened', hzero, hwalk⟩ := h.walk hreads
  obtain rfl := beq_iff_eq.mp hzero
  exact Tree.parensBehind_of_walk hwalk (fun t ht kind hkind => (hregular t ht).paired hkind)
    (fun _ t ht kind hkind => (hregular t ht).barren hkind)

/-! ### Sources that were scanned -/

namespace Grammar

/-- A row that a rule adds holds its parentheses in pairs. -/
theorem Rule.shape_nested (r : Rule) : r.shape.reads (Item.parens false) 0 (· == 0) = true := by
  cases r with
  | classBodyDeclaration setting | memberDeclaration setting | memberBody setting
  | classBody setting => cases setting <;> decide
  | formalParameters ofLambda => cases ofLambda <;> decide
  | binary loosest => cases loosest <;> decide
  | _ => decide

/-- What is tried has no stopper outside of parentheses. -/
theorem Probe.shape_barren (what : Probe) :
    what.rule.shape.reads (Item.parens true) 0 (· == 0) = true := by
  cases what <;> decide

/-- The kinds of the symbols from one place to another. -/
def kindsBetween (ss : List Symbol) (i j : Nat) : List TokenKind :=
  ((ss.take j).drop i).map Symbol.kind

namespace Scanned

variable {ss : List Symbol}

/-- What a rule takes are the symbols of a row of its shape. -/
theorem takes (h : Scanned ss) {r : Rule} {i j : Nat} {parts : List Tree}
    (htakes : r.Takes (.ofSymbols ss) i parts j) (hfree : r.isFree)
    (hclear : (Source.ofSymbols ss).Clear i) :
    ∃ new, parts = (new.map Tree.unplaced).reverse ∧ r.shape.Holds new ∧
      (∀ t ∈ new, t.Regular) ∧ kindsBetween ss i j = new.flatMap Tree.kinds := by
  have hexpects : r.Expects ((Source.ofSymbols ss).kindAt i) := by
    cases r with
    | superAccess => cases hfree
    | _ => trivial
  obtain ⟨enough, hlarge⟩ := (Rule.takes_iff_run h.whole hexpects hclear).mp htakes
  obtain ⟨depth, memo, hrun⟩ := hlarge enough (Nat.le_refl _)
  have hi := h.whole.lt_size i hclear
  rw [Source.size_ofSymbols] at hi
  obtain ⟨scan, hscan⟩ := h
  have hkinds := map_kind hscan
  have hlength : scan.tokens.length = ss.length := by
    simpa using congrArg List.length hkinds
  have hcommutes : r.run scan.source.unplaced enough ⟨i, 0, [], []⟩ =
      (r.run scan.source enough ⟨i, 0, [], []⟩).unplaced := r.run_unplaced ⟨i, 0, [], []⟩
  rw [hscan, hrun] at hcommutes
  cases hactual : r.run scan.source enough ⟨i, 0, [], []⟩ with
  | refused place why memo' =>
    rw [hactual] at hcommutes
    cases hcommutes
  | done value s =>
    rw [hactual] at hcommutes
    have hstate : ⟨j, depth, parts, memo⟩ = s.unplaced := (Outcome.done.inj hcommutes).2
    have : Settled r.isFree := ⟨hfree⟩
    obtain ⟨⟨new, hnew, hholds, hregular, hleaves⟩, -, -⟩ :=
      Rule.run_adds (hlength ▸ hi) rfl (r.needs_of_isFree scan _) hactual
    obtain ⟨read, depth', parts', memo'⟩ := s
    cases hstate
    refine ⟨new, ?_, hholds, hregular, ?_⟩
    · rw [show parts' = new.reverse from hnew.trans (List.append_nil _), List.map_reverse]
    · have htake (n : Nat) : (scan.tokens.take n).map Token.kind = (ss.take n).map Symbol.kind := by
        rw [List.map_take, hkinds, List.map_take]
      have hbetween := congrArg (List.map Token.kind) hleaves
      rw [List.map_append, htake, htake, List.map_take, List.map_take] at hbetween
      rw [kindsBetween, List.map_drop, List.map_take, hbetween, List.drop_left',
        Tree.leavesAll_eq_flatMap, List.flatMap_assoc, List.map_flatMap]
      · simp only [List.map_flatMap]
        rfl
      · rw [List.length_take, List.length_map]
        exact Nat.min_eq_left (Nat.le_of_lt hi)

/-- **What a rule takes holds its parentheses in pairs.** -/
theorem nested (h : Scanned ss) {r : Rule} {i j : Nat} {parts : List Tree}
    (htakes : r.Takes (.ofSymbols ss) i parts j) (hfree : r.isFree)
    (hclear : (Source.ofSymbols ss).Clear i) :
    parensBehind false 0 (kindsBetween ss i j) = some 0 := by
  obtain ⟨new, -, hholds, hregular, hkinds⟩ := h.takes htakes hfree hclear
  rw [hkinds]
  exact hholds.paired hregular r.shape_nested

/-- **What is tried has no stopper outside of its parentheses.** -/
theorem barren (h : Scanned ss) {what : Probe} {i j : Nat} {parts : List Tree}
    (htakes : what.rule.Takes (.ofSymbols ss) i parts j)
    (hclear : (Source.ofSymbols ss).Clear i) :
    parensBehind true 0 (kindsBetween ss i j) = some 0 := by
  have hfree : what.rule.isFree = true := by cases what <;> rfl
  obtain ⟨new, -, hholds, hregular, hkinds⟩ := h.takes htakes hfree hclear
  rw [hkinds]
  exact hholds.paired hregular what.shape_barren

end Scanned

end Grammar

end JavaSource
