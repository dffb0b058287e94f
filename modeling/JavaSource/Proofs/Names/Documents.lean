import Mathlib.Algebra.Order.Group.Multiset
import JavaSource.Printing.Printer

/-!
# Names in documents

Which parts of a text are names cannot be seen in it.  So names are left open: a document becomes a
function of how each name is spelled (`Named Doc`), and its text is a list of pieces, each of which
stays as it is or spells a name (`Piece`).

* `Account written all whole`: of the names `all` those that are `written` are some of them, with
  none written twice, and they are all of them just if `whole`.
* `Tells d all whole`: at any indent, either `d` has no text, however names are spelled, or its
  text is of pieces with such an account.

Every way to build documents from others adds accounts up.
-/

namespace JavaSource

/-! ### Pieces -/

/-- A part of a text: one that stays as it is, or a name. -/
inductive Piece where
  | fixed (text : String)
  | name (name : String)

namespace Piece

/-- The text of a piece. -/
def spell (f : String → String) : Piece → String
  | fixed s => s
  | name n  => f n

/-- The text of several pieces. -/
def spellAll (f : String → String) : List Piece → String
  | []      => ""
  | p :: ps => p.spell f ++ spellAll f ps

/-- The name that a piece spells. -/
def name? : Piece → Option String
  | fixed _ => none
  | name n  => some n

/-- The names that are spelled, in order. -/
def names (ps : List Piece) : List String := ps.filterMap name?

theorem spellAll_append (f : String → String) (ps qs : List Piece) :
    spellAll f (ps ++ qs) = spellAll f ps ++ spellAll f qs := by
  induction ps with
  | nil => exact String.empty_append.symm
  | cons p ps ih => rw [List.cons_append, spellAll, ih, spellAll, String.append_assoc]

end Piece

open Piece

/-! ### Accounts -/

variable {a b written : Multiset String} {p q : Prop}

/-- Of some names, those that are written are among them, each as often at most, and they are all
of them just if the account is whole. -/
structure Account (written all : Multiset String) (whole : Prop) : Prop where
  le : written ≤ all
  eq_iff : written = all ↔ whole

namespace Account

theorem zero : Account 0 0 True := ⟨le_refl 0, iff_of_true rfl trivial⟩

theorem same (all : Multiset String) : Account all all True :=
  ⟨le_refl all, iff_of_true rfl trivial⟩

theorem add {written' : Multiset String} (h : Account written a p) (h' : Account written' b q) :
    Account (written + written') (a + b) (p ∧ q) where
  le := add_le_add h.le h'.le
  eq_iff := (add_eq_add_iff_eq_and_eq h.le h'.le).trans (and_congr h.eq_iff h'.eq_iff)

/-- Names that are not written are missing, if there are any. -/
theorem lose (h : Account written a p) (lost : Multiset String) :
    Account written (lost + a) (lost = 0 ∧ p) where
  le := h.le.trans (Multiset.le_add_left a lost)
  eq_iff := by
    constructor
    · intro heq
      have ha : written = a :=
        le_antisymm h.le ((Multiset.le_add_left a lost).trans heq.ge)
      rw [ha] at heq
      exact ⟨add_eq_right.mp heq.symm, h.eq_iff.mp ha⟩
    · rintro ⟨rfl, hp⟩
      rw [zero_add]
      exact h.eq_iff.mpr hp

end Account

/-! ### One document -/

/-- Something in which it is left open how names are spelled. -/
abbrev Named (α : Type) := (String → String) → α

/-- What a document tells of some names: nothing, as it has no text, or what its text spells. -/
def Tells (d : Named Doc) (all : Multiset String) (whole : Prop) : Prop :=
  ∀ indent depth,
    (∃ e, ∀ f written, (d f).write indent depth written = .error e) ∨
    ∃ ps, Account (names ps) all whole ∧
      ∀ f written, (d f).write indent depth written = .ok (written ++ spellAll f ps)

/-- What is written does not depend on what has been written. -/
theorem Doc.write_append (d : Doc) (indent depth : Nat) :
    (∃ e, ∀ written, d.write indent depth written = .error e) ∨
    ∃ text, ∀ written, d.write indent depth written = .ok (written ++ text) := by
  induction d generalizing depth with
  | nil => exact .inr ⟨"", fun _ => congrArg Except.ok String.append_empty.symm⟩
  | text s => exact .inr ⟨s, fun _ => rfl⟩
  | line => exact .inr ⟨_, fun _ => rfl⟩
  | blankLine => exact .inr ⟨_, fun _ => congrArg Except.ok String.append_assoc⟩
  | textBlock lines =>
    refine .inr ⟨"\"\"\"" ++ (blockText indent depth lines ++ "\"\"\""), fun _ => ?_⟩
    rw [← String.append_assoc, ← String.append_assoc]
    rfl
  | append c d ihc ihd =>
    obtain ⟨e, hc⟩ | ⟨first, hc⟩ := ihc depth
    · exact .inl ⟨e, fun written => by rw [write, hc]; rfl⟩
    obtain ⟨e, hd⟩ | ⟨second, hd⟩ := ihd depth
    · exact .inl ⟨e, fun written => by rw [write, hc]; exact hd _⟩
    · refine .inr ⟨first ++ second, fun written => ?_⟩
      rw [write, hc, ← String.append_assoc]
      exact hd _
  | nest d ih => exact ih (depth + 1)
  | refuse e => exact .inl ⟨e, fun _ => rfl⟩

namespace Tells

variable {d e : Named Doc}

theorem of_eq {a' : Multiset String} {p' : Prop} (h : Tells d a p) (ha : a = a') (hp : p = p') :
    Tells d a' p' := by
  rw [← ha, ← hp]
  exact h

/-- A document without names. -/
theorem const (d : Doc) : Tells (fun _ => d) 0 True := fun indent depth => by
  obtain ⟨e, hd⟩ | ⟨text, hd⟩ := d.write_append indent depth
  · exact .inl ⟨e, fun _ => hd⟩
  · refine .inr ⟨[.fixed text], .zero, fun f written => ?_⟩
    rw [hd, spellAll, spellAll, String.append_empty, spell]

/-- What has no text tells nothing wrong. -/
theorem refuse (e : PrintError) : Tells (fun _ => .refuse e) a p :=
  fun _ _ => .inl ⟨e, fun _ _ => rfl⟩

theorem name (name : String) : Tells (fun f => .text (f name)) {name} True := fun indent depth => by
  refine .inr ⟨[.name name], .same _, fun f written => ?_⟩
  rw [Doc.write, spellAll, spellAll, String.append_empty, spell]

theorem append (hd : Tells d a p) (he : Tells e b q) :
    Tells (fun f => d f ++ e f) (a + b) (p ∧ q) := fun indent depth => by
  have hwrite (f written) : (d f ++ e f).write indent depth written =
      (d f).write indent depth written >>= fun text => (e f).write indent depth text := rfl
  obtain ⟨error, hd⟩ | ⟨ps, hps, hd⟩ := hd indent depth
  · exact .inl ⟨error, fun f written => by rw [hwrite, hd]; rfl⟩
  obtain ⟨error, he⟩ | ⟨qs, hqs, he⟩ := he indent depth
  · exact .inl ⟨error, fun f written => by rw [hwrite, hd]; exact he f _⟩
  · refine .inr ⟨ps ++ qs, ?_, fun f written => ?_⟩
    · rw [names, List.filterMap_append, ← Multiset.coe_add]
      exact hps.add hqs
    · rw [hwrite, hd, spellAll_append, ← String.append_assoc]
      exact he f _

theorem nest (hd : Tells d a p) : Tells (fun f => .nest (d f)) a p :=
  fun indent depth => hd indent (depth + 1)

theorem ite {r : Prop} [Decidable r] (hd : Tells d a p) (he : Tells e a p) :
    Tells (fun f => if r then d f else e f) a p := by
  by_cases hr : r
  · simp only [if_pos hr]
    exact hd
  · simp only [if_neg hr]
    exact he

theorem after (s : Doc) (hd : Tells d a p) : Tells (fun f => s ++ d f) a p :=
  ((const s).append hd).of_eq (zero_add a) (true_and p)

theorem before (hd : Tells d a p) (s : Doc) : Tells (fun f => d f ++ s) a p :=
  (hd.append (const s)).of_eq (add_zero a) (and_true p)

theorem parens (needed : Bool) (hd : Tells d a p) : Tells (fun f => Doc.parens needed (d f)) a p :=
  .ite ((hd.after _).before _) hd

theorem bound (up down : Bool) (hd : Tells d a p) :
    Tells (fun f => Doc.bound up down (d f)) a p := by
  cases up <;> cases down
  · exact refuse _
  · exact hd.after _
  · exact hd.after _
  · exact refuse _

/-- Names that are not written at all. -/
theorem lose (hd : Tells d a p) (lost : Multiset String) : Tells d (lost + a) (lost = 0 ∧ p) :=
  fun indent depth => (hd indent depth).imp_right fun ⟨ps, hps, h⟩ => ⟨ps, hps.lose lost, h⟩

end Tells

/-! ### Several documents -/

/-- What each of several documents tells. -/
inductive TellsEach : List (Named Doc) → Multiset String → Prop → Prop where
  | nil : TellsEach [] 0 True
  | cons {d : Named Doc} {ds : List (Named Doc)} {a b : Multiset String} {p q : Prop}
      (head : Tells d a p) (tail : TellsEach ds b q) : TellsEach (d :: ds) (a + b) (p ∧ q)

namespace TellsEach

variable {d : Named Doc} {ds es : List (Named Doc)}

theorem append (hds : TellsEach ds a p) (hes : TellsEach es b q) :
    TellsEach (ds ++ es) (a + b) (p ∧ q) := by
  induction hds with
  | nil =>
    rw [zero_add, true_and]
    exact hes
  | cons head _ ih =>
    rw [add_assoc, and_assoc]
    exact .cons head ih

theorem map {g : Doc → Doc}
    (hg : ∀ {d : Named Doc} {a p}, Tells d a p → Tells (fun f => g (d f)) a p)
    (h : TellsEach ds a p) : TellsEach (ds.map fun d f => g (d f)) a p := by
  induction h with
  | nil => exact .nil
  | cons head _ ih => exact .cons (hg head) ih

theorem concat (h : TellsEach ds a p) : Tells (fun f => Doc.concat (ds.map (· f))) a p := by
  induction h with
  | nil => exact .const _
  | cons head _ ih => exact head.append ih

theorem sepBy (s : Doc) (h : TellsEach ds a p) :
    Tells (fun f => Doc.sepBy s (ds.map (· f))) a p := by
  induction h with
  | nil => exact .const _
  | cons head tail ih =>
    cases tail with
    | nil => exact head.of_eq (add_zero _).symm (and_true _).symm
    | cons => exact (head.before s).append ih

theorem constants (hasMembers : Bool) (h : TellsEach ds a p) :
    Tells (fun f => Doc.constants hasMembers (ds.map (· f))) a p := by
  induction h with
  | nil => exact .const _
  | cons head tail ih =>
    cases tail with
    | nil =>
      exact ((head.after _).before _).of_eq (add_zero _).symm (and_true _).symm
    | cons => exact ((head.after _).before _).append ih

end TellsEach

/-- What several documents tell, whose number does not depend on how names are spelled. -/
def TellsAll (ds : Named (List Doc)) (all : Multiset String) (whole : Prop) : Prop :=
  ∃ es : List (Named Doc), ds = (fun f => es.map (· f)) ∧ TellsEach es all whole

namespace TellsAll

variable {d : Named Doc} {ds es fs : Named (List Doc)} {r : Prop} {g : Multiset String}

theorem of_eq {a' : Multiset String} {p' : Prop} (h : TellsAll ds a p) (ha : a = a')
    (hp : p = p') : TellsAll ds a' p' := by
  rw [← ha, ← hp]
  exact h

theorem nil : TellsAll (fun _ => []) 0 True := ⟨[], rfl, .nil⟩

theorem cons (hd : Tells d a p) (hds : TellsAll ds b q) :
    TellsAll (fun f => d f :: ds f) (a + b) (p ∧ q) := by
  obtain ⟨es, rfl, h⟩ := hds
  exact ⟨d :: es, rfl, .cons hd h⟩

theorem one (hd : Tells d a p) : TellsAll (fun f => [d f]) a p :=
  (cons hd nil).of_eq (add_zero a) (and_true p)

theorem append (hds : TellsAll ds a p) (hes : TellsAll es b q) :
    TellsAll (fun f => ds f ++ es f) (a + b) (p ∧ q) := by
  obtain ⟨ds, rfl, hds⟩ := hds
  obtain ⟨es, rfl, hes⟩ := hes
  exact ⟨ds ++ es, funext fun _ => List.map_append.symm, hds.append hes⟩

theorem map {g : Doc → Doc}
    (hg : ∀ {d : Named Doc} {a p}, Tells d a p → Tells (fun f => g (d f)) a p)
    (h : TellsAll ds a p) : TellsAll (fun f => (ds f).map g) a p := by
  obtain ⟨es, rfl, h⟩ := h
  refine ⟨_, funext fun f => ?_, h.map hg⟩
  rw [List.map_map, List.map_map]
  rfl

/-- Where there are no documents there are no names either. -/
theorem of_nil (h : TellsAll (fun _ => []) a p) : a = 0 ∧ p = True := by
  obtain ⟨es, hes, h⟩ := h
  obtain rfl := List.map_eq_nil_iff.mp (congrFun hes id).symm
  cases h
  exact ⟨rfl, rfl⟩

theorem const (h : TellsAll (fun _ => []) a p) (d : Doc) : Tells (fun _ => d) a p :=
  (Tells.const d).of_eq h.of_nil.1.symm h.of_nil.2.symm

/-- Documents that are there or not, however names are spelled. -/
theorem unlessEmpty (h : TellsAll ds a p) (hd : Tells d a p) (none : Doc) :
    Tells (fun f => if (ds f).isEmpty then none else d f) a p := by
  obtain ⟨es, rfl, h⟩ := h
  cases es with
  | nil => exact const ⟨[], rfl, h⟩ none
  | cons => exact hd

theorem concat (h : TellsAll ds a p) : Tells (fun f => Doc.concat (ds f)) a p := by
  obtain ⟨es, rfl, h⟩ := h
  exact h.concat

theorem sepBy (s : Doc) (h : TellsAll ds a p) : Tells (fun f => Doc.sepBy s (ds f)) a p := by
  obtain ⟨es, rfl, h⟩ := h
  exact h.sepBy s

theorem sep (s : String) (h : TellsAll ds a p) : Tells (fun f => Doc.sep s (ds f)) a p :=
  h.sepBy _

theorem each (s : String) (h : TellsAll ds a p) : Tells (fun f => Doc.each s (ds f)) a p :=
  (h.map fun hd => hd.before _).concat

theorem lead (s : String) (h : TellsAll ds a p) : Tells (fun f => Doc.lead s (ds f)) a p :=
  h.unlessEmpty (h.concat.after _) _

theorem clause (s t : String) (h : TellsAll ds a p) : Tells (fun f => Doc.clause s t (ds f)) a p :=
  h.unlessEmpty ((h.sep t).after _) _

theorem tuple (h : TellsAll ds a p) : Tells (fun f => Doc.tuple (ds f)) a p :=
  ((h.sep _).after _).before _

theorem indented (h : TellsAll ds a p) : Tells (fun f => Doc.indented (ds f)) a p :=
  (h.map fun hd => hd.after _).concat.nest

theorem braces (h : TellsAll ds a p) : Tells (fun f => Doc.braces (ds f)) a p :=
  h.unlessEmpty (((h.indented.after _).before _).before _) _

theorem beforeBrackets (h : TellsAll ds a p) : Tells (fun f => Doc.beforeBrackets (ds f)) a p :=
  h.unlessEmpty ((h.each _).after _) _

theorem handlers (hds : TellsAll ds a p) (hes : TellsAll es b q) :
    Tells (fun f => Doc.handlers (ds f) (es f)) (a + b) (p ∧ q) :=
  (hds.map fun hd => hd.after _).concat.append (hes.lead _)

theorem enumBody (hds : TellsAll ds a p) (hes : TellsAll es b q) :
    Tells (fun f => Doc.enumBody (ds f) (es f)) (a + b) (p ∧ q) := by
  obtain ⟨cs, rfl, hcs⟩ := hds
  obtain ⟨ms, rfl, hms⟩ := hes
  have hbody (hasMembers : Bool) := (((hcs.constants hasMembers).nest.after "\x7b").append
    (indented ⟨ms, rfl, hms⟩)).before .line |>.before "\x7d"
  cases cs with
  | nil =>
    cases ms with
    | nil =>
      cases hcs
      cases hms
      exact (Tells.const _).of_eq (add_zero 0).symm (and_true _).symm
    | cons => exact hbody true
  | cons => cases ms <;> exact hbody _

theorem sections (hds : TellsAll ds a p) (hes : TellsAll es b q) (hfs : TellsAll fs g r) :
    Tells (fun f => Doc.sections (ds f) (es f) (fs f)) (a + b + g) ((p ∧ q) ∧ r) := by
  refine sepBy _ (.append (.append hds ?_) hfs)
  obtain ⟨is, rfl, his⟩ := hes
  cases is with
  | nil =>
    cases his
    exact .nil
  | cons => exact .one (his.sepBy _)

/-- The items of a rule that is not the default rule. -/
theorem ruleHead (h : TellsAll ds a p) : Tells (fun f => Doc.ruleHead false (ds f)) a p := by
  obtain ⟨es, rfl, h⟩ := h
  cases es with
  | nil => exact .refuse _
  | cons => exact (sep _ ⟨_, rfl, h⟩).after _

theorem ruleBody (isArrow : Bool) (h : TellsAll ds a p) :
    Tells (fun f => Doc.ruleBody isArrow (ds f)) a p := by
  cases isArrow with
  | false => exact h.indented.after _
  | true =>
    obtain ⟨es, rfl, h⟩ := h
    cases h with
    | nil => exact .refuse (.arrowBody 0)
    | @cons d ds _ _ _ _ head tail =>
      cases tail with
      | nil => exact (head.after _).of_eq (add_zero _).symm (and_true _).symm
      | @cons e es =>
        have hbody (f) : Doc.ruleBody true ((d :: e :: es).map (· f)) =
            .refuse (.arrowBody (es.length + 2)) :=
          congrArg (Doc.refuse <| .arrowBody <| · + 2) (List.length_map _)
        simp only [hbody]
        exact .refuse _

theorem switchBody (hds : TellsAll ds a p) (hes : TellsAll es b q) (hfs : TellsAll fs g r) :
    Tells (fun f => Doc.switchBody (ds f) (es f) (fs f)) (a + b + g) ((p ∧ q) ∧ r) := by
  obtain ⟨ds, rfl, hds⟩ := hds
  obtain ⟨es, rfl, hes⟩ := hes
  obtain ⟨fs, rfl, hfs⟩ := hfs
  cases fs with
  | nil =>
    cases hfs
    exact (braces (.append ⟨ds, rfl, hds⟩ ⟨es, rfl, hes⟩)).of_eq (add_zero _).symm
      (and_true _).symm
  | cons =>
    cases ds with
    | nil =>
      cases es with
      | nil =>
        cases hds
        cases hes
        exact (braces ⟨_, rfl, hfs⟩).of_eq (by rw [add_zero, zero_add]) (by rw [true_and, true_and])
      | cons => exact .refuse _
    | cons => exact .refuse _

/-- What a reference that does not create refers to. -/
theorem referred (h : TellsAll ds a p) : Tells (fun f => Doc.referred false (ds f)) a p := by
  obtain ⟨es, rfl, h⟩ := h
  cases es with
  | nil => exact .refuse _
  | cons => exact h.concat

end TellsAll

end JavaSource
