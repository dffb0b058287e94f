import Mathlib.Data.List.Infix
import JavaSource.Message

/-!
# Filling holes

The holes of a message are filled one after another, each over the text as filled so far, so an
argument that holds the hole of a later one is itself filled later on.  `substitute` fills all
holes at once, and what it puts in it does not look at again.

A text sets its holes off if it has no other braces and no hole has a digit or another hole right
behind it (`Piece.setOff`).  In such a text the two differ in the arguments only: no occurrence of
a hole reaches over a character that no hole has (`replaceAll_append_cons`), so what is put in
never makes a hole together with what stands around it.

* `replaceAll_eq_self_iff`: when replacing changes nothing.
* `fillFrom_expand`: filling a text in pieces fills what stands in each of its holes.
* **`fillFrom_eq_substitute`**: filling one after another is filling at once with the arguments as they
  are once all later ones have been filled into them.
* `settled_eq_self`: they stay as they are if none of them holds the hole of a later one.
-/

namespace JavaSource.Template

variable {pattern by_ front back cs text : List Char} {c : Char} {i j k : Nat}
variable {arg : String} {args : List String}

/-! ### Replacing -/

theorem replaceAll_front (hpattern : pattern ≠ []) (by_ cs : List Char) :
    replaceAll pattern by_ (pattern ++ cs) = by_ ++ replaceAll pattern by_ cs := by
  cases pattern with
  | nil => exact absurd rfl hpattern
  | cons p ps =>
    have hfront : ((p :: ps).isPrefixOf (p :: (ps ++ cs)) && !(p :: ps).isEmpty) = true := by
      rw [Bool.and_eq_true, List.isPrefixOf_iff_prefix]
      exact ⟨List.prefix_append _ _, rfl⟩
    rw [List.cons_append, replaceAll, if_pos hfront, List.length_cons, Nat.add_sub_cancel,
      List.drop_left]

theorem replaceAll_cons (h : ¬ pattern <+: c :: cs) (by_ : List Char) :
    replaceAll pattern by_ (c :: cs) = c :: replaceAll pattern by_ cs := by
  have hfront : ¬ (pattern.isPrefixOf (c :: cs) && !pattern.isEmpty) = true := fun hfront =>
    h (List.isPrefixOf_iff_prefix.mp (Bool.and_eq_true_iff.mp hfront).1)
  rw [replaceAll, if_neg hfront]

/-- Replacing goes from one occurrence to the next. -/
theorem replaceAll_induction {motive : List Char → Prop} (hpattern : pattern ≠ [])
    (nil : motive []) (occurs : ∀ cs, motive cs → motive (pattern ++ cs))
    (skip : ∀ c cs, ¬ pattern <+: c :: cs → motive cs → motive (c :: cs)) (cs : List Char) :
    motive cs := by
  fun_induction replaceAll pattern [] cs with
  | case1 => exact nil
  | case2 c cs h ih =>
    obtain ⟨rest, hrest⟩ := List.isPrefixOf_iff_prefix.mp (Bool.and_eq_true_iff.mp h).1
    rw [← hrest]
    refine occurs rest ?_
    obtain ⟨p, ps, rfl⟩ := List.exists_cons_of_ne_nil hpattern
    rw [List.cons_append] at hrest
    obtain ⟨rfl, rfl⟩ := List.cons.inj hrest
    rwa [List.length_cons, Nat.add_sub_cancel, List.drop_left] at ih
  | case3 c cs h ih =>
    refine skip c cs (fun hfront => h ?_) ih
    rw [Bool.and_eq_true, List.isPrefixOf_iff_prefix, Bool.not_eq_true', List.isEmpty_eq_false_iff]
    exact ⟨hfront, hpattern⟩

theorem prefix_of_prefix_append_cons (hc : c ∉ pattern) (h : pattern <+: front ++ c :: back) :
    pattern <+: front := by
  rcases List.prefix_or_prefix_of_prefix h (List.prefix_append front (c :: back)) with
    hshort | ⟨rest, rfl⟩
  · exact hshort
  · rw [List.prefix_append_right_inj] at h
    cases rest with
    | nil => rw [List.append_nil]
    | cons d rest =>
      obtain ⟨rfl, -⟩ := List.cons_prefix_cons.mp h
      exact absurd (List.mem_append_right front List.mem_cons_self) hc

/-- No occurrence reaches over a character that the pattern does not have. -/
theorem replaceAll_append_cons (hpattern : pattern ≠ []) (hc : c ∉ pattern)
    (by_ front back : List Char) : replaceAll pattern by_ (front ++ c :: back) =
      replaceAll pattern by_ front ++ c :: replaceAll pattern by_ back := by
  have hhead (rest : List Char) : ¬ pattern <+: c :: rest := fun h => by
    obtain ⟨p, ps, rfl⟩ := List.exists_cons_of_ne_nil hpattern
    obtain ⟨rfl, -⟩ := List.cons_prefix_cons.mp h
    exact hc List.mem_cons_self
  induction front using replaceAll_induction hpattern with
  | nil => rw [List.nil_append, replaceAll_cons (hhead back), replaceAll, List.nil_append]
  | occurs front ih =>
    rw [List.append_assoc, replaceAll_front hpattern, replaceAll_front hpattern, ih,
      List.append_assoc]
  | skip d front hskip ih =>
    have hover : ¬ pattern <+: d :: (front ++ c :: back) := fun h =>
      hskip (prefix_of_prefix_append_cons hc h)
    rw [List.cons_append, replaceAll_cons hover, replaceAll_cons hskip, ih, List.cons_append]

theorem replaceAll_eq_self (h : ¬ pattern <:+: cs) (by_ : List Char) :
    replaceAll pattern by_ cs = cs := by
  induction cs with
  | nil => rw [replaceAll]
  | cons c cs ih =>
    rw [List.infix_cons_iff, not_or] at h
    rw [replaceAll_cons h.1, ih h.2]

/-- Each occurrence that is replaced makes the same difference to the length. -/
theorem exists_length_replaceAll (hpattern : pattern ≠ []) (by_ cs : List Char) : ∃ n,
    (replaceAll pattern by_ cs).length + n * pattern.length = cs.length + n * by_.length ∧
      (pattern <:+: cs → 0 < n) := by
  induction cs using replaceAll_induction hpattern with
  | nil => exact ⟨0, by rw [replaceAll, Nat.zero_mul, Nat.zero_mul],
      fun h => absurd (List.infix_nil.mp h) hpattern⟩
  | occurs cs ih =>
    obtain ⟨n, hn, -⟩ := ih
    refine ⟨n + 1, ?_, fun _ => Nat.succ_pos n⟩
    rw [replaceAll_front hpattern, List.length_append, List.length_append, Nat.succ_mul,
      Nat.succ_mul]
    omega
  | skip c cs hskip ih =>
    obtain ⟨n, hn, hpos⟩ := ih
    refine ⟨n, ?_, fun h => hpos ((List.infix_cons_iff.mp h).resolve_left hskip)⟩
    rw [replaceAll_cons hskip, List.length_cons, List.length_cons]
    omega

/-- **Replacing changes nothing** where the pattern does not occur, or becomes itself. -/
theorem replaceAll_eq_self_iff (hpattern : pattern ≠ []) :
    replaceAll pattern by_ cs = cs ↔ ¬ pattern <:+: cs ∨ by_ = pattern := by
  constructor
  · induction cs using replaceAll_induction hpattern with
    | nil => exact fun _ => .inl fun h => hpattern (List.infix_nil.mp h)
    | occurs cs ih =>
      intro h
      rw [replaceAll_front hpattern] at h
      -- What comes behind the first occurrence makes up for no difference in length.
      obtain ⟨n, hn, -⟩ := exists_length_replaceAll hpattern by_ cs
      have hlength := congrArg List.length h
      rw [List.length_append, List.length_append] at hlength
      have hmul : (n + 1) * by_.length = (n + 1) * pattern.length := by
        rw [Nat.succ_mul, Nat.succ_mul]
        omega
      exact .inr (List.append_inj_left h (Nat.eq_of_mul_eq_mul_left (Nat.succ_pos n) hmul))
    | skip c cs hskip ih =>
      intro h
      rw [replaceAll_cons hskip] at h
      refine (ih (List.cons.inj h).2).imp_left fun hnot hinfix => ?_
      exact hnot ((List.infix_cons_iff.mp hinfix).resolve_left hskip)
  · rintro (h | rfl)
    · exact replaceAll_eq_self h by_
    · induction cs using replaceAll_induction hpattern with
      | nil => rw [replaceAll]
      | occurs cs ih => rw [replaceAll_front hpattern, ih]
      | skip c cs hskip ih => rw [replaceAll_cons hskip, ih]

/-! ### Holes -/

theorem hole_eq (i : Nat) : hole i = '\x7b' :: (Nat.toDigits 10 i ++ ['\x7d']) := by
  rw [hole, Nat.toString_eq_ofList_toDigits, String.toList_ofList, List.cons_append]

theorem hole_ne_nil (i : Nat) : hole i ≠ [] := List.cons_ne_nil _ _

theorem not_mem_hole (hopen : c ≠ '\x7b') (hclose : c ≠ '\x7d') (hdigit : c.isDigit = false)
    (i : Nat) : c ∉ hole i := by
  rw [hole_eq, List.mem_cons, List.mem_append, List.mem_singleton]
  rintro (h | h | h)
  · exact hopen h
  · rw [Nat.isDigit_of_mem_toDigits (by decide) (by decide) h] at hdigit
    cases hdigit
  · exact hclose h

theorem not_hole_front (hopen : c ≠ '\x7b') (i : Nat) (cs : List Char) :
    ¬ hole i <+: c :: cs := fun h => by
  rw [hole_eq, List.cons_prefix_cons] at h
  exact hopen h.1.symm

/-- Holes are told apart by their first characters. -/
theorem eq_of_hole_front (h : hole i <+: hole j ++ cs) : i = j := by
  have hdigits (n : Nat) (rest : List Char) :
      (Nat.toDigits 10 n ++ '\x7d' :: rest).takeWhile Char.isDigit = Nat.toDigits 10 n := by
    rw [List.takeWhile_append_of_pos fun d hd =>
      Nat.isDigit_of_mem_toDigits (by decide) (by decide) hd,
      List.takeWhile_cons_of_neg (by decide), List.append_nil]
  obtain ⟨rest, hrest⟩ := h
  rw [hole_eq, hole_eq, List.cons_append, List.cons_append, List.append_assoc, List.append_assoc]
    at hrest
  have hsame := congrArg (List.takeWhile Char.isDigit) (List.cons.inj hrest).2
  rw [List.singleton_append, List.singleton_append, hdigits, hdigits] at hsame
  rw [← @Nat.ofDigitChars_ten_toDigits i, hsame, Nat.ofDigitChars_ten_toDigits]

theorem replaceAll_hole_self (i : Nat) (by_ : List Char) :
    replaceAll (hole i) by_ (hole i) = by_ := by
  have h := replaceAll_front (hole_ne_nil i) by_ []
  rwa [List.append_nil, replaceAll, List.append_nil] at h

/-- A hole is no part of another one. -/
theorem replaceAll_hole (h : i ≠ j) (by_ : List Char) :
    replaceAll (hole j) by_ (hole i) = hole i := by
  have hfront : ¬ hole j <+: hole i := fun hfront => by
    rw [← List.append_nil (hole i)] at hfront
    exact h (eq_of_hole_front hfront).symm
  have hinfix : ¬ hole j <:+: Nat.toDigits 10 i ++ ['\x7d'] := fun hinfix => by
    have hmem : '\x7b' ∈ Nat.toDigits 10 i ++ ['\x7d'] :=
      hinfix.subset (by rw [hole_eq]; exact List.mem_cons_self)
    rw [List.mem_append, List.mem_singleton] at hmem
    rcases hmem with hmem | hmem
    · exact absurd (Nat.isDigit_of_mem_toDigits (by decide) (by decide) hmem) (by decide)
    · exact absurd hmem (by decide)
  rw [hole_eq i] at hfront ⊢
  rw [replaceAll_cons hfront, replaceAll_eq_self hinfix]

/-! ### Filling all holes at once -/

/-- A text in which the holes for all arguments are filled at once. -/
def substitute (args : List String) (text : List Char) : List Char :=
  match text with
  | []      => []
  | c :: cs =>
    match args.zipIdx.find? fun (_, i) => (hole i).isPrefixOf (c :: cs) with
    | some (arg, i) => arg.toList ++ substitute args (cs.drop ((hole i).length - 1))
    | none          => c :: substitute args cs
termination_by text.length
decreasing_by all_goals simp [List.length_drop]; try omega

theorem substitute_hole (harg : args[i]? = some arg) (cs : List Char) :
    substitute args (hole i ++ cs) = arg.toList ++ substitute args cs := by
  have hfind : args.zipIdx.find? (fun x => (hole x.2).isPrefixOf (hole i ++ cs)) =
      some (arg, i) := by
    cases h : args.zipIdx.find? (fun x => (hole x.2).isPrefixOf (hole i ++ cs)) with
    | none =>
      refine absurd (List.prefix_append (hole i) cs) fun hfront => ?_
      exact List.find?_eq_none.mp h (arg, i) (List.mem_zipIdx_iff_getElem?.mpr harg)
        (List.isPrefixOf_iff_prefix.mpr hfront)
    | some x =>
      obtain ⟨arg', i'⟩ := x
      have hfront := List.find?_some h
      obtain rfl := eq_of_hole_front (List.isPrefixOf_iff_prefix.mp hfront)
      have harg' := List.mem_zipIdx_iff_getElem?.mp (List.mem_of_find?_eq_some h)
      rw [Option.some.inj (harg.symm.trans harg')]
  rw [hole_eq] at hfind ⊢
  rw [List.cons_append] at hfind ⊢
  rw [substitute, hfind]
  dsimp only
  rw [hole_eq, List.length_cons, Nat.add_sub_cancel, List.drop_left]

theorem substitute_cons (h : ∀ i < args.length, ¬ hole i <+: c :: cs) :
    substitute args (c :: cs) = c :: substitute args cs := by
  have hfind : args.zipIdx.find? (fun x => (hole x.2).isPrefixOf (c :: cs)) = none := by
    refine List.find?_eq_none.mpr fun x hx hfront => ?_
    refine h x.2 ?_ (List.isPrefixOf_iff_prefix.mp hfront)
    exact (List.getElem?_eq_some_iff.mp (List.mem_zipIdx_iff_getElem?.mp hx)).1
  rw [substitute, hfind]

theorem substitute_append (h : '\x7b' ∉ front) (back : List Char) :
    substitute args (front ++ back) = front ++ substitute args back := by
  induction front with
  | nil => rfl
  | cons c front ih =>
    rw [List.mem_cons, not_or] at h
    rw [List.cons_append, substitute_cons fun i _ => not_hole_front (Ne.symm h.1) i _, ih h.2,
      List.cons_append]

/-- A hole for which there is no argument stays. -/
theorem substitute_hole_of_none (harg : args[i]? = none) (cs : List Char) :
    substitute args (hole i ++ cs) = hole i ++ substitute args cs := by
  have hnone : ∀ j < args.length, ¬ hole j <+: hole i ++ cs := fun j hj hfront => by
    obtain rfl := eq_of_hole_front hfront
    exact absurd hj (Nat.not_lt.mpr (List.getElem?_eq_none_iff.mp harg))
  have hplain : '\x7b' ∉ Nat.toDigits 10 i ++ ['\x7d'] := fun hmem => by
    rw [List.mem_append, List.mem_singleton] at hmem
    rcases hmem with hmem | hmem
    · exact absurd (Nat.isDigit_of_mem_toDigits (by decide) (by decide) hmem) (by decide)
    · exact absurd hmem (by decide)
  rw [hole_eq] at hnone ⊢
  rw [List.cons_append] at hnone ⊢
  rw [substitute_cons hnone, substitute_append hplain, List.cons_append]

/-! ### Texts in pieces -/

/-- A piece of a text. -/
inductive Piece where
  | char (c : Char)
  | hole (index : Nat)

namespace Piece

/-- Pieces as text, with something in each of their holes. -/
def expand (filling : Nat → List Char) : List Piece → List Char
  | []            => []
  | char c :: ps  => c :: expand filling ps
  | .hole i :: ps => filling i ++ expand filling ps

/-- Whether pieces start with neither a digit nor a hole. -/
def clears : List Piece → Bool
  | []           => true
  | char c :: _  => !c.isDigit
  | .hole _ :: _ => false

/-- Whether there are no braces but those of holes, and no digit or hole right behind a hole. -/
def setOff : List Piece → Bool
  | []            => true
  | char c :: ps  => c != '\x7b' && c != '\x7d' && setOff ps
  | .hole _ :: ps => clears ps && setOff ps

/-- The pieces of words. -/
def words (text : String) : List Piece := text.toList.map char

variable {ps : List Piece} {filling : Nat → List Char}

theorem expand_append (ps qs : List Piece) :
    expand filling (ps ++ qs) = expand filling ps ++ expand filling qs := by
  induction ps with
  | nil => rfl
  | cons p ps ih =>
    cases p with
    | char c => rw [List.cons_append, expand, expand, ih, List.cons_append]
    | hole i => rw [List.cons_append, expand, expand, ih, List.append_assoc]

theorem expand_words (text : String) : expand filling (words text) = text.toList := by
  rw [words]
  induction text.toList with
  | nil => rfl
  | cons c cs ih => rw [List.map_cons, expand, ih]

theorem expand_hole (i : Nat) : expand filling [.hole i] = filling i := List.append_nil _

theorem setOff_char (h : setOff (char c :: ps) = true) :
    c ≠ '\x7b' ∧ c ≠ '\x7d' ∧ setOff ps = true := by
  simpa [setOff, and_assoc] using h

theorem setOff_hole (h : setOff (.hole i :: ps) = true) : clears ps = true ∧ setOff ps = true := by
  simpa [setOff] using h

/-- A text without pieces behind it, or with a character behind it that no hole has. -/
theorem eq_nil_or_cons_of_clears (hclears : clears ps = true) (h : setOff ps = true) :
    ps = [] ∨ ∃ c ps', ps = char c :: ps' ∧ ∀ i, c ∉ Template.hole i := by
  match ps with
  | [] => exact .inl rfl
  | char c :: ps =>
    obtain ⟨hopen, hclose, -⟩ := setOff_char h
    rw [clears, Bool.not_eq_true'] at hclears
    exact .inr ⟨c, ps, rfl, not_mem_hole hopen hclose hclears⟩

/-- **Replacing a hole in pieces** is replacing it in what fills each of them. -/
theorem replaceAll_expand (h : setOff ps = true) (filling : Nat → List Char) :
    replaceAll (Template.hole j) by_ (expand filling ps) =
      expand (fun i => replaceAll (Template.hole j) by_ (filling i)) ps := by
  induction ps with
  | nil => rw [expand, expand, replaceAll]
  | cons p ps ih =>
    cases p with
    | char c =>
      obtain ⟨hopen, -, hps⟩ := setOff_char h
      rw [expand, expand, replaceAll_cons (not_hole_front hopen j _), ih hps]
    | hole i =>
      obtain ⟨hclears, hps⟩ := setOff_hole h
      rw [expand, expand]
      rcases eq_nil_or_cons_of_clears hclears hps with rfl | ⟨c, ps, rfl, hc⟩
      · rw [expand, expand, List.append_nil, List.append_nil]
      · have htail := ih hps
        rw [expand, replaceAll_cons (not_hole_front (setOff_char hps).1 j _)] at htail
        rw [expand, replaceAll_append_cons (hole_ne_nil j) (hc j), htail]

/-- Filling a text in pieces fills what stands in its holes. -/
theorem fillFrom_expand (h : setOff ps = true) (filling : Nat → List Char) (args : List String) :
    fillFrom k (expand filling ps) args = expand (fun i => fillFrom k (filling i) args) ps := by
  induction args generalizing k filling with
  | nil => rfl
  | cons arg args ih => rw [fillFrom, replaceAll_expand h, ih]; rfl

/-- What stands in the holes for the arguments. -/
def holding (args : List String) (i : Nat) : List Char :=
  (args[i]?).elim (Template.hole i) String.toList

/-- All holes of a text in pieces are filled at once. -/
theorem substitute_expand (h : setOff ps = true) (args : List String) :
    substitute args (expand Template.hole ps) = expand (holding args) ps := by
  induction ps with
  | nil => rw [expand, expand, substitute]
  | cons p ps ih =>
    cases p with
    | char c =>
      obtain ⟨hopen, -, hps⟩ := setOff_char h
      rw [expand, expand, substitute_cons fun i _ => not_hole_front hopen i _, ih hps]
    | hole i =>
      rw [expand, expand, holding]
      cases harg : args[i]? with
      | none => rw [substitute_hole_of_none harg, ih (setOff_hole h).2, Option.elim_none]
      | some arg => rw [substitute_hole harg, ih (setOff_hole h).2, Option.elim_some]

end Piece

/-! ### Filling one hole after another -/

/-- Arguments from some index on, with all later ones filled into each. -/
def settled (index : Nat) : List String → List String
  | []          => []
  | arg :: args => String.ofList (fillFrom (index + 1) arg.toList args) :: settled (index + 1) args

/-- What a hole is filled with in the end. -/
theorem fillFrom_hole (args : List String) (hk : k ≤ i) :
    fillFrom k (hole i) args = ((settled k args)[i - k]?).elim (hole i) String.toList := by
  induction args generalizing k with
  | nil => rfl
  | cons arg args ih =>
    rw [fillFrom, settled]
    rcases Nat.eq_or_lt_of_le hk with rfl | hlt
    · rw [replaceAll_hole_self, Nat.sub_self, List.getElem?_cons_zero, Option.elim_some,
        String.toList_ofList]
    · rw [replaceAll_hole (Nat.ne_of_gt hlt), ih hlt,
        show i - k = i - (k + 1) + 1 by omega, List.getElem?_cons_succ]

/-- **In a text that sets its holes off, filling one hole after another is filling all at once**,
with arguments into which all later ones have been filled. -/
theorem fillFrom_eq_substitute {ps : List Piece} (h : Piece.setOff ps = true)
    (args : List String) : fillFrom 0 (Piece.expand hole ps) args =
      substitute (settled 0 args) (Piece.expand hole ps) := by
  rw [Piece.fillFrom_expand h, Piece.substitute_expand h]
  congr 1
  funext i
  rw [fillFrom_hole args (Nat.zero_le i), Nat.sub_zero, Piece.holding]

theorem fillFrom_eq_self (h : ∀ j < args.length, ¬ hole (k + j) <:+: text) :
    fillFrom k text args = text := by
  induction args generalizing k with
  | nil => rfl
  | cons arg args ih =>
    have hhole : ¬ hole k <:+: text := h 0 (Nat.succ_pos _)
    rw [fillFrom, replaceAll_eq_self hhole]
    refine ih fun j hj => ?_
    rw [Nat.add_assoc, Nat.add_comm 1 j]
    exact h (j + 1) (Nat.succ_lt_succ hj)

/-- Arguments none of which holds the hole of a later one stay as they are. -/
theorem settled_eq_self (h : ∀ i j arg, args[i]? = some arg → i < j → j < args.length →
    ¬ hole (k + j) <:+: arg.toList) : settled k args = args := by
  induction args generalizing k with
  | nil => rfl
  | cons arg args ih =>
    have hshift (j : Nat) : k + 1 + j = k + (j + 1) := by omega
    rw [settled, ih fun i j arg' harg hij hj => by
      rw [hshift]
      exact h (i + 1) (j + 1) arg' harg (Nat.succ_lt_succ hij) (Nat.succ_lt_succ hj),
      fillFrom_eq_self fun j hj => ?_, String.ofList_toList]
    rw [hshift]
    exact h 0 (j + 1) arg rfl (Nat.succ_pos j) (Nat.succ_lt_succ hj)

end JavaSource.Template
