import JavaSource.Proofs.Numbers.Forms

/-!
# The value of an integer literal

An integer literal is read as the value of its digits in its base, whatever the number of digits and
of underscores between them.  It is not read if a digit is none of the base, as the `8` of `08`, or
if the value takes more than 64 bits.

* `integer?_scanned`: the value of a token.
-/

namespace JavaSource

open Text (isDecimalDigit isBinaryDigit isHexDigit digitValue)
open Literal (baseOf cutLast integer?)

variable {c : Char} {cs : List Char}

/-! ### Digits of a base -/

theorem digitValue_of_isDecimalDigit (h : isDecimalDigit c = true) : digitValue c < 10 := by
  have hrange : ('0' ≤ c && c ≤ '9') = true := h
  rw [digitValue, if_pos hrange]
  rw [Bool.and_eq_true, decide_eq_true_eq, decide_eq_true_eq, Char.le_def, Char.le_def,
    UInt32.le_iff_toNat_le, UInt32.le_iff_toNat_le] at hrange
  have hhigh : c.toNat ≤ 57 := hrange.2
  have hlow : '0'.toNat = 48 := rfl
  omega

theorem digitValue_of_isBinaryDigit (h : isBinaryDigit c = true) : digitValue c < 2 := by
  rw [isBinaryDigit, Bool.or_eq_true, beq_iff_eq, beq_iff_eq] at h
  rcases h with rfl | rfl <;> decide

/-- The digits behind a mark are no letters beyond `f`. -/
theorem BaseMark.digitValue_lt {mark : BaseMark} (h : mark.isDigit c = true) :
    digitValue c < 16 := by
  cases mark with
  | none => exact Nat.lt_trans (digitValue_of_isDecimalDigit h) (by decide)
  | binary upper => exact Nat.lt_trans (digitValue_of_isBinaryDigit h) (by decide)
  | hexadecimal upper => exact of_decide_eq_true h

theorem BaseMark.ne_of_isDigit {mark : BaseMark} {d : Char} (h : mark.isDigit c = true)
    (hd : 16 ≤ digitValue d) : c ≠ d := by
  rintro rfl
  exact absurd (mark.digitValue_lt h) (Nat.not_lt.mpr hd)

/-- Without a mark the base is eight if a zero has digits behind it, and counts for nothing. -/
theorem natural?_baseOf_plain (h : ∀ c ∈ cs, isDecimalDigit c = true) :
    Decimal.natural? (baseOf cs).1 (baseOf cs).2 =
      Decimal.digits? (if cs.head? = some '0' ∧ 1 < cs.length then 8 else 10) cs := by
  have hne {c : Char} (hc : c ∈ cs) (d : Char) (hd : 10 ≤ digitValue d) : c ≠ d := by
    rintro rfl
    exact absurd (digitValue_of_isDecimalDigit (h c hc)) (Nat.not_lt.mpr hd)
  have hplus : '+' ∉ cs := fun hc => hne hc '+' (by decide) rfl
  have hsecond {c d : Char} {cs : List Char} : d ∈ c :: d :: cs :=
    List.mem_cons_of_mem _ List.mem_cons_self
  unfold baseOf
  split
  · exact absurd rfl (hne hsecond 'x' (by decide))
  · exact absurd rfl (hne hsecond 'X' (by decide))
  · exact absurd rfl (hne hsecond 'b' (by decide))
  · exact absurd rfl (hne hsecond 'B' (by decide))
  · rw [if_pos ⟨rfl, Nat.succ_lt_succ (Nat.succ_pos _)⟩, Decimal.digits?_zero_cons (by decide)]
    exact Decimal.natural?_eq_digits? fun hc => hplus (List.mem_cons_of_mem _ hc)
  · rename_i hshort
    rw [if_neg, Decimal.natural?_eq_digits? hplus]
    rintro ⟨hzero, hlength⟩
    rcases cs with _ | ⟨c, _ | ⟨d, ds⟩⟩
    · cases hzero
    · exact absurd hlength (Nat.lt_irrefl 1)
    · obtain rfl := Option.some.inj hzero
      exact hshort d ds rfl

/-- A last character of some kind is cut off, and nothing else. -/
theorem Literal.cutLast_append {isCut : Char → Bool} {front : List Char} {suffix : Option Char}
    (hfront : ∀ c ∈ front.getLast?, isCut c = false) (hsuffix : ∀ c ∈ suffix, isCut c = true) :
    cutLast isCut (front ++ suffix.toList) = (front, suffix.isSome) := by
  cases suffix with
  | some c =>
    rw [Option.toList_some, cutLast, List.getLast?_concat, Option.any_some, if_pos (hsuffix c rfl),
      List.dropLast_concat]
    rfl
  | none =>
    have hplain : front.getLast?.any isCut = false := by
      cases hlast : front.getLast? with
      | none => rfl
      | some c => exact hfront c hlast
    rw [Option.toList_none, List.append_nil, cutLast, hplain]
    rfl

namespace IntegerForm

variable (form : IntegerForm)

theorem isDigit_of_mem (h : c ∈ form.digits) : form.mark.isDigit c = true :=
  form.isRun.isDigit_of_mem h

theorem digits_ne_nil : form.digits ≠ [] :=
  form.isRun.bareDigits_ne_nil <| Bool.eq_false_iff.mpr fun h =>
    form.mark.ne_of_isDigit h (by decide) rfl

/-! ### The parts of a literal -/

/-- The suffix is cut off.  It is not mistaken for a digit, nor a digit for it. -/
theorem cutLast_chars : cutLast (fun c => c == 'l' || c == 'L') form.chars =
    (form.mark.chars ++ form.run, form.suffix.isSome) := by
  rw [chars, ← List.append_assoc]
  refine Literal.cutLast_append (fun c hc => ?_) fun c hc => ?_
  · rw [List.getLast?_append_of_ne_nil _ form.isRun.ne_nil] at hc
    have hdigit := form.isRun.last_isDigit hc
    rw [beq_eq_false_iff_ne.mpr (form.mark.ne_of_isDigit hdigit (by decide)),
      beq_eq_false_iff_ne.mpr (form.mark.ne_of_isDigit hdigit (by decide))]
    rfl
  · rw [Bool.or_eq_true, beq_iff_eq, beq_iff_eq]
    exact form.isSuffix c hc

theorem filter_chars : (form.mark.chars ++ form.run).filter (· != '_') =
    form.mark.chars ++ form.digits := by
  have hmark : form.mark.chars.filter (· != '_') = form.mark.chars := by
    cases form.mark with
    | none => rfl
    | binary upper => cases upper <;> rfl
    | hexadecimal upper => cases upper <;> rfl
  rw [List.filter_append, hmark]
  rfl

/-- The base is told by the mark, or by a zero in front of other digits. -/
theorem natural?_baseOf :
    Decimal.natural? (baseOf (form.mark.chars ++ form.digits)).1
        (baseOf (form.mark.chars ++ form.digits)).2 =
      Decimal.digits? form.base form.digits := by
  have hdigits : ∀ c ∈ form.digits, form.mark.isDigit c = true := fun c => form.isDigit_of_mem
  have hplus : '+' ∉ form.digits := fun hc =>
    form.mark.ne_of_isDigit (hdigits _ hc) (by decide) rfl
  unfold base
  cases hmark : form.mark with
  | hexadecimal upper => cases upper <;> exact Decimal.natural?_eq_digits? hplus
  | binary upper => cases upper <;> exact Decimal.natural?_eq_digits? hplus
  | none =>
    rw [hmark] at hdigits
    exact natural?_baseOf_plain hdigits

/-- A literal is read as the value of its digits, if they are of its base and the value fits. -/
theorem integer?_chars_eq_some_iff {value : UInt64} {long : Bool} :
    integer? (String.ofList form.chars) = some (value, long) ↔
      (∀ c ∈ form.digits, digitValue c < form.base) ∧ form.value < 2 ^ 64 ∧
        form.value.toUInt64 = value ∧ form.suffix.isSome = long := by
  have hread : integer? (String.ofList form.chars) =
      (Decimal.digits? form.base form.digits).bind fun value =>
        if value < 2 ^ 64 then some (value.toUInt64, form.suffix.isSome) else none := by
    rw [integer?, String.toList_ofList, form.cutLast_chars]
    dsimp only
    rw [form.filter_chars, ← form.natural?_baseOf]
    rfl
  simp only [hread, Option.bind_eq_some_iff, Option.ite_none_right_eq_some, Option.some.injEq,
    Prod.mk.injEq, Decimal.digits?_eq_some_iff]
  constructor
  · rintro ⟨_, ⟨-, hbase, rfl⟩, hfits⟩
    exact ⟨hbase, hfits⟩
  · rintro ⟨hbase, hfits⟩
    exact ⟨_, ⟨form.digits_ne_nil, hbase, rfl⟩, hfits⟩

end IntegerForm

/-- **An integer literal is read as the value of its digits.**  It is read if they are digits of its
base and their value fits in 64 bits, and then as that value and as a long if there is a suffix. -/
theorem integer?_scanned {lexer behind : Lexer} {t : Token} (h : lexer.next = (.ok t, behind))
    (hkind : t.kind = .integerLiteral) :
    (∃ form : IntegerForm, t.text.toList = form.chars) ∧
      ∀ form : IntegerForm, t.text.toList = form.chars →
        ((∃ value long, integer? t.text = some (value, long)) ↔
          (∀ c ∈ form.digits, digitValue c < form.base) ∧ form.value < 2 ^ 64) ∧
        ∀ value long, integer? t.text = some (value, long) →
          value.toNat = form.value ∧ (long = true ↔ ∃ c, form.suffix = some c) := by
  refine ⟨Lexer.next_integer h hkind, fun form hform => ?_⟩
  have htext : t.text = String.ofList form.chars := by rw [← hform, String.ofList_toList]
  simp only [htext, form.integer?_chars_eq_some_iff]
  refine ⟨⟨?_, ?_⟩, ?_⟩
  · rintro ⟨value, long, hbase, hfits, -⟩
    exact ⟨hbase, hfits⟩
  · rintro ⟨hbase, hfits⟩
    exact ⟨_, _, hbase, hfits, rfl, rfl⟩
  · rintro _ _ ⟨-, hfits, rfl, rfl⟩
    exact ⟨Nat.mod_eq_of_lt hfits, Option.isSome_iff_exists⟩

/-- The octal literal `0_17L`, in front of a plus. -/
theorem integer?_scanned_octal : ∃ t behind,
    (Lexer.ofText "0_17L+1".toList).next = (.ok t, behind) ∧ t.kind = .integerLiteral ∧
    t.text = "0_17L" ∧ ∃ form : IntegerForm, t.text.toList = form.chars ∧
      (∀ c ∈ form.digits, digitValue c < form.base) ∧ form.value = 15 ∧
      ∃ c, form.suffix = some c := by
  generalize hlexer : Lexer.ofText "0_17L+1".toList = lexer
  have hnumber : lexer.next.1.toOption.map (fun t => (t.kind, t.text)) =
      some (.integerLiteral, "0_17L") := by
    rw [← hlexer]
    decide +kernel
  have hread : integer? "0_17L" = some (15, true) := by decide +kernel
  match hnext : lexer.next with
  | (.error fault, behind) =>
    rw [hnext] at hnumber
    cases hnumber
  | (.ok t, behind) =>
    rw [hnext] at hnumber
    obtain ⟨hkind, htext⟩ := Prod.mk.inj (Option.some.inj hnumber)
    obtain ⟨⟨form, hform⟩, hall⟩ := integer?_scanned hnext hkind
    obtain ⟨hiff, hvalue⟩ := hall form hform
    rw [htext] at hiff hvalue
    obtain ⟨hvalue, hlong⟩ := hvalue 15 true hread
    exact ⟨t, behind, rfl, hkind, htext, form, hform, (hiff.mp ⟨15, true, hread⟩).1, hvalue.symm,
      hlong.mp rfl⟩

end JavaSource
