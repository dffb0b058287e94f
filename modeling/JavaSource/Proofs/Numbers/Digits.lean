import JavaSource.Literal.Integer
import JavaSource.Proofs.Tiling
import Mathlib.Data.Nat.Digits.Lemmas

/-!
# Digits

What digits stand for, and how they are written with underscores between them.

* `digitsValue`: the value of digits in a base.  Reading digits gives it if all of them are digits
  of the base (`digits?_eq_some_iff`), and the digits of a number have the number for their value
  (`digitsValue_toDigits`).
* `IsRun`: digits with underscores between them.  The lexer takes a run for what it is
  (`digitRun_append`) and takes nothing but runs (`isRun_digitRun`).
-/

namespace JavaSource

open Text (digitValue)

variable {base value : Nat} {c : Char} {cs ds : List Char}

/-! ### Values -/

/-- The number that digits stand for in a base. -/
def digitsValue (base : Nat) (cs : List Char) : Nat :=
  Nat.ofDigits base (cs.reverse.map digitValue)

theorem digitsValue_singleton (base : Nat) (c : Char) : digitsValue base [c] = digitValue c :=
  Nat.ofDigits_singleton

theorem digitsValue_append (base : Nat) (cs ds : List Char) :
    digitsValue base (cs ++ ds) = digitsValue base cs * base ^ ds.length + digitsValue base ds := by
  rw [digitsValue, List.reverse_append, List.map_append, Nat.ofDigits_append, List.length_map,
    List.length_reverse, Nat.add_comm, Nat.mul_comm]
  rfl

theorem digitsValue_concat (base : Nat) (cs : List Char) (c : Char) :
    digitsValue base (cs ++ [c]) = digitsValue base cs * base + digitValue c := by
  rw [digitsValue_append, digitsValue_singleton, List.length_singleton, Nat.pow_one]

theorem digitsValue_cons (base : Nat) (c : Char) (cs : List Char) :
    digitsValue base (c :: cs) = digitValue c * base ^ cs.length + digitsValue base cs := by
  rw [← digitsValue_singleton base c, ← digitsValue_append, List.singleton_append]

theorem digitValue_eq_zero_iff : digitValue c = 0 ↔ c = '0' := by
  refine ⟨fun h => ?_, fun h => h ▸ rfl⟩
  unfold digitValue at h
  split at h
  · rename_i hrange
    rw [Bool.and_eq_true, decide_eq_true_eq, Char.le_def, UInt32.le_iff_toNat_le] at hrange
    have hlow : 48 ≤ c.toNat := hrange.1
    have hzero : c.toNat - 48 = 0 := h
    exact Char.toNat_inj.mp (by change c.toNat = 48; omega)
  · split at h
    · omega
    · split at h <;> omega

theorem digitsValue_eq_zero_iff (hbase : 0 < base) :
    digitsValue base cs = 0 ↔ ∀ c ∈ cs, c = '0' := by
  induction cs with
  | nil => exact ⟨fun _ => nofun, fun _ => rfl⟩
  | cons c cs ih =>
    rw [digitsValue_cons, Nat.add_eq_zero_iff, Nat.mul_eq_zero, digitValue_eq_zero_iff, ih,
      List.forall_mem_cons, or_iff_left (Nat.pow_pos hbase).ne']

/-! ### Digits of a number -/

theorem digitValue_digitChar {d : Nat} (hd : d < 16) : digitValue d.digitChar = d := by
  have hall : ∀ d < 16, digitValue d.digitChar = d := by decide
  exact hall d hd

theorem exists_digitChar_of_mem_toDigits (hbase : 1 < base) (n : Nat)
    (hc : c ∈ Nat.toDigits base n) : ∃ d < base, c = d.digitChar := by
  induction n using Nat.strongRecOn with
  | ind n ih =>
    rw [Nat.toDigits_eq_if hbase] at hc
    split at hc
    · exact ⟨n, ‹_›, List.mem_singleton.mp hc⟩
    · rcases List.mem_append.mp hc with hc | hc
      · exact ih (n / base) (Nat.div_lt_self (by omega) hbase) hc
      · exact ⟨n % base, Nat.mod_lt n (by omega), List.mem_singleton.mp hc⟩

/-- The digits of a number stand for it. -/
theorem digitsValue_toDigits (hbase : 1 < base) (hle : base ≤ 16) (n : Nat) :
    digitsValue base (Nat.toDigits base n) = n := by
  induction n using Nat.strongRecOn with
  | ind n ih =>
    rw [Nat.toDigits_eq_if hbase]
    split
    · rw [digitsValue_singleton, digitValue_digitChar (by omega)]
    · have hlast : n % base < 16 := Nat.lt_of_lt_of_le (Nat.mod_lt n (by omega)) hle
      rw [digitsValue_concat, ih (n / base) (Nat.div_lt_self (by omega) hbase),
        digitValue_digitChar hlast, Nat.mul_comm]
      exact Nat.div_add_mod n base

/-- Only zero has a zero in front. -/
theorem eq_zero_of_head?_toDigits (hbase : 1 < base) {n : Nat}
    (h : (Nat.toDigits base n).head? = some '0') : n = 0 := by
  induction n using Nat.strongRecOn with
  | ind n ih =>
    rw [Nat.toDigits_eq_if hbase] at h
    split at h
    · exact Nat.digitChar_eq_zero.mp (Option.some.inj h)
    · rename_i hn
      rw [List.head?_append_of_ne_nil _ Nat.toDigits_ne_nil] at h
      have hzero := ih (n / base) (Nat.div_lt_self (by omega) hbase) h
      exact absurd (Nat.div_eq_zero_iff_lt (by omega) |>.mp hzero) hn

/-! ### Reading digits -/

namespace Decimal

/-- One more digit of a number. -/
def push (base value : Nat) (c : Char) : Option Nat :=
  if digitValue c < base then some (value * base + digitValue c) else none

/-- Digits are put together as long as they are of the base. -/
theorem foldlM_push_eq_some_iff {value : Nat} :
    cs.foldlM (push base) 0 = some value ↔
      (∀ c ∈ cs, digitValue c < base) ∧ digitsValue base cs = value := by
  induction cs using List.reverseRecOn generalizing value with
  | nil => simp [digitsValue]
  | append_singleton cs c ih =>
    have hlast (front : Nat) : [c].foldlM (push base) front = push base front c := by
      simp only [List.foldlM_cons, List.foldlM_nil, bind_pure]
    have hpush {front : Nat} : push base front c = some value ↔
        digitValue c < base ∧ front * base + digitValue c = value := by
      rw [push, Option.ite_none_right_eq_some, Option.some.injEq]
    rw [List.foldlM_append, Option.bind_eq_bind, Option.bind_eq_some_iff, digitsValue_concat,
      List.forall_mem_append, List.forall_mem_singleton]
    constructor
    · rintro ⟨front, hfront, hvalue⟩
      obtain ⟨hall, rfl⟩ := ih.mp hfront
      rw [hlast] at hvalue
      obtain ⟨hc, hvalue⟩ := hpush.mp hvalue
      exact ⟨⟨hall, hc⟩, hvalue⟩
    · rintro ⟨⟨hall, hc⟩, hvalue⟩
      exact ⟨_, ih.mpr ⟨hall, rfl⟩, (hlast _).trans (hpush.mpr ⟨hc, hvalue⟩)⟩

/-- **Digits are read if there are some and all are of the base, as their value.** -/
theorem digits?_eq_some_iff :
    digits? base cs = some value ↔
      cs ≠ [] ∧ (∀ c ∈ cs, digitValue c < base) ∧ digitsValue base cs = value := by
  have hfold : digits? base cs = if cs.isEmpty then none else cs.foldlM (push base) 0 := rfl
  rw [hfold, ← foldlM_push_eq_some_iff]
  cases cs with
  | nil => simp
  | cons c cs => simp

/-- A zero in front of other digits counts for nothing. -/
theorem digits?_zero_cons (hbase : 0 < base) (c : Char) (cs : List Char) :
    digits? base ('0' :: c :: cs) = digits? base (c :: cs) := by
  have hzero : push base 0 '0' = some 0 := by
    rw [push, if_pos (by exact hbase), Nat.zero_mul]
    rfl
  have hfold : digits? base ('0' :: c :: cs) =
      push base 0 '0' >>= fun value => (c :: cs).foldlM (push base) value := rfl
  rw [hfold, hzero]
  rfl

theorem natural?_eq_digits? (h : '+' ∉ cs) : natural? base cs = digits? base cs := by
  unfold natural?
  split
  · exact absurd (List.mem_cons_self ..) h
  · rfl

end Decimal

/-! ### Runs -/

/-- Digits with underscores between them: there is one at either end. -/
structure IsRun (isDigit : Char → Bool) (run : List Char) : Prop where
  starts : ∃ c ∈ run.head?, isDigit c = true
  continues : ∀ c ∈ run, isDigit c = true ∨ c = '_'
  ends : run.getLast? ≠ some '_'

/-- A run without its underscores. -/
def bareDigits (run : List Char) : List Char := run.filter (· != '_')

namespace IsRun

variable {isDigit : Char → Bool} {run : List Char}

theorem ne_nil (h : IsRun isDigit run) : run ≠ [] := by
  rintro rfl
  obtain ⟨c, hc, -⟩ := h.starts
  cases hc

theorem isDigit_of_mem (h : IsRun isDigit run) (hc : c ∈ bareDigits run) : isDigit c = true := by
  obtain ⟨hmem, hne⟩ := List.mem_filter.mp hc
  exact (h.continues c hmem).resolve_right (bne_iff_ne.mp hne)

theorem bareDigits_ne_nil (h : IsRun isDigit run) (hscore : isDigit '_' = false) :
    bareDigits run ≠ [] := by
  obtain ⟨c, hc, hdigit⟩ := h.starts
  have hne : c ≠ '_' := by
    rintro rfl
    rw [hscore] at hdigit
    cases hdigit
  exact List.ne_nil_of_mem (List.mem_filter.mpr ⟨List.mem_of_mem_head? hc, bne_iff_ne.mpr hne⟩)

/-- The last character of a run is a digit. -/
theorem last_isDigit (h : IsRun isDigit run) (hc : c ∈ run.getLast?) : isDigit c = true := by
  refine (h.continues c (List.mem_of_mem_getLast? hc)).resolve_right ?_
  rintro rfl
  exact h.ends hc

/-- Digits alone are a run. -/
theorem of_digits (hne : run ≠ []) (h : ∀ c ∈ run, isDigit c = true)
    (hscore : isDigit '_' = false) : IsRun isDigit run := by
  obtain ⟨c, cs, rfl⟩ := List.exists_cons_of_ne_nil hne
  refine ⟨⟨c, rfl, h c List.mem_cons_self⟩, fun d hd => .inl (h d hd), fun hlast => ?_⟩
  have hdigit := h '_' (List.mem_of_getLast? hlast)
  rw [hscore] at hdigit
  cases hdigit

end IsRun

theorem bareDigits_eq_self (h : '_' ∉ cs) : bareDigits cs = cs :=
  List.filter_eq_self.mpr fun _ hc => bne_iff_ne.mpr fun heq => h (heq ▸ hc)

namespace Lexer

variable {isDigit : Char → Bool} {run : List Char}

theorem isPrefix_digitRun (isDigit : Char → Bool) (cs : List Char) :
    digitRun isDigit cs <+: cs := by
  cases cs with
  | nil => exact List.prefix_rfl
  | cons c cs =>
    rw [digitRun]
    split
    · exact List.cons_prefix_cons.mpr ⟨rfl, List.takeWhile_prefix _⟩
    · exact List.nil_prefix

/-- A text is the digits at its start and what is behind them. -/
theorem digitRun_append_drop (isDigit : Char → Bool) (cs : List Char) :
    digitRun isDigit cs ++ cs.drop (digitRun isDigit cs).length = cs :=
  List.prefix_iff_eq_append.mp (isPrefix_digitRun isDigit cs)

/-- **What is taken for digits is a run**, unless it is nothing or ends in an underscore. -/
theorem isRun_digitRun (hne : digitRun isDigit cs ≠ [])
    (hends : isRagged (digitRun isDigit cs) = false) : IsRun isDigit (digitRun isDigit cs) := by
  have hlast : (digitRun isDigit cs).getLast? ≠ some '_' := fun h => by
    rw [isRagged, h] at hends
    cases hends
  cases cs with
  | nil => exact absurd rfl hne
  | cons c cs =>
    rw [digitRun] at hne hlast ⊢
    split at hne
    · rename_i hc
      rw [if_pos hc] at hlast ⊢
      refine ⟨⟨c, rfl, hc⟩, List.forall_mem_cons.mpr ⟨.inl hc, fun d hd => ?_⟩, hlast⟩
      have hd := List.all_eq_true.mp List.all_takeWhile d hd
      rwa [Bool.or_eq_true, beq_iff_eq] at hd
    · exact absurd rfl hne

/-- **A run is taken whole** where something else follows. -/
theorem digitRun_append (h : IsRun isDigit run) {rest : List Char}
    (hrest : ∀ c ∈ rest.head?, isDigit c = false ∧ c ≠ '_') :
    digitRun isDigit (run ++ rest) = run := by
  obtain ⟨c, cs, rfl⟩ := List.exists_cons_of_ne_nil h.ne_nil
  have hc : isDigit c = true := by
    obtain ⟨d, hd, hdigit⟩ := h.starts
    exact Option.some.inj hd ▸ hdigit
  have hall : ∀ d ∈ cs, (isDigit d || d == '_') = true := fun d hd => by
    rw [Bool.or_eq_true, beq_iff_eq]
    exact h.continues d (List.mem_cons_of_mem _ hd)
  have hstop : rest.takeWhile (fun d => isDigit d || d == '_') = [] := by
    cases rest with
    | nil => rfl
    | cons d rest =>
      obtain ⟨hd, hne⟩ := hrest d rfl
      exact List.takeWhile_cons_of_neg (by rw [hd, beq_eq_false_iff_ne.mpr hne]; nofun)
  rw [List.cons_append, digitRun, if_pos hc, List.takeWhile_append_of_pos hall, hstop,
    List.append_nil]

theorem isRagged_of_isRun (h : IsRun isDigit run) : isRagged run = false :=
  beq_eq_false_iff_ne.mpr h.ends

end Lexer

end JavaSource
