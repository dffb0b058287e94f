import JavaSource.Proofs.Phrases
import JavaSource.Proofs.Ensures
import JavaSource.Proofs.Tokens

/-!
# A source as it was scanned

A `Scan` is a text with its tokens.  What the grammar sees ahead are these tokens
(`Scan.kindAt_eq`, `Scan.token_of_kindAt`), and a shift that it joins takes the place of two or
three `>` that touch, and of which nothing is lost: `Token.split` gives them back
(`Scan.split_joined`).
-/

namespace JavaSource

open Grammar

/-- The `>` that stands `n` characters behind a place. -/
def Token.angle (place : Text.Place) (start n : Nat) : Token :=
  ⟨.gt, ">", ⟨place.line, place.column + n⟩, ⟨start + n, start + n + 1⟩⟩

/-- The symbols that a joined token was made of.  Any other token is one symbol. -/
def Token.split (t : Token) : List Token :=
  match t.kind with
  | .rshift  => [angle t.place t.range.start 0, angle t.place t.range.start 1]
  | .urshift =>
    [angle t.place t.range.start 0, angle t.place t.range.start 1, angle t.place t.range.start 2]
  | _        => [t]

theorem Token.split_eq_self {t : Token} (h : t.kind ≠ .rshift) (h' : t.kind ≠ .urshift) :
    t.split = [t] := by
  unfold split
  split
  · exact absurd ‹_› h
  · exact absurd ‹_› h'
  · rfl

theorem Token.split_ne_nil (t : Token) : t.split ≠ [] := by
  unfold split
  split <;> exact nofun

/-- A text with its tokens. -/
structure Scan where
  text : List Char
  tokens : List Token
  found : ∀ t ∈ tokens, t.FoundIn text
  ended : ∃ init last, tokens = init ++ [last] ∧ last.kind = .eof ∧ ∀ t ∈ init, t.kind ≠ .eof

/-- The scan of a source. -/
def Scan.ofTokenize {source : String} {tokens : List Token} (h : tokenize source = .ok tokens) :
    Scan :=
  ⟨source.toList, tokens, (tokenize_found h).1, (tokenize_found h).2⟩

namespace Scan

variable (scan : Scan)

/-- The source that is read. -/
def source : Source := .ofTokens scan.tokens

theorem getElem?_tokens (i : Nat) : scan.source.tokens[i]? = scan.tokens[i]? := by
  simp only [source, Source.ofTokens, List.getElem?_toArray]

theorem size_tokens : scan.source.tokens.size = scan.tokens.length := by
  simp only [source, Source.ofTokens, List.size_toArray]

variable {scan} {t : Token} {i : Nat}

/-- The end stands behind any other token. -/
theorem succ_lt (h : scan.tokens[i]? = some t) (ht : t.kind ≠ .eof) :
    i + 1 < scan.tokens.length := by
  obtain ⟨init, last, heq, hlast, -⟩ := scan.ended
  have hi : i < scan.tokens.length := (List.getElem?_eq_some_iff.mp h).1
  rw [heq, List.length_append, List.length_singleton] at hi ⊢
  rcases Nat.lt_or_ge i init.length with hlt | hge
  · omega
  · have hi' : i = init.length := by omega
    rw [heq, hi', List.getElem?_concat_length] at h
    exact absurd (Option.some.inj h ▸ hlast) ht

theorem source_ended : scan.source.Ended := fun i t ht he => by
  rw [getElem?_tokens] at ht
  rw [size_tokens]
  exact succ_lt ht he

theorem spelled (h : t ∈ scan.tokens) (ht : t.kind ≠ .eof) : t.Spelled := fun w hw =>
  ((scan.found t h).spelled ht w hw).1

theorem split_token (h : t ∈ scan.tokens) : t.split = [t] := by
  by_cases ht : t.kind = .eof
  · exact Token.split_eq_self (ht ▸ nofun) (ht ▸ nofun)
  · have hscanned := (scan.found t h).scanned ht
    exact Token.split_eq_self hscanned.2.1 hscanned.2.2

/-! ### What lies ahead -/

theorem getElem?_symbols (ts : List Token) (i : Nat) :
    (symbols ts)[i]? = ts[i]?.map fun t =>
      ⟨t.kind, t.text, ts[i + 1]?.any fun u => t.range.stop == u.range.start⟩ := by
  fun_induction symbols ts generalizing i with
  | case1 => rfl
  | case2 t => cases i <;> rfl
  | case3 t u ts ih =>
    cases i with
    | zero => rfl
    | succ i => exact ih i

/-- The symbol ahead of a token. -/
theorem at_eq {s : State} {n : Nat} (h : scan.tokens[s.read + n]? = some t) :
    (scan.source.ahead s).at_ n =
      ⟨t.kind, t.text,
        scan.tokens[s.read + n + 1]?.any fun u => t.range.stop == u.range.start⟩ := by
  simp only [Ahead.at_, Source.ahead, source, Source.ofTokens, List.getElem?_toArray,
    getElem?_symbols, h, Option.map_some, Option.getD_some]

theorem at_eq_final {s : State} {n : Nat} (h : scan.tokens[s.read + n]? = none) :
    (scan.source.ahead s).at_ n = .final := by
  simp only [Ahead.at_, Source.ahead, source, Source.ofTokens, List.getElem?_toArray,
    getElem?_symbols, h, Option.map_none, Option.getD_none]

theorem kindAt_eq {s : State} {n : Nat} (h : scan.tokens[s.read + n]? = some t) :
    (scan.source.ahead s).kindAt n = t.kind := by
  rw [Ahead.kindAt, at_eq h]

/-! ### Joined tokens -/

/-- A `>` stands where its range starts. -/
theorem gt_found (h : t ∈ scan.tokens) (ht : t.kind = .gt) :
    t.text = ">" ∧ t.range.stop = t.range.start + 1 ∧ scan.text[t.range.start]? = some '>' := by
  have hne : t.kind ≠ .eof := ht ▸ nofun
  obtain ⟨htext, hstop, hat⟩ := (scan.found t h).spelled hne ">" (ht ▸ rfl)
  refine ⟨htext, hstop, ?_⟩
  obtain ⟨rest, hrest⟩ := hat
  have hhead : (scan.text.drop t.range.start)[0]? = some '>' := by rw [← hrest]; rfl
  rwa [List.getElem?_drop, Nat.add_zero] at hhead

/-- The first `>` of a run. -/
theorem gt_first (ht : t ∈ scan.tokens) (hk : t.kind = .gt) :
    t = .angle t.place t.range.start 0 := by
  obtain ⟨htext, hstop, -⟩ := gt_found ht hk
  obtain ⟨kind, text, place, start, stop⟩ := t
  obtain rfl : kind = .gt := hk
  obtain rfl : text = ">" := htext
  obtain rfl : stop = start + 1 := hstop
  rfl

/-- The next `>` of a run. -/
theorem gt_next {u : Token} {place : Text.Place} {start n : Nat} (ht : t ∈ scan.tokens)
    (hu : u ∈ scan.tokens) (hangle : t = .angle place start n) (hk : u.kind = .gt)
    (htouch : t.range.stop = u.range.start) : u = .angle place start (n + 1) := by
  obtain ⟨-, -, hchar⟩ := gt_found ht (hangle ▸ rfl)
  obtain ⟨htext, hstop, -⟩ := gt_found hu hk
  have hplace := (scan.found u hu).place
  rw [← htouch] at hstop hplace
  have hplace' : u.place = ⟨t.place.line, t.place.column + 1⟩ := by
    rw [hplace, (scan.found t ht).place, ← Text.placeOf_succ hchar (by decide) (by decide),
      hangle]
    rfl
  obtain ⟨kind, text, place', start', stop⟩ := u
  subst hangle
  obtain rfl : kind = .gt := hk
  obtain rfl : text = ">" := htext
  obtain rfl : start + n + 1 = start' := htouch
  obtain rfl : stop = start + n + 1 + 1 := hstop
  obtain rfl : place' = _ := hplace'
  rfl

/-- A symbol that touches the next one. -/
theorem touching {s : State} {n : Nat} (h : ((scan.source.ahead s).at_ n).touches) :
    ∃ t u, scan.tokens[s.read + n]? = some t ∧ scan.tokens[s.read + n + 1]? = some u ∧
      t.range.stop = u.range.start := by
  cases ht : scan.tokens[s.read + n]? with
  | none =>
    rw [at_eq_final ht] at h
    cases h
  | some t =>
    rw [at_eq ht] at h
    cases hu : scan.tokens[s.read + n + 1]? with
    | none =>
      rw [hu] at h
      cases h
    | some u =>
      rw [hu] at h
      exact ⟨t, u, rfl, rfl, beq_iff_eq.mp h⟩

theorem take_succ {n : Nat} (h : scan.tokens[n]? = some t) :
    scan.tokens.take (n + 1) = scan.tokens.take n ++ [t] := by
  rw [List.take_add_one, h, Option.toList_some]

/-- Two `>` as one token. -/
theorem joined_two {place : Text.Place} {start read : Nat}
    (h₀ : scan.tokens[read]? = some (.angle place start 0))
    (h₁ : scan.tokens[read + 1]? = some (.angle place start 1)) :
    scan.source.joined .rshift read 2 = some ⟨.rshift, ">>", place, ⟨start, start + 2⟩⟩ := by
  have hrange : List.range 2 = [0, 1] := rfl
  simp only [Source.joined, hrange, getElem?_tokens, List.mapM_cons, List.mapM_nil, Nat.add_zero,
    h₀, h₁]
  rfl

/-- Three `>` as one token. -/
theorem joined_three {place : Text.Place} {start read : Nat}
    (h₀ : scan.tokens[read]? = some (.angle place start 0))
    (h₁ : scan.tokens[read + 1]? = some (.angle place start 1))
    (h₂ : scan.tokens[read + 2]? = some (.angle place start 2)) :
    scan.source.joined .urshift read 3 = some ⟨.urshift, ">>>", place, ⟨start, start + 3⟩⟩ := by
  have hrange : List.range 3 = [0, 1, 2] := rfl
  simp only [Source.joined, hrange, getElem?_tokens, List.mapM_cons, List.mapM_nil, Nat.add_zero,
    h₀, h₁, h₂]
  rfl

/-- **A joined shift is a run of `>`, and nothing of it is lost.** -/
theorem split_joined {s : State} {op : TokenKind} {width : Nat}
    (hop : (scan.source.ahead s).operator = (op, width)) (hwidth : width ≠ 1)
    (h : scan.source.joined op s.read width = some t) :
    t.kind = op ∧ t.Spelled ∧ s.read + width < scan.tokens.length ∧
      scan.tokens.take (s.read + width) = scan.tokens.take s.read ++ t.split := by
  unfold Ahead.operator at hop
  split at hop
  · cases hop
    exact absurd rfl hwidth
  split at hop
  · cases hop
    exact absurd rfl hwidth
  rename_i hkind htouch
  simp only [Bool.not_eq_true', Bool.not_eq_false, bne_iff_ne, ne_eq, Decidable.not_not,
    Bool.and_eq_true, beq_iff_eq] at hkind htouch
  obtain ⟨t₀, t₁, h₀, h₁, htouch₀⟩ := touching htouch.1
  have hmem₀ := List.mem_of_getElem? h₀
  have hmem₁ := List.mem_of_getElem? h₁
  obtain ⟨place, start, rfl⟩ : ∃ place start, t₀ = .angle place start 0 :=
    ⟨_, _, gt_first hmem₀ ((kindAt_eq h₀).symm.trans hkind)⟩
  obtain rfl := gt_next hmem₀ hmem₁ rfl ((kindAt_eq h₁).symm.trans htouch.2) htouch₀
  split at hop
  · obtain ⟨rfl, rfl⟩ := Prod.mk.inj hop
    have hjoined : scan.source.joined .rshift s.read 2 = _ := joined_two h₀ h₁
    rw [hjoined, Option.some.injEq] at h
    refine ⟨h ▸ rfl, h ▸ fun w hw => Option.some.inj hw, succ_lt h₁ nofun, ?_⟩
    rw [take_succ h₁, take_succ h₀, List.append_assoc, ← h]
    rfl
  · rename_i htouch'
    simp only [Bool.not_eq_true', Bool.not_eq_false, Bool.and_eq_true, beq_iff_eq] at htouch'
    obtain ⟨t₁', t₂, h₁', h₂, htouch₁⟩ := touching htouch'.1
    obtain rfl := Option.some.inj (h₁.symm.trans h₁')
    obtain rfl := gt_next hmem₁ (List.mem_of_getElem? h₂) rfl
      ((kindAt_eq h₂).symm.trans htouch'.2) htouch₁
    obtain ⟨rfl, rfl⟩ := Prod.mk.inj hop
    have hjoined : scan.source.joined .urshift s.read 3 = _ := joined_three h₀ h₁ h₂
    rw [hjoined, Option.some.injEq] at h
    refine ⟨h ▸ rfl, h ▸ fun w hw => Option.some.inj hw, succ_lt h₂ nofun, ?_⟩
    rw [take_succ h₂, take_succ h₁, take_succ h₀, List.append_assoc, List.append_assoc, ← h]
    rfl

end Scan

end JavaSource
