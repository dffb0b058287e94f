import JavaSource.Proofs.Scan
import JavaSource.Proofs.Standing
import JavaSource.Proofs.Termination

/-!
# Symbols as they are spelled

The symbols of a text are spelled as their kinds are, only a `>` touches the next one, and the last
one and no other is the end.  There is a text for any such symbols: they are written one behind the
other, with a blank behind each one that does not touch the next.

* `scanned_iff`: symbols are those of a text if they are spelled as their kinds are.
-/

namespace JavaSource.Grammar

/-- Symbols of a source that was scanned. -/
def Scanned (ss : List Symbol) : Prop := ∃ scan : Scan, scan.source.unplaced = .ofSymbols ss

/-- A symbol as it may stand in front of another one. -/
structure Symbol.SpelledBefore (s next : Symbol) : Prop where
  isScanned : s.kind.IsScanned
  text : s.kind.text?.getD s.text = s.text
  touches : s.touches = true → s.kind = .gt ∧ next.kind = .gt

instance (s next : Symbol) : Decidable (s.SpelledBefore next) :=
  decidable_of_iff ((s.kind ≠ .eof ∧ s.kind ≠ .rshift ∧ s.kind ≠ .urshift) ∧
      s.kind.text?.getD s.text = s.text ∧ (s.touches = true → s.kind = .gt ∧ next.kind = .gt))
    ⟨fun ⟨hkind, htext, htouches⟩ => ⟨hkind, htext, htouches⟩,
      fun h => ⟨h.isScanned, h.text, h.touches⟩⟩

/-- Symbols that are spelled as their kinds are, up to the end. -/
def Spelled : List Symbol → Prop
  | []           => False
  | [s]          => s.kind = .eof ∧ s.touches = false
  | s :: t :: ss => s.SpelledBefore t ∧ Spelled (t :: ss)

instance decidableSpelled : DecidablePred Spelled
  | []           => inferInstanceAs (Decidable False)
  | [s]          => inferInstanceAs (Decidable (s.kind = .eof ∧ s.touches = false))
  | s :: t :: ss =>
    have := decidableSpelled (t :: ss)
    inferInstanceAs (Decidable (s.SpelledBefore t ∧ Spelled (t :: ss)))

/-- The characters of symbols. -/
def written : List Symbol → List Char
  | []      => []
  | s :: ss => s.text.toList ++ if s.touches then written ss else ' ' :: written ss

/-- The tokens of symbols that are written from an offset on. -/
def tokensFrom (lines : Text.Lines) (offset : Nat) : List Symbol → List Token
  | []      => []
  | s :: ss =>
    let stop := offset + s.text.toList.length
    ⟨s.kind, s.text, lines.placeOf offset, ⟨offset, stop⟩⟩ ::
      tokensFrom lines (if s.touches then stop else stop + 1) ss

variable {ss : List Symbol}

theorem tokensFrom_found {text : List Char} {offset : Nat} (h : Spelled ss)
    (hwritten : text.drop offset = written ss) :
    ∀ t ∈ tokensFrom (.ofText text) offset ss, t.FoundIn text := by
  induction ss generalizing offset with
  | nil => cases h
  | cons s ss ih =>
    cases ss with
    | nil =>
      intro t ht
      obtain rfl := List.mem_singleton.mp ht
      exact ⟨rfl, fun hne => absurd h.1 hne, fun hne => absurd h.1 hne⟩
    | cons next ss =>
      obtain ⟨hspelled, hrest⟩ := h
      rw [tokensFrom, List.forall_mem_cons]
      refine ⟨⟨rfl, fun _ => hspelled.isScanned, fun _ w hw => ?_⟩, ih hrest ?_⟩
      · have htext := hspelled.text
        rw [hw] at htext
        obtain rfl : w = s.text := htext
        exact ⟨rfl, rfl, _, hwritten.symm⟩
      · have hbehind : text.drop (offset + s.text.toList.length) =
            if s.touches then written (next :: ss) else ' ' :: written (next :: ss) := by
          rw [← List.drop_drop, hwritten, written, List.drop_left]
        split at hbehind
        · rw [if_pos ‹_›, hbehind]
        · rw [if_neg ‹_›, ← List.drop_drop, hbehind]
          rfl

theorem tokensFrom_ended {lines : Text.Lines} {offset : Nat} (h : Spelled ss) :
    ∃ init last, tokensFrom lines offset ss = init ++ [last] ∧ last.kind = .eof ∧
      ∀ t ∈ init, t.kind ≠ .eof := by
  induction ss generalizing offset with
  | nil => cases h
  | cons s ss ih =>
    cases ss with
    | nil => exact ⟨[], _, rfl, h.1, nofun⟩
    | cons next ss =>
      obtain ⟨init, last, heq, hlast, hinit⟩ := ih h.2
      exact ⟨_ :: init, last, by rw [tokensFrom, heq]; rfl, hlast,
        List.forall_mem_cons.mpr ⟨h.1.isScanned.1, hinit⟩⟩

theorem tokensFrom_unplaced {lines : Text.Lines} {offset : Nat} :
    (tokensFrom lines offset ss).map Token.unplaced = ss.map Symbol.token := by
  induction ss generalizing offset with
  | nil => rfl
  | cons s ss ih => exact congrArg (_ :: ·) ih

theorem settle_tokensFrom {lines : Text.Lines} {offset : Nat} (h : Spelled ss) :
    settle (symbols (tokensFrom lines offset ss)) = ss := by
  induction ss generalizing offset with
  | nil => rfl
  | cons s ss ih =>
    obtain ⟨kind, text, touches⟩ := s
    cases ss with
    | nil =>
      obtain rfl : touches = false := h.2
      rfl
    | cons next ss =>
      obtain ⟨hspelled, hrest⟩ := h
      rw [tokensFrom, tokensFrom, settle_symbols_cons, ← tokensFrom, ih hrest]
      refine congrArg (Symbol.mk kind text · :: next :: ss) ?_
      cases touches with
      | true =>
        obtain ⟨hkind, hnext⟩ : kind = .gt ∧ next.kind = .gt := hspelled.touches rfl
        simp [hkind, hnext]
      | false => simp

/-- Symbols of a text are spelled. -/
theorem spelled_settle {text : List Char} {init : List Token} {last : Token}
    (hfound : ∀ t ∈ init ++ [last], t.FoundIn text) (hlast : last.kind = .eof)
    (hinit : ∀ t ∈ init, t.kind ≠ .eof) : Spelled (settle (symbols (init ++ [last]))) := by
  induction init with
  | nil => exact ⟨hlast, rfl⟩
  | cons t init ih =>
    obtain ⟨ht, hinit⟩ := List.forall_mem_cons.mp hinit
    obtain ⟨hfirst, hfound⟩ := List.forall_mem_cons.mp hfound
    have hrest := ih hfound hinit
    obtain ⟨u, us, hsplit⟩ : ∃ u us, init ++ [last] = u :: us :=
      List.exists_cons_of_ne_nil (List.append_ne_nil_of_right_ne_nil _ (List.cons_ne_nil last []))
    have hkinds := map_kind_settle (symbols (u :: us))
    rw [hsplit] at hrest
    rw [List.cons_append, hsplit, settle_symbols_cons]
    cases hsettle : settle (symbols (u :: us)) with
    | nil =>
      rw [hsettle] at hrest
      cases hrest
    | cons next ss =>
      rw [hsettle] at hrest hkinds
      have hnext : next.kind = u.kind := by
        have hhead := congrArg List.head? hkinds
        cases us <;> exact Option.some.inj hhead
      refine ⟨⟨hfirst.scanned ht, ?_, fun htouches => ?_⟩, hrest⟩
      · cases hw : t.kind.text? with
        | none => rfl
        | some w => exact (hfirst.spelled ht w hw).1.symm
      obtain ⟨-, hgt⟩ := (Bool.and_eq_true ..).mp htouches
      obtain ⟨hkind, hkind'⟩ := (Bool.and_eq_true ..).mp hgt
      exact ⟨beq_iff_eq.mp hkind, hnext.trans (beq_iff_eq.mp hkind')⟩

/-- **Symbols are those of a text if they are spelled as their kinds are.** -/
theorem scanned_iff : Scanned ss ↔ Spelled ss := by
  constructor
  · rintro ⟨scan, hscan⟩
    obtain ⟨init, last, htokens, hlast, hinit⟩ := scan.ended
    have hsymbols : settle (symbols scan.tokens) = ss := by
      have := congrArg (fun source : Source => source.symbols.toList) hscan
      simpa [Source.unplaced, Source.ofSymbols, Scan.source, Source.ofTokens] using this
    rw [← hsymbols, htokens]
    exact spelled_settle (htokens ▸ scan.found) hlast hinit
  · intro h
    refine ⟨⟨written ss, tokensFrom (.ofText (written ss)) 0 ss, tokensFrom_found h rfl,
      tokensFrom_ended h⟩, ?_⟩
    simp only [Scan.source, Source.unplaced, Source.ofTokens, Source.ofSymbols, List.map_toArray,
      tokensFrom_unplaced, settle_tokensFrom h]

/-- Another symbol may stand where one stands that is no `>`. -/
theorem Spelled.exchange {xs ys : List Symbol} {x y : Symbol} (h : Spelled (xs ++ x :: ys))
    (hx : x.kind ≠ .eof) (hgt : x.kind ≠ .gt) (hy : ∀ next, y.SpelledBefore next) :
    Spelled (xs ++ y :: ys) := by
  induction xs with
  | nil =>
    cases ys with
    | nil => exact absurd h.1 hx
    | cons next ys => exact ⟨hy next, h.2⟩
  | cons z xs ih =>
    cases xs with
    | nil =>
      refine ⟨⟨h.1.isScanned, h.1.text, fun htouches => ?_⟩, ih h.2⟩
      exact absurd (h.1.touches htouches).2 hgt
    | cons next xs => exact ⟨h.1, ih h.2⟩

/-- Symbols that end with the end make a whole source. -/
theorem Source.whole_ofSymbols (init : List Symbol) {last : Symbol} (hlast : last.kind = .eof) :
    (Source.ofSymbols (init ++ [last])).Whole := by
  have hsize : (Source.ofSymbols (init ++ [last])).tokens.size = init.length + 1 := by
    simp [ofSymbols]
  have hend : (Source.ofSymbols (init ++ [last])).tokenAt init.length = last.token := by
    simp [tokenAt, ofSymbols]
  refine ⟨fun i => ?_, fun i hclear => Nat.lt_of_not_le fun hle => ?_⟩
  · have hsymbol : (Source.ofSymbols (init ++ [last])).symbols[i]? = (init ++ [last])[i]? :=
      List.getElem?_toArray
    rw [kindAt, hsymbol]
    rcases Nat.lt_or_ge i (init.length + 1) with hi | hi
    · have ht : (init ++ [last])[i]?.map Symbol.token =
          some ((Source.ofSymbols (init ++ [last])).tokenAt i) :=
        (Source.getElem?_ofSymbols i).symm.trans (getElem?_tokens (hsize ▸ hi))
      obtain ⟨x, hx, htoken⟩ := Option.map_eq_some_iff.mp ht
      rw [hx, ← htoken]
      rfl
    · have ht : (init ++ [last])[i]? = none := List.getElem?_eq_none (by simpa using hi)
      have hat : (Source.ofSymbols (init ++ [last])).tokenAt i = last.token := by
        rw [tokenAt, getElem?_ofSymbols, ht]
        simp [ofSymbols]
      rw [ht, hat]
      exact hlast.symm
  · have hkind := hclear init.length (by omega)
    rw [hend] at hkind
    exact hkind hlast

namespace Scanned

variable {ss : List Symbol}

theorem map_kind {scan : Scan} (h : scan.source.unplaced = .ofSymbols ss) :
    scan.tokens.map Token.kind = ss.map Symbol.kind := by
  have htokens : scan.tokens.map Token.unplaced = ss.map Symbol.token := by
    have := congrArg (fun source : Source => source.tokens.toList) h
    simpa [Source.unplaced, Source.ofSymbols, Scan.source, Source.ofTokens] using this
  have hkinds := congrArg (List.map Token.kind) htokens
  rwa [List.map_map, List.map_map] at hkinds

/-- Symbols that were scanned end with the end. -/
theorem ended (h : Scanned ss) :
    ∃ init last, ss = init ++ [last] ∧ last.kind = .eof ∧ ∀ x ∈ init, x.kind ≠ .eof := by
  obtain ⟨scan, hscan⟩ := h
  obtain ⟨init, last, htokens, hlast, hinit⟩ := scan.ended
  have hkinds := map_kind hscan
  rw [htokens, List.map_append, List.map_singleton] at hkinds
  obtain ⟨init', rest, rfl, hinit', hrest⟩ := List.map_eq_append_iff.mp hkinds.symm
  obtain ⟨last', rfl, hlast'⟩ := List.map_eq_singleton_iff.mp hrest
  refine ⟨init', last', rfl, hlast'.trans hlast, fun x hx => ?_⟩
  have hmem : x.kind ∈ init.map Token.kind := hinit' ▸ List.mem_map_of_mem hx
  obtain ⟨t, ht, hkind⟩ := List.mem_map.mp hmem
  exact hkind ▸ hinit t ht

theorem whole (h : Scanned ss) : (Source.ofSymbols ss).Whole := by
  obtain ⟨init, last, rfl, hlast, -⟩ := h.ended
  exact Source.whole_ofSymbols init hlast

variable {xs ys : List Symbol}

/-- What stands in front of something is not the end. -/
theorem ne_eof (h : Scanned (xs ++ ys)) (hys : ys ≠ []) : ∀ x ∈ xs, x.kind ≠ .eof := by
  obtain ⟨init, last, heq, -, hinit⟩ := h.ended
  have hdrop := congrArg List.dropLast heq
  rw [List.dropLast_concat, List.dropLast_append_of_ne_nil hys] at hdrop
  intro x hx
  exact hinit x (hdrop ▸ List.mem_append_left _ hx)

/-- A source does not end in front of something. -/
theorem clear (h : Scanned (xs ++ ys)) (hys : ys ≠ []) :
    (Source.ofSymbols (xs ++ ys)).Clear xs.length := by
  intro n hn
  have hget : (Source.ofSymbols (xs ++ ys)).tokens[n]? = some xs[n].token := by
    rw [Source.getElem?_ofSymbols, List.getElem?_append_left hn, List.getElem?_eq_getElem hn]
    rfl
  rw [Source.tokenAt, hget]
  exact h.ne_eof hys _ (List.getElem_mem hn)

end Scanned

end JavaSource.Grammar
