import JavaSource.Proofs.Operators.Printed
import JavaSource.Proofs.Operators.Scanned

/-!
# Documents that lex to symbols

`d.Lexes front behind ss` says that the document `d` has a text, and that this text lexes to the
symbols `ss` in front of other text, whatever the indent and the depth.  Line breaks are blanks to
the lexer, so no layout shows in the symbols.

Tokens must not run together.  `behind` says what the document asks of the text behind it, and
`front` what it offers to the text in front of it (`Edge`), so documents can be put together where
the first one asks for what the second one offers (`Doc.Lexes.append`).  `Doc.LexesAt` says so of
one indent and one depth, where other things may be asked for and offered.
-/

namespace JavaSource

open Grammar (Symbol)
open Lexer (gap lexeme)
open Text (isNamePart)

/-- Whether a character is neither part of a word nor of an operator. -/
def isDelimiter (c : Char) : Bool := [' ', '\n', ';', ',', '(', ')', '\x7b', '\x7d'].contains c

/-- What may be asked of a text: that a word in front of it is over, or an operator as well. -/
inductive Edge where
  | any
  | word
  | operator

/-- What is asked for is so. -/
def Edge.Holds (cs : List Char) : Edge → Prop
  | any      => True
  | word     => EndsName cs
  | operator => cs.head?.all isDelimiter = true

theorem ne_of_isDelimiter {c d : Char} (h : isDelimiter c = true) (hd : isDelimiter d = false) :
    c ≠ d := by
  rintro rfl
  rw [h] at hd
  cases hd

/-- Where a delimiter stands everything is over. -/
theorem Edge.Holds.of_isDelimiter {c : Char} (hc : isDelimiter c = true) (cs : List Char)
    (e : Edge) : e.Holds (c :: cs) := by
  cases e with
  | any => trivial
  | word =>
    refine .cons ?_ (ne_of_isDelimiter hc (by decide)) cs
    have hmem : c ∈ [' ', '\n', ';', ',', '(', ')', '\x7b', '\x7d'] :=
      List.contains_iff_mem.mp hc
    have hall : [' ', '\n', ';', ',', '(', ')', '\x7b', '\x7d'].all (!isNamePart ·) = true := rfl
    exact Bool.not_eq_true' _ ▸ List.all_eq_true.mp hall c hmem
  | operator => exact hc

/-! ### Line breaks -/

namespace Lexes

variable {rest : List Char} {ss : List Symbol}

theorem blanks (n : Nat) (h : Lexes rest ss) : Lexes (List.replicate n ' ' ++ rest) ss := by
  induction n with
  | zero => exact h
  | succ n ih => exact ih.blank

theorem newline (h : Lexes rest ss) : Lexes ('\n' :: rest) ss := by
  refine h.behind (k := 1) ?_ rfl
  rw [gap]
  · rfl
  · rintro _ ⟨⟩
  · rintro _ ⟨⟩

end Lexes

/-- A line break is a delimiter and blanks. -/
theorem Doc.exists_breakText (indent depth : Nat) : ∃ c n, isDelimiter c = true ∧
    (breakText indent depth).toList = c :: List.replicate n ' ' ∧
    ∀ {rest ss}, JavaSource.Lexes rest ss →
      JavaSource.Lexes ((breakText indent depth).toList ++ rest) ss := by
  by_cases hindent : indent = 0
  · have htext : (breakText indent depth).toList = [' '] := by
      rw [breakText, if_pos hindent]
      rfl
    exact ⟨' ', 0, rfl, htext, fun h => htext ▸ h.blank⟩
  · have htext : (breakText indent depth).toList = '\n' :: List.replicate (indent * depth) ' ' := by
      rw [breakText, if_neg hindent, String.toList_append, margin, String.toList_ofList]
      simp
    refine ⟨'\n', indent * depth, rfl, htext, fun h => ?_⟩
    rw [htext]
    exact (h.blanks _).newline

/-! ### Documents -/

/-- Whatever the layout, a document has a text that lexes to some symbols in front of other text. -/
def Doc.Lexes (d : Doc) (front behind : Edge) (ss : List Symbol) : Prop :=
  ∀ indent depth written, ∃ cs : List Char,
    d.write indent depth written = .ok (written ++ String.ofList cs) ∧
    ∀ {rest ss'}, behind.Holds rest → JavaSource.Lexes rest ss' →
      JavaSource.Lexes (cs ++ rest) (ss ++ ss') ∧ front.Holds (cs ++ rest)

/-- At one indent and depth, a document has a text that lexes to some symbols in front of other
text.  What it asks for and what it offers may be anything that is so of a text. -/
def Doc.LexesAt (indent depth : Nat) (d : Doc) (front behind : List Char → Prop)
    (ss : List Symbol) : Prop :=
  ∀ written, ∃ cs : List Char,
    d.write indent depth written = .ok (written ++ String.ofList cs) ∧
    ∀ {rest ss'}, behind rest → JavaSource.Lexes rest ss' →
      JavaSource.Lexes (cs ++ rest) (ss ++ ss') ∧ front (cs ++ rest)

/-- What is so everywhere is so at one place. -/
theorem Doc.Lexes.here {d : Doc} {p r : Edge} {ss : List Symbol} (h : d.Lexes p r ss)
    {indent depth : Nat} : d.LexesAt indent depth (p.Holds ·) (r.Holds ·) ss := h indent depth

theorem Doc.Lexes.of_here {d : Doc} {p r : Edge} {ss : List Symbol}
    (h : ∀ {indent depth : Nat}, d.LexesAt indent depth (p.Holds ·) (r.Holds ·) ss) :
    d.Lexes p r ss := fun _ _ => h

namespace Doc.LexesAt

variable {a b d : Doc} {front middle behind : List Char → Prop} {ss ss' : List Symbol}
  {indent depth : Nat}

theorem of_eq (h : d.LexesAt indent depth front behind ss) (heq : ss = ss') :
    d.LexesAt indent depth front behind ss' := heq ▸ h

theorem nil : Doc.nil.LexesAt indent depth front front [] := fun written =>
  ⟨[], congrArg Except.ok (String.append_empty (s := written)).symm, fun hends h => ⟨h, hends⟩⟩

theorem append (h : a.LexesAt indent depth front middle ss)
    (h' : b.LexesAt indent depth middle behind ss') :
    (a ++ b).LexesAt indent depth front behind (ss ++ ss') := by
  intro written
  obtain ⟨cs, hwrite, hlexes⟩ := h written
  obtain ⟨cs', hwrite', hlexes'⟩ := h' (written ++ String.ofList cs)
  refine ⟨cs ++ cs', ?_, fun hends hrest => ?_⟩
  · change (do Doc.write indent depth (← Doc.write indent depth written a) b) = _
    rw [hwrite]
    change Doc.write indent depth _ b = _
    rw [hwrite', String.ofList_append, String.append_assoc]
  · obtain ⟨hrest', hends'⟩ := hlexes' hends hrest
    rw [List.append_assoc, List.append_assoc]
    exact hlexes hends' hrest'

theorem concat (h : d.LexesAt indent depth front behind ss) :
    (Doc.concat [d]).LexesAt indent depth front behind ss :=
  (h.append .nil).of_eq (List.append_nil ss)

/-- What is asked for may be more. -/
theorem behind_mono {behind' : List Char → Prop} (h : d.LexesAt indent depth front behind ss)
    (hbehind : ∀ rest, behind' rest → behind rest) : d.LexesAt indent depth front behind' ss :=
  fun written => by
    obtain ⟨cs, hwrite, hlexes⟩ := h written
    exact ⟨cs, hwrite, fun hends => hlexes (hbehind _ hends)⟩

theorem nest (h : d.LexesAt indent (depth + 1) front behind ss) :
    (Doc.nest d).LexesAt indent depth front behind ss := h

/-- A text that lexes to symbols in front of other text, and starts with a character. -/
theorem text {s : String} {c : Char} {cs : List Char} (hs : s.toList = c :: cs)
    (hfront : ∀ rest, front (c :: rest)) (h : ∀ {rest ss'}, behind rest →
      JavaSource.Lexes rest ss' → JavaSource.Lexes (s.toList ++ rest) (ss ++ ss')) :
    (Doc.text s).LexesAt indent depth front behind ss := fun _ =>
  ⟨s.toList, by rw [write, String.ofList_toList], fun hends hrest =>
    ⟨h hends hrest, by rw [hs]; exact hfront _⟩⟩

/-- A colon that no other one follows. -/
theorem colon (hfront : ∀ rest, front (':' :: rest)) : (Doc.text ":").LexesAt indent depth front
    (Edge.operator.Holds ·) [TokenKind.colon.symbol] :=
  .text rfl hfront fun {rest ss'} hends hrest => by
    have hsymbol : Lexer.symbol (':' :: rest) = some (1, .colon) := by
      rw [Lexer.symbol]
      rintro _ rfl
      cases hends
    exact hrest.sign rfl (by decide) (lexeme_of_symbol rfl (by decide) hsymbol) rfl (by decide)
      (by decide)

/-- What a document lexes to is what its text does. -/
theorem render (h : d.LexesAt indent 0 front behind ss) (hbehind : behind []) :
    ∃ text, d.render indent = .ok text ∧ JavaSource.Lexes text.toList ss := by
  obtain ⟨cs, hwrite, hlexes⟩ := h ""
  refine ⟨String.ofList cs, by rw [Doc.render, hwrite, String.empty_append], ?_⟩
  have hcs := (hlexes hbehind .nil).1
  rwa [List.append_nil, List.append_nil, ← String.toList_ofList (l := cs)] at hcs

end Doc.LexesAt

namespace Doc.Lexes

variable {a b d : Doc} {p q r : Edge} {ss ss' : List Symbol}

theorem of_eq (h : d.Lexes p r ss) (heq : ss = ss') : d.Lexes p r ss' := heq ▸ h

theorem nil : Doc.nil.Lexes p p [] := .of_here .nil

/-- Where nothing is asked for, what stands behind nothing does not matter. -/
theorem nothing : Doc.nil.Lexes .any r [] := fun _ _ written =>
  ⟨[], congrArg Except.ok (String.append_empty (s := written)).symm, fun _ h => ⟨h, trivial⟩⟩

theorem append (h : a.Lexes p q ss) (h' : b.Lexes q r ss') : (a ++ b).Lexes p r (ss ++ ss') :=
  .of_here (h.here.append h'.here)

/-- Whatever stands behind a document that asks for nothing. -/
theorem ahead_of_any (h : d.Lexes p .any ss) : d.Lexes p r ss := fun indent depth written => by
  obtain ⟨cs, hwrite, hlexes⟩ := h indent depth written
  exact ⟨cs, hwrite, fun _ hrest => hlexes trivial hrest⟩

theorem concat (h : d.Lexes p r ss) : (Doc.concat [d]).Lexes p r ss :=
  (h.append .nil).of_eq (List.append_nil ss)

theorem nest (h : d.Lexes p r ss) : (Doc.nest d).Lexes p r ss := .of_here h.here.nest

theorem line : Doc.line.Lexes p .any [] := fun indent depth _ => by
  obtain ⟨c, n, hc, htext, hlexes⟩ := exists_breakText indent depth
  refine ⟨(breakText indent depth).toList, by rw [write, String.ofList_toList], fun _ h =>
    ⟨hlexes h, ?_⟩⟩
  rw [htext]
  exact .of_isDelimiter hc _ p

/-- A text that lexes to symbols in front of other text. -/
theorem words {s : String} (h : ∀ {rest ss'}, r.Holds rest → JavaSource.Lexes rest ss' →
      JavaSource.Lexes (s.toList ++ rest) (ss ++ ss')) : (Doc.text s).Lexes .any r ss :=
  fun _ _ _ => ⟨s.toList, by rw [write, String.ofList_toList], fun hends hrest =>
    ⟨h hends hrest, trivial⟩⟩

/-- A text that does so and starts with a delimiter. -/
theorem text {s : String} {c : Char} {cs : List Char} (hs : s.toList = c :: cs)
    (hc : isDelimiter c = true) (h : ∀ {rest ss'}, r.Holds rest → JavaSource.Lexes rest ss' →
      JavaSource.Lexes (s.toList ++ rest) (ss ++ ss')) : (Doc.text s).Lexes p r ss :=
  .of_here (.text hs (fun rest => .of_isDelimiter hc rest p) h)

/-- A document without line breaks. -/
theorem of_flat {cs : List Char} (hd : d.Flat cs) (h : ∀ {rest ss'}, r.Holds rest →
      JavaSource.Lexes rest ss' → JavaSource.Lexes (cs ++ rest) (ss ++ ss')) :
    d.Lexes .any r ss := fun indent depth written =>
  ⟨cs, hd.write indent depth written, fun hends hrest => ⟨h hends hrest, trivial⟩⟩

/-- What a document lexes to is what its text does. -/
theorem render (h : d.Lexes p r ss) (hr : r.Holds []) (indent : Nat) :
    ∃ text, d.render indent = .ok text ∧ JavaSource.Lexes text.toList ss :=
  h.here.render hr

/-! ### Signs -/

theorem blank : (Doc.text " ").Lexes p .any [] := .text rfl rfl fun _ h => h.blank

theorem semi : (Doc.text ";").Lexes p .any [TokenKind.semi.symbol] :=
  .text rfl rfl fun _ h => h.single rfl

theorem rparen : (Doc.text ")").Lexes p .any [TokenKind.rparen.symbol] :=
  .text rfl rfl fun _ h => h.single rfl

theorem lbrace : (Doc.text "\x7b").Lexes p .any [TokenKind.lbrace.symbol] :=
  .text rfl rfl fun _ h => h.single rfl

theorem rbrace : (Doc.text "\x7d").Lexes p .any [TokenKind.rbrace.symbol] :=
  .text rfl rfl fun _ h => h.single rfl

/-- A colon that no other one follows. -/
theorem colon : (Doc.text ":").Lexes .word .operator [TokenKind.colon.symbol] :=
  .of_here (.colon fun _ => .cons rfl (by decide) _)

/-- A colon between blanks. -/
theorem spacedColon : (Doc.text " : ").Lexes p .any [TokenKind.colon.symbol] :=
  .text rfl rfl fun {rest ss'} _ h => by
    have hcolon : JavaSource.Lexes (':' :: ' ' :: rest) (TokenKind.colon.symbol :: ss') :=
      h.blank.sign rfl (by decide) rfl rfl (by decide) (by decide)
    exact hcolon.blank

/-! ### Several documents -/

/-- Braces without anything in them. -/
theorem emptyBraces : (Doc.braces []).Lexes p .any
    [TokenKind.lbrace.symbol, TokenKind.rbrace.symbol] :=
  .text rfl rfl fun {rest ss'} _ h => by
    have hclose : JavaSource.Lexes ('\x7d' :: rest) (TokenKind.rbrace.symbol :: ss') := h.single rfl
    exact hclose.single rfl

/-- Documents in braces, each on a line of its own. -/
theorem braces {ds : List Doc}
    (h : (Doc.concat ((d :: ds).map (Doc.line ++ ·))).Lexes .any r ss) :
    (Doc.braces (d :: ds)).Lexes p .any
      (TokenKind.lbrace.symbol :: ss ++ [TokenKind.rbrace.symbol]) :=
  (((lbrace.append h.nest).append line).append rbrace).of_eq (by simp)

end Doc.Lexes

/-- A document alone in braces. -/
theorem Doc.LexesAt.braces {d : Doc} {p r : Edge} {ss : List Symbol} {indent depth : Nat}
    (h : d.LexesAt indent (depth + 1) (Edge.any.Holds ·) (r.Holds ·) ss) :
    (Doc.braces [d]).LexesAt indent depth (p.Holds ·) (Edge.any.Holds ·)
      (TokenKind.lbrace.symbol :: ss ++ [TokenKind.rbrace.symbol]) := by
  have hline := ((Lexes.line (p := .any)).here.append h).concat.nest
  exact (((Lexes.lbrace.here.append hline).append Lexes.line.here).append
    Lexes.rbrace.here).of_eq (by simp)

end JavaSource
