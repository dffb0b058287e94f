import JavaSource.Proofs.Rules

/-!
# Parse trees bracket the tokens

A parse tree is a way to put brackets around the tokens of a source: its leaves, read from left to
right, are these tokens, and each phrase knows where its first and its last leaf stand.

Two or three `>` that touch may have become one leaf.  `Token.split` gives them back, each at the
place where it was read.

* **`JavaSource.parseTree_brackets`**: no token is lost, added, moved or doubled, whatever was
  tried on the way.
-/

namespace JavaSource

/-- Where a tree has parts it stands from its first leaf to its last. -/
theorem Tree.Regular.stands {t : Tree} (h : t.Regular) (hparts : t.parts ≠ []) :
    ∃ first last, t.leaves.head? = some first ∧ t.leaves.getLast? = some last ∧
      t.start = first.location ∧ t.stop = last.location := by
  have hleaves : t.leaves ≠ [] := by
    cases h with
    | leaf => exact nofun
    | @node kind parts start stop holds regular =>
      obtain ⟨p, hp⟩ := List.exists_mem_of_ne_nil parts hparts
      rw [leaves, leavesAll_eq_flatMap]
      exact fun hnil => Regular.part_leaves_ne_nil holds hp (regular p hp)
        (List.flatMap_eq_nil_iff.mp hnil p hp)
  obtain ⟨hstart, hstop⟩ := h.ends hleaves
  obtain ⟨first, hfirst, hstart⟩ := Option.map_eq_some_iff.mp hstart
  obtain ⟨last, hlast, hstop⟩ := Option.map_eq_some_iff.mp hstop
  exact ⟨first, last, hfirst, hlast, hstart.symm, hstop.symm⟩

/-- **The leaves of a parse tree are the tokens of the source, and each phrase in it stands from
its first leaf to its last.** -/
theorem parseTree_brackets (mode : Mode) (limit : Nat) (source : String) (tree : Tree)
    (h : parseTree mode limit source = .ok tree) :
    (∃ tokens eof, tokenize source = .ok (tokens ++ [eof]) ∧ eof.kind = .eof ∧
      tree.leaves.flatMap Token.split = tokens) ∧
    ∀ depth t, (depth, t) ∈ tree.preorder 0 → t.parts ≠ [] →
      ∃ first last, t.leaves.head? = some first ∧ t.leaves.getLast? = some last ∧
        t.start = first.location ∧ t.stop = last.location := by
  obtain ⟨tokens, htokens, hregular, -, hleaves⟩ := parseTree_regular h
  obtain ⟨init, eof, heq, heof, -⟩ := (Scan.ofTokenize htokens).ended
  obtain rfl : tokens = init ++ [eof] := heq
  rw [List.dropLast_concat] at hleaves
  exact ⟨⟨init, eof, htokens, heof, hleaves⟩,
    fun depth t ht hparts => (hregular.preorder 0 (depth, t) ht).stands hparts⟩

/-- In `a >>> b` three symbols became one leaf. -/
theorem parseTree_brackets_shift : ∃ tree, parseTree .expr 9 "a >>> b" = .ok tree ∧
    tree.leaves.length = 3 ∧ (tree.leaves.flatMap Token.split).length = 5 ∧
    ∃ tokens eof, tokenize "a >>> b" = .ok (tokens ++ [eof]) ∧ eof.kind = .eof ∧
      tree.leaves.flatMap Token.split = tokens := by
  have heval : (parseTree .expr 9 "a >>> b").toOption.map (fun tree =>
      (tree.leaves.length, (tree.leaves.flatMap Token.split).length)) = some (3, 5) := by
    decide +kernel
  cases htree : parseTree .expr 9 "a >>> b" with
  | error fault =>
    rw [htree] at heval
    cases heval
  | ok tree =>
    rw [htree] at heval
    obtain ⟨hleaves, hsplit⟩ := Prod.mk.inj (Option.some.inj heval)
    exact ⟨tree, rfl, hleaves, hsplit, (parseTree_brackets .expr 9 "a >>> b" tree htree).1⟩

end JavaSource
