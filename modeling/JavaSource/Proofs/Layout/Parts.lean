import JavaSource.Proofs.Layout.Agree
import JavaSource.Proofs.Layout.Recognition
import JavaSource.Reading.Part

/-!
# Trees that are the same without places

Two tokens are alike if they have a kind and a text in common, two parts if their trees are the
same without places, their own parts are alike and they are read alike (`Part.Alike`).  Whatever
is looked for among the parts of a tree is found in an alike one as well, or is missed there with
an alike error.
-/

namespace JavaSource

open List (Forall₂)
open Node (Alike)

/-! ### Tokens -/

/-- Tokens that differ in nothing but where they stand. -/
structure Token.Alike (t u : Token) : Prop where
  kind : t.kind = u.kind
  text : t.text = u.text

namespace Token

variable {t u : Token}

theorem alike_of_unplaced (h : t.unplaced = u.unplaced) : t.Alike u :=
  ⟨(Token.mk.inj h).1, (Token.mk.inj h).2.1⟩

theorem Alike.unplaced (h : t.Alike u) : t.unplaced = u.unplaced := by
  obtain ⟨hkind, htext⟩ := h
  rw [Token.unplaced, Token.unplaced, hkind, htext]

theorem Alike.identifier (h : t.Alike u) : Node.Alike t.identifier u.identifier := by
  unfold Token.identifier
  rw [h.text]
  exact .identifier

theorem Alike.isWord_eq (h : t.Alike u) (word : String) : t.isWord word = u.isWord word := by
  rw [isWord, isWord, h.kind, h.text]

theorem Alike.display_eq (h : t.Alike u) : t.display = u.display := by
  rw [display, display, h.kind, h.text]

end Token

/-! ### Trees -/

namespace Tree

variable {t u : Tree}

theorem phrase?_eq (h : t.unplaced = u.unplaced) : t.phrase? = u.phrase? := by
  rw [← phrase?_unplaced t, h, phrase?_unplaced]

theorem token?_rel (h : t.unplaced = u.unplaced) :
    Option.Rel Token.Alike t.token? u.token? := by
  have htoken : t.token?.map Token.unplaced = u.token?.map Token.unplaced := by
    rw [← token?_unplaced t, h, token?_unplaced]
  generalize t.token? = t?, u.token? = u? at htoken
  cases t? <;> cases u? <;> simp only [Option.map_none, Option.map_some, reduceCtorEq,
    Option.some.injEq] at htoken
  · exact .none
  · exact .some (Token.alike_of_unplaced htoken)

theorem parts_rel (h : t.unplaced = u.unplaced) :
    Forall₂ (fun t u : Tree => t.unplaced = u.unplaced) t.parts u.parts := by
  have hparts : t.parts.map unplaced = u.parts.map unplaced := by
    rw [← parts_unplaced t, h, parts_unplaced]
  rwa [← List.forall₂_eq_eq_eq, List.forall₂_map_left_iff, List.forall₂_map_right_iff] at hparts

theorem tokens_rel (h : t.unplaced = u.unplaced) : Forall₂ Token.Alike t.tokens u.tokens :=
  List.rel_filterMap (fun (_ _ : Tree) h => token?_rel h) (parts_rel h)

theorem hasToken_eq (h : t.unplaced = u.unplaced) (kind : TokenKind) :
    t.hasToken kind = u.hasToken kind :=
  any_eq_of_rel (fun _ _ h => by rw [h.kind]) (tokens_rel h)

theorem hasWord_eq (h : t.unplaced = u.unplaced) (word : String) :
    t.hasWord word = u.hasWord word :=
  any_eq_of_rel (fun _ _ h => h.isWord_eq word) (tokens_rel h)

theorem caption_eq (h : t.unplaced = u.unplaced) : t.caption = u.caption := by
  cases t <;> cases u <;> simp only [unplaced, reduceCtorEq, leaf.injEq, node.injEq] at h
  · exact (Token.alike_of_unplaced h).display_eq
  · exact congrArg Phrase.name h.1

/-- What is wrong with alike trees. -/
theorem error_alike (h : t.unplaced = u.unplaced) (problem : NodeProblem) :
    (t.error problem).Alike (u.error problem) := ⟨rfl, caption_eq h, rfl⟩

end Tree

/-! ### Parts -/

/-- Parts of alike trees, from top to bottom read alike. -/
inductive Part.Alike : Part → Part → Prop where
  | mk {t u : Tree} {ps qs : List Part} {r r' : {c : Category} → Goal c → Reading c}
      (tree : t.unplaced = u.unplaced) (parts : Forall₂ Part.Alike ps qs)
      (read : ∀ {c : Category} (goal : Goal c), Agree Node.Alike (r goal) (r' goal)) :
    Alike (.mk t ps r) (.mk u qs r')

/-- Alike trees with alike parts. -/
structure Opened.Alike (o o' : Opened) : Prop where
  tree : o.tree.unplaced = o'.tree.unplaced
  parts : Forall₂ Part.Alike o.parts o'.parts

namespace Part

variable {p q : Part} {c : Category}

namespace Alike

theorem tree (h : p.Alike q) : p.tree.unplaced = q.tree.unplaced := by
  cases h
  assumption

theorem opened (h : p.Alike q) : p.opened.Alike q.opened := by
  cases h
  constructor <;> assumption

theorem read (h : p.Alike q) (goal : Goal c) : Agree Node.Alike (p.read goal) (q.read goal) := by
  cases h with
  | mk _ _ read => exact read goal

theorem phrase? (h : p.Alike q) : p.tree.phrase? = q.tree.phrase? := Tree.phrase?_eq h.tree

theorem isA_eq (h : p.Alike q) (kind : Phrase) : p.isA kind = q.isA kind := by
  rw [isA, isA, h.phrase?]

theorem isPhrase_eq (h : p.Alike q) : p.isPhrase = q.isPhrase := by
  rw [isPhrase, isPhrase, h.phrase?]

end Alike

theorem readAll_agree {ps qs : List Part} (h : Forall₂ Part.Alike ps qs) (goal : Goal c) :
    Agree Node.Alike (readAll goal ps) (readAll goal qs) :=
  (Agree.mapM h fun _ _ hp => hp.read goal).map fun _ _ => .ofList

theorem readOption_agree {p? q? : Option Part} (h : Option.Rel Part.Alike p? q?) (goal : Goal c) :
    Agree Node.Alike (readOption goal p?) (readOption goal q?) := by
  cases h with
  | none => exact .ok .absent
  | some h => exact (h.read goal).map fun _ _ => .present

end Part

/-! ### What is looked for in a tree -/

namespace Opened.Alike

variable {o o' : Opened} (h : o.Alike o') {c : Category}
include h

theorem error {α β : Type} {R : α → β → Prop} (problem : NodeProblem) :
    Agree R (o.error problem) (o'.error problem) :=
  .error (Tree.error_alike h.tree problem)

theorem lacks {α β : Type} {R : α → β → Prop} (what : String) :
    Agree R (o.lacks what) (o'.lacks what) := h.error _

theorem phrase? : o.tree.phrase? = o'.tree.phrase? := Tree.phrase?_eq h.tree

theorem filter {f g : Part → Bool} (hfg : ∀ p q, Part.Alike p q → f p = g q) :
    Forall₂ Part.Alike (o.parts.filter f) (o'.parts.filter g) := filter_rel hfg h.parts

theorem phrases : Forall₂ Part.Alike o.phrases o'.phrases := h.filter fun _ _ hp => hp.isPhrase_eq

theorem phrasesOf (kind : Phrase) : Forall₂ Part.Alike (o.phrasesOf kind) (o'.phrasesOf kind) :=
  h.filter fun _ _ hp => hp.isA_eq kind

theorem phrasesBut (kind : Phrase) :
    Forall₂ Part.Alike (o.phrasesBut kind) (o'.phrasesBut kind) :=
  filter_rel (fun _ _ hp => by rw [hp.isA_eq]) h.phrases

theorem first? (kind : Phrase) : Option.Rel Part.Alike (o.first? kind) (o'.first? kind) :=
  find?_rel (fun _ _ hp => hp.isA_eq kind) h.parts

theorem first (kind : Phrase) : Agree Part.Alike (o.first kind) (o'.first kind) := by
  have hrel := h.first? kind
  unfold Opened.first
  generalize o.first? kind = p?, o'.first? kind = q? at hrel
  cases hrel with
  | none => exact h.lacks _
  | some hrel => exact .ok hrel

theorem nth (i : Nat) : Agree Part.Alike (o.nth i) (o'.nth i) := by
  have hrel := getElem?_rel h.phrases i
  unfold Opened.nth
  generalize o.phrases[i]? = p?, o'.phrases[i]? = q? at hrel
  cases hrel with
  | none => exact h.lacks _
  | some hrel => exact .ok hrel

theorem last : Agree Part.Alike o.last o'.last := by
  have hrel := getLast?_rel h.phrases
  unfold Opened.last
  generalize o.phrases.getLast? = p?, o'.phrases.getLast? = q? at hrel
  cases hrel with
  | none => exact h.lacks _
  | some hrel => exact .ok hrel

theorem behind? {isMarker : Token → Bool}
    (hmarker : ∀ t u, Token.Alike t u → isMarker t = isMarker u) :
    Option.Rel Part.Alike (o.behind? isMarker) (o'.behind? isMarker) := by
  refine find?_rel (fun _ _ hp => hp.isPhrase_eq) (dropWhile_rel (fun p q hp => ?_) h.parts)
  have htoken := Tree.token?_rel hp.tree
  generalize p.tree.token? = t?, q.tree.token? = u? at htoken ⊢
  cases htoken with
  | none => rfl
  | some ht => exact congrArg not (hmarker _ _ ht)

theorem token : Agree Token.Alike o.token o'.token := by
  have hrel := head?_rel (Tree.tokens_rel h.tree)
  unfold Opened.token
  generalize o.tree.tokens.head? = t?, o'.tree.tokens.head? = u? at hrel
  cases hrel with
  | none => exact h.lacks _
  | some hrel => exact .ok hrel

theorem hasToken_eq (kind : TokenKind) : o.hasToken kind = o'.hasToken kind :=
  Tree.hasToken_eq h.tree kind

theorem identifiers : Forall₂ Node.Alike o.identifiers o'.identifiers :=
  List.rel_map (fun _ _ ht => ht.identifier)
    (filter_rel (fun _ _ ht => by rw [ht.kind]) (Tree.tokens_rel h.tree))

theorem identifier? : Option.Rel Node.Alike o.identifier? o'.identifier? :=
  head?_rel h.identifiers

theorem identifierAs (what : String) :
    Agree Node.Alike (o.identifierAs what) (o'.identifierAs what) := by
  have hrel := h.identifier?
  unfold Opened.identifierAs
  generalize o.identifier? = id?, o'.identifier? = id'? at hrel
  cases hrel with
  | none => exact h.lacks _
  | some hrel => exact .ok hrel

theorem identifier : Agree Node.Alike o.identifier o'.identifier := h.identifierAs _

theorem readNth (i : Nat) (goal : Goal c) :
    Agree Node.Alike (o.readNth i goal) (o'.readNth i goal) :=
  (h.nth i).bind fun _ _ hp => hp.read goal

theorem readFirst (kind : Phrase) (goal : Goal c) :
    Agree Node.Alike (o.readFirst kind goal) (o'.readFirst kind goal) :=
  (h.first kind).bind fun _ _ hp => hp.read goal

theorem readFirst? (kind : Phrase) (goal : Goal c) :
    Agree Node.Alike (o.readFirst? kind goal) (o'.readFirst? kind goal) :=
  Part.readOption_agree (h.first? kind) goal

theorem readList (kind : Phrase) (goal : Goal (.list c)) :
    Agree Node.Alike (o.readList kind goal) (o'.readList kind goal) := by
  have hfirst := h.first? kind
  unfold Opened.readList
  generalize o.first? kind = p?, o'.first? kind = q? at hfirst
  cases hfirst with
  | none => exact .ok .nil
  | some hp => exact hp.read goal

theorem readAll (kind : Phrase) (goal : Goal c) :
    Agree Node.Alike (o.readAll kind goal) (o'.readAll kind goal) :=
  Part.readAll_agree (h.phrasesOf kind) goal

theorem annotations : Agree Node.Alike o.annotations o'.annotations := h.readAll _ _

theorem modifiers : Agree Node.Alike o.modifiers o'.modifiers := h.readList _ _

theorem dims : Agree Node.Alike o.dims o'.dims := h.readAll _ _

end Opened.Alike

end JavaSource
