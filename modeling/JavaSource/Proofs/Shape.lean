import JavaSource.Tree.Basic

/-!
# Shapes of phrases

A `Shape` says which trees may stand in a row as the parts of a phrase: a regular expression over
`Item`s, and an item tells of one tree its kind and, where that matters, what is right below it.

What a reader of a phrase looks for can be computed from its shape: which kinds of phrases there
can be (`Shape.kinds`), what cannot be missing (`Shape.needs`), what stands at a place among the
phrases or among the tokens (`Shape.nth`), what stands last (`Shape.final`), and how an automaton
goes along the parts (`Shape.reads`).  Each of these comes with what it means for the parts
(`Holds.kind`, `Holds.needs`, `Holds.nth`, `Holds.final`, `Holds.walk`).
-/

namespace JavaSource

/-- What one part of a phrase may be. -/
inductive Item where
  /-- A token of one of some kinds. -/
  | token (kinds : List TokenKind)
  /-- An identifier with a given spelling. -/
  | word (text : String)
  /-- A phrase of one of some kinds. -/
  | phrase (kinds : List Phrase)
  /-- A phrase of a kind with no other phrases right below it than some. -/
  | only (kind : Phrase) (inner : List Phrase)
  /-- A phrase of a kind with a phrase of one of some kinds right below it. -/
  | holding (kind : Phrase) (inner : List Phrase)
  deriving DecidableEq

namespace Item

/-- Whether a tree is such a part. -/
def fits : Item → Tree → Bool
  | token kinds,        .leaf t          => kinds.contains t.kind
  | word text,          .leaf t          => t.isWord text
  | phrase kinds,       .node kind ..    => kinds.contains kind
  | only kind inner,    .node kind' ps .. =>
    kind' == kind && ps.all fun p => p.phrase?.all inner.contains
  | holding kind inner, .node kind' ps .. =>
    kind' == kind && ps.any fun p => p.phrase?.any inner.contains
  | _, _ => false

/-- The kinds of phrases that it may be. -/
def kinds : Item → List Phrase
  | token _ | word _              => []
  | phrase kinds                  => kinds
  | only kind _ | holding kind _  => [kind]

/-- Whether it is a phrase and no token. -/
def isPhrase : Item → Bool
  | token _ | word _ => false
  | _                => true

/-- Whether it is a phrase of one of some kinds. -/
def isAnyOf (kinds : List Phrase) (i : Item) : Bool :=
  i.isPhrase && i.kinds.all kinds.contains

/-- Whether it is a token of one of some kinds. -/
def isTokenOf (kinds : List TokenKind) : Item → Bool
  | token kinds' => kinds'.all kinds.contains
  | word _       => kinds.contains .identifier
  | _            => false

/-- Whether it is a token of a kind, where that can be told. -/
def tells (kind : TokenKind) : Item → Option Bool
  | token kinds =>
    if kinds = [kind] then some true else if kinds.contains kind then none else some false
  | word _      => some (kind == .identifier)
  | _           => some false

theorem mem_kinds_of_fits {i : Item} {t : Tree} {kind : Phrase} (h : i.fits t)
    (hk : t.phrase? = some kind) : kind ∈ i.kinds := by
  cases t with
  | leaf t => cases hk
  | node kind' ps a b =>
    cases hk
    cases i with
    | token ks => cases h
    | word text => cases h
    | phrase ks => exact List.contains_iff_mem.mp h
    | only kind' inner =>
      rw [fits, Bool.and_eq_true, beq_iff_eq] at h
      exact List.mem_singleton.mpr h.1
    | holding kind' inner =>
      rw [fits, Bool.and_eq_true, beq_iff_eq] at h
      exact List.mem_singleton.mpr h.1

theorem isSome_phrase?_of_fits {i : Item} {t : Tree} (h : i.fits t) :
    t.phrase?.isSome = i.isPhrase := by
  cases t <;> cases i <;> first | rfl | cases h

theorem exists_phrase {i : Item} {t : Tree} {kinds : List Phrase} (h : i.fits t)
    (hi : i.isAnyOf kinds) : ∃ kind ∈ kinds, t.phrase? = some kind := by
  obtain ⟨hphrase, hall⟩ := (Bool.and_eq_true ..).mp hi
  rw [← isSome_phrase?_of_fits h] at hphrase
  obtain ⟨kind, hk⟩ := Option.isSome_iff_exists.mp hphrase
  have hmem := List.all_eq_true.mp hall kind (mem_kinds_of_fits h hk)
  exact ⟨kind, List.contains_iff_mem.mp hmem, hk⟩

theorem exists_token {i : Item} {t : Tree} {kinds : List TokenKind} (h : i.fits t)
    (hi : i.isTokenOf kinds) : ∃ u, t = .leaf u ∧ u.kind ∈ kinds := by
  cases i with
  | token ks =>
    cases t with
    | leaf u =>
      have hmem := List.all_eq_true.mp hi _ (List.contains_iff_mem.mp h)
      exact ⟨u, rfl, List.contains_iff_mem.mp hmem⟩
    | node => cases h
  | word text =>
    cases t with
    | leaf u =>
      have hkind : u.kind = .identifier := beq_iff_eq.mp ((Bool.and_eq_true ..).mp h).1
      exact ⟨u, rfl, hkind ▸ List.contains_iff_mem.mp hi⟩
    | node => cases h
  | phrase => cases hi
  | only => cases hi
  | holding => cases hi

theorem token?_of_tells {i : Item} {t : Tree} {kind : TokenKind} {told : Bool} (h : i.fits t)
    (hi : i.tells kind = some told) : (t.token?.any fun u => u.kind == kind) = told := by
  cases i with
  | token ks =>
    cases t with
    | leaf u =>
      simp only [tells] at hi
      have hmem : u.kind ∈ ks := List.contains_iff_mem.mp h
      split at hi
      · cases hi
        rename_i hks
        rw [hks] at hmem
        exact beq_iff_eq.mpr (List.mem_singleton.mp hmem)
      · split at hi
        · cases hi
        · cases hi
          rename_i hks
          exact beq_eq_false_iff_ne.mpr fun he => hks (List.contains_iff_mem.mpr (he ▸ hmem))
    | node => cases h
  | word text =>
    cases t with
    | leaf u =>
      cases hi
      have hkind : u.kind = .identifier := beq_iff_eq.mp ((Bool.and_eq_true ..).mp h).1
      exact hkind ▸ BEq.comm
    | node => cases h
  | phrase | only | holding =>
    cases t with
    | leaf => cases h
    | node =>
      cases hi
      rfl

end Item

/-- Which trees may stand in a row. -/
inductive Shape where
  /-- None. -/
  | nothing
  /-- One. -/
  | one (item : Item)
  /-- Some and then others. -/
  | seq (first second : Shape)
  /-- One of two rows. -/
  | alt (left right : Shape)
  /-- A row over and over. -/
  | many (row : Shape)

namespace Shape

/-- Whether trees stand in such a row. -/
def Holds : Shape → List Tree → Prop
  | nothing, ts => ts = []
  | one i,   ts => ∃ t, ts = [t] ∧ i.fits t
  | seq a b, ts => ∃ us vs, ts = us ++ vs ∧ a.Holds us ∧ b.Holds vs
  | alt a b, ts => a.Holds ts ∨ b.Holds ts
  | many a,  ts => ∃ rows : List (List Tree), ts = rows.flatten ∧ ∀ row ∈ rows, a.Holds row

/-! ### Common shapes -/

/-- Some and then others; behind nothing it is just the others. -/
def andThen : Shape → Shape → Shape
  | nothing, b => b
  | a,       b => seq a b

/-- Several rows one behind the other. -/
def all (shapes : List Shape) : Shape := shapes.foldl andThen nothing

/-- A row or none. -/
def opt (a : Shape) : Shape := alt nothing a

/-- A token of a kind. -/
def tok (kind : TokenKind) : Shape := one (.token [kind])

/-- An identifier with a given spelling. -/
def word (text : String) : Shape := one (.word text)

/-- A phrase of a kind. -/
def phr (kind : Phrase) : Shape := one (.phrase [kind])

/-- A row once or more. -/
def several (a : Shape) : Shape := a.seq (many a)

/-- A row once or more, with a token in between. -/
def separated (separator : TokenKind) (a : Shape) : Shape :=
  a.seq (many ((tok separator).seq a))

/-- A row with a token behind it or without, over and over. -/
def listed (separator : TokenKind) (a : Shape) : Shape := many (a.seq (opt (tok separator)))

variable {a b c : Shape} {ts us vs : List Tree}

theorem holds_andThen : (a.andThen b).Holds ts ↔ (a.seq b).Holds ts := by
  cases a with
  | nothing =>
    refine ⟨fun h => ⟨[], ts, rfl, rfl, h⟩, ?_⟩
    rintro ⟨us, vs, rfl, rfl, h⟩
    exact h
  | one i => exact Iff.rfl
  | seq a a' => exact Iff.rfl
  | alt a a' => exact Iff.rfl
  | many a => exact Iff.rfl

theorem Holds.andThen (ha : a.Holds us) (hb : b.Holds vs) : (a.andThen b).Holds (us ++ vs) :=
  holds_andThen.mpr ⟨us, vs, rfl, ha, hb⟩

theorem Holds.none : (opt a).Holds [] := .inl rfl

theorem Holds.many_nil : (many a).Holds [] := ⟨[], rfl, nofun⟩

theorem Holds.many_append (h : (many a).Holds us) (h' : a.Holds vs) :
    (many a).Holds (us ++ vs) := by
  obtain ⟨rows, rfl, hrows⟩ := h
  refine ⟨rows ++ [vs], by simp, fun row hrow => ?_⟩
  rcases List.mem_append.mp hrow with hrow | hrow
  · exact hrows row hrow
  · exact List.mem_singleton.mp hrow ▸ h'

theorem Holds.many_cons (h : a.Holds us) (h' : (many a).Holds vs) :
    (many a).Holds (us ++ vs) := by
  obtain ⟨rows, rfl, hrows⟩ := h'
  exact ⟨us :: rows, by simp, List.forall_mem_cons.mpr ⟨h, hrows⟩⟩

/-! ### One shape within another -/

/-- Whatever stands in the one row stands in the other. -/
def Within (a b : Shape) : Prop := ∀ ts, a.Holds ts → b.Holds ts

namespace Within

variable {a' b' : Shape}

theorem refl : Within a a := fun _ h => h

theorem trans (h : Within a b) (h' : Within b c) : Within a c := fun ts hts => h' ts (h ts hts)

theorem phrases {ks ks' : List Phrase} (h : ks ⊆ ks') :
    Within (one (.phrase ks)) (one (.phrase ks')) := by
  rintro _ ⟨t, rfl, ht⟩
  refine ⟨t, rfl, ?_⟩
  cases t with
  | leaf t => cases ht
  | node k ps a b => exact List.contains_iff_mem.mpr (h (List.contains_iff_mem.mp ht))

theorem tokens {ks ks' : List TokenKind} (h : ks ⊆ ks') :
    Within (one (.token ks)) (one (.token ks')) := by
  rintro _ ⟨t, rfl, ht⟩
  refine ⟨t, rfl, ?_⟩
  cases t with
  | leaf t => exact List.contains_iff_mem.mpr (h (List.contains_iff_mem.mp ht))
  | node k ps a b => cases ht

theorem only_phrases {k : Phrase} {inner ks : List Phrase} (h : k ∈ ks) :
    Within (one (.only k inner)) (one (.phrase ks)) := by
  rintro _ ⟨t, rfl, ht⟩
  refine ⟨t, rfl, ?_⟩
  cases t with
  | leaf t => cases ht
  | node k' ps a b =>
    rw [Item.fits, Bool.and_eq_true, beq_iff_eq] at ht
    rw [Item.fits, ht.1]
    exact List.contains_iff_mem.mpr h

theorem holding_phrases {k : Phrase} {inner ks : List Phrase} (h : k ∈ ks) :
    Within (one (.holding k inner)) (one (.phrase ks)) := by
  rintro _ ⟨t, rfl, ht⟩
  refine ⟨t, rfl, ?_⟩
  cases t with
  | leaf t => cases ht
  | node k' ps a b =>
    rw [Item.fits, Bool.and_eq_true, beq_iff_eq] at ht
    rw [Item.fits, ht.1]
    exact List.contains_iff_mem.mpr h

theorem seq (h : Within a a') (h' : Within b b') : Within (a.seq b) (a'.seq b') := by
  rintro _ ⟨us, vs, rfl, hus, hvs⟩
  exact ⟨us, vs, rfl, h us hus, h' vs hvs⟩

theorem andThen (h : Within a a') (h' : Within b b') :
    Within (a.andThen b) (a'.andThen b') := fun ts hts =>
  holds_andThen.mpr (seq h h' ts (holds_andThen.mp hts))

theorem left : Within a (a.alt b) := fun _ h => .inl h

theorem right : Within b (a.alt b) := fun _ h => .inr h

theorem alt (h : Within a c) (h' : Within b c) : Within (a.alt b) c := fun ts hts =>
  hts.elim (h ts) (h' ts)

theorem absent : Within nothing (opt a) := left

theorem present : Within a (opt a) := right

theorem none_many : Within nothing (many a) := fun _ h => h ▸ Holds.many_nil

theorem many (h : Within a b) : Within (many a) (many b) := by
  rintro _ ⟨rows, rfl, hrows⟩
  exact ⟨rows, rfl, fun row hrow => h row (hrows row hrow)⟩

theorem many_many : Within ((Shape.many a).andThen (Shape.many a)) (Shape.many a) := by
  rintro _ ⟨_, _, rfl, ⟨rows, rfl, hrows⟩, rows', rfl, hrows'⟩
  exact ⟨rows ++ rows', by simp, List.forall_mem_append.mpr ⟨hrows, hrows'⟩⟩

theorem many_again : Within ((Shape.many a).andThen a) (Shape.many a) := by
  rintro _ ⟨us, vs, rfl, hus, hvs⟩
  exact hus.many_append hvs

theorem one_several : Within a (several a) := fun ts h => ⟨ts, [], by simp, h, .many_nil⟩

theorem several_again : Within ((several a).andThen a) (several a) := by
  rintro _ ⟨_, ws, rfl, ⟨us, vs, rfl, hus, hvs⟩, hws⟩
  exact ⟨us, vs ++ ws, by simp, hus, hvs.many_append hws⟩

theorem many_several : Within ((Shape.many a).seq a) (several a) := by
  rintro _ ⟨_, vs, rfl, ⟨rows, rfl, hrows⟩, hvs⟩
  cases rows with
  | nil => exact one_several vs hvs
  | cons row rows =>
    obtain ⟨hrow, hrows⟩ := List.forall_mem_cons.mp hrows
    exact ⟨row, rows.flatten ++ vs, by simp, hrow, Holds.many_append ⟨rows, rfl, hrows⟩ hvs⟩

theorem several_many : Within (several a) (Shape.many a) := by
  rintro _ ⟨us, vs, rfl, hus, hvs⟩
  exact hus.many_cons hvs

/-- Behind a row there may be one that can be empty. -/
theorem append (h : b.Holds []) : Within a (a.andThen b) := fun ts hts =>
  List.append_nil ts ▸ hts.andThen h

/-- In front of a row there may be one that can be empty. -/
theorem prepend (h : a.Holds []) : Within b (a.andThen b) := fun _ hts => h.andThen hts

theorem andThen_nothing : Within (a.andThen nothing) a := fun _ h => by
  obtain ⟨us, _, rfl, hus, rfl⟩ := holds_andThen.mp h
  rwa [List.append_nil]

theorem assoc : Within ((a.seq b).seq c) (a.seq (b.seq c)) := by
  rintro _ ⟨_, ws, rfl, ⟨us, vs, rfl, hus, hvs⟩, hws⟩
  exact ⟨us, vs ++ ws, by simp, hus, vs, ws, rfl, hvs, hws⟩

theorem assoc' : Within (a.seq (b.seq c)) ((a.seq b).seq c) := by
  rintro _ ⟨us, _, rfl, hus, vs, ws, rfl, hvs, hws⟩
  exact ⟨us ++ vs, ws, by simp, ⟨us, vs, rfl, hus, hvs⟩, hws⟩

end Within

/-! ### What can be there -/

/-- The items that a row may be made of. -/
def items : Shape → List Item
  | nothing             => []
  | one i               => [i]
  | seq a b | alt a b   => a.items ++ b.items
  | many a              => a.items

/-- The kinds of phrases that a row may hold. -/
def kinds (a : Shape) : List Phrase := a.items.flatMap Item.kinds

theorem Holds.item (h : a.Holds ts) {t : Tree} (ht : t ∈ ts) : ∃ i ∈ a.items, i.fits t := by
  induction a generalizing ts with
  | nothing =>
    cases (show ts = [] from h)
    cases ht
  | one i =>
    obtain ⟨t', rfl, hi⟩ := h
    exact ⟨i, List.mem_singleton_self i, List.mem_singleton.mp ht ▸ hi⟩
  | seq a b iha ihb =>
    obtain ⟨us, vs, rfl, hus, hvs⟩ := h
    rcases List.mem_append.mp ht with ht | ht
    · obtain ⟨i, hi, hfits⟩ := iha hus ht
      exact ⟨i, List.mem_append_left _ hi, hfits⟩
    · obtain ⟨i, hi, hfits⟩ := ihb hvs ht
      exact ⟨i, List.mem_append_right _ hi, hfits⟩
  | alt a b iha ihb =>
    rcases h with h | h
    · obtain ⟨i, hi, hfits⟩ := iha h ht
      exact ⟨i, List.mem_append_left _ hi, hfits⟩
    · obtain ⟨i, hi, hfits⟩ := ihb h ht
      exact ⟨i, List.mem_append_right _ hi, hfits⟩
  | many a ih =>
    obtain ⟨rows, rfl, hrows⟩ := h
    obtain ⟨row, hrow, ht⟩ := List.mem_flatten.mp ht
    exact ih (hrows row hrow) ht

theorem Holds.kind (h : a.Holds ts) {t : Tree} (ht : t ∈ ts) {kind : Phrase}
    (hk : t.phrase? = .some kind) : kind ∈ a.kinds := by
  obtain ⟨i, hi, hfits⟩ := h.item ht
  exact List.mem_flatMap.mpr ⟨i, hi, Item.mem_kinds_of_fits hfits hk⟩

/-- A phrase of a kind for which there is only one item. -/
theorem Holds.fits_of_kind (h : a.Holds ts) {t : Tree} (ht : t ∈ ts) {kind : Phrase}
    (hk : t.phrase? = .some kind) {i : Item}
    (hi : a.items.all fun j => !j.kinds.contains kind || j == i) : i.fits t := by
  obtain ⟨j, hj, hfits⟩ := h.item ht
  have hkind := List.contains_iff_mem.mpr (Item.mem_kinds_of_fits hfits hk)
  have hor := List.all_eq_true.mp hi j hj
  rw [hkind, Bool.not_true, Bool.false_or, beq_iff_eq] at hor
  exact hor ▸ hfits

/-- A phrase with such a row has no other phrases right below it than some. -/
theorem Holds.fits_only {kind : Phrase} {inner : List Phrase} (h : a.Holds ts)
    (hkinds : a.kinds ⊆ inner) (start stop : Location) :
    (Item.only kind inner).fits (.node kind ts start stop) := by
  rw [Item.fits, beq_self_eq_true, Bool.true_and, List.all_eq_true]
  intro t ht
  cases hk : t.phrase? with
  | none => rfl
  | some k => exact List.contains_iff_mem.mpr (hkinds (h.kind ht hk))

/-! ### What cannot be missing -/

/-- Whether every row holds an item of some sort. -/
def needs (f : Item → Bool) : Shape → Bool
  | nothing => false
  | one i   => f i
  | seq a b => a.needs f || b.needs f
  | alt a b => a.needs f && b.needs f
  | many _  => false

theorem Holds.needs {f : Item → Bool} (h : a.Holds ts) (hn : a.needs f) :
    ∃ t ∈ ts, ∃ i, f i ∧ i.fits t := by
  induction a generalizing ts with
  | nothing => cases hn
  | one i =>
    obtain ⟨t, rfl, ht⟩ := h
    exact ⟨t, List.mem_singleton_self t, i, hn, ht⟩
  | seq a b iha ihb =>
    obtain ⟨us, vs, rfl, hus, hvs⟩ := h
    rcases (Bool.or_eq_true ..).mp hn with hn | hn
    · obtain ⟨t, ht, hi⟩ := iha hus hn
      exact ⟨t, List.mem_append_left _ ht, hi⟩
    · obtain ⟨t, ht, hi⟩ := ihb hvs hn
      exact ⟨t, List.mem_append_right _ ht, hi⟩
  | alt a b iha ihb =>
    obtain ⟨hna, hnb⟩ := (Bool.and_eq_true ..).mp hn
    rcases h with h | h
    · exact iha h hna
    · exact ihb h hnb
  | many a _ => cases hn

/-- A phrase with such a row has a phrase of one of some kinds right below it. -/
theorem Holds.fits_holding {kind : Phrase} {inner : List Phrase} (h : a.Holds ts)
    (hn : a.needs (·.isAnyOf inner)) (start stop : Location) :
    (Item.holding kind inner).fits (.node kind ts start stop) := by
  rw [Item.fits, beq_self_eq_true, Bool.true_and, List.any_eq_true]
  obtain ⟨t, ht, i, hi, hfits⟩ := h.needs hn
  obtain ⟨k, hk, hphrase⟩ := Item.exists_phrase hfits hi
  refine ⟨t, ht, ?_⟩
  rw [hphrase, Option.any_some]
  exact List.contains_iff_mem.mpr hk

/-! ### What stands at a place

Some items are counted and some are not, and of some nothing can be said. -/

/-- How many trees of a row are counted, if that is the same for all rows. -/
def count (f : Item → Option Bool) : Shape → Option Nat
  | nothing => some 0
  | one i   => (f i).map fun counted => if counted then 1 else 0
  | seq a b =>
    match a.count f, b.count f with
    | some m, some n => some (m + n)
    | _,      _      => none
  | alt a b => if a.count f = b.count f then a.count f else none
  | many a  => if a.count f = some 0 then some 0 else none

/-- How many trees of a row are counted at least. -/
def atLeast (f : Item → Option Bool) : Shape → Nat
  | nothing => 0
  | one i   => if f i = some true then 1 else 0
  | seq a b => a.atLeast f + b.atLeast f
  | alt a b => min (a.atLeast f) (b.atLeast f)
  | many _  => 0

/-- What the counted tree at a place may be, or that there is none. -/
def nth (f : Item → Option Bool) : Shape → Nat → Option (List (Option Item))
  | nothing, _ => some [none]
  | one i,   n =>
    (f i).map fun counted => if counted && n == 0 then [some i] else [none]
  | seq a b, n =>
    match a.count f with
    | some m => if n < m then a.nth f n else b.nth f (n - m)
    | none   => if n < a.atLeast f ∨ b.count f = some 0 then a.nth f n else none
  | alt a b, n =>
    match a.nth f n, b.nth f n with
    | some is, some js => some (is ++ js)
    | _,       _       => none
  | many a,  _ => if a.count f = some 0 then some [none] else none

/-- The trees that are counted are those that a test picks. -/
def Counts (f : Item → Option Bool) (test : Tree → Bool) : Prop :=
  ∀ i t counted, i.fits t → f i = some counted → test t = counted

/-- Phrases are counted. -/
def phraseOnly (i : Item) : Option Bool := some i.isPhrase

/-- Tokens are counted. -/
def tokenOnly (i : Item) : Option Bool := some !i.isPhrase

theorem counts_phraseOnly : Counts phraseOnly fun t => t.phrase?.isSome := fun _ _ _ hfits hi =>
  (Item.isSome_phrase?_of_fits hfits).trans (Option.some.inj hi)

theorem counts_tokenOnly : Counts tokenOnly fun t => !t.phrase?.isSome := fun _ _ _ hfits hi =>
  (congrArg (!·) (Item.isSome_phrase?_of_fits hfits)).trans (Option.some.inj hi)

variable {f : Item → Option Bool} {test : Tree → Bool}

theorem Holds.count (hf : Counts f test) (h : a.Holds ts) {n : Nat} (hn : a.count f = .some n) :
    (ts.filter test).length = n := by
  induction a generalizing ts n with
  | nothing =>
    cases (show ts = [] from h)
    exact Option.some.inj hn
  | one i =>
    obtain ⟨t, rfl, ht⟩ := h
    obtain ⟨counted, hi, rfl⟩ := Option.map_eq_some_iff.mp hn
    rw [List.filter_cons, List.filter_nil, hf i t counted ht hi]
    cases counted <;> rfl
  | seq a b iha ihb =>
    obtain ⟨us, vs, rfl, hus, hvs⟩ := h
    simp only [Shape.count] at hn
    split at hn
    · rename_i m n' hm hn'
      cases hn
      rw [List.filter_append, List.length_append, iha hus hm, ihb hvs hn']
    · cases hn
  | alt a b iha ihb =>
    simp only [Shape.count] at hn
    split at hn
    · rcases h with h | h
      · exact iha h hn
      · exact ihb h (‹a.count f = b.count f› ▸ hn)
    · cases hn
  | many a ih =>
    simp only [Shape.count] at hn
    split at hn
    · cases hn
      obtain ⟨rows, rfl, hrows⟩ := h
      rw [List.length_eq_zero_iff, List.filter_flatten, List.flatten_eq_nil_iff]
      intro row hrow
      obtain ⟨row', hrow', rfl⟩ := List.mem_map.mp hrow
      exact List.length_eq_zero_iff.mp (ih (hrows row' hrow') ‹_›)
    · cases hn

theorem Holds.atLeast (hf : Counts f test) (h : a.Holds ts) :
    a.atLeast f ≤ (ts.filter test).length := by
  induction a generalizing ts with
  | nothing => exact Nat.zero_le _
  | one i =>
    obtain ⟨t, rfl, ht⟩ := h
    simp only [Shape.atLeast]
    split
    · rw [List.filter_cons, hf i t true ht ‹_›]
      exact Nat.le_refl 1
    · exact Nat.zero_le _
  | seq a b iha ihb =>
    obtain ⟨us, vs, rfl, hus, hvs⟩ := h
    rw [List.filter_append, List.length_append]
    exact Nat.add_le_add (iha hus) (ihb hvs)
  | alt a b iha ihb =>
    rcases h with h | h
    · exact Nat.le_trans (Nat.min_le_left ..) (iha h)
    · exact Nat.le_trans (Nat.min_le_right ..) (ihb h)
  | many a _ => exact Nat.zero_le _

/-- A tree, or none, is as an item says that it may be. -/
def Fits : Option Item → Option Tree → Prop
  | .none,   t => t = .none
  | .some i, t => ∃ t', t = .some t' ∧ i.fits t'

theorem Holds.nth (hf : Counts f test) (h : a.Holds ts) {n : Nat} {is : List (Option Item)}
    (hn : a.nth f n = .some is) : ∃ i ∈ is, Fits i (ts.filter test)[n]? := by
  induction a generalizing ts n is with
  | nothing =>
    cases (show ts = [] from h)
    cases hn
    exact ⟨.none, List.mem_singleton_self _, rfl⟩
  | one i =>
    obtain ⟨t, rfl, ht⟩ := h
    obtain ⟨counted, hi, rfl⟩ := Option.map_eq_some_iff.mp hn
    rw [List.filter_cons, List.filter_nil, hf i t counted ht hi]
    cases counted with
    | false => exact ⟨.none, by simp, rfl⟩
    | true =>
      cases n with
      | zero => exact ⟨.some i, by simp, t, rfl, ht⟩
      | succ n => exact ⟨.none, by simp, rfl⟩
  | seq a b iha ihb =>
    obtain ⟨us, vs, rfl, hus, hvs⟩ := h
    simp only [Shape.nth] at hn
    split at hn
    · rename_i m hm
      have hlen := hus.count hf hm
      rw [List.filter_append]
      split at hn
      · rw [List.getElem?_append_left (hlen ▸ ‹n < m›)]
        exact iha hus hn
      · rw [List.getElem?_append_right (by omega), hlen]
        exact ihb hvs hn
    · split at hn
      · rename_i hor
        have hleft : ((us ++ vs).filter test)[n]? = (us.filter test)[n]? := by
          rw [List.filter_append]
          rcases hor with hlt | hnone
          · have hleast := hus.atLeast hf
            exact List.getElem?_append_left (by omega)
          · rw [List.length_eq_zero_iff.mp (hvs.count hf hnone), List.append_nil]
        rw [hleft]
        exact iha hus hn
      · cases hn
  | alt a b iha ihb =>
    simp only [Shape.nth] at hn
    split at hn
    · rename_i is' js his hjs
      cases hn
      rcases h with h | h
      · obtain ⟨i, hi, hfits⟩ := iha h his
        exact ⟨i, List.mem_append_left _ hi, hfits⟩
      · obtain ⟨i, hi, hfits⟩ := ihb h hjs
        exact ⟨i, List.mem_append_right _ hi, hfits⟩
    · cases hn
  | many a ih =>
    simp only [Shape.nth] at hn
    split at hn
    · cases hn
      have hnone := h.count hf (show (Shape.many a).count f = .some 0 by simp [Shape.count, ‹_›])
      rw [List.length_eq_zero_iff.mp hnone]
      exact ⟨.none, List.mem_singleton_self _, rfl⟩
    · cases hn

/-! ### What stands last -/

/-- What the last phrase of a row may be, where a row ends in a phrase. -/
def final : Shape → Option (List Item)
  | one i   => if i.isPhrase then some [i] else none
  | seq _ b => b.final
  | alt a b =>
    match a.final, b.final with
    | some is, some js => some (is ++ js)
    | _,       _       => none
  | _       => none

theorem Holds.final (h : a.Holds ts) {is : List Item} (hf : a.final = .some is) :
    ∃ i ∈ is, ∃ t, (ts.filter fun t => t.phrase?.isSome).getLast? = .some t ∧ i.fits t := by
  induction a generalizing ts is with
  | nothing => cases hf
  | one i =>
    obtain ⟨t, rfl, ht⟩ := h
    simp only [Shape.final] at hf
    split at hf
    · cases hf
      refine ⟨i, List.mem_singleton_self i, t, ?_, ht⟩
      rw [List.filter_cons, List.filter_nil, Item.isSome_phrase?_of_fits ht, if_pos ‹_›]
      rfl
    · cases hf
  | seq a b _ ihb =>
    obtain ⟨us, vs, rfl, hus, hvs⟩ := h
    obtain ⟨i, hi, t, ht, hfits⟩ := ihb hvs hf
    refine ⟨i, hi, t, ?_, hfits⟩
    rw [List.filter_append, List.getLast?_append, ht]
    rfl
  | alt a b iha ihb =>
    simp only [Shape.final] at hf
    split at hf
    · rename_i is' js his hjs
      cases hf
      rcases h with h | h
      · obtain ⟨i, hi, hlast⟩ := iha h his
        exact ⟨i, List.mem_append_left _ hi, hlast⟩
      · obtain ⟨i, hi, hlast⟩ := ihb h hjs
        exact ⟨i, List.mem_append_right _ hi, hlast⟩
    · cases hf
  | many a _ => cases hf

theorem Holds.getLast_phr {kind : Phrase} (h : (a.seq (phr kind)).Holds ts) :
    ∃ t, ts.getLast? = .some t ∧ t.phrase? = .some kind := by
  obtain ⟨us, _, rfl, -, t, rfl, ht⟩ := h
  refine ⟨t, List.getLast?_concat, ?_⟩
  cases t with
  | leaf t => cases ht
  | node kind' ps start stop =>
    exact congrArg Option.some (List.mem_singleton.mp (List.contains_iff_mem.mp ht))

/-- Phrases of a kind are missing, or one of them stands last. -/
theorem Holds.seq_many_phr {kind : Phrase} (h : (a.seq (many (phr kind))).Holds ts) :
    a.Holds ts ∨ (∃ t, ts.getLast? = .some t ∧ t.phrase? = .some kind) ∧
      (a.seq (several (phr kind))).Holds ts := by
  obtain ⟨us, _, rfl, hus, rows, rfl, hrows⟩ := h
  rcases rows.eq_nil_or_concat with rfl | ⟨rows, row, rfl⟩
  · exact .inl (by rwa [List.flatten_nil, List.append_nil])
  · rw [List.concat_eq_append] at hrows ⊢
    obtain ⟨hrows, hrow⟩ := List.forall_mem_append.mp hrows
    have hlast : ((a.seq (many (phr kind))).seq (phr kind)).Holds
        (us ++ (rows ++ [row]).flatten) :=
      ⟨us ++ rows.flatten, row, by simp, ⟨us, _, rfl, hus, rows, rfl, hrows⟩,
        hrow row (List.mem_singleton_self row)⟩
    exact .inr ⟨hlast.getLast_phr, Within.seq .refl .many_several _ (Within.assoc _ hlast)⟩

/-- Where the last tree is not of a kind, a row of that kind in the end is empty. -/
theorem Holds.of_seq_many_phr {kind : Phrase} {last : Option Phrase}
    (h : (a.seq (many (phr kind))).Holds ts) (hlast : last ≠ .some kind)
    (hts : ∀ t, ts.getLast? = .some t → t.phrase? = last) : a.Holds ts := by
  rcases h.seq_many_phr with h | ⟨⟨t, ht, hphrase⟩, -⟩
  · exact h
  · exact absurd ((hts t ht).symm.trans hphrase) hlast

/-! ### Walks

An automaton reads a row from the left.  Where a row repeats, it has to come back to the state that
it was in. -/

/-- How an automaton reads some trees. -/
inductive Walk {σ : Type} (step : σ → Item → Option σ) : σ → List Tree → σ → Prop where
  | nil {s : σ} : Walk step s [] s
  | cons {s s' s'' : σ} {i : Item} {t : Tree} {ts : List Tree} (fits : i.fits t)
      (moves : step s i = some s') (rest : Walk step s' ts s'') : Walk step s (t :: ts) s''

variable {σ : Type} {step : σ → Item → Option σ} {s s' s'' : σ}

/-- Whether an automaton reads every row, and ends in states of some sort. -/
def reads [BEq σ] (step : σ → Item → Option σ) : Shape → σ → (σ → Bool) → Bool
  | nothing, s, accepts => accepts s
  | one i,   s, accepts => (step s i).any accepts
  | seq a b, s, accepts => a.reads step s fun s' => b.reads step s' accepts
  | alt a b, s, accepts => a.reads step s accepts && b.reads step s accepts
  | many a,  s, accepts => accepts s && a.reads step s (· == s)

theorem Walk.append (h : Walk step s us s') (h' : Walk step s' vs s'') :
    Walk step s (us ++ vs) s'' := by
  induction h with
  | nil => exact h'
  | cons fits moves _ ih => exact .cons fits moves (ih h')

theorem Holds.walk [BEq σ] [LawfulBEq σ] (h : a.Holds ts) {accepts : σ → Bool}
    (hreads : a.reads step s accepts) : ∃ s', accepts s' ∧ Walk step s ts s' := by
  induction a generalizing ts s accepts with
  | nothing =>
    cases (show ts = [] from h)
    exact ⟨s, hreads, .nil⟩
  | one i =>
    obtain ⟨t, rfl, ht⟩ := h
    obtain ⟨s', hstep, hs'⟩ := (Option.any_eq_true ..).mp hreads
    exact ⟨s', hs', .cons ht hstep .nil⟩
  | seq a b iha ihb =>
    obtain ⟨us, vs, rfl, hus, hvs⟩ := h
    obtain ⟨s', hs', hwalk⟩ := iha hus hreads
    obtain ⟨s'', hs'', hwalk'⟩ := ihb hvs hs'
    exact ⟨s'', hs'', hwalk.append hwalk'⟩
  | alt a b iha ihb =>
    obtain ⟨hra, hrb⟩ := (Bool.and_eq_true ..).mp hreads
    rcases h with h | h
    · exact iha h hra
    · exact ihb h hrb
  | many a ih =>
    obtain ⟨haccepts, hreads⟩ := (Bool.and_eq_true ..).mp hreads
    obtain ⟨rows, rfl, hrows⟩ := h
    refine ⟨s, haccepts, ?_⟩
    induction rows with
    | nil => exact .nil
    | cons row rows ihrows =>
      obtain ⟨hrow, hrows⟩ := List.forall_mem_cons.mp hrows
      obtain ⟨s', hs', hwalk⟩ := ih hrow hreads
      obtain rfl := beq_iff_eq.mp hs'
      exact hwalk.append (ihrows hrows)

end Shape

end JavaSource
