import JavaSource.Proofs.Preorder
import JavaSource.Syntax.Transform

/-!
# Lists made anew

An item of a list may be kept, replaced or deleted, or several nodes may take its place.  What
becomes of the list is told by the answers for its items (`Change.anew?`): it is kept if all items
are, and else it holds what has come in the place of each, one after the other.

The change of a list is a recursion, which puts what becomes of the head before what becomes of the
tail.  It could as well be a loop over the items that puts nothing together until one of them
changes, and copies the items in front of that one then (`Transformer.listLoop`).

* `Transformer.change_ofList`: the recursion comes to what the answers tell, whatever monad the
  hooks work in.
* `Change.push_anew?`: what the loop has put together in front of an item is what the answers so far
  tell of the items so far, and so it is behind the item.
* `Transformer.part_eq_listLoop`: for a part of a node the recursion and the loop are the same.
* `Transformer.listLoop_flattens`: with hooks that remember something and may fail, the list is
  flattened out of the answers, which come in order, or the first error is the error for the list.
-/

namespace JavaSource

variable {c : Category}

namespace Node

theorem ofList_toList : (ns : Nodes c) → ofList ns.toList = ns
  | .nil => rfl
  | .cons n ns => congrArg (cons n) (ofList_toList ns)

theorem append_ofList (ns : Nodes c) (ms : List (Node c)) :
    ns.append (ofList ms) = ofList (ns.toList ++ ms) := by
  rw [append]
  induction ns.toList with
  | nil => rfl
  | cons n _ ih => exact congrArg (cons n) ih

end Node

/-! ### What the answers tell -/

namespace Change

/-- Whether a node stays as it is. -/
def isKeep : Change c → Bool
  | keep => true
  | _    => false

/-- What stands in the place of items, one after the other. -/
def spliced (items : List (Node c)) (changes : List (Change c)) : List (Node c) :=
  (items.zip changes).flatMap fun (item, change) => (change.elements item).toList

/-- What stands in the place of items, if one of them has changed. -/
def anew? (items : List (Node c)) (changes : List (Change c)) : Option (List (Node c)) :=
  if changes.all isKeep then none else some (spliced items changes)

/-- What becomes of a list, from what stands in the place of its items if one has changed. -/
def ofAnew : Option (List (Node c)) → Change (.list c)
  | none    => keep
  | some ns => replace (.ofList ns)

variable {item : Node c} {before items : List (Node c)}
variable {change : Change c} {changes others : List (Change c)}

theorem all_isKeep_iff : changes.all isKeep = true ↔ ∀ change ∈ changes, change = keep := by
  rw [List.all_eq_true]
  refine forall₂_congr fun change _ => ?_
  cases change <;> simp [isKeep]

theorem spliced_cons :
    spliced (item :: items) (change :: changes) =
      (change.elements item).toList ++ spliced items changes := rfl

theorem spliced_append (h : before.length = changes.length) :
    spliced (before ++ items) (changes ++ others) =
      spliced before changes ++ spliced items others := by
  rw [spliced, List.zip_append h, List.flatMap_append]
  rfl

/-- Items that are kept stand in their own place. -/
theorem spliced_of_keep (hlength : items.length = changes.length)
    (h : changes.all isKeep = true) : spliced items changes = items := by
  induction items generalizing changes with
  | nil => rfl
  | cons item items ih =>
    cases changes with
    | nil => cases hlength
    | cons change changes =>
      obtain ⟨hchange, hchanges⟩ := (Bool.and_eq_true _ _).mp h
      cases change with
      | keep => exact congrArg (item :: ·) (ih (Nat.succ.inj hlength) hchanges)
      | _ => cases hchange

/-- Where nothing has changed, the items stand in their own place. -/
theorem anew?_getD (hlength : items.length = changes.length) :
    (anew? items changes).getD items = spliced items changes := by
  rw [anew?]
  split
  · exact (spliced_of_keep hlength ‹_›).symm
  · rfl

/-! ### As a recursion -/

/-- What becomes of a list, from what becomes of its head and what the answers tell of its tail. -/
theorem list_anew (hlength : items.length = changes.length) :
    change.list item (.ofList items) (ofAnew (anew? items changes)) =
      ofAnew (anew? (item :: items) (change :: changes)) := by
  cases h : changes.all isKeep with
  | true =>
    have hitems := spliced_of_keep hlength h
    cases change <;>
      simp [anew?, ofAnew, list, isKeep, h, spliced_cons, hitems, Node.append_ofList]
  | false =>
    cases change <;>
      simp [anew?, ofAnew, list, h, spliced_cons, Node.append_ofList]

/-! ### As a loop -/

/-- What the loop has put together behind an item, if anything, from what it had in front of it. -/
def push (before : List (Node c)) (item : Node c) (new? : Option (List (Node c))) :
    Change c → Option (List (Node c))
  | keep      => new?.map (· ++ [item])
  | replace n => some (new?.getD before ++ [n])
  | delete    => some (new?.getD before)
  | splice ns => some (new?.getD before ++ ns.toList)

theorem push_anew? (hlength : before.length = changes.length) :
    change.push before item (anew? before changes) =
      anew? (before ++ [item]) (changes ++ [change]) := by
  have hspliced : spliced (before ++ [item]) (changes ++ [change]) =
      spliced before changes ++ (change.elements item).toList := by
    rw [spliced_append hlength, spliced_cons]
    exact congrArg _ (List.append_nil _)
  have hanew : anew? (before ++ [item]) (changes ++ [change]) =
      if changes.all isKeep && change.isKeep then none
      else some (spliced before changes ++ (change.elements item).toList) := by
    rw [anew?, hspliced, List.all_append, List.all_cons, List.all_nil, Bool.and_true]
  rw [hanew]
  cases change with
  | keep => cases h : changes.all isKeep <;> simp [push, anew?, h, isKeep, elements]
  | _ => simp [push, anew?_getD hlength, isKeep, elements]

end Change

/-! ### In any monad -/

namespace Transformer

variable {m : Type → Type} [Monad m] [MonadExceptOf NodeError m]

/-- What a loop over the items has put together when it is through. -/
def collect (t : Transformer m) (items : List (Node c)) : m (Option (List (Node c))) :=
  items.zipIdx.foldlM
    (fun new? (item, i) => return (← t.change item).push (items.take i) item new?) none

/-- A list made anew in a loop over its items. -/
def listLoop (t : Transformer m) (items : List (Node c)) : StateT Bool m (List (Node c)) := do
  match ← t.collect items with
  | some ns => set true; return ns
  | none    => return items

variable [LawfulMonad m] (t : Transformer m) (items : List (Node c))

theorem map_mapM_cons {α : Type} (f : List (Change c) → α) (item : Node c) :
    f <$> (item :: items).mapM t.change =
      t.change item >>= fun change => (fun changes => f (change :: changes)) <$>
        items.mapM t.change := by
  simp only [List.mapM_cons, map_bind, bind_pure_comp, Functor.map_map]

/-- There is an answer for each item. -/
theorem map_mapM_congr {α : Type} {f g : List (Change c) → α}
    (h : ∀ changes, items.length = changes.length → f changes = g changes) :
    f <$> items.mapM t.change = g <$> items.mapM t.change := by
  induction items generalizing f g with
  | nil => simp [h [] rfl]
  | cons item items ih =>
    rw [map_mapM_cons, map_mapM_cons]
    refine bind_congr fun change => ?_
    exact ih fun changes hlength => h _ (congrArg Nat.succ hlength)

/-- **What becomes of a list is told by the answers for its items**, one after the other. -/
theorem change_ofList :
    t.change (.ofList items) =
      (fun changes => .ofAnew (Change.anew? items changes)) <$> items.mapM t.change := by
  induction items with
  | nil =>
    rw [List.mapM_nil, map_pure]
    rfl
  | cons item items ih =>
    rw [map_mapM_cons]
    refine bind_congr fun change => ?_
    rw [ih, bind_pure_comp, Functor.map_map]
    exact t.map_mapM_congr items fun changes hlength => Change.list_anew hlength

/-- What the loop puts together from an item on, if it has put together in front of it what the
answers so far tell of the items so far. -/
theorem collect_from (before : List (Node c)) (changes : List (Change c))
    (hlength : before.length = changes.length) :
    (items.zipIdx before.length).foldlM
        (fun new? (item, i) => return (← t.change item).push ((before ++ items).take i) item new?)
        (Change.anew? before changes) =
      (fun others => Change.anew? (before ++ items) (changes ++ others)) <$>
        items.mapM t.change := by
  -- The items in front and the answers for them grow together, so the loop stays in step.
  induction items generalizing before changes with
  | nil => simp
  | cons item items ih =>
    rw [map_mapM_cons, List.zipIdx_cons, List.foldlM_cons, bind_assoc]
    refine bind_congr fun change => ?_
    have hrest := ih (before ++ [item]) (changes ++ [change]) (by simp [hlength])
    rw [pure_bind, List.take_left, Change.push_anew? hlength]
    simpa using hrest

theorem collect_eq :
    t.collect items = (fun changes => Change.anew? items changes) <$> items.mapM t.change :=
  t.collect_from items [] [] rfl

/-- **For a part of a node the recursion and the loop are the same.** -/
theorem part_eq_listLoop (node field : String) (ns : Nodes c) :
    part node field ns (t.change ns) = .ofList <$> t.listLoop ns.toList := by
  have hchange : t.change ns = Change.ofAnew <$> t.collect ns.toList := by
    rw [collect_eq, Functor.map_map, ← change_ofList, Node.ofList_toList]
  simp only [part, listLoop, hchange, liftM_map, bind_map_left, map_bind]
  refine bind_congr fun new? => ?_
  cases new? <;> simp [Change.ofAnew, Node.ofList_toList]

/-- What the loop makes of a list, and whether that is a change. -/
theorem listLoop_eq (changed : Bool) :
    t.listLoop items changed =
      (fun changes => (Change.spliced items changes, changed || !changes.all Change.isKeep)) <$>
        items.mapM t.change := by
  have hloop : t.listLoop items changed =
      (fun new? => (new?.getD items, changed || new?.isSome)) <$> t.collect items := by
    rw [← bind_pure_comp]
    change (t.collect items >>= fun a => pure (a, changed)) >>= _ = _
    rw [bind_assoc]
    refine bind_congr fun new? => ?_
    rw [pure_bind]
    cases new? with
    | none => exact congrArg (fun b => pure (items, b)) (Bool.or_false changed).symm
    | some ns =>
      change (pure ((), true) >>= fun p => pure (ns, p.2) : m _) = _
      rw [pure_bind, Option.isSome_some, Bool.or_true]
      rfl
  rw [hloop, collect_eq, Functor.map_map]
  refine t.map_mapM_congr items fun changes hlength => ?_
  rw [Change.anew?_getD hlength, Change.anew?]
  cases changes.all Change.isKeep <;> rfl

end Transformer

/-! ### With a memory -/

/-- Changes that may go wrong, with something to remember from node to node, errors included. -/
abbrev Remembering (σ : Type) := ExceptT NodeError (StateM σ)

namespace Remembering

variable {σ α β : Type} {x : Remembering σ α} {f : α → Remembering σ β} {s s' : σ}

theorem bind_ok {a : α} (h : x s = (.ok a, s')) : (x >>= f) s = f a s' := by
  change ExceptT.bindCont f (x s).1 (x s).2 = _
  rw [h]
  rfl

theorem bind_error {e : NodeError} (h : x s = (.error e, s')) : (x >>= f) s = (.error e, s') := by
  change ExceptT.bindCont f (x s).1 (x s).2 = _
  rw [h]
  rfl

/-- What comes behind something that succeeds. -/
theorem of_bind_ok {b : β} (h : (x >>= f) s = (.ok b, s')) :
    ∃ a s₁, x s = (.ok a, s₁) ∧ f a s₁ = (.ok b, s') := by
  rcases hx : x s with ⟨r, s₁⟩
  cases r with
  | error e => cases (bind_error hx).symm.trans h
  | ok a => exact ⟨a, s₁, rfl, (bind_ok hx).symm.trans h⟩

end Remembering

namespace Transformer

variable {σ : Type} {t : Transformer (Remembering σ)}

/-- The answers for nodes one after the other, each with what is remembered then.  The last state is
what is remembered after them all. -/
inductive Changes (t : Transformer (Remembering σ)) :
    List (Node c) → σ → List (Change c) → σ → Prop where
  | nil (s : σ) : Changes t [] s [] s
  | cons {n : Node c} {ns : List (Node c)} {change : Change c} {changes : List (Change c)}
      {s s₁ s' : σ} (hn : t.change n s = (.ok change, s₁)) (hns : Changes t ns s₁ changes s') :
      Changes t (n :: ns) s (change :: changes) s'

/-- The ways in which a list can be made anew: there is an error for one of its items, the first,
and this is the error for the list; or there are answers for all, and they tell what the list is
then and whether it has changed. -/
inductive Flattens (t : Transformer (Remembering σ)) (items : List (Node c)) (changed : Bool)
    (s : σ) : Except NodeError (List (Node c) × Bool) × σ → Prop where
  | fails {before after : List (Node c)} {n : Node c} {changes : List (Change c)} {s₁ s' : σ}
      {e : NodeError} (hitems : items = before ++ n :: after)
      (hbefore : t.Changes before s changes s₁) (hn : t.change n s₁ = (.error e, s')) :
      Flattens t items changed s (.error e, s')
  | makes {changes : List (Change c)} {changed' : Bool} {s' : σ}
      (hitems : t.Changes items s changes s')
      (hchanged : changed' = true ↔ changed = true ∨ ∃ change ∈ changes, change ≠ .keep) :
      Flattens t items changed s (.ok (Change.spliced items changes, changed'), s')

/-- The answers for items come one after the other, up to the first error. -/
theorem mapM_answers (t : Transformer (Remembering σ)) (items : List (Node c)) (s : σ) :
    (∃ before n after changes s₁ e s', items = before ++ n :: after ∧
        t.Changes before s changes s₁ ∧ t.change n s₁ = (.error e, s') ∧
        items.mapM t.change s = (.error e, s')) ∨
      ∃ changes s', t.Changes items s changes s' ∧ items.mapM t.change s = (.ok changes, s') := by
  induction items generalizing s with
  | nil => exact .inr ⟨[], s, .nil s, rfl⟩
  | cons item items ih =>
    rw [List.mapM_cons]
    rcases hitem : t.change item s with ⟨r, s₁⟩
    cases r with
    | error e =>
      exact .inl ⟨[], item, items, [], s, e, s₁, rfl, .nil s, hitem, Remembering.bind_error hitem⟩
    | ok change =>
      rw [Remembering.bind_ok hitem]
      obtain ⟨before, n, after, changes, s₂, e, s', rfl, hbefore, hn, hitems⟩ |
        ⟨changes, s', hchanges, hitems⟩ := ih s₁
      · exact .inl ⟨item :: before, n, after, change :: changes, s₂, e, s', rfl,
          .cons hitem hbefore, hn, Remembering.bind_error hitems⟩
      · exact .inr ⟨change :: changes, s', .cons hitem hchanges, Remembering.bind_ok hitems⟩

/-- **Making a list anew is a flat map.** -/
theorem listLoop_flattens (t : Transformer (Remembering σ)) (items : List (Node c)) (changed : Bool)
    (s : σ) : t.Flattens items changed s (t.listLoop items changed s) := by
  rw [listLoop_eq, ← bind_pure_comp]
  obtain ⟨before, n, after, changes, s₁, e, s', hitems, hbefore, hn, hmapM⟩ |
    ⟨changes, s', hchanges, hmapM⟩ := t.mapM_answers items s
  · rw [Remembering.bind_error hmapM]
    exact .fails hitems hbefore hn
  · rw [Remembering.bind_ok hmapM]
    refine .makes hchanges ?_
    rw [Bool.or_eq_true, Bool.not_eq_true', ← Bool.not_eq_true, Change.all_isKeep_iff]
    simp only [Classical.not_forall, exists_prop, ne_eq]

end Transformer

end JavaSource
