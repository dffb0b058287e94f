import JavaSource.Grammar.Recognizer
import JavaSource.Proofs.Layout.Productions

/-!
# Recognition without places

`unplaced` takes away where things stand: from a token its place and range, from a tree the
locations of its phrases, from a source all of that and every touching but that of `>`.

Carrying out a rule commutes with it (`Rule.run_unplaced`): what a rule does without places is what
it does with them, places taken away.  So two sources that are the same without places have the
same trees without places, or are refused for the same cause (`recognize_alike`).
-/

namespace JavaSource

/-- A token that stands nowhere. -/
def Token.unplaced (t : Token) : Token := { t with place := default, range := default }

namespace Tree

mutual

/-- A tree without the places of its tokens and phrases. -/
def unplaced : Tree → Tree
  | leaf t        => leaf t.unplaced
  | node k ps _ _ => node k (unplacedAll ps) default default

/-- Trees without places. -/
def unplacedAll : List Tree → List Tree
  | []      => []
  | t :: ts => unplaced t :: unplacedAll ts

end

theorem unplacedAll_eq_map (ts : List Tree) : unplacedAll ts = ts.map unplaced := by
  induction ts with
  | nil => rfl
  | cons t ts ih => rw [unplacedAll, ih, List.map_cons]

@[simp] theorem phrase?_unplaced (t : Tree) : t.unplaced.phrase? = t.phrase? := by
  cases t <;> simp only [unplaced, phrase?]

@[simp] theorem parts_unplaced (t : Tree) : t.unplaced.parts = t.parts.map unplaced := by
  cases t with
  | leaf t => simp only [unplaced, parts, List.map_nil]
  | node k ps a b => simp only [unplaced, parts, unplacedAll_eq_map]

@[simp] theorem token?_unplaced (t : Tree) : t.unplaced.token? = t.token?.map Token.unplaced := by
  cases t <;> simp only [unplaced, token?, Option.map_some, Option.map_none]

theorem start_unplaced (t : Tree) : t.unplaced.start = default := by
  cases t <;> rw [unplaced] <;> rfl

theorem stop_unplaced (t : Tree) : t.unplaced.stop = default := by
  cases t <;> rw [unplaced] <;> rfl

theorem ofParts_unplaced (kind : Phrase) (ts : List Tree) (place : Location) :
    (ofParts kind ts place).unplaced = ofParts kind (ts.map unplaced) default := by
  have hend {f : Tree → Location} (hf : ∀ t : Tree, f t.unplaced = default) (t? : Option Tree) :
      ((t?.map unplaced).map f).getD default = default := by
    cases t? with
    | none => rfl
    | some t => exact hf t
  simp only [ofParts, unplaced, unplacedAll_eq_map, List.head?_map, List.getLast?_map,
    hend start_unplaced, hend stop_unplaced]

end Tree

namespace Grammar

/-- A state whose parts stand nowhere. -/
def State.unplaced (s : State) : State := { s with parts := s.parts.map Tree.unplaced }

/-- Where moves lead, without places. -/
def Outcome.unplaced {α : Type} : Outcome α → Outcome α
  | .done value s           => .done value s.unplaced
  | .refused place why memo => .refused place why memo

namespace State

variable (s : State)

@[simp] theorem read_unplaced : s.unplaced.read = s.read := rfl

@[simp] theorem depth_unplaced : s.unplaced.depth = s.depth := rfl

@[simp] theorem memo_unplaced : s.unplaced.memo = s.memo := rfl

@[simp] theorem parts_unplaced : s.unplaced.parts = s.parts.map Tree.unplaced := rfl

end State

namespace Outcome

variable {α : Type}

@[simp] theorem unplaced_done (value : α) (s : State) :
    (done value s).unplaced = done value s.unplaced := rfl

@[simp] theorem unplaced_refused (place : Nat) (why : Stop) (memo : Memo) :
    (refused place why memo : Outcome α).unplaced = refused place why memo := rfl

end Outcome

/-- A source of which only the kinds and texts of tokens are left, and which `>` touch. -/
def Source.unplaced (source : Source) : Source :=
  ⟨source.tokens.map Token.unplaced, (settle source.symbols.toList).toArray⟩

variable {source : Source} {limit : Nat}

theorem Source.ahead_unplaced (s : State) :
    source.unplaced.ahead s.unplaced = (source.ahead s).settled := by
  simp only [ahead, Source.unplaced, State.unplaced, Ahead.settled, List.head?_map]
  cases s.parts.head? with
  | none => rfl
  | some t => simp only [Option.map_some, Option.bind_some, Tree.phrase?_unplaced]

theorem Source.getElem?_tokens_unplaced (i : Nat) :
    source.unplaced.tokens[i]? = source.tokens[i]?.map Token.unplaced := Array.getElem?_map

theorem Source.location_unplaced (read : Nat) : source.unplaced.location read = default := by
  rw [location, getElem?_tokens_unplaced]
  cases source.tokens[read]? <;> rfl

theorem mapM_map {α β γ : Type} (f : α → Option β) (g : β → γ) (as : List α) :
    as.mapM (fun a => (f a).map g) = (as.mapM f).map (List.map g) := by
  induction as with
  | nil => rfl
  | cons a as ih =>
    simp only [List.mapM_cons, ih]
    cases f a with
    | none => rfl
    | some b => cases as.mapM f <;> rfl

theorem Source.joined_unplaced (kind : TokenKind) (read width : Nat) :
    source.unplaced.joined kind read width =
      (source.joined kind read width).map Token.unplaced := by
  simp only [joined, getElem?_tokens_unplaced, mapM_map]
  cases (List.range width).mapM fun i => source.tokens[read + i]? with
  | none => rfl
  | some ts =>
    cases hfirst : ts.head? with
    | none => simp [hfirst]
    | some first =>
      cases hlast : ts.getLast? with
      | none => simp [hfirst, hlast]
      | some last => simp [hfirst, hlast, Token.unplaced, Function.comp_def]

theorem Outcome.iterate_unplaced {step step' : State → Outcome Bool}
    (hstep : ∀ s : State, step' s.unplaced = (step s).unplaced) (fuel : Nat) (s : State) :
    Outcome.iterate step' fuel s.unplaced = (Outcome.iterate step fuel s).unplaced := by
  induction fuel generalizing s with
  | zero => rfl
  | succ fuel ih =>
    simp only [iterate, hstep]
    cases step s with
    | refused place why memo => rfl
    | done more s' =>
      cases more with
      | false => rfl
      | true =>
        simp only [unplaced_done]
        by_cases hread : s.read < s'.read
        · rw [if_pos (show s.unplaced.read < s'.unplaced.read from hread), if_pos hread, ih]
        · rw [if_neg (show ¬s.unplaced.read < s'.unplaced.read from hread), if_neg hread,
            unplaced_done]

/-- Moves that ignore the layout do without places what they do with them. -/
theorem Move.run_unplaced {other other' : Rule → State → Outcome Unit}
    (hother : ∀ r (s : State), other' r s.unplaced = (other r s).unplaced) {α : Type} {m : Move α}
    (hm : m.IgnoresLayout) (s : State) :
    m.run source.unplaced limit other' s.unplaced = (m.run source limit other s).unplaced := by
  have hopen (r : Rule) (s : State) :
      other' r ⟨s.read, s.depth, [], s.memo⟩ = (other r ⟨s.read, s.depth, [], s.memo⟩).unplaced :=
    hother r ⟨s.read, s.depth, [], s.memo⟩
  induction m generalizing s with
  | done value => rfl
  | look next ih =>
    simp only [run, Source.ahead_unplaced, (hm _).1]
    exact ih _ (hm _).2 s
  | shift next ih =>
    simp only [run, Source.getElem?_tokens_unplaced, State.read_unplaced]
    cases source.tokens[s.read]? with
    | none => rfl
    | some t =>
      simp only [Option.map_some]
      by_cases ht : t.kind = .eof
      · rw [if_pos (show t.unplaced.kind = .eof from ht), if_pos ht]
        rfl
      · rw [if_neg (show ¬t.unplaced.kind = .eof from ht), if_neg ht, ← ih hm]
        rfl
  | join kind width next ih =>
    simp only [run, Source.joined_unplaced, State.read_unplaced]
    cases source.joined kind s.read width with
    | none => rfl
    | some t => exact ih hm { s with read := s.read + width, parts := .leaf t :: s.parts }
  | call rule next ih =>
    simp only [run, State.read_unplaced, State.depth_unplaced, State.memo_unplaced, hopen]
    cases other rule ⟨s.read, s.depth, [], s.memo⟩ with
    | refused place why memo => rfl
    | done value s' =>
      simp only [Outcome.unplaced_done, State.parts_unplaced, ← List.map_append]
      exact ih hm { s with read := s'.read, parts := s'.parts ++ s.parts, memo := s'.memo }
  | probe what next ih =>
    simp only [run, State.read_unplaced, State.depth_unplaced, State.memo_unplaced, hopen]
    cases s.memo.lookup (s.read, what) with
    | some width => exact ih width (hm width) s
    | none =>
      cases other what.rule ⟨s.read, s.depth, [], s.memo⟩ with
      | refused place why memo =>
        exact ih none (hm none) { s with memo := ((s.read, what), none) :: memo }
      | done value s' =>
        exact ih _ (hm _) { s with memo := ((s.read, what), some (s'.read - s.read)) :: s'.memo }
  | wrap kind next ih =>
    simp only [run]
    rw [← ih hm]
    simp only [State.unplaced, Source.location_unplaced, List.map_cons, List.map_nil,
      Tree.ofParts_unplaced, List.map_reverse]
  | deepen next ih =>
    simp only [run]
    by_cases hdepth : s.depth < limit
    · rw [if_pos (show s.unplaced.depth < limit from hdepth), if_pos hdepth]
      exact ih hm { s with depth := s.depth + 1 }
    · rw [if_neg (show ¬s.unplaced.depth < limit from hdepth), if_neg hdepth]
      rfl
  | iterate body next ihb ih =>
    have hsize : source.unplaced.tokens.size = source.tokens.size := Array.size_map ..
    simp only [run, hsize, Outcome.iterate_unplaced (fun s => ihb hm.1 s)]
    cases Outcome.iterate (body.run source limit other) source.tokens.size s with
    | refused place why memo => rfl
    | done value s' => exact ih hm.2 s'
  | refuse place why => rfl

/-- **Carrying out a rule commutes with taking away the places.** -/
theorem Rule.run_unplaced (rule : Rule) (s : State) :
    rule.run source.unplaced limit s.unplaced = (rule.run source limit s).unplaced := by
  have hwork (r : Rule) (read : Nat) : source.unplaced.work r read = source.work r read := by
    rw [Source.work, Source.work, Source.unplaced, Array.size_map]
  rw [run, run]
  refine Move.run_unplaced (fun r s' => ?_) rule.production_ignores s
  simp only [hwork, State.read_unplaced]
  split
  · exact Rule.run_unplaced r s'
  · rfl
termination_by source.work rule s.read

theorem unplaced_ofTokens {ts us : List Token}
    (htokens : ts.map Token.unplaced = us.map Token.unplaced)
    (htouch : settle (symbols ts) = settle (symbols us)) :
    (Source.ofTokens ts).unplaced = (Source.ofTokens us).unplaced := by
  simp only [Source.unplaced, Source.ofTokens, List.map_toArray, htokens, htouch]

theorem Stop.cause_unplaced (limit : Nat) (why : Stop) (t : Token) :
    why.cause limit t.unplaced = why.cause limit t := by
  cases why with
  | refusal why => cases why <;> rfl
  | tooDeep => rfl

/-- **Tokens that are the same but for where they stand, and of which the same `>` touch, have the
same tree but for where things stand, or are refused for the same cause.** -/
theorem recognize_alike (limit : Nat) (rule : Rule) {ts us : List Token}
    (htokens : ts.map Token.unplaced = us.map Token.unplaced)
    (htouch : settle (symbols ts) = settle (symbols us)) :
    ((recognize limit rule ts).map Tree.unplaced).mapError Fault.cause =
      ((recognize limit rule us).map Tree.unplaced).mapError Fault.cause := by
  have hrun : (rule.run (.ofTokens ts) limit ⟨0, 0, [], []⟩).unplaced =
      (rule.run (.ofTokens us) limit ⟨0, 0, [], []⟩).unplaced := by
    rw [← rule.run_unplaced, unplaced_ofTokens htokens htouch, rule.run_unplaced]
  have hfound (place : Nat) : ((ts[place]? <|> ts.getLast?).getD default).unplaced =
      ((us[place]? <|> us.getLast?).getD default).unplaced := by
    have hmap (vs : List Token) : ((vs[place]? <|> vs.getLast?).getD default).unplaced =
        ((vs.map Token.unplaced)[place]? <|> (vs.map Token.unplaced).getLast?).getD default := by
      rw [List.getElem?_map, List.getLast?_map]
      cases vs[place]? with
      | some t => rfl
      | none => cases vs.getLast? <;> rfl
    rw [hmap, hmap, htokens]
  unfold recognize
  dsimp only
  cases hts : rule.run (.ofTokens ts) limit ⟨0, 0, [], []⟩ with
  | refused place why memo =>
    rw [hts] at hrun
    cases hus : rule.run (.ofTokens us) limit ⟨0, 0, [], []⟩ with
    | refused place' why' memo' =>
      rw [hus] at hrun
      cases hrun
      refine congrArg Except.error ?_
      rw [← Stop.cause_unplaced limit, hfound, Stop.cause_unplaced]
    | done value s =>
      rw [hus] at hrun
      cases hrun
  | done value s =>
    rw [hts] at hrun
    cases hus : rule.run (.ofTokens us) limit ⟨0, 0, [], []⟩ with
    | refused place' why' memo' =>
      rw [hus] at hrun
      cases hrun
    | done value' s' =>
      rw [hus] at hrun
      have hparts : s.parts.map Tree.unplaced = s'.parts.map Tree.unplaced :=
        congrArg State.parts (Outcome.done.inj hrun).2
      have hhead (s : State) (default : Tree) : (s.parts.head?.getD default).unplaced =
          (s.parts.map Tree.unplaced).head?.getD default.unplaced := by
        rw [List.head?_map]
        cases s.parts.head? <;> rfl
      refine congrArg Except.ok ?_
      rw [hhead, hparts, hhead]

end Grammar

end JavaSource
