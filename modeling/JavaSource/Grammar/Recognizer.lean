import JavaSource.Fault
import JavaSource.Grammar.Production
import JavaSource.Tree.Basic

/-!
# Grammar — Recognizer

Carries out the moves of rules over the tokens of a source.  The state is the number of tokens
read, the depth of nesting, the parts of the phrase being read, and what probes have found.  What
a probe found at a token is found again without trying, at whatever depth.

Rules are carried out by recursion on the tokens left and then on the rank of the rule.  A rule
that came back to itself without having read anything would find no alternative.
-/

namespace JavaSource.Grammar

/-- The tokens of a source, and the symbols that the grammar sees. -/
structure Source where
  tokens : Array Token
  symbols : Array Symbol

/-- The source of some tokens. -/
def Source.ofTokens (tokens : List Token) : Source :=
  ⟨tokens.toArray, (Grammar.symbols tokens).toArray⟩

/-- What probes have found: for a token and a probe, how much it reads, or that it fails. -/
abbrev Memo := List ((Nat × Probe) × Option Nat)

/-- How reading stands. -/
structure State where
  /-- How many tokens have been read. -/
  read : Nat
  /-- How deep the phrase being read is nested. -/
  depth : Nat
  /-- The parts of the phrase being read, the latest first. -/
  parts : List Tree
  memo : Memo

/-- Why reading ends before it is done. -/
inductive Stop where
  /-- A rule refuses the source. -/
  | refusal (why : Refusal)
  /-- The limit is met. -/
  | tooDeep
  deriving DecidableEq, Repr

instance : Coe Refusal Stop := ⟨.refusal⟩

/-- Where moves lead. -/
inductive Outcome (α : Type) where
  | done (value : α) (state : State)
  | refused (place : Nat) (why : Stop) (memo : Memo)

namespace Source

/-- What the grammar sees in a state. -/
def ahead (source : Source) (s : State) : Ahead :=
  ⟨source.symbols, s.read, s.parts.head?.bind Tree.phrase?⟩

/-- Where the next token stands. -/
def location (source : Source) (read : Nat) : Location :=
  (source.tokens[read]?.map Token.location).getD default

/-- Some tokens as one. -/
def joined (source : Source) (kind : TokenKind) (read width : Nat) : Option Token := do
  let parts ← (List.range width).mapM fun i => source.tokens[read + i]?
  let first ← parts.head?
  let last ← parts.getLast?
  return ⟨kind, String.join (parts.map (·.text)), first.place, ⟨first.range.start, last.range.stop⟩⟩

end Source

/-- Moves over and over, while they say so and read something. -/
def Outcome.iterate (step : State → Outcome Bool) : (fuel : Nat) → State → Outcome Unit
  | 0, s => .done () s
  | fuel + 1, s =>
    match step s with
    | .refused place why memo => .refused place why memo
    | .done false s'          => .done () s'
    | .done true s'           => if s.read < s'.read then iterate step fuel s' else .done () s'

/-- Carries out moves, with a way to carry out other rules.  The limit bounds the depth. -/
def Move.run (source : Source) (limit : Nat) (other : Rule → State → Outcome Unit) {α : Type} :
    Move α → State → Outcome α
  | .done value, s => .done value s
  | .look next, s  => (next (source.ahead s)).run source limit other s
  | .shift next, s =>
    match source.tokens[s.read]? with
    | none   => .refused s.read Refusal.noViableAlternative s.memo
    | some t =>
      if t.kind = .eof then .refused s.read Refusal.noViableAlternative s.memo
      else next.run source limit other { s with read := s.read + 1, parts := .leaf t :: s.parts }
  | .join kind width next, s =>
    match source.joined kind s.read width with
    | none   => .refused s.read Refusal.noViableAlternative s.memo
    | some t =>
      next.run source limit other { s with read := s.read + width, parts := .leaf t :: s.parts }
  | .call rule next, s =>
    match other rule { s with parts := [] } with
    | .refused place why memo => .refused place why memo
    | .done () s'             =>
      next.run source limit other
        { s with read := s'.read, parts := s'.parts ++ s.parts, memo := s'.memo }
  | .probe what next, s =>
    match s.memo.lookup (s.read, what) with
    | some width => (next width).run source limit other s
    | none       =>
      match other what.rule { s with parts := [] } with
      | .refused _ _ memo =>
        (next none).run source limit other { s with memo := ((s.read, what), none) :: memo }
      | .done () s'       =>
        let width := some (s'.read - s.read)
        (next width).run source limit other { s with memo := ((s.read, what), width) :: s'.memo }
  | .wrap kind next, s =>
    let phrase := Tree.ofParts kind s.parts.reverse (source.location s.read)
    next.run source limit other { s with parts := [phrase] }
  | .deepen next, s =>
    if s.depth < limit then next.run source limit other { s with depth := s.depth + 1 }
    else .refused s.read .tooDeep s.memo
  | .iterate body next, s =>
    match Outcome.iterate (body.run source limit other) source.tokens.size s with
    | .refused place why memo => .refused place why memo
    | .done () s'             => next.run source limit other s'
  | .refuse place why, s => .refused place why s.memo

/-- What is left to do for a rule: tokens to read first, then rules to go through. -/
def Source.work (source : Source) (rule : Rule) (read : Nat) : Nat :=
  (source.tokens.size - read) * Rule.ranks + rule.rank

/-- Carries out a rule. -/
def Rule.run (source : Source) (limit : Nat) (rule : Rule) (s : State) : Outcome Unit :=
  rule.production.run source limit (fun rule' s' =>
    if source.work rule' s'.read < source.work rule s.read then rule'.run source limit s'
    else .refused s'.read Refusal.noViableAlternative s'.memo) s
termination_by source.work rule s.read

/-- A refusal in words, at a token. -/
def Refusal.cause (found : Token) : Refusal → Cause
  | mismatched expecting => .mismatched found.display expecting
  | noViableAlternative  => .noViableAlternative found.display
  | extraneous           => .extraneous found.display TokenKind.eof.describe
  | lambdaReceiver       => .lambdaReceiver

/-- The end of a reading in words, at a token. -/
def Stop.cause (limit : Nat) (found : Token) : Stop → Cause
  | refusal why => why.cause found
  | tooDeep     => .tooDeep limit

/-- The tree of tokens that start with a rule, nested no deeper than a limit. -/
def recognize (limit : Nat) (rule : Rule) (tokens : List Token) : Except Fault Tree :=
  let source := Source.ofTokens tokens
  match rule.run source limit ⟨0, 0, [], []⟩ with
  | .refused place why _ =>
    let found := (tokens[place]? <|> tokens.getLast?).getD default
    .error ⟨found.place, why.cause limit found⟩
  | .done () s =>
    .ok (s.parts.head?.getD (Tree.ofParts .compilationUnit [] default))

end JavaSource.Grammar
