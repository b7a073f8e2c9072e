import GoComplexity.Source.Tree

/-!
# Grammar rules

A rule reads tokens and collects trees. `Rule.alt` commits to the first alternative that succeeds and
`Rule.star` repeats as long as it can. Trees are built on the way: `Rule.scope` collects apart from
what was collected before, and inside a scope `Rule.wrap` encloses everything collected so far in one
node. Left-recursive forms such as `f(x)(y)` are loops that wrap again and again.

A grammar gives a rule for each symbol. Running it takes fuel, which is spent by entering a symbol.
-/

namespace GoComplexity.Source

inductive Rule (σ : Type) where
  /-- Reads nothing. -/
  | empty
  /-- Fails. -/
  | fail
  /-- Reads one token of a class. -/
  | take (c : TokenClass)
  /-- Reads what a symbol stands for. -/
  | call (s : σ)
  | seq (a b : Rule σ)
  | alt (a b : Rule σ)
  | star (a : Rule σ)
  | scope (a : Rule σ)
  | wrap (k : Kind)
  /-- Gives a role to everything collected that has none. -/
  | assign (r : Role)
  /-- Reads nothing, but only where `a` would succeed. -/
  | ahead (a : Rule σ)
  /-- Reads nothing, but only where `a` would fail. -/
  | notAhead (a : Rule σ)
  /-- Reads nothing, but only if the next token stands on the line of the token before. -/
  | sameLine
  /-- Ends a statement: at the end of the input, at a line break, or by a semicolon. -/
  | ends
  /-- Reads nothing, but takes a mark apart into the marks `a` and `b`. -/
  | split (a b : String)
  /-- Reads nothing, but only before a pair of braces after which `a` would succeed. -/
  | beyondBraces (a : Rule σ)

/-- What reading yields: the trees collected and the tokens left. -/
abbrev Reading := List Tree × List Token

/-- Repeats a step until it fails, at most `fuel` times. -/
def iterate (step : List Tree → List Token → Option Reading) :
    Nat → List Tree → List Token → Reading
  | 0, acc, toks => (acc, toks)
  | fuel + 1, acc, toks =>
    match step acc toks with
    | none => (acc, toks)
    | some (acc', toks') => iterate step fuel acc' toks'

/-- The tokens after the brace that closes the `depth` open ones. -/
def afterBraces : Nat → List Token → List Token
  | _, [] => []
  | depth, t :: toks =>
    if t.kind == .mark "\x7b" then afterBraces (depth + 1) toks
    else if t.kind == .mark "\x7d" then
      match depth with
      | 0 => toks
      | 1 => toks
      | d + 1 => afterBraces d toks
    else match depth with
      | 0 => t :: toks
      | d => afterBraces d toks

/-- Whether the tokens start with an opening brace. -/
def startsBlock : List Token → Bool
  | [] => false
  | t :: _ => t.kind == .mark "\x7b"

namespace Rule

variable {σ : Type}

/-- Runs a rule on what was collected in the scope and the tokens left. -/
def run (fuel : Nat) (enter : σ → List Token → Option Reading) :
    Rule σ → List Tree → List Token → Option Reading
  | .empty, acc, toks => some (acc, toks)
  | .fail, _, _ => none
  | .take _, _, [] => none
  | .take c, acc, t :: toks => if c.admits t.kind then some (acc ++ [.leaf none t], toks) else none
  | .call s, acc, toks => (enter s toks).map fun (trees, rest) ↦ (acc ++ trees, rest)
  | .seq a b, acc, toks =>
    match a.run fuel enter acc toks with
    | none => none
    | some (acc', toks') => b.run fuel enter acc' toks'
  | .alt a b, acc, toks =>
    match a.run fuel enter acc toks with
    | none => b.run fuel enter acc toks
    | some reading => some reading
  | .star a, acc, toks => some (iterate (a.run fuel enter) fuel acc toks)
  | .scope a, acc, toks => (a.run fuel enter [] toks).map fun (trees, rest) ↦ (acc ++ trees, rest)
  | .wrap k, acc, toks => some ([.node none k acc], toks)
  | .assign r, acc, toks => some (acc.map (Tree.withRole r), toks)
  | .ahead a, acc, toks => (a.run fuel enter [] toks).map fun _ ↦ (acc, toks)
  | .notAhead a, acc, toks => if (a.run fuel enter [] toks).isNone then some (acc, toks) else none
  | .sameLine, acc, toks =>
    match toks with
    | [] => none
    | t :: _ => if t.newline then none else some (acc, toks)
  | .ends, acc, toks =>
    match toks with
    | [] => some (acc, [])
    | t :: rest =>
      if t.newline then some (acc, toks)
      else if t.kind == .mark ";" || t.kind == .mark "\x00" then some (acc ++ [.leaf none t], rest)
      else none
  | .split a b, acc, toks =>
    match toks with
    | [] => none
    | t :: rest => if t.kind == .mark (a ++ b) then some (acc, t.halves a b ++ rest) else none
  | .beyondBraces a, acc, toks =>
    if startsBlock toks then (a.run fuel enter [] (afterBraces 0 toks)).map fun _ ↦ (acc, toks)
    else none

/-- Rules one after the other. -/
def all (rules : List (Rule σ)) : Rule σ := rules.foldr seq empty

/-- The first of some rules that succeeds. -/
def any (rules : List (Rule σ)) : Rule σ := rules.foldr alt fail

def opt (a : Rule σ) : Rule σ := alt a empty

def mark (text : String) : Rule σ := take (.mark text)

/-- A child with a role. -/
def child (r : Role) (a : Rule σ) : Rule σ := scope (seq a (assign r))

def keyword (text : String) : Rule σ := child .keyword (take (.keyword text))

/-- One of some keywords. -/
def keywords (texts : List String) : Rule σ := any (texts.map keyword)

/-- An identifier where nothing but a rival could stand. -/
def name (rival : Rival) : Rule σ := take (.name rival)

/-- A node of a kind. -/
def node (k : Kind) (a : Rule σ) : Rule σ := scope (seq a (wrap k))

/-- One or more `a`, separated by commas. -/
def commaList (a : Rule σ) : Rule σ := seq a (star (seq (mark ",") a))

/-- Zero or more `a`, separated by commas and with a comma after the last one allowed. -/
def looseList (a : Rule σ) : Rule σ := seq (opt (commaList a)) (opt (mark ","))

end Rule

/-- What a symbol of a grammar reads from tokens. -/
def parse {σ : Type} (grammar : σ → Rule σ) : Nat → σ → List Token → Option Reading
  | 0, _, _ => none
  | fuel + 1, s, toks => (grammar s).run fuel (parse grammar fuel) [] toks

end GoComplexity.Source
