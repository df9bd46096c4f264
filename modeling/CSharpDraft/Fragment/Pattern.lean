import CSharpDraft.Fragment.Tree

/-!
# Patterns of tokens

A grammar is a table from rule names to patterns, and `Pattern.run` is the one function that matches a pattern. The
choice between two patterns is ordered: the second is tried only where the first does not match.

* `Pattern`: single tokens, rows, choices, repetitions, conditions on what follows, and nodes.
* `Pattern.run`: matches a pattern at the start of a list of tokens and gives the trees of what it took, with the tokens
  that it left. Comments are taken along in front of the token that they precede.
* `optional`, `row`, `oneOf`, `listOf`, …: patterns built from these.
-/

set_option autoImplicit false

namespace CSharpDraft.Fragment

/-- A pattern of tokens, over the names `ρ` of the rules of its grammar. -/
inductive Pattern (ρ : Type) where
  /-- Nothing. -/
  | nothing
  /-- One token that is accepted. -/
  | token (accepts : Token → Bool)
  /-- What the rule describes. -/
  | rule (name : ρ)
  /-- One pattern, then another. -/
  | both (p q : Pattern ρ)
  /-- The first pattern, or the second where the first does not match. -/
  | either (p q : Pattern ρ)
  /-- The pattern, as often as it matches. -/
  | many (p : Pattern ρ)
  /-- Nothing, where the tokens that follow satisfy the condition. -/
  | when (condition : List Token → Bool)
  /-- Nothing, where the pattern matches what follows. -/
  | ahead (p : Pattern ρ)
  /-- A node over what the pattern takes. -/
  | node (kind : NodeKind) (p : Pattern ρ)

namespace Pattern

variable {ρ : Type}

/-- The tokens without the comments at their start. -/
def skipTrivia (ts : List Token) : List Token := ts.dropWhile Token.isTrivia

/-- Takes one token, with the comments in front of it. -/
def takeToken (accepts : Token → Bool) (ts : List Token) : Option (List Tree × List Token) :=
  match skipTrivia ts with
  | [] => none
  | t :: rest => if accepts t then some ((ts.takeWhile Token.isTrivia ++ [t]).map Tree.leaf, rest) else none

/-- Matches a pattern at the start of a list of tokens, with at most `fuel` nested steps. -/
def run (grammar : ρ → Pattern ρ) : Nat → Pattern ρ → List Token → Option (List Tree × List Token)
  | 0, _, _ => none
  | _ + 1, nothing, ts => some ([], ts)
  | _ + 1, token accepts, ts => takeToken accepts ts
  | fuel + 1, rule name, ts => run grammar fuel (grammar name) ts
  | fuel + 1, both p q, ts =>
    match run grammar fuel p ts with
    | none => none
    | some (front, rest) =>
      match run grammar fuel q rest with
      | none => none
      | some (back, rest) => some (front ++ back, rest)
  | fuel + 1, either p q, ts =>
    match run grammar fuel p ts with
    | some result => some result
    | none => run grammar fuel q ts
  | fuel + 1, many p, ts =>
    match run grammar fuel p ts with
    | none => some ([], ts)
    | some (front, rest) =>
      match run grammar fuel (many p) rest with
      | none => none
      | some (back, rest) => some (front ++ back, rest)
  | _ + 1, when condition, ts => if condition (skipTrivia ts) then some ([], ts) else none
  | fuel + 1, ahead p, ts =>
    match run grammar fuel p ts with
    | some _ => some ([], ts)
    | none => none
  | fuel + 1, node kind p, ts =>
    match run grammar fuel p ts with
    | some (row, rest) => some (Tree.group kind row, rest)
    | none => none

/-! ## Derived patterns -/

def optional (p : Pattern ρ) : Pattern ρ := either p nothing

def row : List (Pattern ρ) → Pattern ρ
  | [] => nothing
  | [p] => p
  | p :: ps => both p (row ps)

def never : Pattern ρ := when (fun _ => false)

def oneOf : List (Pattern ρ) → Pattern ρ
  | [] => never
  | [p] => p
  | p :: ps => either p (oneOf ps)

def symbol (s : String) : Pattern ρ :=
  let spelled := s.toList
  token (·.isSymbol spelled)

def symbolOf (ss : List Text) : Pattern ρ := token (fun t => t.kind == .symbol && ss.contains t.text)

def word (w : String) : Pattern ρ :=
  let spelled := w.toList
  token (·.isWord spelled)

def wordOf (ws : List Text) : Pattern ρ := token (·.isOneOf ws)

/-- A name; words are names wherever they have no other use. -/
def anyName : Pattern ρ := token (fun t => t.kind == .word || t.kind == .escapedWord)

/-- A name that is none of the words `ws`. -/
def nameExcept (ws : List Text) : Pattern ρ :=
  token (fun t => t.kind == .escapedWord || (t.kind == .word && !ws.contains t.text))

def kindOf (ks : List TokenKind) : Pattern ρ := token (fun t => ks.contains t.kind)

/-- The pattern at least once, with separators between. -/
def sepBy (separator p : Pattern ρ) : Pattern ρ := both p (many (both separator p))

/-- The pattern any number of times, with commas between. -/
def listOf (p : Pattern ρ) : Pattern ρ := optional (sepBy (symbol ",") p)

/-- The condition that the next token is accepted. -/
def nextIs (accepts : Token → Bool) : Pattern ρ := when (fun ts => ts.head?.any accepts)

/-- The condition that the next token is not accepted. -/
def nextIsNot (accepts : Token → Bool) : Pattern ρ := when (fun ts => !ts.head?.any accepts)

def inParens (p : Pattern ρ) : Pattern ρ := row [symbol "(", p, symbol ")"]

def inBrackets (p : Pattern ρ) : Pattern ρ := row [symbol "[", p, symbol "]"]

def inBraces (p : Pattern ρ) : Pattern ρ := row [symbol "\x7b", p, symbol "\x7d"]

end Pattern

end CSharpDraft.Fragment
