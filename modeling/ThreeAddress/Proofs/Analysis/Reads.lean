import ThreeAddress.Analysis.Basic
import ThreeAddress.Proofs.Code.TwoPass
import ThreeAddress.Proofs.Lexer.Stream
import ThreeAddress.Proofs.Syntax.Grammar
import ThreeAddress.Proofs.Syntax.Names

/-!
# Reasoning about an analysis

An analysis is a predictive parser that takes its tokens from a lexer, checks names and emits code
on the way. This module says what it means for a part of it to do that as it should.

A `Point` is a place in the tokens of a source together with what a parser expects there. `Sound`
ties it to the grammar, to the rules about names and to what has been made so far. The judgment is

    Reads x π p m Q

Started at the point `π`, with `p` made so far, the part `m` either ends at a sound point where `Q`
holds, or it stops with a complaint that is justified (`Violates`). The points speak of the tokens
from the start of the source on and of the whole form that is expected, so complaints are the same
inside and outside of a rule, and a sequence of steps is a sequence of points (`Reads.bind`).

Between taking a token and deciding what it is, a part of an analysis holds a token that the parser
has not moved over yet. The judgment `Holding` is for such parts.
-/

namespace ThreeAddress

open Grammar

/-! ## 1. What an analysis has made -/

/-- The variable that an event reports as narrowed. -/
def Event.narrowed? : Event → Option String
  | .narrowing name => some name
  | _ => none

/-- What an analysis has made so far. -/
structure Products where
  symbols : List Symbol := []
  quads : List Quad := []
  /-- how many jumps wait for their target -/
  pending : Nat := 0
  /-- how many temporaries were drawn -/
  temps : Nat := 0
  /-- the variables reported as narrowed -/
  narrowed : List String := []

/-- The type of a variable among some declared ones. -/
def typeIn (symbols : List Symbol) (name : String) : Option VarType :=
  (symbols.find? (·.name = name)).map Symbol.type

namespace Products

/-- The types of the variables. -/
def declared (p : Products) : String → Option VarType :=
  typeIn p.symbols

/-- More code, which draws a number of temporaries. -/
def extend (p : Products) (code : List Quad) (temps : Nat) : Products :=
  { p with quads := p.quads ++ code, temps := p.temps + temps }

/-- One more instruction. -/
def emit (p : Products) (quad : Quad) : Products :=
  p.extend [quad] 0

/-- One more instruction, with a fresh temporary for its result. -/
def compute (p : Products) (quad : Operand → Quad) : Products :=
  p.extend [quad (.temp (p.temps + 1))] 1

/-- One more jump, which waits for its target in the hole. -/
def wait (p : Products) (op : Operator) (condition : Option Operand) (hole : Nat) : Products :=
  { p.emit (.jump op condition (.pending hole)) with pending := p.pending + 1 }

theorem extend_nil (p : Products) : p.extend [] 0 = p := by
  simp [extend]

theorem extend_extend (p : Products) (code code' : List Quad) (temps temps' : Nat) :
    (p.extend code temps).extend code' temps' = p.extend (code ++ code') (temps + temps') := by
  simp [extend, Nat.add_assoc]

end Products

/-- What an analysis in a state has made so far. -/
def AnalysisState.products (s : AnalysisState) : Products where
  symbols := s.symbols.symbols.toList
  quads := s.generator.builder.quads.toList
  pending := s.generator.builder.pending
  temps := s.generator.temps
  narrowed := s.log.toList.filterMap Event.narrowed?

/-! ## 2. Points -/

/-- Whether a token asks for an operation, and so for a temporary. -/
def Token.operates (t : Token) : Bool :=
  t.kind = .operator ∨ t.kind = .relational

/-- The number of operations that some tokens ask for. -/
def operatorCount (ts : List Token) : Nat :=
  ts.countP Token.operates

/-- The number of operations that a terminal asks for. -/
def Terminal.cost : Terminal → Nat
  | operator _ | comparison _ => 1
  | _ => 0

/-- The tokens of a source. Semicolons are told by their kind, so the lexer answers for their
text. -/
structure Scanned extends Stream where
  semicolons : ∀ t ∈ tokens, t.kind = .semicolon → t.text = ";"

/-- A place in the tokens of a source, and what is expected there. -/
structure Point where
  form : List (ContextFreeRule.Item Terminal NonTerminal)
  /-- the operations that were read but not yet computed -/
  due : Nat
  seen : List Token
  coming : List Token

/-- The point is one that a parser of the source comes to, no rule about names has been broken
before it, and what has been made fits the tokens that have been seen. -/
structure Sound (x : Scanned) (π : Point) (p : Products) : Prop where
  tokens : x.tokens = π.seen ++ π.coming
  moves : table.Moves [.nonterminal .program] (x.tokens.map Token.terminal?) π.form
    (π.coming.map Token.terminal?)
  wellNamed : WellNamed π.seen
  names : p.symbols.map Symbol.name = identifiers (declarationPart π.seen)
  drawn : p.temps + π.due = operatorCount π.seen

/-- A complaint that is justified at a point. -/
inductive Complaint (x : Scanned) (π : Point) : Stop → Prop
  /-- the next token cannot be cut out -/
  | lexical {e : LexError} {stack : List NonTerminal} (ends : π.coming = [])
      (fails : x.error = some e) : Complaint x π (.rejected (.lexical e) (some e.span) stack)
  /-- the next token is not one that can stand here -/
  | unexpected {t : Token} {rest : List Token} {expected : String} {stack : List NonTerminal}
      (next : π.coming = t :: rest) (stuck : table.Stuck π.form (some t.terminal?)) :
      Complaint x π (.rejected (.unexpected expected (some t)) (some t.span) stack)
  /-- the source must not end here -/
  | ended {expected : String} {stack : List NonTerminal} (ends : π.coming = [])
      (atEnd : x.error = none) (stuck : table.Stuck π.form none) :
      Complaint x π (.rejected (.unexpected expected none)
        (π.seen.getLast?.map fun t => ⟨t.span.offset + t.span.len, 0⟩) stack)
  /-- the next token declares a name again -/
  | redeclared {t : Token} {rest : List Token}
      {form : List (ContextFreeRule.Item Terminal NonTerminal)}
      {stack : List NonTerminal} (next : π.coming = t :: rest)
      (expects : π.form = .terminal .identifier :: form) (again : Redeclares π.seen t) :
      Complaint x π (.rejected (.declaration (.alreadyDeclared t.text)) (some t.span) stack)
  /-- the next token uses a name that was not declared -/
  | undeclared {t : Token} {rest : List Token}
      {form : List (ContextFreeRule.Item Terminal NonTerminal)}
      {stack : List NonTerminal} (next : π.coming = t :: rest)
      (expects : π.form = .terminal .identifier :: form) (unknown : UsesUndeclared π.seen t) :
      Complaint x π (.rejected (.declaration (.undeclared t.text)) (some t.span) stack)
  /-- there are more operations than temporaries -/
  | overflow (many : Generator.tempLimit ≤ operatorCount π.seen) :
      Complaint x π (.fault .additionOverflow)
  /-- the source must not end here, but a token ends so far out that no machine word says where -/
  | misplaced {t : Token} (mem : t ∈ x.tokens) (far : wordLimit ≤ t.span.offset + t.span.len)
      (ends : π.coming = []) (atEnd : x.error = none) (stuck : table.Stuck π.form none) :
      Complaint x π (.fault .additionOverflow)

/-- A way to stop that is justified at some point of the source. -/
def Violates (x : Scanned) (stop : Stop) : Prop :=
  ∃ π p, Sound x π p ∧ Complaint x π stop

/-! ## 3. The judgments -/

/-- The lexer is where the point is. If no token is left, the last one that was taken is the last
one seen; otherwise it may have been given back. -/
structure At (x : Scanned) (π : Point) (s : AnalysisState) : Prop where
  stream : s.lexer.stream = ⟨π.coming, x.error⟩
  lastSpan : π.coming = [] → s.lastSpan = π.seen.getLast?.map Token.span

/-- The lexer has just handed out the token `t`. -/
structure Past (x : Scanned) (t : Token) (rest : List Token) (s : AnalysisState) : Prop where
  stream : s.lexer.stream = ⟨rest, x.error⟩
  last : s.lexer.last = some t
  pushback : s.lexer.pushback = none
  lastSpan : s.lastSpan = some t.span

section

variable {α β : Type}

/-- A run ends at a sound point with `Q`, or stops with a justified complaint. -/
def Ending (x : Scanned) (Q : Point → α → Products → Prop) :
    EStateM.Result Stop AnalysisState α → Prop
  | .ok a s => ∃ π, Sound x π s.products ∧ At x π s ∧ Q π a s.products
  | .error stop _ => Violates x stop

/-- **Started at `π` with `p` made so far, the part `m` reads on.** -/
def Reads (x : Scanned) (π : Point) (p : Products) (m : Analyzer α)
    (Q : Point → α → Products → Prop) : Prop :=
  Sound x π p → ∀ s, At x π s → s.products = p → Ending x Q (m s)

/-- The same for a part that holds the next token. -/
def Holding (x : Scanned) (form : List (ContextFreeRule.Item Terminal NonTerminal)) (due : Nat)
    (seen : List Token) (t : Token) (rest : List Token) (p : Products) (m : Analyzer α)
    (Q : Point → α → Products → Prop) : Prop :=
  Sound x ⟨form, due, seen, t :: rest⟩ p → ∀ s, Past x t rest s → s.products = p →
    Ending x Q (m s)

variable {x : Scanned} {π : Point} {p : Products}
  {form : List (ContextFreeRule.Item Terminal NonTerminal)} {due : Nat}
  {seen coming rest : List Token} {t : Token} {s : AnalysisState} {Q : Point → β → Products → Prop}

theorem Reads.pure {b : β} (h : Q π b p) : Reads x π p (Pure.pure b) Q := by
  rintro hsound s hat rfl
  exact ⟨π, hsound, hat, h⟩

theorem run_bind_ok {m : Analyzer α} {f : α → Analyzer β} {a : α} {s s' : AnalysisState}
    (h : m s = .ok a s') : (m >>= f) s = f a s' := by
  show EStateM.bind m f s = _
  rw [EStateM.bind, h]

theorem run_bind_error {m : Analyzer α} {f : α → Analyzer β} {stop : Stop} {s s' : AnalysisState}
    (h : m s = .error stop s') : (m >>= f) s = .error stop s' := by
  show EStateM.bind m f s = _
  rw [EStateM.bind, h]

theorem Ending.bind {m : Analyzer α} {f : α → Analyzer β}
    (h : Ending x (fun π a p => Reads x π p (f a) Q) (m s)) : Ending x Q ((m >>= f) s) := by
  cases hm : m s with
  | ok a s' =>
    rw [hm] at h
    obtain ⟨π, hsound, hat, hf⟩ := h
    rw [run_bind_ok hm]
    exact hf hsound s' hat rfl
  | error stop s' =>
    rw [hm] at h
    rw [run_bind_error hm]
    exact h

theorem Reads.bind {m : Analyzer α} {f : α → Analyzer β}
    (h : Reads x π p m fun π' a p' => Reads x π' p' (f a) Q) : Reads x π p (m >>= f) Q :=
  fun hsound s hat hp => (h hsound s hat hp).bind

theorem Holding.bind {m : Analyzer α} {f : α → Analyzer β}
    (h : Holding x form due seen t rest p m fun π' a p' => Reads x π' p' (f a) Q) :
    Holding x form due seen t rest p (m >>= f) Q :=
  fun hsound s hpast hp => (h hsound s hpast hp).bind

theorem Reads.mono {m : Analyzer β} {Q' : Point → β → Products → Prop} (h : Reads x π p m Q)
    (hQ : ∀ π b p, Q π b p → Q' π b p) : Reads x π p m Q' := by
  intro hsound s hat hp
  have hm := h hsound s hat hp
  cases hms : m s with
  | ok b s' =>
    rw [hms] at hm
    obtain ⟨π', hsound', hat', hb⟩ := hm
    exact ⟨π', hsound', hat', hQ _ _ _ hb⟩
  | error stop s' =>
    rw [hms] at hm
    exact hm

/-- The next token names the right side of the category that is expected. -/
theorem Reads.expand {A : NonTerminal} {out : List (ContextFreeRule.Item Terminal NonTerminal)}
    {item : Option Terminal} {m : Analyzer β} (hnext : coming.head?.bind Token.terminal? = item)
    (named : table.predict A item = some out)
    (h : Reads x ⟨out ++ form, due, seen, coming⟩ p m Q) :
    Reads x ⟨.nonterminal A :: form, due, seen, coming⟩ p m Q := by
  intro hsound s hat hp
  refine h ⟨hsound.tokens, ?_, hsound.wellNamed, hsound.names, hsound.drawn⟩ s
    ⟨hat.stream, hat.lastSpan⟩ hp
  refine hsound.moves.trans (.expand ?_ .refl)
  rw [show ((coming.map Token.terminal?).head?.join) = coming.head?.bind Token.terminal? by
    cases coming <;> rfl, hnext]
  exact named

theorem Holding.expand {A : NonTerminal} {out : List (ContextFreeRule.Item Terminal NonTerminal)}
    {item : Option Terminal} {m : Analyzer β} (hnext : t.terminal? = item)
    (named : table.predict A item = some out) (h : Holding x (out ++ form) due seen t rest p m Q) :
    Holding x (.nonterminal A :: form) due seen t rest p m Q := by
  intro hsound s hpast hp
  refine h ⟨hsound.tokens, ?_, hsound.wellNamed, hsound.names, hsound.drawn⟩ s hpast hp
  refine hsound.moves.trans (.expand ?_ .refl)
  show table.predict A t.terminal? = some out
  rw [hnext]
  exact named

end

end ThreeAddress
