import ThreeAddress.Analysis.Basic
import ThreeAddress.Proofs.Renaming.Steps

/-!
# Rules in lockstep

All rules of an analysis keep two runs in step. For a rule that does not call itself this follows
from its steps. The others are proved together, by induction on the recursion bound of the first
analysis; the bound of the second one is arbitrary, because the sources may differ in length.
-/

namespace ThreeAddress

open Analyzer

variable {r : String → String} {x y : Stream} {t u : Token} {bound bound' : Nat}

/-- The second value is the first one, renamed. -/
def RenamedValue (r : String → String) (v w : Value) : Prop :=
  w = v.rename r

/-! ## 1. Expressions -/

/-- The rules for expressions keep in step, with these bounds. -/
structure ExpressionsInStep (r : String → String) (x y : Stream) (bound bound' : Nat) : Prop where
  expression : Lockstep r x y (RenamedValue r) (expression bound) (expression bound')
  otherTerms : ∀ v,
    Lockstep r x y (RenamedValue r) (otherTerms bound v) (otherTerms bound' (v.rename r))
  term : Lockstep r x y (RenamedValue r) (term bound) (term bound')
  factor : Lockstep r x y (RenamedValue r) (factor bound) (factor bound')
  moreFactors : ∀ v,
    Lockstep r x y (RenamedValue r) (moreFactors bound v) (moreFactors bound' (v.rename r))

theorem Lockstep.binary (op : Operator) (v w : Value) :
    Lockstep r x y (RenamedValue r) (Analyzer.binary op v w)
      (Analyzer.binary op (v.rename r) (w.rename r)) := by
  unfold Analyzer.binary
  exact .bind (.onGenerator fun g => g.binary_renamed op v w) fun _ _ hanswer => .trust hanswer

theorem ExpressionsInStep.expression_succ (hrules : ExpressionsInStep r x y bound bound') :
    Lockstep r x y (RenamedValue r) (Analyzer.expression (bound + 1))
      (Analyzer.expression (bound' + 1)) := by
  rw [Analyzer.expression, Analyzer.expression]
  refine .bind (.within hrules.term) fun v w hvalue => ?_
  subst hvalue
  exact .within (hrules.otherTerms v)

namespace Counterparts

variable (h : Counterparts r x y)

include h

theorem peekArithmetic (accepted : List Operator) :
    Lockstep r x y Eq (Analyzer.peekArithmetic accepted) (Analyzer.peekArithmetic accepted) := by
  unfold Analyzer.peekArithmetic
  refine .bind h.peek fun found found' hfound => ?_
  cases hfound with
  | none => exact .pure rfl
  | @some t u htwins =>
    refine .ite (by rw [h.kind_eq htwins]) (fun hk => ?_) fun _ => .pure rfl
    rw [h.text_eq htwins (by rw [hk]; exact TokenKind.noConfusion)]
    exact .pure rfl

theorem unaryOp : Lockstep r x y Eq Analyzer.unaryOp Analyzer.unaryOp := by
  unfold Analyzer.unaryOp
  refine .bind h.consume fun found found' hfound => ?_
  cases hfound with
  | none => exact .pure rfl
  | some htwins =>
    refine .ite (by rw [h.is_eq htwins TokenKind.noConfusion]) (fun _ => .pure rfl) fun _ => ?_
    exact .bind h.retract fun _ _ _ => .pure rfl

/-- An operator, its right operand, and the rest of the sum or of the product. -/
theorem operation {operand operand' : Analyzer Value} {rest rest' : Value → Analyzer Value}
    (hoperand : Lockstep r x y (RenamedValue r) operand operand')
    (hrest : ∀ v, Lockstep r x y (RenamedValue r) (rest v) (rest' (v.rename r))) (op : Operator)
    (v : Value) :
    Lockstep r x y (RenamedValue r)
      (do let _ ← Analyzer.consume; rest (← Analyzer.binary op v (← operand)))
      (do let _ ← Analyzer.consume; rest' (← Analyzer.binary op (v.rename r) (← operand'))) := by
  refine .bind h.consume fun _ _ _ => .bind hoperand fun w w' hright => ?_
  subst hright
  refine .bind (.binary op v w) fun z z' hvalue => ?_
  subst hvalue
  exact hrest z

theorem otherTerms_succ (hrules : ExpressionsInStep r x y bound bound') (v : Value) :
    Lockstep r x y (RenamedValue r) (otherTerms (bound + 1) v)
      (otherTerms (bound' + 1) (v.rename r)) := by
  rw [otherTerms, otherTerms]
  refine .bind (h.peekArithmetic _) fun op op' hop => ?_
  subst hop
  cases op with
  | none => exact .pure rfl
  | some op => exact h.operation (.within hrules.term) (fun z => .within (hrules.otherTerms z)) op v

theorem term_succ (hrules : ExpressionsInStep r x y bound bound') :
    Lockstep r x y (RenamedValue r) (term (bound + 1)) (term (bound' + 1)) := by
  rw [term, term]
  refine .bind (.within h.unaryOp) fun negated negated' hnegated => ?_
  subst hnegated
  refine .bind (.within hrules.factor) fun v v' hvalue => ?_
  subst hvalue
  have hrest (v v' : Value) (hvalue : RenamedValue r v v') : Lockstep r x y (RenamedValue r)
      (Analyzer.within .moreFactors (moreFactors bound v))
      (Analyzer.within .moreFactors (moreFactors bound' v')) := by
    subst hvalue
    exact .within (hrules.moreFactors v)
  cases negated with
  | false => exact hrest v _ rfl
  | true =>
    refine .bind (.onGenerator fun g => g.negate_renamed v) fun answer answer' hanswer => ?_
    exact .bind (.trust hanswer) hrest

theorem factor_succ (hrules : ExpressionsInStep r x y bound bound') :
    Lockstep r x y (RenamedValue r) (factor (bound + 1)) (factor (bound' + 1)) := by
  rw [factor, factor]
  refine .bind h.consume fun found found' hfound => ?_
  cases hfound with
  | none => exact h.unexpected _ .none
  | @some t u htwins =>
    have hkind := h.kind_eq htwins
    refine .ite (by rw [hkind]) (fun hk => ?_) fun _ => ?_
    · refine .bind (h.reference htwins hk) fun type type' htype => ?_
      subst htype
      rw [h.name_eq htwins hk]
      exact .pure rfl
    refine .ite (by rw [hkind]) (fun hk => ?_) fun _ => ?_
    · rw [h.text_eq htwins (by rw [hk]; exact TokenKind.noConfusion)]
      exact .pure rfl
    refine .ite (by rw [hkind]) (fun hk => ?_) fun _ => ?_
    · rw [h.text_eq htwins (by rw [hk]; exact TokenKind.noConfusion)]
      exact .pure rfl
    refine .ite (by rw [h.is_eq htwins TokenKind.noConfusion]) (fun _ => ?_) fun _ => ?_
    · refine .bind (.within hrules.expression) fun v v' hvalue => ?_
      exact .bind (h.expectSymbol ")") fun _ _ _ => .pure hvalue
    · exact h.unexpected _ (.some htwins)

theorem moreFactors_succ (hrules : ExpressionsInStep r x y bound bound') (v : Value) :
    Lockstep r x y (RenamedValue r) (moreFactors (bound + 1) v)
      (moreFactors (bound' + 1) (v.rename r)) := by
  rw [moreFactors, moreFactors]
  refine .bind (h.peekArithmetic _) fun op op' hop => ?_
  subst hop
  cases op with
  | none => exact .pure rfl
  | some op =>
    exact h.operation (.within hrules.factor) (fun z => .within (hrules.moreFactors z)) op v

theorem expressionsInStep (bound bound' : Nat) : ExpressionsInStep r x y bound bound' := by
  induction bound using Nat.strongRecOn generalizing bound' with
  | ind bound ih =>
    have hrules {b : Nat} (b' : Nat) (hb : bound = b + 1) : ExpressionsInStep r x y b b' :=
      ih b (by omega) b'
    refine ⟨?_, fun v => ?_, ?_, ?_, fun v => ?_⟩
    · exact .of_bounds expression expression (by rw [expression]) (by rw [expression])
        fun b b' hb => (hrules b' hb).expression_succ
    · exact .of_bounds (otherTerms · v) (otherTerms · (v.rename r)) (by rw [otherTerms])
        (by rw [otherTerms]) fun b b' hb => h.otherTerms_succ (hrules b' hb) v
    · exact .of_bounds term term (by rw [term]) (by rw [term])
        fun b b' hb => h.term_succ (hrules b' hb)
    · exact .of_bounds factor factor (by rw [factor]) (by rw [factor]) fun b b' hb =>
        h.factor_succ (hrules b' hb)
    · exact .of_bounds (moreFactors · v) (moreFactors · (v.rename r)) (by rw [moreFactors])
        (by rw [moreFactors]) fun b b' hb => h.moreFactors_succ (hrules b' hb) v

theorem relation : Lockstep r x y Eq Analyzer.relation Analyzer.relation := by
  unfold Analyzer.relation
  refine .bind h.consume fun found found' hfound => ?_
  cases hfound with
  | none => exact h.unexpected _ .none
  | @some t u htwins =>
    refine .ite (by rw [h.kind_eq htwins]) (fun hk => ?_) fun _ => h.unexpected _ (.some htwins)
    rw [h.text_eq htwins (by rw [hk]; exact TokenKind.noConfusion)]
    cases Operator.ofRelational? t.text with
    | some op => exact .pure rfl
    | none => exact h.unexpected _ (.some htwins)

theorem condition (bound bound' : Nat) :
    Lockstep r x y Eq (Analyzer.condition bound) (Analyzer.condition bound') := by
  have hexpression := (h.expressionsInStep bound bound').expression
  unfold Analyzer.condition
  refine .bind (.within hexpression) fun v v' hleft => .bind (.within h.relation)
    fun op op' hop => ?_
  refine .bind (.within hexpression) fun w w' hright => ?_
  subst hleft hop hright
  exact .bind (.onGenerator fun g => g.compare_renamed op v w) fun _ _ hanswer => .trust hanswer

end Counterparts

/-! ## 2. Commands -/

/-- The rules for commands keep in step, with these bounds. -/
structure CommandsInStep (r : String → String) (x y : Stream) (bound bound' : Nat) : Prop where
  commands : Lockstep r x y Eq (commands bound) (commands bound')
  moreCommands : Lockstep r x y Eq (moreCommands bound) (moreCommands bound')
  command : Lockstep r x y Eq (command bound) (command bound')
  conditional : Lockstep r x y Eq (conditional bound) (conditional bound')
  loop : Lockstep r x y Eq (loop bound) (loop bound')

theorem CommandsInStep.commands_succ (hrules : CommandsInStep r x y bound bound') :
    Lockstep r x y Eq (Analyzer.commands (bound + 1)) (Analyzer.commands (bound' + 1)) := by
  rw [Analyzer.commands, Analyzer.commands]
  exact .bind (.within hrules.command) fun _ _ _ => .within hrules.moreCommands

namespace Counterparts

variable (h : Counterparts r x y)

include h

theorem isKeyword_eq (ht : x.Twins y t u) (k : Keyword) : u.isKeyword k = t.isKeyword k := by
  unfold Token.isKeyword
  rw [h.keyword?_eq ht]

theorem startsCommand_eq (ht : x.Twins y t u) : startsCommand u = startsCommand t := by
  unfold startsCommand
  rw [h.kind_eq ht, funext (h.isKeyword_eq ht)]

theorem parenthesizedVariable :
    Lockstep r x y (fun t u => u.text = r t.text) Analyzer.parenthesizedVariable
      Analyzer.parenthesizedVariable := by
  unfold Analyzer.parenthesizedVariable
  refine .bind (h.expectSymbol "(") fun _ _ _ => .bind h.expectIdentifier fun t u hident => ?_
  refine .bind (h.reference hident.1 hident.2) fun _ _ _ => ?_
  exact .bind (h.expectSymbol ")") fun _ _ _ => .pure (h.name_eq hident.1 hident.2)

theorem assignment (bound bound' : Nat) (ht : x.Twins y t u) (hk : t.kind = .identifier) :
    Lockstep r x y Eq (Analyzer.assignment bound t) (Analyzer.assignment bound' u) := by
  unfold Analyzer.assignment
  refine .bind (h.reference ht hk) fun declared declared' hdeclared => ?_
  refine .bind (h.expect TokenKind.noConfusion ":=") fun _ _ _ => ?_
  refine .bind (.within (h.expressionsInStep bound bound').expression) fun v v' hvalue => ?_
  subst hdeclared hvalue
  have hstore : Lockstep r x y Eq
      (do let _ ← onGenerator (·.store t.text v))
      (do let _ ← onGenerator (·.store u.text (v.rename r))) := by
    rw [h.name_eq ht hk]
    exact .bind (.onGenerator fun g => g.emit_renamed _) fun _ _ _ => .pure rfl
  exact .ite Iff.rfl (fun _ => .bind .report fun _ _ _ => hstore) fun _ => hstore

theorem moreCommands_succ (hrules : CommandsInStep r x y bound bound') :
    Lockstep r x y Eq (moreCommands (bound + 1)) (moreCommands (bound' + 1)) := by
  rw [moreCommands, moreCommands]
  refine .bind (h.consumeIf fun t u ht => by rw [h.kind_eq ht]) fun taken taken' htaken => ?_
  subst htaken
  refine .ite Iff.rfl (fun _ => .within hrules.commands) fun _ => ?_
  refine .bind h.peek fun found found' hfound => ?_
  have hstarts : found'.any startsCommand = found.any startsCommand := by
    cases hfound with
    | none => rfl
    | some ht => exact h.startsCommand_eq ht
  exact .ite (by rw [hstarts]) (fun _ => .within hrules.commands) fun _ => .pure rfl

theorem command_succ (hrules : CommandsInStep r x y bound bound') :
    Lockstep r x y Eq (command (bound + 1)) (command (bound' + 1)) := by
  rw [command, command]
  refine .bind h.consume fun found found' hfound => ?_
  cases hfound with
  | none => exact h.unexpected _ .none
  | @some t u ht =>
    have hother : Lockstep r x y Eq
        (if t.kind = .identifier then Analyzer.assignment bound t
          else Analyzer.unexpected (.unexpected "a command") (some t))
        (if u.kind = .identifier then Analyzer.assignment bound' u
          else Analyzer.unexpected (.unexpected "a command") (some u)) :=
      .ite (by rw [h.kind_eq ht]) (fun hk => h.assignment bound bound' ht hk) fun _ =>
        h.unexpected _ (.some ht)
    dsimp only
    rw [h.keyword?_eq ht]
    cases t.keyword? with
    | none => exact hother
    | some k =>
      cases k with
      | readWord =>
        refine .bind h.parenthesizedVariable fun ident ident' hname => ?_
        rw [hname]
        exact .bind (.onGenerator fun g => g.emit_renamed _) fun _ _ _ => .pure rfl
      | writeWord =>
        refine .bind h.parenthesizedVariable fun ident ident' hname => ?_
        rw [hname]
        exact .bind (.onGenerator fun g => g.emit_renamed _) fun _ _ _ => .pure rfl
      | ifWord => exact hrules.conditional
      | whileWord => exact hrules.loop
      | _ => exact hother

theorem conditional_succ (hrules : CommandsInStep r x y bound bound') :
    Lockstep r x y Eq (conditional (bound + 1)) (conditional (bound' + 1)) := by
  rw [conditional, conditional]
  refine .bind (.within (h.condition bound bound')) fun holds holds' hholds => ?_
  subst hholds
  refine .bind (h.expectKeyword .thenWord) fun _ _ _ => ?_
  refine .emit_bind (fun g => g.jumpIfFalse_renamed holds) fun onFalse => ?_
  refine .bind (.within hrules.commands) fun _ _ _ => ?_
  refine .emit_bind (fun g => g.jump_renamed) fun skipElse => ?_
  refine .bind (.patchHere onFalse) fun _ _ _ => ?_
  refine .bind (.within (h.optional (fun t u ht => h.isKeyword_eq ht .elseWord)
    (.within hrules.commands))) fun _ _ _ => ?_
  exact .bind (.patchHere skipElse) fun _ _ _ => h.expectSymbol "$"

theorem loop_succ (hrules : CommandsInStep r x y bound bound') :
    Lockstep r x y Eq (loop (bound + 1)) (loop (bound' + 1)) := by
  rw [loop, loop]
  refine .get_bind fun s s' hs => ?_
  have hstart : s'.generator.nextIndex = s.generator.nextIndex := by
    rw [hs.generator]
    exact s.generator.builder.nextIndex_rename
  dsimp only
  rw [hstart]
  refine .bind .report fun _ _ _ => ?_
  refine .bind (.within (h.condition bound bound')) fun holds holds' hholds => ?_
  subst hholds
  refine .bind (h.expectKeyword .doWord) fun _ _ _ => ?_
  refine .emit_bind (fun g => g.jumpIfFalse_renamed holds) fun exit => ?_
  refine .bind (.within hrules.commands) fun _ _ _ => ?_
  refine .emit_bind (fun g => g.jumpTo_renamed _) fun _ => ?_
  exact .bind (.patchHere exit) fun _ _ _ => h.expectSymbol "$"

theorem commandsInStep (bound bound' : Nat) : CommandsInStep r x y bound bound' := by
  induction bound using Nat.strongRecOn generalizing bound' with
  | ind bound ih =>
    have hrules {b : Nat} (b' : Nat) (hb : bound = b + 1) : CommandsInStep r x y b b' :=
      ih b (by omega) b'
    refine ⟨?_, ?_, ?_, ?_, ?_⟩
    · exact .of_bounds commands commands (by rw [commands]) (by rw [commands]) fun b b' hb =>
        (hrules b' hb).commands_succ
    · exact .of_bounds moreCommands moreCommands (by rw [moreCommands]) (by rw [moreCommands])
        fun b b' hb => h.moreCommands_succ (hrules b' hb)
    · exact .of_bounds command command (by rw [command]) (by rw [command]) fun b b' hb =>
        h.command_succ (hrules b' hb)
    · exact .of_bounds conditional conditional (by rw [conditional]) (by rw [conditional])
        fun b b' hb => h.conditional_succ (hrules b' hb)
    · exact .of_bounds loop loop (by rw [loop]) (by rw [loop])
        fun b b' hb => h.loop_succ (hrules b' hb)

/-! ## 3. Declarations -/

theorem declaredType?_eq (ht : x.Twins y t u) : declaredType? u = declaredType? t := by
  unfold declaredType?
  rw [h.keyword?_eq ht]

theorem varType : Lockstep r x y Eq Analyzer.varType Analyzer.varType := by
  unfold Analyzer.varType
  refine .bind h.consume fun found found' hfound => ?_
  cases hfound with
  | none => exact h.unexpected _ .none
  | @some t u ht =>
    dsimp only
    rw [h.declaredType?_eq ht]
    cases declaredType? t with
    | some type => exact .pure rfl
    | none => exact h.unexpected _ (.some ht)

theorem variableNames (type : VarType) (bound bound' : Nat) :
    Lockstep r x y Eq (Analyzer.variableNames bound type) (Analyzer.variableNames bound' type) := by
  induction bound using Nat.strongRecOn generalizing bound' with
  | ind bound ih =>
    refine .of_bounds (Analyzer.variableNames · type) (Analyzer.variableNames · type)
      (by rw [Analyzer.variableNames]) (by rw [Analyzer.variableNames]) fun b b' hb => ?_
    rw [Analyzer.variableNames, Analyzer.variableNames]
    refine .bind h.expectIdentifier fun t u hident => ?_
    refine .bind (h.declare hident.1 hident.2 type) fun _ _ _ => .within ?_
    exact h.optional (fun t u ht => h.is_eq ht TokenKind.noConfusion ",")
      (.within (ih b (by omega) b'))

theorem varDeclaration (bound bound' : Nat) :
    Lockstep r x y Eq (Analyzer.varDeclaration bound) (Analyzer.varDeclaration bound') := by
  unfold Analyzer.varDeclaration
  refine .bind (.within h.varType) fun type type' htype => ?_
  subst htype
  refine .bind (h.expect TokenKind.noConfusion ":") fun _ _ _ => ?_
  exact .within (h.variableNames type bound bound')

theorem declarations (bound bound' : Nat) :
    Lockstep r x y Eq (Analyzer.declarations bound) (Analyzer.declarations bound') := by
  induction bound using Nat.strongRecOn generalizing bound' with
  | ind bound ih =>
    refine .of_bounds Analyzer.declarations Analyzer.declarations (by rw [Analyzer.declarations])
      (by rw [Analyzer.declarations]) fun b b' hb => ?_
    rw [Analyzer.declarations, Analyzer.declarations]
    refine .bind h.peek fun found found' hfound => ?_
    have htype : found'.bind declaredType? = found.bind declaredType? := by
      cases hfound with
      | none => rfl
      | some ht => exact h.declaredType?_eq ht
    refine .ite (by rw [htype]) (fun _ => ?_) fun _ => .pure rfl
    refine .bind (.within (h.varDeclaration b b')) fun _ _ _ => .within ?_
    exact h.optional (fun t u ht => by rw [h.kind_eq ht]) (.within (ih b (by omega) b'))

/-! ## 4. Whole sources -/

theorem body (bound bound' : Nat) :
    Lockstep r x y Eq (Analyzer.body bound) (Analyzer.body bound') := by
  unfold Analyzer.body
  refine .bind (.within (h.declarations bound bound')) fun _ _ _ => ?_
  refine .bind (h.expectKeyword .beginWord) fun _ _ _ => ?_
  refine .bind (.within (h.commandsInStep bound bound').commands) fun _ _ _ => ?_
  exact h.expectKeyword .endWord

theorem program (bound bound' : Nat) :
    Lockstep r x y Eq (Analyzer.program bound) (Analyzer.program bound') := by
  unfold Analyzer.program
  refine .bind (h.expectKeyword .programWord) fun _ _ _ => .bind h.expectIdentifier fun _ _ _ => ?_
  refine .bind .report fun _ _ _ => .bind (.within (h.body bound bound')) fun _ _ _ => ?_
  exact h.expectSymbol "."

end Counterparts

end ThreeAddress
